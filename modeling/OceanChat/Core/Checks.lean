import Mathlib.Data.List.Basic

/-!
# Checks in a fixed order

A validator runs its checks one after the other and throws what the first
failing check throws.
-/

namespace Checks

theorem bind_eq_ok {Error Value Result : Type} {action : Except Error Value}
    {next : Value → Except Error Result} {result : Result} :
    action >>= next = .ok result ↔
      ∃ value, action = .ok value ∧ next value = .ok result := by
  cases action with
  | error error => simp [bind, Except.bind]
  | ok value => simp [bind, Except.bind]

/-- What is caught and thrown again does not turn into a result. -/
theorem mapError_eq_ok {Error Thrown Value : Type} {action : Except Error Value}
    {rethrow : Error → Thrown} {value : Value} :
    action.mapError rethrow = .ok value ↔ action = .ok value := by
  cases action <;> simp [Except.mapError]

/-- Throw if the check fails. -/
def reject {Error : Type} (fails : Bool) (error : Error) : Except Error Unit :=
  if fails then .error error else .ok ()

section Reject

variable {Error Check : Type} {fails : Bool} {error thrown : Error}

@[simp]
theorem reject_eq_ok : reject fails error = .ok () ↔ fails = false := by
  cases fails <;> simp [reject]

variable {check : Check → Except Error Unit} {checks : List Check}

/-- The checks pass together if each of them passes. -/
theorem forM_eq_ok :
    checks.forM check = .ok () ↔ ∀ one ∈ checks, check one = .ok () := by
  induction checks with
  | nil => simp [List.forM, pure, Except.pure]
  | cons first rest ih =>
      change (check first >>= fun _ => rest.forM check) = .ok () ↔ _
      simp only [bind_eq_ok, ih, List.mem_cons, forall_eq_or_imp]
      constructor
      · rintro ⟨_, hfirst, hrest⟩
        exact ⟨hfirst, hrest⟩
      · rintro ⟨hfirst, hrest⟩
        exact ⟨(), hfirst, hrest⟩

/-- What is thrown is what the first failing check throws. -/
theorem forM_eq_error : checks.forM check = .error thrown ↔
    ∃ before one after, checks = before ++ one :: after ∧
      (∀ passed ∈ before, check passed = .ok ()) ∧ check one = .error thrown := by
  induction checks with
  | nil => simp [List.forM, pure, Except.pure]
  | cons first rest ih =>
      change (check first >>= fun _ => rest.forM check) = .error thrown ↔ _
      cases hfirst : check first with
      | error error =>
          constructor
          · intro hthrown
            exact ⟨[], first, rest, rfl, nofun, hfirst.trans hthrown⟩
          · rintro ⟨before, one, after, hchecks, hpassed, hone⟩
            cases before with
            | nil =>
                obtain ⟨rfl, rfl⟩ := List.cons.inj hchecks
                exact hfirst.symm.trans hone
            | cons head tail =>
                obtain ⟨rfl, -⟩ := List.cons.inj hchecks
                rw [hpassed first List.mem_cons_self] at hfirst
                cases hfirst
      | ok passed =>
          change rest.forM check = .error thrown ↔ _
          rw [ih]
          constructor
          · rintro ⟨before, one, after, rfl, hpassed, hone⟩
            refine ⟨first :: before, one, after, rfl, ?_, hone⟩
            exact List.forall_mem_cons.mpr ⟨hfirst, hpassed⟩
          · rintro ⟨before, one, after, hchecks, hpassed, hone⟩
            cases before with
            | nil =>
                obtain ⟨rfl, -⟩ := List.cons.inj hchecks
                rw [hfirst] at hone
                cases hone
            | cons head tail =>
                obtain ⟨-, rfl⟩ := List.cons.inj hchecks
                exact ⟨tail, one, after, rfl,
                  (List.forall_mem_cons.mp hpassed).2, hone⟩

end Reject

/-! ## What can be thrown -/

section Throws

variable {Error Value Result : Type} {Allowed : Error → Prop}

/-- Whatever the action throws is allowed. -/
def Throws (Allowed : Error → Prop) (action : Except Error Value) : Prop :=
  ∀ error, action = .error error → Allowed error

theorem Throws.ok (value : Value) : Throws Allowed (.ok value) := by
  intro error herror
  cases herror

theorem Throws.error {error : Error} (hallowed : Allowed error) :
    Throws Allowed (.error error : Except Error Value) := by
  intro other hother
  exact Except.error.inj hother ▸ hallowed

theorem Throws.bind {action : Except Error Value}
    {next : Value → Except Error Result} (haction : Throws Allowed action)
    (hnext : ∀ value, Throws Allowed (next value)) :
    Throws Allowed (action >>= next) := by
  cases action with
  | error error => exact Throws.error (haction error rfl)
  | ok value => exact hnext value

theorem Throws.reject {fails : Bool} {error : Error} (hallowed : Allowed error) :
    Throws Allowed (reject fails error) := by
  cases fails with
  | false => exact Throws.ok ()
  | true => exact Throws.error hallowed

end Throws

end Checks
