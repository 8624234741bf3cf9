import Mathlib

/-!
# Climbing a parent relation

Every node has at most one parent.  A search that asks the parent first and
looks at the node itself afterwards comes to an end exactly where the chain of
parents does, and then it has looked at every ancestor.
-/

namespace Ancestors

open Relation

variable {Node : Type*} {parent : Node → Option Node}

/-- `ancestor` is on the chain of parents that starts at `node`. -/
abbrev Ancestor (parent : Node → Option Node) (node ancestor : Node) : Prop :=
  ReflTransGen (fun child next => parent child = some next) node ancestor

/-- The chain of parents comes to a node without a parent. -/
inductive Ends (parent : Node → Option Node) : Node → Prop
  | root {node : Node} (hroot : parent node = none) : Ends parent node
  | step {node next : Node} (hparent : parent node = some next)
      (hends : Ends parent next) : Ends parent node

/-- A chain that comes back to a node does not end. -/
theorem not_ends_of_cycle {node : Node}
    (hcycle : TransGen (fun child next => parent child = some next) node node) :
    ¬ Ends parent node := by
  intro hends
  induction hends with
  | root hroot =>
      obtain ⟨next, hparent, -⟩ := TransGen.head'_iff.mp hcycle
      simp [hroot] at hparent
  | step hstep _ ih =>
      obtain ⟨next, hparent, hback⟩ := TransGen.head'_iff.mp hcycle
      obtain rfl := Option.some.inj (hstep.symm.trans hparent)
      exact ih (TransGen.tail' hback hparent)

theorem exists_ancestor_iff {property : Node → Prop} {node : Node} :
    (∃ ancestor, Ancestor parent node ancestor ∧ property ancestor) ↔
      property node ∨ ∃ next, parent node = some next ∧
        ∃ ancestor, Ancestor parent next ancestor ∧ property ancestor := by
  constructor
  · rintro ⟨ancestor, hancestor, hproperty⟩
    rcases ReflTransGen.cases_head hancestor with rfl | ⟨next, hparent, hrest⟩
    · exact .inl hproperty
    · exact .inr ⟨next, hparent, ancestor, hrest, hproperty⟩
  · rintro (hproperty | ⟨next, hparent, ancestor, hrest, hproperty⟩)
    · exact ⟨node, .refl, hproperty⟩
    · exact ⟨ancestor, .head hparent hrest, hproperty⟩

/-! ## The search -/

/-- Ask the parent first; `none` when the calls are nested deeper than the
fuel. -/
def climb (parent : Node → Option Node) (accepts : Node → Bool) :
    ℕ → Node → Option Bool
  | 0, _ => none
  | fuel + 1, node =>
      match parent node with
      | none => some (accepts node)
      | some next => (climb parent accepts fuel next).map (· || accepts node)

variable {accepts : Node → Bool} {node : Node} {fuel : ℕ} {result : Bool}

theorem climb_of_root (hroot : parent node = none) :
    climb parent accepts (fuel + 1) node = some (accepts node) := by
  rw [climb, hroot]

theorem climb_of_parent {next : Node} (hparent : parent node = some next) :
    climb parent accepts (fuel + 1) node =
      (climb parent accepts fuel next).map (· || accepts node) := by
  rw [climb, hparent]

/-- What the search answers does not depend on the fuel. -/
theorem climb_mono {more : ℕ} (hle : fuel ≤ more)
    (hclimb : climb parent accepts fuel node = some result) :
    climb parent accepts more node = some result := by
  induction fuel generalizing node more result with
  | zero => cases hclimb
  | succ fuel ih =>
      obtain ⟨more, rfl⟩ : ∃ rest, more = rest + 1 := ⟨more - 1, by omega⟩
      cases hparent : parent node with
      | none =>
          rw [climb_of_root hparent] at hclimb ⊢
          exact hclimb
      | some next =>
          rw [climb_of_parent hparent] at hclimb ⊢
          obtain ⟨answer, hanswer, rfl⟩ := Option.map_eq_some_iff.mp hclimb
          rw [ih (Nat.le_of_succ_le_succ hle) hanswer]
          rfl

theorem ends_of_climb (hclimb : climb parent accepts fuel node = some result) :
    Ends parent node := by
  induction fuel generalizing node result with
  | zero => cases hclimb
  | succ fuel ih =>
      cases hparent : parent node with
      | none => exact .root hparent
      | some next =>
          rw [climb_of_parent hparent] at hclimb
          obtain ⟨answer, hanswer, -⟩ := Option.map_eq_some_iff.mp hclimb
          exact .step hparent (ih hanswer)

/-- The search comes to an end on a finite chain, and accepts if some ancestor
does. -/
theorem exists_climb (accepts : Node → Bool) (hends : Ends parent node) :
    ∃ fuel result, climb parent accepts fuel node = some result ∧
      (result = true ↔
        ∃ ancestor, Ancestor parent node ancestor ∧ accepts ancestor = true) := by
  induction hends with
  | @root node hroot =>
      refine ⟨1, accepts node, climb_of_root hroot, ?_⟩
      rw [exists_ancestor_iff]
      simp [hroot]
  | @step node next hparent _ ih =>
      obtain ⟨fuel, result, hclimb, hresult⟩ := ih
      refine ⟨fuel + 1, result || accepts node, ?_, ?_⟩
      · rw [climb_of_parent hparent, hclimb]
        rfl
      · rw [exists_ancestor_iff, Bool.or_eq_true, hresult]
        simp [hparent, or_comm]

theorem climb_ends_iff (accepts : Node → Bool) :
    (∃ fuel result, climb parent accepts fuel node = some result) ↔
      Ends parent node := by
  constructor
  · rintro ⟨fuel, result, hclimb⟩
    exact ends_of_climb hclimb
  · intro hends
    obtain ⟨fuel, result, hclimb, -⟩ := exists_climb accepts hends
    exact ⟨fuel, result, hclimb⟩

end Ancestors
