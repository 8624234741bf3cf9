import OceanChat.Redis.GetOrSet

/-!
# Contention for a key

A call that loses the lock waits for the value.  If its wait is over before it
finds one, it answers null, as if there were no value.  This module says what
each step of a call gives when the data source always has a value, and when a
step gives up.
-/

namespace OceanChat.GetOrSet

open Runs

variable {Raw Value : Type*}

/-- The step finds the wait of the call over and no value in the cache. -/
def GivesUp (options : GetOrSetOptions) (now : ℕ) :
    Phase Raw Value → Action Raw → Prop
  | .refused, .resume => options.lockTtl = 0
  | .retried startTime none, .resume =>
      options.lockTtl * 800 ≤ now - startTime
  | _, _ => False

/-- The outcome is a good text, a value that fits or an error. -/
def Outcome.Gives (good : Raw → Prop) (fits : Option Value → Prop) :
    Outcome Raw Value → Prop
  | .cached rawCachedValue => good rawCachedValue
  | .fetched value => fits value
  | .gaveUp => False
  | .threw => True

/-- What a call carries is good. -/
def Phase.Gives (good : Raw → Prop) (fits : Option Value → Prop) :
    Phase Raw Value → Prop
  | .storing _ valueToCache _ => fits valueToCache
  | .releasing _ outcome | .returned outcome => outcome.Gives good fits
  | .retried _ (some retryValue) => good retryValue
  | _ => True

section Steps

variable [DecidableEq Raw] {options : GetOrSetOptions} {encode : Option Value → Raw}
variable {key : String} {source : Option Value} {now startTime : ℕ}
variable {redis redis' : TtlStore.Store String Raw}
variable {phase phase' : Phase Raw Value} {action : Action Raw}
variable {good : Raw → Prop} {fits : Option Value → Prop}

omit [DecidableEq Raw] in
theorem gives_loop_iff :
    (loop options now startTime : Phase Raw Value).Gives good fits ↔
      ¬ options.lockTtl * 800 ≤ now - startTime := by
  rw [loop]
  split
  · rename_i hwaits
    exact iff_of_true trivial (not_le.mpr hwaits)
  · rename_i hover
    exact iff_of_false id (not_not.mpr (not_lt.mp hover))

omit [DecidableEq Raw] in
theorem gives_afterFetch {lockValue : Raw} {jitter : ℕ} {value : Option Value}
    (hfits : fits value) :
    (afterFetch options lockValue jitter value).Gives good fits := by
  rw [afterFetch]
  split <;> exact hfits

/-- With a value in the data source and nothing else in the cache, a step of a
call stays good unless it gives up. -/
theorem gives_iff_of_step (hgives : phase.Gives good fits)
    (hentry : ∀ raw, TtlStore.get redis key = some raw → good raw)
    (hsource : fits source)
    (hstep : step options encode key source now redis phase action =
      some (redis', phase')) :
    phase'.Gives good fits ↔ ¬ GivesUp options now phase action := by
  cases effect_of_step hstep with
  | hit hget => exact iff_of_true (hentry _ hget) id
  | fetched => exact iff_of_true (gives_afterFetch hsource) id
  | stored => exact iff_of_true hgives id
  | released => exact iff_of_true hgives id
  | waits =>
      rw [gives_loop_iff, GivesUp, Nat.sub_self]
      omega
  | retried =>
      refine iff_of_true ?_ id
      cases hget : TtlStore.get redis key with
      | none => trivial
      | some raw => exact hentry raw hget
  | found => exact iff_of_true hgives id
  | waitsOn => exact gives_loop_iff
  | miss | getFailed | acquired | refused | setnxFailed | fetchFailed | setFailed
  | retryFailed => exact iff_of_true trivial id

/-- A step that gives up answers null. -/
theorem gaveUp_of_givesUp (hgivesUp : GivesUp options now phase action)
    (hstep : step options encode key source now redis phase action =
      some (redis', phase')) : phase' = .returned .gaveUp := by
  unfold GivesUp at hgivesUp
  split at hgivesUp
  · obtain ⟨-, rfl⟩ := Prod.mk.inj (Option.some.inj hstep)
    simp [loop, hgivesUp]
  · obtain ⟨-, rfl⟩ := Prod.mk.inj (Option.some.inj hstep)
    rw [loop, if_neg (not_lt.mpr hgivesUp)]
  · exact hgivesUp.elim

end Steps

/-! ## Any number of calls -/

/-- Calls for one key, each with options of its own. -/
structure Callers (Raw Value : Type*) where
  now : ℕ
  redis : TtlStore.Store String Raw
  source : Option Value
  calls : ℕ → Option (GetOrSetOptions × Phase Raw Value)

inductive CallersEvent (Raw Value : Type*)
  | call (id : ℕ) (options : GetOrSetOptions)
  | act (id : ℕ) (action : Action Raw)
  | change (value : Option Value)
  | del
  | tick (ms : ℕ)

def Callers.initial (now : ℕ) (redis : TtlStore.Store String Raw)
    (source : Option Value) : Callers Raw Value :=
  ⟨now, redis, source, fun _ => none⟩

def Callers.step [DecidableEq Raw] (encode : Option Value → Raw) (key : String)
    (callers : Callers Raw Value) :
    CallersEvent Raw Value → Option (Callers Raw Value)
  | .call id options =>
      if (callers.calls id).isNone then
        some { callers with
          calls := Function.update callers.calls id (some (options, .getting)) }
      else none
  | .act id action =>
      match callers.calls id with
      | some (options, phase) =>
          (GetOrSet.step options encode key callers.source callers.now
            callers.redis phase action).map fun (redis, phase) =>
              { callers with
                redis := redis
                calls := Function.update callers.calls id
                  (some (options, phase)) }
      | none => none
  | .change value => some { callers with source := value }
  | .del => some { callers with redis := TtlStore.del callers.redis key }
  | .tick ms =>
      some { callers with
        now := callers.now + ms
        redis := TtlStore.sweep callers.redis (callers.now + ms) }

/-- The answer is null. -/
def Outcome.isNull : Outcome Raw Value → Bool
  | .gaveUp | .fetched none => true
  | _ => false

/-- No call has returned null. -/
def NoNull (callers : Callers Raw Value) : Prop :=
  ∀ id options outcome,
    callers.calls id = some (options, .returned outcome) →
      outcome.isNull = false

/-- The data source keeps a value. -/
def KeepsValue (_ : Callers Raw Value) (event : CallersEvent Raw Value) : Prop :=
  ∀ value, event = .change value → value ≠ none

/-- The step finds no wait over. -/
def WaitsOn (callers : Callers Raw Value) (event : CallersEvent Raw Value) :
    Prop :=
  ∀ id action options phase, event = .act id action →
    callers.calls id = some (options, phase) →
      ¬ GivesUp options callers.now phase action

/-- Every call carries a value, if any, and the data source has one. -/
structure Valued (callers : Callers Raw Value) : Prop where
  source : callers.source ≠ none
  calls : ∀ id options phase, callers.calls id = some (options, phase) →
    phase.Gives (fun _ => True) (· ≠ none)

section Callers

variable [DecidableEq Raw] {encode : Option Value → Raw} {key : String}
variable {callers next : Callers Raw Value} {event : CallersEvent Raw Value}

omit [DecidableEq Raw] in
theorem Valued.initial {source : Option Value} (hsource : source ≠ none)
    (now : ℕ) (redis : TtlStore.Store String Raw) :
    Valued (Callers.initial now redis source) :=
  ⟨hsource, nofun⟩

omit [DecidableEq Raw] in
theorem Valued.noNull (hvalued : Valued callers) : NoNull callers := by
  intro id options outcome hcall
  have hgives := hvalued.calls id options _ hcall
  cases outcome with
  | cached raw => rfl
  | fetched value =>
      cases value with
      | none => exact absurd rfl hgives
      | some value => rfl
  | gaveUp => exact hgives.elim
  | threw => rfl

omit [DecidableEq Raw] in
/-- Only one call is different. -/
theorem Valued.update (hvalued : Valued callers) {id : ℕ}
    {options : GetOrSetOptions} {phase : Phase Raw Value}
    {redis : TtlStore.Store String Raw}
    (hgives : phase.Gives (fun _ => True) (· ≠ none)) :
    Valued { callers with
      redis := redis
      calls := Function.update callers.calls id (some (options, phase)) } := by
  refine ⟨hvalued.source, fun other otherOptions otherPhase hcall => ?_⟩
  by_cases hother : other = id
  · subst hother
    simp only [Function.update_self, Option.some.injEq, Prod.mk.injEq] at hcall
    exact hcall.2 ▸ hgives
  · simp only [Function.update_of_ne hother] at hcall
    exact hvalued.calls other _ _ hcall

theorem Valued.of_step (hvalued : Valued callers)
    (hkeeps : KeepsValue callers event) (hwaits : WaitsOn callers event)
    (hstep : callers.step encode key event = some next) : Valued next := by
  cases event with
  | call id options =>
      obtain ⟨-, heq⟩ := Option.ite_none_right_eq_some.mp hstep
      obtain rfl := Option.some.inj heq
      exact hvalued.update trivial
  | act id action =>
      simp only [Callers.step] at hstep
      split at hstep
      · rename_i options phase hcall
        obtain ⟨⟨redis, phase'⟩, hread, rfl⟩ := Option.map_eq_some_iff.mp hstep
        exact hvalued.update ((gives_iff_of_step
          (hvalued.calls id options phase hcall) (fun _ _ => trivial)
          hvalued.source hread).mpr (hwaits id action options phase rfl hcall))
      · cases hstep
  | change value =>
      obtain rfl := Option.some.inj hstep
      exact ⟨hkeeps value rfl, hvalued.calls⟩
  | del =>
      obtain rfl := Option.some.inj hstep
      exact ⟨hvalued.source, hvalued.calls⟩
  | tick ms =>
      obtain rfl := Option.some.inj hstep
      exact ⟨hvalued.source, hvalued.calls⟩

theorem not_noNull_of_step (hgivesUp : ¬ WaitsOn callers event)
    (hstep : callers.step encode key event = some next) : ¬ NoNull next := by
  simp only [WaitsOn, not_forall, not_not] at hgivesUp
  obtain ⟨id, action, options, phase, rfl, hcall, hgivesUp⟩ := hgivesUp
  simp only [Callers.step, hcall] at hstep
  obtain ⟨⟨redis, phase'⟩, hread, rfl⟩ := Option.map_eq_some_iff.mp hstep
  obtain rfl := gaveUp_of_givesUp hgivesUp hread
  intro hnoNull
  exact Bool.noConfusion (hnoNull id options .gaveUp (Function.update_self ..))

/-- No call returns null exactly as long as none finds its wait over. -/
theorem noNull_iff {now : ℕ} {redis : TtlStore.Store String Raw}
    {source : Option Value} (hsource : source ≠ none)
    {events : List (CallersEvent Raw Value)} {final : Callers Raw Value}
    (hkeeps : ∀ value, .change value ∈ events → value ≠ none)
    (hrun : run (Callers.step encode key) (Callers.initial now redis source)
      events = some final) :
    (∀ first, first <+: events → ∀ middle,
        run (Callers.step encode key) (Callers.initial now redis source) first =
          some middle → NoNull middle) ↔
      Guarded (Callers.step encode key) WaitsOn
        (Callers.initial now redis source) events := by
  have hvalue : Guarded (Callers.step encode key) KeepsValue
      (Callers.initial now redis source) events :=
    guarded_of_forall fun event hevent _ value hchange =>
      hkeeps value (hchange ▸ hevent)
  refine always_iff_guarded KeepsValue Valued NoNull
    (fun _ hvalued => hvalued.noNull) ?_ ?_ (Valued.initial hsource now redis)
    hvalue hrun
  · exact fun _ _ _ hvalued hvalue hwaits hstep =>
      hvalued.of_step hvalue hwaits hstep
  · exact fun _ _ _ _ _ hgivesUp hstep => not_noNull_of_step hgivesUp hstep

end Callers

end OceanChat.GetOrSet
