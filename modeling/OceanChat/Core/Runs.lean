import Mathlib

/-!
# Runs of a partial step function

A system is a step function that answers `none` on an event that is not
enabled.  This module packages the inductions over runs once: invariants,
guards on the steps of a run, traces of what the steps emit, and simulations
of one system by another.
-/

namespace Runs

variable {State Event Abstract Label Output : Type*}

/-- Execute a list of events; `none` as soon as one of them is not enabled. -/
def run (step : State → Event → Option State) :
    State → List Event → Option State
  | state, [] => some state
  | state, event :: events =>
      (step state event).bind fun next => run step next events

section Basic

variable {step : State → Event → Option State}

@[simp]
theorem run_nil (state : State) : run step state [] = some state := rfl

theorem run_cons_eq_some {state final : State} {event : Event}
    {events : List Event} :
    run step state (event :: events) = some final ↔
      ∃ next, step state event = some next ∧
        run step next events = some final := by
  simp [run, Option.bind_eq_some_iff]

theorem run_append (state : State) (first second : List Event) :
    run step state (first ++ second) =
      (run step state first).bind fun middle => run step middle second := by
  induction first generalizing state with
  | nil => simp [run]
  | cons event events ih =>
      cases hstep : step state event with
      | none => simp [run, hstep]
      | some next => simp [run, hstep, ih]

theorem run_append_eq_some {state final : State} {first second : List Event} :
    run step state (first ++ second) = some final ↔
      ∃ middle, run step state first = some middle ∧
        run step middle second = some final := by
  rw [run_append, Option.bind_eq_some_iff]

/-- An inductive invariant holds at the end of every run. -/
theorem run_invariant (Inv : State → Prop)
    (hstep : ∀ state event next, Inv state → step state event = some next →
      Inv next)
    {state final : State} {events : List Event} (hinit : Inv state)
    (hrun : run step state events = some final) : Inv final := by
  induction events generalizing state with
  | nil =>
      obtain rfl : state = final := by simpa using hrun
      exact hinit
  | cons event events ih =>
      obtain ⟨next, hnext, hrest⟩ := run_cons_eq_some.mp hrun
      exact ih (hstep state event next hinit hnext) hrest

/-- What commutes with every step commutes with every run. -/
theorem run_map {change : State → State} {rename : Event → Event}
    (hstep : ∀ state event, step (change state) (rename event) =
      (step state event).map change) (state : State) (events : List Event) :
    run step (change state) (events.map rename) =
      (run step state events).map change := by
  induction events generalizing state with
  | nil => rfl
  | cons event events ih =>
      simp only [List.map_cons, run, hstep]
      cases step state event with
      | none => rfl
      | some next => exact ih next

end Basic

/-! ## Guards on the steps of a run -/

/-- Every event of the run meets `guard` in the state it is executed in. -/
def Guarded (step : State → Event → Option State)
    (guard : State → Event → Prop) : State → List Event → Prop
  | _, [] => True
  | state, event :: events =>
      guard state event ∧
        ∀ next, step state event = some next → Guarded step guard next events

section Guards

variable {step : State → Event → Option State}
variable {guard : State → Event → Prop}

@[simp]
theorem guarded_nil (state : State) : Guarded step guard state [] := trivial

theorem guarded_true (state : State) (events : List Event) :
    Guarded step (fun _ _ => True) state events := by
  induction events generalizing state with
  | nil => trivial
  | cons event events ih => exact ⟨trivial, fun next _ => ih next⟩

theorem guarded_cons {state : State} {event : Event} {events : List Event} :
    Guarded step guard state (event :: events) ↔
      guard state event ∧ ∀ next, step state event = some next →
        Guarded step guard next events := Iff.rfl

instance decidableGuarded [∀ state event, Decidable (guard state event)] :
    ∀ state events, Decidable (Guarded step guard state events)
  | _, [] => .isTrue trivial
  | state, event :: events =>
      let _ : ∀ next, Decidable (Guarded step guard next events) :=
        fun next => decidableGuarded next events
      inferInstanceAs (Decidable (guard state event ∧
        ∀ next ∈ step state event, Guarded step guard next events))

theorem Guarded.mono {other : State → Event → Prop}
    (himp : ∀ state event, guard state event → other state event)
    {state : State} {events : List Event}
    (hguard : Guarded step guard state events) :
    Guarded step other state events := by
  induction events generalizing state with
  | nil => trivial
  | cons event events ih =>
      exact ⟨himp state event hguard.1,
        fun next hnext => ih (hguard.2 next hnext)⟩

theorem guarded_of_forall {state : State} {events : List Event}
    (hguard : ∀ event ∈ events, ∀ middle, guard middle event) :
    Guarded step guard state events := by
  induction events generalizing state with
  | nil => trivial
  | cons event events ih =>
      exact ⟨hguard event (by simp) state, fun next _ =>
        ih fun other hother => hguard other (by simp [hother])⟩

theorem guarded_append {state : State} {first second : List Event} :
    Guarded step guard state (first ++ second) ↔
      Guarded step guard state first ∧
        ∀ middle, run step state first = some middle →
          Guarded step guard middle second := by
  induction first generalizing state with
  | nil => simp [Guarded]
  | cons event events ih =>
      simp only [List.cons_append, guarded_cons, ih, run_cons_eq_some]
      constructor
      · rintro ⟨hhead, htail⟩
        refine ⟨⟨hhead, fun next hnext => (htail next hnext).1⟩, ?_⟩
        rintro middle ⟨next, hnext, hrun⟩
        exact (htail next hnext).2 middle hrun
      · rintro ⟨⟨hhead, htail⟩, hrest⟩
        exact ⟨hhead, fun next hnext =>
          ⟨htail next hnext, fun middle hrun =>
            hrest middle ⟨next, hnext, hrun⟩⟩⟩

theorem guarded_and {other : State → Event → Prop} {state : State}
    {events : List Event} :
    Guarded step (fun state event => guard state event ∧ other state event)
        state events ↔
      Guarded step guard state events ∧ Guarded step other state events := by
  induction events generalizing state with
  | nil => simp
  | cons event events ih =>
      simp only [guarded_cons, ih]
      constructor
      · rintro ⟨⟨hguard, hother⟩, htail⟩
        exact ⟨⟨hguard, fun next hnext => (htail next hnext).1⟩,
          ⟨hother, fun next hnext => (htail next hnext).2⟩⟩
      · rintro ⟨⟨hguard, hleft⟩, ⟨hother, hright⟩⟩
        exact ⟨⟨hguard, hother⟩,
          fun next hnext => ⟨hleft next hnext, hright next hnext⟩⟩

/-- An invariant that only guarded steps keep holds at the end of every
guarded run. -/
theorem run_invariant_of_guarded (Inv : State → Prop)
    (hstep : ∀ state event next, Inv state → guard state event →
      step state event = some next → Inv next)
    {state final : State} {events : List Event} (hinit : Inv state)
    (hguard : Guarded step guard state events)
    (hrun : run step state events = some final) : Inv final := by
  induction events generalizing state with
  | nil =>
      obtain rfl : state = final := by simpa using hrun
      exact hinit
  | cons event events ih =>
      obtain ⟨next, hnext, hrest⟩ := run_cons_eq_some.mp hrun
      exact ih (hstep state event next hinit hguard.1 hnext)
        (hguard.2 next hnext) hrest

/-- A guard that an invariant turns into another one. -/
theorem Guarded.of_invariant {other : State → Event → Prop} (Inv : State → Prop)
    (hstep : ∀ state event next, Inv state → guard state event →
      step state event = some next → Inv next)
    (himp : ∀ state event, Inv state → guard state event → other state event)
    {state : State} {events : List Event} (hinit : Inv state)
    (hguard : Guarded step guard state events) :
    Guarded step other state events := by
  induction events generalizing state with
  | nil => trivial
  | cons event events ih =>
      refine ⟨himp state event hinit hguard.1, fun next hnext => ?_⟩
      exact ih (hstep state event next hinit hguard.1 hnext)
        (hguard.2 next hnext)

/-- A property of every state of a run is equivalent to a guard when the guard
keeps the property and a step outside it breaks the property at once.  Both may
rely on an assumption that every step of the run meets. -/
theorem always_iff_guarded (assumption : State → Event → Prop)
    (Inv Property : State → Prop)
    (hproperty : ∀ state, Inv state → Property state)
    (hkeep : ∀ state event next, Inv state → assumption state event →
      guard state event → step state event = some next → Inv next)
    (hbreak : ∀ state event next, Inv state → assumption state event →
      ¬ guard state event → step state event = some next → ¬ Property next)
    {state final : State} {events : List Event} (hinit : Inv state)
    (hassumption : Guarded step assumption state events)
    (hrun : run step state events = some final) :
    (∀ first, first <+: events → ∀ middle,
        run step state first = some middle → Property middle) ↔
      Guarded step guard state events := by
  induction events generalizing state with
  | nil =>
      refine ⟨fun _ => trivial, fun _ first hfirst middle hmiddle => ?_⟩
      obtain rfl := List.prefix_nil.mp hfirst
      obtain rfl : state = middle := by simpa using hmiddle
      exact hproperty state hinit
  | cons event events ih =>
      obtain ⟨next, hnext, hrest⟩ := run_cons_eq_some.mp hrun
      obtain ⟨hassume, hassumeTail⟩ := hassumption
      constructor
      · intro halways
        have hguard : guard state event := by
          by_contra hbad
          refine hbreak state event next hinit hassume hbad hnext
            (halways [event] (by simp) next ?_)
          simp [run, hnext]
        have hinv := hkeep state event next hinit hassume hguard hnext
        refine ⟨hguard, fun other hother => ?_⟩
        obtain rfl : next = other := Option.some.inj (hnext.symm.trans hother)
        refine (ih hinv (hassumeTail next hnext) hrest).mp
          fun first hfirst middle hmiddle => ?_
        exact halways (event :: first) (by simpa using hfirst) middle
          (run_cons_eq_some.mpr ⟨next, hnext, hmiddle⟩)
      · rintro ⟨hguard, htail⟩ first hfirst middle hmiddle
        have hinv := hkeep state event next hinit hassume hguard hnext
        cases first with
        | nil =>
            obtain rfl : state = middle := by simpa using hmiddle
            exact hproperty state hinit
        | cons head tail =>
            obtain ⟨rfl, htailPrefix⟩ := List.cons_prefix_cons.mp hfirst
            obtain ⟨other, hother, hmiddle⟩ := run_cons_eq_some.mp hmiddle
            obtain rfl : next = other :=
              Option.some.inj (hnext.symm.trans hother)
            exact (ih hinv (hassumeTail next hnext) hrest).mpr
              (htail next hnext) tail htailPrefix middle hmiddle

/-- A property that every step keeps from breaking only forwards is settled by
the last state of a run. -/
theorem always_iff_final (Property : State → Prop)
    (hback : ∀ state event next, step state event = some next →
      Property next → Property state)
    {state final : State} {events : List Event}
    (hrun : run step state events = some final) :
    (∀ first, first <+: events → ∀ middle,
        run step state first = some middle → Property middle) ↔
      Property final := by
  refine ⟨fun halways => halways events (List.prefix_refl events) final hrun, ?_⟩
  intro hfinal first hfirst middle hmiddle
  obtain ⟨rest, rfl⟩ := hfirst
  obtain ⟨middle', hmiddle', hrest⟩ := run_append_eq_some.mp hrun
  obtain rfl : middle = middle' := Option.some.inj (hmiddle.symm.trans hmiddle')
  clear hrun hmiddle hmiddle'
  induction rest generalizing middle with
  | nil =>
      obtain rfl : middle = final := by simpa using hrest
      exact hfinal
  | cons event events ih =>
      obtain ⟨next, hnext, hrest⟩ := run_cons_eq_some.mp hrest
      exact hback middle event next hnext (ih next hrest)

/-- What every guarded step keeps is the same at the end of a guarded run. -/
theorem field_of_guarded {Field : Type*} (field : State → Field)
    (hkeep : ∀ state event next, guard state event →
      step state event = some next → field next = field state)
    {state final : State} {events : List Event}
    (hguard : Guarded step guard state events)
    (hrun : run step state events = some final) : field final = field state := by
  apply run_invariant_of_guarded (fun later => field later = field state)
    _ rfl hguard hrun
  intro middle event next hmiddle hevent hnext
  exact (hkeep middle event next hevent hnext).trans hmiddle

/-- An inductive invariant as a guard on the steps: it holds before and after
each of them. -/
theorem guarded_of_invariant (Inv : State → Prop)
    (hstep : ∀ state event next, Inv state → step state event = some next →
      Inv next)
    {state : State} (events : List Event) (hinit : Inv state) :
    Guarded step (fun state event => Inv state ∧
      ∀ next, step state event = some next → Inv next) state events := by
  induction events generalizing state with
  | nil => trivial
  | cons event events ih =>
      have hnext := hstep state event
      exact ⟨⟨hinit, fun next hevent => hnext next hinit hevent⟩,
        fun next hevent => ih (hnext next hinit hevent)⟩

/-- A property that no step establishes, as a guard on the steps of a run that
ends with it. -/
theorem guarded_of_final (Property : State → Prop)
    (hback : ∀ state event next, step state event = some next →
      Property next → Property state)
    {state final : State} {events : List Event}
    (hrun : run step state events = some final) (hfinal : Property final) :
    Guarded step (fun state event => Property state ∧
      ∀ next, step state event = some next → Property next) state events := by
  induction events generalizing state with
  | nil => trivial
  | cons event events ih =>
      obtain ⟨next, hnext, hrest⟩ := run_cons_eq_some.mp hrun
      have hfirst : Property next :=
        (always_iff_final Property hback hrest).mpr hfinal [] (by simp) next rfl
      refine ⟨⟨hback state event next hnext hfirst, ?_⟩, ?_⟩
      · intro other hother
        exact Option.some.inj (hnext.symm.trans hother) ▸ hfirst
      · intro other hother
        exact Option.some.inj (hnext.symm.trans hother) ▸ ih hrest

end Guards

/-! ## Traces -/

/-- Everything the steps of a run emit, in order. -/
def trace (step : State → Event → Option State)
    (emit : State → Event → List Output) : State → List Event → List Output
  | _, [] => []
  | state, event :: events =>
      emit state event ++
        match step state event with
        | none => []
        | some next => trace step emit next events

section Traces

variable {step : State → Event → Option State}
variable {emit : State → Event → List Output}

@[simp]
theorem trace_nil (state : State) : trace step emit state [] = [] := rfl

theorem trace_cons {state next : State} {event : Event} {events : List Event}
    (hnext : step state event = some next) :
    trace step emit state (event :: events) =
      emit state event ++ trace step emit next events := by
  simp [trace, hnext]

theorem trace_append {state middle : State} {first second : List Event}
    (hrun : run step state first = some middle) :
    trace step emit state (first ++ second) =
      trace step emit state first ++ trace step emit middle second := by
  induction first generalizing state with
  | nil =>
      obtain rfl : state = middle := by simpa using hrun
      simp
  | cons event events ih =>
      obtain ⟨next, hnext, hrest⟩ := run_cons_eq_some.mp hrun
      rw [List.cons_append, trace_cons hnext, trace_cons hnext, ih hrest,
        List.append_assoc]

/-- An invariant of the state and of everything emitted so far holds at the end
of every guarded run. -/
theorem trace_invariant {guard : State → Event → Prop}
    (Inv : State → List Output → Prop)
    (hstep : ∀ state history event next, Inv state history →
      guard state event → step state event = some next →
        Inv next (history ++ emit state event))
    {state final : State} {history : List Output} {events : List Event}
    (hinit : Inv state history) (hguard : Guarded step guard state events)
    (hrun : run step state events = some final) :
    Inv final (history ++ trace step emit state events) := by
  induction events generalizing state history with
  | nil =>
      obtain rfl : state = final := by simpa using hrun
      simpa using hinit
  | cons event events ih =>
      obtain ⟨next, hnext, hrest⟩ := run_cons_eq_some.mp hrun
      rw [trace_cons hnext, ← List.append_assoc]
      exact ih (hstep state history event next hinit hguard.1 hnext)
        (hguard.2 next hnext) hrest

/-- A run whose steps emit nothing leaves no trace. -/
theorem trace_eq_nil {guard : State → Event → Prop}
    (hempty : ∀ state event, guard state event → emit state event = [])
    {state : State} {events : List Event}
    (hguard : Guarded step guard state events) :
    trace step emit state events = [] := by
  induction events generalizing state with
  | nil => rfl
  | cons event events ih =>
      cases hnext : step state event with
      | none => simp [trace, hnext, hempty state event hguard.1]
      | some next =>
          rw [trace_cons hnext, hempty state event hguard.1,
            ih (hguard.2 next hnext), List.append_nil]

theorem exists_emit_of_mem_trace {state : State} {events : List Event}
    {output : Output} (hmem : output ∈ trace step emit state events) :
    ∃ event ∈ events, ∃ middle, output ∈ emit middle event := by
  induction events generalizing state with
  | nil => simp at hmem
  | cons event events ih =>
      simp only [trace, List.mem_append] at hmem
      rcases hmem with hhead | htail
      · exact ⟨event, by simp, state, hhead⟩
      · cases hstep : step state event with
        | none => simp [hstep] at htail
        | some next =>
            simp only [hstep] at htail
            obtain ⟨other, hother, middle, houtput⟩ := ih htail
            exact ⟨other, by simp [hother], middle, houtput⟩

end Traces

/-! ## Histories -/

/-- The same system, remembering everything it has emitted. -/
def withHistory (step : State → Event → Option State)
    (emit : State → Event → List Output) (current : State × List Output)
    (event : Event) : Option (State × List Output) :=
  (step current.1 event).map fun next =>
    (next, current.2 ++ emit current.1 event)

section Histories

variable {step : State → Event → Option State}
variable {emit : State → Event → List Output}

theorem withHistory_eq_some {state : State} {history : List Output}
    {event : Event} {result : State × List Output} :
    withHistory step emit (state, history) event = some result ↔
      step state event = some result.1 ∧
        result.2 = history ++ emit state event := by
  obtain ⟨next, later⟩ := result
  simp only [withHistory, Option.map_eq_some_iff, Prod.mk.injEq]
  constructor
  · rintro ⟨other, hother, rfl, rfl⟩
    exact ⟨hother, rfl⟩
  · rintro ⟨hnext, rfl⟩
    exact ⟨next, hnext, rfl, rfl⟩

/-- The history of a run is its trace. -/
theorem run_withHistory {state final : State} {history : List Output}
    {events : List Event} (hrun : run step state events = some final) :
    run (withHistory step emit) (state, history) events =
      some (final, history ++ trace step emit state events) := by
  induction events generalizing state history with
  | nil =>
      obtain rfl : state = final := by simpa using hrun
      simp
  | cons event events ih =>
      obtain ⟨next, hnext, hrest⟩ := run_cons_eq_some.mp hrun
      refine run_cons_eq_some.mpr ⟨(next, history ++ emit state event), ?_, ?_⟩
      · exact withHistory_eq_some.mpr ⟨hnext, rfl⟩
      · rw [ih hrest, trace_cons hnext, List.append_assoc]

/-- A run with its history is a run of the system itself. -/
theorem run_of_withHistory {state : State} {history : List Output}
    {events : List Event} {result : State × List Output}
    (hrun : run (withHistory step emit) (state, history) events = some result) :
    run step state events = some result.1 ∧
      result.2 = history ++ trace step emit state events := by
  induction events generalizing state history with
  | nil =>
      obtain rfl : (state, history) = result := by simpa using hrun
      simp
  | cons event events ih =>
      obtain ⟨⟨next, later⟩, hnext, hrest⟩ := run_cons_eq_some.mp hrun
      obtain ⟨hstep, rfl⟩ := withHistory_eq_some.mp hnext
      obtain ⟨hfinal, hhistory⟩ := ih hrest
      refine ⟨run_cons_eq_some.mpr ⟨next, hstep, hfinal⟩, ?_⟩
      rw [hhistory, trace_cons hstep, List.append_assoc]

/-- A guard that does not look at the history. -/
theorem guarded_withHistory {guard : State → Event → Prop} {state : State}
    {history : List Output} {events : List Event} :
    Guarded (withHistory step emit)
        (fun current event => guard current.1 event) (state, history) events ↔
      Guarded step guard state events := by
  induction events generalizing state history with
  | nil => simp
  | cons event events ih =>
      rw [guarded_cons, guarded_cons]
      apply and_congr_right
      intro _
      constructor
      · intro hhistory next hnext
        exact ih.mp (hhistory (next, history ++ emit state event)
          (withHistory_eq_some.mpr ⟨hnext, rfl⟩))
      · rintro hguarded ⟨next, later⟩ hnext
        obtain ⟨hstep, rfl⟩ := withHistory_eq_some.mp hnext
        exact ih.mpr (hguarded next hstep)

/-- `always_iff_guarded` for a property of the state and of everything emitted
on the way to it. -/
theorem always_iff_guarded_trace {guard : State → Event → Prop}
    (Inv Property : State → List Output → Prop)
    (hproperty : ∀ state history, Inv state history → Property state history)
    (hkeep : ∀ state history event next, Inv state history →
      guard state event → step state event = some next →
        Inv next (history ++ emit state event))
    (hbreak : ∀ state history event next, Inv state history →
      ¬ guard state event → step state event = some next →
        ¬ Property next (history ++ emit state event))
    {state final : State} {history : List Output} {events : List Event}
    (hinit : Inv state history) (hrun : run step state events = some final) :
    (∀ first, first <+: events → ∀ middle,
        run step state first = some middle →
          Property middle (history ++ trace step emit state first)) ↔
      Guarded step guard state events := by
  rw [← @guarded_withHistory _ _ _ step emit _ _ history,
    ← always_iff_guarded (fun _ _ => True)
      (fun current => Inv current.1 current.2)
      (fun current => Property current.1 current.2)
      (fun current => hproperty current.1 current.2) ?_ ?_ hinit
      (guarded_true _ _) (run_withHistory hrun)]
  · refine forall_congr' fun first => forall_congr' fun _ => ?_
    constructor
    · rintro hproperty ⟨middle, later⟩ hmiddle
      obtain ⟨hfirst, rfl⟩ := run_of_withHistory hmiddle
      exact hproperty middle hfirst
    · intro hproperty middle hmiddle
      exact hproperty _ (run_withHistory hmiddle)
  · rintro ⟨state, history⟩ event ⟨next, later⟩ hinv - hguard hstep
    obtain ⟨hnext, rfl⟩ := withHistory_eq_some.mp hstep
    exact hkeep state history event next hinv hguard hnext
  · rintro ⟨state, history⟩ event ⟨next, later⟩ hinv - hguard hstep
    obtain ⟨hnext, rfl⟩ := withHistory_eq_some.mp hstep
    exact hbreak state history event next hinv hguard hnext

end Histories

/-! ## Fresh identifiers -/

/-- A step that only concerns one identifier leaves all but finitely many of
them free. -/
theorem exists_bound_of_step {Entry : Type*} {before after : ℕ → Option Entry}
    {target : Option ℕ}
    (hsame : ∀ id, target ≠ some id → after id = before id)
    (hbound : ∃ bound, ∀ id, bound ≤ id → before id = none) :
    ∃ bound, ∀ id, bound ≤ id → after id = none := by
  obtain ⟨bound, hbound⟩ := hbound
  refine ⟨max bound ((target.getD 0) + 1), fun id hid => ?_⟩
  have hother : target ≠ some id := by
    intro htarget
    simp only [htarget, Option.getD_some] at hid
    omega
  rw [hsame id hother]
  exact hbound id (le_trans (le_max_left _ _) hid)

/-! ## Simulations -/

section Simulation

variable {step : State → Event → Option State}
variable {abstractStep : Abstract → Label → Option Abstract}
variable {emit : State → Event → List Label} {Rel : State → Abstract → Prop}
variable {assumption : State → Event → Prop}

/-- If every concrete step is matched by the abstract steps it emits, every
concrete run is matched by an abstract run over the emitted trace. -/
theorem run_simulation
    (hsimulate : ∀ state event next abstract, Rel state abstract →
      assumption state event → step state event = some next →
        ∃ abstract', run abstractStep abstract (emit state event) =
          some abstract' ∧ Rel next abstract')
    {state final : State} {events : List Event} {abstract : Abstract}
    (hrel : Rel state abstract)
    (hassumption : Guarded step assumption state events)
    (hrun : run step state events = some final) :
    ∃ abstract', run abstractStep abstract (trace step emit state events) =
      some abstract' ∧ Rel final abstract' := by
  induction events generalizing state abstract with
  | nil =>
      obtain rfl : state = final := by simpa using hrun
      exact ⟨abstract, rfl, hrel⟩
  | cons event events ih =>
      obtain ⟨next, hnext, hrest⟩ := run_cons_eq_some.mp hrun
      obtain ⟨middle, hmiddle, hrelNext⟩ :=
        hsimulate state event next abstract hrel hassumption.1 hnext
      obtain ⟨abstract', hfinal, hrelFinal⟩ :=
        ih hrelNext (hassumption.2 next hnext) hrest
      refine ⟨abstract', ?_, hrelFinal⟩
      rw [trace_cons hnext]
      exact run_append_eq_some.mpr ⟨middle, hmiddle, hfinal⟩

/-- A guard of the abstract run that the concrete steps decide one by one is a
guard of the concrete run. -/
theorem guarded_trace_iff {guard : State → Event → Prop}
    {abstractGuard : Abstract → Label → Prop}
    (hsimulate : ∀ state event next abstract, Rel state abstract →
      assumption state event → step state event = some next →
        ∃ abstract', run abstractStep abstract (emit state event) =
          some abstract' ∧ Rel next abstract')
    (hguard : ∀ state event next abstract, Rel state abstract →
      assumption state event → step state event = some next →
        (Guarded abstractStep abstractGuard abstract (emit state event) ↔
          guard state event))
    {state final : State} {events : List Event} {abstract : Abstract}
    (hrel : Rel state abstract)
    (hassumption : Guarded step assumption state events)
    (hrun : run step state events = some final) :
    Guarded abstractStep abstractGuard abstract
        (trace step emit state events) ↔
      Guarded step guard state events := by
  induction events generalizing state abstract with
  | nil => simp
  | cons event events ih =>
      obtain ⟨next, hnext, hrest⟩ := run_cons_eq_some.mp hrun
      obtain ⟨middle, hmiddle, hrelNext⟩ :=
        hsimulate state event next abstract hrel hassumption.1 hnext
      have htail := ih hrelNext (hassumption.2 next hnext) hrest
      rw [trace_cons hnext, guarded_append, guarded_cons,
        hguard state event next abstract hrel hassumption.1 hnext]
      apply and_congr_right
      intro _
      constructor
      · intro habstract other hother
        obtain rfl := Option.some.inj (hnext.symm.trans hother)
        exact htail.mp (habstract middle hmiddle)
      · intro hconcrete other hother
        obtain rfl := Option.some.inj (hmiddle.symm.trans hother)
        exact htail.mpr (hconcrete next hnext)

end Simulation

end Runs
