import Mathlib

/-!
# Rotating credentials

A place stores at most one ticket.  A client that finds a ticket stored may
claim it, provided nobody else holds a claim at that place, and is accepted
when it replaces the claimed ticket by a fresh one.  Any client may also store a
fresh ticket without a claim, and stored tickets, claims and prepared tickets
may vanish at any time.  No ticket is accepted twice.
-/

namespace Rotation

open Function Relation

variable {Client Place Ticket : Type*}

/-- `prepared` are the fresh tickets on their way to their places. -/
structure State (Client Place Ticket : Type*) where
  issued : Ticket → Option Place
  stored : Place → Option Ticket
  prepared : Client → Option (Place × Ticket)
  claimed : Client → Option (Place × Ticket)
  accepted : Client → Option Ticket

def State.initial : State Client Place Ticket :=
  ⟨fun _ => none, fun _ => none, fun _ => none, fun _ => none, fun _ => none⟩

/-- A ticket is retired once it was issued and can never be stored again. -/
structure Retired (state : State Client Place Ticket) (ticket : Ticket) :
    Prop where
  issued : (state.issued ticket).isSome
  not_stored : ∀ place, state.stored place ≠ some ticket
  not_prepared : ∀ client place, state.prepared client ≠ some (place, ticket)
  not_claimed : ∀ client place, state.claimed client ≠ some (place, ticket)

/-- One state holds nothing that another does not hold. -/
structure Shrinks (state next : State Client Place Ticket) : Prop where
  issued : next.issued = state.issued
  stored : ∀ place ticket, next.stored place = some ticket →
    state.stored place = some ticket
  prepared : ∀ client pair, next.prepared client = some pair →
    state.prepared client = some pair
  claimed : ∀ client pair, next.claimed client = some pair →
    state.claimed client = some pair
  accepted : ∀ client ticket, next.accepted client = some ticket →
    state.accepted client = some ticket

section Moves

variable [DecidableEq Client] [DecidableEq Place] [DecidableEq Ticket]

def State.prepare (state : State Client Place Ticket) (client : Client)
    (place : Place) (ticket : Ticket) : State Client Place Ticket :=
  { state with
    issued := update state.issued ticket (some place)
    prepared := update state.prepared client (some (place, ticket)) }

def State.claim (state : State Client Place Ticket) (client : Client)
    (place : Place) (ticket : Ticket) : State Client Place Ticket :=
  { state with
    claimed := update state.claimed client (some (place, ticket)) }

def State.install (state : State Client Place Ticket) (client : Client)
    (place : Place) (ticket : Ticket) : State Client Place Ticket :=
  { state with
    stored := update state.stored place (some ticket)
    prepared := update state.prepared client none }

def State.accept (state : State Client Place Ticket) (client : Client)
    (ticket : Ticket) : State Client Place Ticket :=
  { state with
    claimed := update state.claimed client none
    accepted := update state.accepted client (some ticket) }

inductive Move : State Client Place Ticket → State Client Place Ticket → Prop
  | shrink {state next} (hshrinks : Shrinks state next) : Move state next
  | prepare {state} (client : Client) (place : Place) (ticket : Ticket)
      (hfresh : state.issued ticket = none) :
      Move state (state.prepare client place ticket)
  | claim {state} (client : Client) (place : Place) (ticket : Ticket)
      (hstored : state.stored place = some ticket)
      (hfree : ∀ other ticket', state.claimed other ≠ some (place, ticket')) :
      Move state (state.claim client place ticket)
  | install {state} (client : Client) (place : Place) (ticket : Ticket)
      (hprepared : state.prepared client = some (place, ticket)) :
      Move state (state.install client place ticket)
  | accept {state} (client : Client) (place : Place) (ticket : Ticket)
      (hclaimed : state.claimed client = some (place, ticket))
      (hgone : state.stored place ≠ some ticket) :
      Move state (state.accept client ticket)

variable {state next : State Client Place Ticket} {ticket : Ticket}

omit [DecidableEq Place] [DecidableEq Ticket] in
@[grind =]
theorem update_some_eq_some {Value : Type*} {holder : Client → Option Value}
    {client other : Client} {value value' : Value} :
    update holder client (some value) other = some value' ↔
      other = client ∧ value = value' ∨
        other ≠ client ∧ holder other = some value' := by
  by_cases hclient : other = client <;> simp [hclient]

omit [DecidableEq Place] [DecidableEq Ticket] in
@[grind =]
theorem update_none_eq_some {Value : Type*} {holder : Client → Option Value}
    {client other : Client} {value : Value} :
    update holder client none other = some value ↔
      other ≠ client ∧ holder other = some value := by
  by_cases hclient : other = client <;> simp [hclient]

/-! ## Retired tickets stay retired -/

theorem Retired.of_move (hretired : Retired state ticket)
    (hmove : Move state next) : Retired next ticket := by
  cases hmove with
  | shrink hshrinks =>
      refine ⟨hshrinks.issued ▸ hretired.issued, ?_, ?_, ?_⟩
      · intro place hstored
        exact hretired.not_stored place (hshrinks.stored place ticket hstored)
      · intro client place hprepared
        exact hretired.not_prepared client place
          (hshrinks.prepared client _ hprepared)
      · intro client place hclaimed
        exact hretired.not_claimed client place
          (hshrinks.claimed client _ hclaimed)
  | prepare client place fresh hfresh =>
      have hne : ticket ≠ fresh := by
        rintro rfl
        simpa [hfresh] using hretired.issued
      refine ⟨?_, hretired.not_stored, ?_, hretired.not_claimed⟩
      · simpa [State.prepare, hne] using hretired.issued
      · intro other place' hprepared
        rcases update_some_eq_some.mp hprepared with ⟨-, hpair⟩ | ⟨-, hold⟩
        · exact hne (Prod.mk.inj hpair).2.symm
        · exact hretired.not_prepared other place' hold
  | claim client place stored hstored hfree =>
      refine ⟨hretired.issued, hretired.not_stored, hretired.not_prepared, ?_⟩
      intro other place' hclaimed
      rcases update_some_eq_some.mp hclaimed with ⟨-, hpair⟩ | ⟨-, hold⟩
      · obtain ⟨rfl, rfl⟩ := Prod.mk.inj hpair
        exact hretired.not_stored place hstored
      · exact hretired.not_claimed other place' hold
  | install client place fresh hprepared =>
      refine ⟨hretired.issued, ?_, ?_, hretired.not_claimed⟩
      · intro place' hstored
        rcases update_some_eq_some.mp hstored with ⟨-, rfl⟩ | ⟨-, hold⟩
        · exact hretired.not_prepared client place hprepared
        · exact hretired.not_stored place' hold
      · intro other place' hother
        exact hretired.not_prepared other place'
          (update_none_eq_some.mp hother).2
  | accept client place claimed hclaimed hgone =>
      refine ⟨hretired.issued, hretired.not_stored, hretired.not_prepared, ?_⟩
      intro other place' hother
      exact hretired.not_claimed other place' (update_none_eq_some.mp hother).2

theorem Retired.of_moves (hretired : Retired state ticket)
    (hmoves : ReflTransGen Move state next) : Retired next ticket := by
  induction hmoves with
  | refl => exact hretired
  | tail _ hmove ih => exact ih.of_move hmove

/-- A retired ticket is never accepted again. -/
theorem Retired.accepted_of_moves (hretired : Retired state ticket)
    (hmoves : ReflTransGen Move state next) {client : Client}
    (haccepted : next.accepted client = some ticket) :
    state.accepted client = some ticket := by
  induction hmoves with
  | refl => exact haccepted
  | tail hmoves hmove ih =>
      have hold := hretired.of_moves hmoves
      cases hmove with
      | shrink hshrinks => exact ih (hshrinks.accepted client ticket haccepted)
      | accept other place claimed hclaimed hgone =>
          rcases update_some_eq_some.mp haccepted with ⟨-, rfl⟩ | ⟨-, hearlier⟩
          · exact absurd hclaimed (hold.not_claimed other place)
          · exact ih hearlier
      | _ => exact ih haccepted

/-! ## Every ticket is in one hand -/

/-- A ticket belongs to one place, is prepared by one client, and is not yet
stored or claimed then; a place has one claim; an accepted ticket is retired and
has one acceptance. -/
structure Inv (state : State Client Place Ticket) : Prop where
  stored_home : ∀ place ticket, state.stored place = some ticket →
    state.issued ticket = some place
  prepared_home : ∀ client place ticket,
    state.prepared client = some (place, ticket) →
      state.issued ticket = some place
  claimed_home : ∀ client place ticket,
    state.claimed client = some (place, ticket) →
      state.issued ticket = some place
  prepared_once : ∀ client other place place' ticket,
    state.prepared client = some (place, ticket) →
      state.prepared other = some (place', ticket) → client = other
  prepared_not_stored : ∀ client place place' ticket,
    state.prepared client = some (place, ticket) →
      state.stored place' ≠ some ticket
  prepared_not_claimed : ∀ client other place place' ticket,
    state.prepared client = some (place, ticket) →
      state.claimed other ≠ some (place', ticket)
  claimed_once : ∀ client other place ticket ticket',
    state.claimed client = some (place, ticket) →
      state.claimed other = some (place, ticket') → client = other
  accepted_retired : ∀ client ticket, state.accepted client = some ticket →
    Retired state ticket
  accepted_once : ∀ client other ticket, state.accepted client = some ticket →
    state.accepted other = some ticket → client = other

namespace Inv

omit [DecidableEq Client] [DecidableEq Place] [DecidableEq Ticket] in
theorem initial : Inv (State.initial : State Client Place Ticket) := by
  constructor <;> simp [State.initial]

theorem shrink (hinv : Inv state) (hshrinks : Shrinks state next) :
    Inv next where
  stored_home place ticket hstored :=
    hshrinks.issued ▸ hinv.stored_home place ticket (hshrinks.stored _ _ hstored)
  prepared_home client place ticket hprepared :=
    hshrinks.issued ▸
      hinv.prepared_home client place ticket (hshrinks.prepared _ _ hprepared)
  claimed_home client place ticket hclaimed :=
    hshrinks.issued ▸
      hinv.claimed_home client place ticket (hshrinks.claimed _ _ hclaimed)
  prepared_once client other place place' ticket hleft hright :=
    hinv.prepared_once client other place place' ticket
      (hshrinks.prepared _ _ hleft) (hshrinks.prepared _ _ hright)
  prepared_not_stored client place place' ticket hprepared hstored :=
    hinv.prepared_not_stored client place place' ticket
      (hshrinks.prepared _ _ hprepared) (hshrinks.stored _ _ hstored)
  prepared_not_claimed client other place place' ticket hprepared hclaimed :=
    hinv.prepared_not_claimed client other place place' ticket
      (hshrinks.prepared _ _ hprepared) (hshrinks.claimed _ _ hclaimed)
  claimed_once client other place ticket ticket' hleft hright :=
    hinv.claimed_once client other place ticket ticket'
      (hshrinks.claimed _ _ hleft) (hshrinks.claimed _ _ hright)
  accepted_retired client ticket haccepted :=
    (hinv.accepted_retired client ticket
      (hshrinks.accepted _ _ haccepted)).of_move (.shrink hshrinks)
  accepted_once client other ticket hleft hright :=
    hinv.accepted_once client other ticket (hshrinks.accepted _ _ hleft)
      (hshrinks.accepted _ _ hright)

theorem prepare (hinv : Inv state) (client : Client) (place : Place)
    (hfresh : state.issued ticket = none) :
    Inv (state.prepare client place ticket) := by
  have hstored := hinv.stored_home
  have hprepared := hinv.prepared_home
  have hclaimed := hinv.claimed_home
  constructor
  case stored_home => simp only [State.prepare]; grind
  case prepared_home => simp only [State.prepare]; grind
  case claimed_home => simp only [State.prepare]; grind
  case prepared_once =>
    have honce := hinv.prepared_once
    simp only [State.prepare]
    grind
  case prepared_not_stored =>
    have hapart := hinv.prepared_not_stored
    simp only [State.prepare]
    grind
  case prepared_not_claimed =>
    have hapart := hinv.prepared_not_claimed
    simp only [State.prepare]
    grind
  case claimed_once => exact hinv.claimed_once
  case accepted_retired =>
    intro other old haccepted
    have hold := hinv.accepted_retired other old haccepted
    exact hold.of_move (.prepare client place ticket hfresh)
  case accepted_once => exact hinv.accepted_once

theorem claim (hinv : Inv state) (client : Client) {place : Place}
    (hstored : state.stored place = some ticket)
    (hfree : ∀ other ticket', state.claimed other ≠ some (place, ticket')) :
    Inv (state.claim client place ticket) := by
  constructor
  case stored_home => exact hinv.stored_home
  case prepared_home => exact hinv.prepared_home
  case claimed_home =>
    have hhome := hinv.stored_home place ticket hstored
    have hclaimed := hinv.claimed_home
    simp only [State.claim]
    grind
  case prepared_once => exact hinv.prepared_once
  case prepared_not_stored => exact hinv.prepared_not_stored
  case prepared_not_claimed =>
    have hunstored := hinv.prepared_not_stored
    have hapart := hinv.prepared_not_claimed
    simp only [State.claim]
    grind
  case claimed_once =>
    have honce := hinv.claimed_once
    simp only [State.claim]
    grind
  case accepted_retired =>
    intro other old haccepted
    have hold := hinv.accepted_retired other old haccepted
    exact hold.of_move (.claim client place ticket hstored hfree)
  case accepted_once => exact hinv.accepted_once

theorem install (hinv : Inv state) {client : Client} {place : Place}
    (hprepared : state.prepared client = some (place, ticket)) :
    Inv (state.install client place ticket) := by
  have honce := hinv.prepared_once
  constructor
  case stored_home =>
    have hhome := hinv.prepared_home client place ticket hprepared
    have hstored := hinv.stored_home
    simp only [State.install]
    grind
  case prepared_home =>
    intro other place' old hother
    exact hinv.prepared_home other place' old (update_none_eq_some.mp hother).2
  case claimed_home => exact hinv.claimed_home
  case prepared_once => simp only [State.install]; grind
  case prepared_not_stored =>
    have hapart := hinv.prepared_not_stored
    simp only [State.install]
    grind
  case prepared_not_claimed =>
    intro other holder place' place'' old hother
    exact hinv.prepared_not_claimed other holder place' place'' old
      (update_none_eq_some.mp hother).2
  case claimed_once => exact hinv.claimed_once
  case accepted_retired =>
    intro other old haccepted
    have hold := hinv.accepted_retired other old haccepted
    exact hold.of_move (.install client place ticket hprepared)
  case accepted_once => exact hinv.accepted_once

omit [DecidableEq Place] [DecidableEq Ticket] in
/-- The claimed ticket is gone from its place and nobody else has it. -/
theorem retired_accept (hinv : Inv state) {client : Client} {place : Place}
    (hclaimed : state.claimed client = some (place, ticket))
    (hgone : state.stored place ≠ some ticket) :
    Retired (state.accept client ticket) ticket := by
  have hhome := hinv.claimed_home client place ticket hclaimed
  have hissued : (state.issued ticket).isSome := by simp [hhome]
  refine ⟨hissued, ?_, ?_, ?_⟩
  · intro place' hstored
    have hother := hinv.stored_home place' ticket hstored
    obtain rfl : place = place' := Option.some.inj (hhome.symm.trans hother)
    exact hgone hstored
  · intro other place' hprepared
    exact hinv.prepared_not_claimed other client place' place ticket hprepared
      hclaimed
  · intro other place' hother
    obtain ⟨hne, hother⟩ := update_none_eq_some.mp hother
    have hhome' := hinv.claimed_home other place' ticket hother
    obtain rfl : place = place' := Option.some.inj (hhome.symm.trans hhome')
    exact hne (hinv.claimed_once other client place ticket ticket hother hclaimed)

theorem accept (hinv : Inv state) {client : Client} {place : Place}
    (hclaimed : state.claimed client = some (place, ticket))
    (hgone : state.stored place ≠ some ticket) :
    Inv (state.accept client ticket) := by
  have hretired : ∀ old, Retired state old →
      Retired (state.accept client ticket) old := fun old hold =>
    hold.of_move (.accept client place ticket hclaimed hgone)
  constructor
  case stored_home => exact hinv.stored_home
  case prepared_home => exact hinv.prepared_home
  case claimed_home =>
    intro other place' old hother
    exact hinv.claimed_home other place' old (update_none_eq_some.mp hother).2
  case prepared_once => exact hinv.prepared_once
  case prepared_not_stored => exact hinv.prepared_not_stored
  case prepared_not_claimed =>
    intro other holder place' place'' old hprepared hholder
    exact hinv.prepared_not_claimed other holder place' place'' old hprepared
      (update_none_eq_some.mp hholder).2
  case claimed_once =>
    intro left right place' old old' hleft hright
    exact hinv.claimed_once left right place' old old'
      (update_none_eq_some.mp hleft).2 (update_none_eq_some.mp hright).2
  case accepted_retired =>
    intro other old haccepted
    rcases update_some_eq_some.mp haccepted with ⟨-, rfl⟩ | ⟨-, hold⟩
    · exact hinv.retired_accept hclaimed hgone
    · exact hretired old (hinv.accepted_retired other old hold)
  case accepted_once =>
    have hnew : ∀ other, state.accepted other ≠ some ticket :=
      fun other haccepted =>
        (hinv.accepted_retired other ticket haccepted).not_claimed client place
          hclaimed
    have honce := hinv.accepted_once
    simp only [State.accept]
    grind

theorem of_move (hinv : Inv state) (hmove : Move state next) : Inv next := by
  cases hmove with
  | shrink hshrinks => exact hinv.shrink hshrinks
  | prepare client place ticket hfresh => exact hinv.prepare client place hfresh
  | claim client place ticket hstored hfree =>
      exact hinv.claim client hstored hfree
  | install client place ticket hprepared => exact hinv.install hprepared
  | accept client place ticket hclaimed hgone =>
      exact hinv.accept hclaimed hgone

theorem of_moves (hinv : Inv state) (hmoves : ReflTransGen Move state next) :
    Inv next := by
  induction hmoves with
  | refl => exact hinv
  | tail _ hmove ih => exact ih.of_move hmove

end Inv

end Moves

end Rotation
