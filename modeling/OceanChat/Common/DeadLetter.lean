import OceanChat.Common.BaseNatsSubscriber
import OceanChat.Core.Runs

/-!
# The life of a message

The server delivers a message until it is acknowledged or its delivery count
reaches the limit of the consumer.  A delivery may come while an earlier one is
still being handled, and the publish to the dead-letter subject is not awaited.
-/

namespace OceanChat.BaseNatsSubscriber

open Runs

/-- How the consume loop settles a delivery, by the outcome of parsing,
validation and `onEvent`. -/
def consume (outcome : Except Failure Unit) (deliveryCount : ℕ)
    (maxDeliver : Option ℤ) : Disposition :=
  match outcome with
  | .ok () => .ack
  | .error failure => handleError failure deliveryCount maxDeliver

/-- `handling` holds the delivery counts of the deliveries being handled,
`publishing` counts the publishes to the dead-letter subject under way. -/
structure Message where
  deliveries : ℕ
  handling : List ℕ
  publishing : ℕ
  acked : Bool
  processed : Bool
  discarded : Bool
  stored : Bool
  deriving DecidableEq

def Message.published : Message := ⟨0, [], 0, false, false, false, false⟩

/-- `arrives` tells whether the acknowledgement reaches the server.  A delivery
is abandoned when its instance stops or `onEvent` never returns. -/
inductive Event
  | deliver
  | settle (index : ℕ) (outcome : Except Failure Unit) (arrives : Bool)
  | publish (reply : Reply) (arrives : Bool)
  | abandon (index : ℕ)

/-- What a settled delivery leaves behind. -/
def Message.record (message : Message) : Except Failure Unit → Message
  | .ok () => { message with processed := true }
  | .error .malformed => { message with discarded := true }
  | .error .processing => message

def step (maxDeliver : Option ℤ) (message : Message) : Event → Option Message
  | .deliver =>
      if message.acked = false ∧ message.deliveries < threshold maxDeliver then
        some { message with
          deliveries := message.deliveries + 1
          handling := message.handling ++ [message.deliveries + 1] }
      else none
  | .settle index outcome arrives =>
      message.handling[index]?.map fun deliveryCount =>
        let rest := Message.record
          { message with handling := message.handling.eraseIdx index } outcome
        match consume outcome deliveryCount maxDeliver with
        | .ack => { rest with acked := message.acked || arrives }
        | .deadLetter => { rest with publishing := message.publishing + 1 }
        | .nak => rest
  | .publish reply arrives =>
      if 0 < message.publishing then
        some { message with
          publishing := message.publishing - 1
          stored := message.stored || reply.took
          acked := message.acked || (decide (reply = .ok) && arrives) }
      else none
  | .abandon index =>
      message.handling[index]?.map fun _ =>
        { message with handling := message.handling.eraseIdx index }

/-- The server will not deliver the message again, and nobody is working on
it. -/
def Message.Exhausted (maxDeliver : Option ℤ) (message : Message) : Prop :=
  (message.acked = true ∨ threshold maxDeliver ≤ message.deliveries) ∧
    message.handling = [] ∧ message.publishing = 0

/-- The message was processed or discarded, or a copy is stored. -/
def Message.Accounted (message : Message) : Prop :=
  message.processed = true ∨ message.discarded = true ∨ message.stored = true

def NeverLost (maxDeliver : Option ℤ) (message : Message) : Prop :=
  message.Exhausted maxDeliver → message.Accounted

/-- The step is not the end of the last work on the last delivery of a message
that is not accounted for yet: a delivery handled too late to be the last one
and failed, a publish that is not stored, or an abandoned delivery. -/
def KeepsCopy (maxDeliver : Option ℤ) (message : Message) (event : Event) :
    Prop :=
  threshold maxDeliver ≤ message.deliveries → ¬ message.Accounted →
    match event with
    | .deliver => True
    | .settle index outcome _ => message.handling.length = 1 →
        message.publishing = 0 → ∀ deliveryCount,
          message.handling[index]? = some deliveryCount →
            consume outcome deliveryCount maxDeliver ≠ .nak
    | .publish reply _ => message.handling = [] → message.publishing = 1 →
        reply.took = true
    | .abandon _ => message.handling.length = 1 → message.publishing ≠ 0

/-- Only an accounted message is acknowledged. -/
structure Tracked (maxDeliver : Option ℤ) (message : Message) : Prop where
  acked : message.acked = true → message.Accounted
  neverLost : NeverLost maxDeliver message

section Steps

variable {maxDeliver : Option ℤ} {message next : Message} {event : Event}

theorem Tracked.published (hpositive : 0 < threshold maxDeliver) :
    Tracked maxDeliver Message.published where
  acked := by simp [Message.published]
  neverLost := by
    rintro ⟨hacked | hcount, -⟩
    · simp [Message.published] at hacked
    · simp only [Message.published, Nat.cast_zero] at hcount
      omega

/-- Everything one step can do. -/
inductive Effect (maxDeliver : Option ℤ) (message : Message) :
    Event → Message → Prop
  | delivered (hlimit : message.deliveries < threshold maxDeliver) :
      Effect maxDeliver message .deliver { message with
        deliveries := message.deliveries + 1
        handling := message.handling ++ [message.deliveries + 1] }
  | acknowledged (index deliveryCount : ℕ) (outcome : Except Failure Unit)
      (arrives : Bool) (hcount : message.handling[index]? = some deliveryCount)
      (hack : consume outcome deliveryCount maxDeliver = .ack)
      (haccounted : outcome ≠ .error .processing) :
      Effect maxDeliver message (.settle index outcome arrives)
        { Message.record
            { message with handling := message.handling.eraseIdx index } outcome with
          acked := message.acked || arrives }
  | deadLettered (index deliveryCount : ℕ) (arrives : Bool)
      (hcount : message.handling[index]? = some deliveryCount)
      (hletter : consume (.error .processing) deliveryCount maxDeliver =
        .deadLetter) :
      Effect maxDeliver message (.settle index (.error .processing) arrives)
        { message with
          handling := message.handling.eraseIdx index
          publishing := message.publishing + 1 }
  | requeued (index deliveryCount : ℕ) (arrives : Bool)
      (hcount : message.handling[index]? = some deliveryCount)
      (hnak : consume (.error .processing) deliveryCount maxDeliver = .nak) :
      Effect maxDeliver message (.settle index (.error .processing) arrives)
        { message with handling := message.handling.eraseIdx index }
  | published (reply : Reply) (arrives : Bool) (hpublishing : 0 < message.publishing) :
      Effect maxDeliver message (.publish reply arrives) { message with
        publishing := message.publishing - 1
        stored := message.stored || reply.took
        acked := message.acked || (decide (reply = .ok) && arrives) }
  | abandoned (index deliveryCount : ℕ)
      (hcount : message.handling[index]? = some deliveryCount) :
      Effect maxDeliver message (.abandon index)
        { message with handling := message.handling.eraseIdx index }

theorem step_effect (hstep : step maxDeliver message event = some next) :
    Effect maxDeliver message event next := by
  cases event with
  | deliver =>
      simp only [step] at hstep
      split at hstep
      · rename_i henabled
        cases hstep
        exact .delivered henabled.2
      · cases hstep
  | settle index outcome arrives =>
      obtain ⟨deliveryCount, hcount, rfl⟩ := Option.map_eq_some_iff.mp hstep
      match outcome with
      | .ok () => exact .acknowledged index deliveryCount _ arrives hcount rfl (by simp)
      | .error .malformed =>
          exact .acknowledged index deliveryCount _ arrives hcount rfl (by simp)
      | .error .processing =>
          by_cases hlimit : threshold maxDeliver ≤ deliveryCount
          · have hletter : consume (.error .processing) deliveryCount maxDeliver =
                .deadLetter := by
              simp [consume, handleError, hlimit]
            simp only [hletter]
            exact .deadLettered index deliveryCount arrives hcount hletter
          · have hnak : consume (.error .processing) deliveryCount maxDeliver =
                .nak := by
              simp [consume, handleError, hlimit]
            simp only [hnak]
            exact .requeued index deliveryCount arrives hcount hnak
  | publish reply arrives =>
      simp only [step] at hstep
      split at hstep
      · rename_i hpublishing
        cases hstep
        exact .published reply arrives hpublishing
      · cases hstep
  | abandon index =>
      obtain ⟨deliveryCount, hcount, rfl⟩ := Option.map_eq_some_iff.mp hstep
      exact .abandoned index deliveryCount hcount

/-- The delivery that was settled was the only one. -/
theorem length_eq_one_of_eraseIdx {handling : List ℕ} {index deliveryCount : ℕ}
    (hcount : handling[index]? = some deliveryCount)
    (hnil : handling.eraseIdx index = []) : handling.length = 1 := by
  obtain ⟨hindex, -⟩ := List.getElem?_eq_some_iff.mp hcount
  have hlength := congrArg List.length hnil
  rw [List.length_eraseIdx_of_lt hindex, List.length_nil] at hlength
  omega

theorem eraseIdx_eq_nil {handling : List ℕ} {index deliveryCount : ℕ}
    (hcount : handling[index]? = some deliveryCount)
    (hlength : handling.length = 1) : handling.eraseIdx index = [] := by
  obtain ⟨hindex, -⟩ := List.getElem?_eq_some_iff.mp hcount
  apply List.eq_nil_of_length_eq_zero
  rw [List.length_eraseIdx_of_lt hindex, hlength]

theorem accounted_record (message : Message) {outcome : Except Failure Unit}
    (hsettled : outcome ≠ .error .processing) :
    (message.record outcome).Accounted := by
  match outcome with
  | .ok () => exact .inl rfl
  | .error .malformed => exact .inr (.inl rfl)
  | .error .processing => exact absurd rfl hsettled

/-- Only what accounts for a message acknowledges it, and nothing undoes it. -/
theorem unaccounted_of_step (hstep : step maxDeliver message event = some next)
    (hnot : ¬ next.Accounted) :
    next.acked = message.acked ∧ ¬ message.Accounted := by
  cases step_effect hstep with
  | acknowledged index deliveryCount outcome arrives hcount hack hsettled =>
      exact absurd (accounted_record _ hsettled) hnot
  | published reply arrives =>
      have hfailed : reply.took = false := by
        by_contra htook
        exact hnot (.inr (.inr (by simp [htook])))
      have hreply : reply = .failed := by
        cases reply <;> simp_all [Reply.took]
      exact ⟨by simp [hreply], by simpa [Message.Accounted, hfailed] using hnot⟩
  | _ => exact ⟨rfl, hnot⟩

theorem Tracked.of_step (htracked : Tracked maxDeliver message)
    (hkeeps : KeepsCopy maxDeliver message event)
    (hstep : step maxDeliver message event = some next) :
    Tracked maxDeliver next := by
  by_cases haccounted : next.Accounted
  · exact ⟨fun _ => haccounted, fun _ => haccounted⟩
  obtain ⟨hacked, hunaccounted⟩ := unaccounted_of_step hstep haccounted
  have hnotAcked : next.acked ≠ true := fun hnext =>
    hunaccounted (htracked.acked (hacked ▸ hnext))
  refine ⟨fun hnext => absurd hnext hnotAcked, ?_⟩
  rintro ⟨hexhausted, hhandling, hpublishing⟩
  have hlimit := hexhausted.resolve_left hnotAcked
  cases step_effect hstep with
  | delivered => simp at hhandling
  | acknowledged index deliveryCount outcome arrives hcount hack hsettled =>
      exact accounted_record _ hsettled
  | deadLettered => simp at hpublishing
  | requeued index deliveryCount arrives hcount hnak =>
      exact absurd hnak (hkeeps hlimit hunaccounted
        (length_eq_one_of_eraseIdx hcount hhandling) hpublishing deliveryCount hcount)
  | published reply arrives hpositive =>
      have hlast : message.publishing = 1 := by
        simp only at hpublishing
        omega
      have htook := hkeeps hlimit hunaccounted hhandling hlast
      exact .inr (.inr (by simp [htook]))
  | abandoned index deliveryCount hcount =>
      exact absurd hpublishing (hkeeps hlimit hunaccounted
        (length_eq_one_of_eraseIdx hcount hhandling))

/-- Outside the guard the message is lost at once. -/
theorem not_neverLost_of_step
    (hbad : ¬ KeepsCopy maxDeliver message event)
    (hstep : step maxDeliver message event = some next) :
    ¬ NeverLost maxDeliver next := by
  intro hnever
  simp only [KeepsCopy, not_forall] at hbad
  obtain ⟨hlimit, hunaccounted, hbad⟩ := hbad
  cases step_effect hstep with
  | delivered => exact hbad trivial
  | acknowledged index deliveryCount outcome arrives hcount hack =>
      simp only [not_forall, not_not] at hbad
      obtain ⟨-, -, deliveryCount', hcount', hnak⟩ := hbad
      obtain rfl := Option.some.inj (hcount.symm.trans hcount')
      rw [hack] at hnak
      cases hnak
  | deadLettered index deliveryCount arrives hcount hletter =>
      simp only [not_forall, not_not] at hbad
      obtain ⟨-, -, deliveryCount', hcount', hnak⟩ := hbad
      obtain rfl := Option.some.inj (hcount.symm.trans hcount')
      rw [hletter] at hnak
      cases hnak
  | requeued index deliveryCount arrives hcount hnak =>
      simp only [not_forall, not_not] at hbad
      obtain ⟨hlength, hpublishing, -⟩ := hbad
      exact hunaccounted
        (hnever ⟨.inr hlimit, eraseIdx_eq_nil hcount hlength, hpublishing⟩)
  | published reply arrives hpositive =>
      simp only [not_forall] at hbad
      obtain ⟨hhandling, hlast, hfailed⟩ := hbad
      have haccounted := hnever ⟨.inr hlimit, hhandling, by simp [hlast]⟩
      apply hunaccounted
      simpa [Message.Accounted, hfailed] using haccounted
  | abandoned index deliveryCount hcount =>
      simp only [not_forall, not_not] at hbad
      obtain ⟨hlength, hpublishing⟩ := hbad
      exact hunaccounted
        (hnever ⟨.inr hlimit, eraseIdx_eq_nil hcount hlength, hpublishing⟩)

end Steps

/-- A message is never exhausted without having been processed, discarded or
stored exactly when no step ends its last work without a copy. -/
theorem never_lost_iff {maxDeliver : Option ℤ}
    (hpositive : 0 < threshold maxDeliver) {events : List Event}
    {final : Message}
    (hrun : run (step maxDeliver) Message.published events = some final) :
    (∀ first, first <+: events → ∀ message,
        run (step maxDeliver) Message.published first = some message →
          NeverLost maxDeliver message) ↔
      Guarded (step maxDeliver) (KeepsCopy maxDeliver) Message.published
        events :=
  always_iff_guarded (fun _ _ => True) (Tracked maxDeliver)
    (NeverLost maxDeliver) (fun _ htracked => htracked.neverLost)
    (fun _ _ _ htracked _ hkeeps hstep => htracked.of_step hkeeps hstep)
    (fun _ _ _ _ _ hbad hstep => not_neverLost_of_step hbad hstep)
    (Tracked.published hpositive) (guarded_true _ events) hrun

/-- `onEvent` fails on every delivery, and the dead-letter publish fails on the
last one. -/
def unpublishedRun : List Event :=
  [.deliver, .settle 0 (.error .processing) true,
    .deliver, .settle 0 (.error .processing) true,
    .deliver, .settle 0 (.error .processing) true,
    .publish .failed true]

theorem lost_of_unpublishedRun :
    ∃ final, run (step none) Message.published unpublishedRun = some final ∧
      final.Exhausted none ∧ ¬ final.Accounted := by
  refine ⟨⟨3, [], 0, false, false, false, false⟩, by decide, ?_, ?_⟩
  · exact ⟨.inr (by decide), rfl, rfl⟩
  · simp [Message.Accounted]

theorem never_lost_iff_of_unpublishedRun :
    ∃ final, run (step none) Message.published unpublishedRun = some final ∧
      ((∀ first, first <+: unpublishedRun → ∀ message,
          run (step none) Message.published first = some message →
            NeverLost none message) ↔
        Guarded (step none) (KeepsCopy none) Message.published
          unpublishedRun) := by
  have henabled : (run (step none) Message.published
      unpublishedRun).isSome = true := by decide
  obtain ⟨final, hrun⟩ := Option.isSome_iff_exists.mp henabled
  exact ⟨final, hrun, never_lost_iff (by decide) hrun⟩

end OceanChat.BaseNatsSubscriber
