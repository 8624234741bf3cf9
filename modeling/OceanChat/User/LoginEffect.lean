import OceanChat.User.NatsEvents

/-!
# Acknowledged login events

A login event is acknowledged when its device has been added, when a copy of it
has been stored, or when its mark is found.  No event is acknowledged without
its effect exactly when no delivery finds a mark whose effect is still missing.
-/

namespace OceanChat.User

open Runs

/-- `addDevice` has completed for the event of the message, or a copy of the
message is in the dead-letter stream. -/
def Accounted (state : State) (message : Message) : Prop :=
  ∀ event, message.payload = .event event →
    event ∈ state.added ∨ message.stored = true

def Effected (state : State) : Prop :=
  ∀ id message, state.messages id = some message → message.acked = true →
    Accounted state message

/-- A delivery that finds the mark of its event, and whose acknowledgement
reaches the server, comes after the effect. -/
def FindsEffect (state : State) : Event → Prop
  | .setnx site .ok true => ∀ id event deliveryCount,
      (state.nodes site).work = .marking id event deliveryCount →
        state.redis (dedupeKey event) ≠ none →
          ∀ message, state.messages id = some message → Accounted state message
  | _ => True

/-- The message and the event that an instance works on. -/
def Work.handles : Work → Option (ℕ × UserLoggedInEvent)
  | .idle => none
  | .marking id event _ | .adding id event _ | .cleaning id event _ =>
      some (id, event)

structure Effective (state : State) : Prop where
  working : ∀ site id event, (state.nodes site).work.handles = some (id, event) →
    ∃ message, state.messages id = some message ∧
      message.payload = .event event
  effected : Effected state

namespace Effective

variable {state next : State} {site id deliveryCount : ℕ} {message changed : Message}
variable {arrives : Bool} {ackWait : ℕ}

theorem initial : Effective State.initial where
  working site id event hwork := by
    simp [State.initial, Node.started, Work.handles] at hwork
  effected id message hmessage := by simp [State.initial] at hmessage

/-- An instance turns to another message or to none. -/
theorem setNode (heffective : Effective state) {node : Node}
    (hwork : ∀ id event, node.work.handles = some (id, event) →
      ∃ message, state.messages id = some message ∧
        message.payload = .event event) :
    Effective (state.setNode site node) where
  working other id event hother := by
    by_cases hsite : other = site
    · subst hsite
      simp only [State.setNode, Function.update_self] at hother
      exact hwork id event hother
    · simp only [State.setNode, Function.update_of_ne hsite] at hother
      exact heffective.working other id event hother
  effected := heffective.effected

/-- An instance goes on with its message. -/
theorem sameWork (heffective : Effective state) {node : Node}
    (hwork : node.work.handles = (state.nodes site).work.handles) :
    Effective (state.setNode site node) :=
  heffective.setNode fun id event hhandles =>
    heffective.working site id event (hwork ▸ hhandles)

/-- A message changes without losing its content or its copy, and is only
acknowledged if it is accounted for. -/
theorem setMessage (heffective : Effective state)
    (hmessage : state.messages id = some message)
    (hpayload : changed.payload = message.payload)
    (hacked : changed.acked = true → Accounted state changed) :
    Effective (state.setMessage id changed) where
  working site other event hwork := by
    obtain ⟨found, hfound, hevent⟩ := heffective.working site other event hwork
    by_cases hid : other = id
    · subst hid
      obtain rfl := Option.some.inj (hmessage.symm.trans hfound)
      exact ⟨changed, by simp [State.setMessage], hpayload.trans hevent⟩
    · exact ⟨found, by simpa [State.setMessage, hid] using hfound, hevent⟩
  effected other found hfound := by
    by_cases hid : other = id
    · subst hid
      obtain rfl : changed = found := by
        simpa [State.setMessage] using hfound
      exact hacked
    · simp only [State.setMessage, Function.update_of_ne hid] at hfound
      exact heffective.effected other found hfound

theorem ack (heffective : Effective state)
    (haccounted : arrives = true → ∀ message, state.messages id = some message →
      Accounted state message) :
    Effective (state.ack id arrives) := by
  unfold State.ack
  split
  · rename_i message hmessage
    split
    · rename_i harrives
      exact heffective.setMessage hmessage rfl
        fun _ => haccounted harrives message hmessage
    · exact heffective
  · exact heffective

theorem nak (heffective : Effective state) : Effective (state.nak id) := by
  unfold State.nak
  split
  · rename_i message hmessage
    exact heffective.setMessage hmessage rfl
      fun hacked => heffective.effected id message hmessage hacked
  · exact heffective

theorem idle (heffective : Effective state) {node : Node}
    (hidle : node.work = .idle) : Effective (state.setNode site node) :=
  heffective.setNode (by simp [hidle, Work.handles])

theorem fail (heffective : Effective state) :
    Effective (state.fail site id deliveryCount) := by
  unfold State.fail
  split
  · rename_i hack
    exact absurd hack (BaseNatsSubscriber.handleError_processing_ne_ack _ _)
  · exact heffective.idle rfl
  · exact (heffective.idle rfl).nak

theorem finish (heffective : Effective state)
    (haccounted : arrives = true → ∀ message, state.messages id = some message →
      Accounted state message) :
    Effective (state.finish site id arrives) :=
  (heffective.idle rfl).ack haccounted

theorem write (heffective : Effective state) (redis : Idempotency.Redis) :
    Effective { state with redis := redis } :=
  ⟨heffective.working, heffective.effected⟩

theorem add (heffective : Effective state) (event : UserLoggedInEvent) :
    Effective { state with added := event :: state.added } where
  working := heffective.working
  effected id message hmessage hacked event' hpayload :=
    (heffective.effected id message hmessage hacked event' hpayload).imp_left
      (List.mem_cons_of_mem event)

theorem publish (heffective : Effective state)
    (hnone : state.messages id = none) (hacked : message.acked = false) :
    Effective (state.setMessage id message) where
  working site other event hwork := by
    obtain ⟨found, hfound, hevent⟩ := heffective.working site other event hwork
    have hid : other ≠ id := by
      rintro rfl
      rw [hnone] at hfound
      cases hfound
    exact ⟨found, by simpa [State.setMessage, hid] using hfound, hevent⟩
  effected other found hfound hfoundAcked := by
    by_cases hid : other = id
    · subst hid
      obtain rfl : message = found := by
        simpa [State.setMessage] using hfound
      rw [hacked] at hfoundAcked
      cases hfoundAcked
    · simp only [State.setMessage, Function.update_of_ne hid] at hfound
      exact heffective.effected other found hfound hfoundAcked

theorem deliver (heffective : Effective state)
    (hmessage : state.messages id = some message) (deliveries readyAt : ℕ) :
    Effective (state.setMessage id
      { message with deliveries := deliveries, readyAt := readyAt }) :=
  heffective.setMessage hmessage rfl
    fun hacked => heffective.effected id message hmessage hacked

theorem store (heffective : Effective state)
    (hmessage : state.messages id = some message) (stored : Bool) :
    Effective (state.setMessage id
      { message with stored := message.stored || stored }) := by
  refine heffective.setMessage hmessage rfl fun hacked event hpayload => ?_
  refine (heffective.effected id message hmessage hacked event hpayload).imp_right
    fun hstored => ?_
  simp [hstored]

theorem of_setnx (heffective : Effective state) {event : UserLoggedInEvent}
    {reply : Reply} (hwork : (state.nodes site).work =
      .marking id event deliveryCount)
    (hfinds : FindsEffect state (.setnx site reply arrives))
    (hstep : step ackWait state (.setnx site reply arrives) = some next) :
    Effective next := by
  simp only [step, hwork, Option.some.injEq] at hstep
  subst hstep
  cases reply with
  | failed => exact heffective.fail
  | lost => exact (heffective.write _).fail
  | ok =>
      cases hentry : state.redis (dedupeKey event) with
      | none =>
          simp only [TtlStore.setnx_of_none hentry, Reply.took, if_true]
          exact (heffective.write _).sameWork (congrArg Work.handles hwork).symm
      | some entry =>
          simp only [TtlStore.setnx_of_some hentry, Reply.took, if_true,
            Bool.false_eq_true, if_false]
          refine (heffective.write _).finish fun harrives message hmessage => ?_
          subst harrives
          exact hfinds id event deliveryCount hwork (by simp [hentry]) message
            hmessage

theorem of_add (heffective : Effective state) {event : UserLoggedInEvent}
    {reply : Reply} (hwork : (state.nodes site).work =
      .adding id event deliveryCount)
    (hstep : step ackWait state (.add site reply arrives) = some next) :
    Effective next := by
  simp only [step, hwork, Option.some.injEq] at hstep
  subst hstep
  cases reply with
  | ok =>
      refine (heffective.add event).finish
        fun _ message hmessage event' hpayload => ?_
      obtain ⟨found, hfound, hevent⟩ :=
        heffective.working site id event (congrArg Work.handles hwork)
      obtain rfl := Option.some.inj (hfound.symm.trans hmessage)
      obtain rfl : event = event' := by
        simpa [hevent] using hpayload
      exact .inl (by simp)
  | _ => exact heffective.sameWork (congrArg Work.handles hwork).symm

theorem of_deadLetter (heffective : Effective state) {index : ℕ} {reply : Reply}
    (hletter : (state.nodes site).deadLetters[index]? = some id)
    (hmessage : state.messages id = some message)
    (hstep : step ackWait state (.deadLetter site index reply arrives) =
      some next) : Effective next := by
  simp only [step, hletter, hmessage, Option.some.injEq] at hstep
  subst hstep
  have hnode : Effective (state.setNode site { state.nodes site with
      deadLetters := (state.nodes site).deadLetters.eraseIdx index }) :=
    heffective.sameWork rfl
  have hstored := hnode.store hmessage reply.took
  split
  · rename_i hreply
    refine hstored.ack fun _ found hfound event hpayload => ?_
    right
    simp only [State.setMessage, Function.update_self] at hfound
    cases hfound
    simp [hreply, Reply.took]
  · exact hstored.nak

theorem of_step {event : Event} (heffective : Effective state)
    (hfinds : FindsEffect state event)
    (hstep : step ackWait state event = some next) : Effective next := by
  cases event with
  | publish id payload =>
      simp only [step] at hstep
      split at hstep
      · cases hstep
      · rename_i hnone
        cases hstep
        exact heffective.publish hnone rfl
  | deliver site id =>
      simp only [step] at hstep
      split at hstep
      · rename_i message hmessage
        split at hstep
        · cases hstep
          have hdelivered := heffective.deliver hmessage (message.deliveries + 1)
            (state.now + ackWait)
          exact hdelivered.sameWork rfl
        · cases hstep
      · cases hstep
  | receive site arrives =>
      simp only [step] at hstep
      split at hstep
      · rename_i id deliveryCount received hidle hreceived
        split at hstep
        · rename_i event deliveries readyAt acked stored hmessage
          cases hstep
          refine heffective.setNode fun id' event' hhandles => ?_
          obtain ⟨rfl, rfl⟩ : id = id' ∧ event = event' := by
            simpa [Work.handles] using hhandles
          exact ⟨_, hmessage, rfl⟩
        · rename_i deliveries readyAt acked stored hmessage
          cases hstep
          refine Effective.ack (heffective.sameWork rfl) ?_
          intro _ message hfound event hpayload
          obtain rfl := Option.some.inj (hmessage.symm.trans hfound)
          cases hpayload
        · cases hstep
      · cases hstep
  | setnx site reply arrives =>
      cases hwork : (state.nodes site).work with
      | marking id event deliveryCount =>
          exact heffective.of_setnx hwork hfinds hstep
      | _ => simp [step, hwork] at hstep
  | add site reply arrives =>
      cases hwork : (state.nodes site).work with
      | adding id event deliveryCount => exact heffective.of_add hwork hstep
      | _ => simp [step, hwork] at hstep
  | del site reply =>
      simp only [step] at hstep
      split at hstep
      · rename_i id event deliveryCount hwork
        cases hstep
        cases hreply : reply.took with
        | false => exact heffective.fail
        | true => exact (heffective.write _).fail
      · cases hstep
  | deadLetter site index reply arrives =>
      cases hletter : (state.nodes site).deadLetters[index]? with
      | none => simp [step, hletter] at hstep
      | some id =>
          cases hmessage : state.messages id with
          | none => simp [step, hletter, hmessage] at hstep
          | some message =>
              exact heffective.of_deadLetter hletter hmessage hstep
  | crash site =>
      cases hstep
      exact heffective.idle rfl
  | tick ms =>
      cases hstep
      exact ⟨heffective.working, heffective.effected⟩

end Effective

theorem not_effected_of_step {ackWait : ℕ} {state next : State} {event : Event}
    (hbad : ¬ FindsEffect state event)
    (hstep : step ackWait state event = some next) : ¬ Effected next := by
  intro heffected
  unfold FindsEffect at hbad
  split at hbad
  · rename_i site
    simp only [not_forall] at hbad
    obtain ⟨id, event, deliveryCount, hwork, hentry, message, hmessage, hbad⟩ := hbad
    obtain ⟨entry, hentry⟩ := Option.ne_none_iff_exists'.mp hentry
    simp only [step, hwork, TtlStore.setnx_of_some hentry, Reply.took, if_true,
      Bool.false_eq_true, if_false, Option.some.injEq] at hstep
    subst hstep
    refine hbad fun event' hpayload => ?_
    have haccounted := heffected id { message with acked := true }
      (by simp [State.finish, State.ack, State.setNode, State.setMessage, hmessage])
      rfl event' hpayload
    simpa [State.finish, State.ack, State.setNode, State.setMessage, hmessage]
      using haccounted
  · exact hbad trivial

/-- Every acknowledged login event has its effect, in every state of a run,
exactly when no delivery finds the mark of an event before its effect. -/
theorem effected_iff {ackWait : ℕ} {events : List Event} {final : State}
    (hrun : run (step ackWait) State.initial events = some final) :
    (∀ first, first <+: events → ∀ state,
        run (step ackWait) State.initial first = some state →
          Effected state) ↔
      Guarded (step ackWait) FindsEffect State.initial events :=
  always_iff_guarded (fun _ _ => True) Effective Effected
    (fun _ heffective => heffective.effected)
    (fun _ _ _ heffective _ hfinds hstep => heffective.of_step hfinds hstep)
    (fun _ _ _ _ _ hbad hstep => not_effected_of_step hbad hstep)
    Effective.initial (guarded_true _ events) hrun

/-- The instance that has set the mark of the event crashes before it has added
the device; the message is delivered again after the ack wait. -/
def crashRun : List Event :=
  [.publish 0 (.event ⟨"user-1", "phone", 1700000000000⟩), .deliver 0 0,
    .receive 0 true, .setnx 0 .ok true, .crash 0, .tick 30000,
    .deliver 1 0, .receive 1 true, .setnx 1 .ok true]

theorem not_effected_of_crashRun :
    ∃ final, run (step 30000) State.initial crashRun =
        some final ∧ ¬ Effected final := by
  obtain ⟨final, hrun, hfinal⟩ := Option.map_eq_some_iff.mp
    (show (run (step 30000) State.initial crashRun).map
        (fun state => (state.messages 0, state.added)) =
      some (some ⟨.event ⟨"user-1", "phone", 1700000000000⟩, 2, 60000, true,
        false⟩, []) by decide +kernel)
  obtain ⟨hmessage, hadded⟩ := Prod.mk.inj hfinal
  refine ⟨final, hrun, fun heffected => ?_⟩
  have haccounted := heffected 0 _ hmessage rfl _ rfl
  simp [hadded] at haccounted

theorem effected_iff_of_crashRun :
    ∃ final, run (step 30000) State.initial crashRun =
        some final ∧
      ((∀ first, first <+: crashRun → ∀ state,
          run (step 30000) State.initial first = some state →
            Effected state) ↔
        Guarded (step 30000) FindsEffect State.initial
          crashRun) := by
  have henabled : (run (step 30000) State.initial
      crashRun).isSome = true := by decide +kernel
  obtain ⟨final, hrun⟩ := Option.isSome_iff_exists.mp henabled
  exact ⟨final, hrun, effected_iff hrun⟩

end OceanChat.User
