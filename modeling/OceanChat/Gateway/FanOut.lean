import OceanChat.Gateway.NatsEvents

/-!
# Fan-out of revocations

A revocation has to reach the memory of every gateway instance, but the mark
that suppresses duplicates is shared by all of them.  Revocation is enforced in
every state of a run exactly when no instance acknowledges an event by the
duplicate branch or the dead-letter branch that its own memory does not cover.
-/

namespace OceanChat.Gateway

open Runs

/-- The memory holds the revoked identifier, or the token has expired. -/
def Covered (now : ℕ) (cache : Cache) (event : TokenRevokedEvent) : Prop :=
  TokenBlacklistService.isRevoked cache event.jti = true ∨
    tokenExpired now event.exp = true

/-- Every instance rejects each unexpired token whose revocation it has
acknowledged. -/
def Enforced (state : State) : Prop :=
  ∀ site, ∀ event ∈ (state.nodes site).acked,
    tokenExpired state.now event.exp = false →
      TokenBlacklistService.isRevoked (state.nodes site).cache event.jti =
        true ∧
      Rejects (state.nodes site).cache event.jti

/-- A step that acknowledges a duplicate or a dead letter does so on an
instance that covers the event. -/
def AcksCovered (state : State) : Event → Prop
  | .setnx site reply =>
      ∀ event deliveryCount,
        (state.nodes site).work = .marking event deliveryCount →
        reply = .ok →
        (markEvent state.redis state.now event.jti).2 = false →
          Covered state.now (state.nodes site).cache event
  | .deadLetter site index reply =>
      ∀ event, (state.nodes site).deadLetters[index]? = some event →
        reply = .ok → Covered state.now (state.nodes site).cache event
  | _ => True

/-! ## One instance -/

/-- The event that the consume loop is handling. -/
def Work.event : Work → Option TokenRevokedEvent
  | .idle => none
  | .marking event _ => some event
  | .adding event _ => some event
  | .cleaning event _ => some event

/-- What holds for each instance: it covers what it has acknowledged, and its
entries come from the stream and outlive their tokens. -/
structure NodeSound (now : ℕ) (stream : List Payload) (node : Node) : Prop where
  covered : ∀ event ∈ node.acked, Covered now node.cache event
  entries : ∀ jti entry, node.cache jti = some entry →
    ∃ deadline event, entry = ⟨true, some deadline⟩ ∧
      Payload.event event ∈ stream ∧ event.jti = jti ∧
      event.exp * 1000 ≤ (deadline : ℕ)
  acked_mem : ∀ event ∈ node.acked, Payload.event event ∈ stream
  work_mem : ∀ event, node.work.event = some event →
    Payload.event event ∈ stream
  deadLetters_mem : ∀ event ∈ node.deadLetters, Payload.event event ∈ stream

namespace NodeSound

variable {now : ℕ} {stream : List Payload} {node : Node}
variable {event : TokenRevokedEvent}

theorem started : NodeSound now stream Node.started := by
  constructor <;> simp [Node.started, TtlStore.empty, Work.event]

theorem mono (hsound : NodeSound now stream node) {later : List Payload}
    (hsub : stream ⊆ later) : NodeSound now later node where
  covered := hsound.covered
  entries jti entry hentry := by
    obtain ⟨deadline, event, hvalue, hmem, hjti, hdeadline⟩ :=
      hsound.entries jti entry hentry
    exact ⟨deadline, event, hvalue, hsub hmem, hjti, hdeadline⟩
  acked_mem event hevent := hsub (hsound.acked_mem event hevent)
  work_mem event hevent := hsub (hsound.work_mem event hevent)
  deadLetters_mem event hevent := hsub (hsound.deadLetters_mem event hevent)

/-- The consume loop moves on to another command. -/
theorem setWork (hsound : NodeSound now stream node) {work : Work}
    (hwork : ∀ event, work.event = some event →
      Payload.event event ∈ stream) :
    NodeSound now stream { node with work := work } :=
  ⟨hsound.covered, hsound.entries, hsound.acked_mem, hwork,
    hsound.deadLetters_mem⟩

/-- The consume loop goes on with an event of the stream. -/
theorem setEvent (hsound : NodeSound now stream node)
    (hmem : Payload.event event ∈ stream) {work : Work}
    (hwork : work.event = some event) :
    NodeSound now stream { node with work := work } := by
  apply hsound.setWork
  intro other hother
  obtain rfl := Option.some.inj (hwork.symm.trans hother)
  exact hmem

theorem ack (hsound : NodeSound now stream node)
    (hmem : Payload.event event ∈ stream)
    (hcovered : Covered now node.cache event) :
    NodeSound now stream (node.ack event) where
  covered other hother := by
    rcases List.mem_cons.mp hother with rfl | hother
    · exact hcovered
    · exact hsound.covered other hother
  entries := hsound.entries
  acked_mem other hother := by
    rcases List.mem_cons.mp hother with rfl | hother
    · exact hmem
    · exact hsound.acked_mem other hother
  work_mem other hother := by cases hother
  deadLetters_mem := hsound.deadLetters_mem

theorem fail (hsound : NodeSound now stream node)
    (hmem : Payload.event event ∈ stream) (deliveryCount : ℕ) :
    NodeSound now stream (node.fail event deliveryCount) := by
  have hidle : NodeSound now stream { node with work := .idle } :=
    hsound.setWork (by simp [Work.event])
  unfold Node.fail
  split
  · rename_i hack
    exact absurd hack (BaseNatsSubscriber.handleError_processing_ne_ack _ _)
  · refine ⟨hidle.covered, hidle.entries, hidle.acked_mem, hidle.work_mem, ?_⟩
    intro other hother
    rcases List.mem_append.mp hother with hother | hother
    · exact hsound.deadLetters_mem other hother
    · rw [List.mem_singleton.mp hother]
      exact hmem
  · exact hidle

/-- Adding an identifier keeps every identifier that was there. -/
theorem isRevoked_add {cache : Cache} {jti other : String} {exp : ℤ}
    (hrevoked : TokenBlacklistService.isRevoked cache other = true) :
    TokenBlacklistService.isRevoked
      (TokenBlacklistService.add cache now jti exp) other = true := by
  cases hexpired : tokenExpired now exp with
  | true => rwa [TokenBlacklistService.add_of_expired hexpired]
  | false =>
      rw [TokenBlacklistService.add_of_live hexpired]
      by_cases hkey : other = jti
      · subst hkey
        simp [TokenBlacklistService.isRevoked]
      · rwa [TokenBlacklistService.isRevoked, TtlStore.get_put_of_ne hkey]

theorem covered_add (cache : Cache) :
    Covered now (TokenBlacklistService.add cache now event.jti event.exp)
      event := by
  cases hexpired : tokenExpired now event.exp with
  | true => exact Or.inr hexpired
  | false =>
      left
      rw [TokenBlacklistService.add_of_live hexpired]
      simp [TokenBlacklistService.isRevoked]

theorem addToCache (hsound : NodeSound now stream node)
    (hmem : Payload.event event ∈ stream) :
    NodeSound now stream { node with
      cache := TokenBlacklistService.add node.cache now event.jti
        event.exp } where
  covered other hother := by
    rcases hsound.covered other hother with hrevoked | hexpired
    · exact Or.inl (isRevoked_add hrevoked)
    · exact Or.inr hexpired
  entries jti entry hentry := by
    cases hexpired : tokenExpired now event.exp with
    | true =>
        simp only [TokenBlacklistService.add_of_expired hexpired] at hentry
        exact hsound.entries jti entry hentry
    | false =>
        simp only [TokenBlacklistService.add_of_live hexpired] at hentry
        by_cases hkey : jti = event.jti
        · subst hkey
          rw [TtlStore.put_same] at hentry
          exact ⟨_, event, (Option.some.inj hentry).symm, hmem, rfl,
            TokenBlacklistService.exp_le_deadline hexpired⟩
        · rw [TtlStore.put_of_ne hkey] at hentry
          exact hsound.entries jti entry hentry
  acked_mem := hsound.acked_mem
  work_mem := hsound.work_mem
  deadLetters_mem := hsound.deadLetters_mem

/-- A publish to the dead-letter subject ends. -/
theorem settleDeadLetter (hsound : NodeSound now stream node) {index : ℕ}
    (hpending : node.deadLetters[index]? = some event) {reply : Reply}
    (hcovered : reply = .ok → Covered now node.cache event) :
    NodeSound now stream { node with
      deadLetters := node.deadLetters.eraseIdx index
      acked := if reply = .ok then event :: node.acked else node.acked } where
  covered other hother := by
    simp only at hother
    split at hother
    · rename_i hreply
      rcases List.mem_cons.mp hother with rfl | hother
      · exact hcovered hreply
      · exact hsound.covered other hother
    · exact hsound.covered other hother
  entries := hsound.entries
  acked_mem other hother := by
    simp only at hother
    split at hother
    · rcases List.mem_cons.mp hother with rfl | hother
      · exact hsound.deadLetters_mem other (List.mem_of_getElem? hpending)
      · exact hsound.acked_mem other hother
    · exact hsound.acked_mem other hother
  work_mem := hsound.work_mem
  deadLetters_mem other hother :=
    hsound.deadLetters_mem other (List.mem_of_mem_eraseIdx hother)

/-- Time removes an identifier only after its token has expired. -/
theorem sweep (hsound : NodeSound now stream node)
    (hagree : ∀ event other, Payload.event event ∈ stream →
      Payload.event other ∈ stream → event.jti = other.jti →
        event.exp = other.exp) (ms : ℕ) :
    NodeSound (now + ms) stream { node with
      cache := TtlStore.sweep node.cache (now + ms) } where
  covered event hevent := by
    cases hexpired : tokenExpired (now + ms) event.exp with
    | true => exact Or.inr hexpired
    | false =>
        have hlater : ¬ event.exp * 1000 ≤ (now + ms : ℕ) := by
          rw [← TokenBlacklistService.tokenExpired_iff, hexpired]
          exact Bool.false_ne_true
        have hrevoked : TokenBlacklistService.isRevoked node.cache event.jti =
            true := by
          apply (hsound.covered event hevent).resolve_right
          rw [TokenBlacklistService.tokenExpired_iff]
          omega
        cases hentry : node.cache event.jti with
        | none =>
            simp [TokenBlacklistService.isRevoked, TtlStore.get, hentry]
              at hrevoked
        | some entry =>
            obtain ⟨deadline, other, rfl, hmem, hjti, hdeadline⟩ :=
              hsound.entries event.jti entry hentry
            have hexp : event.exp = other.exp :=
              hagree event other (hsound.acked_mem event hevent) hmem hjti.symm
            have hlive : TtlStore.Entry.due ⟨true, some deadline⟩ (now + ms) =
                false := by
              simp only [TtlStore.Entry.due, decide_eq_false_iff_not]
              omega
            exact Or.inl (TokenBlacklistService.isRevoked_of_entry
              (TtlStore.sweep_of_live hentry hlive))
  entries jti entry hentry :=
    hsound.entries jti entry (TtlStore.sweep_eq_some.mp hentry).1
  acked_mem := hsound.acked_mem
  work_mem := hsound.work_mem
  deadLetters_mem := hsound.deadLetters_mem

end NodeSound

/-! ## The whole system -/

structure Sound (state : State) : Prop where
  agree : ∀ event other, Payload.event event ∈ state.stream →
    Payload.event other ∈ state.stream → event.jti = other.jti →
      event.exp = other.exp
  nodes : ∀ site, NodeSound state.now state.stream (state.nodes site)

namespace Sound

variable {state next : State} {event : Event}

theorem initial : Sound State.initial :=
  ⟨by simp [State.initial], fun _ => NodeSound.started⟩

theorem enforced (hsound : Sound state) : Enforced state := by
  intro site event hacked hlive
  have hrevoked : TokenBlacklistService.isRevoked (state.nodes site).cache
      event.jti = true := by
    apply ((hsound.nodes site).covered event hacked).resolve_right
    rw [hlive]
    exact Bool.false_ne_true
  exact ⟨hrevoked, rejects_of_isRevoked hrevoked⟩

/-- A step of one instance only has to keep what holds for that instance. -/
theorem setNode (hsound : Sound state) {site : ℕ} {node : Node}
    (hnow : next.now = state.now) (hstream : next.stream = state.stream)
    (hnodes : next.nodes = state.nodes)
    (hnode : NodeSound state.now state.stream node) :
    Sound (next.setNode site node) := by
  constructor
  · simpa only [State.setNode, hstream] using hsound.agree
  · intro other
    simp only [State.setNode, hnow, hstream, hnodes]
    by_cases hsite : other = site
    · subst hsite
      rwa [Function.update_self]
    · rw [Function.update_of_ne hsite]
      exact hsound.nodes other

/-- A step of one instance that writes to the shared store. -/
theorem setNode_of_write (hsound : Sound state) {site : ℕ} {node : Node}
    {reply : Reply} {redis : Idempotency.Redis}
    (hnode : NodeSound state.now state.stream node) :
    Sound (State.setNode
      (if reply.took then { state with redis := redis } else state) site
      node) := by
  cases reply <;> exact hsound.setNode rfl rfl rfl hnode

theorem mem_of_work (hsound : Sound state) {site : ℕ} {work : Work}
    {event : TokenRevokedEvent} (hwork : (state.nodes site).work = work)
    (hevent : work.event = some event) : Payload.event event ∈ state.stream :=
  (hsound.nodes site).work_mem event (hwork ▸ hevent)

theorem publish (hsound : Sound state) {payload : Payload}
    (hagrees : agreesWith state.stream payload = true) :
    Sound { state with stream := state.stream ++ [payload] } := by
  constructor
  · have hold : ∀ event other, Payload.event event ∈ state.stream →
        payload = .event other → event.jti = other.jti →
          event.exp = other.exp := by
      intro event other hevent hother hjti
      subst hother
      simp only [agreesWith, List.all_eq_true] at hagrees
      have hpair := hagrees (.event event) hevent
      simpa [hjti] using hpair
    intro event other hevent hother hjti
    simp only [List.mem_append, List.mem_singleton] at hevent hother
    rcases hevent with hevent | hevent <;> rcases hother with hother | hother
    · exact hsound.agree event other hevent hother hjti
    · exact hold event other hevent hother.symm hjti
    · exact (hold other event hother hevent.symm hjti.symm).symm
    · obtain rfl : event = other := Payload.event.inj (hevent.trans hother.symm)
      rfl
  · intro site
    exact (hsound.nodes site).mono (List.subset_append_left _ _)

theorem of_step (hsound : Sound state) (hguard : AcksCovered state event)
    (hstep : step state event = some next) : Sound next := by
  cases event with
  | publish payload =>
      simp only [step] at hstep
      split at hstep
      · rename_i hagrees
        cases hstep
        exact hsound.publish hagrees
      · cases hstep
  | deliver site payload deliveryCount =>
      simp only [step] at hstep
      split at hstep
      · rename_i hready
        cases payload with
        | malformed =>
            cases hstep
            exact hsound
        | event event =>
            cases hstep
            exact hsound.setNode rfl rfl rfl
              ((hsound.nodes site).setEvent hready.2 rfl)
      · cases hstep
  | setnx site reply =>
      simp only [step] at hstep
      split at hstep
      · rename_i event deliveryCount hwork
        cases hstep
        have hnode := hsound.nodes site
        have hmem := hsound.mem_of_work hwork rfl
        apply hsound.setNode_of_write
        split
        · rename_i hreply
          split
          · exact hnode.setEvent hmem rfl
          · rename_i hduplicate
            apply hnode.ack hmem
            exact hguard event deliveryCount hwork hreply
              (by simpa using hduplicate)
        · exact hnode.fail hmem deliveryCount
      · cases hstep
  | add site reply =>
      simp only [step] at hstep
      split at hstep
      · rename_i event deliveryCount hwork
        cases hstep
        have hnode := hsound.nodes site
        have hmem := hsound.mem_of_work hwork rfl
        apply hsound.setNode rfl rfl rfl
        cases reply with
        | ok =>
            exact (hnode.addToCache hmem).ack hmem (NodeSound.covered_add _)
        | failed => exact hnode.setEvent hmem rfl
        | lost => exact (hnode.addToCache hmem).setEvent hmem rfl
      · cases hstep
  | del site reply =>
      simp only [step] at hstep
      split at hstep
      · rename_i event deliveryCount hwork
        cases hstep
        exact hsound.setNode_of_write
          ((hsound.nodes site).fail (hsound.mem_of_work hwork rfl) deliveryCount)
      · cases hstep
  | deadLetter site index reply =>
      simp only [step] at hstep
      split at hstep
      · rename_i event hpending
        cases hstep
        have hnode := hsound.nodes site
        apply hsound.setNode rfl rfl rfl
        exact hnode.settleDeadLetter hpending (hguard event hpending)
      · cases hstep
  | restart site =>
      cases hstep
      exact hsound.setNode rfl rfl rfl NodeSound.started
  | tick ms =>
      cases hstep
      exact ⟨hsound.agree, fun site =>
        (hsound.nodes site).sweep hsound.agree ms⟩

end Sound

/-- A step outside the guard acknowledges an event that its instance does not
cover. -/
theorem not_enforced_of_step {state next : State} {event : Event}
    (hguard : ¬ AcksCovered state event)
    (hstep : step state event = some next) : ¬ Enforced next := by
  intro henforced
  apply hguard
  cases event with
  | setnx site reply =>
      intro event deliveryCount hwork hreply hduplicate
      subst hreply
      by_contra huncovered
      simp only [Covered, not_or, Bool.not_eq_true] at huncovered
      have hnext : next = State.setNode
          { state with redis := (markEvent state.redis state.now event.jti).1 }
          site ((state.nodes site).ack event) := by
        simpa [step, hwork, hduplicate, Reply.took] using hstep.symm
      subst hnext
      have hrevoked := henforced site event
      simp only [State.setNode, Function.update_self, Node.ack,
        List.mem_cons_self, huncovered.1, huncovered.2] at hrevoked
      exact Bool.false_ne_true (hrevoked trivial trivial).1
  | deadLetter site index reply =>
      intro event hpending hreply
      subst hreply
      by_contra huncovered
      simp only [Covered, not_or, Bool.not_eq_true] at huncovered
      have hnext : next = state.setNode site { state.nodes site with
          deadLetters := (state.nodes site).deadLetters.eraseIdx index
          acked := event :: (state.nodes site).acked } := by
        simpa [step, hpending] using hstep.symm
      subst hnext
      have hrevoked := henforced site event
      simp only [State.setNode, Function.update_self,
        List.mem_cons_self, huncovered.1, huncovered.2] at hrevoked
      exact Bool.false_ne_true (hrevoked trivial trivial).1
  | _ => trivial

/-- Revocation is enforced in every state of a run exactly when every duplicate
and every dead letter is acknowledged by an instance that covers it. -/
theorem enforced_iff_acksCovered {events : List Event} {final : State}
    (hrun : run step State.initial events = some final) :
    (∀ first, first <+: events → ∀ middle,
        run step State.initial first = some middle → Enforced middle) ↔
      Guarded step AcksCovered State.initial events :=
  always_iff_guarded (fun _ _ => True) Sound Enforced
    (fun _ hsound => hsound.enforced)
    (fun _ _ _ hsound _ hguard hstep => hsound.of_step hguard hstep)
    (fun _ _ _ _ _ hguard hstep => not_enforced_of_step hguard hstep)
    Sound.initial (guarded_true _ events) hrun

/-- Two instances are delivered the same revocation; the second one finds the
mark of the first. -/
def fanOutRun : List Event :=
  .publish (.event ⟨"jti-1", 900⟩) ::
    delivery 0 ⟨"jti-1", 900⟩ 1 .blacklisted ++
    delivery 1 ⟨"jti-1", 900⟩ 1 .duplicate

theorem not_always_enforced :
    ¬ ∀ (events : List Event) (final : State),
      run step State.initial events = some final → Enforced final := by
  intro hclaim
  obtain ⟨final, hrun, hnode⟩ := Option.map_eq_some_iff.mp
    (show (run step State.initial fanOutRun).map (fun state =>
        (state.now, (state.nodes 1).acked,
          TokenBlacklistService.isRevoked (state.nodes 1).cache "jti-1")) =
      some (0, [⟨"jti-1", 900⟩], false) by decide)
  simp only [Prod.mk.injEq] at hnode
  obtain ⟨hnow, hacked, hrevoked⟩ := hnode
  have henforced := hclaim fanOutRun final hrun 1 ⟨"jti-1", 900⟩
    (by simp [hacked]) (by rw [hnow]; decide)
  rw [hrevoked] at henforced
  exact Bool.false_ne_true henforced.1

theorem enforced_iff_acksCovered_of_one_node :
    ∃ final, run step State.initial
        (.publish (.event ⟨"jti-1", 900⟩) ::
          delivery 0 ⟨"jti-1", 900⟩ 1 .blacklisted) = some final ∧
      ((∀ first, first <+: .publish (.event ⟨"jti-1", 900⟩) ::
            delivery 0 ⟨"jti-1", 900⟩ 1 .blacklisted →
          ∀ middle, run step State.initial first = some middle →
            Enforced middle) ↔
        Guarded step AcksCovered State.initial
          (.publish (.event ⟨"jti-1", 900⟩) ::
            delivery 0 ⟨"jti-1", 900⟩ 1 .blacklisted)) := by
  have henabled : (run step State.initial
      (.publish (.event ⟨"jti-1", 900⟩) ::
        delivery 0 ⟨"jti-1", 900⟩ 1 .blacklisted)).isSome = true := by decide
  obtain ⟨final, hrun⟩ := Option.isSome_iff_exists.mp henabled
  exact ⟨final, hrun, enforced_iff_acksCovered hrun⟩

end OceanChat.Gateway
