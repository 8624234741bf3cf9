import OceanChat.Auth.Footprint

/-!
# A replay revokes every session of the user

A refresh whose token is not the one in the session of its device takes the
whole family down: it publishes the revocation of every access token that it
can read from the hash, whatever else the hash holds, and deletes the hash.
-/

namespace OceanChat.Auth

open Runs
open HashStore (hgetall)

variable {config : Config} {start state next final : State} {event : Event}
variable {id : ℕ} {payload : JwtPayload} {history : List Act}

/-! ## Revocations -/

/-- What a replay publishes for these sessions. -/
def revocations (sessions : List SessionText) : List Act :=
  (sessions.flatMap SessionText.revocation).map .published

/-- The call is alone on the user: nothing else touches the hash of the user, or
takes the lock of the device. -/
def Alone (config : Config) (id : ℕ) (payload : JwtPayload) (state : State)
    (event : Event) : Prop :=
  event.call ≠ some id → ∀ next, step config state event = some next →
    next.sessions (getUserKey payload.sub) =
        state.sessions (getUserKey payload.sub) ∧
      (state.locks (lockKey payload.sub payload.deviceId) = none →
        next.locks (lockKey payload.sub payload.deviceId) = none)

/-- The session of its device does not hold the token of the call. -/
def Replayed (state : State) (payload : JwtPayload) : Prop :=
  ∃ text storage, state.session payload.sub payload.deviceId = some text ∧
    text.parse = some (some storage) ∧ storage.refreshJti ≠ some payload.jti

/-- How far a replay has come in each phase. -/
def Stage (start : State) (payload : JwtPayload) (state : State)
    (history : List Act) : RefreshPhase → Prop
  | .acquire =>
      state.sessions (getUserKey payload.sub) =
          start.sessions (getUserKey payload.sub) ∧
        state.locks (lockKey payload.sub payload.deviceId) = none ∧ history = []
  | .read | .scan =>
      state.sessions (getUserKey payload.sub) =
          start.sessions (getUserKey payload.sub) ∧ history = []
  | .revokeAll =>
      history = revocations (hgetall start.sessions (getUserKey payload.sub))
  | .release result | .finished result =>
      history = revocations (hgetall start.sessions (getUserKey payload.sub)) ∧
        state.sessions (getUserKey payload.sub) = none ∧
          result = .error reusedException
  | .crashed => True
  | .lookup _ | .sign _ _ | .store _ _ _ => False

/-- A call that has not started has the stage of one that has not yet asked for
its lock. -/
def Replaying (start : State) (id : ℕ) (payload : JwtPayload) (state : State)
    (history : List Act) : Prop :=
  (state.calls id = none → Stage start payload state history .acquire) ∧
    ∀ lockValue phase, state.calls id = some (.refresh payload lockValue phase) →
      Stage start payload state history phase

theorem Stage.of_other {phase : RefreshPhase}
    (hstage : Stage start payload state history phase)
    (hsessions : next.sessions (getUserKey payload.sub) =
      state.sessions (getUserKey payload.sub))
    (hlocks : state.locks (lockKey payload.sub payload.deviceId) = none →
      next.locks (lockKey payload.sub payload.deviceId) = none) :
    Stage start payload next history phase := by
  cases phase <;> simp_all [Stage]

theorem afterHget_of_replayed (hreplayed : Replayed start payload)
    (hsessions : state.sessions (getUserKey payload.sub) =
      start.sessions (getUserKey payload.sub)) :
    afterHget payload (state.session payload.sub payload.deviceId) = .scan := by
  obtain ⟨text, storage, htext, hparse, hne⟩ := hreplayed
  have hsame : state.session payload.sub payload.deviceId = some text := by
    rwa [State.session, HashStore.hget, hsessions]
  simp [afterHget, hsame, hparse, hne]

theorem hgetall_of_eq {sessions sessions' : Sessions} {key : String}
    (heq : sessions key = sessions' key) : hgetall sessions key = hgetall sessions' key := by
  rw [hgetall, heq, hgetall]

namespace Replaying

theorem of_other (hreplaying : Replaying start id payload state history)
    (halone : Alone config id payload state event)
    (hcall : event.call ≠ some id)
    (hstep : step config state event = some next) :
    Replaying start id payload next (history ++ acts config id state event) := by
  obtain ⟨hsessions, hlocks⟩ := halone hcall next hstep
  rw [acts_of_call_ne hcall, List.append_nil, Replaying,
    calls_of_call_ne hstep hcall]
  exact ⟨fun hnone => (hreplaying.1 hnone).of_other hsessions hlocks,
    fun lockValue phase hphase =>
      (hreplaying.2 lockValue phase hphase).of_other hsessions hlocks⟩

/-- The call moves on to a new phase. -/
theorem of_refresh {payload' : JwtPayload} {lockValue : String}
    {phase : RefreshPhase}
    (hstage : payload' = payload →
      Stage start payload (next.setCall id (.refresh payload' lockValue phase))
        history phase) :
    Replaying start id payload
      (next.setCall id (.refresh payload' lockValue phase)) history := by
  refine ⟨by simp [calls_setCall_self], fun lockValue' phase' hphase => ?_⟩
  obtain ⟨rfl, rfl, rfl⟩ :
      payload' = payload ∧ lockValue = lockValue' ∧ phase = phase' := by
    simpa [calls_setCall_self] using hphase
  exact hstage rfl

theorem of_own (hreplaying : Replaying start id payload state history)
    (hreplayed : Replayed start payload) (hsucceeds : Succeeds id event)
    (hcall : event.call = some id)
    (hstep : step config state event = some next) :
    Replaying start id payload next (history ++ acts config id state event) := by
  obtain ⟨hfresh, hphases⟩ := hreplaying
  cases step_effect hstep with
  | refresh id' text lockValue payload' hnone hverify =>
      obtain rfl : id' = id := Option.some.inj hcall
      rw [acts_of_unchanged hstep rfl rfl, List.append_nil]
      exact of_refresh fun _ => hfresh hnone
  | setnx id' reply payload' lockValue hold =>
      obtain rfl : id' = id := Option.some.inj hcall
      obtain rfl : reply = .ok := hsucceeds rfl reply rfl
      rw [acts_of_unchanged hstep rfl rfl, List.append_nil]
      apply of_refresh
      rintro rfl
      obtain ⟨hsessions, hfree, hhistory⟩ := hphases lockValue .acquire hold
      rw [TtlStore.setnx_of_none hfree]
      exact ⟨hsessions, hhistory⟩
  | read id' reply payload' lockValue hold =>
      obtain rfl : id' = id := Option.some.inj hcall
      obtain rfl : reply = .ok := hsucceeds rfl reply rfl
      rw [acts_of_unchanged hstep rfl rfl, List.append_nil]
      apply of_refresh
      rintro rfl
      obtain ⟨hsessions, hhistory⟩ := hphases lockValue .read hold
      rw [if_pos rfl, afterHget_of_replayed hreplayed hsessions]
      exact ⟨hsessions, hhistory⟩
  | scan id' payload' lockValue hold =>
      obtain rfl : id' = id := Option.some.inj hcall
      apply of_refresh
      rintro rfl
      obtain ⟨hsessions, rfl⟩ := hphases lockValue .scan hold
      rw [acts_of_published hcall hstep rfl rfl, hgetall_of_eq hsessions]
      rfl
  | scanFails id' reply payload' lockValue hreply hold =>
      obtain rfl : id' = id := Option.some.inj hcall
      exact absurd (hsucceeds rfl reply rfl) hreply
  | revokeAll id' reply payload' lockValue hold =>
      obtain rfl : id' = id := Option.some.inj hcall
      obtain rfl : reply = .ok := hsucceeds rfl reply rfl
      rw [acts_of_unchanged hstep rfl rfl, List.append_nil]
      apply of_refresh
      rintro rfl
      refine ⟨hphases lockValue .revokeAll hold, ?_, rfl⟩
      simp [State.setCall, Reply.took, HashStore.del]
  | release id' reply payload' lockValue result hold =>
      obtain rfl : id' = id := Option.some.inj hcall
      rw [acts_of_unchanged hstep rfl rfl, List.append_nil]
      apply of_refresh
      rintro rfl
      exact hphases lockValue (.release result) hold
  | lookup id' answer payload' lockValue storage hold
  | signFails id' payload' lockValue storage username hold
  | sign id' accessJti refreshJti payload' lockValue storage username pair _ _ hold
  | store id' jitter reply payload' lockValue storage pair lastActive hold =>
      obtain rfl : id' = id := Option.some.inj hcall
      apply of_refresh
      rintro rfl
      exact (hphases lockValue _ hold).elim
  | crash id' call hold hpending =>
      obtain rfl : id' = id := Option.some.inj hcall
      cases call with
      | refresh payload' lockValue phase => exact of_refresh fun _ => trivial
      | _ => simp [Replaying, calls_setCall_self, Call.crash]
  | tick ms => cases hcall
  | _ =>
      obtain rfl : _ = id := Option.some.inj hcall
      simp [Replaying, calls_setCall_self]

theorem of_step (hreplaying : Replaying start id payload state history)
    (hreplayed : Replayed start payload) (hsucceeds : Succeeds id event)
    (halone : Alone config id payload state event)
    (hstep : step config state event = some next) :
    Replaying start id payload next (history ++ acts config id state event) := by
  by_cases hcall : event.call = some id
  · exact hreplaying.of_own hreplayed hsucceeds hcall hstep
  · exact hreplaying.of_other halone hcall hstep

end Replaying

end OceanChat.Auth
