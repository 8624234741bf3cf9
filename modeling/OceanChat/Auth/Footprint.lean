import OceanChat.Auth.Exchange

/-!
# What a single call does

Calls interleave, so what one of them does is read off its own steps: the
messages that these publish and the tokens that they sign.  What the steps of
the other calls and the clock leave alone, the call finds as it was.
-/

namespace OceanChat.Auth

open Runs

variable {config : Config} {state next final : State} {event : Event}
variable {id : ℕ}

/-- The call that an event belongs to; time passes for none of them. -/
def Event.call : Event → Option ℕ
  | .login id _ | .refresh id _ _ | .logout id _ _ => some id
  | .setnx id _ | .hget id _ | .hgetall id _ | .del id _ => some id
  | .findOneById id _ | .sign id _ | .exec id _ _ => some id
  | .release id _ | .hdel id _ | .crash id => some id
  | .tick _ => none

/-- The reply of Redis that an event carries. -/
def Event.reply : Event → Option Reply
  | .setnx _ reply | .hget _ reply | .hgetall _ reply | .del _ reply => some reply
  | .exec _ _ reply | .release _ reply | .hdel _ reply => some reply
  | _ => none

/-- Every command of the call succeeds. -/
def Succeeds (id : ℕ) (event : Event) : Prop :=
  event.call = some id → ∀ reply, event.reply = some reply → reply = .ok

/-- A step that is not one of the call leaves this part of the state alone. -/
def Undisturbed {Field : Type*} (config : Config) (id : ℕ)
    (field : State → Field) (state : State) (event : Event) : Prop :=
  event.call ≠ some id → ∀ next, step config state event = some next →
    field next = field state

theorem calls_of_call_ne (hstep : step config state event = some next)
    (hne : event.call ≠ some id) : next.calls id = state.calls id := by
  have hother : ∀ {id' : ℕ} {middle : State} {call : Call},
      some id' ≠ some id → middle.calls = state.calls →
        (middle.setCall id' call).calls id = state.calls id := by
    intro id' middle call hid hcalls
    have hid' : id ≠ id' := fun heq => hid (congrArg some heq.symm)
    simp [State.setCall, hid', hcalls]
  cases step_effect hstep with
  | tick ms => rfl
  | _ => exact hother hne rfl

theorem calls_setCall_self (state : State) (id : ℕ) (call : Call) :
    (state.setCall id call).calls id = some call := by
  simp [State.setCall]

/-- A refresh keeps its token and its lock value, and never acquires twice. -/
theorem refresh_of_step {payload : JwtPayload} {lockValue : String}
    {phase : RefreshPhase} (hstep : step config state event = some next)
    (hcall : state.calls id = some (.refresh payload lockValue phase)) :
    ∃ phase', next.calls id = some (.refresh payload lockValue phase') ∧
      (phase ≠ .acquire → phase' ≠ .acquire) := by
  have hinside : ∀ {phase' : RefreshPhase}, phase'.inside = true →
      phase' ≠ .acquire := by
    rintro _ hinside rfl
    cases hinside
  by_cases hown : event.call = some id
  · cases step_effect hstep with
    | tick ms => cases hown
    | crash id' call hold hpending =>
        obtain rfl : id' = id := Option.some.inj hown
        obtain rfl := Option.some.inj (hcall.symm.trans hold)
        exact ⟨.crashed, calls_setCall_self _ _ _, by simp⟩
    | read id' reply payload' lockValue' hold =>
        obtain rfl : id' = id := Option.some.inj hown
        obtain ⟨rfl, rfl, rfl⟩ :
            payload = payload' ∧ lockValue = lockValue' ∧ phase = .read := by
          simpa [hcall] using hold
        refine ⟨_, calls_setCall_self _ _ _, fun _ => ?_⟩
        split
        · exact hinside (afterHget_inside payload _)
        · simp
    | lookup id' answer payload' lockValue' storage hold =>
        obtain rfl : id' = id := Option.some.inj hown
        obtain ⟨rfl, rfl, rfl⟩ : payload = payload' ∧ lockValue = lockValue' ∧
            phase = .lookup storage := by
          simpa [hcall] using hold
        exact ⟨_, calls_setCall_self _ _ _, fun _ =>
          hinside (afterLookup_inside storage answer)⟩
    | _ =>
        obtain rfl : _ = id := Option.some.inj hown
        simp_all [calls_setCall_self]
  · exact ⟨phase, by rw [calls_of_call_ne hstep hown, hcall], fun hne => hne⟩

/-- What a refresh that has asked for its lock is in the rest of a run. -/
theorem refresh_of_run {payload : JwtPayload} {lockValue : String}
    {phase : RefreshPhase} {events : List Event}
    (hrun : run (step config) state events = some final)
    (hcall : state.calls id = some (.refresh payload lockValue phase))
    (hphase : phase ≠ .acquire) :
    ∃ phase', final.calls id = some (.refresh payload lockValue phase') ∧
      phase' ≠ .acquire := by
  apply run_invariant (fun later => ∃ phase',
    later.calls id = some (.refresh payload lockValue phase') ∧
      phase' ≠ .acquire) _ ⟨phase, hcall, hphase⟩ hrun
  rintro middle event next ⟨phase', hmiddle, hne⟩ hstep
  obtain ⟨later, hlater, hkeep⟩ := refresh_of_step hstep hmiddle
  exact ⟨later, hlater, hkeep hne⟩

/-! ## Acts -/

/-- What a call leaves outside Redis. -/
inductive Act
  | published (message : Message)
  | signed (token : Token)
  deriving DecidableEq

/-- What a step does if it is one of the call. -/
def acts (config : Config) (id : ℕ) (state : State) (event : Event) : List Act :=
  if event.call = some id then
    match step config state event with
    | some next =>
        (next.published.drop state.published.length).map .published ++
          (next.signed.take (next.signed.length - state.signed.length)).map .signed
    | none => []
  else []

theorem acts_of_call_ne (hne : event.call ≠ some id) :
    acts config id state event = [] :=
  if_neg hne

theorem acts_of_published {messages : List Message}
    (hcall : event.call = some id)
    (hstep : step config state event = some next)
    (hpublished : next.published = state.published ++ messages)
    (hsigned : next.signed = state.signed) :
    acts config id state event = messages.map .published := by
  simp [acts, hcall, hstep, hpublished, hsigned]

theorem acts_of_unchanged (hstep : step config state event = some next)
    (hpublished : next.published = state.published)
    (hsigned : next.signed = state.signed) :
    acts config id state event = [] := by
  by_cases hcall : event.call = some id
  · have hnone := @acts_of_published config state next event id [] hcall hstep
      (by simpa using hpublished) hsigned
    simpa using hnone
  · exact acts_of_call_ne hcall

/-- A step that is not enabled does nothing. -/
theorem acts_of_none (hstep : step config state event = none) :
    acts config id state event = [] := by
  simp [acts, hstep]

end OceanChat.Auth
