import OceanChat.Auth.Service

/-!
# Stored sessions

What each command does to the session of a device, and which part of a call is
where: the lock it owns, the token pair it is about to store, the refresh token
it has found current and the one it has exchanged.
-/

namespace OceanChat.Auth

open HashStore (hget)

/-! ## Commands -/

section Commands

variable {config : Config} {sessions : Sessions} {now jitter : ℕ}
variable {userId deviceId userId' deviceId' : String} {text : SessionText}
variable {storage : TokenStorage}

@[simp]
theorem hget_storeSession_same :
    hget (storeSession config sessions now jitter userId deviceId storage)
      (getUserKey userId) deviceId = some (.object storage) := by
  simp [storeSession]

theorem hget_storeSession_of_ne
    (hne : ¬ (userId' = userId ∧ deviceId' = deviceId)) :
    hget (storeSession config sessions now jitter userId deviceId storage)
        (getUserKey userId') deviceId' =
      hget sessions (getUserKey userId') deviceId' := by
  rw [storeSession, HashStore.hget_expire]
  by_cases huser : userId' = userId
  · subst huser
    have hdevice : deviceId' ≠ deviceId := fun heq => hne ⟨rfl, heq⟩
    exact HashStore.hget_hset_of_field_ne hdevice
  · exact HashStore.hget_hset_of_key_ne (getUserKey_injective.ne huser)

theorem hget_hdel_of_ne (hne : ¬ (userId' = userId ∧ deviceId' = deviceId)) :
    hget (HashStore.hdel sessions (getUserKey userId) deviceId).1
        (getUserKey userId') deviceId' =
      hget sessions (getUserKey userId') deviceId' := by
  by_cases huser : userId' = userId
  · subst huser
    have hdevice : deviceId' ≠ deviceId := fun heq => hne ⟨rfl, heq⟩
    exact HashStore.hget_hdel_of_field_ne hdevice
  · exact HashStore.hget_hdel_of_key_ne (getUserKey_injective.ne huser)

theorem hget_of_hdel
    (hfound : hget (HashStore.hdel sessions (getUserKey userId) deviceId).1
      (getUserKey userId') deviceId' = some text) :
    hget sessions (getUserKey userId') deviceId' = some text := by
  by_cases hplace : userId' = userId ∧ deviceId' = deviceId
  · obtain ⟨rfl, rfl⟩ := hplace
    simp [HashStore.hget_hdel_same] at hfound
  · rwa [hget_hdel_of_ne hplace] at hfound

theorem hget_del_of_ne (hne : userId' ≠ userId) :
    hget (HashStore.del sessions (getUserKey userId)) (getUserKey userId')
        deviceId' =
      hget sessions (getUserKey userId') deviceId' :=
  HashStore.hget_del_of_ne (getUserKey_injective.ne hne)

theorem hget_of_del
    (hfound : hget (HashStore.del sessions (getUserKey userId))
      (getUserKey userId') deviceId' = some text) :
    hget sessions (getUserKey userId') deviceId' = some text := by
  by_cases huser : userId' = userId
  · subst huser
    simp at hfound
  · rwa [hget_del_of_ne huser] at hfound

/-- A command that only removes sessions does so whether or not it takes
effect. -/
theorem hget_of_took {reply : Reply} {removed : Sessions}
    (hremoved : hget removed (getUserKey userId) deviceId = some text →
      hget sessions (getUserKey userId) deviceId = some text)
    (hfound : hget (if reply.took then removed else sessions)
      (getUserKey userId) deviceId = some text) :
    hget sessions (getUserKey userId) deviceId = some text := by
  split at hfound
  · exact hremoved hfound
  · exact hfound

end Commands

/-! ## Calls -/

/-- The phases in which a refresh holds its lock. -/
def RefreshPhase.inside : RefreshPhase → Bool
  | .acquire | .finished _ | .crashed => false
  | _ => true

/-- The lock that a call owns. -/
def Call.lock : Call → Option (String × String)
  | .refresh payload lockValue phase =>
      if phase.inside then
        some (lockKey payload.sub payload.deviceId, lockValue)
      else none
  | _ => none

/-- The user and device whose session a call reads or writes. -/
def Call.place : Call → Option (String × String)
  | .login user _ => some (user.userId, user.deviceId)
  | .refresh payload _ _ => some (payload.sub, payload.deviceId)
  | .refused _ => none
  | .logout userId deviceId _ => some (userId, deviceId)

/-- The pair that a call is about to store. -/
def Call.unstored : Call → Option TokenPair
  | .login _ (.store pair _) => some pair
  | .refresh _ _ (.store _ pair _) => some pair
  | _ => none

/-- The refresh token that a call has found stored and will replace. -/
def Call.exchanging : Call → Option JwtPayload
  | .refresh payload _ (.lookup _) => some payload
  | .refresh payload _ (.sign _ _) => some payload
  | .refresh payload _ (.store _ _ _) => some payload
  | _ => none

/-- The refresh token for which a call returns a new pair. -/
def Call.exchanged : Call → Option JwtPayload
  | .refresh payload _ (.release (.ok _)) => some payload
  | .refresh payload _ (.finished (.ok _)) => some payload
  | _ => none

/-- `refreshJti` of the parsed session. -/
def SessionText.refreshJti (text : SessionText) : Option String :=
  text.parse.join.bind TokenStorage.refreshJti

theorem place_of_exchanging {call : Call} {payload : JwtPayload}
    (hexchanging : call.exchanging = some payload) :
    call.place = some (payload.sub, payload.deviceId) := by
  cases call with
  | refresh payload' lockValue phase =>
      cases phase <;> simp_all [Call.exchanging, Call.place]
  | _ => simp [Call.exchanging] at hexchanging

theorem place_of_exchanged {call : Call} {payload : JwtPayload}
    (hexchanged : call.exchanged = some payload) :
    call.place = some (payload.sub, payload.deviceId) := by
  cases call with
  | refresh payload' lockValue phase =>
      rcases phase with _ | _ | _ | _ | _ | _ | _ | result | result | _
      case release => cases result <;> simp_all [Call.exchanged, Call.place]
      case finished => cases result <;> simp_all [Call.exchanged, Call.place]
      all_goals simp [Call.exchanged] at hexchanged
  | _ => simp [Call.exchanged] at hexchanged

@[simp]
theorem refreshJti_object (storage : TokenStorage) :
    (SessionText.object storage).refreshJti = storage.refreshJti := rfl

theorem afterSetnx_cases (reply : Reply) (isLockAcquired : Bool) :
    afterSetnx reply isLockAcquired = .read ∨
      ∃ error, afterSetnx reply isLockAcquired = .finished (.error error) := by
  cases reply with
  | ok =>
      cases isLockAcquired with
      | true => exact .inl rfl
      | false => exact .inr ⟨reusedException, rfl⟩
  | failed => exact .inr ⟨redisClientException, rfl⟩
  | lost => exact .inr ⟨redisClientException, rfl⟩

theorem afterLookup_cases (storage : TokenStorage) (answer : UserAnswer) :
    (∃ username, afterLookup storage answer = .sign storage username) ∨
      ∃ error, afterLookup storage answer = .release (.error error) := by
  cases answer with
  | found username => exact .inl ⟨username, rfl⟩
  | notFound => exact .inr ⟨userNotFoundException, rfl⟩
  | threw error => exact .inr ⟨error, rfl⟩

/-- A refresh either finds its own token stored, or a replay, or gives up. -/
theorem afterHget_cases (payload : JwtPayload) (text : Option SessionText) :
    (∃ storage, afterHget payload text = .lookup storage ∧
        text.bind SessionText.parse = some (some storage) ∧
        storage.refreshJti = some payload.jti) ∨
      afterHget payload text = .scan ∨
      ∃ error, afterHget payload text = .release (.error error) := by
  cases text with
  | none => exact .inr (.inr ⟨reusedException, rfl⟩)
  | some text =>
      cases hparse : text.parse with
      | none => exact .inr (.inr ⟨reusedException, by simp [afterHget, hparse]⟩)
      | some parsed =>
          cases parsed with
          | none =>
              exact .inr (.inr ⟨rethrow .other, by simp [afterHget, hparse]⟩)
          | some storage =>
              by_cases hjti : storage.refreshJti = some payload.jti
              · refine .inl ⟨storage, ?_, by simp [hparse], hjti⟩
                simp [afterHget, hparse, hjti]
              · exact .inr (.inl (by simp [afterHget, hparse, hjti]))

/-- What the calls hold of some kind, after one of them has moved on. -/
theorem bind_setCall {Held : Type*} (held : Call → Option Held) (state : State)
    (id : ℕ) (call : Call) :
    (fun other => ((state.setCall id call).calls other).bind held) =
      Function.update (fun other => (state.calls other).bind held) id
        (held call) := by
  funext other
  by_cases hid : other = id <;> simp [State.setCall, hid]

theorem Call.lock_crash (call : Call) : call.crash.lock = none := by
  cases call <;> rfl

theorem Call.unstored_crash (call : Call) : call.crash.unstored = none := by
  cases call <;> rfl

theorem Call.exchanging_crash (call : Call) :
    call.crash.exchanging = none := by
  cases call <;> rfl

theorem Call.exchanged_crash (call : Call) : call.crash.exchanged = none := by
  cases call <;> rfl

/-! ## Started calls -/

/-- The call that an event starts. -/
def Event.starts : Event → Option ℕ
  | .login id _ => some id
  | .refresh id _ _ => some id
  | .logout id _ _ => some id
  | _ => none

/-- No call awaits anything. -/
def State.Idle (state : State) : Prop :=
  ∀ id call, state.calls id = some call → call.pending = false

theorem State.Idle.initial : State.initial.Idle := by
  intro id call hcall
  simp [State.initial] at hcall

section Started

variable {config : Config} {state next final : State} {event : Event}
variable {id : ℕ} {call : Call}

theorem started_of_setCall {id' : ℕ} {old : Call}
    (hcall : (next.setCall id' call).calls id ≠ none)
    (hold : state.calls id' = some old) (hcalls : next.calls = state.calls) :
    state.calls id ≠ none := by
  by_cases hid : id = id'
  · subst hid
    simp [hold]
  · simpa [State.setCall, hid, hcalls] using hcall

theorem started_of_step (hstep : step config state event = some next)
    (hcall : next.calls id ≠ none) :
    state.calls id ≠ none ∨ event.starts = some id := by
  have hnew : ∀ {id' : ℕ} {fresh : Call},
      (state.setCall id' fresh).calls id ≠ none →
        state.calls id ≠ none ∨ some id' = some id := by
    intro id' fresh hfresh
    by_cases hid : id = id'
    · exact .inr (congrArg some hid.symm)
    · exact .inl (by simpa [State.setCall, hid] using hfresh)
  cases step_effect hstep with
  | login id' user hnone => exact hnew hcall
  | refresh id' text lockValue payload hnone hverify => exact hnew hcall
  | refuse id' text lockValue hnone => exact hnew hcall
  | logout id' userId deviceId hnone => exact hnew hcall
  | tick ms => exact .inl hcall
  | _ => exact .inl (started_of_setCall hcall (by assumption) rfl)

theorem started_of_run {events : List Event}
    (hrun : Runs.run (step config) state events = some final)
    (hcall : final.calls id ≠ none) :
    state.calls id ≠ none ∨ id ∈ events.filterMap Event.starts := by
  induction events generalizing state with
  | nil =>
      obtain rfl : state = final := by simpa using hrun
      exact .inl hcall
  | cons event events ih =>
      obtain ⟨next, hnext, hrest⟩ := Runs.run_cons_eq_some.mp hrun
      rcases ih hrest with hstarted | hlater
      · rcases started_of_step hnext hstarted with hold | hnew
        · exact .inl hold
        · exact .inr (by simp [hnew])
      · refine .inr ?_
        rw [List.filterMap_cons]
        split
        · exact hlater
        · exact List.mem_cons_of_mem _ hlater

/-- None of these calls awaits anything. -/
def State.allFinished (state : State) (ids : List ℕ) : Bool :=
  ids.all fun id => !(state.calls id).any Call.pending

/-- To see that a run ends idle it is enough to look at the calls it starts. -/
theorem idle_of_run {events : List Event}
    (hrun : Runs.run (step config) State.initial events = some final)
    (hfinished : final.allFinished (events.filterMap Event.starts) = true) :
    final.Idle := by
  intro id call hcall
  have hsome : final.calls id ≠ none := by simp [hcall]
  rcases started_of_run hrun hsome with hinitial | hstarted
  · exact absurd rfl hinitial
  · have hthis := List.all_eq_true.mp hfinished id hstarted
    simpa [hcall] using hthis

end Started

end OceanChat.Auth
