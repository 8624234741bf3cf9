import OceanChat.Auth.Footprint

/-!
# A refused refresh changes nothing

A refresh reads and checks before it writes.  Until it is refused it has only
taken its lock, and once it is refused it only gives the lock back.
-/

namespace OceanChat.Auth

open Runs TtlStore

variable {config : Config} {start state middle next final : State}
variable {event refusal : Event} {id : ℕ}

/-! ## Refusals -/

/-- The step makes the refresh throw: its token does not verify, another call
holds the lock, there is no session or one that does not parse, the user is not
found or signing fails. -/
def Refuses (id : ℕ) (state : State) : Event → Prop
  | .refresh other oldRefreshToken _ =>
      other = id ∧ verifyRefresh state oldRefreshToken = none
  | .setnx other reply => other = id ∧ reply = .ok ∧
      ∃ payload lockValue,
        state.calls id = some (.refresh payload lockValue .acquire) ∧
          state.locks (lockKey payload.sub payload.deviceId) ≠ none
  | .hget other reply => other = id ∧ reply = .ok ∧
      ∃ payload lockValue,
        state.calls id = some (.refresh payload lockValue .read) ∧
          (state.session payload.sub payload.deviceId).bind SessionText.parse =
            none
  | .findOneById other answer => other = id ∧
      (answer = .notFound ∨ ∃ error, answer = .threw error)
  | .sign other jtis => other = id ∧ jtis = none ∧
      ∃ payload lockValue storage username,
        state.calls id =
          some (.refresh payload lockValue (.sign storage username))
  | _ => False

theorem Refuses.call (hrefuses : Refuses id state event) :
    event.call = some id := by
  cases event <;> simp_all [Refuses, Event.call]

/-- A refresh that has checked so far. -/
def Call.checking : Call → Bool
  | .refresh _ _ .acquire | .refresh _ _ .read => true
  | .refresh _ _ (.lookup _) | .refresh _ _ (.sign _ _) => true
  | _ => false

/-- A refresh that has thrown, or is about to throw once its lock is released. -/
def Call.refusing : Call → Bool
  | .refused _ => true
  | .refresh _ _ (.release (.error _)) => true
  | .refresh _ _ (.finished (.error _)) => true
  | .refresh _ _ .crashed => true
  | _ => false

/-- The exception that a `refreshToken` call has thrown. -/
def Call.thrown : Call → Option AppException
  | .refused error => some error
  | .refresh _ _ (.finished (.error error)) => some error
  | _ => none

def Checking (id : ℕ) (state : State) : Prop :=
  (state.calls id).all Call.checking = true

def Refusing (id : ℕ) (state : State) : Prop :=
  (state.calls id).any Call.refusing = true

theorem afterHget_of_unparsed {payload : JwtPayload} {text : Option SessionText}
    (hunparsed : text.bind SessionText.parse = none) :
    afterHget payload text = .release (.error reusedException) := by
  cases text with
  | none => rfl
  | some text => simp_all [afterHget]

/-- A refresh that is still checking was checking before. -/
theorem Checking.of_step (hstep : step config state event = some next)
    (hchecking : Checking id next) : Checking id state := by
  by_cases hcall : event.call = some id
  · unfold Checking at hchecking ⊢
    cases step_effect hstep with
    | crash id' call hold hpending =>
        obtain rfl : id' = id := Option.some.inj hcall
        cases call <;> simp_all [calls_setCall_self, Call.crash, Call.checking]
    | tick ms => exact hchecking
    | _ =>
        obtain rfl : _ = id := Option.some.inj hcall
        simp_all [calls_setCall_self, Call.checking]
  · rwa [Checking, ← calls_of_call_ne hstep hcall]

/-- A refresh that is about to throw does throw, unless it crashes. -/
theorem Refusing.of_step (hrefusing : Refusing id state)
    (hstep : step config state event = some next) : Refusing id next := by
  by_cases hcall : event.call = some id
  · unfold Refusing at hrefusing ⊢
    cases step_effect hstep with
    | release id' reply payload lockValue result hold =>
        obtain rfl : id' = id := Option.some.inj hcall
        cases result <;> simp_all [calls_setCall_self, Call.refusing]
    | crash id' call hold hpending =>
        obtain rfl : id' = id := Option.some.inj hcall
        cases call <;> simp_all [calls_setCall_self, Call.crash, Call.refusing]
    | tick ms => exact hrefusing
    | _ =>
        obtain rfl : _ = id := Option.some.inj hcall
        simp_all [Call.refusing]
  · rwa [Refusing, calls_of_call_ne hstep hcall]

/-- The step that refuses comes between the two. -/
theorem Refuses.of_step (hrefuses : Refuses id state event)
    (hstep : step config state event = some next) :
    Checking id state ∧ Refusing id next := by
  unfold Checking Refusing
  cases step_effect hstep with
  | refresh id' text lockValue payload hnone hverify =>
      obtain ⟨rfl, hinvalid⟩ := hrefuses
      rw [hverify] at hinvalid
      cases hinvalid
  | refuse id' text lockValue hnone =>
      obtain ⟨rfl, -⟩ := hrefuses
      simp [hnone, calls_setCall_self, Call.refusing]
  | setnx id' reply payload lockValue hcall =>
      obtain ⟨rfl, rfl, payload', lockValue', hcall', hheld⟩ := hrefuses
      obtain ⟨rfl, rfl⟩ : payload = payload' ∧ lockValue = lockValue' := by
        simpa [hcall] using hcall'
      obtain ⟨entry, hentry⟩ := Option.ne_none_iff_exists'.mp hheld
      simp [hcall, calls_setCall_self, Call.checking, Call.refusing,
        setnx_of_some hentry, afterSetnx]
  | read id' reply payload lockValue hcall =>
      obtain ⟨rfl, rfl, payload', lockValue', hcall', hunparsed⟩ := hrefuses
      obtain ⟨rfl, rfl⟩ : payload = payload' ∧ lockValue = lockValue' := by
        simpa [hcall] using hcall'
      rw [if_pos rfl, afterHget_of_unparsed hunparsed]
      simp [hcall, calls_setCall_self, Call.checking, Call.refusing]
  | readLogout id' reply userId deviceId hcall =>
      obtain ⟨rfl, -, payload, lockValue, hcall', -⟩ := hrefuses
      simp [hcall] at hcall'
  | lookup id' answer payload lockValue storage hcall =>
      obtain ⟨rfl, rfl | ⟨error, rfl⟩⟩ := hrefuses <;>
      simp [hcall, calls_setCall_self, Call.checking, Call.refusing, afterLookup]
  | signFailsLogin id' user hcall =>
      obtain ⟨rfl, -, payload, lockValue, storage, username, hcall'⟩ := hrefuses
      simp [hcall] at hcall'
  | signFails id' payload lockValue storage username hcall =>
      obtain ⟨rfl, -⟩ := hrefuses
      simp [hcall, calls_setCall_self, Call.checking, Call.refusing]
  | signLogin id' accessJti refreshJti user pair hfresh hpair hcall =>
      cases hrefuses.2.1
  | sign id' accessJti refreshJti payload lockValue storage username pair hfresh
      hpair hcall =>
      cases hrefuses.2.1
  | _ => exact hrefuses.elim

/-- A refresh that checks or throws writes no session, publishes nothing and
signs nothing. -/
theorem unchanged_of_step (hstep : step config state event = some next)
    (hcall : event.call = some id)
    (hbefore : Checking id state ∨ Refusing id state)
    (hafter : Checking id next ∨ Refusing id next) :
    next.sessions = state.sessions ∧ next.published = state.published ∧
      next.signed = state.signed := by
  unfold Checking Refusing at hbefore hafter
  cases step_effect hstep with
  | tick ms => cases hcall
  | _ =>
      obtain rfl : _ = id := Option.some.inj hcall
      first
      | exact ⟨rfl, rfl, rfl⟩
      | simp_all [calls_setCall_self, Call.checking, Call.refusing]

/-- In every state of a refused run the refresh checks or throws. -/
theorem guarded_of_refuses {before after : List Event}
    (hbefore : run (step config) start before = some middle)
    (hrefuses : Refuses id middle refusal)
    (hafter : run (step config) middle (refusal :: after) = some final) :
    Guarded (step config) (fun state event =>
        (Checking id state ∨ Refusing id state) ∧
          ∀ next, step config state event = some next →
            Checking id next ∨ Refusing id next)
      start (before ++ refusal :: after) := by
  obtain ⟨next, hnext, -⟩ := run_cons_eq_some.mp hafter
  obtain ⟨hchecking, hrefusing⟩ := hrefuses.of_step hnext
  refine guarded_append.mpr ⟨?_, fun middle' hmiddle' => ?_⟩
  · refine (guarded_of_final (Checking id) (fun _ _ _ hstep hlater =>
      hlater.of_step hstep) hbefore hchecking).mono ?_
    rintro state event ⟨hstate, hlater⟩
    exact ⟨.inl hstate, fun next hstep => .inl (hlater next hstep)⟩
  · obtain rfl := Option.some.inj (hbefore.symm.trans hmiddle')
    refine ⟨⟨.inl hchecking, fun other hother => ?_⟩, fun other hother => ?_⟩
    · exact .inr (Option.some.inj (hnext.symm.trans hother) ▸ hrefusing)
    · obtain rfl := Option.some.inj (hnext.symm.trans hother)
      refine (guarded_of_invariant (Refusing id) (fun _ _ _ hstate hstep =>
        hstate.of_step hstep) after hrefusing).mono ?_
      rintro state event ⟨hstate, hlater⟩
      exact ⟨.inr hstate, fun next hstep => .inr (hlater next hstep)⟩

/-! ## The lock -/

/-- The lock of the call does not expire while the call is inside, and no other
call releases it with the same value. -/
def KeepsLock (id : ℕ) (state : State) : Event → Prop
  | .tick ms => ∀ key lockValue, state.lockOwner id = some (key, lockValue) →
      (state.locks key).all fun entry => !entry.due (state.now + ms)
  | .release other _ => other ≠ id → ∀ lock, state.lockOwner id = some lock →
      state.lockOwner other ≠ some lock
  | _ => True

theorem keepsLock_of_locked (hlocked : Locked state)
    (hkeep : KeepsLocks state event) : KeepsLock id state event := by
  cases event with
  | tick ms => exact hkeep id
  | release other reply =>
      intro hne lock howner hother
      exact hne (hlocked.exclusive hother howner)
  | _ => trivial

/-- In a system in which no lock expires under its call, every call keeps its
lock: no two calls inside have the same one. -/
theorem guarded_keepsLock {events : List Event}
    (hkeep : Guarded (step config) KeepsLocks State.initial events) (id : ℕ) :
    Guarded (step config) (KeepsLock id) State.initial events :=
  hkeep.of_invariant Locked
    (fun _ _ _ hlocked hevent hstep => hlocked.of_step hevent hstep)
    (fun _ _ hlocked hevent => keepsLock_of_locked hlocked hevent)
    Locked.initial

/-- A call that is inside finds its own value under its lock key. -/
def HoldsLock (id : ℕ) (state : State) : Prop :=
  ∀ key lockValue, state.lockOwner id = some (key, lockValue) →
    get state.locks key = some lockValue

namespace HoldsLock

theorem of_none (hnone : state.calls id = none) : HoldsLock id state := by
  intro key lockValue howner
  simp [State.lockOwner, hnone] at howner

theorem outside {call : Call} (hlock : call.lock = none) :
    HoldsLock id (state.setCall id call) := by
  intro key lockValue howner
  simp [lockOwner_setCall, hlock] at howner

/-- A refresh moves on inside its lock. -/
theorem inside (hholds : HoldsLock id state) {payload : JwtPayload}
    {lockValue : String} {before after : RefreshPhase}
    (hcall : state.calls id = some (.refresh payload lockValue before))
    (hbefore : before.inside = true) (hafter : after.inside = true)
    (hlocks : next.locks = state.locks) :
    HoldsLock id (next.setCall id (.refresh payload lockValue after)) := by
  intro key lockValue' howner
  simp only [State.setCall, hlocks]
  apply hholds
  rw [← howner, lockOwner_setCall]
  simp [State.lockOwner, hcall, Call.lock, hbefore, hafter]

theorem of_setnx (reply : Reply) (payload : JwtPayload) (lockValue : String) :
    HoldsLock id (State.setCall
      { state with locks := if reply.took then
          (setnx state.locks (lockKey payload.sub payload.deviceId)
            lockValue (some (state.now + lockTtl * 1000))).1
        else state.locks } id
      (.refresh payload lockValue (afterSetnx reply
        (setnx state.locks (lockKey payload.sub payload.deviceId)
          lockValue (some (state.now + lockTtl * 1000))).2))) := by
  cases hlock : state.locks (lockKey payload.sub payload.deviceId) with
  | some entry =>
      rw [setnx_of_some hlock]
      cases reply <;> exact outside rfl
  | none =>
      rw [setnx_of_none hlock]
      cases reply with
      | ok =>
          intro key lockValue' howner
          obtain ⟨rfl, rfl⟩ : lockKey payload.sub payload.deviceId = key ∧
              lockValue = lockValue' := by
            simpa [lockOwner_setCall, afterSetnx, Call.lock,
              RefreshPhase.inside] using howner
          exact get_put_same
      | failed => exact outside rfl
      | lost => exact outside rfl

/-- What others do leaves the entry of the call in its place. -/
theorem of_other (hholds : HoldsLock id state)
    (hkeep : KeepsLock id state event)
    (hstep : step config state event = some next)
    (hne : event.call ≠ some id) : HoldsLock id next := by
  intro key lockValue howner
  rw [State.lockOwner, calls_of_call_ne hstep hne] at howner
  have hget := hholds key lockValue howner
  obtain ⟨entry, hentry, hvalue⟩ := Option.map_eq_some_iff.mp hget
  cases step_effect hstep with
  | setnx id' reply payload lockValue' hcall =>
      simp only [State.setCall]
      split
      · rw [TtlStore.get, setnx_of_stored hentry]
        exact congrArg some hvalue
      · exact hget
  | release id' reply payload lockValue' result hcall =>
      have hid : id' ≠ id := fun heq => hne (congrArg some heq)
      have hother := hkeep hid (key, lockValue) howner
      simp only [State.setCall]
      split
      · rw [TtlStore.get, delIfEqual_of_get_ne, hentry]
        · exact congrArg some hvalue
        · rintro rfl hsame
          obtain rfl := Option.some.inj (hsame.symm.trans hget)
          exact hother (by
            simp [State.lockOwner, hcall, Call.lock, RefreshPhase.inside])
      · exact hget
  | tick ms =>
      have hlive : entry.due (state.now + ms) = false := by
        simpa [hentry] using hkeep key lockValue howner
      have hswept := sweep_of_live hentry hlive
      simp [TtlStore.get, hswept, hvalue]
  | _ => exact hget

theorem of_step (hholds : HoldsLock id state)
    (hkeep : KeepsLock id state event)
    (hstep : step config state event = some next) : HoldsLock id next := by
  by_cases hcall : event.call = some id
  · cases step_effect hstep with
    | tick ms => cases hcall
    | setnx id' reply payload lockValue hold =>
        obtain rfl : id' = id := Option.some.inj hcall
        exact of_setnx reply payload lockValue
    | read id' reply payload lockValue hold =>
        obtain rfl : id' = id := Option.some.inj hcall
        refine hholds.inside hold rfl ?_ rfl
        split
        · exact afterHget_inside payload _
        · rfl
    | scan id' payload lockValue hold | scanFails id' reply payload lockValue _ hold
    | revokeAll id' reply payload lockValue hold
    | signFails id' payload lockValue storage username hold
    | sign id' accessJti refreshJti payload lockValue storage username pair _ _ hold
    | store id' jitter reply payload lockValue storage pair lastActive hold =>
        obtain rfl : id' = id := Option.some.inj hcall
        exact hholds.inside hold rfl rfl rfl
    | lookup id' answer payload lockValue storage hold =>
        obtain rfl : id' = id := Option.some.inj hcall
        exact hholds.inside hold rfl (afterLookup_inside storage answer) rfl
    | crash id' call hold hpending =>
        obtain rfl : id' = id := Option.some.inj hcall
        exact outside call.lock_crash
    | _ =>
        obtain rfl : _ = id := Option.some.inj hcall
        exact outside rfl
  · exact hholds.of_other hkeep hstep hcall

end HoldsLock

/-! ## Exchanging the token afterwards -/

/-- A refresh with this token that is left alone gets a new pair. -/
def Exchangeable (config : Config) (state : State) (token : Token) : Prop :=
  ∀ id lockValue username accessJti refreshJti, state.calls id = none →
    freshJtis state.signed accessJti refreshJti = true →
      ((run (step config) state (checkEvents id token lockValue ++
          rotateEvents id username accessJti refreshJti)).bind fun later =>
        later.calls id) =
      some (.refresh token.payload lockValue (.finished (.ok
        (signTokens config state.now
          ⟨token.payload.sub, username, token.payload.deviceId⟩
          accessJti refreshJti))))

theorem exchangeable_of_current {token : Token}
    (hverify : verifyRefresh state (.jwt token) = some token.payload)
    (hcurrent : state.refreshJti token.payload.sub token.payload.deviceId =
      some token.payload.jti)
    (hfree : state.locks (lockKey token.payload.sub token.payload.deviceId) =
      none) : Exchangeable config state token := by
  intro id lockValue username accessJti refreshJti hnone hfresh
  obtain ⟨text, htext, hjti⟩ := Option.bind_eq_some_iff.mp hcurrent
  obtain ⟨storage, hparse, hstorage⟩ := Option.bind_eq_some_iff.mp hjti
  have hparsed : text.parse = some (some storage) := by
    simpa [Option.join_eq_some_iff] using hparse
  have hlookup : afterHget token.payload (HashStore.hget state.sessions
      (getUserKey token.payload.sub) token.payload.deviceId) =
        .lookup storage := by
    rw [State.session] at htext
    simp [afterHget, htext, hparsed, hstorage]
  have hlock : setnx state.locks
      (lockKey token.payload.sub token.payload.deviceId) lockValue
      (some (state.now + lockTtl * 1000)) = (_, true) := setnx_of_none hfree
  simp [checkEvents, rotateEvents, run, step, hnone, hverify, State.setCall,
    State.session, hlock, afterSetnx, hlookup, afterLookup, hfresh,
    jitterAllowed]

/-! ## Refused calls -/

theorem lock_eq_some {call : Call} {key lockValue : String}
    (hlock : call.lock = some (key, lockValue)) :
    ∃ payload phase, call = .refresh payload lockValue phase ∧
      phase.inside = true ∧ key = lockKey payload.sub payload.deviceId := by
  cases call with
  | refresh payload lockValue' phase =>
      obtain ⟨hinside, rfl, rfl⟩ : phase.inside = true ∧
          lockKey payload.sub payload.deviceId = key ∧ lockValue' = lockValue := by
        simpa [Call.lock] using hlock
      exact ⟨payload, phase, rfl, hinside, rfl⟩
  | _ => simp [Call.lock] at hlock

theorem thrown_of_inside {payload : JwtPayload} {lockValue : String}
    {phase : RefreshPhase} (hinside : phase.inside = true) :
    Call.thrown (.refresh payload lockValue phase) = none := by
  cases phase <;> simp_all [Call.thrown, RefreshPhase.inside]

/-- The step by which a refresh throws after it was inside gives its lock
back. -/
theorem free_of_release (hholds : HoldsLock id state)
    (hsucceeds : Succeeds id event) (hcall : event.call = some id)
    (hstep : step config state event = some next)
    {payload : JwtPayload} {lockValue : String} {phase : RefreshPhase}
    (hrefresh : state.calls id = some (.refresh payload lockValue phase))
    (hphase : phase ≠ .acquire)
    (hthrown : (next.calls id).bind Call.thrown ≠ none) :
    next.locks (lockKey payload.sub payload.deviceId) = none := by
  cases step_effect hstep with
  | release id' reply payload' lockValue' result hold =>
      obtain rfl : id' = id := Option.some.inj hcall
      obtain ⟨rfl, rfl, rfl⟩ :
          payload = payload' ∧ lockValue = lockValue' ∧ phase = .release result := by
        simpa [hrefresh] using hold
      obtain rfl : reply = .ok := hsucceeds rfl reply rfl
      have hget : get state.locks (lockKey payload.sub payload.deviceId) =
          some lockValue := hholds _ _ (by
        simp [State.lockOwner, hrefresh, Call.lock, RefreshPhase.inside])
      simp [State.setCall, Reply.took, hget]
  | read id' reply payload' lockValue' hold =>
      obtain rfl : id' = id := Option.some.inj hcall
      refine absurd ?_ hthrown
      rw [calls_setCall_self, Option.bind_some]
      apply thrown_of_inside
      split
      · exact afterHget_inside payload' _
      · rfl
  | lookup id' answer payload' lockValue' storage hold =>
      obtain rfl : id' = id := Option.some.inj hcall
      refine absurd ?_ hthrown
      rw [calls_setCall_self, Option.bind_some]
      exact thrown_of_inside (afterLookup_inside storage answer)
  | crash id' call hold hpending =>
      obtain rfl : id' = id := Option.some.inj hcall
      cases call <;> simp_all [calls_setCall_self, Call.crash, Call.thrown]
  | tick ms => cases hcall
  | _ =>
      obtain rfl : _ = id := Option.some.inj hcall
      simp_all [calls_setCall_self, Call.thrown]

/-- A lock that a refresh holds when it is refused is free when it has ended. -/
theorem lock_free_of_thrown {before after : List Event}
    (hstart : start.calls id = none)
    (hbefore : run (step config) start before = some middle)
    (hafter : run (step config) middle after = some final)
    (hsucceeds : ∀ event ∈ before ++ after, Succeeds id event)
    (hkeep : Guarded (step config) (KeepsLock id) start (before ++ after))
    (hlast : ∀ event ∈ after.getLast?, event.call = some id)
    (hthrown : (final.calls id).bind Call.thrown ≠ none)
    {key lockValue : String} (howner : middle.lockOwner id = some (key, lockValue)) :
    final.locks key = none := by
  obtain ⟨call, hcall, hlock⟩ := Option.bind_eq_some_iff.mp howner
  obtain ⟨payload, phase, rfl, hinside, rfl⟩ := lock_eq_some hlock
  rcases List.eq_nil_or_concat' after with rfl | ⟨init, last, rfl⟩
  · obtain rfl : middle = final := by simpa using hafter
    exact absurd (by simp [hcall, thrown_of_inside hinside]) hthrown
  · obtain ⟨prior, hprior, hfinal⟩ := run_append_eq_some.mp hafter
    have hstep : step config prior last = some final := by
      simpa [run, Option.bind_eq_some_iff] using hfinal
    have hholds : HoldsLock id prior := by
      apply run_invariant_of_guarded (HoldsLock id)
        (fun _ _ _ hholds hkeep hstep => hholds.of_step hkeep hstep)
        (HoldsLock.of_none hstart)
      · rw [← List.append_assoc] at hkeep
        exact (guarded_append.mp hkeep).1
      · exact run_append_eq_some.mpr ⟨middle, hbefore, hprior⟩
    obtain ⟨phase', hphase', hne⟩ := refresh_of_run hprior hcall
      (by rintro rfl; cases hinside)
    exact free_of_release hholds (hsucceeds last (by simp))
      (hlast last (by simp)) hstep hphase' hne hthrown

/-- A refused refresh leaves the sessions as they were, publishes nothing and
gives back the lock it holds; a token that was current can still be exchanged. -/
theorem refused_changes_nothing {before after : List Event}
    (hstart : start.calls id = none)
    (hbefore : run (step config) start before = some middle)
    (hrefuses : Refuses id middle refusal)
    (hafter : run (step config) middle (refusal :: after) = some final)
    (hsucceeds : ∀ event ∈ before ++ refusal :: after, Succeeds id event)
    (hkeep : Guarded (step config) (KeepsLock id) start
      (before ++ refusal :: after))
    (hlast : ∀ event ∈ (refusal :: after).getLast?, event.call = some id)
    (hthrown : (final.calls id).bind Call.thrown ≠ none) :
    trace (step config) (acts config id) start (before ++ refusal :: after) = [] ∧
      (∀ key lockValue, middle.lockOwner id = some (key, lockValue) →
        final.locks key = none) ∧
      ∀ userId, Guarded (step config) (Undisturbed config id fun state =>
          state.sessions (getUserKey userId)) start (before ++ refusal :: after) →
        final.sessions (getUserKey userId) =
            start.sessions (getUserKey userId) ∧
          ∀ token, token.payload.sub = userId →
            verifyRefresh final (.jwt token) = some token.payload →
            start.refreshJti userId token.payload.deviceId =
              some token.payload.jti →
            final.locks (lockKey userId token.payload.deviceId) = none →
              Exchangeable config final token := by
  have hrun : run (step config) start (before ++ refusal :: after) = some final :=
    run_append_eq_some.mpr ⟨middle, hbefore, hafter⟩
  have hquiet := guarded_of_refuses hbefore hrefuses hafter
  refine ⟨trace_eq_nil ?_ hquiet, ?_, fun userId halone => ?_⟩
  · rintro state event ⟨hstate, hlater⟩
    by_cases hcall : event.call = some id
    · cases hstep : step config state event with
      | none => exact acts_of_none hstep
      | some next =>
          obtain ⟨-, hpublished, hsigned⟩ :=
            unchanged_of_step hstep hcall hstate (hlater next hstep)
          exact acts_of_unchanged hstep hpublished hsigned
    · exact acts_of_call_ne hcall
  · intro key lockValue howner
    exact lock_free_of_thrown hstart hbefore hafter hsucceeds hkeep hlast hthrown
      howner
  · have hsame : final.sessions (getUserKey userId) =
        start.sessions (getUserKey userId) := by
      apply field_of_guarded (fun state => state.sessions (getUserKey userId))
        _ (guarded_and.mpr ⟨hquiet, halone⟩) hrun
      rintro state event next ⟨⟨hstate, hlater⟩, hother⟩ hstep
      by_cases hcall : event.call = some id
      · rw [(unchanged_of_step hstep hcall hstate (hlater next hstep)).1]
      · exact hother hcall next hstep
    refine ⟨hsame, ?_⟩
    rintro token rfl hverify hcurrent hfree
    refine exchangeable_of_current hverify ?_ hfree
    rwa [State.refreshJti, State.session, HashStore.hget, hsame]

/-- The user of a first login is not found, and the refresh is tried again. -/
theorem refused_changes_nothing_of_notFound :
    ∃ start final, run (step .default) State.initial
        (loginEvents 0 ⟨"u1", "alice", "phone"⟩ "a1" "r1") = some start ∧
      run (step .default) start (checkEvents 1 firstToken "lock-1" ++
        [.findOneById 1 .notFound, .release 1 .ok]) = some final ∧
      final.sessions (getUserKey "u1") = start.sessions (getUserKey "u1") ∧
      Exchangeable .default final firstToken := by
  obtain ⟨start, hstart, hfirst⟩ := Option.map_eq_some_iff.mp
    (show (run (step .default) State.initial
        (loginEvents 0 ⟨"u1", "alice", "phone"⟩ "a1" "r1")).map (fun state =>
          (state.calls 1, state.refreshJti "u1" "phone")) =
      some (none, some "r1") by decide)
  obtain ⟨middle, hmiddle⟩ := Option.isSome_iff_exists.mp
    (show (run (step .default) State.initial
        (loginEvents 0 ⟨"u1", "alice", "phone"⟩ "a1" "r1" ++
          checkEvents 1 firstToken "lock-1")).isSome by decide)
  obtain ⟨final, hfinal, hlast⟩ := Option.map_eq_some_iff.mp
    (show (run (step .default) State.initial
        ((loginEvents 0 ⟨"u1", "alice", "phone"⟩ "a1" "r1" ++
          checkEvents 1 firstToken "lock-1") ++
            [.findOneById 1 .notFound, .release 1 .ok])).map (fun state =>
          (((state.calls 1).bind Call.thrown).isSome,
            verifyRefresh state (.jwt firstToken),
            (state.locks (lockKey "u1" "phone")).isNone)) =
      some (true, some firstToken.payload, true) by decide)
  obtain ⟨hnone, hcurrent⟩ := Prod.mk.inj hfirst
  obtain ⟨hthrown, hverify, hfree⟩ : _ ∧ _ ∧ _ := by simpa using hlast
  rw [run_append, hmiddle, Option.bind_some] at hfinal
  rw [run_append, hstart, Option.bind_some] at hmiddle
  refine ⟨start, final, hstart,
    run_append_eq_some.mpr ⟨middle, hmiddle, hfinal⟩, ?_⟩
  have hcalls : ∀ event ∈ checkEvents 1 firstToken "lock-1" ++
      [.findOneById 1 .notFound, .release 1 .ok], event.call = some 1 := by
    simp [checkEvents, Event.call]
  obtain ⟨-, -, hkept⟩ := refused_changes_nothing hnone hmiddle
    (show Refuses 1 middle (.findOneById 1 .notFound) from ⟨rfl, .inl rfl⟩)
    hfinal (by simp [checkEvents, Succeeds, Event.reply])
    (guarded_of_forall (by simp [checkEvents, KeepsLock]))
    (by simp [Event.call]) (Option.isSome_iff_ne_none.mp hthrown)
  obtain ⟨hsessions, hretry⟩ := hkept "u1" (guarded_of_forall
    fun event hevent later hother => absurd (hcalls event hevent) hother)
  exact ⟨hsessions, hretry firstToken rfl hverify hcurrent hfree⟩

end OceanChat.Auth
