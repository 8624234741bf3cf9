import OceanChat.Auth.Sessions
import OceanChat.Core.Rotation

/-!
# A refresh token is exchanged at most once

Calls of `refreshToken` exclude each other through their lock, but logins and
logouts write the same field without it.  The service refines the rotation of
credentials: a refresh that has found its token stored claims it, and a pair
that has been signed is prepared.
-/

namespace OceanChat.Auth

open Relation Runs TtlStore

variable {config : Config} {state next : State} {event : Event}
variable {id : ℕ} {call : Call}

/-! ## The refresh lock -/

def State.lockOwner (state : State) (id : ℕ) : Option (String × String) :=
  (state.calls id).bind Call.lock

/-- No lock expires while its owner is still inside its call. -/
def KeepsLocks (state : State) : Event → Prop
  | .tick ms => ∀ id key lockValue,
      state.lockOwner id = some (key, lockValue) →
        (state.locks key).all fun entry => !entry.due (state.now + ms)
  | _ => True

def Locked (state : State) : Prop := Leases state.locks state.lockOwner

theorem Locked.initial : Locked State.initial := Leases.empty_owner

theorem lockOwner_setCall (state : State) (id : ℕ) (call : Call) :
    (state.setCall id call).lockOwner =
      Function.update state.lockOwner id call.lock :=
  bind_setCall Call.lock state id call

/-- A call moves on with the lock it has, or without one. -/
theorem Locked.of_setCall (hlocked : Locked state)
    (hkeep : call.lock = none ∨ state.lockOwner id = call.lock)
    (hlocks : next.locks = state.locks)
    (howner : next.lockOwner = state.lockOwner) :
    Locked (next.setCall id call) := by
  rw [Locked, lockOwner_setCall, howner]
  simp only [State.setCall, hlocks]
  apply Leases.mono hlocked
  intro other key lockValue hother
  by_cases hid : other = id
  · subst hid
    rw [Function.update_self] at hother
    rcases hkeep with hnone | hsame
    · simp [hnone] at hother
    · exact hsame.trans hother
  · rwa [Function.update_of_ne hid] at hother

/-- A refresh moves on inside its lock. -/
theorem Locked.of_inside (hlocked : Locked state) {payload : JwtPayload}
    {lockValue : String} {before after : RefreshPhase}
    (hcall : state.calls id = some (.refresh payload lockValue before))
    (hbefore : before.inside = true) (hafter : after.inside = true)
    (hlocks : next.locks = state.locks)
    (howner : next.lockOwner = state.lockOwner) :
    Locked (next.setCall id (.refresh payload lockValue after)) := by
  apply hlocked.of_setCall _ hlocks howner
  right
  simp [State.lockOwner, hcall, Call.lock, hbefore, hafter]

theorem afterHget_inside (payload : JwtPayload) (text : Option SessionText) :
    (afterHget payload text).inside = true := by
  rcases afterHget_cases payload text with ⟨storage, hphase, -⟩ | hphase |
    ⟨error, hphase⟩ <;> rw [hphase] <;> rfl

theorem afterLookup_inside (storage : TokenStorage) (answer : UserAnswer) :
    (afterLookup storage answer).inside = true := by
  cases answer <;> rfl

theorem Locked.of_setnx (hlocked : Locked state) (id : ℕ) (reply : Reply)
    (payload : JwtPayload) (lockValue : String) :
    Locked (State.setCall
      { state with locks := if reply.took then
          (setnx state.locks (lockKey payload.sub payload.deviceId)
            lockValue (some (state.now + lockTtl * 1000))).1
        else state.locks } id
      (.refresh payload lockValue (afterSetnx reply
        (setnx state.locks (lockKey payload.sub payload.deviceId)
          lockValue (some (state.now + lockTtl * 1000))).2))) := by
  cases hlock : state.locks (lockKey payload.sub payload.deviceId) with
  | some entry =>
      rw [setnx_of_some hlock, ite_self]
      apply hlocked.of_setCall _ rfl rfl
      cases reply <;> exact .inl rfl
  | none =>
      rw [setnx_of_none hlock]
      cases reply with
      | ok =>
          rw [Locked, lockOwner_setCall]
          exact Leases.acquire hlocked id lockValue _ hlock
      | failed => exact hlocked.of_setCall (.inl rfl) rfl rfl
      | lost =>
          have hput : Locked { state with
              locks := put state.locks (lockKey payload.sub payload.deviceId)
                lockValue (some (state.now + lockTtl * 1000)) } :=
            Leases.put_of_none hlocked lockValue _ hlock
          exact hput.of_setCall (.inl rfl) rfl rfl

theorem Locked.of_release (hlocked : Locked state) (reply : Reply)
    {payload : JwtPayload} {lockValue : String}
    {result : Except AppException TokenPair}
    (hcall : state.calls id =
      some (.refresh payload lockValue (.release result))) :
    Locked (State.setCall
      { state with
        locks := if reply.took then
            delIfEqual state.locks
              (lockKey payload.sub payload.deviceId) lockValue
          else state.locks } id
      (.refresh payload lockValue (.finished result))) := by
  have howner : state.lockOwner id =
      some (lockKey payload.sub payload.deviceId, lockValue) := by
    simp [State.lockOwner, hcall, Call.lock, RefreshPhase.inside]
  cases htook : reply.took with
  | false => exact hlocked.of_setCall (.inl rfl) rfl rfl
  | true =>
      rw [Locked, lockOwner_setCall]
      exact Leases.release hlocked howner

theorem Locked.of_tick (hlocked : Locked state) {ms : ℕ}
    (hkeep : KeepsLocks state (.tick ms)) :
    Leases (sweep state.locks (state.now + ms)) state.lockOwner := by
  apply Leases.of_preserved hlocked
  intro id key lockValue howner
  have hget := hlocked.held id key lockValue howner
  obtain ⟨entry, hentry, hvalue⟩ := Option.map_eq_some_iff.mp hget
  have hlive : entry.due (state.now + ms) = false := by
    simpa [hentry] using hkeep id key lockValue howner
  rw [TtlStore.get, sweep_of_live hentry hlive]
  exact congrArg some hvalue

theorem Locked.of_step (hlocked : Locked state) (hkeep : KeepsLocks state event)
    (hstep : step config state event = some next) : Locked next := by
  cases step_effect hstep with
  | setnx id reply payload lockValue hcall =>
      exact hlocked.of_setnx id reply payload lockValue
  | release id reply payload lockValue result hcall =>
      exact hlocked.of_release reply hcall
  | tick ms => exact hlocked.of_tick hkeep
  | read id reply payload lockValue hcall =>
      apply hlocked.of_inside hcall rfl _ rfl rfl
      split
      · exact afterHget_inside payload _
      · rfl
  | scan id payload lockValue hcall =>
      exact hlocked.of_inside hcall rfl rfl rfl rfl
  | scanFails id reply payload lockValue hreply hcall =>
      exact hlocked.of_inside hcall rfl rfl rfl rfl
  | revokeAll id reply payload lockValue hcall =>
      exact hlocked.of_inside hcall rfl rfl rfl rfl
  | lookup id answer payload lockValue storage hcall =>
      exact hlocked.of_inside hcall rfl (afterLookup_inside storage answer) rfl
        rfl
  | signFails id payload lockValue storage username hcall =>
      exact hlocked.of_inside hcall rfl rfl rfl rfl
  | sign id accessJti refreshJti payload lockValue storage username pair hfresh
      hpair hcall =>
      exact hlocked.of_inside hcall rfl rfl rfl rfl
  | store id jitter reply payload lockValue storage pair lastActive hcall =>
      exact hlocked.of_inside hcall rfl rfl rfl rfl
  | crash id call hcall hpending =>
      exact hlocked.of_setCall (.inl call.lock_crash) rfl rfl
  | _ => exact hlocked.of_setCall (.inl rfl) rfl rfl

/-! ## Refinement -/

def Call.prepared (call : Call) : Option ((String × String) × String) :=
  call.place.bind fun place =>
    call.unstored.map fun pair => (place, pair.refreshToken.payload.jti)

def Call.claimed (call : Call) : Option ((String × String) × String) :=
  call.exchanging.map fun payload =>
    ((payload.sub, payload.deviceId), payload.jti)

def Call.accepted (call : Call) : Option String :=
  call.exchanged.map JwtPayload.jti

/-- Where the refresh token with an identifier belongs. -/
def issuedFor (signed : List Token) (jti : String) : Option (String × String) :=
  (signed.find? fun token =>
    token.kind = .refresh && token.payload.jti == jti).map fun token =>
      (token.payload.sub, token.payload.deviceId)

/-- The refresh tokens of the service as rotating credentials: the tickets are
their identifiers. -/
def rotation (state : State) : Rotation.State ℕ (String × String) String where
  issued := issuedFor state.signed
  stored place := (state.session place.1 place.2).bind SessionText.refreshJti
  prepared id := (state.calls id).bind Call.prepared
  claimed id := (state.calls id).bind Call.claimed
  accepted id := (state.calls id).bind Call.accepted

theorem rotation_setCall (state : State) (id : ℕ) (call : Call) :
    rotation (state.setCall id call) =
      { rotation state with
        prepared := Function.update (rotation state).prepared id call.prepared
        claimed := Function.update (rotation state).claimed id call.claimed
        accepted := Function.update (rotation state).accepted id
          call.accepted } := by
  simp only [rotation, bind_setCall]
  rfl

theorem update_sub {Held : Type*} {held : ℕ → Option Held} {new : Option Held}
    (hnew : ∀ value, new = some value → held id = some value) (other : ℕ)
    (value : Held) (hother : Function.update held id new other = some value) :
    held other = some value := by
  by_cases hid : other = id
  · subst hid
    exact hnew value (by simpa using hother)
  · rwa [Function.update_of_ne hid] at hother

/-- Sessions may vanish, and a call may give up what it holds. -/
theorem shrinks_setCall (hsigned : next.signed = state.signed)
    (hcalls : next.calls = state.calls)
    (hsession : ∀ userId deviceId text,
      next.session userId deviceId = some text →
        state.session userId deviceId = some text)
    (hunstored : call.unstored = none)
    (hexchanging : call.exchanging = none ∨
      (state.calls id).bind Call.exchanging = call.exchanging)
    (hexchanged : call.exchanged = none ∨
      (state.calls id).bind Call.exchanged = call.exchanged) :
    Rotation.Shrinks (rotation state) (rotation (next.setCall id call)) := by
  rw [rotation_setCall]
  simp only [rotation, hsigned, hcalls]
  refine ⟨rfl, ?_, update_sub ?_, update_sub ?_, update_sub ?_⟩
  · intro place jti hstored
    obtain ⟨text, htext, hjti⟩ := Option.bind_eq_some_iff.mp hstored
    exact Option.bind_eq_some_iff.mpr ⟨text, hsession _ _ text htext, hjti⟩
  · simp [Call.prepared, hunstored]
  · intro pair hclaimed
    obtain ⟨payload, hpayload, rfl⟩ := Option.map_eq_some_iff.mp hclaimed
    rw [hpayload] at hexchanging
    obtain ⟨old, hold, hsame⟩ := Option.bind_eq_some_iff.mp
      (hexchanging.resolve_left (by simp))
    simp [hold, Call.claimed, hsame]
  · intro jti haccepted
    obtain ⟨payload, hpayload, rfl⟩ := Option.map_eq_some_iff.mp haccepted
    rw [hpayload] at hexchanged
    obtain ⟨old, hold, hsame⟩ := Option.bind_eq_some_iff.mp
      (hexchanged.resolve_left (by simp))
    simp [hold, Call.accepted, hsame]

/-- A call goes on with the sessions and the tokens as they are. -/
theorem moves_of_quiet (hsigned : next.signed = state.signed)
    (hcalls : next.calls = state.calls)
    (hsessions : next.sessions = state.sessions)
    (hunstored : call.unstored = none)
    (hexchanging : call.exchanging = none ∨
      (state.calls id).bind Call.exchanging = call.exchanging)
    (hexchanged : call.exchanged = none ∨
      (state.calls id).bind Call.exchanged = call.exchanged) :
    ReflTransGen Rotation.Move (rotation state)
      (rotation (next.setCall id call)) := by
  apply ReflTransGen.single
  apply Rotation.Move.shrink
  apply shrinks_setCall hsigned hcalls _ hunstored hexchanging hexchanged
  intro userId deviceId text htext
  rwa [State.session, hsessions] at htext

theorem shrinks_tick (state : State) (ms : ℕ) :
    Rotation.Shrinks (rotation state) (rotation { state with
      now := state.now + ms
      sessions := HashStore.sweep state.sessions (state.now + ms)
      locks := TtlStore.sweep state.locks (state.now + ms) }) := by
  refine ⟨rfl, ?_, fun _ _ h => h, fun _ _ h => h, fun _ _ h => h⟩
  intro place jti hstored
  obtain ⟨text, htext, hjti⟩ := Option.bind_eq_some_iff.mp hstored
  exact Option.bind_eq_some_iff.mpr ⟨text, HashStore.hget_sweep htext, hjti⟩

theorem update_held {Held : Type*} (held : Call → Option Held) {old : Call}
    (hcall : state.calls id = some old) (hsame : held call = held old) :
    Function.update (fun other => (state.calls other).bind held) id
        (held call) = fun other => (state.calls other).bind held := by
  rw [Function.update_eq_self_iff, hcall, hsame]
  rfl

/-! ### Claims -/

theorem lockOwner_of_claimed {place : String × String} {jti : String}
    (hclaimed : (rotation state).claimed id = some (place, jti)) :
    ∃ lockValue, state.lockOwner id =
      some (lockKey place.1 place.2, lockValue) := by
  obtain ⟨call, hcall, hpair⟩ := Option.bind_eq_some_iff.mp hclaimed
  obtain ⟨payload, hpayload, heq⟩ := Option.map_eq_some_iff.mp hpair
  obtain ⟨rfl, rfl⟩ := Prod.mk.inj heq
  rw [State.lockOwner, hcall]
  cases call with
  | refresh payload' lockValue phase =>
      refine ⟨lockValue, ?_⟩
      cases phase <;> simp_all [Call.exchanging, Call.lock, RefreshPhase.inside]
  | _ => simp [Call.exchanging] at hpayload

theorem moves_of_read (hlocked : Locked state) (reply : Reply)
    {payload : JwtPayload} {lockValue : String}
    (hcall : state.calls id = some (.refresh payload lockValue .read)) :
    ReflTransGen Rotation.Move (rotation state)
      (rotation (state.setCall id (.refresh payload lockValue
        (if reply = .ok then
          afterHget payload (state.session payload.sub payload.deviceId)
        else .release (.error (rethrow .other)))))) := by
  by_cases hreply : reply = .ok
  · rw [if_pos hreply]
    rcases afterHget_cases payload (state.session payload.sub payload.deviceId)
      with ⟨storage, hphase, hparse, hjti⟩ | hphase | ⟨error, hphase⟩
    · rw [hphase]
      have hstored : (rotation state).stored (payload.sub, payload.deviceId) =
          some payload.jti := by
        obtain ⟨text, htext, hparse⟩ := Option.bind_eq_some_iff.mp hparse
        simp [rotation, htext, SessionText.refreshJti, hparse, hjti]
      have hfree : ∀ other jti, (rotation state).claimed other ≠
          some ((payload.sub, payload.deviceId), jti) := by
        intro other jti hclaimed
        obtain ⟨lockValue', howner⟩ := lockOwner_of_claimed hclaimed
        have hmine : state.lockOwner id =
            some (lockKey payload.sub payload.deviceId, lockValue) := by
          simp [State.lockOwner, hcall, Call.lock, RefreshPhase.inside]
        obtain rfl := hlocked.exclusive howner hmine
        simp [rotation, hcall, Call.claimed, Call.exchanging] at hclaimed
      have hmove : Rotation.Move (rotation state) _ :=
        .claim id (payload.sub, payload.deviceId) payload.jti hstored hfree
      have hprepared : Call.prepared (.refresh payload lockValue
          (.lookup storage)) =
            Call.prepared (.refresh payload lockValue .read) := rfl
      have haccepted : Call.accepted (.refresh payload lockValue
          (.lookup storage)) =
            Call.accepted (.refresh payload lockValue .read) := rfl
      refine .single ?_
      convert hmove using 1
      rw [rotation_setCall]
      simp only [Rotation.State.claim, rotation]
      rw [update_held Call.prepared hcall hprepared,
        update_held Call.accepted hcall haccepted]
      rfl
    · rw [hphase]
      exact moves_of_quiet rfl rfl rfl rfl (.inl rfl) (.inl rfl)
    · rw [hphase]
      exact moves_of_quiet rfl rfl rfl rfl (.inl rfl) (.inl rfl)
  · rw [if_neg hreply]
    exact moves_of_quiet rfl rfl rfl rfl (.inl rfl) (.inl rfl)

/-! ### Signing -/

theorem issuedFor_of_fresh {signed : List Token} {accessJti refreshJti : String}
    (hfresh : freshJtis signed accessJti refreshJti = true) :
    issuedFor signed refreshJti = none := by
  simp only [freshJtis, Bool.and_eq_true, List.all_eq_true, bne_iff_ne] at hfresh
  simp only [issuedFor, Option.map_eq_none_iff, List.find?_eq_none]
  intro token htoken
  simp [(hfresh.2 token htoken).2]

theorem issuedFor_signTokens (config : Config) (now : ℕ) (user : User)
    (accessJti refreshJti : String) (signed : List Token) :
    issuedFor ((signTokens config now user accessJti refreshJti).accessToken ::
        (signTokens config now user accessJti refreshJti).refreshToken ::
          signed) =
      Function.update (issuedFor signed) refreshJti
        (some (user.userId, user.deviceId)) := by
  funext jti
  by_cases hjti : jti = refreshJti
  · subst hjti
    simp [issuedFor, signTokens]
  · have hskip : (refreshJti == jti) = false := by simp [Ne.symm hjti]
    simp [issuedFor, signTokens, hjti, hskip]

/-- Signing a pair prepares its refresh token. -/
theorem prepare_of_sign {old : Call} {user : User}
    {accessJti refreshJti : String}
    (hfresh : freshJtis state.signed accessJti refreshJti = true)
    (hcall : state.calls id = some old)
    (hplace : call.place = some (user.userId, user.deviceId))
    (hunstored : call.unstored =
      some (signTokens config state.now user accessJti refreshJti))
    (hexchanging : call.exchanging = old.exchanging)
    (hexchanged : call.exchanged = old.exchanged) :
    Rotation.Move (rotation state) (rotation (State.setCall
      { state with signed :=
          (signTokens config state.now user accessJti refreshJti).accessToken ::
            (signTokens config state.now user accessJti
              refreshJti).refreshToken :: state.signed } id call)) := by
  have hprepared : call.prepared =
      some ((user.userId, user.deviceId), refreshJti) := by
    simp [Call.prepared, hplace, hunstored, signTokens]
  have hclaimed : call.claimed = old.claimed := by
    rw [Call.claimed, Call.claimed, hexchanging]
  have haccepted : call.accepted = old.accepted := by
    rw [Call.accepted, Call.accepted, hexchanged]
  have hmove : Rotation.Move (rotation state) _ :=
    .prepare id (user.userId, user.deviceId) refreshJti
      (issuedFor_of_fresh hfresh)
  convert hmove using 1
  rw [rotation_setCall]
  simp only [Rotation.State.prepare, rotation, issuedFor_signTokens, hprepared]
  rw [update_held Call.claimed hcall hclaimed,
    update_held Call.accepted hcall haccepted]
  rfl

/-! ### Storing -/

theorem stored_storeSession (sessions : Sessions) (now jitter : ℕ)
    (userId deviceId : String) (storage : TokenStorage) :
    (fun place : String × String =>
      (HashStore.hget
        (storeSession config sessions now jitter userId deviceId storage)
        (getUserKey place.1) place.2).bind SessionText.refreshJti) =
      Function.update (fun place : String × String =>
        (HashStore.hget sessions (getUserKey place.1) place.2).bind
          SessionText.refreshJti) (userId, deviceId) storage.refreshJti := by
  funext place
  by_cases hplace : place = (userId, deviceId)
  · subst hplace
    simp
  · have hne : ¬ (place.1 = userId ∧ place.2 = deviceId) := fun heq =>
      hplace (Prod.ext heq.1 heq.2)
    rw [hget_storeSession_of_ne hne, Function.update_of_ne hplace]

/-- The transaction replaces what is stored, and a refresh whose transaction
succeeds has exchanged the token it claimed. -/
theorem moves_of_store (place : String × String) (pair : TokenPair)
    (lastActive jitter : ℕ) (reply : Reply) (published : List Message)
    {old : Call} (hinv : Rotation.Inv (rotation state))
    (hcall : state.calls id = some old) (hplace : old.place = some place)
    (hpair : old.unstored = some pair) (hunstored : call.unstored = none)
    (hexchanging : call.exchanging = none)
    (hexchanged : call.exchanged = none ∨
      reply = .ok ∧ call.exchanged = old.exchanging) :
    ReflTransGen Rotation.Move (rotation state) (rotation (State.setCall
      { state with
        sessions := if reply.took then
            storeSession config state.sessions state.now jitter place.1 place.2
              (tokenStorage pair lastActive)
          else state.sessions
        published := published } id call)) := by
  have hprepared : (rotation state).prepared id =
      some (place, pair.refreshToken.payload.jti) := by
    simp [rotation, hcall, Call.prepared, hplace, hpair]
  cases htook : reply.took with
  | false =>
      have hfailed : call.exchanged = none := by
        rcases hexchanged with hnone | ⟨rfl, -⟩
        · exact hnone
        · cases htook
      exact .single (.shrink (shrinks_setCall rfl rfl (fun _ _ _ h => h)
        hunstored (.inl hexchanging) (.inl hfailed)))
  | true =>
      have hmiddle : ReflTransGen Rotation.Move (rotation state) _ :=
        .single (.install id place pair.refreshToken.payload.jti hprepared)
      have hnext : rotation (State.setCall
          { state with
            sessions := storeSession config state.sessions state.now jitter
              place.1 place.2 (tokenStorage pair lastActive)
            published := published } id call) =
          { (rotation state).install id place pair.refreshToken.payload.jti with
            claimed := Function.update (rotation state).claimed id none
            accepted := Function.update (rotation state).accepted id
              call.accepted } := by
        rw [rotation_setCall]
        have hnothing : call.prepared = none := by
          simp [Call.prepared, hunstored]
        have hunclaimed : call.claimed = none := by
          simp [Call.claimed, hexchanging]
        simp only [rotation, State.session, Rotation.State.install,
          stored_storeSession, hnothing, hunclaimed]
        rfl
      simp only [if_true, hnext]
      cases hdone : call.exchanged with
      | none =>
          refine hmiddle.tail (.shrink ⟨rfl, fun _ _ h => h, fun _ _ h => h,
            update_sub (by simp), update_sub ?_⟩)
          simp [Call.accepted, hdone]
      | some payload =>
          have hold : old.exchanging = some payload := by
            rcases hexchanged with hnone | ⟨-, hsame⟩
            · exact absurd (hdone.symm.trans hnone) (by simp)
            · exact hsame.symm.trans hdone
          obtain rfl : place = (payload.sub, payload.deviceId) :=
            Option.some.inj (hplace.symm.trans (place_of_exchanging hold))
          have hclaimed : (rotation state).claimed id =
              some ((payload.sub, payload.deviceId), payload.jti) := by
            simp [rotation, hcall, Call.claimed, hold]
          have hgone : ((rotation state).install id
              (payload.sub, payload.deviceId)
              pair.refreshToken.payload.jti).stored
                (payload.sub, payload.deviceId) ≠ some payload.jti := by
            have hapart := hinv.prepared_not_claimed id id _
              (payload.sub, payload.deviceId) _ hprepared
            rintro hsame
            simp only [Rotation.State.install, Function.update_self,
              Option.some.injEq] at hsame
            exact hapart (hsame ▸ hclaimed)
          have haccept : Rotation.Move ((rotation state).install id
              (payload.sub, payload.deviceId) pair.refreshToken.payload.jti) _ :=
            .accept id (payload.sub, payload.deviceId) payload.jti hclaimed hgone
          refine hmiddle.tail ?_
          convert haccept using 1
          simp [Rotation.State.accept, Rotation.State.install, Call.accepted,
            hdone]

/-- Every event moves the credentials. -/
theorem moves_of_step (hlocked : Locked state)
    (hinv : Rotation.Inv (rotation state))
    (hstep : step config state event = some next) :
    ReflTransGen Rotation.Move (rotation state) (rotation next) := by
  cases step_effect hstep with
  | setnx id reply payload lockValue hcall =>
      rcases afterSetnx_cases reply (setnx state.locks
        (lockKey payload.sub payload.deviceId) lockValue
        (some (state.now + lockTtl * 1000))).2 with hphase | ⟨error, hphase⟩ <;>
      · rw [hphase]
        exact moves_of_quiet rfl rfl rfl rfl (.inl rfl) (.inl rfl)
  | read id reply payload lockValue hcall =>
      exact moves_of_read hlocked reply hcall
  | revokeAll id reply payload lockValue hcall =>
      refine .single (.shrink (shrinks_setCall rfl rfl ?_ rfl (.inl rfl)
        (.inl rfl)))
      intro userId deviceId text htext
      exact hget_of_took hget_of_del htext
  | lookup id answer payload lockValue storage hcall =>
      rcases afterLookup_cases storage answer with ⟨username, hphase⟩ |
        ⟨error, hphase⟩
      · rw [hphase]
        refine moves_of_quiet rfl rfl rfl rfl (.inr ?_) (.inl rfl)
        simp [Call.exchanging, hcall]
      · rw [hphase]
        exact moves_of_quiet rfl rfl rfl rfl (.inl rfl) (.inl rfl)
  | signLogin id accessJti refreshJti user pair hfresh hpair hcall =>
      subst hpair
      exact .single (prepare_of_sign hfresh hcall rfl rfl rfl rfl)
  | sign id accessJti refreshJti payload lockValue storage username pair hfresh
      hpair hcall =>
      subst hpair
      exact .single (prepare_of_sign hfresh hcall rfl rfl rfl rfl)
  | storeLogin id jitter reply user pair lastActive hcall =>
      exact moves_of_store (user.userId, user.deviceId) pair lastActive jitter
        reply _ hinv hcall rfl rfl rfl rfl (.inl rfl)
  | store id jitter reply payload lockValue storage pair lastActive hcall =>
      refine moves_of_store (payload.sub, payload.deviceId) pair lastActive
        jitter reply _ hinv hcall rfl rfl rfl rfl ?_
      by_cases hreply : reply = .ok
      · exact .inr ⟨hreply, by simp [hreply, Call.exchanged, Call.exchanging]⟩
      · exact .inl (by simp [hreply, Call.exchanged])
  | release id reply payload lockValue result hcall =>
      refine moves_of_quiet rfl rfl rfl rfl (.inl rfl) (.inr ?_)
      cases result <;> simp [Call.exchanged, hcall]
  | hdel id reply userId deviceId hcall =>
      refine .single (.shrink (shrinks_setCall rfl rfl ?_ rfl (.inl rfl)
        (.inl rfl)))
      intro userId' deviceId' text htext
      exact hget_of_took hget_of_hdel htext
  | crash id call hcall hpending =>
      exact moves_of_quiet rfl rfl rfl call.unstored_crash
        (.inl call.exchanging_crash) (.inl call.exchanged_crash)
  | tick ms => exact .single (.shrink (shrinks_tick state ms))
  | _ =>
      exact moves_of_quiet rfl rfl rfl rfl (.inl rfl) (.inl rfl)

/-! ## Runs -/

/-- What holds at the end of a run that keeps the locks of its owners. -/
structure Rotates (state : State) : Prop where
  locked : Locked state
  valid : Rotation.Inv (rotation state)

theorem Rotates.initial : Rotates State.initial :=
  ⟨Locked.initial, Rotation.Inv.initial⟩

theorem Rotates.of_run {events : List Event} {final : State}
    (hrotates : Rotates state)
    (hlocks : Guarded (step config) KeepsLocks state events)
    (hrun : run (step config) state events = some final) :
    Rotates final ∧
      ReflTransGen Rotation.Move (rotation state) (rotation final) := by
  apply run_invariant_of_guarded
    (fun later => Rotates later ∧
      ReflTransGen Rotation.Move (rotation state)
        (rotation later))
    _ ⟨hrotates, .refl⟩ hlocks hrun
  rintro middle event next ⟨hmiddle, hmoves⟩ hkeep hstep
  have hlater := moves_of_step hmiddle.locked hmiddle.valid hstep
  exact ⟨⟨hmiddle.locked.of_step hkeep hstep,
    hmiddle.valid.of_moves hlater⟩, hmoves.trans hlater⟩

/-- The call has exchanged the refresh token with this payload. -/
def State.Exchanged (state : State) (id : ℕ) (payload : JwtPayload) : Prop :=
  (state.calls id).bind Call.exchanged = some payload

/-- The identifier of the refresh token that is current for a device. -/
def State.refreshJti (state : State) (userId deviceId : String) :
    Option String :=
  (state.session userId deviceId).bind SessionText.refreshJti

theorem State.Exchanged.accepted {payload : JwtPayload}
    (hexchanged : state.Exchanged id payload) :
    (rotation state).accepted id = some payload.jti := by
  obtain ⟨call, hcall, hpayload⟩ := Option.bind_eq_some_iff.mp hexchanged
  simp [rotation, hcall, Call.accepted, hpayload]

/-- Once a call has exchanged a refresh token, no other call ever does, and the
token is never current again. -/
theorem exchanged_once {before after : List Event} {middle final : State}
    (hlocks : Guarded (step config) KeepsLocks State.initial (before ++ after))
    (hbefore : run (step config) State.initial before = some middle)
    (hafter : run (step config) middle after = some final)
    {payload : JwtPayload} (hexchanged : middle.Exchanged id payload) :
    (∀ other, final.Exchanged other payload → other = id) ∧
      ∀ userId deviceId,
        final.refreshJti userId deviceId ≠ some payload.jti := by
  obtain ⟨hlocksBefore, hlocksAfter⟩ := guarded_append.mp hlocks
  obtain ⟨hmiddle, -⟩ := Rotates.initial.of_run hlocksBefore hbefore
  obtain ⟨-, hmoves⟩ := hmiddle.of_run (hlocksAfter middle hbefore) hafter
  have hretired := hmiddle.valid.accepted_retired id payload.jti
    hexchanged.accepted
  constructor
  · intro other hother
    have hearlier := hretired.accepted_of_moves hmoves hother.accepted
    exact hmiddle.valid.accepted_once other id payload.jti hearlier
      hexchanged.accepted
  · intro userId deviceId
    exact (hretired.of_moves hmoves).not_stored (userId, deviceId)

def Event.isTick : Event → Bool
  | .tick _ => true
  | _ => false

theorem keepsLocks_of_not_tick {events : List Event}
    (htick : ∀ event ∈ events, event.isTick = false) :
    Guarded (step config) KeepsLocks state events := by
  apply guarded_of_forall
  intro event hevent middle
  cases event with
  | tick ms => exact absurd (htick _ hevent) (by simp [Event.isTick])
  | _ => trivial

/-- The token is exchanged and then replayed. -/
theorem exchanged_once_of_replay :
    ∃ middle final, run (step .default) State.initial
        (loginEvents 0 ⟨"u1", "alice", "phone"⟩ "a1" "r1" ++
          checkEvents 1 firstToken "lock-1" ++
          rotateEvents 1 "alice" "a2" "r2") = some middle ∧
      run (step .default) middle
        (checkEvents 2 firstToken "lock-2" ++ revokeEvents 2) = some final ∧
      middle.Exchanged 1 firstToken.payload ∧
      (∀ other, final.Exchanged other firstToken.payload → other = 1) ∧
      ∀ userId deviceId, final.refreshJti userId deviceId ≠ some "r1" := by
  obtain ⟨middle, hbefore, hexchanged⟩ := Option.map_eq_some_iff.mp
    (show (run (step .default) State.initial
        (loginEvents 0 ⟨"u1", "alice", "phone"⟩ "a1" "r1" ++
          checkEvents 1 firstToken "lock-1" ++
          rotateEvents 1 "alice" "a2" "r2")).map (fun state =>
            (state.calls 1).bind Call.exchanged) =
      some (some firstToken.payload) by decide)
  have henabled : (run (step .default) State.initial
      ((loginEvents 0 ⟨"u1", "alice", "phone"⟩ "a1" "r1" ++
          checkEvents 1 firstToken "lock-1" ++
          rotateEvents 1 "alice" "a2" "r2") ++
        (checkEvents 2 firstToken "lock-2" ++ revokeEvents 2))).isSome := by
    decide
  rw [run_append, hbefore, Option.bind_some] at henabled
  obtain ⟨final, hafter⟩ := Option.isSome_iff_exists.mp henabled
  exact ⟨middle, final, hbefore, hafter, hexchanged,
    exchanged_once (keepsLocks_of_not_tick (by decide)) hbefore hafter
      hexchanged⟩

end OceanChat.Auth
