import OceanChat.Auth.Sessions

/-!
# Sessions outlive their refresh tokens

Every login and every refresh sets the deadline of the whole hash anew, with a
jitter of its own.  The deadline may come closer, but never so close that the
hash expires before a refresh token in it.
-/

namespace OceanChat.Auth

open Runs

variable {config : Config} {state next final : State} {event : Event}
variable {id : ℕ} {call : Call} {userId deviceId : String}

/-- `refreshToken` of the parsed session. -/
def SessionText.refreshToken (text : SessionText) : Option TokenText :=
  text.parse.join.bind TokenStorage.refreshToken

/-- The end of a refresh token's life in milliseconds. -/
def refreshBound (text : SessionText) : ℤ :=
  match text.refreshToken with
  | some (.jwt token) => token.payload.exp * 1000
  | _ => 0

/-- A refresh token signed now lives at least as long as this one. -/
def Signed (config : Config) (now : ℕ) (pair : TokenPair) : Prop :=
  pair.refreshToken.payload.exp ≤ (now / 1000 + config.refreshExpiresIn : ℕ)

theorem Signed.mono {now later : ℕ} {pair : TokenPair} (hle : now ≤ later)
    (hsigned : Signed config now pair) : Signed config later pair := by
  unfold Signed at hsigned ⊢
  omega

theorem signed_signTokens (now : ℕ) (user : User) (accessJti refreshJti : String) :
    Signed config now (signTokens config now user accessJti refreshJti) :=
  le_refl _

/-- What holds of the sessions between any two steps. -/
structure Lasting (config : Config) (state : State) : Prop where
  stored : ∀ userId deviceId text, state.session userId deviceId = some text →
    ∃ pair lastActive, text = .object (tokenStorage pair lastActive) ∧
      Signed config state.now pair
  unstored : ∀ id pair, (state.calls id).bind Call.unstored = some pair →
    Signed config state.now pair
  outlives : HashStore.Outlives refreshBound state.sessions

namespace Lasting

theorem initial : Lasting config State.initial where
  stored userId deviceId text htext := by
    simp [State.session, State.initial, HashStore.hget, HashStore.empty] at htext
  unstored id pair hpair := by
    simp [State.initial] at hpair
  outlives := HashStore.Outlives.empty

/-- A call moves on while no session is written. -/
theorem move (hlasting : Lasting config state) (hnow : next.now = state.now)
    (hcalls : next.calls = state.calls)
    (hsub : ∀ userId deviceId text, next.session userId deviceId = some text →
      state.session userId deviceId = some text)
    (houtlives : HashStore.Outlives refreshBound next.sessions)
    (hunstored : ∀ pair, call.unstored = some pair →
      Signed config state.now pair) :
    Lasting config (next.setCall id call) where
  stored userId deviceId text htext := by
    obtain ⟨pair, lastActive, hobject, hsigned⟩ :=
      hlasting.stored userId deviceId text (hsub userId deviceId text htext)
    exact ⟨pair, lastActive, hobject, hnow ▸ hsigned⟩
  unstored other pair hpair := by
    simp only [State.setCall, hnow, hcalls] at hpair ⊢
    by_cases hid : other = id
    · subst hid
      exact hunstored pair (by simpa using hpair)
    · exact hlasting.unstored other pair (by simpa [hid] using hpair)
  outlives := houtlives

/-- A call moves on and leaves the sessions as they are. -/
theorem quiet (hlasting : Lasting config state) (hnow : next.now = state.now)
    (hcalls : next.calls = state.calls) (hsessions : next.sessions = state.sessions)
    (hunstored : ∀ pair, call.unstored = some pair →
      Signed config state.now pair) :
    Lasting config (next.setCall id call) := by
  refine hlasting.move hnow hcalls (fun userId deviceId text htext => ?_) ?_ hunstored
  · rwa [State.session, hsessions] at htext
  · rw [hsessions]
    exact hlasting.outlives

/-- The deadline that a call sets is late enough for every session in the hash,
whatever the jitter. -/
theorem outlives_storeSession (hlasting : Lasting config state) {pair : TokenPair}
    (hsigned : Signed config state.now pair) (lastActive jitter : ℕ) :
    HashStore.Outlives refreshBound (storeSession config state.sessions state.now
      jitter userId deviceId (tokenStorage pair lastActive)) := by
  have hbound : ∀ {pair : TokenPair} {lastActive : ℕ},
      Signed config state.now pair →
        refreshBound (.object (tokenStorage pair lastActive)) ≤
          (state.now + (config.refreshExpiresIn + jitter) * 1000 : ℕ) := by
    intro pair lastActive hsigned
    have hexp : pair.refreshToken.payload.exp * 1000 ≤
        (state.now + (config.refreshExpiresIn + jitter) * 1000 : ℕ) := by
      unfold Signed at hsigned
      omega
    exact hexp
  apply hlasting.outlives.hset_expire
  · exact hbound hsigned
  · intro deviceId' text htext
    obtain ⟨pair', lastActive', rfl, hsigned'⟩ :=
      hlasting.stored userId deviceId' text htext
    exact hbound hsigned'

/-- A call stores its pair, whether or not it is told so. -/
theorem store (hlasting : Lasting config state) {pair : TokenPair}
    {lastActive jitter : ℕ} {reply : Reply}
    (hsigned : Signed config state.now pair) (hnow : next.now = state.now)
    (hcalls : next.calls = state.calls)
    (hsessions : next.sessions = if reply.took then
        storeSession config state.sessions state.now jitter userId deviceId
          (tokenStorage pair lastActive)
      else state.sessions)
    (hunstored : call.unstored = none) :
    Lasting config (next.setCall id call) := by
  have hnone : ∀ pair, call.unstored = some pair → Signed config state.now pair := by
    simp [hunstored]
  cases htook : reply.took with
  | false =>
      rw [htook] at hsessions
      exact hlasting.quiet hnow hcalls hsessions hnone
  | true =>
      rw [htook, if_pos rfl] at hsessions
      refine ⟨fun userId' deviceId' text htext => ?_, fun other pair' hpair => ?_, ?_⟩
      · simp only [State.session, State.setCall, hsessions] at htext
        by_cases hplace : userId' = userId ∧ deviceId' = deviceId
        · obtain ⟨rfl, rfl⟩ := hplace
          rw [hget_storeSession_same] at htext
          exact ⟨pair, lastActive, (Option.some.inj htext).symm, hnow.symm ▸ hsigned⟩
        · rw [hget_storeSession_of_ne hplace] at htext
          obtain ⟨pair', lastActive', hobject, hsigned'⟩ :=
            hlasting.stored userId' deviceId' text htext
          exact ⟨pair', lastActive', hobject, hnow.symm ▸ hsigned'⟩
      · simp only [State.setCall, hnow, hcalls] at hpair ⊢
        by_cases hid : other = id
        · subst hid
          exact hnone pair' (by simpa using hpair)
        · exact hlasting.unstored other pair' (by simpa [hid] using hpair)
      · simp only [State.setCall, hsessions]
        exact hlasting.outlives_storeSession hsigned lastActive jitter

theorem tick (hlasting : Lasting config state) (ms : ℕ) :
    Lasting config { state with
      now := state.now + ms
      sessions := HashStore.sweep state.sessions (state.now + ms)
      locks := TtlStore.sweep state.locks (state.now + ms) } where
  stored userId deviceId text htext := by
    obtain ⟨pair, lastActive, hobject, hsigned⟩ :=
      hlasting.stored userId deviceId text (HashStore.hget_sweep htext)
    exact ⟨pair, lastActive, hobject, hsigned.mono (Nat.le_add_right _ _)⟩
  unstored id pair hpair :=
    (hlasting.unstored id pair hpair).mono (Nat.le_add_right _ _)
  outlives := hlasting.outlives.sweep _

theorem signed_of_call (hlasting : Lasting config state) {pair : TokenPair}
    (hcall : state.calls id = some call) (hpair : call.unstored = some pair) :
    Signed config state.now pair :=
  hlasting.unstored id pair (by simp [hcall, hpair])

theorem of_step (hlasting : Lasting config state)
    (hstep : step config state event = some next) : Lasting config next := by
  cases step_effect hstep with
  | revokeAll id reply payload lockValue hcall =>
      refine hlasting.move rfl rfl (fun userId deviceId text htext => ?_) ?_ (by
        simp [Call.unstored])
      · exact hget_of_took hget_of_del htext
      · simp only
        split
        · exact hlasting.outlives.del _
        · exact hlasting.outlives
  | hdel id reply userId deviceId hcall =>
      refine hlasting.move rfl rfl (fun userId deviceId text htext => ?_) ?_ (by
        simp [Call.unstored])
      · exact hget_of_took hget_of_hdel htext
      · simp only
        split
        · exact hlasting.outlives.hdel _ _
        · exact hlasting.outlives
  | signLogin id accessJti refreshJti user pair hfresh hpair hcall =>
      refine hlasting.quiet rfl rfl rfl fun pair' hpair' => ?_
      obtain rfl : pair = pair' := Option.some.inj hpair'
      exact hpair ▸ signed_signTokens state.now user accessJti refreshJti
  | sign id accessJti refreshJti payload lockValue storage username pair hfresh hpair
      hcall =>
      refine hlasting.quiet rfl rfl rfl fun pair' hpair' => ?_
      obtain rfl : pair = pair' := Option.some.inj hpair'
      exact hpair ▸ signed_signTokens state.now _ accessJti refreshJti
  | storeLogin id jitter reply user pair lastActive hcall =>
      exact hlasting.store (hlasting.signed_of_call hcall rfl) rfl rfl rfl rfl
  | store id jitter reply payload lockValue storage pair lastActive hcall =>
      exact hlasting.store (hlasting.signed_of_call hcall rfl) rfl rfl rfl rfl
  | tick ms => exact hlasting.tick ms
  | crash id call hcall hpending =>
      exact hlasting.quiet rfl rfl rfl (by simp [Call.unstored_crash])
  | setnx id reply payload lockValue hcall =>
      refine hlasting.quiet rfl rfl rfl fun pair hpair => ?_
      rcases afterSetnx_cases reply (TtlStore.setnx state.locks
        (lockKey payload.sub payload.deviceId) lockValue
        (some (state.now + lockTtl * 1000))).2 with hphase | ⟨error, hphase⟩ <;>
      simp [hphase, Call.unstored] at hpair
  | read id reply payload lockValue hcall =>
      refine hlasting.quiet rfl rfl rfl fun pair hpair => ?_
      split at hpair
      · rcases afterHget_cases payload
          (state.session payload.sub payload.deviceId) with
          ⟨storage, hphase, -⟩ | hphase | ⟨error, hphase⟩ <;>
        simp [hphase, Call.unstored] at hpair
      · simp [Call.unstored] at hpair
  | lookup id answer payload lockValue storage hcall =>
      refine hlasting.quiet rfl rfl rfl fun pair hpair => ?_
      rcases afterLookup_cases storage answer with
        ⟨username, hphase⟩ | ⟨error, hphase⟩ <;>
      simp [hphase, Call.unstored] at hpair
  | _ => exact hlasting.quiet rfl rfl rfl (by simp [Call.unstored])

theorem of_run {events : List Event}
    (hrun : run (step config) State.initial events = some final) :
    Lasting config final :=
  run_invariant (Lasting config)
    (fun _ _ _ hlasting hstep => hlasting.of_step hstep) initial hrun

end Lasting

/-- At every moment the hash of a user lives at least as long as every refresh
token that is stored in it. -/
theorem sessions_outlive_refreshTokens {events : List Event}
    (hrun : run (step config) State.initial events = some final)
    {text : SessionText} {token : Token}
    (hsession : final.session userId deviceId = some text)
    (htoken : text.refreshToken = some (.jwt token)) :
    ∃ expiresAt : ℕ, HashStore.deadline final.sessions (getUserKey userId) =
        some expiresAt ∧
      token.payload.exp * 1000 ≤ expiresAt := by
  obtain ⟨expiresAt, hdeadline, hle⟩ :=
    (Lasting.of_run hrun).outlives (getUserKey userId) deviceId text hsession
  refine ⟨expiresAt, hdeadline, ?_⟩
  simpa only [refreshBound, htoken] using hle

/-- A login with the largest jitter, and one on another device without any. -/
def twoDevices : List Event :=
  [.login 0 ⟨"u1", "alice", "phone"⟩, .sign 0 (some ("a1", "r1")),
    .exec 0 60480 .ok, .tick 1500, .login 1 ⟨"u1", "alice", "tablet"⟩,
    .sign 1 (some ("a2", "r2")), .exec 1 0 .ok]

theorem sessions_outlive_refreshTokens_of_twoDevices :
    ∃ final, run (step .default) State.initial twoDevices = some final ∧
      ∃ expiresAt : ℕ, HashStore.deadline final.sessions (getUserKey "u1") =
          some expiresAt ∧
        firstToken.payload.exp * 1000 ≤ expiresAt := by
  obtain ⟨final, hrun, htoken⟩ := Option.map_eq_some_iff.mp
    (show (run (step .default) State.initial twoDevices).map (fun state =>
        (state.session "u1" "phone").bind SessionText.refreshToken) =
      some (some (.jwt firstToken)) by decide)
  obtain ⟨text, hsession, hrefresh⟩ := Option.bind_eq_some_iff.mp htoken
  exact ⟨final, hrun, sessions_outlive_refreshTokens hrun hsession hrefresh⟩

end OceanChat.Auth
