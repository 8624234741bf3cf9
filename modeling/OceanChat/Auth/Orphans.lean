import OceanChat.Auth.Sessions

/-!
# Orphan access tokens

When calls run one after another, every access token that has not expired is
the one in the session of its device or has been revoked, exactly as long as no
login replaces a session whose access token is still live.
-/

namespace OceanChat.Auth

open Runs

variable {config : Config} {state next : State} {event : Event}
variable {id : ℕ} {call : Call} {userId deviceId : String}

/-- The pair that a call returns. -/
def Call.returned : Call → Option TokenPair
  | .login _ (.finished (.ok pair)) => some pair
  | .refresh _ _ (.release (.ok pair)) => some pair
  | .refresh _ _ (.finished (.ok pair)) => some pair
  | _ => none

/-- `accessToken` of the parsed session. -/
def SessionText.accessToken (text : SessionText) : Option TokenText :=
  text.parse.join.bind TokenStorage.accessToken

def State.accessToken (state : State) (userId deviceId : String) :
    Option TokenText :=
  (state.session userId deviceId).bind SessionText.accessToken

/-- A call has returned the access token. -/
def State.Issued (state : State) (token : Token) : Prop :=
  ∃ id pair, (state.calls id).bind Call.returned = some pair ∧
    pair.accessToken = token

/-- A revoke event for the identifier has been published. -/
def State.Revoked (state : State) (jti : String) : Prop :=
  ∃ exp, Message.revoke jti exp ∈ state.published

/-- Every access token that was issued and has not expired is in the session of
its user and device or has been revoked. -/
def NoOrphan (state : State) : Prop :=
  ∀ token, state.Issued token → expired state.now token = false →
    state.accessToken token.payload.sub token.payload.deviceId =
        some (.jwt token) ∨
      state.Revoked token.payload.jti

/-- Calls run one after another and every command of Redis succeeds. -/
def Sequential (state : State) : Event → Prop
  | .login _ _ => state.Idle
  | .refresh _ _ _ => state.Idle
  | .logout _ _ _ => state.Idle
  | .setnx _ reply => reply = .ok
  | .hget _ reply => reply = .ok
  | .hgetall _ reply => reply = .ok
  | .del _ reply => reply = .ok
  | .exec _ _ reply => reply = .ok
  | .release _ reply => reply = .ok
  | .hdel _ reply => reply = .ok
  | .crash _ => False
  | _ => True

/-- The access token in the session of a device, if there is one, has expired or
has been revoked. -/
def Covered (state : State) (userId deviceId : String) : Prop :=
  ∀ token, state.accessToken userId deviceId = some (.jwt token) →
    expired state.now token = true ∨ state.Revoked token.payload.jti

/-- A login stores its session only over one that is covered. -/
def LoginCovered (state : State) : Event → Prop
  | .exec id _ _ => ∀ user pair lastActive,
      state.calls id = some (.login user (.store pair lastActive)) →
        Covered state user.userId user.deviceId
  | _ => True

/-! ## The stored sessions -/

/-- The end of an access token's life in milliseconds. -/
def accessBound (text : SessionText) : ℤ :=
  match text.accessToken with
  | some (.jwt token) => token.payload.exp * 1000
  | _ => 0

/-- A pair that may be stored for the device. -/
structure Minted (config : Config) (now : ℕ) (userId deviceId : String)
    (pair : TokenPair) : Prop where
  sub : pair.accessToken.payload.sub = userId
  device : pair.accessToken.payload.deviceId = deviceId
  jti : pair.accessToken.payload.jti ≠ ""
  exp : pair.accessToken.payload.exp ≤
    (now / 1000 + config.accessExpiresIn : ℕ)

/-- What holds of the sessions and the issued tokens between any two steps. -/
structure Ledger (config : Config) (state : State) : Prop where
  noOrphan : NoOrphan state
  stored : ∀ userId deviceId text,
    state.session userId deviceId = some text → ∃ pair lastActive,
      text = .object (tokenStorage pair lastActive) ∧
        Minted config state.now userId deviceId pair ∧
          state.Issued pair.accessToken
  signed : ∀ token, state.Issued token → token ∈ state.signed
  outlives : HashStore.Outlives accessBound state.sessions

@[simp]
theorem accessToken_tokenStorage (pair : TokenPair) (lastActive : ℕ) :
    (SessionText.object (tokenStorage pair lastActive)).accessToken =
      some (.jwt pair.accessToken) := rfl

theorem Ledger.initial : Ledger config State.initial where
  noOrphan := by
    rintro token ⟨id, pair, hpair, -⟩
    simp [State.initial] at hpair
  stored userId deviceId text htext := by
    simp [State.session, State.initial, HashStore.hget, HashStore.empty]
      at htext
  signed := by
    rintro token ⟨id, pair, hpair, -⟩
    simp [State.initial] at hpair
  outlives := HashStore.Outlives.empty

theorem expired_mono {now later : ℕ} {token : Token} (hle : now ≤ later)
    (hexpired : expired now token = true) : expired later token = true := by
  simp only [expired, decide_eq_true_eq] at hexpired ⊢
  omega

theorem expired_iff {now : ℕ} {token : Token} :
    expired now token = true ↔ token.payload.exp * 1000 ≤ now := by
  simp only [expired, decide_eq_true_eq]
  omega

theorem Minted.mono {now later : ℕ} {pair : TokenPair} (hle : now ≤ later)
    (hminted : Minted config now userId deviceId pair) :
    Minted config later userId deviceId pair := by
  refine ⟨hminted.sub, hminted.device, hminted.jti, ?_⟩
  have hexp := hminted.exp
  omega

/-- The revocation of a session covers its access token. -/
theorem covered_revocation {pair : TokenPair} {lastActive now : ℕ}
    (hminted : Minted config now userId deviceId pair) :
    expired now pair.accessToken = true ∨
      ∃ exp, Message.revoke pair.accessToken.payload.jti exp ∈
        (tokenStorage pair lastActive).revocation := by
  by_cases hzero : pair.accessToken.payload.exp = 0
  · left
    simp only [expired, hzero, decide_eq_true_eq]
    exact Int.natCast_nonneg _
  · right
    refine ⟨pair.accessToken.payload.exp, ?_⟩
    simp [TokenStorage.revocation, tokenStorage, decodedExp, hzero, hminted.jti]

theorem accessToken_eq_some {token : TokenText} :
    state.accessToken userId deviceId = some token ↔
      ∃ text, state.session userId deviceId = some text ∧
        text.accessToken = some token :=
  Option.bind_eq_some_iff

/-! ## What happens to the ledger -/

theorem issued_setCall (state : State)
    (hreturned : call.returned = (state.calls id).bind Call.returned)
    (token : Token) :
    (state.setCall id call).Issued token ↔ state.Issued token := by
  have hsame : (fun other =>
      ((state.setCall id call).calls other).bind Call.returned) =
        fun other => (state.calls other).bind Call.returned := by
    rw [bind_setCall, Function.update_eq_self_iff]
    exact hreturned
  have hpoint : ∀ other, ((state.setCall id call).calls other).bind
      Call.returned = (state.calls other).bind Call.returned :=
    fun other => congrFun hsame other
  simp only [State.Issued, hpoint]

theorem issued_of_returns {pair : TokenPair}
    (hcalls : next.calls = state.calls)
    (hunreturned : (state.calls id).bind Call.returned = none)
    (hreturned : call.returned = some pair) (token : Token) :
    (next.setCall id call).Issued token ↔
      state.Issued token ∨ token = pair.accessToken := by
  constructor
  · rintro ⟨other, pair', hpair, rfl⟩
    by_cases hid : other = id
    · subst hid
      have hsome : call.returned = some pair' := by
        simpa [State.setCall] using hpair
      obtain rfl := Option.some.inj (hsome.symm.trans hreturned)
      exact .inr rfl
    · exact .inl ⟨other, pair', by simpa [State.setCall, hid, hcalls] using hpair,
        rfl⟩
  · rintro (⟨other, pair', hpair, rfl⟩ | rfl)
    · have hid : other ≠ id := by
        rintro rfl
        simp [hunreturned] at hpair
      exact ⟨other, pair', by simpa [State.setCall, hid, hcalls] using hpair, rfl⟩
    · exact ⟨id, pair, by simp [State.setCall, hreturned], rfl⟩

namespace Ledger

theorem setCall (hledger : Ledger config state)
    (hreturned : call.returned = (state.calls id).bind Call.returned) :
    Ledger config (state.setCall id call) where
  noOrphan token hissued hlive :=
    hledger.noOrphan token ((issued_setCall state hreturned token).mp hissued)
      hlive
  stored userId deviceId text htext := by
    obtain ⟨pair, lastActive, hobject, hminted, hissued⟩ :=
      hledger.stored userId deviceId text htext
    exact ⟨pair, lastActive, hobject, hminted,
      (issued_setCall state hreturned _).mpr hissued⟩
  signed token hissued :=
    hledger.signed token ((issued_setCall state hreturned token).mp hissued)
  outlives := hledger.outlives

theorem lock (hledger : Ledger config state) (locks : Locks) :
    Ledger config { state with locks := locks } :=
  ⟨hledger.noOrphan, hledger.stored, hledger.signed, hledger.outlives⟩

theorem publish (hledger : Ledger config state) (messages : List Message) :
    Ledger config
      { state with published := state.published ++ messages } where
  noOrphan token hissued hlive := by
    rcases hledger.noOrphan token hissued hlive with hstored | ⟨exp, hexp⟩
    · exact .inl hstored
    · exact .inr ⟨exp, List.mem_append_left messages hexp⟩
  stored := hledger.stored
  signed := hledger.signed
  outlives := hledger.outlives

theorem sign (hledger : Ledger config state) (tokens : List Token)
    (hsigned : ∀ token ∈ state.signed, token ∈ tokens) :
    Ledger config { state with signed := tokens } where
  noOrphan := hledger.noOrphan
  stored := hledger.stored
  signed token hissued := hsigned token (hledger.signed token hissued)
  outlives := hledger.outlives

/-- Sessions may be removed once they are covered. -/
theorem remove (hledger : Ledger config state) {sessions : Sessions}
    (hsub : ∀ userId deviceId text,
      HashStore.hget sessions (getUserKey userId) deviceId = some text →
        state.session userId deviceId = some text)
    (hgone : ∀ userId deviceId,
      HashStore.hget sessions (getUserKey userId) deviceId = none →
        state.session userId deviceId = none ∨ Covered state userId deviceId)
    (houtlives : HashStore.Outlives accessBound sessions) :
    Ledger config { state with sessions := sessions } where
  noOrphan token hissued hlive := by
    rcases hledger.noOrphan token hissued hlive with hstored | hrevoked
    · obtain ⟨text, htext, htoken⟩ := accessToken_eq_some.mp hstored
      cases hfound : HashStore.hget sessions (getUserKey token.payload.sub)
          token.payload.deviceId with
      | some text' =>
          have hsame := hsub _ _ text' hfound
          obtain rfl : text = text' := Option.some.inj (htext.symm.trans hsame)
          exact .inl (accessToken_eq_some.mpr ⟨text, hfound, htoken⟩)
      | none =>
          rcases hgone _ _ hfound with hnone | hcovered
          · simp [hnone] at htext
          · rcases hcovered token hstored with hexpired | hrevoked
            · simp [hexpired] at hlive
            · exact .inr hrevoked
    · exact .inr hrevoked
  stored userId deviceId text htext :=
    hledger.stored userId deviceId text (hsub userId deviceId text htext)
  signed := hledger.signed
  outlives := houtlives

theorem tick (hledger : Ledger config state) (ms : ℕ) :
    Ledger config { state with
      now := state.now + ms
      sessions := HashStore.sweep state.sessions (state.now + ms)
      locks := TtlStore.sweep state.locks (state.now + ms) } where
  noOrphan token hissued hlive := by
    have hlater : state.now ≤ state.now + ms := Nat.le_add_right _ _
    have hliveNow : expired state.now token = false := by
      by_contra hexpired
      rw [expired_mono hlater (by simpa using hexpired)] at hlive
      cases hlive
    rcases hledger.noOrphan token hissued hliveNow with hstored | hrevoked
    · left
      obtain ⟨text, htext, htoken⟩ := accessToken_eq_some.mp hstored
      cases hfound : HashStore.hget
          (HashStore.sweep state.sessions (state.now + ms))
          (getUserKey token.payload.sub) token.payload.deviceId with
      | some text' =>
          have hsame := HashStore.hget_sweep hfound
          obtain rfl : text = text' := Option.some.inj (htext.symm.trans hsame)
          exact accessToken_eq_some.mpr ⟨text, hfound, htoken⟩
      | none =>
          have hbound := hledger.outlives.le_of_swept htext hfound
          simp only [accessBound, htoken] at hbound
          rw [expired_iff.mpr hbound] at hlive
          cases hlive
    · exact .inr hrevoked
  stored userId deviceId text htext := by
    obtain ⟨pair, lastActive, hobject, hminted, hissued⟩ :=
      hledger.stored userId deviceId text (HashStore.hget_sweep htext)
    exact ⟨pair, lastActive, hobject, hminted.mono (Nat.le_add_right _ _),
      hissued⟩
  signed := hledger.signed
  outlives := hledger.outlives.sweep _

/-- The deadline of the hash is late enough for every session in it. -/
theorem outlives_storeSession (hledger : Ledger config state)
    (hlifetime : config.accessExpiresIn ≤ config.refreshExpiresIn)
    {pair : TokenPair} (lastActive jitter : ℕ)
    (hminted : Minted config state.now userId deviceId pair) :
    HashStore.Outlives accessBound (storeSession config state.sessions
      state.now jitter userId deviceId (tokenStorage pair lastActive)) := by
  have hbound : ∀ {userId deviceId : String} {pair : TokenPair},
      Minted config state.now userId deviceId pair →
        pair.accessToken.payload.exp * 1000 ≤
          (state.now + (config.refreshExpiresIn + jitter) * 1000 : ℕ) := by
    intro _ _ _ hminted
    have hexp := hminted.exp
    omega
  apply hledger.outlives.hset_expire
  · exact hbound hminted
  · intro deviceId' text htext
    obtain ⟨pair', lastActive', rfl, hminted', -⟩ :=
      hledger.stored userId deviceId' text htext
    exact hbound hminted'

/-- A call stores its pair over a covered session and returns it. -/
theorem store (hledger : Ledger config state)
    (hlifetime : config.accessExpiresIn ≤ config.refreshExpiresIn)
    {pair : TokenPair} {lastActive jitter : ℕ}
    (hminted : Minted config state.now userId deviceId pair)
    (hpair : pair.accessToken ∈ state.signed)
    (hunreturned : (state.calls id).bind Call.returned = none)
    (hreturned : call.returned = some pair)
    (hcovered : ∀ token,
      state.accessToken userId deviceId = some (.jwt token) →
        expired state.now token = true ∨ next.Revoked token.payload.jti)
    (hpublished : ∀ jti, state.Revoked jti → next.Revoked jti)
    (hnow : next.now = state.now) (hsigned : next.signed = state.signed)
    (hcalls : next.calls = state.calls)
    (hsessions : next.sessions = storeSession config state.sessions state.now
      jitter userId deviceId (tokenStorage pair lastActive)) :
    Ledger config (next.setCall id call) := by
  have hissued := issued_of_returns hcalls hunreturned hreturned
  have hself : (next.setCall id call).session userId deviceId =
      some (.object (tokenStorage pair lastActive)) := by
    simp [State.session, State.setCall, hsessions]
  have hother : ∀ userId' deviceId',
      ¬ (userId' = userId ∧ deviceId' = deviceId) →
        (next.setCall id call).session userId' deviceId' =
          state.session userId' deviceId' := by
    intro userId' deviceId' hne
    simp [State.session, State.setCall, hsessions, hget_storeSession_of_ne hne]
  constructor
  case noOrphan =>
    intro token htoken hlive
    have hliveNow : expired state.now token = false := hnow ▸ hlive
    by_cases hplace : token.payload.sub = userId ∧
        token.payload.deviceId = deviceId
    · obtain ⟨rfl, rfl⟩ := hplace
      rcases (hissued token).mp htoken with hold | rfl
      · rcases hledger.noOrphan token hold hliveNow with hstored | hrevoked
        · rcases hcovered token hstored with hexpired | hrevoked
          · simp [hexpired] at hliveNow
          · exact .inr hrevoked
        · exact .inr (hpublished _ hrevoked)
      · exact .inl (accessToken_eq_some.mpr ⟨_, hself, rfl⟩)
    · rcases (hissued token).mp htoken with hold | rfl
      · rcases hledger.noOrphan token hold hliveNow with hstored | hrevoked
        · left
          rw [State.accessToken, hother _ _ hplace]
          exact hstored
        · exact .inr (hpublished _ hrevoked)
      · exact absurd ⟨hminted.sub, hminted.device⟩ hplace
  case stored =>
    intro userId' deviceId' text htext
    by_cases hplace : userId' = userId ∧ deviceId' = deviceId
    · obtain ⟨rfl, rfl⟩ := hplace
      refine ⟨pair, lastActive, Option.some.inj (htext.symm.trans hself), ?_,
        (hissued _).mpr (.inr rfl)⟩
      exact hminted.mono hnow.ge
    · rw [hother _ _ hplace] at htext
      obtain ⟨pair', lastActive', hobject, hminted', hold⟩ :=
        hledger.stored userId' deviceId' text htext
      exact ⟨pair', lastActive', hobject, hminted'.mono hnow.ge,
        (hissued _).mpr (.inl hold)⟩
  case signed =>
    intro token htoken
    rcases (hissued token).mp htoken with hold | rfl
    · exact hsigned ▸ hledger.signed token hold
    · exact hsigned ▸ hpair
  case outlives =>
    simp only [State.setCall, hsessions]
    exact hledger.outlives_storeSession hlifetime lastActive jitter hminted

end Ledger

/-! ## One call at a time -/

/-- A signed pair that has not been returned. -/
structure Unreturned (config : Config) (state : State)
    (userId deviceId : String) (pair : TokenPair) : Prop where
  minted : Minted config state.now userId deviceId pair
  signed : pair.accessToken ∈ state.signed
  not_issued : ¬ state.Issued pair.accessToken

/-- The session that a refresh has read is stored, or gone. -/
def Current (state : State) (payload : JwtPayload) (storage : TokenStorage) :
    Prop :=
  ∀ text, state.session payload.sub payload.deviceId = some text →
    text = .object storage

/-- What a call that is under way relies on. -/
def Call.Relies (config : Config) (state : State) : Call → Prop
  | .login user (.store pair _) =>
      Unreturned config state user.userId user.deviceId pair
  | .refresh payload _ (.lookup storage) => Current state payload storage
  | .refresh payload _ (.sign storage _) => Current state payload storage
  | .refresh payload _ (.store storage pair _) =>
      Current state payload storage ∧
        Unreturned config state payload.sub payload.deviceId pair
  | .refresh payload _ .revokeAll =>
      ∀ deviceId, Covered state payload.sub deviceId
  | .logout userId deviceId .delete => Covered state userId deviceId
  | _ => True

/-- The ledger, with at most one call under way and what it relies on. -/
structure Accounted (config : Config) (state : State) : Prop
    extends Ledger config state where
  single : ∀ id other call call', state.calls id = some call →
    state.calls other = some call' → call.pending = true →
      call'.pending = true → id = other
  relies : ∀ id call, state.calls id = some call → call.Relies config state

theorem relies_of_not_pending (hfinished : call.pending = false) :
    call.Relies config state := by
  cases call with
  | login user phase => cases phase <;> simp_all [Call.pending, Call.Relies]
  | refresh payload lockValue phase =>
      cases phase <;> simp_all [Call.pending, Call.Relies]
  | refused error => trivial
  | logout userId deviceId phase =>
      cases phase <;> simp_all [Call.pending, Call.Relies]

namespace Accounted

theorem initial : Accounted config State.initial where
  toLedger := Ledger.initial
  single id other call call' hcall := by simp [State.initial] at hcall
  relies id call hcall := by simp [State.initial] at hcall

/-- The other calls, when this one is under way. -/
theorem others (haccounted : Accounted config state) {old : Call}
    (hcall : state.calls id = some old) (hpending : old.pending = true)
    (other : ℕ) (call' : Call) (hne : other ≠ id)
    (hother : state.calls other = some call') : call'.pending = false := by
  by_contra hbusy
  exact hne (haccounted.single other id call' old hother hcall
    (by simpa using hbusy) hpending)

/-- One call moves on while the others have finished. -/
theorem of_ledger (hledger : Ledger config (next.setCall id call))
    (hothers : ∀ other call', other ≠ id → state.calls other = some call' →
      call'.pending = false)
    (hcalls : next.calls = state.calls)
    (hrelies : call.Relies config (next.setCall id call)) :
    Accounted config (next.setCall id call) := by
  have hfinished : ∀ other call', other ≠ id →
      (next.setCall id call).calls other = some call' →
        call'.pending = false := by
    intro other call' hne hother
    exact hothers other call' hne
      (by simpa [State.setCall, hne, hcalls] using hother)
  refine ⟨hledger, ?_, ?_⟩
  · intro left right call' call'' hleft hright hpending hpending'
    have hmine : ∀ other call', (next.setCall id call).calls other =
        some call' → call'.pending = true → other = id := by
      intro other call' hother hbusy
      by_contra hne
      simp [hfinished other call' hne hother] at hbusy
    rw [hmine left call' hleft hpending, hmine right call'' hright hpending']
  · intro other call' hother
    by_cases hid : other = id
    · subst hid
      obtain rfl : call = call' := by simpa [State.setCall] using hother
      exact hrelies
    · exact relies_of_not_pending (hfinished other call' hid hother)

/-- A call that is under way moves on without a command that writes. -/
theorem quiet (haccounted : Accounted config state) {old : Call}
    (hcall : state.calls id = some old) (hpending : old.pending = true)
    (hreturned : call.returned = old.returned)
    (hrelies : call.Relies config (state.setCall id call)) :
    Accounted config (state.setCall id call) := by
  refine of_ledger (haccounted.setCall ?_)
    (haccounted.others hcall hpending) rfl hrelies
  rw [hcall]
  exact hreturned

theorem start (haccounted : Accounted config state) (hidle : state.Idle)
    (hnone : state.calls id = none) (hreturned : call.returned = none)
    (hrelies : call.Relies config (state.setCall id call)) :
    Accounted config (state.setCall id call) := by
  refine of_ledger (haccounted.setCall ?_)
    (fun other call' _ hother => hidle other call' hother) rfl hrelies
  rw [hnone]
  exact hreturned

theorem setnx (haccounted : Accounted config state) (reply : Reply)
    {payload : JwtPayload} {lockValue : String} (locks : Locks)
    (isLockAcquired : Bool)
    (hcall : state.calls id = some (.refresh payload lockValue .acquire)) :
    Accounted config (State.setCall { state with locks := locks } id
      (.refresh payload lockValue (afterSetnx reply isLockAcquired))) := by
  rcases afterSetnx_cases reply isLockAcquired with hphase | ⟨error, hphase⟩ <;>
  · rw [hphase]
    refine of_ledger ((haccounted.lock locks).setCall ?_)
      (haccounted.others hcall rfl) rfl trivial
    simp [hcall, Call.returned]

theorem read (haccounted : Accounted config state) (reply : Reply)
    {payload : JwtPayload} {lockValue : String}
    (hcall : state.calls id = some (.refresh payload lockValue .read)) :
    Accounted config (state.setCall id (.refresh payload lockValue
      (if reply = .ok then
        afterHget payload (state.session payload.sub payload.deviceId)
      else .release (.error (rethrow .other))))) := by
  by_cases hreply : reply = .ok
  · rw [if_pos hreply]
    rcases afterHget_cases payload (state.session payload.sub payload.deviceId)
      with ⟨storage, hphase, hparse, -⟩ | hphase | ⟨error, hphase⟩
    · rw [hphase]
      refine haccounted.quiet hcall rfl rfl ?_
      intro text htext
      obtain ⟨pair, lastActive, rfl, -⟩ := haccounted.stored _ _ text htext
      change state.session payload.sub payload.deviceId = _ at htext
      rw [htext] at hparse
      simpa [SessionText.parse] using hparse
    · rw [hphase]
      exact haccounted.quiet hcall rfl rfl trivial
    · rw [hphase]
      exact haccounted.quiet hcall rfl rfl trivial
  · rw [if_neg hreply]
    exact haccounted.quiet hcall rfl rfl trivial

/-- Publishing the revocation of a session covers it. -/
theorem covered_publish (haccounted : Accounted config state)
    {messages : List Message}
    (hmessages : ∀ text, state.session userId deviceId = some text →
      ∀ message ∈ text.revocation, message ∈ messages) :
    Covered { state with published := state.published ++ messages }
      userId deviceId := by
  intro token htoken
  obtain ⟨text, htext, haccess⟩ := accessToken_eq_some.mp htoken
  obtain ⟨pair, lastActive, rfl, hminted, -⟩ :=
    haccounted.stored userId deviceId text htext
  obtain rfl : pair.accessToken = token := by simpa using haccess
  rcases covered_revocation hminted with hexpired | ⟨exp, hexp⟩
  · exact .inl hexpired
  · right
    exact ⟨exp, List.mem_append_right _ (hmessages _ htext _ hexp)⟩

theorem readLogout (haccounted : Accounted config state)
    (hcall : state.calls id = some (.logout userId deviceId .read)) :
    Accounted config (State.setCall
      { state with published := state.published ++
          ((state.session userId deviceId).map SessionText.revocation).getD [] }
      id (.logout userId deviceId .delete)) := by
  refine of_ledger ((haccounted.publish _).setCall ?_)
    (haccounted.others hcall rfl) rfl ?_
  · simp [hcall, Call.returned]
  · apply haccounted.covered_publish
    intro text htext message hmessage
    simpa [htext] using hmessage

theorem scan (haccounted : Accounted config state) {payload : JwtPayload}
    {lockValue : String}
    (hcall : state.calls id = some (.refresh payload lockValue .scan)) :
    Accounted config (State.setCall
      { state with published := state.published ++
          (HashStore.hgetall state.sessions
            (getUserKey payload.sub)).flatMap SessionText.revocation } id
      (.refresh payload lockValue .revokeAll)) := by
  refine of_ledger ((haccounted.publish _).setCall ?_)
    (haccounted.others hcall rfl) rfl ?_
  · simp [hcall, Call.returned]
  · intro deviceId
    apply haccounted.covered_publish
    intro text htext message hmessage
    exact List.mem_flatMap.mpr ⟨text, HashStore.mem_hgetall htext, hmessage⟩

theorem revokeAll (haccounted : Accounted config state) {payload : JwtPayload}
    {lockValue : String} {result : Except AppException TokenPair}
    (hcall : state.calls id = some (.refresh payload lockValue .revokeAll))
    (herror : result.isOk = false) :
    Accounted config (State.setCall
      { state with sessions :=
          HashStore.del state.sessions (getUserKey payload.sub) } id
      (.refresh payload lockValue (.release result))) := by
  have hremoved : Ledger config { state with
      sessions := HashStore.del state.sessions (getUserKey payload.sub) } := by
    apply haccounted.remove
    · exact fun _ _ _ hfound => hget_of_del hfound
    · intro userId deviceId hgone
      by_cases huser : userId = payload.sub
      · subst huser
        exact .inr (haccounted.relies id _ hcall deviceId)
      · rw [hget_del_of_ne huser] at hgone
        exact .inl hgone
    · exact haccounted.outlives.del _
  refine of_ledger (hremoved.setCall ?_) (haccounted.others hcall rfl) rfl
    trivial
  cases result with
  | ok pair => simp [Except.isOk, Except.toBool] at herror
  | error error => simp [hcall, Call.returned]

theorem hdel (haccounted : Accounted config state) (result : Option ℕ)
    (hcall : state.calls id = some (.logout userId deviceId .delete)) :
    Accounted config (State.setCall
      { state with sessions :=
          (HashStore.hdel state.sessions (getUserKey userId) deviceId).1 } id
      (.logout userId deviceId (.finished result))) := by
  have hremoved : Ledger config { state with
      sessions :=
        (HashStore.hdel state.sessions (getUserKey userId) deviceId).1 } := by
    apply haccounted.remove
    · exact fun _ _ _ hfound => hget_of_hdel hfound
    · intro userId' deviceId' hgone
      by_cases hplace : userId' = userId ∧ deviceId' = deviceId
      · obtain ⟨rfl, rfl⟩ := hplace
        exact .inr (haccounted.relies id _ hcall)
      · rw [hget_hdel_of_ne hplace] at hgone
        exact .inl hgone
    · exact haccounted.outlives.hdel _ _
  refine of_ledger (hremoved.setCall ?_) (haccounted.others hcall rfl) rfl
    trivial
  simp [hcall, Call.returned]

/-- A call signs a fresh pair. -/
theorem signs (haccounted : Accounted config state) {old : Call} (user : User)
    {accessJti refreshJti : String} {tokens : List Token}
    (hfresh : freshJtis state.signed accessJti refreshJti = true)
    (htokens : tokens =
      (signTokens config state.now user accessJti refreshJti).accessToken ::
        (signTokens config state.now user accessJti refreshJti).refreshToken ::
          state.signed)
    (hcall : state.calls id = some old) (hpending : old.pending = true)
    (hreturned : call.returned = old.returned)
    (hrelies : Unreturned config
        (State.setCall { state with signed := tokens } id call)
        user.userId user.deviceId
        (signTokens config state.now user accessJti refreshJti) →
      call.Relies config
        (State.setCall { state with signed := tokens } id call)) :
    Accounted config
      (State.setCall { state with signed := tokens } id call) := by
  subst htokens
  simp only [freshJtis, Bool.and_eq_true, List.all_eq_true, bne_iff_ne]
    at hfresh
  obtain ⟨⟨⟨haccess, -⟩, -⟩, hunused⟩ := hfresh
  have hsame : call.returned = (state.calls id).bind Call.returned := by
    rw [hcall]
    exact hreturned
  have hledger := haccounted.sign
    ((signTokens config state.now user accessJti refreshJti).accessToken ::
      (signTokens config state.now user accessJti refreshJti).refreshToken ::
        state.signed)
    (fun token htoken => List.mem_cons_of_mem _ (List.mem_cons_of_mem _ htoken))
  refine of_ledger (hledger.setCall hsame) (haccounted.others hcall hpending)
    rfl (hrelies ⟨⟨rfl, rfl, haccess, le_rfl⟩, List.mem_cons_self, ?_⟩)
  intro hissued
  have hold := haccounted.signed _ ((issued_setCall _ hsame _).mp hissued)
  exact (hunused _ hold).1 rfl

theorem storeLogin
    (hlifetime : config.accessExpiresIn ≤ config.refreshExpiresIn)
    (haccounted : Accounted config state) (jitter : ℕ) {user : User}
    {pair : TokenPair} {lastActive : ℕ}
    (hcall : state.calls id = some (.login user (.store pair lastActive)))
    (hcovered : Covered state user.userId user.deviceId) :
    Accounted config (State.setCall
      { state with
        sessions := storeSession config state.sessions state.now jitter
          user.userId user.deviceId (tokenStorage pair lastActive)
        published := state.published ++
          [.loggedIn user.userId user.deviceId state.now] } id
      (.login user (.finished (.ok pair)))) := by
  obtain ⟨hminted, hsigned, -⟩ := haccounted.relies id _ hcall
  have hpublished : ∀ jti, state.Revoked jti →
      ∃ exp, Message.revoke jti exp ∈ state.published ++
        [.loggedIn user.userId user.deviceId state.now] := by
    rintro jti ⟨exp, hexp⟩
    exact ⟨exp, List.mem_append_left _ hexp⟩
  refine of_ledger (haccounted.toLedger.store hlifetime hminted hsigned ?_ rfl ?_
    hpublished rfl rfl rfl rfl) (haccounted.others hcall rfl) rfl trivial
  · simp [hcall, Call.returned]
  · intro token htoken
    exact (hcovered token htoken).imp_right (hpublished token.payload.jti)

/-- A refresh revokes the access token of the session it replaces. -/
theorem store (hlifetime : config.accessExpiresIn ≤ config.refreshExpiresIn)
    (haccounted : Accounted config state) (jitter : ℕ) {payload : JwtPayload}
    {lockValue : String} {storage : TokenStorage} {pair : TokenPair}
    {lastActive : ℕ}
    (hcall : state.calls id =
      some (.refresh payload lockValue (.store storage pair lastActive))) :
    Accounted config (State.setCall
      { state with
        sessions := storeSession config state.sessions state.now jitter
          payload.sub payload.deviceId (tokenStorage pair lastActive)
        published := state.published ++ storage.revocation } id
      (.refresh payload lockValue (.release (.ok pair)))) := by
  obtain ⟨hcurrent, hminted, hsigned, -⟩ := haccounted.relies id _ hcall
  have hcovered : Covered
      { state with published := state.published ++ storage.revocation }
      payload.sub payload.deviceId := by
    apply haccounted.covered_publish
    intro text htext message hmessage
    obtain rfl := hcurrent text htext
    exact hmessage
  refine of_ledger (haccounted.toLedger.store hlifetime hminted hsigned ?_ rfl
    hcovered ?_ rfl rfl rfl rfl) (haccounted.others hcall rfl) rfl trivial
  · simp [hcall, Call.returned]
  · rintro jti ⟨exp, hexp⟩
    exact ⟨exp, List.mem_append_left _ hexp⟩

theorem tick (haccounted : Accounted config state) (ms : ℕ) :
    Accounted config { state with
      now := state.now + ms
      sessions := HashStore.sweep state.sessions (state.now + ms)
      locks := TtlStore.sweep state.locks (state.now + ms) } where
  toLedger := haccounted.toLedger.tick ms
  single := haccounted.single
  relies id call hcall := by
    have hlater : state.now ≤ state.now + ms := Nat.le_add_right _ _
    have hcovered : ∀ userId deviceId, Covered state userId deviceId →
        Covered { state with
          now := state.now + ms
          sessions := HashStore.sweep state.sessions (state.now + ms)
          locks := TtlStore.sweep state.locks (state.now + ms) }
          userId deviceId := by
      intro userId deviceId hcovered token htoken
      obtain ⟨text, htext, haccess⟩ := accessToken_eq_some.mp htoken
      have hold : state.accessToken userId deviceId = some (.jwt token) :=
        accessToken_eq_some.mpr ⟨text, HashStore.hget_sweep htext, haccess⟩
      exact (hcovered token hold).imp_left (expired_mono hlater)
    have hrelies := haccounted.relies id call hcall
    cases call with
    | login user phase =>
        cases phase with
        | store pair lastActive =>
            exact ⟨hrelies.minted.mono hlater, hrelies.signed,
              hrelies.not_issued⟩
        | _ => trivial
    | refresh payload lockValue phase =>
        cases phase with
        | lookup storage =>
            exact fun text htext => hrelies text (HashStore.hget_sweep htext)
        | sign storage username =>
            exact fun text htext => hrelies text (HashStore.hget_sweep htext)
        | store storage pair lastActive =>
            exact ⟨fun text htext =>
                hrelies.1 text (HashStore.hget_sweep htext),
              hrelies.2.minted.mono hlater, hrelies.2.signed,
              hrelies.2.not_issued⟩
        | revokeAll =>
            exact fun deviceId => hcovered _ deviceId (hrelies deviceId)
        | _ => trivial
    | refused error => trivial
    | logout userId deviceId phase =>
        cases phase with
        | delete => exact hcovered userId deviceId hrelies
        | _ => trivial

theorem of_step (hlifetime : config.accessExpiresIn ≤ config.refreshExpiresIn)
    (haccounted : Accounted config state) (hsequential : Sequential state event)
    (hcovered : LoginCovered state event)
    (hstep : step config state event = some next) : Accounted config next := by
  cases step_effect hstep with
  | login id user hnone =>
      exact haccounted.start hsequential hnone rfl trivial
  | refresh id text lockValue payload hnone hverify =>
      exact haccounted.start hsequential hnone rfl trivial
  | refuse id text lockValue hnone =>
      exact haccounted.start hsequential hnone rfl trivial
  | logout id userId deviceId hnone =>
      exact haccounted.start hsequential hnone rfl trivial
  | setnx id reply payload lockValue hcall =>
      exact haccounted.setnx reply _ _ hcall
  | read id reply payload lockValue hcall => exact haccounted.read reply hcall
  | readLogout id reply userId deviceId hcall =>
      obtain rfl : reply = .ok := hsequential
      exact haccounted.readLogout hcall
  | scan id payload lockValue hcall => exact haccounted.scan hcall
  | scanFails id reply payload lockValue hreply hcall =>
      exact absurd hsequential hreply
  | revokeAll id reply payload lockValue hcall =>
      obtain rfl : reply = .ok := hsequential
      exact haccounted.revokeAll hcall rfl
  | lookup id answer payload lockValue storage hcall =>
      rcases afterLookup_cases storage answer with ⟨username, hphase⟩ |
        ⟨error, hphase⟩
      · rw [hphase]
        exact haccounted.quiet hcall rfl rfl (haccounted.relies id _ hcall)
      · rw [hphase]
        exact haccounted.quiet hcall rfl rfl trivial
  | signFailsLogin id user hcall =>
      exact haccounted.quiet hcall rfl rfl trivial
  | signFails id payload lockValue storage username hcall =>
      exact haccounted.quiet hcall rfl rfl trivial
  | signLogin id accessJti refreshJti user pair hfresh hpair hcall =>
      subst hpair
      exact haccounted.signs user hfresh rfl hcall rfl rfl fun hpair => hpair
  | sign id accessJti refreshJti payload lockValue storage username pair hfresh
      hpair hcall =>
      subst hpair
      refine haccounted.signs ⟨payload.sub, username, payload.deviceId⟩ hfresh
        rfl hcall rfl rfl fun hpair => ⟨?_, hpair⟩
      exact haccounted.relies id _ hcall
  | storeLogin id jitter reply user pair lastActive hcall =>
      obtain rfl : reply = .ok := hsequential
      exact haccounted.storeLogin hlifetime jitter hcall
        (hcovered user pair lastActive hcall)
  | store id jitter reply payload lockValue storage pair lastActive hcall =>
      obtain rfl : reply = .ok := hsequential
      exact haccounted.store hlifetime jitter hcall
  | release id reply payload lockValue result hcall =>
      refine of_ledger ((haccounted.lock _).setCall ?_)
        (haccounted.others hcall rfl) rfl trivial
      cases result <;> simp [hcall, Call.returned]
  | hdel id reply userId deviceId hcall =>
      obtain rfl : reply = .ok := hsequential
      exact haccounted.hdel _ hcall
  | crash id call hcall hpending => exact hsequential.elim
  | tick ms => exact haccounted.tick ms

/-- The replaced token is issued and live, neither stored nor revoked. -/
theorem orphan_of_store (haccounted : Accounted config state) {jitter : ℕ}
    {user : User} {pair : TokenPair} {lastActive : ℕ} {token : Token}
    (hcall : state.calls id = some (.login user (.store pair lastActive)))
    (htoken :
      state.accessToken user.userId user.deviceId = some (.jwt token))
    (hlive : ¬ expired state.now token = true)
    (hunrevoked : ¬ state.Revoked token.payload.jti)
    (hnow : next.now = state.now) (hcalls : next.calls = state.calls)
    (hsessions : next.sessions = storeSession config state.sessions state.now
      jitter user.userId user.deviceId (tokenStorage pair lastActive))
    (hpublished : next.published = state.published ++
      [.loggedIn user.userId user.deviceId state.now]) :
    ¬ NoOrphan (next.setCall id (.login user (.finished (.ok pair)))) := by
  intro hnoOrphan
  obtain ⟨-, -, hunissued⟩ := haccounted.relies id _ hcall
  obtain ⟨text, htext, haccess⟩ := accessToken_eq_some.mp htoken
  obtain ⟨old, oldActive, rfl, hminted, hissued⟩ :=
    haccounted.stored _ _ text htext
  obtain rfl : old.accessToken = token := by simpa using haccess
  have hunreturned : (state.calls id).bind Call.returned = none := by
    simp [hcall, Call.returned]
  have hstill : (next.setCall id (.login user (.finished (.ok pair)))).Issued
      old.accessToken :=
    (issued_of_returns hcalls hunreturned rfl old.accessToken).mpr (.inl hissued)
  have hnotExpired : expired next.now old.accessToken = false := by
    simpa [hnow] using hlive
  rcases hnoOrphan old.accessToken hstill hnotExpired with hstored | ⟨exp, hexp⟩
  · rw [hminted.sub, hminted.device] at hstored
    have hnew : pair.accessToken = old.accessToken := by
      simpa [State.accessToken, State.session, State.setCall, hsessions]
        using hstored
    exact hunissued (hnew ▸ hissued)
  · refine hunrevoked ⟨exp, ?_⟩
    simpa [State.setCall, hpublished] using hexp

/-- A login over a session whose access token is live orphans that token. -/
theorem orphan_of_login (haccounted : Accounted config state)
    (hsequential : Sequential state event)
    (huncovered : ¬ LoginCovered state event)
    (hstep : step config state event = some next) : ¬ NoOrphan next := by
  cases step_effect hstep with
  | storeLogin id jitter reply user pair lastActive hcall =>
      obtain rfl : reply = .ok := hsequential
      have hreplaced : ¬ Covered state user.userId user.deviceId := by
        intro hcovered
        refine huncovered fun user' pair' lastActive' hcall' => ?_
        rw [hcall] at hcall'
        cases hcall'
        exact hcovered
      simp only [Covered, not_forall, not_or] at hreplaced
      obtain ⟨token, htoken, hlive, hunrevoked⟩ := hreplaced
      exact haccounted.orphan_of_store hcall htoken hlive hunrevoked rfl rfl rfl
        rfl
  | store id jitter reply payload lockValue storage pair lastActive hcall =>
      refine absurd (fun user pair' lastActive' hcall' => ?_) huncovered
      rw [hcall] at hcall'
      cases hcall'
  | _ => exact absurd trivial huncovered

end Accounted

/-- No access token is orphaned exactly as long as every login finds no session,
or one that is covered, where it stores its own. -/
theorem noOrphan_iff
    (hlifetime : config.accessExpiresIn ≤ config.refreshExpiresIn)
    {events : List Event} {final : State}
    (hsequential : Guarded (step config) Sequential State.initial events)
    (hrun : run (step config) State.initial events = some final) :
    (∀ first, first <+: events → ∀ middle,
        run (step config) State.initial first = some middle →
          NoOrphan middle) ↔
      Guarded (step config) LoginCovered State.initial events := by
  refine always_iff_guarded Sequential (Accounted config) NoOrphan ?_ ?_ ?_
    Accounted.initial hsequential hrun
  · exact fun state haccounted => haccounted.noOrphan
  · exact fun state event next haccounted hsequential hcovered hstep =>
      haccounted.of_step hlifetime hsequential hcovered hstep
  · exact fun state event next haccounted hsequential huncovered hstep =>
      haccounted.orphan_of_login hsequential huncovered hstep

/-- The pairs of two logins on one device, one after the other. -/
def firstPair : TokenPair :=
  signTokens .default 0 ⟨"u1", "alice", "phone"⟩ "a1" "r1"

def secondPair : TokenPair :=
  signTokens .default 0 ⟨"u1", "alice", "phone"⟩ "a2" "r2"

def loginTwice : List Event :=
  loginEvents 0 ⟨"u1", "alice", "phone"⟩ "a1" "r1" ++
    loginEvents 1 ⟨"u1", "alice", "phone"⟩ "a2" "r2"

theorem sequential_loginEvents (hidle : state.Idle) (id : ℕ) (user : User)
    (accessJti refreshJti : String) :
    Guarded (step config) Sequential state
      (loginEvents id user accessJti refreshJti) :=
  ⟨hidle, fun _ _ => ⟨trivial, fun _ _ => ⟨rfl, fun _ _ => trivial⟩⟩⟩

theorem sequential_loginTwice :
    Guarded (step .default) Sequential State.initial loginTwice := by
  refine guarded_append.mpr ⟨sequential_loginEvents State.Idle.initial _ _ _ _,
    fun middle hmiddle => sequential_loginEvents ?_ _ _ _ _⟩
  obtain ⟨final, hrun, hfinished⟩ := Option.map_eq_some_iff.mp
    (show (run (step .default) State.initial
        (loginEvents 0 ⟨"u1", "alice", "phone"⟩ "a1" "r1")).map
          (fun state => state.allFinished [0]) = some true by decide)
  obtain rfl : final = middle := Option.some.inj (hrun.symm.trans hmiddle)
  exact idle_of_run hrun hfinished

theorem exists_final_of_loginTwice :
    ∃ final, run (step .default) State.initial loginTwice = some final ∧
      final.Idle ∧ final.now = 0 ∧
      (final.calls 0).bind Call.returned = some firstPair ∧
      final.accessToken "u1" "phone" = some (.jwt secondPair.accessToken) ∧
      final.published =
        [.loggedIn "u1" "phone" 0, .loggedIn "u1" "phone" 0] := by
  obtain ⟨final, hrun, hfacts⟩ := Option.map_eq_some_iff.mp
    (show (run (step .default) State.initial loginTwice).map (fun state =>
        (state.allFinished [0, 1], state.now, state.published)) =
      some (true, 0, [.loggedIn "u1" "phone" 0, .loggedIn "u1" "phone" 0])
      by decide)
  obtain ⟨other, hother, htokens⟩ := Option.map_eq_some_iff.mp
    (show (run (step .default) State.initial loginTwice).map (fun state =>
        ((state.calls 0).bind Call.returned,
          state.accessToken "u1" "phone")) =
      some (some firstPair, some (.jwt secondPair.accessToken)) by decide)
  obtain rfl : final = other := Option.some.inj (hrun.symm.trans hother)
  simp only [Prod.mk.injEq] at hfacts htokens
  exact ⟨final, hrun, idle_of_run hrun hfacts.1, hfacts.2.1, htokens.1,
    htokens.2, hfacts.2.2⟩

/-- The second login leaves the first access token neither stored nor revoked. -/
theorem not_always_noOrphan :
    ¬ ∀ (events : List Event) (final : State),
      Guarded (step .default) Sequential State.initial events →
      run (step .default) State.initial events = some final →
      final.Idle → NoOrphan final := by
  intro hclaim
  obtain ⟨final, hrun, hidle, hnow, hreturned, hstored, hpublished⟩ :=
    exists_final_of_loginTwice
  have hnoOrphan := hclaim loginTwice final sequential_loginTwice hrun hidle
  have hlive : expired final.now firstPair.accessToken = false := by
    rw [hnow]
    decide
  rcases hnoOrphan firstPair.accessToken ⟨0, firstPair, hreturned, rfl⟩ hlive
    with hmine | ⟨exp, hexp⟩
  · have hsame : some (TokenText.jwt secondPair.accessToken) =
        some (.jwt firstPair.accessToken) := hstored.symm.trans hmine
    exact absurd hsame (by decide)
  · simp [hpublished] at hexp

theorem noOrphan_iff_of_loginTwice :
    ∃ final, run (step .default) State.initial loginTwice = some final ∧
      ((∀ first, first <+: loginTwice → ∀ middle,
          run (step .default) State.initial first = some middle →
            NoOrphan middle) ↔
        Guarded (step .default) LoginCovered State.initial loginTwice) := by
  obtain ⟨final, hrun, -⟩ := exists_final_of_loginTwice
  exact ⟨final, hrun, noOrphan_iff (by decide) sequential_loginTwice hrun⟩

end OceanChat.Auth
