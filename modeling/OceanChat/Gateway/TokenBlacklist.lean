import OceanChat.Common.AppException
import OceanChat.Core.Runs

/-!
# The token blacklist and the guard

Each gateway instance keeps the revoked token identifiers in its own memory
until the tokens expire.  The guard of the same instance looks nowhere else.
Times are milliseconds, expiry times of tokens are seconds.
-/

namespace OceanChat.Gateway

abbrev Cache := TtlStore.Store String Bool

namespace TokenBlacklistService

/-- Remember a revoked token unless it has expired already. -/
def add (cache : Cache) (now : ℕ) (jti : String) (expSeconds : ℤ) : Cache :=
  let ttlSeconds := expSeconds - (now / 1000 : ℕ)
  if 0 < ttlSeconds then
    TtlStore.put cache jti true (some (now + (ttlSeconds * 1000).toNat))
  else cache

def isRevoked (cache : Cache) (jti : String) : Bool :=
  (TtlStore.get cache jti).getD false

end TokenBlacklistService

/-- A token has expired once the current second reaches its expiry time. -/
def tokenExpired (now : ℕ) (exp : ℤ) : Bool :=
  decide (exp ≤ (now / 1000 : ℕ))

/-! ## The guard -/

inductive VerifyError
  | tokenExpired
  | invalid

structure RequestUser where
  sub : String
  username : String
  deviceId : String
  deriving DecidableEq

def unauthorizedException : AppException :=
  domainException "UNAUTHORIZED" ErrorCodes.unauthorized 401

def tokenExpiredException : AppException :=
  domainException "TOKEN_EXPIRED" ErrorCodes.tokenExpired 401

/-- The token of a `Bearer` authorization header, if it is not empty. -/
def extractTokenFromHeader (authorization : Option String) : Option String :=
  match (authorization.map fun header => header.splitOn " ").getD [] with
  | type :: token :: _ =>
      if type = "Bearer" ∧ token ≠ "" then some token else none
  | _ => none

/-- `JwtAuthGuard.canActivate`; `none` is a public route, which sets no user. -/
def canActivate (isPublic : Bool) (authorization : Option String)
    (verifyAsync : String → Except VerifyError JwtPayload) (cache : Cache) :
    Except AppException (Option RequestUser) :=
  if isPublic then .ok none
  else
    match extractTokenFromHeader authorization with
    | none => .error unauthorizedException
    | some token =>
        match verifyAsync token with
        | .error .tokenExpired => .error tokenExpiredException
        | .error .invalid => .error unauthorizedException
        | .ok payload =>
            if TokenBlacklistService.isRevoked cache payload.jti then
              .error unauthorizedException
            else
              .ok (some ⟨payload.sub, payload.username, payload.deviceId⟩)

/-- The guard of an instance lets no token with this identifier pass. -/
def Rejects (cache : Cache) (jti : String) : Prop :=
  ∀ authorization verifyAsync token payload,
    extractTokenFromHeader authorization = some token →
    verifyAsync token = .ok payload → payload.jti = jti →
      canActivate false authorization verifyAsync cache =
        .error unauthorizedException

theorem rejects_of_isRevoked {cache : Cache} {jti : String}
    (hrevoked : TokenBlacklistService.isRevoked cache jti = true) :
    Rejects cache jti := by
  rintro authorization verifyAsync token payload htoken hverify rfl
  simp [canActivate, htoken, hverify, hrevoked]

/-- The guard refuses every request whose token, if it verifies, is rejected. -/
theorem exists_error_of_rejects {cache : Cache} {authorization : Option String}
    {verifyAsync : String → Except VerifyError JwtPayload}
    (hrejects : ∀ token payload, extractTokenFromHeader authorization = some token →
      verifyAsync token = .ok payload → Rejects cache payload.jti) :
    ∃ error, canActivate false authorization verifyAsync cache =
      .error error := by
  cases hheader : extractTokenFromHeader authorization with
  | none => exact ⟨unauthorizedException, by simp [canActivate, hheader]⟩
  | some token =>
      cases hpayload : verifyAsync token with
      | error reason =>
          cases reason with
          | tokenExpired =>
              exact ⟨tokenExpiredException, by simp [canActivate, hheader, hpayload]⟩
          | invalid =>
              exact ⟨unauthorizedException, by simp [canActivate, hheader, hpayload]⟩
      | ok payload =>
          exact ⟨unauthorizedException, hrejects token payload hheader hpayload
            authorization verifyAsync token payload hheader hpayload rfl⟩

/-! ## Lifetimes -/

namespace TokenBlacklistService

variable {cache : Cache} {jti other : String} {exp : ℤ} {now later : ℕ}

theorem add_of_expired (hexpired : tokenExpired now exp = true) :
    add cache now jti exp = cache := by
  have hle : exp ≤ (now / 1000 : ℕ) := by simpa [tokenExpired] using hexpired
  simp only [add, if_neg (by omega : ¬ 0 < exp - (now / 1000 : ℕ))]

theorem add_of_live (hlive : tokenExpired now exp = false) :
    add cache now jti exp = TtlStore.put cache jti true
      (some (now + ((exp - (now / 1000 : ℕ)) * 1000).toNat)) := by
  have hlt : ((now / 1000 : ℕ) : ℤ) < exp := by
    simpa [tokenExpired] using hlive
  simp only [add, if_pos (by omega : 0 < exp - (now / 1000 : ℕ))]

/-- The deadline of a new entry is not before the expiry of the token. -/
theorem exp_le_deadline (hlive : tokenExpired now exp = false) :
    exp * 1000 ≤ (now + ((exp - (now / 1000 : ℕ)) * 1000).toNat : ℕ) := by
  have hlt : ((now / 1000 : ℕ) : ℤ) < exp := by
    simpa [tokenExpired] using hlive
  omega

theorem tokenExpired_iff : tokenExpired now exp = true ↔ exp * 1000 ≤ now := by
  simp only [tokenExpired, decide_eq_true_eq]
  omega

theorem isRevoked_of_entry {deadline : Option ℕ}
    (hentry : cache jti = some ⟨true, deadline⟩) : isRevoked cache jti = true := by
  simp [isRevoked, TtlStore.get, hentry]

end TokenBlacklistService

/-! ## One instance over time -/

/-- The clock and the memory of one instance. -/
structure Memory where
  now : ℕ
  cache : Cache

inductive CacheEvent
  | add (jti : String) (exp : ℤ)
  | tick (ms : ℕ)

/-- The memory drops an entry once its lifetime has passed, and not before. -/
def cacheStep (memory : Memory) : CacheEvent → Option Memory
  | .add jti exp => some { memory with
      cache := TokenBlacklistService.add memory.cache memory.now jti exp }
  | .tick ms => some ⟨memory.now + ms,
      TtlStore.sweep memory.cache (memory.now + ms)⟩

/-- The identifier is in the memory until its token has expired. -/
def Barred (jti : String) (exp : ℤ) (memory : Memory) : Prop :=
  tokenExpired memory.now exp = true ∨
    ∃ deadline : ℕ, memory.cache jti = some ⟨true, some deadline⟩ ∧
      exp * 1000 ≤ deadline

namespace Barred

open TokenBlacklistService

variable {jti other : String} {exp later : ℤ} {memory : Memory}

theorem of_add (memory : Memory) (hle : exp ≤ later) :
    Barred jti exp { memory with
      cache := add memory.cache memory.now jti later } := by
  cases hexpired : tokenExpired memory.now later with
  | true =>
      rw [tokenExpired_iff] at hexpired
      exact .inl (tokenExpired_iff.mpr (by omega : exp * 1000 ≤ (memory.now : ℤ)))
  | false =>
      have hdeadline := exp_le_deadline hexpired
      refine .inr ⟨_, ?_, (by omega : exp * 1000 ≤ later * 1000).trans hdeadline⟩
      simp only [add_of_live hexpired]
      exact TtlStore.put_same

/-- Another identifier does not touch the entry, and the same one with an
expiry that is no earlier replaces it. -/
theorem add (hbarred : Barred jti exp memory) (hle : other = jti → exp ≤ later) :
    Barred jti exp { memory with
      cache := TokenBlacklistService.add memory.cache memory.now other later } := by
  by_cases hother : other = jti
  · subst hother
    exact of_add memory (hle rfl)
  · rcases hbarred with hexpired | ⟨deadline, hentry, hdeadline⟩
    · exact .inl hexpired
    · refine .inr ⟨deadline, ?_, hdeadline⟩
      cases hlive : tokenExpired memory.now later with
      | true => simpa only [add_of_expired hlive] using hentry
      | false =>
          simp only [add_of_live hlive]
          rwa [TtlStore.put_of_ne (Ne.symm hother)]

/-- The entry is dropped after the token has expired only. -/
theorem tick (hbarred : Barred jti exp memory) (ms : ℕ) :
    Barred jti exp ⟨memory.now + ms,
      TtlStore.sweep memory.cache (memory.now + ms)⟩ := by
  rcases hbarred with hexpired | ⟨deadline, hentry, hdeadline⟩
  · rw [tokenExpired_iff] at hexpired
    refine .inl (tokenExpired_iff.mpr ?_)
    push_cast
    omega
  · by_cases hdue : deadline ≤ memory.now + ms
    · refine .inl (tokenExpired_iff.mpr (hdeadline.trans ?_))
      exact_mod_cast hdue
    · refine .inr ⟨deadline, TtlStore.sweep_of_live hentry ?_, hdeadline⟩
      simpa [TtlStore.Entry.due] using hdue

theorem of_step {next : Memory} {event : CacheEvent}
    (hbarred : Barred jti exp memory)
    (hle : ∀ later, event = .add jti later → exp ≤ later)
    (hstep : cacheStep memory event = some next) : Barred jti exp next := by
  cases event with
  | add other later =>
      obtain rfl := Option.some.inj hstep
      refine hbarred.add fun hother => hle later ?_
      rw [hother]
  | tick ms =>
      obtain rfl := Option.some.inj hstep
      exact hbarred.tick ms

/-- Once added the token stays barred, in every run that does not add its
identifier with an earlier expiry. -/
theorem of_run {final : Memory} {events : List CacheEvent}
    (hsame : ∀ later, CacheEvent.add jti later ∈ events → exp ≤ later)
    (hrun : Runs.run cacheStep memory (.add jti exp :: events) = some final) :
    Barred jti exp final := by
  obtain ⟨added, hadd, hrest⟩ := Runs.run_cons_eq_some.mp hrun
  obtain rfl := Option.some.inj hadd
  refine Runs.run_invariant_of_guarded (Barred jti exp)
    (fun memory event next hbarred hle hstep => hbarred.of_step hle hstep)
    (Barred.of_add memory le_rfl) ?_ hrest
  refine Runs.guarded_of_forall fun event hevent middle later heq => ?_
  exact hsame later (heq ▸ hevent)

theorem isRevoked_or_expired (hbarred : Barred jti exp memory) :
    TokenBlacklistService.isRevoked memory.cache jti = true ∨
      tokenExpired memory.now exp = true := by
  rcases hbarred with hexpired | ⟨deadline, hentry, -⟩
  · exact .inr hexpired
  · exact .inl (TokenBlacklistService.isRevoked_of_entry hentry)

end Barred

/-- From the moment a token is added to the memory of an instance, the instance
knows it as revoked or as expired; its guard accepts it at no later moment.
The identifier belongs to one token, so it is not added again with an earlier
expiry. -/
theorem add_leaves_no_gap {memory final : Memory} {jti : String} {exp : ℤ}
    {events : List CacheEvent}
    (hsame : ∀ later, CacheEvent.add jti later ∈ events → exp ≤ later)
    (hrun : Runs.run cacheStep memory (.add jti exp :: events) = some final) :
    (TokenBlacklistService.isRevoked final.cache jti = true ∨
        tokenExpired final.now exp = true) ∧
      ∀ authorization verifyAsync,
        (∀ token payload, verifyAsync token = .ok payload →
          tokenExpired final.now payload.exp = false) →
        (∀ token payload, extractTokenFromHeader authorization = some token →
          verifyAsync token = .ok payload →
            payload.jti = jti ∧ payload.exp = exp) →
        ∃ error, canActivate false authorization verifyAsync final.cache =
          .error error := by
  have hknown := (Barred.of_run hsame hrun).isRevoked_or_expired
  refine ⟨hknown, fun authorization verifyAsync hverify htoken => ?_⟩
  apply exists_error_of_rejects
  intro token payload hheader hpayload
  obtain ⟨hjti, hexp⟩ := htoken token payload hheader hpayload
  have hlive : tokenExpired final.now exp = false :=
    hexp ▸ hverify token payload hpayload
  apply rejects_of_isRevoked
  rw [hjti]
  exact hknown.resolve_right (by simp [hlive])

/-- Added in the last second of the token; the entry outlives the second. -/
theorem add_leaves_no_gap_last_second :
    (TokenBlacklistService.isRevoked
        (TtlStore.sweep (TokenBlacklistService.add TtlStore.empty 9999 "a1" 10)
          10000) "a1" = true ∨ tokenExpired 10000 10 = true) ∧
      ∀ authorization verifyAsync,
        (∀ token payload, verifyAsync token = .ok payload →
          tokenExpired 10000 payload.exp = false) →
        (∀ token payload, extractTokenFromHeader authorization = some token →
          verifyAsync token = .ok payload →
            payload.jti = "a1" ∧ payload.exp = 10) →
        ∃ error, canActivate false authorization verifyAsync
          (TtlStore.sweep (TokenBlacklistService.add TtlStore.empty 9999 "a1" 10)
            10000) = .error error := by
  have hrun : Runs.run cacheStep ⟨9999, TtlStore.empty⟩
      [.add "a1" 10, .tick 1] = some ⟨10000, TtlStore.sweep
        (TokenBlacklistService.add TtlStore.empty 9999 "a1" 10) 10000⟩ := rfl
  exact add_leaves_no_gap (by simp) hrun

end OceanChat.Gateway
