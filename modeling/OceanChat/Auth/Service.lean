import OceanChat.Common.AppException
import OceanChat.Core.HashStore
import OceanChat.Core.Runs

/-!
# The authentication service

Any number of `login`, `refreshToken` and `logout` calls share one Redis.  A
call moves from one awaited command to the next and calls interleave in any
order.  The sessions of a user are the fields of one hash, one field for each
device; a refresh holds a lock for its user and device.
-/

namespace OceanChat.Auth

inductive TokenKind
  | access
  | refresh
  deriving DecidableEq

structure Token where
  kind : TokenKind
  payload : JwtPayload
  deriving DecidableEq

/-- A string where a token is expected, as `JwtService.decode` reads it:
`undated` decodes to a payload without `exp`, `malformed` to nothing. -/
inductive TokenText
  | jwt (token : Token)
  | undated
  | malformed
  deriving DecidableEq

/-- `jwtService.decode(text)?.exp`, if it is truthy. -/
def decodedExp : Option TokenText → Option ℤ
  | some (.jwt token) =>
      if token.payload.exp = 0 then none else some token.payload.exp
  | _ => none

/-- The fields of `ITokenStorage` that the parsed object has. -/
structure TokenStorage where
  accessToken : Option TokenText
  refreshToken : Option TokenText
  accessJti : Option String
  refreshJti : Option String
  lastActive : Option ℕ
  deriving DecidableEq

def TokenStorage.blank : TokenStorage := ⟨none, none, none, none, none⟩

/-- The string stored for a device.  `scalar` is JSON that is neither an object
nor `null`, `malformed` is no JSON, or empty. -/
inductive SessionText
  | object (storage : TokenStorage)
  | scalar
  | null
  | malformed
  deriving DecidableEq

/-- `JSON.parse`; the outer `none` throws, the inner one is `null`. -/
def SessionText.parse : SessionText → Option (Option TokenStorage)
  | .object storage => some (some storage)
  | .scalar => some (some .blank)
  | .null => some none
  | .malformed => none

inductive Message
  | loggedIn (userId deviceId : String) (loginTime : ℕ)
  | revoke (jti : String) (exp : ℤ)
  deriving DecidableEq

/-- The revoke event for the access token of a session. -/
def TokenStorage.revocation (storage : TokenStorage) : List Message :=
  match storage.accessJti, decodedExp storage.accessToken with
  | some jti, some exp => if jti = "" then [] else [.revoke jti exp]
  | _, _ => []

/-- A session that does not parse, or is `null`, is passed over. -/
def SessionText.revocation (text : SessionText) : List Message :=
  match text.parse with
  | some (some storage) => storage.revocation
  | _ => []

/-! ## Exceptions -/

inductive Thrown
  | app (error : AppException)
  | other
  deriving DecidableEq

def unauthorizedException : AppException :=
  domainException "UNAUTHORIZED" ErrorCodes.unauthorized 401

def reusedException : AppException :=
  domainException "REFRESH_TOKEN_REUSED_OR_REVOKED"
    ErrorCodes.refreshTokenReusedOrRevoked 401

def userNotFoundException : AppException :=
  domainException "User_not_found" ErrorCodes.unauthorized 401

def redisClientException : AppException :=
  infrastructureException "Redis_Client_Error" ErrorCodes.tokenRefreshError 500

def tokenRefreshException : AppException :=
  infrastructureException "TOKEN_REFRESH_ERROR" ErrorCodes.tokenRefreshError 500

def sessionStoreException : AppException :=
  infrastructureException "Login_Session_Store_Failed"
    ErrorCodes.unexpectedError 500

/-- The outer `catch` of `refreshToken`. -/
def rethrow : Thrown → AppException
  | .app error => error
  | .other => tokenRefreshException

/-! ## Calls -/

structure User where
  userId : String
  username : String
  deviceId : String
  deriving DecidableEq

structure TokenPair where
  accessToken : Token
  refreshToken : Token
  deriving DecidableEq

inductive LoginPhase
  | sign
  | store (pair : TokenPair) (lastActive : ℕ)
  | finished (result : Except Thrown TokenPair)
  | crashed
  deriving DecidableEq

/-- `scan` and `revokeAll` belong to a detected replay, `release` is the
`finally` block. -/
inductive RefreshPhase
  | acquire
  | read
  | scan
  | revokeAll
  | lookup (storage : TokenStorage)
  | sign (storage : TokenStorage) (username : String)
  | store (storage : TokenStorage) (pair : TokenPair) (lastActive : ℕ)
  | release (result : Except AppException TokenPair)
  | finished (result : Except AppException TokenPair)
  | crashed
  deriving DecidableEq

/-- The answer of a logout is the number of sessions removed. -/
inductive LogoutPhase
  | read
  | delete
  | finished (result : Option ℕ)
  | crashed
  deriving DecidableEq

/-- `refused` is a `refreshToken` call whose token did not verify. -/
inductive Call
  | login (user : User) (phase : LoginPhase)
  | refresh (payload : JwtPayload) (lockValue : String) (phase : RefreshPhase)
  | refused (error : AppException)
  | logout (userId deviceId : String) (phase : LogoutPhase)
  deriving DecidableEq

abbrev Sessions := HashStore.Store String String SessionText
abbrev Locks := TtlStore.Store String String

/-- `signed` are all tokens ever signed, `published` the messages handed to the
publisher.  Times are milliseconds. -/
structure State where
  now : ℕ
  sessions : Sessions
  locks : Locks
  signed : List Token
  published : List Message
  calls : ℕ → Option Call

def State.initial : State where
  now := 0
  sessions := HashStore.empty
  locks := TtlStore.empty
  signed := []
  published := []
  calls := fun _ => none

/-- The lifetimes of the tokens, whole numbers of seconds.  `EXPIRE` takes only
a positive one. -/
structure Config where
  accessExpiresIn : ℕ
  refreshExpiresIn : ℕ
  refresh_pos : 0 < refreshExpiresIn

/-- The answer of the user service; the user it finds has the identifier that was
asked for. -/
inductive UserAnswer
  | found (username : String)
  | notFound
  | threw (error : AppException)

/-- `jtis` are the two fresh identifiers of a pair, `none` when signing throws.
A `tick` lets time pass. -/
inductive Event
  | login (id : ℕ) (user : User)
  | refresh (id : ℕ) (oldRefreshToken : TokenText) (lockValue : String)
  | logout (id : ℕ) (userId deviceId : String)
  | setnx (id : ℕ) (reply : Reply)
  | hget (id : ℕ) (reply : Reply)
  | hgetall (id : ℕ) (reply : Reply)
  | del (id : ℕ) (reply : Reply)
  | findOneById (id : ℕ) (answer : UserAnswer)
  | sign (id : ℕ) (jtis : Option (String × String))
  | exec (id jitter : ℕ) (reply : Reply)
  | release (id : ℕ) (reply : Reply)
  | hdel (id : ℕ) (reply : Reply)
  | crash (id : ℕ)
  | tick (ms : ℕ)

def getUserKey (userId : String) : String := "auth:user:" ++ userId

theorem getUserKey_injective : Function.Injective getUserKey := by
  intro left right heq
  simpa [getUserKey] using heq

def lockKey (userId deviceId : String) : String :=
  "auth:refresh:lock:" ++ userId ++ ":" ++ deviceId

theorem lockKey_eq (userId deviceId : String) : lockKey userId deviceId =
    "auth:refresh:lock:" ++ userId ++ ":" ++ deviceId := rfl

/-- No session key is a lock key, so sessions and locks never meet. -/
theorem getUserKey_ne_lockKey (user userId deviceId : String) :
    getUserKey user ≠ lockKey userId deviceId := by
  intro heq
  have hletter := congrArg (fun text => (text.toList.drop 5).head?) heq
  simp [getUserKey, lockKey_eq] at hletter

/-- The lifetime of a refresh lock in seconds. -/
def lockTtl : ℕ := 10

def State.setCall (state : State) (id : ℕ) (call : Call) : State :=
  { state with calls := Function.update state.calls id (some call) }

def State.session (state : State) (userId deviceId : String) :
    Option SessionText :=
  HashStore.hget state.sessions (getUserKey userId) deviceId

/-! ## Tokens -/

/-- A token has expired once the current second reaches its expiry time. -/
def expired (now : ℕ) (token : Token) : Bool :=
  decide (token.payload.exp ≤ (now / 1000 : ℕ))

/-- `verifyAsync` with the key of the refresh tokens. -/
def verifyRefresh (state : State) : TokenText → Option JwtPayload
  | .jwt token =>
      if token.kind = .refresh ∧ token ∈ state.signed ∧
          expired state.now token = false then
        some token.payload
      else none
  | _ => none

/-- Identifiers are not empty and never used twice. -/
def freshJtis (signed : List Token) (accessJti refreshJti : String) : Bool :=
  accessJti != "" && refreshJti != "" && accessJti != refreshJti &&
    signed.all fun token =>
      token.payload.jti != accessJti && token.payload.jti != refreshJti

def signTokens (config : Config) (now : ℕ) (user : User)
    (accessJti refreshJti : String) : TokenPair where
  accessToken := ⟨.access, {
    sub := user.userId
    username := user.username
    jti := accessJti
    deviceId := user.deviceId
    exp := (now / 1000 + config.accessExpiresIn : ℕ) }⟩
  refreshToken := ⟨.refresh, {
    sub := user.userId
    username := user.username
    jti := refreshJti
    deviceId := user.deviceId
    exp := (now / 1000 + config.refreshExpiresIn : ℕ) }⟩

/-- The session of a new pair. -/
def tokenStorage (pair : TokenPair) (lastActive : ℕ) : TokenStorage where
  accessToken := some (.jwt pair.accessToken)
  refreshToken := some (.jwt pair.refreshToken)
  accessJti := some pair.accessToken.payload.jti
  refreshJti := some pair.refreshToken.payload.jti
  lastActive := some lastActive

/-- The transaction of `generateTokens`: `HSET`, then `EXPIRE` for the whole
hash. -/
def storeSession (config : Config) (sessions : Sessions) (now jitter : ℕ)
    (userId deviceId : String) (storage : TokenStorage) : Sessions :=
  HashStore.expire
    (HashStore.hset sessions (getUserKey userId) deviceId (.object storage))
    (getUserKey userId)
    (now + (config.refreshExpiresIn + jitter) * 1000)

/-- `Math.floor(Math.random() * refreshTtl * 0.1)`. -/
def jitterAllowed (config : Config) (jitter : ℕ) : Bool :=
  decide (10 * jitter ≤ config.refreshExpiresIn)

/-! ## Steps -/

/-- Where the `setnx` of a refresh leads. -/
def afterSetnx (reply : Reply) (isLockAcquired : Bool) : RefreshPhase :=
  if reply = .ok then
    if isLockAcquired then .read else .finished (.error reusedException)
  else .finished (.error redisClientException)

/-- Where the `hget` of a refresh leads.  Reading a field of `null` throws. -/
def afterHget (payload : JwtPayload) (storageStr : Option SessionText) :
    RefreshPhase :=
  match storageStr.map SessionText.parse with
  | none | some none => .release (.error reusedException)
  | some (some none) => .release (.error (rethrow .other))
  | some (some (some storage)) =>
      if storage.refreshJti = some payload.jti then .lookup storage else .scan

/-- Where the user lookup of a refresh leads. -/
def afterLookup (storage : TokenStorage) : UserAnswer → RefreshPhase
  | .found username => .sign storage username
  | .notFound => .release (.error userNotFoundException)
  | .threw error => .release (.error (rethrow (.app error)))

/-- The calls that still await something. -/
def Call.pending : Call → Bool
  | .login _ (.finished _) | .login _ .crashed => false
  | .refresh _ _ (.finished _) | .refresh _ _ .crashed => false
  | .refused _ => false
  | .logout _ _ (.finished _) | .logout _ _ .crashed => false
  | _ => true

def Call.crash : Call → Call
  | .login user _ => .login user .crashed
  | .refresh payload lockValue _ => .refresh payload lockValue .crashed
  | .refused error => .refused error
  | .logout userId deviceId _ => .logout userId deviceId .crashed

/-- One event of the system.  A command of Redis takes effect together with the
code of its caller up to the next command. -/
def step (config : Config) (state : State) : Event → Option State
  | .login id user =>
      if (state.calls id).isNone then
        some (state.setCall id (.login user .sign))
      else none
  | .refresh id oldRefreshToken lockValue =>
      if (state.calls id).isNone then
        some (state.setCall id
          (match verifyRefresh state oldRefreshToken with
          | some payload => .refresh payload lockValue .acquire
          | none => .refused unauthorizedException))
      else none
  | .logout id userId deviceId =>
      if (state.calls id).isNone then
        some (state.setCall id (.logout userId deviceId .read))
      else none
  | .setnx id reply =>
      match state.calls id with
      | some (.refresh payload lockValue .acquire) =>
          let (locks, isLockAcquired) := TtlStore.setnx state.locks
            (lockKey payload.sub payload.deviceId) lockValue
            (some (state.now + lockTtl * 1000))
          some (State.setCall
            { state with locks := if reply.took then locks else state.locks } id
            (.refresh payload lockValue (afterSetnx reply isLockAcquired)))
      | _ => none
  | .hget id reply =>
      match state.calls id with
      | some (.refresh payload lockValue .read) =>
          some (state.setCall id (.refresh payload lockValue
            (if reply = .ok then
              afterHget payload (state.session payload.sub payload.deviceId)
            else .release (.error (rethrow .other)))))
      | some (.logout userId deviceId .read) =>
          let revocation := if reply = .ok then
            ((state.session userId deviceId).map SessionText.revocation).getD []
          else []
          some (State.setCall
            { state with published := state.published ++ revocation } id
            (.logout userId deviceId .delete))
      | _ => none
  | .hgetall id reply =>
      match state.calls id with
      | some (.refresh payload lockValue .scan) =>
          if reply = .ok then
            let allSessions :=
              HashStore.hgetall state.sessions (getUserKey payload.sub)
            some (State.setCall
              { state with published :=
                  state.published ++ allSessions.flatMap SessionText.revocation }
              id (.refresh payload lockValue .revokeAll))
          else
            some (state.setCall id (.refresh payload lockValue
              (.release (.error (rethrow .other)))))
      | _ => none
  | .del id reply =>
      match state.calls id with
      | some (.refresh payload lockValue .revokeAll) =>
          some (State.setCall
            { state with sessions := if reply.took then
                HashStore.del state.sessions (getUserKey payload.sub)
              else state.sessions } id
            (.refresh payload lockValue (.release (.error
              (if reply = .ok then reusedException else rethrow .other)))))
      | _ => none
  | .findOneById id answer =>
      match state.calls id with
      | some (.refresh payload lockValue (.lookup storage)) =>
          some (state.setCall id
            (.refresh payload lockValue (afterLookup storage answer)))
      | _ => none
  | .sign id none =>
      match state.calls id with
      | some (.login user .sign) =>
          some (state.setCall id (.login user (.finished (.error .other))))
      | some (.refresh payload lockValue (.sign _ _)) =>
          some (state.setCall id (.refresh payload lockValue
            (.release (.error (rethrow .other)))))
      | _ => none
  | .sign id (some (accessJti, refreshJti)) =>
      if freshJtis state.signed accessJti refreshJti then
        match state.calls id with
        | some (.login user .sign) =>
            let pair := signTokens config state.now user accessJti refreshJti
            some (State.setCall
              { state with signed :=
                  pair.accessToken :: pair.refreshToken :: state.signed } id
              (.login user (.store pair state.now)))
        | some (.refresh payload lockValue (.sign storage username)) =>
            let pair := signTokens config state.now
              ⟨payload.sub, username, payload.deviceId⟩ accessJti refreshJti
            some (State.setCall
              { state with signed :=
                  pair.accessToken :: pair.refreshToken :: state.signed } id
              (.refresh payload lockValue (.store storage pair state.now)))
        | _ => none
      else none
  | .exec id jitter reply =>
      if jitterAllowed config jitter then
        match state.calls id with
        | some (.login user (.store pair lastActive)) =>
            some (State.setCall
              { state with
                sessions := if reply.took then
                    storeSession config state.sessions state.now jitter
                      user.userId user.deviceId (tokenStorage pair lastActive)
                  else state.sessions
                published := if reply = .ok then state.published ++
                    [.loggedIn user.userId user.deviceId state.now]
                  else state.published } id
              (.login user (.finished (if reply = .ok then .ok pair
                else .error (.app sessionStoreException)))))
        | some (.refresh payload lockValue (.store storage pair lastActive)) =>
            some (State.setCall
              { state with
                sessions := if reply.took then
                    storeSession config state.sessions state.now jitter
                      payload.sub payload.deviceId
                      (tokenStorage pair lastActive)
                  else state.sessions
                published := if reply = .ok then
                    state.published ++ storage.revocation
                  else state.published } id
              (.refresh payload lockValue (.release (if reply = .ok then .ok pair
                else .error (rethrow (.app sessionStoreException))))))
        | _ => none
      else none
  | .release id reply =>
      match state.calls id with
      | some (.refresh payload lockValue (.release result)) =>
          some (State.setCall
            { state with
              locks := if reply.took then
                  TtlStore.delIfEqual state.locks
                    (lockKey payload.sub payload.deviceId) lockValue
                else state.locks } id
            (.refresh payload lockValue (.finished result)))
      | _ => none
  | .hdel id reply =>
      match state.calls id with
      | some (.logout userId deviceId .delete) =>
          let (sessions, removed) :=
            HashStore.hdel state.sessions (getUserKey userId) deviceId
          some (State.setCall
            { state with
              sessions := if reply.took then sessions else state.sessions } id
            (.logout userId deviceId
              (.finished (if reply = .ok then some removed else none))))
      | _ => none
  | .crash id =>
      match state.calls id with
      | some call =>
          if call.pending then some (state.setCall id call.crash) else none
      | none => none
  | .tick ms =>
      let now := state.now + ms
      some { state with
        now := now
        sessions := HashStore.sweep state.sessions now
        locks := TtlStore.sweep state.locks now }

/-! ## What a step can do -/

/-- Everything one step can do. -/
inductive Effect (config : Config) (state : State) : Event → State → Prop
  | login (id : ℕ) (user : User) (hnone : state.calls id = none) :
      Effect config state (.login id user)
        (state.setCall id (.login user .sign))
  | refresh (id : ℕ) (text : TokenText) (lockValue : String)
      (payload : JwtPayload) (hnone : state.calls id = none)
      (hverify : verifyRefresh state text = some payload) :
      Effect config state (.refresh id text lockValue)
        (state.setCall id (.refresh payload lockValue .acquire))
  | refuse (id : ℕ) (text : TokenText) (lockValue : String)
      (hnone : state.calls id = none) :
      Effect config state (.refresh id text lockValue)
        (state.setCall id (.refused unauthorizedException))
  | logout (id : ℕ) (userId deviceId : String)
      (hnone : state.calls id = none) :
      Effect config state (.logout id userId deviceId)
        (state.setCall id (.logout userId deviceId .read))
  | setnx (id : ℕ) (reply : Reply) (payload : JwtPayload) (lockValue : String)
      (hcall : state.calls id = some (.refresh payload lockValue .acquire)) :
      Effect config state (.setnx id reply) (State.setCall
        { state with locks := if reply.took then
            (TtlStore.setnx state.locks (lockKey payload.sub payload.deviceId)
              lockValue (some (state.now + lockTtl * 1000))).1
          else state.locks } id
        (.refresh payload lockValue (afterSetnx reply
          (TtlStore.setnx state.locks (lockKey payload.sub payload.deviceId)
            lockValue (some (state.now + lockTtl * 1000))).2)))
  | read (id : ℕ) (reply : Reply) (payload : JwtPayload) (lockValue : String)
      (hcall : state.calls id = some (.refresh payload lockValue .read)) :
      Effect config state (.hget id reply)
        (state.setCall id (.refresh payload lockValue
          (if reply = .ok then
            afterHget payload (state.session payload.sub payload.deviceId)
          else .release (.error (rethrow .other)))))
  | readLogout (id : ℕ) (reply : Reply) (userId deviceId : String)
      (hcall : state.calls id = some (.logout userId deviceId .read)) :
      Effect config state (.hget id reply) (State.setCall
        { state with published := state.published ++ if reply = .ok then
            ((state.session userId deviceId).map SessionText.revocation).getD []
          else [] } id (.logout userId deviceId .delete))
  | scan (id : ℕ) (payload : JwtPayload) (lockValue : String)
      (hcall : state.calls id = some (.refresh payload lockValue .scan)) :
      Effect config state (.hgetall id .ok) (State.setCall
        { state with published := state.published ++
            (HashStore.hgetall state.sessions
              (getUserKey payload.sub)).flatMap SessionText.revocation } id
        (.refresh payload lockValue .revokeAll))
  | scanFails (id : ℕ) (reply : Reply) (payload : JwtPayload)
      (lockValue : String) (hreply : reply ≠ .ok)
      (hcall : state.calls id = some (.refresh payload lockValue .scan)) :
      Effect config state (.hgetall id reply)
        (state.setCall id (.refresh payload lockValue
          (.release (.error (rethrow .other)))))
  | revokeAll (id : ℕ) (reply : Reply) (payload : JwtPayload)
      (lockValue : String)
      (hcall : state.calls id = some (.refresh payload lockValue .revokeAll)) :
      Effect config state (.del id reply) (State.setCall
        { state with sessions := if reply.took then
            HashStore.del state.sessions (getUserKey payload.sub)
          else state.sessions } id
        (.refresh payload lockValue (.release (.error
          (if reply = .ok then reusedException else rethrow .other)))))
  | lookup (id : ℕ) (answer : UserAnswer) (payload : JwtPayload)
      (lockValue : String) (storage : TokenStorage)
      (hcall : state.calls id =
        some (.refresh payload lockValue (.lookup storage))) :
      Effect config state (.findOneById id answer)
        (state.setCall id
          (.refresh payload lockValue (afterLookup storage answer)))
  | signFailsLogin (id : ℕ) (user : User)
      (hcall : state.calls id = some (.login user .sign)) :
      Effect config state (.sign id none)
        (state.setCall id (.login user (.finished (.error .other))))
  | signFails (id : ℕ) (payload : JwtPayload) (lockValue : String)
      (storage : TokenStorage) (username : String)
      (hcall : state.calls id =
        some (.refresh payload lockValue (.sign storage username))) :
      Effect config state (.sign id none)
        (state.setCall id (.refresh payload lockValue
          (.release (.error (rethrow .other)))))
  | signLogin (id : ℕ) (accessJti refreshJti : String) (user : User)
      (pair : TokenPair)
      (hfresh : freshJtis state.signed accessJti refreshJti = true)
      (hpair : pair = signTokens config state.now user accessJti refreshJti)
      (hcall : state.calls id = some (.login user .sign)) :
      Effect config state (.sign id (some (accessJti, refreshJti)))
        (State.setCall
          { state with signed :=
              pair.accessToken :: pair.refreshToken :: state.signed } id
          (.login user (.store pair state.now)))
  | sign (id : ℕ) (accessJti refreshJti : String) (payload : JwtPayload)
      (lockValue : String) (storage : TokenStorage) (username : String)
      (pair : TokenPair)
      (hfresh : freshJtis state.signed accessJti refreshJti = true)
      (hpair : pair = signTokens config state.now
        ⟨payload.sub, username, payload.deviceId⟩ accessJti refreshJti)
      (hcall : state.calls id =
        some (.refresh payload lockValue (.sign storage username))) :
      Effect config state (.sign id (some (accessJti, refreshJti)))
        (State.setCall
          { state with signed :=
              pair.accessToken :: pair.refreshToken :: state.signed } id
          (.refresh payload lockValue (.store storage pair state.now)))
  | storeLogin (id jitter : ℕ) (reply : Reply) (user : User)
      (pair : TokenPair) (lastActive : ℕ)
      (hcall : state.calls id = some (.login user (.store pair lastActive))) :
      Effect config state (.exec id jitter reply) (State.setCall
        { state with
          sessions := if reply.took then
              storeSession config state.sessions state.now jitter
                user.userId user.deviceId (tokenStorage pair lastActive)
            else state.sessions
          published := if reply = .ok then state.published ++
              [.loggedIn user.userId user.deviceId state.now]
            else state.published } id
        (.login user (.finished (if reply = .ok then .ok pair
          else .error (.app sessionStoreException)))))
  | store (id jitter : ℕ) (reply : Reply) (payload : JwtPayload)
      (lockValue : String) (storage : TokenStorage) (pair : TokenPair)
      (lastActive : ℕ)
      (hcall : state.calls id =
        some (.refresh payload lockValue (.store storage pair lastActive))) :
      Effect config state (.exec id jitter reply) (State.setCall
        { state with
          sessions := if reply.took then
              storeSession config state.sessions state.now jitter
                payload.sub payload.deviceId (tokenStorage pair lastActive)
            else state.sessions
          published := if reply = .ok then
              state.published ++ storage.revocation
            else state.published } id
        (.refresh payload lockValue (.release (if reply = .ok then .ok pair
          else .error (rethrow (.app sessionStoreException))))))
  | release (id : ℕ) (reply : Reply) (payload : JwtPayload)
      (lockValue : String) (result : Except AppException TokenPair)
      (hcall : state.calls id =
        some (.refresh payload lockValue (.release result))) :
      Effect config state (.release id reply) (State.setCall
        { state with
          locks := if reply.took then
              TtlStore.delIfEqual state.locks
                (lockKey payload.sub payload.deviceId) lockValue
            else state.locks } id
        (.refresh payload lockValue (.finished result)))
  | hdel (id : ℕ) (reply : Reply) (userId deviceId : String)
      (hcall : state.calls id = some (.logout userId deviceId .delete)) :
      Effect config state (.hdel id reply) (State.setCall
        { state with sessions := if reply.took then
            (HashStore.hdel state.sessions (getUserKey userId) deviceId).1
          else state.sessions } id
        (.logout userId deviceId (.finished (if reply = .ok then
          some (HashStore.hdel state.sessions (getUserKey userId) deviceId).2
          else none))))
  | crash (id : ℕ) (call : Call) (hcall : state.calls id = some call)
      (hpending : call.pending = true) :
      Effect config state (.crash id) (state.setCall id call.crash)
  | tick (ms : ℕ) :
      Effect config state (.tick ms) { state with
        now := state.now + ms
        sessions := HashStore.sweep state.sessions (state.now + ms)
        locks := TtlStore.sweep state.locks (state.now + ms) }

theorem step_effect {config : Config} {state next : State} {event : Event}
    (hstep : step config state event = some next) :
    Effect config state event next := by
  cases event with
  | login id user =>
      obtain ⟨hnone, rfl⟩ : (state.calls id).isNone ∧ _ = next := by
        simpa [step] using hstep
      exact .login id user (Option.isNone_iff_eq_none.mp hnone)
  | refresh id text lockValue =>
      obtain ⟨hnone, rfl⟩ : (state.calls id).isNone ∧ _ = next := by
        simpa [step] using hstep
      rw [Option.isNone_iff_eq_none] at hnone
      cases hverify : verifyRefresh state text with
      | none => exact .refuse id text lockValue hnone
      | some payload => exact .refresh id text lockValue payload hnone hverify
  | logout id userId deviceId =>
      obtain ⟨hnone, rfl⟩ : (state.calls id).isNone ∧ _ = next := by
        simpa [step] using hstep
      exact .logout id userId deviceId (Option.isNone_iff_eq_none.mp hnone)
  | setnx id reply =>
      simp only [step] at hstep
      split at hstep
      · rename_i payload lockValue hcall
        cases hstep
        exact .setnx id reply payload lockValue hcall
      · cases hstep
  | hget id reply =>
      simp only [step] at hstep
      split at hstep
      · rename_i payload lockValue hcall
        cases hstep
        exact .read id reply payload lockValue hcall
      · rename_i userId deviceId hcall
        cases hstep
        exact .readLogout id reply userId deviceId hcall
      · cases hstep
  | hgetall id reply =>
      simp only [step] at hstep
      split at hstep
      · rename_i payload lockValue hcall
        by_cases hreply : reply = .ok
        · subst hreply
          cases hstep
          exact .scan id payload lockValue hcall
        · rw [if_neg hreply] at hstep
          cases hstep
          exact .scanFails id reply payload lockValue hreply hcall
      · cases hstep
  | del id reply =>
      simp only [step] at hstep
      split at hstep
      · rename_i payload lockValue hcall
        cases hstep
        exact .revokeAll id reply payload lockValue hcall
      · cases hstep
  | findOneById id answer =>
      simp only [step] at hstep
      split at hstep
      · rename_i payload lockValue storage hcall
        cases hstep
        exact .lookup id answer payload lockValue storage hcall
      · cases hstep
  | sign id jtis =>
      cases jtis with
      | none =>
          simp only [step] at hstep
          split at hstep
          · rename_i user hcall
            cases hstep
            exact .signFailsLogin id user hcall
          · rename_i payload lockValue storage username hcall
            cases hstep
            exact .signFails id payload lockValue storage username hcall
          · cases hstep
      | some jtis =>
          simp only [step] at hstep
          split at hstep
          · rename_i hfresh
            split at hstep
            · rename_i user hcall
              cases hstep
              exact .signLogin id jtis.1 jtis.2 user _ hfresh rfl hcall
            · rename_i payload lockValue storage username hcall
              cases hstep
              exact .sign id jtis.1 jtis.2 payload lockValue storage username _
                hfresh rfl hcall
            · cases hstep
          · cases hstep
  | exec id jitter reply =>
      simp only [step] at hstep
      split at hstep
      · split at hstep
        · rename_i user pair lastActive hcall
          cases hstep
          exact .storeLogin id jitter reply user pair lastActive hcall
        · rename_i payload lockValue storage pair lastActive hcall
          cases hstep
          exact .store id jitter reply payload lockValue storage pair lastActive
            hcall
        · cases hstep
      · cases hstep
  | release id reply =>
      simp only [step] at hstep
      split at hstep
      · rename_i payload lockValue result hcall
        cases hstep
        exact .release id reply payload lockValue result hcall
      · cases hstep
  | hdel id reply =>
      simp only [step] at hstep
      split at hstep
      · rename_i userId deviceId hcall
        cases hstep
        exact .hdel id reply userId deviceId hcall
      · cases hstep
  | crash id =>
      simp only [step] at hstep
      split at hstep
      · rename_i call hcall
        split at hstep
        · rename_i hpending
          cases hstep
          exact .crash id call hcall hpending
        · cases hstep
      · cases hstep
  | tick ms =>
      cases hstep
      exact .tick ms

/-! ## Undisturbed calls -/

/-- The default lifetimes. -/
def Config.default : Config := ⟨15 * 60, 7 * 24 * 60 * 60, by decide⟩

/-- The refresh token of a first login on the phone. -/
def firstToken : Token :=
  (signTokens .default 0 ⟨"u1", "alice", "phone"⟩ "a1" "r1").refreshToken

def loginEvents (id : ℕ) (user : User) (accessJti refreshJti : String) :
    List Event :=
  [.login id user, .sign id (some (accessJti, refreshJti)), .exec id 0 .ok]

/-- A refresh up to the user lookup. -/
def checkEvents (id : ℕ) (oldRefreshToken : Token) (lockValue : String) :
    List Event :=
  [.refresh id (.jwt oldRefreshToken) lockValue, .setnx id .ok, .hget id .ok]

/-- A refresh from the user lookup on. -/
def rotateEvents (id : ℕ) (username accessJti refreshJti : String) :
    List Event :=
  [.findOneById id (.found username),
    .sign id (some (accessJti, refreshJti)), .exec id 0 .ok, .release id .ok]

/-- The end of a refresh that has detected a replay. -/
def revokeEvents (id : ℕ) : List Event :=
  [.hgetall id .ok, .del id .ok, .release id .ok]

end OceanChat.Auth
