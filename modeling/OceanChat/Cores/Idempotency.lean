import OceanChat.Common.AppException
import OceanChat.Core.Runs

/-!
# The idempotency interceptor

Requests that carry an idempotency key share the Redis store.  The first one
leaves a processing entry there, runs its handler and replaces the entry by the
cached response; the others are answered from the entry.  A request moves from
one awaited command to the next, and requests interleave in any order.
-/

namespace OceanChat.Idempotency

/-- The values of the shared store, read as JSON: the two cached responses,
any other JSON value, and text that is not JSON. -/
inductive Stored
  | processing
  | completed (statusCode : ℕ) (body : String)
  | other (text : String)
  | invalid (text : String)
  deriving DecidableEq

abbrev Redis := TtlStore.Store String Stored

def getIdempotencyRedisKey (idempotencyKey : String) : String :=
  "idempotency:" ++ idempotencyKey

theorem getIdempotencyRedisKey_injective :
    Function.Injective getIdempotencyRedisKey := by
  intro left right heq
  simpa [getIdempotencyRedisKey] using heq

/-- Default TTL in seconds if not specified on the route. -/
def defaultCacheTtl : ℕ := 30 * 60

def defaultJitter : ℕ := 5 * 60

/-- The lifetime of the processing entry in seconds. -/
def processingTtl : ℕ := 60

def methodsToCheck : List String := ["POST", "PUT", "PATCH"]

def conflictException : AppException :=
  domainException "IDEMPOTENCY_CONFLICT" ErrorCodes.idempotencyConflict 409

/-- `idempotencyKey` is the header as the client sent it, `cacheTtl` the option
of the route. -/
structure Request where
  method : String
  idempotencyKey : Option String
  cacheTtl : Option ℕ
  deriving DecidableEq

/-- The key of the request in the store; without one the interceptor does
nothing. -/
def Request.redisKey (request : Request) : Option String :=
  if request.method ∈ methodsToCheck then
    (request.idempotencyKey.filter (· ≠ "")).map getIdempotencyRedisKey
  else none

inductive Answer
  | responded (statusCode : ℕ) (body : String)
  | conflict (error : AppException)
  | handlerThrew
  | commandThrew
  deriving DecidableEq

/-- What a request awaits: its handler, with or without an entry of its own, or
a command.  `clearing` removes the entry after a response that is not cached,
`recovering` after an exception. -/
inductive Phase
  | passing
  | acquiring
  | reading
  | handling
  | caching (statusCode : ℕ) (body : String)
  | clearing (statusCode : ℕ) (body : String)
  | recovering (answer : Answer)
  | finished (answer : Answer)
  | crashed
  deriving DecidableEq

structure Pending where
  request : Request
  phase : Phase
  deriving DecidableEq

structure State where
  now : ℕ
  redis : Redis
  requests : ℕ → Option Pending

/-- No request has been made; the store holds what is still alive. -/
def State.initial (now : ℕ) (redis : Redis) : State where
  now := now
  redis := TtlStore.sweep redis now
  requests := fun _ => none

/-- How the handler of a request ends. -/
inductive HandlerResult
  | responded (statusCode : ℕ) (body : String)
  | threw

inductive Event
  | request (id : ℕ) (request : Request)
  | setnx (id : ℕ) (reply : Reply)
  | get (id : ℕ) (reply : Reply)
  | handle (id : ℕ) (result : HandlerResult)
  | set (id jitter : ℕ) (reply : Reply)
  | del (id : ℕ) (reply : Reply)
  | crash (id : ℕ)
  | tick (ms : ℕ)

def State.setPhase (state : State) (id : ℕ) (request : Request)
    (phase : Phase) : State :=
  { state with
    requests := Function.update state.requests id (some ⟨request, phase⟩) }

@[simp]
theorem State.requests_setPhase_same (state : State) (id : ℕ)
    (request : Request) (phase : Phase) :
    (state.setPhase id request phase).requests id = some ⟨request, phase⟩ := by
  simp [State.setPhase]

/-- The answer from the entry that another request left. -/
def answerFromCache : Option Stored → Answer
  | some (.completed statusCode body) => .responded statusCode body
  | some (.invalid _) => .commandThrew
  | _ => .conflict conflictException

/-- Where the handler's end leads: only a `2xx` response is cached. -/
def afterHandler : HandlerResult → Phase
  | .threw => .recovering .handlerThrew
  | .responded statusCode body =>
      if 200 ≤ statusCode ∧ statusCode < 300 then .caching statusCode body
      else .clearing statusCode body

/-- The lifetime of a cached response; `SET` without a positive lifetime keeps
the entry for good. -/
def cacheDeadline (now : ℕ) (request : Request) (jitter : ℕ) : Option ℕ :=
  let ttl := request.cacheTtl.getD defaultCacheTtl + jitter
  if ttl = 0 then none else some (now + ttl * 1000)

def step (state : State) : Event → Option State
  | .request id request =>
      match state.requests id with
      | some _ => none
      | none =>
          some (state.setPhase id request
            (if request.redisKey.isSome then .acquiring else .passing))
  | .setnx id reply =>
      match state.requests id with
      | some ⟨request, .acquiring⟩ =>
          request.redisKey.map fun key =>
            let (redis, lockAcquired) := TtlStore.setnx state.redis key
              .processing (some (state.now + processingTtl * 1000))
            State.setPhase
              (if reply.took then { state with redis := redis } else state)
              id request
              (if reply = .ok then
                if lockAcquired then .handling else .reading
              else .finished .commandThrew)
      | _ => none
  | .get id reply =>
      match state.requests id with
      | some ⟨request, .reading⟩ =>
          request.redisKey.map fun key =>
            state.setPhase id request (.finished
              (if reply = .ok then
                answerFromCache (TtlStore.get state.redis key)
              else .commandThrew))
      | _ => none
  | .handle id result =>
      match state.requests id with
      | some ⟨request, .passing⟩ =>
          some (state.setPhase id request (.finished
            (match result with
            | .responded statusCode body => .responded statusCode body
            | .threw => .handlerThrew)))
      | some ⟨request, .handling⟩ =>
          some (state.setPhase id request (afterHandler result))
      | _ => none
  | .set id jitter reply =>
      match state.requests id with
      | some ⟨request, .caching statusCode body⟩ =>
          if jitter < defaultJitter then
            request.redisKey.map fun key =>
              State.setPhase
                (if reply.took then
                  { state with
                    redis := TtlStore.put state.redis key
                      (.completed statusCode body)
                      (cacheDeadline state.now request jitter) }
                else state)
                id request
                (if reply = .ok then .finished (.responded statusCode body)
                else .recovering .commandThrew)
          else none
      | _ => none
  | .del id reply =>
      match state.requests id with
      | some ⟨request, .clearing statusCode body⟩ =>
          request.redisKey.map fun key =>
            State.setPhase
              (if reply.took then
                { state with redis := TtlStore.del state.redis key }
              else state)
              id request
              (if reply = .ok then .finished (.responded statusCode body)
              else .recovering .commandThrew)
      | some ⟨request, .recovering answer⟩ =>
          request.redisKey.map fun key =>
            State.setPhase
              (if reply.took then
                { state with redis := TtlStore.del state.redis key }
              else state)
              id request
              (.finished (if reply = .ok then answer else .commandThrew))
      | _ => none
  | .crash id =>
      match state.requests id with
      | some ⟨_, .finished _⟩ => none
      | some ⟨request, _⟩ => some (state.setPhase id request .crashed)
      | none => none
  | .tick ms =>
      some { state with
        now := state.now + ms
        redis := TtlStore.sweep state.redis (state.now + ms) }

/-! ## What a step can do -/

def Event.target : Event → Option ℕ
  | .request id _ | .setnx id _ | .get id _ | .handle id _ | .set id _ _
  | .del id _ | .crash id => some id
  | .tick _ => none

/-- Everything one step can do. -/
inductive Effect (state : State) : Event → State → Prop
  | requested (id : ℕ) (request : Request) (hnone : state.requests id = none) :
      Effect state (.request id request) (state.setPhase id request
        (if request.redisKey.isSome then .acquiring else .passing))
  | acquired (id : ℕ) (reply : Reply) (request : Request) (key : String)
      (hrequest : state.requests id = some ⟨request, .acquiring⟩)
      (hkey : request.redisKey = some key) :
      Effect state (.setnx id reply) (State.setPhase
        (if reply.took then
          { state with
            redis := (TtlStore.setnx state.redis key .processing
              (some (state.now + processingTtl * 1000))).1 }
        else state) id request
        (if reply = .ok then
          if (TtlStore.setnx state.redis key .processing
            (some (state.now + processingTtl * 1000))).2 then .handling
          else .reading
        else .finished .commandThrew))
  | read (id : ℕ) (reply : Reply) (request : Request) (key : String)
      (hrequest : state.requests id = some ⟨request, .reading⟩)
      (hkey : request.redisKey = some key) :
      Effect state (.get id reply) (state.setPhase id request (.finished
        (if reply = .ok then answerFromCache (TtlStore.get state.redis key)
        else .commandThrew)))
  | passed (id : ℕ) (result : HandlerResult) (request : Request)
      (answer : Answer)
      (hrequest : state.requests id = some ⟨request, .passing⟩) :
      Effect state (.handle id result)
        (state.setPhase id request (.finished answer))
  | handled (id : ℕ) (result : HandlerResult) (request : Request)
      (hrequest : state.requests id = some ⟨request, .handling⟩) :
      Effect state (.handle id result)
        (state.setPhase id request (afterHandler result))
  | stored (id jitter : ℕ) (reply : Reply) (request : Request) (key : String)
      (statusCode : ℕ) (body : String)
      (hrequest : state.requests id = some ⟨request, .caching statusCode body⟩)
      (hkey : request.redisKey = some key) :
      Effect state (.set id jitter reply) (State.setPhase
        (if reply.took then
          { state with
            redis := TtlStore.put state.redis key (.completed statusCode body)
              (cacheDeadline state.now request jitter) }
        else state) id request
        (if reply = .ok then .finished (.responded statusCode body)
        else .recovering .commandThrew))
  | removed (id : ℕ) (reply : Reply) (request : Request) (key : String)
      (before after : Phase)
      (hrequest : state.requests id = some ⟨request, before⟩)
      (hkey : request.redisKey = some key)
      (hcleanup : (∃ statusCode body, before = .clearing statusCode body ∧
          after = if reply = .ok then .finished (.responded statusCode body)
            else .recovering .commandThrew) ∨
        ∃ answer, before = .recovering answer ∧
          after = .finished (if reply = .ok then answer else .commandThrew)) :
      Effect state (.del id reply) (State.setPhase
        (if reply.took then
          { state with redis := TtlStore.del state.redis key }
        else state) id request after)
  | crashed (id : ℕ) (request : Request) (phase : Phase)
      (hrequest : state.requests id = some ⟨request, phase⟩) :
      Effect state (.crash id) (state.setPhase id request .crashed)
  | ticked (ms : ℕ) :
      Effect state (.tick ms) { state with
        now := state.now + ms
        redis := TtlStore.sweep state.redis (state.now + ms) }

theorem step_effect {state next : State} {event : Event}
    (hstep : step state event = some next) : Effect state event next := by
  cases event with
  | request id request =>
      simp only [step] at hstep
      split at hstep
      · cases hstep
      · rename_i hnone
        cases hstep
        exact .requested id request hnone
  | setnx id reply =>
      simp only [step] at hstep
      split at hstep
      · rename_i request hrequest
        obtain ⟨key, hkey, rfl⟩ := Option.map_eq_some_iff.mp hstep
        exact .acquired id reply request key hrequest hkey
      · cases hstep
  | get id reply =>
      simp only [step] at hstep
      split at hstep
      · rename_i request hrequest
        obtain ⟨key, hkey, rfl⟩ := Option.map_eq_some_iff.mp hstep
        exact .read id reply request key hrequest hkey
      · cases hstep
  | handle id result =>
      simp only [step] at hstep
      split at hstep
      · rename_i request hrequest
        cases hstep
        exact .passed id result request _ hrequest
      · rename_i request hrequest
        cases hstep
        exact .handled id result request hrequest
      · cases hstep
  | set id jitter reply =>
      simp only [step] at hstep
      split at hstep
      · rename_i request statusCode body hrequest
        split at hstep
        · obtain ⟨key, hkey, rfl⟩ := Option.map_eq_some_iff.mp hstep
          exact .stored id jitter reply request key statusCode body hrequest hkey
        · cases hstep
      · cases hstep
  | del id reply =>
      simp only [step] at hstep
      split at hstep
      · rename_i request statusCode body hrequest
        obtain ⟨key, hkey, rfl⟩ := Option.map_eq_some_iff.mp hstep
        exact .removed id reply request key _ _ hrequest hkey
          (.inl ⟨statusCode, body, rfl, rfl⟩)
      · rename_i request answer hrequest
        obtain ⟨key, hkey, rfl⟩ := Option.map_eq_some_iff.mp hstep
        exact .removed id reply request key _ _ hrequest hkey
          (.inr ⟨answer, rfl, rfl⟩)
      · cases hstep
  | crash id =>
      simp only [step] at hstep
      split at hstep
      · cases hstep
      · rename_i request phase _ hrequest
        cases hstep
        exact .crashed id request phase hrequest
      · cases hstep
  | tick ms =>
      cases hstep
      exact .ticked ms

theorem now_of_step {state next : State} {event : Event}
    (hstep : step state event = some next) :
    next.now = match event with
      | .tick ms => state.now + ms
      | _ => state.now := by
  cases step_effect hstep with
  | acquired id reply => cases reply <;> rfl
  | stored id jitter reply => cases reply <;> rfl
  | removed id reply => cases reply <;> rfl
  | _ => rfl

theorem requests_of_step {state next : State} {event : Event} {id : ℕ}
    (hstep : step state event = some next) (hother : event.target ≠ some id) :
    next.requests id = state.requests id := by
  have hsetPhase : ∀ {middle : State} {other : ℕ} (request : Request)
      (phase : Phase), middle.requests = state.requests → some other ≠ some id →
        (middle.setPhase other request phase).requests id =
          state.requests id := by
    intro middle other request phase hmiddle hne
    have hid : id ≠ other := fun heq => hne (congrArg some heq.symm)
    simp only [State.setPhase, Function.update_of_ne hid, hmiddle]
  cases step_effect hstep with
  | acquired => exact hsetPhase _ _ (by split <;> rfl) hother
  | stored => exact hsetPhase _ _ (by split <;> rfl) hother
  | removed => exact hsetPhase _ _ (by split <;> rfl) hother
  | ticked => rfl
  | _ => exact hsetPhase _ _ rfl hother

/-- A request keeps its method, its header and its route. -/
theorem request_of_step {state next : State} {event : Event} {id : ℕ}
    {request : Request} {phase : Phase} (hstep : step state event = some next)
    (hrequest : state.requests id = some ⟨request, phase⟩) :
    ∃ phase', next.requests id = some ⟨request, phase'⟩ := by
  by_cases hother : event.target = some id
  · have hmoved : ∀ {middle : State} {id' : ℕ} {request' : Request}
        {before after : Phase}, some id' = some id →
          state.requests id' = some ⟨request', before⟩ →
            ∃ phase', (middle.setPhase id' request' after).requests id =
              some ⟨request, phase'⟩ := by
      intro middle id' request' before after hid hrequest'
      obtain rfl := Option.some.inj hid
      obtain ⟨rfl, -⟩ := Pending.mk.inj
        (Option.some.inj (hrequest.symm.trans hrequest'))
      exact ⟨after, State.requests_setPhase_same ..⟩
    cases step_effect hstep with
    | requested id' request' hnone =>
        obtain rfl := Option.some.inj hother
        rw [hnone] at hrequest
        cases hrequest
    | acquired _ _ _ _ hrequest' => exact hmoved hother hrequest'
    | read _ _ _ _ hrequest' => exact hmoved hother hrequest'
    | passed _ _ _ _ hrequest' => exact hmoved hother hrequest'
    | handled _ _ _ hrequest' => exact hmoved hother hrequest'
    | stored _ _ _ _ _ _ _ hrequest' => exact hmoved hother hrequest'
    | removed _ _ _ _ _ _ hrequest' => exact hmoved hother hrequest'
    | crashed _ _ _ hrequest' => exact hmoved hother hrequest'
    | ticked => cases hother
  · exact ⟨phase, (requests_of_step hstep hother).trans hrequest⟩

/-- The phases of a request that has left its processing entry. -/
def Phase.entered : Phase → Bool
  | .handling => true
  | .caching _ _ => true
  | .clearing _ _ => true
  | .recovering _ => true
  | _ => false

/-- A cleanup comes after the processing entry and leads neither into the handler
nor to its response. -/
theorem phases_of_cleanup {reply : Reply} {before after : Phase}
    (hcleanup : (∃ statusCode body, before = .clearing statusCode body ∧
        after = if reply = .ok then .finished (.responded statusCode body)
          else .recovering .commandThrew) ∨
      ∃ answer, before = .recovering answer ∧
        after = .finished (if reply = .ok then answer else .commandThrew)) :
    before.entered = true ∧ after ≠ .handling ∧
      ∀ statusCode body, after ≠ .caching statusCode body := by
  rcases hcleanup with ⟨statusCode, body, rfl, rfl⟩ | ⟨answer, rfl, rfl⟩
  · refine ⟨rfl, ?_, fun _ _ => ?_⟩ <;> split <;> simp
  · exact ⟨rfl, by simp, by simp⟩

/-! ## One key -/

/-- The store and the requests as one key sees them. -/
structure View where
  entry : Option (TtlStore.Entry Stored)
  phases : ℕ → Option Phase

def State.view (state : State) (key : String) : View where
  entry := state.redis key
  phases id := (state.requests id).bind fun pending =>
    if pending.request.redisKey = some key then some pending.phase else none

/-- A request with this key moves on. -/
def View.move (view : View) (id : ℕ) (phase : Phase) : View :=
  { view with phases := Function.update view.phases id (some phase) }

/-- Everything one step can do to a key. -/
inductive View.Effect (now : ℕ) (view : View) : Event → View → Prop
  | unrelated (event : Event) (id : ℕ) (htarget : event.target = some id)
      (hnone : view.phases id = none) : View.Effect now view event view
  | requested (id : ℕ) (request : Request) (hnone : view.phases id = none) :
      View.Effect now view (.request id request) (view.move id .acquiring)
  | acquired (id : ℕ) (reply : Reply)
      (hphase : view.phases id = some .acquiring) :
      View.Effect now view (.setnx id reply) (View.move
        { view with
          entry := if reply.took ∧ view.entry = none then
            some ⟨.processing, some (now + processingTtl * 1000)⟩
            else view.entry } id
        (if reply = .ok then
          if view.entry = none then .handling else .reading
        else .finished .commandThrew))
  | read (id : ℕ) (reply : Reply) (hphase : view.phases id = some .reading) :
      View.Effect now view (.get id reply) (view.move id (.finished
        (if reply = .ok then answerFromCache (view.entry.map TtlStore.Entry.value)
        else .commandThrew)))
  | passed (id : ℕ) (result : HandlerResult) (answer : Answer)
      (hphase : view.phases id = some .passing) :
      View.Effect now view (.handle id result) (view.move id (.finished answer))
  | handled (id : ℕ) (result : HandlerResult)
      (hphase : view.phases id = some .handling) :
      View.Effect now view (.handle id result)
        (view.move id (afterHandler result))
  | stored (id jitter : ℕ) (reply : Reply) (request : Request)
      (statusCode : ℕ) (body : String)
      (hphase : view.phases id = some (.caching statusCode body)) :
      View.Effect now view (.set id jitter reply) (View.move
        { view with
          entry := if reply.took then
            some ⟨.completed statusCode body, cacheDeadline now request jitter⟩
            else view.entry } id
        (if reply = .ok then .finished (.responded statusCode body)
        else .recovering .commandThrew))
  | removed (id : ℕ) (reply : Reply) (before after : Phase)
      (hphase : view.phases id = some before)
      (hcleanup : (∃ statusCode body, before = .clearing statusCode body ∧
          after = if reply = .ok then .finished (.responded statusCode body)
            else .recovering .commandThrew) ∨
        ∃ answer, before = .recovering answer ∧
          after = .finished (if reply = .ok then answer else .commandThrew)) :
      View.Effect now view (.del id reply) (View.move
        { view with entry := if reply.took then none else view.entry } id after)
  | crashed (id : ℕ) (phase : Phase) (hphase : view.phases id = some phase) :
      View.Effect now view (.crash id) (view.move id .crashed)
  | ticked (ms : ℕ) :
      View.Effect now view (.tick ms)
        { view with entry := view.entry.filter fun entry => !entry.due (now + ms) }

section View

variable {state next : State} {event : Event} {key : String}
variable {id : ℕ} {request : Request} {phase : Phase}

theorem phases_of_key (hrequest : state.requests id = some ⟨request, phase⟩)
    (hkey : request.redisKey = some key) :
    (state.view key).phases id = some phase := by
  simp [State.view, hrequest, hkey]

theorem phases_of_ne (hrequest : state.requests id = some ⟨request, phase⟩)
    (hkey : request.redisKey ≠ some key) : (state.view key).phases id = none := by
  simp [State.view, hrequest, hkey]

theorem request_of_phases {id : ℕ} {phase : Phase}
    (hphase : (state.view key).phases id = some phase) :
    ∃ request, state.requests id = some ⟨request, phase⟩ ∧
      request.redisKey = some key := by
  obtain ⟨⟨request, phase'⟩, hrequest, hphase⟩ :=
    Option.bind_eq_some_iff.mp hphase
  split at hphase
  · rename_i hkey
    obtain rfl : phase' = phase := Option.some.inj hphase
    exact ⟨request, hrequest, hkey⟩
  · cases hphase

theorem phases_move {view : View} {other : ℕ} {phase' : Phase}
    (hphase : (view.move id phase).phases other = some phase') :
    (other = id ∧ phase = phase') ∨ (other ≠ id ∧ view.phases other = some phase') := by
  by_cases hid : other = id
  · subst hid
    left
    exact ⟨rfl, by simpa [View.move] using hphase⟩
  · right
    exact ⟨hid, by simpa [View.move, hid] using hphase⟩

theorem view_setPhase_of_key (hrequests : next.requests = state.requests)
    (hkey : request.redisKey = some key) :
    (next.setPhase id request phase).view key =
      View.move { state.view key with entry := next.redis key } id phase := by
  simp only [State.view, State.setPhase, View.move, View.mk.injEq, true_and]
  funext other
  by_cases hid : other = id
  · subst hid
    simp [hkey]
  · simp [hid, hrequests]

/-- A step of a request with another key is invisible. -/
theorem view_setPhase_of_ne (hrequests : next.requests = state.requests)
    (hredis : next.redis key = state.redis key)
    (hkey : request.redisKey ≠ some key)
    (hnone : (state.view key).phases id = none) :
    (next.setPhase id request phase).view key = state.view key := by
  simp only [State.view, State.setPhase, View.mk.injEq]
  refine ⟨hredis, ?_⟩
  funext other
  by_cases hid : other = id
  · subst hid
    have hold : ((state.requests other).bind fun pending =>
        if pending.request.redisKey = some key then some pending.phase
        else none) = none := hnone
    simp [hkey, hold]
  · simp [hid, hrequests]

theorem setnx_key (redis : Redis) (key : String) (expiresAt : Option ℕ) :
    TtlStore.setnx redis key .processing expiresAt =
      if redis key = none then
        (TtlStore.put redis key .processing expiresAt, true)
      else (redis, false) := by
  cases hentry : redis key with
  | none => simp [TtlStore.setnx_of_none hentry]
  | some entry => simp [TtlStore.setnx_of_some hentry]

/-- Every step is one that the key can see, or a step of a request with another
key. -/
theorem view_effect (hstep : step state event = some next) :
    View.Effect state.now (state.view key) event (next.view key) := by
  cases step_effect hstep with
  | requested id request hnone =>
      have hphases : (state.view key).phases id = none := by
        simp [State.view, hnone]
      by_cases hkey : request.redisKey = some key
      · rw [view_setPhase_of_key rfl hkey, hkey]
        exact .requested id request hphases
      · rw [view_setPhase_of_ne rfl rfl hkey hphases]
        exact .unrelated _ id rfl hphases
  | acquired id reply request key' hrequest hkey' =>
      by_cases hkey : request.redisKey = some key
      · obtain rfl : key = key' := Option.some.inj (hkey.symm.trans hkey')
        rw [view_setPhase_of_key (by split <;> rfl) hkey, setnx_key]
        convert View.Effect.acquired id reply (phases_of_key hrequest hkey) using 2
        · cases reply <;> by_cases hentry : state.redis key = none <;>
            simp [hentry, Reply.took, State.view]
        · by_cases hentry : state.redis key = none <;> simp [hentry, State.view]
      · have hne : key ≠ key' := by
          rintro rfl
          exact hkey hkey'
        have hphases := phases_of_ne hrequest hkey
        rw [view_setPhase_of_ne (by split <;> rfl)
          (by split
              · exact TtlStore.setnx_of_ne hne
              · rfl) hkey hphases]
        exact .unrelated _ id rfl hphases
  | read id reply request key' hrequest hkey' =>
      by_cases hkey : request.redisKey = some key
      · obtain rfl : key = key' := Option.some.inj (hkey.symm.trans hkey')
        rw [view_setPhase_of_key rfl hkey]
        exact .read id reply (phases_of_key hrequest hkey)
      · have hphases := phases_of_ne hrequest hkey
        rw [view_setPhase_of_ne rfl rfl hkey hphases]
        exact .unrelated _ id rfl hphases
  | passed id result request answer hrequest =>
      by_cases hkey : request.redisKey = some key
      · rw [view_setPhase_of_key rfl hkey]
        exact .passed id result answer (phases_of_key hrequest hkey)
      · have hphases := phases_of_ne hrequest hkey
        rw [view_setPhase_of_ne rfl rfl hkey hphases]
        exact .unrelated _ id rfl hphases
  | handled id result request hrequest =>
      by_cases hkey : request.redisKey = some key
      · rw [view_setPhase_of_key rfl hkey]
        exact .handled id result (phases_of_key hrequest hkey)
      · have hphases := phases_of_ne hrequest hkey
        rw [view_setPhase_of_ne rfl rfl hkey hphases]
        exact .unrelated _ id rfl hphases
  | stored id jitter reply request key' statusCode body hrequest hkey' =>
      by_cases hkey : request.redisKey = some key
      · obtain rfl : key = key' := Option.some.inj (hkey.symm.trans hkey')
        rw [view_setPhase_of_key (by split <;> rfl) hkey]
        convert View.Effect.stored id jitter reply request statusCode body
          (phases_of_key hrequest hkey) using 2
        cases reply <;> simp [Reply.took, State.view]
      · have hne : key ≠ key' := by
          rintro rfl
          exact hkey hkey'
        have hphases := phases_of_ne hrequest hkey
        rw [view_setPhase_of_ne (by split <;> rfl)
          (by split
              · exact TtlStore.put_of_ne hne
              · rfl) hkey hphases]
        exact .unrelated _ id rfl hphases
  | removed id reply request key' before after hrequest hkey' hcleanup =>
      by_cases hkey : request.redisKey = some key
      · obtain rfl : key = key' := Option.some.inj (hkey.symm.trans hkey')
        rw [view_setPhase_of_key (by split <;> rfl) hkey]
        convert View.Effect.removed id reply before after
          (phases_of_key hrequest hkey) hcleanup using 2
        cases reply <;> simp [Reply.took, State.view, TtlStore.del]
      · have hne : key ≠ key' := by
          rintro rfl
          exact hkey hkey'
        have hphases := phases_of_ne hrequest hkey
        rw [view_setPhase_of_ne (by split <;> rfl)
          (by split
              · exact TtlStore.del_of_ne hne
              · rfl) hkey hphases]
        exact .unrelated _ id rfl hphases
  | crashed id request phase hrequest =>
      by_cases hkey : request.redisKey = some key
      · rw [view_setPhase_of_key rfl hkey]
        exact .crashed id phase (phases_of_key hrequest hkey)
      · have hphases := phases_of_ne hrequest hkey
        rw [view_setPhase_of_ne rfl rfl hkey hphases]
        exact .unrelated _ id rfl hphases
  | ticked ms => exact .ticked ms

end View

end OceanChat.Idempotency
