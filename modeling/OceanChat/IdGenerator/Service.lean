import OceanChat.Common.AppException
import OceanChat.IdGenerator.Scripts

/-!
# The identifier generator

Any number of `generateSyncSeqId` calls run against one Redis and one MongoDB.
A call moves from one awaited command to the next; between two commands it
touches nothing shared, so one step executes the pending command atomically and
continues the call up to its next `await`.  A command may fail with or without
having taken effect, a call may crash, time may pass (which is how locks
expire), and the hash of a key may be lost.
-/

namespace OceanChat.IdGenerator

abbrev CallId := ℕ

/-- Maximum retries for lock acquisition. -/
def maxRetries : ℕ := 60

/-- The lifetime of the allocation lock in milliseconds. -/
def lockTtl : ℕ := 5000

/-- `/^[a-zA-Z0-9_:-]{1,255}$/`. -/
def keyValid (key : String) : Bool :=
  decide (1 ≤ key.length) && decide (key.length ≤ 255) &&
    key.toList.all fun char =>
      char.isAlphanum || char == '_' || char == ':' || char == '-'

def redisKey (key : String) : String := "seq:" ++ key

def lockKey (key : String) : String := "lock:seq:" ++ key

theorem redisKey_injective : Function.Injective redisKey := by
  intro left right heq
  simpa [redisKey] using heq

theorem lockKey_injective : Function.Injective lockKey := by
  intro left right heq
  simpa [lockKey] using heq

/-- A hash key is never a lock key, so scripts and locks never meet. -/
theorem redisKey_ne_lockKey (left right : String) :
    redisKey left ≠ lockKey right := by
  intro heq
  have hhead := congrArg (fun text => text.toList.head?) heq
  simp [redisKey, lockKey] at hhead

def invalidSequenceKey : AppException :=
  domainException "INVALID_SEQUENCE_KEY" ErrorCodes.invalidSequenceKey 400

def redisError : AppException :=
  infrastructureException "ID_GENERATOR_REDIS_ERROR"
    ErrorCodes.serviceUnavailable 503

def allocationFailed : AppException :=
  infrastructureException "ID_GENERATOR_ALLOCATION_FAILED"
    ErrorCodes.serviceError 503

def lockTimeout : AppException :=
  infrastructureException "ID_GENERATOR_LOCK_TIMEOUT"
    ErrorCodes.serviceUnavailable 503

inductive Outcome
  | returned (seq : String)
  | threw (error : AppException)
  deriving DecidableEq

/-- The command a call awaits.  `retry` is the attempt after a lost race for
the lock, `discarded` the one after a failed compare-and-set, and `release` the
`finally` block, which knows how the `try` block ended. -/
inductive Phase
  | fastPath
  | acquire (retries : ℕ)
  | retry (retries : ℕ)
  | allocate (retries : ℕ) (lockValue : String)
  | sync (retries : ℕ) (lockValue : String) (max : ℕ)
  | discarded (retries : ℕ) (lockValue : String)
  | release (lockValue : String) (outcome : Outcome)
  | finished (outcome : Outcome)
  | crashed
  deriving DecidableEq

structure Call where
  key : String
  phase : Phase
  deriving DecidableEq

/-- `sequences key` is the `max` of the MongoDB document, `0` without one. -/
structure State where
  now : ℕ
  hashes : String → SeqHash
  locks : TtlStore.Store String String
  sequences : String → ℕ
  calls : CallId → Option Call

def State.initial : State where
  now := 0
  hashes := fun _ => SeqHash.empty
  locks := TtlStore.empty
  sequences := fun _ => 0
  calls := fun _ => none

inductive Event
  | call (id : CallId) (key : String)
  | setnx (id : CallId) (lockValue : String) (reply : Reply)
  | command (id : CallId) (reply : Reply)
  | crash (id : CallId)
  | tick (ms : ℕ)
  | loseHash (key : String)
  deriving DecidableEq

def State.setHash (state : State) (key : String) (hash : SeqHash) : State :=
  { state with hashes := Function.update state.hashes (redisKey key) hash }

def State.setPhase (state : State) (id : CallId) (key : String)
    (phase : Phase) : State :=
  { state with calls := Function.update state.calls id (some ⟨key, phase⟩) }

/-- The head of the `while` loop. -/
def loopHead (retries : ℕ) : Phase :=
  if retries < maxRetries then .acquire retries
  else .finished (.threw lockTimeout)

/-- `eval(GENERATE_SEQ_LUA)` and what its caller does with the reply. -/
def evalGenerate (state : State) (key : String) (reply : Reply)
    (onSeq : String → Phase) (onNil onError : Phase) : State × Phase :=
  match generateSeqLua (state.hashes (redisKey key)) with
  | none => (state, onError)
  | some (hash, seq) =>
      (if reply.took then state.setHash key hash else state,
        if reply = .ok then seq.elim onNil onSeq else onError)

section EvalGenerate

variable {state : State} {key : String} {reply : Reply}
variable {onSeq : String → Phase} {onNil onError : Phase}

@[simp]
theorem evalGenerate_locks :
    (evalGenerate state key reply onSeq onNil onError).1.locks =
      state.locks := by
  unfold evalGenerate
  split
  · rfl
  · split <;> rfl

theorem evalGenerate_phase (Holds : Phase → Prop)
    (hseq : ∀ seq, Holds (onSeq seq)) (hnil : Holds onNil)
    (herror : Holds onError) :
    Holds (evalGenerate state key reply onSeq onNil onError).2 := by
  unfold evalGenerate
  split
  · exact herror
  · rename_i hash seq _
    cases seq <;> cases reply <;> simp [hseq, hnil, herror]

end EvalGenerate

/-- `SequenceRepository.allocateSegment`: `$inc` fails when it would leave the
64-bit range. -/
def allocateSegment (state : State) (key : String) : Option (State × ℕ) :=
  let max := state.sequences key + segmentStep
  if max ≤ maxInt64 then
    some ({ state with sequences := Function.update state.sequences key max },
      max)
  else none

theorem allocateSegment_eq_some {state allocated : State} {key : String}
    {max : ℕ} (hallocate : allocateSegment state key = some (allocated, max)) :
    max = state.sequences key + segmentStep ∧ max ≤ maxInt64 ∧
      allocated = { state with
        sequences := Function.update state.sequences key max } := by
  simp only [allocateSegment] at hallocate
  split at hallocate
  · rename_i hfits
    cases hallocate
    exact ⟨rfl, hfits, rfl⟩
  · cases hallocate

/-- The allocation under the lock; its failure ends in the `finally` block. -/
def runAllocate (state : State) (key : String) (reply : Reply) (retries : ℕ)
    (lockValue : String) : State × Phase :=
  let failure := Phase.release lockValue (.threw allocationFailed)
  (allocateSegment state key).elim (state, failure) fun (allocated, max) =>
    (if reply.took then allocated else state,
      if reply = .ok then .sync retries lockValue max else failure)

@[simp]
theorem runAllocate_locks {state : State} {key lockValue : String}
    {reply : Reply} {retries : ℕ} :
    (runAllocate state key reply retries lockValue).1.locks = state.locks := by
  unfold runAllocate
  have hoption := Option.eq_none_or_eq_some (allocateSegment state key)
  rcases hoption with hallocate | ⟨⟨allocated, max⟩, hallocate⟩
  · simp [hallocate]
  · obtain ⟨-, -, rfl⟩ := allocateSegment_eq_some hallocate
    simp only [hallocate, Option.elim]
    split <;> rfl

/-- `eval(SYNC_SEGMENT_LUA)`; a segment that is not installed is discarded. -/
def runSync (state : State) (key : String) (reply : Reply) (retries : ℕ)
    (lockValue : String) (max : ℕ) : State × Phase :=
  let cur := max - segmentStep + 1
  let (hash, synced) := syncSegmentLua (state.hashes (redisKey key))
    max.repr cur.repr
  (if reply.took then state.setHash key hash else state,
    if reply = .ok then
      if synced then .release lockValue (.returned cur.repr)
      else .discarded retries lockValue
    else .release lockValue (.threw allocationFailed))

/-- `delIfEqual` on the lock; its failure replaces the outcome. -/
def runRelease (state : State) (key : String) (reply : Reply)
    (lockValue : String) (outcome : Outcome) : State × Phase :=
  (if reply.took then
      { state with
        locks := TtlStore.delIfEqual state.locks (lockKey key) lockValue }
    else state,
    .finished (if reply = .ok then outcome else .threw allocationFailed))

/-- Execute the command a call awaits and continue the call. -/
def command (state : State) (key : String) (reply : Reply) :
    Phase → Option (State × Phase)
  | .fastPath =>
      some (evalGenerate state key reply (fun seq => .finished (.returned seq))
        (loopHead 0) (.finished (.threw redisError)))
  | .retry retries =>
      some (evalGenerate state key reply (fun seq => .finished (.returned seq))
        (loopHead retries) (.finished (.threw allocationFailed)))
  | .allocate retries lockValue =>
      some (runAllocate state key reply retries lockValue)
  | .sync retries lockValue max =>
      some (runSync state key reply retries lockValue max)
  | .discarded retries lockValue =>
      some (evalGenerate state key reply
        (fun seq => .release lockValue (.returned seq)) (loopHead retries)
        (.release lockValue (.threw allocationFailed)))
  | .release lockValue outcome =>
      some (runRelease state key reply lockValue outcome)
  | _ => none

/-- The lock attempt at the head of a loop iteration. -/
def acquireLock (state : State) (key lockValue : String) (reply : Reply)
    (retries : ℕ) : State × Phase :=
  let (locks, acquired) := TtlStore.setnx state.locks (lockKey key) lockValue
    (some (state.now + lockTtl))
  (if reply.took then { state with locks := locks } else state,
    if reply = .ok then
      if acquired then .allocate retries lockValue else .retry (retries + 1)
    else .finished (.threw allocationFailed))

def step (state : State) : Event → Option State
  | .call id key =>
      match state.calls id with
      | some _ => none
      | none =>
          some (state.setPhase id key
            (if keyValid key then .fastPath
              else .finished (.threw invalidSequenceKey)))
  | .setnx id lockValue reply =>
      match state.calls id with
      | some ⟨key, .acquire retries⟩ =>
          let (next, phase) := acquireLock state key lockValue reply retries
          some (next.setPhase id key phase)
      | _ => none
  | .command id reply =>
      match state.calls id with
      | some ⟨key, phase⟩ =>
          (command state key reply phase).map fun result =>
            result.1.setPhase id key result.2
      | none => none
  | .crash id =>
      match state.calls id with
      | some ⟨_, .finished _⟩ => none
      | some ⟨key, _⟩ => some (state.setPhase id key .crashed)
      | none => none
  | .tick ms =>
      some { state with
        now := state.now + ms
        locks := TtlStore.sweep state.locks (state.now + ms) }
  | .loseHash key => some (state.setHash key SeqHash.empty)

/-- The steps of an undisturbed call that finds no number in the hash. -/
def slowPath (id : CallId) (lockValue : String) : List Event :=
  [.command id .ok, .setnx id lockValue .ok, .command id .ok, .command id .ok,
    .command id .ok]

/-- The call has returned `seq` for `key`. -/
def State.Returned (state : State) (key : String) (id : CallId)
    (seq : String) : Prop :=
  state.calls id = some ⟨key, .finished (.returned seq)⟩

/-! ## What a step can do -/

/-- Everything one step can do. -/
inductive Effect (state : State) : Event → State → Prop
  | called (id : CallId) (key : String) (hnone : state.calls id = none) :
      Effect state (.call id key) (state.setPhase id key
        (if keyValid key then .fastPath
          else .finished (.threw invalidSequenceKey)))
  | attempted (id : CallId) (key lockValue : String) (reply : Reply)
      (retries : ℕ) (hcall : state.calls id = some ⟨key, .acquire retries⟩) :
      Effect state (.setnx id lockValue reply)
        ((acquireLock state key lockValue reply retries).1.setPhase id key
          (acquireLock state key lockValue reply retries).2)
  | executed (id : CallId) (key : String) (reply : Reply) (before after : Phase)
      (next : State) (hcall : state.calls id = some ⟨key, before⟩)
      (hcommand : command state key reply before = some (next, after)) :
      Effect state (.command id reply) (next.setPhase id key after)
  | crashed (id : CallId) (key : String) (phase : Phase)
      (hcall : state.calls id = some ⟨key, phase⟩) :
      Effect state (.crash id) (state.setPhase id key .crashed)
  | ticked (ms : ℕ) :
      Effect state (.tick ms) { state with
        now := state.now + ms
        locks := TtlStore.sweep state.locks (state.now + ms) }
  | lost (key : String) :
      Effect state (.loseHash key) (state.setHash key SeqHash.empty)

theorem step_effect {state next : State} {event : Event}
    (hstep : step state event = some next) : Effect state event next := by
  cases event with
  | call id key =>
      simp only [step] at hstep
      split at hstep
      · cases hstep
      · rename_i hnone
        cases hstep
        exact .called id key hnone
  | setnx id lockValue reply =>
      simp only [step] at hstep
      split at hstep
      · rename_i key retries hcall
        cases hstep
        exact .attempted id key lockValue reply retries hcall
      · cases hstep
  | command id reply =>
      simp only [step] at hstep
      split at hstep
      · rename_i key phase hcall
        obtain ⟨⟨middle, after⟩, hcommand, rfl⟩ := Option.map_eq_some_iff.mp hstep
        exact .executed id key reply phase after middle hcall hcommand
      · cases hstep
  | crash id =>
      simp only [step] at hstep
      split at hstep
      · cases hstep
      · rename_i key phase _ hcall
        cases hstep
        exact .crashed id key phase hcall
      · cases hstep
  | tick ms =>
      cases hstep
      exact .ticked ms
  | loseHash key =>
      cases hstep
      exact .lost key

/-- A command for one key leaves the calls and every other key alone. -/
structure Elsewhere (key : String) (state next : State) : Prop where
  now_eq : next.now = state.now
  calls_eq : next.calls = state.calls
  hash_eq : ∀ other, other ≠ key →
    next.hashes (redisKey other) = state.hashes (redisKey other)
  sequence_eq : ∀ other, other ≠ key →
    next.sequences other = state.sequences other
  lock_eq : ∀ other, other ≠ key →
    next.locks (lockKey other) = state.locks (lockKey other)

namespace Elsewhere

variable {key : String} {state : State}

theorem refl : Elsewhere key state state :=
  ⟨rfl, rfl, fun _ _ => rfl, fun _ _ => rfl, fun _ _ => rfl⟩

theorem setHash (hash : SeqHash) :
    Elsewhere key state (state.setHash key hash) := by
  refine ⟨rfl, rfl, fun other hne => ?_, fun _ _ => rfl, fun _ _ => rfl⟩
  simp [State.setHash, redisKey_injective.ne hne]

theorem evalGenerate {reply : Reply} {onSeq : String → Phase}
    {onNil onError : Phase} :
    Elsewhere key state
      (evalGenerate state key reply onSeq onNil onError).1 := by
  unfold IdGenerator.evalGenerate
  split
  · exact refl
  · split
    · exact setHash _
    · exact refl

theorem runAllocate {reply : Reply} {retries : ℕ} {lockValue : String} :
    Elsewhere key state (runAllocate state key reply retries lockValue).1 := by
  unfold IdGenerator.runAllocate allocateSegment
  by_cases hfits : state.sequences key + segmentStep ≤ maxInt64
  · cases htook : reply.took with
    | false => simpa [hfits, htook] using refl
    | true =>
        simp only [hfits, if_true, Option.elim_some]
        refine ⟨rfl, rfl, fun _ _ => rfl, fun other hne => ?_, fun _ _ => rfl⟩
        exact Function.update_of_ne hne _ _
  · simpa [hfits] using refl

theorem runSync {reply : Reply} {retries max : ℕ} {lockValue : String} :
    Elsewhere key state (runSync state key reply retries lockValue max).1 := by
  cases htook : reply.took with
  | false => simpa [IdGenerator.runSync, htook] using refl
  | true => simpa [IdGenerator.runSync, htook] using setHash _

theorem runRelease {reply : Reply} {lockValue : String} {outcome : Outcome} :
    Elsewhere key state (runRelease state key reply lockValue outcome).1 := by
  cases htook : reply.took with
  | false => simpa [IdGenerator.runRelease, htook] using refl
  | true =>
      simp only [IdGenerator.runRelease, htook, if_true]
      refine ⟨rfl, rfl, fun _ _ => rfl, fun _ _ => rfl, fun other hne => ?_⟩
      exact TtlStore.delIfEqual_of_ne (lockKey_injective.ne hne)

theorem command {next : State} {reply : Reply} {before after : Phase}
    (hcommand : command state key reply before = some (next, after)) :
    Elsewhere key state next := by
  cases before with
  | fastPath =>
      obtain ⟨rfl, -⟩ := Prod.mk.inj (Option.some.inj hcommand)
      exact evalGenerate
  | retry retries =>
      obtain ⟨rfl, -⟩ := Prod.mk.inj (Option.some.inj hcommand)
      exact evalGenerate
  | allocate retries lockValue =>
      obtain rfl := congrArg Prod.fst (Option.some.inj hcommand)
      exact runAllocate
  | sync retries lockValue max =>
      obtain rfl := congrArg Prod.fst (Option.some.inj hcommand)
      exact runSync
  | discarded retries lockValue =>
      obtain ⟨rfl, -⟩ := Prod.mk.inj (Option.some.inj hcommand)
      exact evalGenerate
  | release lockValue outcome =>
      obtain rfl := congrArg Prod.fst (Option.some.inj hcommand)
      exact runRelease
  | acquire retries => cases hcommand
  | finished outcome => cases hcommand
  | crashed => cases hcommand

theorem acquireLock {reply : Reply} {retries : ℕ} {lockValue : String} :
    Elsewhere key state
      (acquireLock state key lockValue reply retries).1 := by
  cases htook : reply.took with
  | false => simpa [IdGenerator.acquireLock, htook] using refl
  | true =>
      simp only [IdGenerator.acquireLock, htook, if_true]
      refine ⟨rfl, rfl, fun _ _ => rfl, fun _ _ => rfl, fun other hne => ?_⟩
      exact TtlStore.setnx_of_ne (lockKey_injective.ne hne)

end Elsewhere

/-- A call that is never made stays unmade. -/
theorem calls_eq_none_of_run {state final : State} {events : List Event}
    {id : CallId} (hnone : state.calls id = none)
    (huncalled : ∀ key, .call id key ∉ events)
    (hrun : Runs.run step state events = some final) :
    final.calls id = none := by
  have hguarded : Runs.Guarded step (fun _ event => ∀ key, event ≠ .call id key)
      state events := by
    apply Runs.guarded_of_forall
    rintro event hevent _ key rfl
    exact huncalled key hevent
  refine Runs.run_invariant_of_guarded (fun middle => middle.calls id = none)
    ?_ hnone hguarded hrun
  intro middle event next hmiddle hguard hstep
  have hother : ∀ {base : State} {id' : CallId} {key : String} {phase : Phase}
      {call : Call}, base.calls = middle.calls →
      middle.calls id' = some call →
      (base.setPhase id' key phase).calls id = none := by
    intro base id' key phase call hcalls hcall
    have hne : id ≠ id' := by
      rintro rfl
      rw [hmiddle] at hcall
      cases hcall
    simpa [State.setPhase, hne, hcalls] using hmiddle
  cases step_effect hstep with
  | called id' key _ =>
      have hne : id ≠ id' := by
        rintro rfl
        exact hguard key rfl
      simpa [State.setPhase, hne] using hmiddle
  | attempted id' key lockValue reply retries hcall =>
      exact hother Elsewhere.acquireLock.calls_eq hcall
  | executed id' key reply before after base hcall hcommand =>
      exact hother (Elsewhere.command hcommand).calls_eq hcall
  | crashed id' key phase hcall => exact hother rfl hcall
  | ticked ms => exact hmiddle
  | lost key => exact hmiddle

end OceanChat.IdGenerator
