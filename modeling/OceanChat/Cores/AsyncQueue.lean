import OceanChat.Core.Runs
import OceanChat.Core.TaskTales
import OceanChat.Core.WorkPool

/-!
# The asynchronous queue

`enqueue` queues a task that raises the count of active tasks, calls what it was
given and hangs a promise chain on the answer; the chain settles the promise of
the call and, in `finally`, lowers the count and starts the next task.  What is
called may also throw, and then there is no chain.
-/

namespace OceanChat.AsyncQueue

open Runs WorkPool TaskTales

variable {Value Cause : Type*}

/-- `throws` is what the task throws when it is called, if it does not return a
promise. -/
structure Task (Cause : Type*) where
  id : ℕ
  throws : Option Cause

/-- What the promise of a task settles with. -/
inductive Outcome (Value Cause : Type*)
  | fulfilled (value : Value)
  | rejected (cause : Cause)

inductive Reason (Cause : Type*)
  | error (message : String)
  | cause (cause : Cause)

inductive PromiseState (Value Cause : Type*)
  | pending
  | fulfilled (value : Value)
  | rejected (reason : Reason Cause)

/-- What the chain of a started task waits for: the promise of the task, the
handlers `resolve` and `reject`, and `finally`. -/
inductive Phase (Value Cause : Type*)
  | running
  | settled (outcome : Outcome Value Cause)
  | finishing

/-- The desk holds the waiting tasks, the started ones and the promises. -/
structure State (Value Cause : Type*) extends
    Desk (Task Cause) (Phase Value Cause) (PromiseState Value Cause) where
  activeCount : ℤ

def State.initial : State Value Cause where
  queue := []
  active := []
  promises := fun _ => none
  activeCount := 0

inductive Event (Value Cause : Type*)
  | enqueue (task : Task Cause)
  | settle (id : ℕ) (outcome : Outcome Value Cause)
  | report (id : ℕ)
  | finish (id : ℕ)

def State.setPromise (state : State Value Cause) (id : ℕ)
    (promise : PromiseState Value Cause) : State Value Cause :=
  { state with promises := Function.update state.promises id (some promise) }

/-- A promise that has settled stays as it is. -/
def State.settlePromise (state : State Value Cause) (id : ℕ)
    (promise : PromiseState Value Cause) : State Value Cause :=
  match state.promises id with
  | some .pending => state.setPromise id promise
  | _ => state

def State.setPhase (state : State Value Cause) (id : ℕ)
    (phase : Phase Value Cause) : State Value Cause :=
  { state with active := state.active.map fun entry =>
      if entry.1.id = id then (entry.1, phase) else entry }

def State.find (state : State Value Cause) (id : ℕ) :
    Option (Task Cause × Phase Value Cause) :=
  state.active.find? fun entry => entry.1.id = id

/-- The task starts; the answer is what it throws, with the count already raised
and no promise chain. -/
def start (state : State Value Cause) (task : Task Cause) :
    State Value Cause × Option Cause :=
  match task.throws with
  | some cause => ({ state with activeCount := state.activeCount + 1 }, some cause)
  | none =>
      ({ state with
        activeCount := state.activeCount + 1
        active := state.active ++ [(task, .running)] }, none)

/-- `queue.shift()` and the call of what it gives. -/
def startNext (state : State Value Cause) : State Value Cause × Option Cause :=
  match state.queue with
  | [] => (state, none)
  | next :: queue => start { state with queue := queue } next

def Outcome.promise : Outcome Value Cause → PromiseState Value Cause
  | .fulfilled value => .fulfilled value
  | .rejected cause => .rejected (.cause cause)

def isFull (maxQueueSize : Option ℕ) (state : State Value Cause) : Prop :=
  ∃ size ∈ maxQueueSize, size ≤ state.queue.length

instance (maxQueueSize : Option ℕ) (state : State Value Cause) :
    Decidable (isFull maxQueueSize state) :=
  inferInstanceAs (Decidable (∃ size ∈ maxQueueSize, size ≤ state.queue.length))

/-- `queue.push()`, with the promise of the call pending. -/
def State.enqueue (state : State Value Cause) (task : Task Cause) :
    State Value Cause :=
  State.setPromise { state with queue := state.queue ++ [task] } task.id .pending

/-- The executor of the promise: what is thrown in it rejects the promise. -/
def accept (concurrency : ℕ) (state : State Value Cause) (task : Task Cause) :
    State Value Cause :=
  let queued := state.enqueue task
  if queued.activeCount < concurrency then
    match startNext queued with
    | (next, some cause) => next.settlePromise task.id (.rejected (.cause cause))
    | (next, none) => next
  else queued

/-- What is thrown in `finally` rejects a promise that nobody handles. -/
def step (concurrency : ℕ) (maxQueueSize : Option ℕ)
    (state : State Value Cause) :
    Event Value Cause → Option (State Value Cause)
  | .enqueue task =>
      if (state.promises task.id).isNone then
        if isFull maxQueueSize state then
          some (state.setPromise task.id (.rejected (.error "Queue is full")))
        else some (accept concurrency state task)
      else none
  | .settle id outcome =>
      match state.find id with
      | some (_, .running) => some (state.setPhase id (.settled outcome))
      | _ => none
  | .report id =>
      match state.find id with
      | some (_, .settled outcome) =>
          some ((state.settlePromise id outcome.promise).setPhase id .finishing)
      | _ => none
  | .finish id =>
      match state.find id with
      | some (_, .finishing) =>
          some (startNext { state with
            active := state.active.eraseP fun entry => entry.1.id = id
            activeCount := state.activeCount - 1 }).1
      | _ => none

/-! ## What the queue is for -/

/-- What is noted of a task that has started. -/
inductive Note (Value Cause : Type*)
  | settled (outcome : Outcome Value Cause)
  | threw (cause : Cause)

abbrev History (Value Cause : Type*) :=
  List (Entry (Task Cause) (Note Value Cause))

/-- The task that the step takes from the queue. -/
def State.starting (concurrency : ℕ) (maxQueueSize : Option ℕ)
    (state : State Value Cause) : Event Value Cause → Option (Task Cause)
  | .enqueue task =>
      if ¬ isFull maxQueueSize state ∧ state.activeCount < concurrency then
        (state.queue ++ [task]).head?
      else none
  | .finish _ => state.queue.head?
  | _ => none

/-- The task is called. -/
def calls (task : Task Cause) : History Value Cause :=
  .started task :: (task.throws.toList.map Note.threw).map (Entry.noted task)

def entries (concurrency : ℕ) (maxQueueSize : Option ℕ)
    (state : State Value Cause) (event : Event Value Cause) :
    History Value Cause :=
  let started := (state.starting concurrency maxQueueSize event).toList
  match event with
  | .enqueue task =>
      if isFull maxQueueSize state then []
      else .accepted task :: started.flatMap calls
  | .settle id outcome =>
      match state.find id with
      | some (task, .running) => [Note.settled outcome].map (Entry.noted task)
      | _ => []
  | .report _ => []
  | .finish _ => started.flatMap calls

/-- The handler that settles the promise of the task has yet to run. -/
def Due (state : State Value Cause) (task : Task Cause) : Prop :=
  ∃ outcome, (task, .settled outcome) ∈ state.active

/-- No slot is leaked and every task is treated as it should be. -/
structure Orderly (concurrency : ℕ) (state : State Value Cause)
    (history : History Value Cause) : Prop where
  limited : state.active.length ≤ concurrency
  /-- The count is that of the tasks started and not yet finished. -/
  counted : state.activeCount = state.active.length
  /-- Tasks start in the order of their acceptance, and none starts twice. -/
  inOrder : acceptedTasks history = startedTasks history ++ state.queue
  distinct : ((acceptedTasks history).map Task.id).Nodup
  settles : ∀ task ∈ acceptedTasks history, ∀ outcome,
    state.promises task.id = some outcome.promise ↔
      .noted task (.settled outcome) ∈ history ∧ ¬ Due state task
  pends : ∀ task ∈ acceptedTasks history,
    state.promises task.id = some .pending ∨
      ∃ outcome, state.promises task.id = some (Outcome.promise outcome)
  /-- Whatever runs is one event away from its next phase. -/
  running : ∀ entry ∈ state.active, entry.1 ∈ startedTasks history ∧
    state.find entry.1.id = some entry
  /-- Once all that has started has finished, nothing is left waiting. -/
  drained : state.active = [] → state.queue = []

/-- The step starts no task that throws. -/
def StartsCleanly (concurrency : ℕ) (maxQueueSize : Option ℕ)
    (state : State Value Cause) (event : Event Value Cause) : Prop :=
  ∀ task ∈ state.starting concurrency maxQueueSize event, task.throws = none

end OceanChat.AsyncQueue
