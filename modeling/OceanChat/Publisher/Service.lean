import OceanChat.Common.AppException
import OceanChat.Core.Json
import OceanChat.Core.Runs
import OceanChat.Core.WorkPool

/-!
# The bounded publisher

`publishSafe` queues a task that publishes a message.  A started task publishes
to its subject and, if that fails, to the dead-letter subject; its promise chain
then settles the promise of a critical call and, in `finally`, lowers the count
and starts the next task.  The chains interleave with each other and with new
calls in any order.
-/

namespace OceanChat.Publisher

def concurrencyLimit : ℕ := 100
def maxNormalQueueSize : ℕ := 5000
def maxCriticalQueueSize : ℕ := 10000

structure PublishOptions where
  isCritical : Option Bool
  msgId : Option String

/-- The closure that `publishSafe` queues for the call `id`. -/
structure Task where
  id : ℕ
  subject : String
  data : Json
  isCritical : Bool
  msgId : Option String

structure Publication where
  subject : String
  payload : Text
  msgId : Option String

def Task.dlqSubject (task : Task) : String := "dlq." ++ task.subject

/-- `options.msgId`, if it is truthy. -/
def Task.header (task : Task) : Option String :=
  task.msgId.filter (· ≠ "")

def Task.publication (task : Task) : Publication where
  subject := task.subject
  payload := Json.stringify task.data
  msgId := task.header

def Task.deadLetter (task : Task) : Publication where
  subject := task.dlqSubject
  payload := Json.stringify task.data
  msgId := none

/-- What a publish is rejected with; `value` is anything but an `Error`. -/
inductive Failure
  | error (message : String)
  | value (text : String)
  deriving DecidableEq

/-- `new Error(String(finalErr))` for what is no `Error`. -/
def Failure.message : Failure → String
  | .error message => message
  | .value text => text

inductive Reason
  | app (error : AppException)
  | error (message : String)
  | badHeader
  deriving DecidableEq

inductive PromiseState
  | pending
  | resolved
  | rejected (reason : Reason)
  deriving DecidableEq

/-- What the chain of a started task waits for: the two publishes, the handler
that settles the promise of the call, and `finally`. -/
inductive Phase
  | publishing
  | deadLetter
  | settled (finalErr : Option Failure)
  | finishing
  deriving DecidableEq

structure Active where
  task : Task
  phase : Phase

/-- `active` are the tasks that have started and not yet finished. -/
structure State where
  activeCount : ℤ
  queue : List Task
  active : List Active
  published : List Publication
  promises : ℕ → Option PromiseState

def State.initial : State where
  activeCount := 0
  queue := []
  active := []
  published := []
  promises := fun _ => none

/-- `js` tells whether there is a JetStream client.  `settle` ends the publish
that a task waits for, with what it is rejected with. -/
inductive Event
  | publishSafe (id : ℕ) (js : Bool) (subject : String) (data : Json)
      (options : PublishOptions)
  | settle (id : ℕ) (failure : Option Failure)
  | report (id : ℕ)
  | finish (id : ℕ)

def notOperationalException : AppException :=
  infrastructureException "BOUNDED_PUBLISHER_NOT_OPERATIONAL"
    ErrorCodes.serviceUnavailable 503

/-- The message carries a second one for what has been dropped. -/
def queueLimitException (isCritical : Bool) : AppException :=
  infrastructureException ("QUEUE_LIMIT_REACHED: " ++
    if isCritical then "CRITICAL_SECURITY_SIGNAL_DROPPED"
    else "NORMAL_EVENT_DROPPED") ErrorCodes.serviceUnavailable 503

def queueLimit (isCritical : Bool) : ℕ :=
  if isCritical then maxCriticalQueueSize else maxNormalQueueSize

def taskOf (id : ℕ) (subject : String) (data : Json) (options : PublishOptions) :
    Task where
  id := id
  subject := subject
  data := data
  isCritical := options.isCritical.getD false
  msgId := options.msgId

def State.setPromise (state : State) (id : ℕ) (promise : PromiseState) : State :=
  { state with promises := Function.update state.promises id (some promise) }

/-- A promise that has settled stays as it is. -/
def State.settlePromise (state : State) (id : ℕ) (promise : PromiseState) :
    State :=
  if state.promises id = some .pending then state.setPromise id promise
  else state

def State.setPhase (state : State) (id : ℕ) (phase : Phase) : State :=
  { state with active := state.active.map fun entry =>
      if entry.task.id = id then { entry with phase := phase } else entry }

def State.find (state : State) (id : ℕ) : Option Active :=
  state.active.find? fun entry => entry.task.id = id

/-- Whether `set` throws on the message identifier of the task. -/
def Task.refused (refuses : String → Bool) (task : Task) : Bool :=
  task.header.any refuses

/-- The task starts; the answer is whether it throws, which it does with the
count already raised and before its promise chain exists. -/
def start (refuses : String → Bool) (state : State) (task : Task) :
    State × Bool :=
  if task.refused refuses then
    ({ state with activeCount := state.activeCount + 1 }, true)
  else
    ({ state with
      activeCount := state.activeCount + 1
      active := state.active ++ [⟨task, .publishing⟩]
      published := state.published ++ [task.publication] }, false)

def processNext (refuses : String → Bool) (state : State) : State × Bool :=
  match state.queue with
  | [] => (state, false)
  | nextTask :: queue => start refuses { state with queue := queue } nextTask

/-- The executor of the promise: what a task throws in it rejects the promise,
unless that has been resolved. -/
def accept (refuses : String → Bool) (state : State) (task : Task) : State :=
  let queued := State.setPromise
    { state with queue := state.queue ++ [task] } task.id
    (if task.isCritical then .pending else .resolved)
  if queued.activeCount < concurrencyLimit then
    match processNext refuses queued with
    | (next, true) => next.settlePromise task.id (.rejected .badHeader)
    | (next, false) => next
  else queued

/-- What a task throws in `finally` rejects a promise that nobody handles; the
process only logs it. -/
def step (refuses : String → Bool) (state : State) : Event → Option State
  | .publishSafe id js subject data options =>
      if (state.promises id).isNone then
        let task := taskOf id subject data options
        if js = false then
          some (state.setPromise id (.rejected (.app notOperationalException)))
        else if queueLimit task.isCritical ≤ state.queue.length then
          some (state.setPromise id
            (.rejected (.app (queueLimitException task.isCritical))))
        else some (accept refuses state task)
      else none
  | .settle id failure =>
      match state.find id with
      | some ⟨task, .publishing⟩ =>
          match failure with
          | none => some (state.setPhase id (.settled none))
          | some _ => some (State.setPhase
              { state with published := state.published ++ [task.deadLetter] }
              id .deadLetter)
      | some ⟨_, .deadLetter⟩ => some (state.setPhase id (.settled failure))
      | _ => none
  | .report id =>
      match state.find id with
      | some ⟨task, .settled finalErr⟩ =>
          let result := match finalErr with
            | none => PromiseState.resolved
            | some failure => .rejected (.error failure.message)
          some (State.setPhase
            (if task.isCritical then state.settlePromise id result else state)
            id .finishing)
      | _ => none
  | .finish id =>
      match state.find id with
      | some ⟨_, .finishing⟩ =>
          some (processNext refuses
            { state with
              active := state.active.eraseP fun entry => entry.task.id = id
              activeCount := state.activeCount - 1 }).1
      | _ => none

end OceanChat.Publisher
