import OceanChat.Common.BaseNatsSubscriber
import OceanChat.Cores.Idempotency

/-!
# Login events at the user service

Any number of instances share one Redis and the durable consumer of
`auth.event.user.loggedIn`.  The server delivers a message to one instance at a
time and again after a NAK or when the ack wait has run out; an instance handles
what it has received one message after the other, moves from one awaited command
to the next and may crash between them.
-/

namespace OceanChat.User

open OceanChat.Idempotency (Redis)

/-- The login time is in milliseconds. -/
structure UserLoggedInEvent where
  userId : String
  deviceId : String
  loginTime : ℤ
  deriving DecidableEq

/-- The content of a message, after parsing and validation. -/
inductive Payload
  | event (event : UserLoggedInEvent)
  | malformed
  deriving DecidableEq

/-- A message of the stream as the server keeps it; it may be delivered from
`readyAt` on.  `stored` tells that a copy is in the dead-letter stream. -/
structure Message where
  payload : Payload
  deliveries : ℕ
  readyAt : ℕ
  acked : Bool
  stored : Bool
  deriving DecidableEq

/-- The command that the consume loop of an instance awaits. -/
inductive Work
  | idle
  | marking (id : ℕ) (event : UserLoggedInEvent) (deliveryCount : ℕ)
  | adding (id : ℕ) (event : UserLoggedInEvent) (deliveryCount : ℕ)
  | cleaning (id : ℕ) (event : UserLoggedInEvent) (deliveryCount : ℕ)
  deriving DecidableEq

/-- `received` holds the deliveries that the loop has not come to yet,
`deadLetters` the publishes to the dead-letter subject under way. -/
structure Node where
  received : List (ℕ × ℕ)
  work : Work
  deadLetters : List ℕ
  deriving DecidableEq

def Node.started : Node := ⟨[], .idle, []⟩

/-- `added` records the events for which `addDevice` has completed. -/
structure State where
  now : ℕ
  redis : Redis
  messages : ℕ → Option Message
  nodes : ℕ → Node
  added : List UserLoggedInEvent

def State.initial : State where
  now := 0
  redis := TtlStore.empty
  messages := fun _ => none
  nodes := fun _ => Node.started
  added := []

/-- `arrives` tells whether the acknowledgement reaches the server. -/
inductive Event
  | publish (id : ℕ) (payload : Payload)
  | deliver (site id : ℕ)
  | receive (site : ℕ) (arrives : Bool)
  | setnx (site : ℕ) (reply : Reply) (arrives : Bool)
  | add (site : ℕ) (reply : Reply) (arrives : Bool)
  | del (site : ℕ) (reply : Reply)
  | deadLetter (site index : ℕ) (reply : Reply) (arrives : Bool)
  | crash (site : ℕ)
  | tick (ms : ℕ)

/-- The key that marks an event as handled. -/
def dedupeKey (event : UserLoggedInEvent) : String :=
  "idempotency:auth.event.user.loggedIn:" ++ event.userId ++ ":" ++
    event.deviceId ++ ":" ++ toString event.loginTime

/-- The lifetime of the mark in milliseconds. -/
def dedupeTtl : ℕ := 120000

def State.setNode (state : State) (site : ℕ) (node : Node) : State :=
  { state with nodes := Function.update state.nodes site node }

def State.setMessage (state : State) (id : ℕ) (message : Message) : State :=
  { state with messages := Function.update state.messages id (some message) }

/-- `m.ack()`. -/
def State.ack (state : State) (id : ℕ) (arrives : Bool) : State :=
  match state.messages id with
  | some message =>
      if arrives then state.setMessage id { message with acked := true } else state
  | none => state

/-- `m.nak()`: the server may deliver the message again at once. -/
def State.nak (state : State) (id : ℕ) : State :=
  match state.messages id with
  | some message => state.setMessage id { message with readyAt := state.now }
  | none => state

/-- `handleError` after `onEvent` has thrown; the consumer configuration leaves
`max_deliver` out.  The publish to the dead-letter subject is only started. -/
def State.fail (state : State) (site id deliveryCount : ℕ) : State :=
  let node := { state.nodes site with work := .idle }
  match BaseNatsSubscriber.handleError .processing deliveryCount none with
  | .ack => (state.setNode site node).ack id true
  | .deadLetter =>
      state.setNode site { node with deadLetters := node.deadLetters ++ [id] }
  | .nak => (state.setNode site node).nak id

def State.finish (state : State) (site id : ℕ) (arrives : Bool) : State :=
  (state.setNode site { state.nodes site with work := .idle }).ack id arrives

def step (ackWait : ℕ) (state : State) : Event → Option State
  | .publish id payload =>
      match state.messages id with
      | some _ => none
      | none => some (state.setMessage id ⟨payload, 0, state.now, false, false⟩)
  | .deliver site id =>
      match state.messages id with
      | some message =>
          if message.acked = false ∧
              message.deliveries < BaseNatsSubscriber.threshold none ∧
              message.readyAt ≤ state.now then
            let node := state.nodes site
            some (State.setNode
              (state.setMessage id { message with
                deliveries := message.deliveries + 1
                readyAt := state.now + ackWait })
              site
              { node with received := node.received ++ [(id, message.deliveries + 1)] })
          else none
      | none => none
  | .receive site arrives =>
      let node := state.nodes site
      match node.work, node.received with
      | .idle, (id, deliveryCount) :: received =>
          match state.messages id with
          | some ⟨.event event, _, _, _, _⟩ =>
              some (state.setNode site { node with
                received := received
                work := .marking id event deliveryCount })
          | some ⟨.malformed, _, _, _, _⟩ =>
              some (State.ack (state.setNode site { node with received := received })
                id arrives)
          | none => none
      | _, _ => none
  | .setnx site reply arrives =>
      match (state.nodes site).work with
      | .marking id event deliveryCount =>
          let (redis, isFirstTime) := TtlStore.setnx state.redis (dedupeKey event)
            (.other "1") (some (state.now + dedupeTtl))
          let next := if reply.took then { state with redis := redis } else state
          some
            (if reply = .ok then
              if isFirstTime then
                next.setNode site { state.nodes site with
                  work := .adding id event deliveryCount }
              else next.finish site id arrives
            else next.fail site id deliveryCount)
      | _ => none
  | .add site reply arrives =>
      match (state.nodes site).work with
      | .adding id event deliveryCount =>
          some
            (if reply = .ok then
              State.finish { state with added := event :: state.added } site id
                arrives
            else state.setNode site { state.nodes site with
              work := .cleaning id event deliveryCount })
      | _ => none
  | .del site reply =>
      match (state.nodes site).work with
      | .cleaning id event deliveryCount =>
          let next := if reply.took then
            { state with redis := TtlStore.del state.redis (dedupeKey event) }
            else state
          some (next.fail site id deliveryCount)
      | _ => none
  | .deadLetter site index reply arrives =>
      let node := state.nodes site
      match node.deadLetters[index]? with
      | some id =>
          match state.messages id with
          | some message =>
              let next := State.setMessage
                (state.setNode site
                  { node with deadLetters := node.deadLetters.eraseIdx index })
                id { message with stored := message.stored || reply.took }
              some (if reply = .ok then next.ack id arrives else next.nak id)
          | none => none
      | none => none
  | .crash site => some (state.setNode site Node.started)
  | .tick ms =>
      some { state with
        now := state.now + ms
        redis := TtlStore.sweep state.redis (state.now + ms) }

end OceanChat.User
