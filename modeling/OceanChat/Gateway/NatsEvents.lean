import OceanChat.Common.BaseNatsSubscriber
import OceanChat.Cores.Idempotency
import OceanChat.Gateway.TokenBlacklist

/-!
# Revoke events at the gateway

Any number of gateway instances share one Redis.  Each has its own memory, its
own ephemeral consumer of `auth.jwt.revoke` and its own consume loop, which
handles one message at a time and moves from one awaited command to the next.
The server may deliver every retained message to every instance in any order
and again; an instance may restart with an empty memory.
-/

namespace OceanChat.Gateway

open OceanChat.Idempotency (Redis)

structure TokenRevokedEvent where
  jti : String
  exp : ℤ
  deriving DecidableEq

/-- The content of a message, after parsing and validation. -/
inductive Payload
  | event (event : TokenRevokedEvent)
  | malformed
  deriving DecidableEq

/-- The command that the consume loop of an instance awaits. -/
inductive Work
  | idle
  | marking (event : TokenRevokedEvent) (deliveryCount : ℕ)
  | adding (event : TokenRevokedEvent) (deliveryCount : ℕ)
  | cleaning (event : TokenRevokedEvent) (deliveryCount : ℕ)
  deriving DecidableEq

/-- `deadLetters` are the publishes to the dead-letter subject under way, which
the loop does not await.  `acked` records the revoke events acknowledged since
the instance started. -/
structure Node where
  cache : Cache
  work : Work
  deadLetters : List TokenRevokedEvent
  acked : List TokenRevokedEvent

def Node.started : Node := ⟨TtlStore.empty, .idle, [], []⟩

structure State where
  now : ℕ
  redis : Redis
  stream : List Payload
  nodes : ℕ → Node

def State.initial : State where
  now := 0
  redis := TtlStore.empty
  stream := []
  nodes := fun _ => Node.started

inductive Event
  | publish (payload : Payload)
  | deliver (site : ℕ) (payload : Payload) (deliveryCount : ℕ)
  | setnx (site : ℕ) (reply : Reply)
  | add (site : ℕ) (reply : Reply)
  | del (site : ℕ) (reply : Reply)
  | deadLetter (site index : ℕ) (reply : Reply)
  | restart (site : ℕ)
  | tick (ms : ℕ)

/-- The key that marks an event as handled. -/
def dedupeKey (jti : String) : String := "idempotency:auth.jwt.revoke:" ++ jti

/-- The lifetime of the mark in milliseconds. -/
def dedupeTtl : ℕ := 120000

/-- The `setnx` of `onEvent`. -/
def markEvent (redis : Redis) (now : ℕ) (jti : String) : Redis × Bool :=
  TtlStore.setnx redis (dedupeKey jti) (.other "1") (some (now + dedupeTtl))

def Node.ack (node : Node) (event : TokenRevokedEvent) : Node :=
  { node with work := .idle, acked := event :: node.acked }

/-- `handleError` after `onEvent` has thrown; the consumer configuration leaves
`max_deliver` out.  The publish to the dead-letter subject is only started. -/
def Node.fail (node : Node) (event : TokenRevokedEvent) (deliveryCount : ℕ) :
    Node :=
  match BaseNatsSubscriber.handleError .processing deliveryCount none with
  | .ack => node.ack event
  | .deadLetter =>
      { node with work := .idle, deadLetters := node.deadLetters ++ [event] }
  | .nak => { node with work := .idle }

def State.setNode (state : State) (site : ℕ) (node : Node) : State :=
  { state with nodes := Function.update state.nodes site node }

/-- A token identifier names one token, so its events agree on the expiry. -/
def agreesWith (stream : List Payload) : Payload → Bool
  | .malformed => true
  | .event event => stream.all fun
      | .malformed => true
      | .event other => other.jti != event.jti || other.exp == event.exp

/-- One event of the system.  A malformed message is acknowledged at once. -/
def step (state : State) : Event → Option State
  | .publish payload =>
      if agreesWith state.stream payload then
        some { state with stream := state.stream ++ [payload] }
      else none
  | .deliver site payload deliveryCount =>
      let node := state.nodes site
      if node.work = .idle ∧ payload ∈ state.stream then
        match payload with
        | .malformed => some state
        | .event event =>
            some (state.setNode site
              { node with work := .marking event deliveryCount })
      else none
  | .setnx site reply =>
      let node := state.nodes site
      match node.work with
      | .marking event deliveryCount =>
          let (redis, isFirstTime) := markEvent state.redis state.now event.jti
          let next := if reply.took then { state with redis := redis } else state
          some (next.setNode site
            (if reply = .ok then
              if isFirstTime then
                { node with work := .adding event deliveryCount }
              else node.ack event
            else node.fail event deliveryCount))
      | _ => none
  | .add site reply =>
      let node := state.nodes site
      match node.work with
      | .adding event deliveryCount =>
          let cache := if reply.took then
            TokenBlacklistService.add node.cache state.now event.jti event.exp
            else node.cache
          some (state.setNode site
            (if reply = .ok then { node with cache := cache }.ack event
            else { node with
              cache := cache
              work := .cleaning event deliveryCount }))
      | _ => none
  | .del site reply =>
      let node := state.nodes site
      match node.work with
      | .cleaning event deliveryCount =>
          let next := if reply.took then
            { state with redis := TtlStore.del state.redis (dedupeKey event.jti) }
            else state
          some (next.setNode site (node.fail event deliveryCount))
      | _ => none
  | .deadLetter site index reply =>
      let node := state.nodes site
      match node.deadLetters[index]? with
      | some event =>
          some (state.setNode site { node with
            deadLetters := node.deadLetters.eraseIdx index
            acked := if reply = .ok then event :: node.acked else node.acked })
      | none => none
  | .restart site => some (state.setNode site Node.started)
  | .tick ms =>
      some { state with
        now := state.now + ms
        redis := TtlStore.sweep state.redis (state.now + ms)
        nodes := fun site => { state.nodes site with
          cache := TtlStore.sweep (state.nodes site).cache (state.now + ms) } }

/-! ## An undisturbed delivery -/

inductive Handled
  | duplicate
  | blacklisted
  deriving DecidableEq

/-- What `onEvent` does when no command fails: how it ended, the shared store
and the memory of the instance. -/
def onEvent (redis : Redis) (cache : Cache) (now : ℕ)
    (event : TokenRevokedEvent) : Handled × Redis × Cache :=
  let (marked, isFirstTime) := markEvent redis now event.jti
  if isFirstTime then
    (.blacklisted, marked,
      TokenBlacklistService.add cache now event.jti event.exp)
  else (.duplicate, marked, cache)

/-- The commands of a delivery that handles the event as `outcome` says. -/
def delivery (site : ℕ) (event : TokenRevokedEvent) (deliveryCount : ℕ) :
    Handled → List Event
  | .duplicate => [.deliver site (.event event) deliveryCount, .setnx site .ok]
  | .blacklisted =>
      [.deliver site (.event event) deliveryCount, .setnx site .ok,
        .add site .ok]

/-- The steps of an undisturbed delivery add up to `onEvent`. -/
theorem run_delivery {state : State} {site deliveryCount : ℕ}
    {event : TokenRevokedEvent} (hidle : (state.nodes site).work = .idle)
    (hstream : .event event ∈ state.stream) :
    let (outcome, redis, cache) :=
      onEvent state.redis (state.nodes site).cache state.now event
    Runs.run step state (delivery site event deliveryCount outcome) =
      some (State.setNode { state with redis := redis } site
        ({ state.nodes site with cache := cache }.ack event)) := by
  simp only [onEvent]
  cases hmarked : markEvent state.redis state.now event.jti with
  | mk marked isFirstTime =>
      cases isFirstTime with
      | true =>
          simp [delivery, Runs.run, step, hidle, hstream, State.setNode,
            hmarked, Reply.took, Node.ack]
      | false =>
          simp [delivery, Runs.run, step, hidle, hstream, State.setNode,
            hmarked, Reply.took, Node.ack]

end OceanChat.Gateway
