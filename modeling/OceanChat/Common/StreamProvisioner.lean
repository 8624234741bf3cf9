import OceanChat.Common.EventPayload
import OceanChat.Common.SubscriberStart
import OceanChat.Core.Runs
import OceanChat.Core.SubjectStreams

/-!
# The provisioning of the streams

Every instance of a service that publishes creates or updates the streams of its
configuration, one after the other, before it starts.  Instances of all services do so
next to each other, and a request may be refused, get lost, or be carried out after its
caller has given it up.
-/

namespace OceanChat.StreamProvisioner

open EventPayload (PublishSite)
open Runs (run)
open SubjectStreams

/-! ## Configurations -/

inductive RetentionPolicy
  | limits
  | interest
  | workqueue
  deriving DecidableEq

inductive StorageType
  | file
  | memory
  deriving DecidableEq

/-- `Partial<StreamConfig>`; every configuration in use has all fields but, as far as its
type says, a name.  The age is in nanoseconds. -/
structure StreamConfig where
  name : Option String
  subjects : List String
  retention : RetentionPolicy
  storage : StorageType
  replicas : ℕ
  maxAge : ℕ
  description : String
  deriving DecidableEq

abbrev Server := Table String StreamConfig

def tokens (subject : String) : List (List Char) := subject.toList.splitOn '.'

def patternOf : List (List Char) → Pattern (List Char)
  | [] => .finish
  | [['>']] => .rest
  | ['*'] :: rest => .star (patternOf rest)
  | token :: rest => .token token (patternOf rest)

def StreamConfig.patterns (config : StreamConfig) : List (Pattern (List Char)) :=
  config.subjects.map fun subject => patternOf (tokens subject)

/-! ## One instance -/

/-- The request of the loop that is awaited. -/
inductive Stage
  | looking
  | updating
  | adding
  deriving DecidableEq

inductive Progress
  | connecting (configs : List StreamConfig)
  | openingManager (configs : List StreamConfig)
  | provisioning (stage : Stage) (name : String) (config : StreamConfig)
      (rest : List StreamConfig)
  | resolved
  | rejected (error : AppException)
  deriving DecidableEq

/-- The `catch` block throws this, whatever it has caught. -/
def failedToProvision : AppException :=
  infrastructureException "FAILED_TO_PROVISION_JETSTREAM_STREAMS"
    ErrorCodes.serviceError 500

/-- The head of the loop, which looks the next stream up. -/
def loop : List StreamConfig → Progress
  | [] => .resolved
  | config :: rest =>
      match config.name with
      | some name =>
          if name = "" then .rejected failedToProvision
          else .provisioning .looking name config rest
      | none => .rejected failedToProvision

def ensureStreams : Option (List StreamConfig) → Progress
  | none | some [] => .resolved
  | some configs => .connecting configs

inductive Request
  | connect
  | jetstreamManager
  | info (name : String)
  | update (name : String) (config : StreamConfig)
  | add (config : StreamConfig)

inductive Reply
  | done
  | found (streamInfo : Bool)
  | failed

def Progress.request : Progress → Option Request
  | .connecting _ => some .connect
  | .openingManager _ => some .jetstreamManager
  | .provisioning .looking name _ _ => some (.info name)
  | .provisioning .updating name config _ => some (.update name config)
  | .provisioning .adding _ config _ => some (.add config)
  | .resolved | .rejected _ => none

/-- A failed lookup counts as no stream. -/
def Progress.resume : Progress → Reply → Progress
  | .connecting configs, .done => .openingManager configs
  | .openingManager configs, .done => loop configs
  | .provisioning .looking name config rest, .found true =>
      .provisioning .updating name config rest
  | .provisioning .looking name config rest, _ => .provisioning .adding name config rest
  | .provisioning .updating _ _ rest, .done | .provisioning .adding _ _ rest, .done =>
      loop rest
  | _, _ => .rejected failedToProvision

/-! ## All instances and the server -/

def reply (server : Server) : Option Server → Server × Reply
  | some next => (next, .done)
  | none => (server, .failed)

def handle (server : Server) : Request → Server × Reply
  | .connect | .jetstreamManager => (server, .done)
  | .info name => (server, .found (server.get name).isSome)
  | .update name config => reply server (update StreamConfig.patterns server name config)
  | .add config =>
      reply server (config.name.bind fun name =>
        add StreamConfig.patterns server name config)

/-- `late` are the requests that may still be carried out although nobody waits for
them. -/
structure State where
  server : Server
  instances : ℕ → Option Progress
  late : List Request

def State.initial (server : Server) : State := ⟨server, fun _ => none, []⟩

inductive Event
  | onModuleInit (id : ℕ)
  | serve (id : ℕ) (arrives : Bool)
  | fail (id : ℕ) (comes : Bool)
  | process (index : ℕ)

def step (plan : ℕ → Option (List StreamConfig)) (state : State) :
    Event → Option State
  | .onModuleInit id =>
      if (state.instances id).isNone then
        some { state with
          instances := Function.update state.instances id (some (ensureStreams (plan id))) }
      else none
  | .serve id arrives =>
      (state.instances id).bind fun progress => progress.request.map fun request =>
        let (server, reply) := handle state.server request
        { state with
          server := server
          instances := Function.update state.instances id
            (some (progress.resume (if arrives then reply else .failed))) }
  | .fail id comes =>
      (state.instances id).bind fun progress => progress.request.map fun request =>
        { state with
          instances := Function.update state.instances id (some (progress.resume .failed))
          late := if comes then state.late ++ [request] else state.late }
  | .process index =>
      state.late[index]?.map fun request =>
        { state with
          server := (handle state.server request).1
          late := state.late.eraseIdx index }

/-! ## What a request does -/

/-- The stream that a request writes. -/
def Request.target : Request → Option (String × StreamConfig)
  | .update name config => some (name, config)
  | .add config => config.name.map (·, config)
  | _ => none

/-- A request leaves the server as it is or writes its target; a write that is
answered as done has been carried out. -/
theorem handle_cases (server : Server) (request : Request) :
    (handle server request).1 = server ∧
        ((handle server request).2 = .done → request.target = none) ∨
      ∃ name config, request.target = some (name, config) ∧
        Written StreamConfig.patterns server name config (handle server request).1 := by
  cases request with
  | connect => exact .inl ⟨rfl, fun _ => rfl⟩
  | jetstreamManager => exact .inl ⟨rfl, fun _ => rfl⟩
  | info name => exact .inl ⟨rfl, fun _ => rfl⟩
  | update name config =>
      rw [handle]
      cases hupdate : update StreamConfig.patterns server name config with
      | none => exact .inl ⟨rfl, fun hdone => by cases hdone⟩
      | some next => exact .inr ⟨name, config, rfl, written_of_update hupdate⟩
  | add config =>
      rw [handle]
      cases hname : config.name with
      | none => exact .inl ⟨rfl, fun hdone => by cases hdone⟩
      | some name =>
          rw [Option.bind_some]
          cases hadd : add StreamConfig.patterns server name config with
          | none => exact .inl ⟨rfl, fun hdone => by cases hdone⟩
          | some next =>
              exact .inr ⟨name, config, by simp [Request.target, hname],
                written_of_add hadd⟩

/-! ## The streams of a plan -/

section Plan

variable (plan : ℕ → Option (List StreamConfig)) (initial : Server)

/-- Some instance provisions this stream with this configuration. -/
def Planned (name : String) (config : StreamConfig) : Prop :=
  ∃ id configs, plan id = some configs ∧ config ∈ configs ∧ config.name = some name

def Request.IsPlanned (request : Request) : Prop :=
  ∀ name config, request.target = some (name, config) → Planned plan name config

/-- The stream exists as one of the instances has configured it. -/
def Present (server : Server) (name : String) : Prop :=
  ∃ config, server.get name = some config ∧ Planned plan name config

/-- The configurations that an instance has not dealt with. -/
def Progress.remaining : Progress → Option (List StreamConfig)
  | .connecting configs | .openingManager configs => some configs
  | .provisioning _ _ config rest => some (config :: rest)
  | .resolved => some []
  | .rejected _ => none

/-- The streams of all configurations that an instance has dealt with are present. -/
structure Advanced (server : Server) (configs : List StreamConfig) (progress : Progress) :
    Prop where
  named : ∀ stage name config rest, progress = .provisioning stage name config rest →
    config.name = some name
  present : ∀ remaining, progress.remaining = some remaining →
    ∃ passed, configs = passed ++ remaining ∧
      ∀ config ∈ passed, ∃ name, config.name = some name ∧ Present plan server name

/-- What the requests of the plan leave of a server. -/
structure Grown (server : Server) : Prop where
  kept : ∀ name, (initial.get name).isSome → (server.get name).isSome
  stored : ∀ name config, server.get name = some config →
    initial.get name = some config ∨ Planned plan name config
  separate : Separate StreamConfig.patterns initial →
    Separate StreamConfig.patterns server

structure Provisioned (state : State) : Prop where
  grown : Grown plan initial state.server
  late : ∀ request ∈ state.late, request.IsPlanned plan
  advanced : ∀ id progress, state.instances id = some progress →
    Advanced plan state.server ((plan id).getD []) progress

variable {plan initial}
variable {server next : Server} {name : String} {config : StreamConfig}
variable {configs rest : List StreamConfig} {progress : Progress} {request : Request}

theorem Grown.of_written (hgrown : Grown plan initial server)
    (hplanned : Planned plan name config)
    (hwritten : Written StreamConfig.patterns server name config next) :
    Grown plan initial next where
  kept other hother := by
    by_cases hne : other = name
    · rw [hne, hwritten.same, Option.isSome_some]
    · rw [hwritten.of_ne other hne]
      exact hgrown.kept other hother
  stored other config' hget := by
    by_cases hne : other = name
    · subst hne
      rw [hwritten.same] at hget
      obtain rfl := Option.some.inj hget
      exact .inr hplanned
    · rw [hwritten.of_ne other hne] at hget
      exact hgrown.stored other config' hget
  separate hseparate := hwritten.separate (hgrown.separate hseparate)

theorem Present.of_written {other : String} (hpresent : Present plan server other)
    (hplanned : Planned plan name config)
    (hwritten : Written StreamConfig.patterns server name config next) :
    Present plan next other := by
  by_cases hne : other = name
  · subst hne
    exact ⟨config, hwritten.same, hplanned⟩
  · rwa [Present, hwritten.of_ne other hne]

theorem Advanced.mono (hadvanced : Advanced plan server configs progress)
    (hmono : ∀ name, Present plan server name → Present plan next name) :
    Advanced plan next configs progress where
  named := hadvanced.named
  present remaining hremaining := by
    obtain ⟨passed, hsplit, hpassed⟩ := hadvanced.present remaining hremaining
    refine ⟨passed, hsplit, fun config hmem => ?_⟩
    obtain ⟨name, hname, hpresent⟩ := hpassed config hmem
    exact ⟨name, hname, hmono name hpresent⟩

theorem advanced_rejected (error : AppException) :
    Advanced plan server configs (.rejected error) where
  named _ _ _ _ hprogress := by cases hprogress
  present _ hremaining := by cases hremaining

theorem advanced_ensureStreams (configs : Option (List StreamConfig)) :
    Advanced plan server (configs.getD []) (ensureStreams configs) := by
  match configs with
  | none | some [] =>
      refine ⟨fun _ _ _ _ hprogress => (by cases hprogress), ?_⟩
      rintro remaining ⟨⟩
      exact ⟨[], rfl, List.forall_mem_nil _⟩
  | some (config :: rest) =>
      refine ⟨fun _ _ _ _ hprogress => (by cases hprogress), ?_⟩
      rintro remaining ⟨⟩
      exact ⟨[], rfl, List.forall_mem_nil _⟩

/-- The next turn of the loop, once the streams before it are present. -/
theorem advanced_loop {passed : List StreamConfig} (hsplit : configs = passed ++ rest)
    (hpassed : ∀ config ∈ passed,
      ∃ name, config.name = some name ∧ Present plan server name) :
    Advanced plan server configs (loop rest) := by
  cases rest with
  | nil =>
      refine ⟨fun _ _ _ _ hprogress => (by cases hprogress), ?_⟩
      rintro remaining ⟨⟩
      exact ⟨passed, hsplit, hpassed⟩
  | cons config rest =>
      rw [loop]
      cases hname : config.name with
      | none => exact advanced_rejected _
      | some name =>
          dsimp only
          split
          · exact advanced_rejected _
          · refine ⟨?_, ?_⟩
            · rintro stage name' config' rest' ⟨⟩
              exact hname
            · rintro remaining ⟨⟩
              exact ⟨passed, hsplit, hpassed⟩

/-- A request of an instance writes what its plan says. -/
theorem isPlanned_of_request {id : ℕ}
    (hadvanced : Advanced plan server ((plan id).getD []) progress)
    (hrequest : progress.request = some request) : request.IsPlanned plan := by
  intro name config htarget
  have hmem : ∀ stage name' config' rest,
      progress = .provisioning stage name' config' rest → Planned plan name' config' := by
    rintro stage name' config' rest rfl
    obtain ⟨passed, hsplit, _⟩ := hadvanced.present _ rfl
    have hconfig : config' ∈ (plan id).getD [] := by
      rw [hsplit]
      simp
    cases hplan : plan id with
    | none => simp [hplan] at hconfig
    | some configs =>
        rw [hplan] at hconfig
        exact ⟨id, configs, hplan, hconfig, hadvanced.named _ _ _ _ rfl⟩
  match progress with
  | .provisioning .updating name' config' rest =>
      obtain rfl := Option.some.inj hrequest
      obtain ⟨rfl, rfl⟩ : name' = name ∧ config' = config := by
        simpa [Request.target] using htarget
      exact hmem _ _ _ _ rfl
  | .provisioning .adding name' config' rest =>
      obtain rfl := Option.some.inj hrequest
      have hname := hadvanced.named _ _ _ _ rfl
      obtain ⟨rfl, rfl⟩ : name' = name ∧ config' = config := by
        simpa [Request.target, hname] using htarget
      exact hmem _ _ _ _ rfl
  | .connecting configs | .openingManager configs | .provisioning .looking _ _ _ =>
      obtain rfl := Option.some.inj hrequest
      cases htarget
  | .resolved | .rejected _ => cases hrequest

/-- An instance goes on with an answer, if what is answered as done is present. -/
theorem advanced_resume (hadvanced : Advanced plan server configs progress)
    (hrequest : progress.request = some request) (reply : Reply)
    (hdone : reply = .done → ∀ name config, request.target = some (name, config) →
      Present plan server name) :
    Advanced plan server configs (progress.resume reply) := by
  match progress, reply with
  | .connecting rest, .done =>
      exact ⟨fun _ _ _ _ hprogress => (by cases hprogress), hadvanced.present⟩
  | .openingManager rest, .done =>
      obtain ⟨passed, hsplit, hpassed⟩ := hadvanced.present _ rfl
      exact advanced_loop hsplit hpassed
  | .provisioning .looking name config rest, .found true
  | .provisioning .looking name config rest, .found false
  | .provisioning .looking name config rest, .done
  | .provisioning .looking name config rest, .failed =>
      refine ⟨?_, hadvanced.present⟩
      rintro stage name' config' rest' ⟨⟩
      exact hadvanced.named _ _ _ _ rfl
  | .provisioning .updating name config rest, .done
  | .provisioning .adding name config rest, .done =>
      obtain ⟨passed, hsplit, hpassed⟩ := hadvanced.present _ rfl
      have hname := hadvanced.named _ _ _ _ rfl
      obtain rfl := Option.some.inj hrequest
      have hpresent : Present plan server name :=
        hdone rfl name config (by simp [Request.target, hname])
      have hnext : configs = (passed ++ [config]) ++ rest := by simp [hsplit]
      refine advanced_loop hnext ?_
      intro other hother
      obtain hother | rfl := List.mem_append.mp hother |>.imp_right List.mem_singleton.mp
      · exact hpassed other hother
      · exact ⟨name, hname, hpresent⟩
  | .connecting _, .failed | .connecting _, .found _
  | .openingManager _, .failed | .openingManager _, .found _
  | .provisioning .updating _ _ _, .failed | .provisioning .updating _ _ _, .found _
  | .provisioning .adding _ _ _, .failed | .provisioning .adding _ _ _, .found _
  | .resolved, _ | .rejected _, _ => exact advanced_rejected _

/-! ## Runs -/

theorem provisioned_initial : Provisioned plan initial (.initial initial) where
  grown := ⟨fun _ hname => hname, fun _ _ hget => .inl hget, id⟩
  late := List.forall_mem_nil _
  advanced _ _ hinstance := by cases hinstance

variable {state after : State}

/-- A planned request leaves the server grown and every stream present. -/
theorem grown_handle (hgrown : Grown plan initial server)
    (hplanned : request.IsPlanned plan) :
    Grown plan initial (handle server request).1 ∧
      ∀ name, Present plan server name → Present plan (handle server request).1 name := by
  obtain ⟨hsame, _⟩ | ⟨name, config, htarget, hwritten⟩ := handle_cases server request
  · rw [hsame]
    exact ⟨hgrown, fun _ hpresent => hpresent⟩
  · have htarget := hplanned name config htarget
    exact ⟨hgrown.of_written htarget hwritten,
      fun other hpresent => hpresent.of_written htarget hwritten⟩

theorem present_of_done (hplanned : request.IsPlanned plan)
    (hdone : (handle server request).2 = .done) {name : String} {config : StreamConfig}
    (htarget : request.target = some (name, config)) :
    Present plan (handle server request).1 name := by
  obtain ⟨_, hnone⟩ | ⟨name', config', htarget', hwritten⟩ := handle_cases server request
  · rw [hnone hdone] at htarget
    cases htarget
  · rw [htarget] at htarget'
    obtain ⟨rfl, rfl⟩ := Prod.mk.inj (Option.some.inj htarget')
    exact ⟨config, hwritten.same, hplanned name config htarget⟩

theorem advanced_update {instances : ℕ → Option Progress} {id : ℕ}
    (hothers : ∀ other progress, instances other = some progress →
      Advanced plan server ((plan other).getD []) progress)
    (hnew : Advanced plan server ((plan id).getD []) progress) (other : ℕ)
    (current : Progress)
    (hinstance : Function.update instances id (some progress) other = some current) :
    Advanced plan server ((plan other).getD []) current := by
  by_cases hne : other = id
  · subst hne
    rw [Function.update_self] at hinstance
    obtain rfl := Option.some.inj hinstance
    exact hnew
  · rw [Function.update_of_ne hne] at hinstance
    exact hothers other current hinstance

theorem provisioned_step {event : Event} (hprovisioned : Provisioned plan initial state)
    (hstep : step plan state event = some after) : Provisioned plan initial after := by
  cases event with
  | onModuleInit id =>
      simp only [step, Option.ite_none_right_eq_some, Option.some.injEq] at hstep
      obtain ⟨_, rfl⟩ := hstep
      refine ⟨hprovisioned.grown, hprovisioned.late, ?_⟩
      exact advanced_update hprovisioned.advanced (advanced_ensureStreams _)
  | serve id arrives =>
      simp only [step, Option.bind_eq_some_iff, Option.map_eq_some_iff] at hstep
      obtain ⟨progress, hinstance, request, hrequest, rfl⟩ := hstep
      have hadvanced := hprovisioned.advanced id progress hinstance
      have hplanned := isPlanned_of_request hadvanced hrequest
      obtain ⟨hgrown, hmono⟩ := grown_handle hprovisioned.grown hplanned
      refine ⟨hgrown, hprovisioned.late, ?_⟩
      refine advanced_update
        (fun other current hother => (hprovisioned.advanced other current hother).mono hmono)
        (advanced_resume (hadvanced.mono hmono) hrequest _ ?_)
      intro hdone name config htarget
      -- Only an answer that has arrived is taken as done.
      cases arrives with
      | false => cases hdone
      | true => exact present_of_done hplanned hdone htarget
  | fail id comes =>
      simp only [step, Option.bind_eq_some_iff, Option.map_eq_some_iff] at hstep
      obtain ⟨progress, hinstance, request, hrequest, rfl⟩ := hstep
      have hadvanced := hprovisioned.advanced id progress hinstance
      refine ⟨hprovisioned.grown, ?_, ?_⟩
      · cases comes with
        | false => exact hprovisioned.late
        | true =>
            intro other hother
            obtain hother | rfl :=
              List.mem_append.mp hother |>.imp_right List.mem_singleton.mp
            · exact hprovisioned.late other hother
            · exact isPlanned_of_request hadvanced hrequest
      · exact advanced_update hprovisioned.advanced
          (advanced_resume hadvanced hrequest _ fun hdone => by cases hdone)
  | process index =>
      simp only [step, Option.map_eq_some_iff] at hstep
      obtain ⟨request, hrequest, rfl⟩ := hstep
      have hplanned := hprovisioned.late request (List.mem_of_getElem? hrequest)
      obtain ⟨hgrown, hmono⟩ := grown_handle hprovisioned.grown hplanned
      refine ⟨hgrown, ?_, ?_⟩
      · intro other hother
        exact hprovisioned.late other (List.mem_of_mem_eraseIdx hother)
      · intro id progress hinstance
        exact (hprovisioned.advanced id progress hinstance).mono hmono

theorem provisioned_run {events : List Event}
    (hrun : run (step plan) (.initial initial) events = some after) :
    Provisioned plan initial after :=
  Runs.run_invariant (Provisioned plan initial)
    (fun _ _ _ hprovisioned hstep => provisioned_step hprovisioned hstep)
    provisioned_initial hrun

/-- Once an instance has resolved, all its streams are present. -/
theorem present_of_resolved (hprovisioned : Provisioned plan initial state) {id : ℕ}
    (hresolved : state.instances id = some .resolved) (hplan : plan id = some configs)
    (hconfig : config ∈ configs) (hname : config.name = some name) :
    Present plan state.server name := by
  obtain ⟨passed, hsplit, hpassed⟩ :=
    (hprovisioned.advanced id _ hresolved).present [] rfl
  rw [hplan, List.append_nil, Option.getD_some] at hsplit
  subst hsplit
  obtain ⟨name', hname', hpresent⟩ := hpassed config hconfig
  obtain rfl : name' = name := Option.some.inj (hname'.symm.trans hname)
  exact hpresent

end Plan

/-! ## The streams of the services -/

inductive App
  | auth
  | user

/-- One running instance, its environment and the texts of its language. -/
structure Deployment where
  app : App
  isProduction : Bool
  translate : String → String

/-- The streams that the modules of the services name. -/
inductive Stream
  | authState
  | authEvents
  | dlq
  | user

namespace Stream

def name : Stream → String
  | authState => "AUTH_STATE"
  | authEvents => "AUTH_EVENTS"
  | dlq => "DLQ"
  | user => "USER"

def subjects : Stream → List String
  | authState => ["auth.jwt.revoke"]
  | authEvents => ["auth.event.>"]
  | dlq => ["dlq.auth.event.>", "dlq.auth.jwt.revoke"]
  | user => ["user.event.>"]

def maxAge (isProduction : Bool) : Stream → ℕ
  | authState => 30 * 60 * 1000000000
  | authEvents => 24 * 60 * 60 * 1000000000
  | dlq => 7 * 24 * 60 * 60 * 1000000000
  | user => if isProduction then 24 * 60 * 60 * 1000000000 else 0

def description : Stream → String
  | authState => "AUTH_STATE_STREAM_DESCRIPTION"
  | authEvents => "AUTH_EVENTS_STREAM_DESCRIPTION"
  | dlq => "DLQ_STREAM_DESCRIPTION"
  | user => "USER_EVENTS_STREAM_DESCRIPTION"

def config (deployment : Deployment) (stream : Stream) : StreamConfig where
  name := some stream.name
  subjects := stream.subjects
  retention := .limits
  storage := .file
  replicas := if deployment.isProduction then 3 else 1
  maxAge := stream.maxAge deployment.isProduction
  description := deployment.translate stream.description

theorem name_injective : Function.Injective name := by
  intro left right hname
  cases left <;> cases right <;> first | rfl | exact absurd hname (by decide)

end Stream

def App.streams : App → List Stream
  | .auth => [.authState, .authEvents, .dlq]
  | .user => [.user]

def Deployment.streamConfigs (deployment : Deployment) : List StreamConfig :=
  deployment.app.streams.map (Stream.config deployment)

/-- The subscriber of the events of a site. -/
def subscriber (natsUrl : Option String) : PublishSite → BaseNatsSubscriber.Subscriber
  | .login .. =>
      ⟨natsUrl, "AUTH_EVENTS", some "oceanchat-user-auth-events",
        ⟨none, none, none, none, some "auth.event.user.loggedIn"⟩⟩
  | _ => ⟨natsUrl, "AUTH_STATE", none, ⟨none, none, none, none, some "auth.jwt.revoke"⟩⟩

/-- The stream that a site publishes to. -/
def stream : PublishSite → Stream
  | .login .. => .authEvents
  | _ => .authState

/-- How long a message of a site is kept, in nanoseconds. -/
def retained : PublishSite → ℕ
  | .login .. => 24 * 60 * 60 * 1000000000
  | _ => 30 * 60 * 1000000000

theorem streamName_subscriber (natsUrl : Option String) (site : PublishSite) :
    (subscriber natsUrl site).streamName = (stream site).name := by
  cases site <;> rfl

theorem stream_mem (site : PublishSite) : stream site ∈ App.auth.streams := by
  cases site <;> simp [stream, App.streams]

theorem maxAge_stream (site : PublishSite) (isProduction : Bool) :
    (stream site).maxAge isProduction = retained site := by
  cases site <;> rfl

def Stream.Covers (stream : Stream) (subject : String) : Prop :=
  ∃ pattern ∈ stream.subjects.map (fun subject => patternOf (tokens subject)),
    pattern.covers (tokens subject) = true

theorem covers_loggedIn :
    Stream.authEvents.Covers "auth.event.user.loggedIn" ∧
      Stream.dlq.Covers ("dlq." ++ "auth.event.user.loggedIn") :=
  ⟨⟨_, List.mem_singleton_self _, by decide⟩, ⟨_, List.mem_cons_self, by decide⟩⟩

theorem covers_revoke :
    Stream.authState.Covers "auth.jwt.revoke" ∧
      Stream.dlq.Covers ("dlq." ++ "auth.jwt.revoke") :=
  ⟨⟨_, List.mem_singleton_self _, by decide⟩,
    ⟨_, List.mem_cons_of_mem _ (List.mem_singleton_self _), by decide⟩⟩

theorem covers_task (site : PublishSite) (task : ℕ) :
    (stream site).Covers (site.task task).publication.subject ∧
      Stream.dlq.Covers (site.task task).deadLetter.subject := by
  cases site with
  | login userId deviceId loginTime => exact covers_loggedIn
  | logout jti exp | replay jti exp | refresh jti exp => exact covers_revoke

/-- The filter of the subscriber is the subject itself. -/
theorem exists_filterSubject (natsUrl : Option String) (site : PublishSite) (task : ℕ) :
    ∃ filter, (subscriber natsUrl site).finalConfig.filterSubject = some filter ∧
      (patternOf (tokens filter)).covers (tokens (site.task task).publication.subject) =
        true := by
  have hloggedIn : (patternOf (tokens "auth.event.user.loggedIn")).covers
      (tokens "auth.event.user.loggedIn") = true := by decide
  have hrevoke : (patternOf (tokens "auth.jwt.revoke")).covers
      (tokens "auth.jwt.revoke") = true := by decide
  cases site with
  | login userId deviceId loginTime => exact ⟨_, rfl, hloggedIn⟩
  | logout jti exp | replay jti exp | refresh jti exp => exact ⟨_, rfl, hrevoke⟩

/-- The messages of a subject get to this stream, which keeps them in a file until they
are as old as it says, and to no other one. -/
structure Routed (server : Server) (subject name : String) (maxAge : ℕ) : Prop where
  keeps : ∀ other, Keeps StreamConfig.patterns server (tokens subject) other ↔ other = name
  config : ∃ config, server.get name = some config ∧ config.retention = .limits ∧
    config.storage = .file ∧ config.maxAge = maxAge

section Services

variable {deployment : ℕ → Deployment} {server : Server} {final : State}

theorem exists_deployment_of_planned {stream : Stream} {config : StreamConfig}
    (hplanned : Planned (fun id => some (deployment id).streamConfigs) stream.name config) :
    ∃ id, config = stream.config (deployment id) := by
  obtain ⟨id, configs, hconfigs, hconfig, hname⟩ := hplanned
  obtain rfl := Option.some.inj hconfigs
  obtain ⟨other, _, rfl⟩ := List.mem_map.mp hconfig
  obtain rfl := Stream.name_injective (Option.some.inj hname)
  exact ⟨id, rfl⟩

/-- Once an instance that provisions a stream has resolved, the stream gets all subjects
of its patterns. -/
theorem routed_of_resolved
    (hprovisioned : Provisioned (fun id => some (deployment id).streamConfigs) server final)
    (hseparate : Separate StreamConfig.patterns server) {id : ℕ}
    (hresolved : final.instances id = some .resolved) {stream : Stream}
    (hstream : stream ∈ (deployment id).app.streams) {subject : String} {maxAge : ℕ}
    (hcovers : stream.Covers subject)
    (hage : ∀ isProduction, stream.maxAge isProduction = maxAge) :
    Routed final.server subject stream.name maxAge := by
  obtain ⟨config, hget, hplanned⟩ := present_of_resolved hprovisioned hresolved rfl
    (List.mem_map_of_mem hstream) rfl
  obtain ⟨other, rfl⟩ := exists_deployment_of_planned hplanned
  have hkeeps : Keeps StreamConfig.patterns final.server (tokens subject) stream.name :=
    ⟨_, hget, hcovers⟩
  refine ⟨fun name => ⟨fun hname => ?_, ?_⟩, _, hget, rfl, rfl, hage _⟩
  · exact hprovisioned.grown.separate hseparate _ _ _ hname hkeeps
  · rintro rfl
    exact hkeeps

/-- Whatever streams there are before, and however the starts of any number of instances
are interleaved and their requests fail, get lost or come late: from the moment an
instance of the auth service has started, all that it publishes gets to the stream which
the subscriber of the event consumes with a filter that lets it through, what it dead
letters gets to the dead-letter stream, and neither gets to any other stream. -/
theorem events_are_routed (deployment : ℕ → Deployment) (server : Server)
    (hseparate : Separate StreamConfig.patterns server) (events : List Event)
    (hrun : run (step fun id => some (deployment id).streamConfigs) (.initial server)
      events = some final)
    (id : ℕ) (happ : (deployment id).app = .auth)
    (hresolved : final.instances id = some .resolved) (site : PublishSite) (task : ℕ)
    (natsUrl : Option String) :
    Routed final.server (site.task task).publication.subject
        (subscriber natsUrl site).streamName (retained site) ∧
      Routed final.server (site.task task).deadLetter.subject "DLQ"
        (7 * 24 * 60 * 60 * 1000000000) ∧
      ∃ filter, (subscriber natsUrl site).finalConfig.filterSubject = some filter ∧
        (patternOf (tokens filter)).covers
          (tokens (site.task task).publication.subject) = true := by
  have hprovisioned := provisioned_run hrun
  have hstream : ∀ stream ∈ App.auth.streams, stream ∈ (deployment id).app.streams := by
    rw [happ]
    exact fun _ hstream => hstream
  refine ⟨?_, ?_, ?_⟩
  · rw [streamName_subscriber]
    exact routed_of_resolved hprovisioned hseparate hresolved (hstream _ (stream_mem site))
      (covers_task site task).1 (maxAge_stream site)
  · have hdlq : Stream.dlq ∈ App.auth.streams := by simp [App.streams]
    exact routed_of_resolved hprovisioned hseparate hresolved (hstream _ hdlq)
      (covers_task site task).2 fun _ => rfl
  · exact exists_filterSubject natsUrl site task

end Services

/-- Streams from before: one of another application, and that of the events of the auth
service as an older version has configured it. -/
def ordersStream : StreamConfig :=
  ⟨some "ORDERS", ["orders.>"], .workqueue, .memory, 1, 0, "ORDERS"⟩

def oldStream : StreamConfig :=
  ⟨some "AUTH_EVENTS", ["auth.event.user.*"], .interest, .memory, 1, 0, "OLD"⟩

def oldServer : Server :=
  (InsertionMap.empty.set "ORDERS" ordersStream).set "AUTH_EVENTS" oldStream

/-- Instance 1 comes to the second stream and times out, instance 0 starts without an
error, and the server then carries out what instance 1 has asked for. -/
def overlappingStarts : List Event :=
  .onModuleInit 1 :: List.replicate 5 (.serve 1 true) ++
    [.onModuleInit 0, .serve 0 true, .fail 1 true] ++
      List.replicate 7 (.serve 0 true) ++ [.process 0]

theorem separate_oldServer : Separate StreamConfig.patterns oldServer := by
  have hfirst : add StreamConfig.patterns InsertionMap.empty "ORDERS" ordersStream =
      some (InsertionMap.empty.set "ORDERS" ordersStream) := by rfl
  have hsecond : add StreamConfig.patterns
      (InsertionMap.empty.set "ORDERS" ordersStream) "AUTH_EVENTS" oldStream =
      some oldServer := by rfl
  exact (written_of_add hsecond).separate ((written_of_add hfirst).separate separate_empty)

/-- Instance 0 is in production. -/
def twoInstances (id : ℕ) : Deployment := ⟨.auth, decide (id = 0), fun key => key⟩

/-- The stream is at last the one of instance 1. -/
theorem events_are_routed_of_overlappingStarts :
    ∃ final, run (step fun id => some (twoInstances id).streamConfigs)
        (.initial oldServer) overlappingStarts = some final ∧
      final.instances 1 = some (.rejected failedToProvision) ∧
      final.server.get "AUTH_EVENTS" = some (Stream.authEvents.config (twoInstances 1)) ∧
      Routed final.server "auth.event.user.loggedIn" "AUTH_EVENTS"
        (24 * 60 * 60 * 1000000000) ∧
      Routed final.server "dlq.auth.event.user.loggedIn" "DLQ"
        (7 * 24 * 60 * 60 * 1000000000) := by
  have hend : (run (step fun id => some (twoInstances id).streamConfigs)
      (.initial oldServer) overlappingStarts).map (fun final =>
        (final.instances 0, final.instances 1, final.server.get "AUTH_EVENTS")) =
      some (some .resolved, some (.rejected failedToProvision),
        some (Stream.authEvents.config (twoInstances 1))) := by
    decide +kernel
  obtain ⟨final, hrun, hfinal⟩ := Option.map_eq_some_iff.mp hend
  simp only [Prod.mk.injEq] at hfinal
  obtain ⟨hresolved, hrejected, hget⟩ := hfinal
  obtain ⟨hevent, hdead, -⟩ := events_are_routed twoInstances oldServer separate_oldServer
    overlappingStarts hrun 0 rfl hresolved PublishSite.firstLogin 0 none
  exact ⟨final, hrun, hrejected, hget, hevent, hdead⟩

end OceanChat.StreamProvisioner
