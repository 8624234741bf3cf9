import OceanChat.Common.AppException
import OceanChat.Core.Checks

/-!
# The start of a subscriber

`onModuleInit` connects, obtains a consumer within `MAX_RETRIES` attempts and
starts the consume loop.  The retry loop and the `catch` block around it throw
so that the application crashes and is restarted; the `catch` block around both
only logs, so that nothing of this reaches the caller.
-/

namespace OceanChat.BaseNatsSubscriber

open Checks (bind_eq_ok mapError_eq_ok)

/-! ## Configuration -/

inductive AckPolicy
  | none
  | all
  | explicit
  deriving DecidableEq

/-- `Partial<ConsumerConfig>`; `none` is a field that is missing or undefined. -/
structure PartialConfig where
  ackPolicy : Option AckPolicy
  maxDeliver : Option ℤ
  maxAckPending : Option ℤ
  durableName : Option String
  filterSubject : Option String
  deriving DecidableEq

/-- The configuration that is sent, where the defaults leave no gap. -/
structure FinalConfig where
  ackPolicy : AckPolicy
  maxDeliver : ℤ
  maxAckPending : ℤ
  durableName : Option String
  filterSubject : Option String
  deriving DecidableEq

structure Subscriber where
  natsUrl : Option String
  streamName : String
  durableName : Option String
  getConsumerConfig : PartialConfig

/-- A text that is there and not empty. -/
def truthy (text : Option String) : Bool :=
  text.any (· ≠ "")

/-- The defaults under the fields of the subclass. -/
def Subscriber.finalConfig (subscriber : Subscriber) : FinalConfig :=
  let userConfig := subscriber.getConsumerConfig
  { ackPolicy := userConfig.ackPolicy.getD .explicit
    maxDeliver := userConfig.maxDeliver.getD 3
    maxAckPending := userConfig.maxAckPending.getD 1000
    durableName :=
      if truthy subscriber.durableName && !truthy userConfig.durableName then
        subscriber.durableName
      else userConfig.durableName
    filterSubject := userConfig.filterSubject }

/-! ## Replies -/

/-- What an awaited command rejects with. -/
inductive Rejection
  | app (error : AppException)
  | other
  deriving DecidableEq

/-- What the server tells about a consumer; `maxDeliver` is the one of its
configuration. -/
structure ConsumerInfo where
  name : String
  maxDeliver : ℤ
  deriving DecidableEq

/-- How the consumer was obtained. -/
inductive Obtained
  | added (consumerInfo : ConsumerInfo)
  | updated (consumerInfo : ConsumerInfo)
  | kept (existing : ConsumerInfo)
  deriving DecidableEq

def Obtained.consumerInfo : Obtained → ConsumerInfo
  | .added consumerInfo => consumerInfo
  | .updated consumerInfo => consumerInfo
  | .kept existing => existing

/-- The replies to `jsm.consumers` in one attempt. -/
structure Attempt where
  info : Except Rejection ConsumerInfo
  update : Except Rejection ConsumerInfo
  add : Except Rejection ConsumerInfo

/-- The outcomes of everything that `onModuleInit` awaits or calls. -/
structure Replies where
  connect : Except Rejection Unit
  jetstream : Except Rejection Unit
  jetstreamManager : Except Rejection Unit
  attempts : ℕ → Attempt
  get : Except Rejection Unit
  consume : Except Rejection Unit

/-! ## Initialisation -/

def maxRetries : ℕ := 12

def failedToAddConsumer : AppException :=
  infrastructureException "FAILED_TO_ADD_CONSUMER"
    ErrorCodes.serviceUnavailable 500

/-- What would be thrown if the loop ended without a consumer. -/
def failedToInitialize (streamName : String) : AppException :=
  infrastructureException
    ("Failed to initialize consumer for stream " ++ streamName)
    ErrorCodes.serviceUnavailable 500

/-- The body of the inner `try` statement.  A rejected `info` counts as no
consumer, and a rejected `update` keeps the one that exists. -/
def Attempt.obtain (durable : Bool) (attempt : Attempt) :
    Except Rejection Obtained :=
  if durable then
    match attempt.info with
    | .ok existing =>
        match attempt.update with
        | .ok consumerInfo => .ok (.updated consumerInfo)
        | .error _ => .ok (.kept existing)
    | .error _ => attempt.add.map .added
  else attempt.add.map .added

/-- The `while` loop after `retryAttempts` failed attempts, with the number of
those it may still make. -/
def createConsumer (subscriber : Subscriber) (attempts : ℕ → Attempt)
    (retryAttempts : ℕ) : ℕ → Except Rejection Obtained
  | 0 => .error (.app (failedToInitialize subscriber.streamName))
  | remaining + 1 =>
      match (attempts retryAttempts).obtain (truthy subscriber.durableName) with
      | .ok obtained => .ok obtained
      | .error _ =>
          if maxRetries ≤ retryAttempts + 1 then
            .error (.app failedToAddConsumer)
          else createConsumer subscriber attempts (retryAttempts + 1) remaining

/-- The `catch` block around the loop. -/
def rethrow : Rejection → Rejection
  | .app error => .app error
  | .other => .app failedToAddConsumer

/-- A consume loop that has been started. -/
structure Running where
  streamName : String
  consumerName : String
  obtained : Obtained
  deriving DecidableEq

/-- The body of the outer `try` statement. -/
def start (subscriber : Subscriber) (replies : Replies) :
    Except Rejection Running := do
  replies.connect
  replies.jetstream
  replies.jetstreamManager
  let obtained ←
    (createConsumer subscriber replies.attempts 0 maxRetries).mapError rethrow
  replies.get
  replies.consume
  return ⟨subscriber.streamName, obtained.consumerInfo.name, obtained⟩

/-- What the call resolves with or rejects with; it leaves a running consume
loop or none. -/
def onModuleInit (subscriber : Subscriber) (replies : Replies) :
    Except Rejection (Option Running) :=
  if truthy subscriber.natsUrl then
    match start subscriber replies with
    | .ok running => .ok (some running)
    | .error _ => .ok none
  else .ok none

/-- A call that resolves has started a consume loop. -/
def FailsFast (subscriber : Subscriber) (replies : Replies) : Prop :=
  ∀ running, onModuleInit subscriber replies = .ok running → running.isSome = true

/-- The attempt finds a durable consumer or can add one. -/
def Attempt.Obtains (durable : Bool) (attempt : Attempt) : Prop :=
  (∃ consumerInfo, attempt.add = .ok consumerInfo) ∨
    durable = true ∧ ∃ existing, attempt.info = .ok existing

/-- Nothing but the attempts fails, and not all of these do. -/
structure Replies.Start (durable : Bool) (replies : Replies) : Prop where
  connect : replies.connect = .ok ()
  jetstream : replies.jetstream = .ok ()
  jetstreamManager : replies.jetstreamManager = .ok ()
  obtains : ∃ attempt < maxRetries, (replies.attempts attempt).Obtains durable
  get : replies.get = .ok ()
  consume : replies.consume = .ok ()

section Start

variable {subscriber : Subscriber} {replies : Replies}
variable {attempts : ℕ → Attempt} {obtained : Obtained}

theorem obtains_iff {durable : Bool} {attempt : Attempt} :
    attempt.Obtains durable ↔
      ∃ obtained, attempt.obtain durable = .ok obtained := by
  cases hadd : attempt.add <;> cases hinfo : attempt.info <;>
    cases hupdate : attempt.update <;> cases durable <;>
      simp [Attempt.Obtains, Attempt.obtain, hadd, hinfo, hupdate, Except.map]

section Loop

variable {retryAttempts remaining : ℕ}

theorem createConsumer_of_obtain
    (hobtain : (attempts retryAttempts).obtain (truthy subscriber.durableName) =
      .ok obtained) :
    createConsumer subscriber attempts retryAttempts (remaining + 1) =
      .ok obtained := by
  rw [createConsumer, hobtain]

/-- A failed attempt throws if it was the last one, and is followed by the next
one otherwise. -/
theorem createConsumer_of_not_obtains
    (hfails : ¬ (attempts retryAttempts).Obtains (truthy subscriber.durableName)) :
    createConsumer subscriber attempts retryAttempts (remaining + 1) =
      if maxRetries ≤ retryAttempts + 1 then .error (.app failedToAddConsumer)
      else createConsumer subscriber attempts (retryAttempts + 1) remaining := by
  rw [createConsumer]
  cases hobtain : (attempts retryAttempts).obtain
      (truthy subscriber.durableName) with
  | ok found => exact absurd (obtains_iff.mpr ⟨found, hobtain⟩) hfails
  | error rejection => rfl

/-- The first attempt from `retryAttempts` on that obtains a consumer. -/
structure FirstObtained (subscriber : Subscriber) (attempts : ℕ → Attempt)
    (retryAttempts attempt : ℕ) (obtained : Obtained) : Prop where
  lt_max : attempt < maxRetries
  le : retryAttempts ≤ attempt
  obtain_eq : (attempts attempt).obtain (truthy subscriber.durableName) =
    .ok obtained
  first : ∀ earlier, retryAttempts ≤ earlier → earlier < attempt →
    ¬ (attempts earlier).Obtains (truthy subscriber.durableName)

/-- Behind a failed attempt the first one is the same. -/
theorem firstObtained_succ {attempt : ℕ}
    (hfails : ¬ (attempts retryAttempts).Obtains (truthy subscriber.durableName)) :
    FirstObtained subscriber attempts (retryAttempts + 1) attempt obtained ↔
      FirstObtained subscriber attempts retryAttempts attempt obtained := by
  constructor
  · rintro ⟨hmax, hle, hobtain, hfirst⟩
    refine ⟨hmax, by omega, hobtain, fun earlier hearlier hbefore => ?_⟩
    obtain rfl | hlater := hearlier.eq_or_lt
    · exact hfails
    · exact hfirst earlier hlater hbefore
  · rintro ⟨hmax, hle, hobtain, hfirst⟩
    obtain rfl | hlater := hle.eq_or_lt
    · exact absurd (obtains_iff.mpr ⟨obtained, hobtain⟩) hfails
    · exact ⟨hmax, hlater, hobtain, fun earlier hearlier =>
        hfirst earlier (by omega)⟩

/-- The loop ends with the first attempt that obtains a consumer. -/
theorem createConsumer_eq_ok (hsum : retryAttempts + remaining = maxRetries) :
    createConsumer subscriber attempts retryAttempts remaining = .ok obtained ↔
      ∃ attempt,
        FirstObtained subscriber attempts retryAttempts attempt obtained := by
  induction remaining generalizing retryAttempts with
  | zero =>
      simp only [createConsumer, reduceCtorEq, false_iff]
      rintro ⟨attempt, hmax, hle, -⟩
      omega
  | succ remaining ih =>
      by_cases hobtains :
          (attempts retryAttempts).Obtains (truthy subscriber.durableName)
      · obtain ⟨found, hobtain⟩ := obtains_iff.mp hobtains
        rw [createConsumer_of_obtain hobtain, ← hobtain]
        constructor
        · intro hfound
          exact ⟨retryAttempts, by omega, le_rfl, hfound,
            fun earlier hearlier hbefore => absurd hbefore (by omega)⟩
        · rintro ⟨attempt, -, hle, hattempt, hfirst⟩
          obtain rfl | hlater := hle.eq_or_lt
          · exact hattempt
          · exact absurd hobtains (hfirst retryAttempts le_rfl hlater)
      · rw [createConsumer_of_not_obtains hobtains]
        simp only [← firstObtained_succ hobtains]
        split
        · rename_i hlast
          simp only [reduceCtorEq, false_iff]
          rintro ⟨attempt, hmax, hle, -⟩
          omega
        · exact ih (by omega)

/-- The loop throws what its last failed attempt throws; it never ends without
a consumer. -/
theorem rejection_of_createConsumer {rejection : Rejection}
    (hsum : retryAttempts + remaining = maxRetries) (hmore : 0 < remaining)
    (hloop : createConsumer subscriber attempts retryAttempts remaining =
      .error rejection) : rejection = .app failedToAddConsumer := by
  induction remaining generalizing retryAttempts with
  | zero => omega
  | succ remaining ih =>
      rw [createConsumer] at hloop
      split at hloop
      · cases hloop
      · split at hloop
        · exact (Except.error.inj hloop).symm
        · exact ih (by omega) (by omega) hloop

end Loop

/-- The loop ends with a consumer if one of the twelve attempts obtains one. -/
theorem exists_createConsumer_iff :
    (∃ obtained, createConsumer subscriber attempts 0 maxRetries = .ok obtained) ↔
      ∃ attempt < maxRetries,
        (attempts attempt).Obtains (truthy subscriber.durableName) := by
  classical
  constructor
  · rintro ⟨obtained, hloop⟩
    obtain ⟨attempt, hfirst⟩ := (createConsumer_eq_ok (zero_add _)).mp hloop
    exact ⟨attempt, hfirst.lt_max, obtains_iff.mpr ⟨obtained, hfirst.obtain_eq⟩⟩
  · rintro ⟨attempt, hattempt, hobtains⟩
    have hsome : ∃ attempt,
        (attempts attempt).Obtains (truthy subscriber.durableName) :=
      ⟨attempt, hobtains⟩
    obtain ⟨obtained, hok⟩ := obtains_iff.mp (Nat.find_spec hsome)
    refine ⟨obtained, (createConsumer_eq_ok (zero_add _)).mpr
      ⟨Nat.find hsome, ?_⟩⟩
    constructor
    · exact (Nat.find_min' hsome hobtains).trans_lt hattempt
    · exact Nat.zero_le _
    · exact hok
    · intro earlier _ hearlier
      exact Nat.find_min hsome hearlier

theorem exists_start_iff :
    (∃ running, start subscriber replies = .ok running) ↔
      replies.Start (truthy subscriber.durableName) := by
  simp only [start, bind_eq_ok, mapError_eq_ok, pure, Except.pure,
    Except.ok.injEq]
  constructor
  · rintro ⟨_, _, hconnect, _, hjetstream, _, hmanager, obtained, hloop, _, hget,
      _, hconsume, -⟩
    exact ⟨hconnect, hjetstream, hmanager,
      exists_createConsumer_iff.mp ⟨obtained, hloop⟩, hget, hconsume⟩
  · intro hstart
    obtain ⟨obtained, hloop⟩ := exists_createConsumer_iff.mpr hstart.obtains
    exact ⟨_, (), hstart.connect, (), hstart.jetstream, (), hstart.jetstreamManager,
      obtained, hloop, (), hstart.get, (), hstart.consume, rfl⟩

/-- Whatever fails, the call resolves. -/
theorem exists_onModuleInit (subscriber : Subscriber) (replies : Replies) :
    ∃ running, onModuleInit subscriber replies = .ok running := by
  unfold onModuleInit
  split
  · split <;> exact ⟨_, rfl⟩
  · exact ⟨_, rfl⟩

theorem onModuleInit_eq_some (hurl : truthy subscriber.natsUrl = true)
    {running : Running} : onModuleInit subscriber replies = .ok (some running) ↔
      start subscriber replies = .ok running := by
  simp only [onModuleInit, hurl, if_true]
  cases start subscriber replies <;> simp

end Start

/-- With a URL, the call fails fast exactly when nothing fails that the outer
`catch` block would swallow. -/
theorem failsFast_iff_start (subscriber : Subscriber) (replies : Replies)
    (hurl : truthy subscriber.natsUrl = true) :
    FailsFast subscriber replies ↔
      replies.Start (truthy subscriber.durableName) := by
  rw [← exists_start_iff]
  constructor
  · intro hfast
    obtain ⟨running, hresolves⟩ := exists_onModuleInit subscriber replies
    obtain ⟨running, rfl⟩ :=
      Option.isSome_iff_exists.mp (hfast running hresolves)
    exact ⟨running, (onModuleInit_eq_some hurl).mp hresolves⟩
  · rintro ⟨running, hstart⟩ resolved hresolves
    rw [(onModuleInit_eq_some hurl).mpr hstart] at hresolves
    obtain rfl := Except.ok.inj hresolves
    rfl

/-- The ephemeral consumer of the stream of revoked tokens. -/
def tokenRevocations : Subscriber :=
  ⟨some "nats://localhost:4222", "AUTH_STATE", none,
    ⟨none, none, none, none, some "auth.jwt.revoke"⟩⟩

def Replies.ofAdd (add : Except Rejection ConsumerInfo) : Replies :=
  ⟨.ok (), .ok (), .ok (), fun _ => ⟨.error .other, .error .other, add⟩, .ok (),
    .ok ()⟩

theorem failsFast_iff_start_of_added :
    truthy tokenRevocations.natsUrl = true ∧
      (FailsFast tokenRevocations (.ofAdd (.ok ⟨"consumer", 3⟩)) ↔
        (Replies.ofAdd (.ok ⟨"consumer", 3⟩)).Start
          (truthy tokenRevocations.durableName)) :=
  ⟨by decide, failsFast_iff_start _ _ (by decide)⟩

/-- The stream does not exist, and the call resolves after its last attempt. -/
theorem resolves_of_missingStream :
    truthy tokenRevocations.natsUrl = true ∧
      onModuleInit tokenRevocations (.ofAdd (.error .other)) = .ok none ∧
      ¬ FailsFast tokenRevocations (.ofAdd (.error .other)) := by
  have hresolves : onModuleInit tokenRevocations (.ofAdd (.error .other)) =
      .ok none := by rfl
  refine ⟨by decide, hresolves, fun hfast => ?_⟩
  cases hfast none hresolves

end OceanChat.BaseNatsSubscriber
