import OceanChat.Common.BaseNatsSubscriber
import OceanChat.Common.SubscriberStart

/-!
# The delivery limit

The server stops at the limit of the consumer it has, which is the configuration
that was sent or, if the update of an existing consumer failed, its old one.
The error handler counts against the configuration of the subclass, with a
default of its own.
-/

namespace OceanChat.BaseNatsSubscriber

/-- `max_deliver` of the consumer that the server has. -/
def Obtained.inForce (config : FinalConfig) : Obtained → ℤ
  | .added _ => config.maxDeliver
  | .updated _ => config.maxDeliver
  | .kept existing => existing.maxDeliver

/-- How often the server delivers a message; `none` is no limit. -/
def serverLimit (maxDeliver : ℤ) : Option ℕ :=
  if 0 < maxDeliver then some maxDeliver.toNat else none

def Delivers (limit : Option ℕ) (deliveryCount : ℕ) : Prop :=
  0 < deliveryCount ∧ ∀ last, limit = some last → deliveryCount ≤ last

/-- A failed message goes to the dead-letter subject on its last delivery and on
no other. -/
def Agrees (subscriber : Subscriber) (obtained : Obtained) : Prop :=
  let limit := serverLimit (obtained.inForce subscriber.finalConfig)
  ∀ deliveryCount, Delivers limit deliveryCount →
    (handleError .processing deliveryCount
        subscriber.getConsumerConfig.maxDeliver = .deadLetter ↔
      limit = some deliveryCount)

/-- The subclass asks for no limit or a positive one, and a consumer that was
kept has the very limit of the error handler.  A consumer that delivers once
also fits a negative one. -/
def Obtained.Fits (maxDeliver : Option ℤ) : Obtained → Prop
  | .kept existing =>
      0 < existing.maxDeliver ∧
        (existing.maxDeliver = threshold maxDeliver ∨
          existing.maxDeliver = 1 ∧ threshold maxDeliver < 0)
  | _ => ∀ limit, maxDeliver = some limit → 0 < limit

section Limits

variable {maxDeliver : Option ℤ} {limit : ℤ}

theorem handleError_eq_deadLetter {deliveryCount : ℕ} :
    handleError .processing deliveryCount maxDeliver = .deadLetter ↔
      threshold maxDeliver ≤ deliveryCount := by
  have hne : (Failure.processing = .malformed) = False := by simp
  simp only [handleError, hne, if_false]
  split <;> simp_all

theorem delivers_serverLimit {deliveryCount : ℕ} :
    Delivers (serverLimit limit) deliveryCount ↔
      0 < deliveryCount ∧ (0 < limit → (deliveryCount : ℤ) ≤ limit) := by
  unfold Delivers serverLimit
  split <;> simp <;> omega

theorem serverLimit_eq_some {deliveryCount : ℕ} (hcount : 0 < deliveryCount) :
    serverLimit limit = some deliveryCount ↔ limit = deliveryCount := by
  unfold serverLimit
  split <;> simp <;> omega

/-- Counting against a threshold finds the last delivery exactly if the two are
the same, up to a threshold that the first delivery has passed already. -/
theorem threshold_agrees_iff {threshold : ℤ} (hthreshold : threshold ≠ 0) :
    (∀ deliveryCount, Delivers (serverLimit limit) deliveryCount →
      (threshold ≤ deliveryCount ↔ serverLimit limit = some deliveryCount)) ↔
      0 < limit ∧ (limit = threshold ∨ limit = 1 ∧ threshold < 0) := by
  constructor
  · intro hagrees
    have hat (deliveryCount : ℕ) (hcount : 0 < deliveryCount)
        (hlimit : 0 < limit → (deliveryCount : ℤ) ≤ limit) :
        threshold ≤ deliveryCount ↔ limit = deliveryCount :=
      (hagrees deliveryCount (delivers_serverLimit.mpr ⟨hcount, hlimit⟩)).trans
        (serverLimit_eq_some hcount)
    have hpositive : 0 < limit := by
      by_contra hunlimited
      -- without a limit, the count reaches every threshold
      have hreached := hat (threshold.toNat + 1) (by omega) (by omega)
      omega
    refine ⟨hpositive, ?_⟩
    have hlast := hat limit.toNat (by omega) (by omega)
    by_cases hone : limit = 1
    · omega
    · have hbefore := hat (limit.toNat - 1) (by omega) (by omega)
      omega
  · rintro ⟨hpositive, hlimit⟩ deliveryCount hdelivers
    obtain ⟨hcount, hle⟩ := delivers_serverLimit.mp hdelivers
    rw [serverLimit_eq_some hcount]
    have hlast := hle hpositive
    omega

theorem threshold_ne_zero : threshold maxDeliver ≠ 0 := by
  unfold threshold
  split
  · decide
  · split <;> omega

/-- The default of the configuration and that of the error handler differ only
for a limit of zero, and a limit below zero is none for the server. -/
theorem getD_eq_threshold_iff :
    (0 < maxDeliver.getD 3 ∧ (maxDeliver.getD 3 = threshold maxDeliver ∨
      maxDeliver.getD 3 = 1 ∧ threshold maxDeliver < 0)) ↔
      ∀ limit, maxDeliver = some limit → 0 < limit := by
  cases maxDeliver with
  | none => simp [threshold]
  | some limit =>
      by_cases hzero : limit = 0
      · simp [hzero]
      · simp only [threshold, Option.getD_some, if_neg hzero, true_or, and_true,
          Option.some.injEq, forall_eq']

end Limits

/-- Every way of obtaining the consumer occurs for a durable subscriber. -/
theorem exists_onModuleInit_of_obtained {subscriber : Subscriber}
    (hurl : truthy subscriber.natsUrl = true)
    (hdurable : truthy subscriber.durableName = true) (obtained : Obtained) :
    ∃ replies running, onModuleInit subscriber replies = .ok (some running) ∧
      running.obtained = obtained := by
  have hobtain : ∃ attempt : Attempt, attempt.obtain true = .ok obtained := by
    cases obtained with
    | added consumerInfo =>
        exact ⟨⟨.error .other, .error .other, .ok consumerInfo⟩, rfl⟩
    | updated consumerInfo =>
        exact ⟨⟨.ok consumerInfo, .ok consumerInfo, .error .other⟩, rfl⟩
    | kept existing =>
        exact ⟨⟨.ok existing, .error .other, .error .other⟩, rfl⟩
  obtain ⟨attempt, hobtain⟩ := hobtain
  refine ⟨⟨.ok (), .ok (), .ok (), fun _ => attempt, .ok (), .ok ()⟩,
    ⟨subscriber.streamName, obtained.consumerInfo.name, obtained⟩, ?_, rfl⟩
  rw [onModuleInit_eq_some hurl]
  simp [start, createConsumer, maxRetries, hdurable, hobtain, bind, Except.bind,
    Except.mapError, pure, Except.pure]

/-- The error handler agrees with the server exactly when the limit in force is
positive and its own. -/
theorem agrees_iff_fits (subscriber : Subscriber) (obtained : Obtained) :
    Agrees subscriber obtained ↔
      obtained.Fits subscriber.getConsumerConfig.maxDeliver := by
  simp only [Agrees, handleError_eq_deadLetter]
  rw [threshold_agrees_iff threshold_ne_zero]
  cases obtained with
  | added consumerInfo => exact getD_eq_threshold_iff
  | updated consumerInfo => exact getD_eq_threshold_iff
  | kept existing => exact Iff.rfl

/-- A subclass that asks for deliveries without a limit. -/
def unlimited : Subscriber :=
  { tokenRevocations with getConsumerConfig := ⟨none, some (-1), none, none, none⟩ }

/-- The first failure of a message sends it to the dead-letter subject. -/
theorem not_agrees_of_unlimited :
    onModuleInit unlimited (.ofAdd (.ok ⟨"consumer", -1⟩)) =
        .ok (some ⟨"AUTH_STATE", "consumer", .added ⟨"consumer", -1⟩⟩) ∧
      serverLimit (Obtained.inForce unlimited.finalConfig
        (.added ⟨"consumer", -1⟩)) = none ∧
      handleError .processing 1 unlimited.getConsumerConfig.maxDeliver =
        .deadLetter ∧
      ¬ Agrees unlimited (.added ⟨"consumer", -1⟩) := by
  refine ⟨by rfl, by decide, by decide, fun hagrees => ?_⟩
  have hfirst := (hagrees 1 ⟨Nat.one_pos, by decide⟩).mp (by decide)
  cases hfirst

end OceanChat.BaseNatsSubscriber
