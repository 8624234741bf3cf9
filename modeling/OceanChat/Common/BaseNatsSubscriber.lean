import OceanChat.Common.AppException

/-!
# The event subscriber

A subscriber handles one message at a time and settles it by its outcome: a
processed or malformed message is acknowledged, a failed one is requeued until
its last delivery, and then moved to the dead-letter subject.
-/

namespace OceanChat.BaseNatsSubscriber

/-- Why a message could not be processed. -/
inductive Failure
  | malformed
  | processing
  deriving DecidableEq

inductive Disposition
  | ack
  | deadLetter
  | nak
  deriving DecidableEq

/-- `getConsumerConfig().max_deliver || 3`. -/
def threshold (maxDeliver : Option ℤ) : ℤ :=
  match maxDeliver with
  | none => 3
  | some limit => if limit = 0 then 3 else limit

def handleError (failure : Failure) (deliveryCount : ℕ)
    (maxDeliver : Option ℤ) : Disposition :=
  if failure = .malformed then .ack
  else if threshold maxDeliver ≤ deliveryCount then .deadLetter
  else .nak

/-- A well-formed message is not acknowledged by an error. -/
theorem handleError_processing_ne_ack (deliveryCount : ℕ)
    (maxDeliver : Option ℤ) :
    handleError .processing deliveryCount maxDeliver ≠ .ack := by
  have hne : (Failure.processing = .malformed) = False := by simp
  simp only [handleError, hne, if_false]
  split <;> simp

end OceanChat.BaseNatsSubscriber
