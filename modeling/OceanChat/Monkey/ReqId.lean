import OceanChat.Core.Double
import OceanChat.Monkey.Framer

/-!
# Request ids that are any number

The request id of a header comes from data that a client sent, where it may be
any number.  The encoder refuses what is below or above its range; what is left
is stored without its fraction, and NaN, which is neither below nor above, as
zero.
-/

/-- A number of the language. -/
inductive Number
  | nan
  | infinity (negative : Bool)
  | finite (value : Double)

namespace Number

def zero : Number := .finite (.ofInt 0 (by decide))

/-- The number is this integer. -/
def IsInt (number : Number) (value : ℤ) : Prop :=
  ∃ double, number = .finite double ∧ double.value = value

/-- `Number::toString`; the text has ASCII characters only. -/
def toString : Number → String
  | .nan => "NaN"
  | .infinity false => "Infinity"
  | .infinity true => "-Infinity"
  | .finite value =>
      String.ofList (value.toText.map fun unit => Char.ofNat unit.toNat)

/-- `reqId < 0 || reqId > 0xffffff`. -/
def outOfBounds : Number → Bool
  | .nan => false
  | .infinity _ => true
  | .finite value => value.value < 0 || 0xffffff < value.value

/-- The integer that a number within the range is stored as. -/
def toUint : Number → ℤ
  | .finite value => ⌊value.value⌋
  | _ => 0

theorem toUint_bounds {number : Number} (hbounds : number.outOfBounds = false) :
    0 ≤ number.toUint ∧ number.toUint ≤ 0xffffff := by
  cases number with
  | nan => simp [toUint]
  | infinity negative => cases hbounds
  | finite value =>
      simp only [outOfBounds, Bool.or_eq_false_iff, decide_eq_false_iff_not,
        not_lt] at hbounds
      constructor
      · exact Int.floor_nonneg.mpr hbounds.1
      · have hle : (⌊value.value⌋ : ℚ) ≤ 0xffffff :=
          (Int.floor_le value.value).trans hbounds.2
        simp only [toUint]
        exact_mod_cast hle

theorem toUint_of_isInt {number : Number} {value : ℤ}
    (hint : number.IsInt value) : number.toUint = value := by
  obtain ⟨double, rfl, hvalue⟩ := hint
  simp [toUint, hvalue]

end Number

namespace OceanChat.Monkey

open ByteBuffer
open Checks (bind_eq_ok)

namespace MonkeyHeader

def reqIdNumberError (reqId : Number) : CodecError :=
  .error ("reqId out of bounds. Must be between 0 and 16777215, got " ++
    reqId.toString)

/-- `encode` for a request id that is any number. -/
def encodeNumber (memory : ℕ → UInt8) (cmd flags : ℤ) (reqId : Number)
    (length : ℤ) : Except CodecError Buffer := do
  let buffer := allocUnsafe memory size
  let buffer ← writeUIntBE buffer magic 0 2
  let buffer ← writeUIntBE buffer version 2 1
  let buffer ← writeUIntBE buffer cmd 3 1
  let buffer ← writeUIntBE buffer flags 4 1
  if reqId.outOfBounds then .error (reqIdNumberError reqId)
  else do
    let buffer ← writeUIntBE buffer reqId.toUint 5 3
    writeUIntBE buffer length 8 4

variable {memory : ℕ → UInt8} {cmd flags length : ℤ} {reqId : Number}
variable {buffer : Buffer}

/-- Within the range a number is encoded as the integer it is stored as. -/
theorem encodeNumber_of_inBounds (hbounds : reqId.outOfBounds = false) :
    encodeNumber memory cmd flags reqId length =
      encode memory ⟨⟨cmd, flags, reqId.toUint⟩, length⟩ := by
  obtain ⟨hnonneg, hle⟩ := Number.toUint_bounds hbounds
  have hwithin : ¬ (reqId.toUint < 0 ∨ reqId.toUint > 0xffffff) := by omega
  simp only [encodeNumber, encode, hbounds, if_neg hwithin, Bool.false_eq_true,
    if_false]

theorem encodeNumber_ne_ok (hbounds : reqId.outOfBounds = true) :
    encodeNumber memory cmd flags reqId length ≠ .ok buffer := by
  intro hencode
  simp only [encodeNumber, bind_eq_ok, hbounds, if_true] at hencode
  obtain ⟨_, -, _, -, _, -, _, -, herror⟩ := hencode
  cases herror

end MonkeyHeader

namespace MonkeyFramer

/-- `frameWSMessage` for a request id that is any number. -/
def frameNumber (memory : ℕ → UInt8) (cmd flags : ℤ) (reqId : Number)
    (payload : Buffer) : Except CodecError Buffer := do
  let headerBuffer ← MonkeyHeader.encodeNumber memory cmd flags reqId payload.length
  .ok (headerBuffer ++ payload)

variable {memory : ℕ → UInt8} {cmd flags : ℤ} {reqId : Number}
variable {buffer payload : Buffer}

/-- A frame is made exactly for a request id within the range, and it is the
frame of the integer that is stored. -/
theorem frameNumber_eq_ok :
    frameNumber memory cmd flags reqId payload = .ok buffer ↔
      reqId.outOfBounds = false ∧
        frameWSMessage memory ⟨cmd, flags, reqId.toUint⟩ payload = .ok buffer := by
  cases hbounds : reqId.outOfBounds with
  | false =>
      simp only [frameNumber, MonkeyHeader.encodeNumber_of_inBounds hbounds,
        frameWSMessage, true_and]
  | true =>
      simp only [frameNumber, bind_eq_ok, Bool.true_eq_false, false_and, iff_false]
      rintro ⟨headerBuffer, hencode, -⟩
      exact MonkeyHeader.encodeNumber_ne_ok hbounds hencode

theorem exists_frameNumber (hcmd : 0 ≤ cmd ∧ cmd ≤ 255)
    (hflags : 0 ≤ flags ∧ flags ≤ 255) (hbounds : reqId.outOfBounds = false)
    (hlength : payload.length < 2 ^ 32) :
    ∃ buffer, frameNumber memory cmd flags reqId payload = .ok buffer := by
  obtain ⟨hnonneg, hle⟩ := Number.toUint_bounds hbounds
  have hfits : HeaderInput.Fits ⟨⟨cmd, flags, reqId.toUint⟩, payload.length⟩ :=
    ⟨hcmd, hflags, ⟨hnonneg, hle⟩, Int.natCast_nonneg _, by simp only; omega⟩
  simp only [frameNumber_eq_ok, hbounds, true_and]
  cases hframe : frameWSMessage memory ⟨cmd, flags, reqId.toUint⟩ payload with
  | ok buffer => exact ⟨buffer, rfl⟩
  | error error => exact absurd hfits (frame_eq_error.mp ⟨error, hframe⟩)

end MonkeyFramer

end OceanChat.Monkey
