import OceanChat.Core.Json
import OceanChat.Monkey.Header

/-!
# Exception acknowledgements

The generated encoder of `ExceptionAck` leaves out a field that has its default
and writes the others with their tags.  How a field is written is up to the
binary writer.
-/

namespace OceanChat.Monkey

open ByteBuffer
open Checks (bind_eq_ok)

/-- The message is a string wherever the types are respected. -/
structure ExceptionAck where
  errorCode : ℤ
  message : Json
  timestamp : Text

/-- The bytes that each call of the writer appends; `string` is given any value
and converts it. -/
structure BinaryWriter where
  uint32 : ℕ → Buffer
  int32 : ℤ → Except CodecError Buffer
  string : Json → Except CodecError Buffer

def IsInt32 (value : ℤ) : Prop := -2 ^ 31 ≤ value ∧ value < 2 ^ 31

/-- What the writer accepts and how much it writes.  A string of the language
has fewer than `2 ^ 29` code units, each at most three bytes long. -/
structure BinaryWriter.Lawful (writer : BinaryWriter) : Prop where
  int32 : ∀ value, (∃ bytes, writer.int32 value = .ok bytes) ↔ IsInt32 value
  string : ∀ text, ∃ bytes, writer.string (.string text) = .ok bytes
  length_uint32 : ∀ value, (writer.uint32 value).length ≤ 5
  length_int32 : ∀ {value bytes}, writer.int32 value = .ok bytes → bytes.length ≤ 10
  length_string : ∀ {value bytes}, writer.string value = .ok bytes →
    bytes.length ≤ 2 ^ 31 - 32

namespace ExceptionAck

/-- `value !== ""`. -/
def isPresent : Json → Bool
  | .string [] => false
  | _ => true

theorem isPresent_eq_false {value : Json} (hempty : isPresent value = false) :
    value = .string [] := by
  unfold isPresent at hempty
  split at hempty
  · rfl
  · cases hempty

/-- A field with its tag, if it is there. -/
def field (isThere : Bool) (tag : Buffer) (value : Except CodecError Buffer) :
    Except CodecError Buffer :=
  if isThere then value.map (tag ++ ·) else .ok []

def encode (writer : BinaryWriter) (message : ExceptionAck) :
    Except CodecError Buffer := do
  let errorCode ← field (message.errorCode ≠ 0) (writer.uint32 8)
    (writer.int32 message.errorCode)
  let text ← field (isPresent message.message) (writer.uint32 18)
    (writer.string message.message)
  let timestamp ← field (isPresent (.string message.timestamp)) (writer.uint32 26)
    (writer.string (.string message.timestamp))
  return errorCode ++ text ++ timestamp

variable {writer : BinaryWriter} {message : ExceptionAck}

theorem exists_field_iff {isThere : Bool} {tag : Buffer}
    {value : Except CodecError Buffer} :
    (∃ bytes, field isThere tag value = .ok bytes) ↔
      (isThere = true → ∃ bytes, value = .ok bytes) := by
  cases isThere <;> cases value <;> simp [field, Except.map]

theorem length_field {isThere : Bool} {tag bytes : Buffer}
    {value : Except CodecError Buffer} {bound : ℕ}
    (hvalue : ∀ bytes, value = .ok bytes → bytes.length ≤ bound)
    (hfield : field isThere tag value = .ok bytes) :
    bytes.length ≤ tag.length + bound := by
  cases isThere with
  | false =>
      obtain rfl := Except.ok.inj hfield
      simp
  | true =>
      cases hbytes : value with
      | error error => simp [field, hbytes, Except.map] at hfield
      | ok written =>
          have hwritten := hvalue written hbytes
          simp only [field, hbytes, Except.map, if_true, Except.ok.injEq] at hfield
          rw [← hfield, List.length_append]
          omega

/-- A field that is left out has a default that the writer accepts. -/
theorem exists_field_iff_of_default {isThere : Bool} {tag : Buffer}
    {value : Except CodecError Buffer}
    (hdefault : isThere = false → ∃ bytes, value = .ok bytes) :
    (∃ bytes, field isThere tag value = .ok bytes) ↔
      ∃ bytes, value = .ok bytes := by
  rw [exists_field_iff]
  cases isThere with
  | false => simp [hdefault rfl]
  | true => simp

/-- The encoder accepts every code of 32 bits with a message that the writer
can convert. -/
theorem exists_encode_iff (hwriter : writer.Lawful) :
    (∃ payload, encode writer message = .ok payload) ↔
      IsInt32 message.errorCode ∧
        ∃ bytes, writer.string message.message = .ok bytes := by
  have hcode : (∃ bytes, field (message.errorCode ≠ 0) (writer.uint32 8)
      (writer.int32 message.errorCode) = .ok bytes) ↔ IsInt32 message.errorCode := by
    rw [← hwriter.int32]
    apply exists_field_iff_of_default
    intro hzero
    have hcode : message.errorCode = 0 := by simpa using hzero
    exact (hwriter.int32 _).mpr (by simp [hcode, IsInt32])
  have hstring (value : Json) : (∃ bytes, field (isPresent value) (writer.uint32 18)
      (writer.string value) = .ok bytes) ↔
        ∃ bytes, writer.string value = .ok bytes := by
    apply exists_field_iff_of_default
    intro hempty
    rw [isPresent_eq_false hempty]
    exact hwriter.string []
  have htimestamp : ∃ bytes, field (isPresent (.string message.timestamp))
      (writer.uint32 26) (writer.string (.string message.timestamp)) = .ok bytes :=
    exists_field_iff.mpr fun _ => hwriter.string message.timestamp
  rw [← hcode, ← hstring]
  simp only [encode, bind_eq_ok, pure, Except.pure, Except.ok.injEq]
  constructor
  · rintro ⟨_, errorCode, herrorCode, text, htext, -⟩
    exact ⟨⟨errorCode, herrorCode⟩, text, htext⟩
  · rintro ⟨⟨errorCode, herrorCode⟩, text, htext⟩
    obtain ⟨timestamp, htimestamp⟩ := htimestamp
    exact ⟨_, errorCode, herrorCode, text, htext, timestamp, htimestamp, rfl⟩

theorem length_encode_lt (hwriter : writer.Lawful) {payload : Buffer}
    (hencode : encode writer message = .ok payload) : payload.length < 2 ^ 32 := by
  simp only [encode, bind_eq_ok, pure, Except.pure, Except.ok.injEq] at hencode
  obtain ⟨errorCode, hcode, text, htext, timestamp, htimestamp, rfl⟩ := hencode
  have hcode := length_field (fun _ => hwriter.length_int32) hcode
  have htext := length_field (fun _ => hwriter.length_string) htext
  have htimestamp := length_field (fun _ => hwriter.length_string) htimestamp
  have htags := And.intro (hwriter.length_uint32 8)
    (And.intro (hwriter.length_uint32 18) (hwriter.length_uint32 26))
  simp only [List.length_append]
  omega

end ExceptionAck

end OceanChat.Monkey
