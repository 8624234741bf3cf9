import OceanChat.Common.ExceptionFilter
import OceanChat.Monkey.ExceptionAck
import OceanChat.Monkey.ReqId

/-!
# The exception filter of the WebSocket gateway

Whatever a handler throws is answered with one frame that carries the request id
of the message that was handled.  The id is taken from the context data as it
is, and the codec throws on one that is out of range.
-/

namespace OceanChat.MonkeyWsExceptionFilter

open ByteBuffer (Buffer)
open Checks (bind_eq_ok)
open ExceptionFilter (Exception HttpResponse Service)
open Monkey (BinaryWriter CodecError ExceptionAck IsInt32)
open Monkey.MonkeyFramer (exists_frameNumber frameNumber frameWSMessage
  unframeWSMessage)

namespace MonkeyCmd

def exceptionAck : ℤ := 0x0c

end MonkeyCmd

namespace MonkeyFlags

def none : ℤ := 0x00

end MonkeyFlags

/-- `unserializable` is an exception whose error or response `JSON.stringify`
refuses. -/
inductive Thrown
  | exception (exception : Exception)
  | unserializable

inductive Failure
  | stringify
  | codec (error : CodecError)
  deriving DecidableEq

/-- A header in the context data; a request id that is no number is not there. -/
structure WsHeader where
  reqId : Option Number

inductive WsData
  | primitive
  | object (header : Option WsHeader) (reqId : Option Number)

/-- The request id of the header, or else that of the data, or else zero. -/
def WsData.reqId : WsData → Number
  | .primitive => .zero
  | .object header reqId =>
      match header.bind WsHeader.reqId with
      | some reqId => reqId
      | none => reqId.getD .zero

structure Filter where
  service : Service
  writer : BinaryWriter

def createErrorResponse (service : Service) (now : Text) :
    Thrown → Except Failure ExceptionFilter.ErrorResponseDto
  | .exception exception =>
      .ok (ExceptionFilter.createErrorResponse service now exception none)
  | .unserializable => .error .stringify

/-- `catch`, with the buffers that it sends; `memory` is what `allocUnsafe`
finds. -/
def catchException (filter : Filter) (memory : ℕ → UInt8) (now : Text)
    (isOpen : Bool) (thrown : Thrown) (data : WsData) :
    Except Failure (List Buffer) := do
  let errorResponseDto ← createErrorResponse filter.service now thrown
  if isOpen then do
    let exceptionAck : ExceptionAck :=
      { errorCode := errorResponseDto.errorCode
        message := errorResponseDto.message
        timestamp := errorResponseDto.timestamp }
    let payload ← (exceptionAck.encode filter.writer).mapError .codec
    let framedBuffer ← (frameNumber memory MonkeyCmd.exceptionAck MonkeyFlags.none
      data.reqId payload).mapError .codec
    return [framedBuffer]
  else return []

/-- The client gets one frame, and it answers the request. -/
def Answers (filter : Filter) (memory : ℕ → UInt8) (now : Text) (thrown : Thrown)
    (data : WsData) : Prop :=
  ∃ buffer header payload,
    catchException filter memory now true thrown data = .ok [buffer] ∧
    unframeWSMessage buffer = .ok (header, payload) ∧
    header.cmd = MonkeyCmd.exceptionAck ∧ header.flags = MonkeyFlags.none ∧
    ∀ reqId : ℤ, 0 ≤ reqId → reqId ≤ 2 ^ 24 - 1 → data.reqId.IsInt reqId →
      header.reqId = reqId

/-- The error code has 32 bits and the message can be written. -/
def Encodable (writer : BinaryWriter) : Thrown → Prop
  | .unserializable => False
  | .exception (.app error) =>
      error.exceptionType = .domain → IsInt32 error.errorCode
  | .exception (.http status response) =>
      IsInt32 status ∧ ∃ bytes, writer.string response.content = .ok bytes
  | .exception _ => True

section Frames

variable {filter : Filter} {memory : ℕ → UInt8} {now : Text} {thrown : Thrown}
variable {data : WsData} {buffers : List Buffer}

/-- What the code and the message of a response are, by the kind of the
exception. -/
theorem encodable_iff {writer : BinaryWriter} (hwriter : writer.Lawful)
    (service : Service) (now : Text) (exception : Exception) :
    (IsInt32 (ExceptionFilter.createErrorResponse service now exception
        none).errorCode ∧
      ∃ bytes, writer.string (ExceptionFilter.createErrorResponse service now
        exception none).message = .ok bytes) ↔
      Encodable writer (.exception exception) := by
  have hservice : IsInt32 ErrorCodes.serviceError := ⟨by decide, by decide⟩
  have hunexpected : IsInt32 ErrorCodes.unexpectedError := ⟨by decide, by decide⟩
  cases exception with
  | app error =>
      cases htype : error.exceptionType <;>
        simp [ExceptionFilter.createErrorResponse, ExceptionFilter.describe,
          Encodable, htype, hwriter.string, hservice]
  | http status response =>
      simp [ExceptionFilter.createErrorResponse, ExceptionFilter.describe, Encodable]
  | _ =>
      simp [ExceptionFilter.createErrorResponse, ExceptionFilter.describe,
        Encodable, hwriter.string, hunexpected]

/-- Everything that the filter sends is one frame of the stored request id. -/
theorem catchException_eq_ok :
    catchException filter memory now true thrown data = .ok buffers →
      ∃ buffer payload, buffers = [buffer] ∧ data.reqId.outOfBounds = false ∧
        frameWSMessage memory
          ⟨MonkeyCmd.exceptionAck, MonkeyFlags.none, data.reqId.toUint⟩ payload =
            .ok buffer := by
  intro hsent
  simp only [catchException, bind_eq_ok, if_true, Checks.mapError_eq_ok, pure,
    Except.pure, Except.ok.injEq] at hsent
  obtain ⟨_, -, payload, -, buffer, hframe, rfl⟩ := hsent
  obtain ⟨hbounds, hframe⟩ := Monkey.MonkeyFramer.frameNumber_eq_ok.mp hframe
  exact ⟨buffer, payload, rfl, hbounds, hframe⟩

/-- The filter sends something exactly if the response can be encoded and the
request id is within its range. -/
theorem exists_catchException_iff (hwriter : filter.writer.Lawful) :
    (∃ buffers, catchException filter memory now true thrown data = .ok buffers) ↔
      Encodable filter.writer thrown ∧ data.reqId.outOfBounds = false := by
  cases thrown with
  | unserializable =>
      simp [catchException, createErrorResponse, Encodable, bind, Except.bind]
  | exception exception =>
      rw [← encodable_iff hwriter filter.service now exception]
      constructor
      · rintro ⟨buffers, hsent⟩
        obtain ⟨-, -, -, hbounds, -⟩ := catchException_eq_ok hsent
        refine ⟨?_, hbounds⟩
        simp only [catchException, createErrorResponse, bind_eq_ok, if_true,
          Checks.mapError_eq_ok, Except.ok.injEq, exists_eq_left'] at hsent
        obtain ⟨payload, hpayload, -⟩ := hsent
        exact (ExceptionAck.exists_encode_iff hwriter).mp ⟨payload, hpayload⟩
      · rintro ⟨hencodable, hbounds⟩
        obtain ⟨payload, hpayload⟩ : ∃ payload, ExceptionAck.encode filter.writer
            ⟨_, _, (ExceptionFilter.createErrorResponse filter.service now exception
              none).timestamp⟩ = .ok payload :=
          (ExceptionAck.exists_encode_iff hwriter).mpr hencodable
        obtain ⟨buffer, hframe⟩ : ∃ buffer, frameNumber memory
            MonkeyCmd.exceptionAck MonkeyFlags.none data.reqId payload =
              .ok buffer :=
          exists_frameNumber (by decide) (by decide) hbounds
            (ExceptionAck.length_encode_lt hwriter hpayload)
        refine ⟨[buffer], ?_⟩
        simp only [catchException, createErrorResponse, bind_eq_ok, if_true,
          Checks.mapError_eq_ok, Except.ok.injEq, exists_eq_left']
        exact ⟨payload, hpayload, buffer, hframe, rfl⟩

end Frames

/-- The filter answers exactly the exceptions whose response can be encoded, to
a request id that is neither below nor above its range. -/
theorem answers_iff (filter : Filter) (hwriter : filter.writer.Lawful)
    (memory : ℕ → UInt8) (now : Text) (thrown : Thrown) (data : WsData) :
    Answers filter memory now thrown data ↔
      Encodable filter.writer thrown ∧ data.reqId.outOfBounds = false := by
  rw [← exists_catchException_iff hwriter]
  constructor
  · rintro ⟨buffer, -, -, hsent, -⟩
    exact ⟨[buffer], hsent⟩
  · rintro ⟨buffers, hsent⟩
    obtain ⟨buffer, payload, rfl, -, hframe⟩ := catchException_eq_ok hsent
    obtain ⟨-, hunframe⟩ := Monkey.MonkeyFramer.unframe_of_frame hframe
    refine ⟨buffer, _, payload, hsent, hunframe, rfl, rfl, ?_⟩
    intro reqId _ _ hint
    exact Number.toUint_of_isInt hint

/-! ## A writer -/

/-- At most `fuel` groups of seven bits, least significant group first. -/
def varint : ℕ → ℕ → Buffer
  | 0, _ => []
  | fuel + 1, value =>
      if value < 128 then [UInt8.ofNat value]
      else UInt8.ofNat (value % 128 + 128) :: varint fuel (value / 128)

theorem length_varint_le (fuel value : ℕ) : (varint fuel value).length ≤ fuel := by
  induction fuel generalizing value with
  | zero => simp [varint]
  | succ fuel ih =>
      rw [varint]
      split
      · simp
      · simpa using ih (value / 128)

/-- The wire format for texts of ASCII characters that a string can hold. -/
def wireWriter : BinaryWriter where
  uint32 value := varint 5 value
  int32 value :=
    if -2 ^ 31 ≤ value ∧ value < 2 ^ 31 then .ok (varint 10 (value % 2 ^ 64).toNat)
    else .error (.error ("invalid int32: " ++ toString value))
  string value :=
    let text := ExceptionFilter.textOf value
    .ok (if text.length < 2 ^ 29 then
        varint 5 text.length ++ text.map fun unit => UInt8.ofNat unit.toNat
      else [])

theorem lawful_wireWriter : wireWriter.Lawful where
  int32 value := by
    simp only [wireWriter, IsInt32]
    split <;> simp_all
  string text := ⟨_, rfl⟩
  length_uint32 value := length_varint_le 5 value
  length_int32 := by
    intro value bytes hbytes
    simp only [wireWriter] at hbytes
    split at hbytes
    · rw [← Except.ok.inj hbytes]
      exact length_varint_le 10 _
    · cases hbytes
  length_string := by
    intro value bytes hbytes
    rw [← Except.ok.inj hbytes]
    split
    · rename_i hshort
      have hlength := length_varint_le 5 (ExceptionFilter.textOf value).length
      simp only [List.length_append, List.length_map]
      omega
    · simp

/-- A gateway whose translations are the keys. -/
def gateway : Filter where
  service :=
    { serviceName := Text.ofAscii "oceanchat-ws-gateway".toList
      serviceInstanceId := Text.ofAscii "1".toList
      translate := fun key => Text.ofAscii key.toList }
  writer := wireWriter

def timestamp : Text := Text.ofAscii "2024-01-01T00:00:00.000Z".toList

/-- An error of a handler. -/
def handlerError : Thrown :=
  .exception (.native ⟨Text.ofAscii "boom".toList, [], none, none⟩)

theorem answers_iff_of_reqId :
    Answers gateway (fun _ => 0) timestamp handlerError
      (.object (some ⟨some (.finite (.ofInt 7 (by decide)))⟩) none) :=
  (answers_iff gateway lawful_wireWriter _ timestamp handlerError _).mpr
    ⟨trivial, by decide⟩

/-- The request id of a client that counts down past zero. -/
def negativeReqId : WsData :=
  .object none (some (.finite (.ofInt (-1) (by decide))))

/-- A message with a negative request id gets no answer; the filter throws. -/
theorem throws_of_negativeReqId :
    (∃ failure, catchException gateway (fun _ => 0) timestamp true handlerError
      negativeReqId = .error failure) ∧
    ¬ Answers gateway (fun _ => 0) timestamp handlerError negativeReqId := by
  have hnever : ∀ buffers, catchException gateway (fun _ => 0) timestamp true
      handlerError negativeReqId ≠ .ok buffers := by
    intro buffers hsent
    obtain ⟨-, -, -, hbounds, -⟩ := catchException_eq_ok hsent
    revert hbounds
    decide
  refine ⟨?_, fun ⟨buffer, _, _, hsent, _⟩ => hnever [buffer] hsent⟩
  cases hcatch : catchException gateway (fun _ => 0) timestamp true handlerError
      negativeReqId with
  | ok buffers => exact absurd hcatch (hnever buffers)
  | error failure => exact ⟨failure, rfl⟩

end OceanChat.MonkeyWsExceptionFilter
