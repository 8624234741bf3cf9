import OceanChat.Common.MonkeyWsExceptionFilter
import OceanChat.Monkey.Proto

/-!
# What a client reads from an exception frame

The filter writes the acknowledgement with its own encoder.  Its bytes are those
of the message table, so the client that takes the frame apart and decodes the
payload finds the code, the message and the timestamp of the error response.
-/

namespace OceanChat.MonkeyWsExceptionFilter

open ByteBuffer (Buffer)
open Checks (bind_eq_ok)
open Monkey (BinaryWriter CodecError)
open Monkey.MonkeyFramer (unframeWSMessage)
open Proto (MessageType)
open Wire (BinaryReader Kind)

/-- Wherever the writer of the filter writes a number or a string of the language,
the other one writes the same. -/
structure Agrees {ε : Type} (writer : BinaryWriter) (wire : Wire.BinaryWriter ε) :
    Prop where
  uint32 : ∀ value, writer.uint32 value = wire.uint32 value
  int32 : ∀ {value bytes}, writer.int32 value = .ok bytes → wire.int32 value = .ok bytes
  string : ∀ {text bytes}, text.length < 2 ^ 29 →
    writer.string (.string text) = .ok bytes → wire.string text = .ok bytes

section Clients

variable {ε : Type} {writer : BinaryWriter} {wire : Wire.BinaryWriter ε}
variable {reader : BinaryReader ε}

/-- A field of the filter is the field of the table. -/
theorem encode_of_field {M : Type} {field : Wire.Field M} {message : M}
    {value : Except CodecError Buffer} {isThere : Bool} {bytes : Buffer}
    (hagrees : Agrees writer wire)
    (hthere : isThere = !field.kind.isDefault (field.get message))
    (hvalue : ∀ bytes, value = .ok bytes →
      field.kind.write wire (field.get message) = .ok bytes)
    (hfield : Monkey.ExceptionAck.field isThere (writer.uint32 field.tag) value =
      .ok bytes) :
    field.encode wire message = .ok bytes := by
  subst hthere
  rw [Wire.Field.encode]
  cases hdefault : field.kind.isDefault (field.get message) with
  | true =>
      rw [hdefault] at hfield
      exact congrArg _ (Except.ok.inj hfield)
  | false =>
      cases hwritten : value with
      | error error =>
          rw [hdefault, hwritten] at hfield
          cases hfield
      | ok written =>
          rw [hdefault, hwritten] at hfield
          simp [hvalue written hwritten, bind, Except.bind, pure, Except.pure,
            ← Except.ok.inj hfield, hagrees.uint32]

theorem isPresent_string (text : Text) :
    Monkey.ExceptionAck.isPresent (.string text) = !decide (text = []) := by
  cases text <;> rfl

/-- The bytes of the filter are those of the message. -/
theorem encode_of_filter {errorCode : ℤ} {message timestamp : Text} {payload : Buffer}
    (hagrees : Agrees writer wire) (hmessage : message.length < 2 ^ 29)
    (htimestamp : timestamp.length < 2 ^ 29)
    (hpayload : Monkey.ExceptionAck.encode writer
      ⟨errorCode, .string message, timestamp⟩ = .ok payload) :
    MessageType.exceptionAck.encode wire ⟨errorCode, message, timestamp⟩ =
      .ok payload := by
  let ack : Proto.ExceptionAck := ⟨errorCode, message, timestamp⟩
  simp only [Monkey.ExceptionAck.encode, bind_eq_ok, pure, Except.pure,
    Except.ok.injEq] at hpayload
  obtain ⟨code, hcode, text, htext, time, htime, rfl⟩ := hpayload
  have hthere : decide (errorCode ≠ 0) = !decide (errorCode = 0) := decide_not
  have hcode : Wire.Field.encode wire ack ⟨1, 8, .int32, Proto.ExceptionAck.errorCode,
      fun value message => { message with errorCode := value }⟩ = .ok code :=
    encode_of_field hagrees hthere (fun _ => hagrees.int32) hcode
  have htext : Wire.Field.encode wire ack ⟨2, 18, .string, Proto.ExceptionAck.message,
      fun value message => { message with message := value }⟩ = .ok text :=
    encode_of_field hagrees (isPresent_string message) (fun _ => hagrees.string hmessage)
      htext
  have htime : Wire.Field.encode wire ack ⟨3, 26, .string, Proto.ExceptionAck.timestamp,
      fun value message => { message with timestamp := value }⟩ = .ok time :=
    encode_of_field hagrees (isPresent_string timestamp)
      (fun _ => hagrees.string htimestamp) htime
  simp only [MessageType.encode, Wire.Schema.encode, MessageType.schema,
    Proto.ExceptionAck.schema, Proto.ExceptionAck.fields, Wire.encodeFields]
  rw [hcode, htext, htime]
  simp [bind, Except.bind, pure, Except.pure]

end Clients

theorem timestamp_eq {service : ExceptionFilter.Service} {now : Text} {thrown : Thrown}
    {dto : ExceptionFilter.ErrorResponseDto}
    (hdto : createErrorResponse service now thrown = .ok dto) : dto.timestamp = now := by
  cases thrown with
  | exception exception =>
      rw [← Except.ok.inj hdto]
      rfl
  | unserializable => cases hdto

/-- A client that takes the frame of an error response apart reads the code, the
message and the time of the response. -/
theorem client_reads_response {ε : Type} (filter : Filter) (wire : Wire.BinaryWriter ε)
    (reader : BinaryReader ε) (hwriter : filter.writer.Lawful)
    (hagrees : Agrees filter.writer wire) (hlawful : Wire.Lawful wire reader)
    (memory : ℕ → UInt8) (now : Text) (thrown : Thrown) (data : WsData)
    (dto : ExceptionFilter.ErrorResponseDto) (message : Text)
    (hdto : createErrorResponse filter.service now thrown = .ok dto)
    (hmessage : dto.message = .string message)
    (hnow : Kind.Valid .string now) (htext : Kind.Valid .string message)
    (buffers : List Buffer)
    (hsent : catchException filter memory now true thrown data = .ok buffers) :
    ∃ buffer header payload, buffers = [buffer] ∧
      unframeWSMessage buffer = .ok (header, payload) ∧
      header.cmd = MonkeyCmd.exceptionAck ∧
      MessageType.exceptionAck.decode reader payload =
        .ok ⟨dto.errorCode, message, now⟩ := by
  simp only [catchException, hdto, bind_eq_ok, if_true, Checks.mapError_eq_ok, pure,
    Except.pure, Except.ok.injEq, exists_eq_left', hmessage,
    timestamp_eq hdto] at hsent
  obtain ⟨payload, hpayload, buffer, hframe, rfl⟩ := hsent
  obtain ⟨-, hframe⟩ := Monkey.MonkeyFramer.frameNumber_eq_ok.mp hframe
  obtain ⟨-, hunframe⟩ := Monkey.MonkeyFramer.unframe_of_frame hframe
  have hcode := ((Monkey.ExceptionAck.exists_encode_iff hwriter).mp ⟨payload, hpayload⟩).1
  refine ⟨buffer, _, payload, rfl, hunframe, rfl, ?_⟩
  apply Wire.decode_encode hlawful _ (encode_of_filter hagrees htext.2 hnow.2 hpayload)
  simp only [Wire.Schema.Valid, MessageType.schema, Proto.ExceptionAck.schema,
    Proto.ExceptionAck.fields, List.forall_mem_cons]
  exact ⟨hcode, htext, hnow, List.forall_mem_nil _⟩

/-! ## The protobuf writer -/

/-- A string has fewer than `2 ^ 29` code units. -/
def protobufWriter : BinaryWriter where
  uint32 := Protobuf.writer.uint32
  int32 value := (Protobuf.writer.int32 value).mapError
    fun _ => .error ("invalid int32: " ++ toString value)
  string value :=
    let text := ExceptionFilter.textOf value
    if text.length < 2 ^ 29 then
      (Protobuf.writer.string text).mapError fun _ => .error "invalid string length"
    else .ok []

theorem agrees_protobufWriter : Agrees protobufWriter Protobuf.writer where
  uint32 _ := rfl
  int32 hbytes := Checks.mapError_eq_ok.mp hbytes
  string := by
    intro text bytes hlength hbytes
    rw [protobufWriter] at hbytes
    dsimp only [ExceptionFilter.textOf] at hbytes
    rw [if_pos hlength] at hbytes
    exact Checks.mapError_eq_ok.mp hbytes

theorem lawful_protobufWriter : protobufWriter.Lawful where
  int32 := by
    intro value
    simp only [protobufWriter, Checks.mapError_eq_ok, Protobuf.writer, Monkey.IsInt32]
    split <;> simp_all
  string := by
    intro text
    dsimp only [protobufWriter, ExceptionFilter.textOf]
    split
    · rename_i hlength
      exact ⟨_, Checks.mapError_eq_ok.mpr (Protobuf.write_string_eq hlength)⟩
    · exact ⟨[], rfl⟩
  length_uint32 value := Protobuf.length_writeVarint_le 5 value
  length_int32 := by
    intro value bytes hbytes
    have hbytes := Checks.mapError_eq_ok.mp hbytes
    simp only [Protobuf.writer] at hbytes
    split at hbytes
    · rw [← Except.ok.inj hbytes]
      exact Protobuf.length_writeVarint_le 10 _
    · cases hbytes
  length_string := by
    intro value bytes hbytes
    dsimp only [protobufWriter] at hbytes
    split at hbytes
    · rename_i hlength
      have hchunk := Utf8.length_encode_le (ExceptionFilter.textOf value)
      have hcount := Protobuf.length_writeVarint_le 5
        (Utf8.encode (ExceptionFilter.textOf value)).length
      have hbytes := Checks.mapError_eq_ok.mp hbytes
      rw [Protobuf.write_string_eq hlength] at hbytes
      rw [← Except.ok.inj hbytes, List.length_append]
      omega
    · rw [← Except.ok.inj hbytes]
      exact Nat.zero_le _

/-- The gateway with the protobuf writer. -/
def protobufGateway : Filter := { gateway with writer := protobufWriter }

/-- What the client is told about an error of a handler. -/
def unavailable : Text := Text.ofAscii "SYSTEM_UNAVAILABLE".toList

theorem valid_ofAscii {chars : List Char} (hsmall : ∀ char ∈ chars, char.toNat < 0x10000)
    (hlength : (Text.ofAscii chars).length < 2 ^ 29)
    (hunmarked : (Text.ofAscii chars).head? ≠ some Utf8.byteOrderMark) :
    Kind.Valid .string (Text.ofAscii chars) :=
  ⟨⟨Utf8.wellFormed_ofAscii hsmall, hunmarked⟩, hlength⟩

theorem client_reads_handlerError :
    ∃ buffers, catchException protobufGateway (fun _ => 0) timestamp true handlerError
      (.object (some ⟨some (.finite (.ofInt 7 (by decide)))⟩) none) = .ok buffers ∧
    ∃ buffer header payload, buffers = [buffer] ∧
      unframeWSMessage buffer = .ok (header, payload) ∧
      header.cmd = MonkeyCmd.exceptionAck ∧
      MessageType.exceptionAck.decode Protobuf.reader payload =
        .ok ⟨99999, unavailable, timestamp⟩ := by
  have hreqId : (WsData.object (some ⟨some (.finite (.ofInt 7 (by decide)))⟩)
      none).reqId.outOfBounds = false := by decide
  have hnow : Kind.Valid .string timestamp :=
    valid_ofAscii (by simp) (by decide) (by decide)
  have htext : Kind.Valid .string unavailable :=
    valid_ofAscii (by simp) (by decide) (by decide)
  obtain ⟨buffers, hsent⟩ : ∃ buffers, catchException protobufGateway (fun _ => 0)
      timestamp true handlerError _ = .ok buffers :=
    (exists_catchException_iff lawful_protobufWriter).mpr ⟨trivial, hreqId⟩
  exact ⟨buffers, hsent, client_reads_response protobufGateway Protobuf.writer
    Protobuf.reader lawful_protobufWriter agrees_protobufWriter Protobuf.lawful _ timestamp
    handlerError _ _ unavailable rfl rfl hnow htext buffers hsent⟩

end OceanChat.MonkeyWsExceptionFilter
