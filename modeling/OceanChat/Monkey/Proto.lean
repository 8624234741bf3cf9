import OceanChat.Core.Protobuf

/-!
# The messages of the binary protocol

Every message type has its table of fields, with the numbers and the tags of the
generated code.  What a peer encodes is decoded to the same message; records may
come in any order and repeatedly, and a peer may send fields that are not known
here.
-/

namespace OceanChat.Proto

open ByteBuffer (Buffer)
open Wire (BinaryReader BinaryWriter Kind Lawful Piece Schema)

/-! ## The message types -/

/-- `MSG_UP`. -/
structure MsgUp where
  clientMsgId : Text
  groupId : Text
  msgType : ℤ
  content : Text
  url : Text
  width : ℤ
  height : ℤ
  size : Text
  format : Text
  duration : ℤ
  fileName : Text
  extension : Text
  thumbnailUrl : Text
  deriving DecidableEq

/-- `MSG_UP_ACK`. -/
structure MsgUpAck where
  clientMsgId : Text
  syncSeqId : Text
  success : Bool
  errorMessage : Text
  deriving DecidableEq

/-- `MSG_NOTIFY`. -/
structure MsgNotify where
  groupId : Text
  syncSeqId : Text
  deriving DecidableEq

/-- `AUTH_REQ`. -/
structure AuthReq where
  deviceType : Text
  deviceId : Text
  jwt : Text
  deriving DecidableEq

/-- `AUTH_ACK`. -/
structure AuthAck where
  success : Bool
  errorMessage : Text
  deriving DecidableEq

/-- `READ_RECEIPT`. -/
structure ReadReceipt where
  groupId : Text
  syncSeqId : Text
  deriving DecidableEq

/-- `EXCEPTION_ACK`. -/
structure ExceptionAck where
  errorCode : ℤ
  message : Text
  timestamp : Text
  deriving DecidableEq

/-! ## Their fields -/

def createBaseMsgUp : MsgUp where
  clientMsgId := []
  groupId := []
  msgType := 0
  content := []
  url := []
  width := 0
  height := 0
  size := Wire.decimal 0
  format := []
  duration := 0
  fileName := []
  extension := []
  thumbnailUrl := []

def MsgUp.fields : List (Wire.Field MsgUp) :=
  [⟨1, 10, .string, clientMsgId, fun value message => { message with clientMsgId := value }⟩,
    ⟨2, 18, .string, groupId, fun value message => { message with groupId := value }⟩,
    ⟨3, 24, .int32, msgType, fun value message => { message with msgType := value }⟩,
    ⟨4, 34, .string, content, fun value message => { message with content := value }⟩,
    ⟨5, 42, .string, url, fun value message => { message with url := value }⟩,
    ⟨6, 48, .int32, width, fun value message => { message with width := value }⟩,
    ⟨7, 56, .int32, height, fun value message => { message with height := value }⟩,
    ⟨8, 64, .int64, size, fun value message => { message with size := value }⟩,
    ⟨9, 74, .string, format, fun value message => { message with format := value }⟩,
    ⟨10, 80, .int32, duration, fun value message => { message with duration := value }⟩,
    ⟨11, 90, .string, fileName, fun value message => { message with fileName := value }⟩,
    ⟨12, 98, .string, extension, fun value message => { message with extension := value }⟩,
    ⟨13, 106, .string, thumbnailUrl,
      fun value message => { message with thumbnailUrl := value }⟩]

def MsgUp.schema : Schema MsgUp where
  base := createBaseMsgUp
  fields := fields
  tag_eq := by simp [fields, Kind.wireType]
  tag_pos := by simp [fields]
  tag_lt := by simp [fields]
  nodup := by decide
  get_base := by simp [fields, createBaseMsgUp, Kind.default]
  get_set := by simp [fields]
  apart := by simp [fields, Wire.Apart]
  ext := by
    rintro ⟨⟩ ⟨⟩ hfields
    simpa [fields] using hfields

def createBaseMsgUpAck : MsgUpAck where
  clientMsgId := []
  syncSeqId := Wire.decimal 0
  success := false
  errorMessage := []

def MsgUpAck.fields : List (Wire.Field MsgUpAck) :=
  [⟨1, 10, .string, clientMsgId, fun value message => { message with clientMsgId := value }⟩,
    ⟨2, 16, .uint64, syncSeqId, fun value message => { message with syncSeqId := value }⟩,
    ⟨3, 24, .bool, success, fun value message => { message with success := value }⟩,
    ⟨4, 34, .string, errorMessage, fun value message => { message with errorMessage := value }⟩]

def MsgUpAck.schema : Schema MsgUpAck where
  base := createBaseMsgUpAck
  fields := fields
  tag_eq := by simp [fields, Kind.wireType]
  tag_pos := by simp [fields]
  tag_lt := by simp [fields]
  nodup := by decide
  get_base := by simp [fields, createBaseMsgUpAck, Kind.default]
  get_set := by simp [fields]
  apart := by simp [fields, Wire.Apart]
  ext := by
    rintro ⟨⟩ ⟨⟩ hfields
    simpa [fields] using hfields

def createBaseMsgNotify : MsgNotify where
  groupId := []
  syncSeqId := Wire.decimal 0

def MsgNotify.fields : List (Wire.Field MsgNotify) :=
  [⟨1, 10, .string, groupId, fun value message => { message with groupId := value }⟩,
    ⟨2, 16, .uint64, syncSeqId, fun value message => { message with syncSeqId := value }⟩]

def MsgNotify.schema : Schema MsgNotify where
  base := createBaseMsgNotify
  fields := fields
  tag_eq := by simp [fields, Kind.wireType]
  tag_pos := by simp [fields]
  tag_lt := by simp [fields]
  nodup := by decide
  get_base := by simp [fields, createBaseMsgNotify, Kind.default]
  get_set := by simp [fields]
  apart := by simp [fields, Wire.Apart]
  ext := by
    rintro ⟨⟩ ⟨⟩ hfields
    simpa [fields] using hfields

def createBaseAuthReq : AuthReq where
  deviceType := []
  deviceId := []
  jwt := []

def AuthReq.fields : List (Wire.Field AuthReq) :=
  [⟨1, 10, .string, deviceType, fun value message => { message with deviceType := value }⟩,
    ⟨2, 18, .string, deviceId, fun value message => { message with deviceId := value }⟩,
    ⟨3, 26, .string, jwt, fun value message => { message with jwt := value }⟩]

def AuthReq.schema : Schema AuthReq where
  base := createBaseAuthReq
  fields := fields
  tag_eq := by simp [fields, Kind.wireType]
  tag_pos := by simp [fields]
  tag_lt := by simp [fields]
  nodup := by decide
  get_base := by simp [fields, createBaseAuthReq, Kind.default]
  get_set := by simp [fields]
  apart := by simp [fields, Wire.Apart]
  ext := by
    rintro ⟨⟩ ⟨⟩ hfields
    simpa [fields] using hfields

def createBaseAuthAck : AuthAck where
  success := false
  errorMessage := []

def AuthAck.fields : List (Wire.Field AuthAck) :=
  [⟨1, 8, .bool, success, fun value message => { message with success := value }⟩,
    ⟨2, 18, .string, errorMessage, fun value message => { message with errorMessage := value }⟩]

def AuthAck.schema : Schema AuthAck where
  base := createBaseAuthAck
  fields := fields
  tag_eq := by simp [fields, Kind.wireType]
  tag_pos := by simp [fields]
  tag_lt := by simp [fields]
  nodup := by decide
  get_base := by simp [fields, createBaseAuthAck, Kind.default]
  get_set := by simp [fields]
  apart := by simp [fields, Wire.Apart]
  ext := by
    rintro ⟨⟩ ⟨⟩ hfields
    simpa [fields] using hfields

def createBaseReadReceipt : ReadReceipt where
  groupId := []
  syncSeqId := Wire.decimal 0

def ReadReceipt.fields : List (Wire.Field ReadReceipt) :=
  [⟨1, 10, .string, groupId, fun value message => { message with groupId := value }⟩,
    ⟨2, 16, .uint64, syncSeqId, fun value message => { message with syncSeqId := value }⟩]

def ReadReceipt.schema : Schema ReadReceipt where
  base := createBaseReadReceipt
  fields := fields
  tag_eq := by simp [fields, Kind.wireType]
  tag_pos := by simp [fields]
  tag_lt := by simp [fields]
  nodup := by decide
  get_base := by simp [fields, createBaseReadReceipt, Kind.default]
  get_set := by simp [fields]
  apart := by simp [fields, Wire.Apart]
  ext := by
    rintro ⟨⟩ ⟨⟩ hfields
    simpa [fields] using hfields

def createBaseExceptionAck : ExceptionAck where
  errorCode := 0
  message := []
  timestamp := []

def ExceptionAck.fields : List (Wire.Field ExceptionAck) :=
  [⟨1, 8, .int32, errorCode, fun value message => { message with errorCode := value }⟩,
    ⟨2, 18, .string, message, fun value message => { message with message := value }⟩,
    ⟨3, 26, .string, timestamp, fun value message => { message with timestamp := value }⟩]

def ExceptionAck.schema : Schema ExceptionAck where
  base := createBaseExceptionAck
  fields := fields
  tag_eq := by simp [fields, Kind.wireType]
  tag_pos := by simp [fields]
  tag_lt := by simp [fields]
  nodup := by decide
  get_base := by simp [fields, createBaseExceptionAck, Kind.default]
  get_set := by simp [fields]
  apart := by simp [fields, Wire.Apart]
  ext := by
    rintro ⟨⟩ ⟨⟩ hfields
    simpa [fields] using hfields

/-! ## Encoding and decoding -/

inductive MessageType
  | msgUp
  | msgUpAck
  | msgNotify
  | authReq
  | authAck
  | readReceipt
  | exceptionAck

namespace MessageType

abbrev Message : MessageType → Type
  | msgUp => MsgUp
  | msgUpAck => MsgUpAck
  | msgNotify => MsgNotify
  | authReq => AuthReq
  | authAck => AuthAck
  | readReceipt => ReadReceipt
  | exceptionAck => ExceptionAck

def schema : (type : MessageType) → Schema type.Message
  | msgUp => MsgUp.schema
  | msgUpAck => MsgUpAck.schema
  | msgNotify => MsgNotify.schema
  | authReq => AuthReq.schema
  | authAck => AuthAck.schema
  | readReceipt => ReadReceipt.schema
  | exceptionAck => ExceptionAck.schema

variable {ε : Type} (type : MessageType)

def encode (writer : BinaryWriter ε) (message : type.Message) : Except ε Buffer :=
  type.schema.encode writer message

def decode (reader : BinaryReader ε) (bytes : Buffer) : Except ε type.Message :=
  type.schema.decode reader bytes

variable {writer : BinaryWriter ε} {reader : BinaryReader ε}

/-- A valid message can be encoded, its bytes are decoded to it, and no other
valid message has the same bytes. -/
theorem decode_of_encode (hlawful : Lawful writer reader) (message : type.Message)
    (hvalid : type.schema.Valid message) :
    ∃ bytes, type.encode writer message = .ok bytes ∧
      type.decode reader bytes = .ok message ∧
      ∀ other, type.schema.Valid other → type.encode writer other = .ok bytes →
        other = message := by
  obtain ⟨bytes, hencode⟩ := Wire.exists_encode hlawful hvalid
  have hdecode := Wire.decode_encode hlawful hvalid hencode
  refine ⟨bytes, hencode, hdecode, ?_⟩
  intro other hother hsame
  have hagain := Wire.decode_encode hlawful hother hsame
  exact Except.ok.inj (hagain.symm.trans hdecode)

/-- An upload with a text above the ASCII range and a size of 64 bits. -/
def image : MsgUp :=
  { createBaseMsgUp with
    clientMsgId := Text.ofAscii ['a', '1']
    msgType := 1
    content := Utf8.ofChars ['é', '😀']
    width := -1
    size := Wire.decimal (2 ^ 63 - 1) }

theorem valid_ofChars {chars : List Char} (hlength : (Utf8.ofChars chars).length < 2 ^ 29)
    (hunmarked : (Utf8.ofChars chars).head? ≠ some Utf8.byteOrderMark) :
    Kind.Valid .string (Utf8.ofChars chars) :=
  ⟨⟨Utf8.wellFormed_ofChars chars, hunmarked⟩, hlength⟩

theorem valid_image : MsgUp.schema.Valid image := by
  have hempty : Kind.Valid .string [] := Kind.valid_default .string
  have hzero : Kind.Valid .int32 0 := Kind.valid_default .int32
  have hid : Kind.Valid .string (Utf8.ofChars ['a', '1']) :=
    valid_ofChars (by decide) (by decide)
  have hcontent : Kind.Valid .string (Utf8.ofChars ['é', '😀']) :=
    valid_ofChars (by decide) (by decide)
  have hsize : Kind.Valid .int64 image.size := ⟨2 ^ 63 - 1, by decide, by decide, rfl⟩
  simp only [Schema.Valid, MsgUp.schema, MsgUp.fields, List.forall_mem_cons]
  exact ⟨hid, hempty, ⟨by decide, by decide⟩, hcontent, hempty, ⟨by decide, by decide⟩,
    hzero, hsize, hempty, hzero, hempty, hempty, hempty, List.forall_mem_nil _⟩

theorem decode_of_encode_image :
    ∃ bytes, msgUp.encode Protobuf.writer image = .ok bytes ∧
      msgUp.decode Protobuf.reader bytes = .ok image ∧
      ∀ other, msgUp.schema.Valid other → msgUp.encode Protobuf.writer other = .ok bytes →
        other = image :=
  msgUp.decode_of_encode Protobuf.lawful image valid_image

/-- Two messages in a row are decoded to one, in which the second message wins
where it has no default. -/
theorem decode_append (hlawful : Lawful writer reader) (left right : type.Message)
    (hleft : type.schema.Valid left) (hright : type.schema.Valid right) :
    ∃ first second merged, type.encode writer left = .ok first ∧
      type.encode writer right = .ok second ∧
      type.decode reader (first ++ second) = .ok merged ∧
      ∀ field ∈ type.schema.fields, field.get merged =
        if field.kind.isDefault (field.get right) then field.get left
        else field.get right := by
  obtain ⟨first, hfirst⟩ := Wire.exists_encode hlawful hleft
  obtain ⟨second, hsecond⟩ := Wire.exists_encode hlawful hright
  refine ⟨first, second, type.schema.merge left right, hfirst, hsecond, ?_, ?_⟩
  · have hmerged : type.schema.decodeFrom reader left (second ++ []) =
        type.schema.decodeFrom reader (type.schema.merge left right) [] :=
      Wire.decodeFrom_encode_append hlawful hright hsecond []
    rw [List.append_nil, Wire.decodeFrom_nil] at hmerged
    rw [decode, Schema.decode, Wire.decodeFrom_encode_append hlawful hleft hfirst,
      Wire.base_merge, hmerged]
  · exact fun field hmem => Wire.get_merge hmem

/-- In a stream of records in any order, the last one of a field decides its
value, a field without one has its default, and a record of a peer that knows
more fields does not matter. -/
theorem decode_records (hlawful : Lawful writer reader) (pieces : List (Piece type.Message))
    (hvalid : ∀ piece ∈ pieces, piece.Valid type.schema reader) :
    ∃ bytes message, Wire.encodePieces writer pieces = .ok bytes ∧
      type.decode reader bytes = .ok message ∧
      ∀ field ∈ type.schema.fields,
        ((∀ piece ∈ pieces, ¬ piece.Sets field) →
          field.get message = field.kind.default) ∧
        ∀ front value back, pieces = front ++ .known field value :: back →
          (∀ piece ∈ back, ¬ piece.Sets field) → field.get message = value := by
  obtain ⟨bytes, hbytes⟩ := Wire.exists_encodePieces hlawful hvalid
  have hdecode : type.schema.decodeFrom reader type.schema.base (bytes ++ []) =
      type.schema.decodeFrom reader (pieces.foldl Piece.apply type.schema.base) [] :=
    Wire.decodeFrom_pieces hlawful hvalid hbytes
  rw [List.append_nil, Wire.decodeFrom_nil] at hdecode
  refine ⟨bytes, _, hbytes, hdecode, ?_⟩
  intro field hmem
  constructor
  · intro hnone
    rw [Wire.get_foldl_of_not_sets hmem hvalid hnone, type.schema.get_base field hmem]
  · rintro front value back rfl hback
    have hlast : ∀ piece ∈ back, piece.Valid type.schema reader :=
      fun piece hpiece => hvalid piece
        (List.mem_append_right front (List.mem_cons_of_mem _ hpiece))
    exact Wire.get_foldl_last hmem hlast hback _

/-- A peer with a third field sends it first. -/
def newerRecords : List (Piece AuthAck) :=
  [.unknown 24 [5], .known ⟨1, 8, .bool, AuthAck.success,
    fun value message => { message with success := value }⟩ true]

theorem valid_newerRecords :
    ∀ piece ∈ newerRecords, piece.Valid AuthAck.schema Protobuf.reader := by
  have hskip : Wire.Skippable AuthAck.schema Protobuf.reader 24 [5] :=
    { tag_lt := by decide
      proceeds := by decide
      unknown := by decide
      skip := fun _ => rfl }
  have hmem : ⟨1, 8, .bool, AuthAck.success,
      fun value message => { message with success := value }⟩ ∈ AuthAck.fields :=
    List.mem_cons_self
  simp only [newerRecords, List.forall_mem_cons]
  exact ⟨hskip, ⟨hmem, trivial⟩, List.forall_mem_nil _⟩

theorem decode_newerRecords :
    ∃ bytes message, Wire.encodePieces Protobuf.writer newerRecords = .ok bytes ∧
      authAck.decode Protobuf.reader bytes = .ok message ∧
      ∀ field ∈ authAck.schema.fields,
        ((∀ piece ∈ newerRecords, ¬ piece.Sets field) →
          field.get message = field.kind.default) ∧
        ∀ front value back, newerRecords = front ++ .known field value :: back →
          (∀ piece ∈ back, ¬ piece.Sets field) → field.get message = value :=
  authAck.decode_records Protobuf.lawful newerRecords valid_newerRecords

/-- Whatever was received is encoded again to bytes that mean the same, unless
one of its texts starts with a byte order mark. -/
theorem reencode_of_decode (hlawful : Lawful writer reader) (bytes : Buffer)
    (message : type.Message) (hbound : bytes.length < 2 ^ 29)
    (hdecode : type.decode reader bytes = .ok message)
    (hunmarked : type.schema.Unmarked message) :
    ∃ canonical, type.encode writer message = .ok canonical ∧
      type.decode reader canonical = .ok message := by
  have hvalid := Wire.valid_of_decode hlawful hbound hdecode hunmarked
  obtain ⟨canonical, hencode⟩ := Wire.exists_encode hlawful hvalid
  exact ⟨canonical, hencode, Wire.decode_encode hlawful hvalid hencode⟩

/-- An unknown field, and a flag that is not written as one. -/
theorem reencode_of_decode_flag :
    ∃ canonical, authAck.encode Protobuf.writer ⟨true, []⟩ = .ok canonical ∧
      authAck.decode Protobuf.reader canonical = .ok ⟨true, []⟩ := by
  have hunknown : authAck.schema.turn Protobuf.reader createBaseAuthAck [24, 5, 8, 2] =
      .ok (.proceed createBaseAuthAck [8, 2]) := rfl
  have hflag : authAck.schema.turn Protobuf.reader createBaseAuthAck [8, 2] =
      .ok (.proceed ⟨true, []⟩ []) := rfl
  have hdecode : authAck.decode Protobuf.reader [24, 5, 8, 2] = .ok ⟨true, []⟩ := by
    rw [decode, Schema.decode]
    exact (Wire.decodeFrom_of_proceed hunknown).trans
      ((Wire.decodeFrom_of_proceed hflag).trans Wire.decodeFrom_nil)
  refine authAck.reencode_of_decode Protobuf.lawful [24, 5, 8, 2] ⟨true, []⟩ (by decide)
    hdecode ?_
  simp only [Schema.Unmarked, schema, AuthAck.schema, AuthAck.fields,
    List.forall_mem_cons]
  exact ⟨trivial, nofun, List.forall_mem_nil _⟩

end MessageType

end OceanChat.Proto
