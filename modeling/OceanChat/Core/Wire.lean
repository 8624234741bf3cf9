import OceanChat.Core.Checks
import OceanChat.Core.Utf8

/-!
# Messages as tagged fields

A message is written as a sequence of records, each a tag and a value; a field
with its default is left out.  The reader takes the records in any order, lets
the last one of a field win and skips those that it does not know.  The binary
reader and writer are parameters with the laws that they obey.
-/

namespace Wire

open ByteBuffer (Buffer)
open Checks (bind_eq_ok)

variable {ε α β M : Type}

/-! ## Kinds of values -/

/-- A reader of one value, which returns what is left and never goes back. -/
structure Parser (ε α : Type) where
  run : Buffer → Except ε (α × Buffer)
  length_le : ∀ {bytes value rest}, run bytes = .ok (value, rest) →
    rest.length ≤ bytes.length

def Parser.map (f : α → β) (parser : Parser ε α) : Parser ε β where
  run bytes := do
    let (value, rest) ← parser.run bytes
    return (f value, rest)
  length_le := by
    intro bytes value rest hrun
    simp only [bind_eq_ok, pure, Except.pure, Except.ok.injEq, Prod.mk.injEq,
      Prod.exists] at hrun
    obtain ⟨_, _, hrun, -, rfl⟩ := hrun
    exact parser.length_le hrun

theorem Parser.map_eq_ok {f : α → β} {parser : Parser ε α} {bytes rest : Buffer}
    {value : β} :
    (parser.map f).run bytes = .ok (value, rest) ↔
      ∃ result, parser.run bytes = .ok (result, rest) ∧ f result = value := by
  simp only [Parser.map, bind_eq_ok, pure, Except.pure, Except.ok.injEq,
    Prod.mk.injEq, Prod.exists]
  constructor
  · rintro ⟨result, _, hrun, hvalue, rfl⟩
    exact ⟨result, hrun, hvalue⟩
  · rintro ⟨result, hrun, hvalue⟩
    exact ⟨result, rest, hrun, hvalue, rfl⟩

def decimal (value : ℤ) : Text := Text.ofAscii (toString value).toList

inductive Kind
  | string
  | int32
  | int64
  | uint64
  | bool
  deriving DecidableEq

/-- Integers of 64 bits are kept as decimal texts. -/
abbrev Kind.Value : Kind → Type
  | .string => Text
  | .int32 => ℤ
  | .int64 => Text
  | .uint64 => Text
  | .bool => Bool

def Kind.default : (kind : Kind) → kind.Value
  | .string => []
  | .int32 => 0
  | .int64 => decimal 0
  | .uint64 => decimal 0
  | .bool => false

/-- The value is not written. -/
def Kind.isDefault : (kind : Kind) → kind.Value → Bool
  | .string, text => decide (text = [])
  | .int32, value => decide (value = 0)
  | .int64, text => decide (text = decimal 0)
  | .uint64, text => decide (text = decimal 0)
  | .bool, value => !value

theorem Kind.isDefault_iff {kind : Kind} {value : kind.Value} :
    kind.isDefault value = true ↔ value = kind.default := by
  cases kind with
  | bool => cases value <;> decide
  | _ => exact decide_eq_true_iff

/-- Length-delimited, or a variable-length integer. -/
def Kind.wireType : Kind → ℕ
  | .string => 2
  | _ => 0

/-- The values that can be told from their bytes. -/
def Kind.Valid : (kind : Kind) → kind.Value → Prop
  | .string, text => Utf8.Transmissible text ∧ text.length < 2 ^ 29
  | .int32, value => -2 ^ 31 ≤ value ∧ value < 2 ^ 31
  | .int64, text => ∃ value, -2 ^ 63 ≤ value ∧ value < 2 ^ 63 ∧ text = decimal value
  | .uint64, text => ∃ value : ℤ, 0 ≤ value ∧ value < 2 ^ 64 ∧ text = decimal value
  | .bool, _ => True

/-- What a reader makes of any bytes, at most `bound` of them. -/
def Kind.Readable (bound : ℕ) : (kind : Kind) → kind.Value → Prop
  | .string, text => Utf8.WellFormed text ∧ text.length ≤ bound
  | .int32, value => Kind.Valid .int32 value
  | .int64, text => Kind.Valid .int64 text
  | .uint64, text => Kind.Valid .uint64 text
  | .bool, _ => True

/-- A text that does not start with a byte order mark. -/
def Kind.Unmarked : (kind : Kind) → kind.Value → Prop
  | .string, text => text.head? ≠ some Utf8.byteOrderMark
  | _, _ => True

theorem Kind.Readable.mono {kind : Kind} {value : kind.Value} {less more : ℕ}
    (hle : less ≤ more) (hreadable : kind.Readable less value) :
    kind.Readable more value := by
  cases kind with
  | string => exact ⟨hreadable.1, hreadable.2.trans hle⟩
  | _ => exact hreadable

theorem Kind.Readable.valid {kind : Kind} {value : kind.Value} {bound : ℕ}
    (hbound : bound < 2 ^ 29) (hreadable : kind.Readable bound value)
    (hunmarked : kind.Unmarked value) : kind.Valid value := by
  cases kind with
  | string => exact ⟨⟨hreadable.1, hunmarked⟩, hreadable.2.trans_lt hbound⟩
  | bool => trivial
  | _ => exact hreadable

theorem Kind.readable_default (kind : Kind) (bound : ℕ) :
    kind.Readable bound kind.default := by
  cases kind with
  | string => exact ⟨⟨[], rfl⟩, Nat.zero_le _⟩
  | int32 => exact ⟨by decide, by decide⟩
  | int64 => exact ⟨0, by decide, by decide, rfl⟩
  | uint64 => exact ⟨0, by decide, by decide, rfl⟩
  | bool => trivial

theorem Kind.valid_default (kind : Kind) : kind.Valid kind.default := by
  refine (kind.readable_default 0).valid (by decide) ?_
  cases kind with
  | string => nofun
  | _ => trivial

/-! ## The binary reader and writer -/

/-- The bytes that each call of the writer appends. -/
structure BinaryWriter (ε : Type) where
  uint32 : ℕ → Buffer
  string : Text → Except ε Buffer
  int32 : ℤ → Except ε Buffer
  int64 : Text → Except ε Buffer
  uint64 : Text → Except ε Buffer
  bool : Bool → Except ε Buffer

/-- `skip` is given the wire type of the value. -/
structure BinaryReader (ε : Type) where
  uint32 : Parser ε ℕ
  string : Parser ε Text
  int32 : Parser ε ℤ
  int64 : Parser ε ℤ
  uint64 : Parser ε ℤ
  bool : Parser ε Bool
  skip : ℕ → Parser ε Unit
  uint32_lt : ∀ {bytes value rest}, uint32.run bytes = .ok (value, rest) →
    rest.length < bytes.length

def Kind.write (writer : BinaryWriter ε) : (kind : Kind) → kind.Value →
    Except ε Buffer
  | .string => writer.string
  | .int32 => writer.int32
  | .int64 => writer.int64
  | .uint64 => writer.uint64
  | .bool => writer.bool

def Kind.read (reader : BinaryReader ε) : (kind : Kind) → Parser ε kind.Value
  | .string => reader.string
  | .int32 => reader.int32
  | .int64 => reader.int64.map decimal
  | .uint64 => reader.uint64.map decimal
  | .bool => reader.bool

/-- What the writer writes, the reader reads and skips in front of any bytes. -/
structure Lawful (writer : BinaryWriter ε) (reader : BinaryReader ε) : Prop where
  uint32 : ∀ {tag}, tag < 2 ^ 32 → ∀ rest,
    reader.uint32.run (writer.uint32 tag ++ rest) = .ok (tag, rest)
  write : ∀ {kind : Kind} {value}, kind.Valid value →
    ∃ bytes, kind.write writer value = .ok bytes
  read : ∀ {kind : Kind} {value bytes}, kind.Valid value →
    kind.write writer value = .ok bytes → ∀ rest,
      (kind.read reader).run (bytes ++ rest) = .ok (value, rest)
  skip : ∀ {kind : Kind} {value bytes}, kind.Valid value →
    kind.write writer value = .ok bytes → ∀ rest,
      (reader.skip kind.wireType).run (bytes ++ rest) = .ok ((), rest)
  readable : ∀ {kind : Kind} {bytes value rest},
    (kind.read reader).run bytes = .ok (value, rest) → kind.Readable bytes.length value

/-! ## Schemas -/

/-- A field with the literal tag that the code writes and compares. -/
structure Field (M : Type) where
  number : ℕ
  tag : ℕ
  kind : Kind
  get : M → kind.Value
  set : kind.Value → M → M

/-- Setting one of the fields leaves the other as it is. -/
def Apart (left right : Field M) : Prop :=
  ∀ message, (∀ value, right.get (left.set value message) = right.get message) ∧
    ∀ value, left.get (right.set value message) = left.get message

instance : Std.Symm (@Apart M) where
  symm _ _ hapart message := (hapart message).symm

/-- The fields of a message do not disturb each other and make up the whole
message. -/
structure Schema (M : Type) where
  base : M
  fields : List (Field M)
  tag_eq : ∀ field ∈ fields, field.tag = field.number * 8 + field.kind.wireType
  tag_pos : ∀ field ∈ fields, 0 < field.tag
  tag_lt : ∀ field ∈ fields, field.tag < 2 ^ 32
  nodup : (fields.map Field.number).Nodup
  get_base : ∀ field ∈ fields, field.get base = field.kind.default
  get_set : ∀ field ∈ fields, ∀ value message,
    field.get (field.set value message) = value
  apart : fields.Pairwise Apart
  ext : ∀ left right, (∀ field ∈ fields, field.get left = field.get right) →
    left = right

section Codec

variable {schema : Schema M}

/-- A field with its tag, unless it has its default. -/
def Field.encode (writer : BinaryWriter ε) (message : M) (field : Field M) :
    Except ε Buffer :=
  if field.kind.isDefault (field.get message) then .ok []
  else do
    let bytes ← field.kind.write writer (field.get message)
    return writer.uint32 field.tag ++ bytes

def encodeFields (writer : BinaryWriter ε) (message : M) :
    List (Field M) → Except ε Buffer
  | [] => .ok []
  | field :: fields => do
      let bytes ← field.encode writer message
      let rest ← encodeFields writer message fields
      return bytes ++ rest

def Schema.encode (schema : Schema M) (writer : BinaryWriter ε) (message : M) :
    Except ε Buffer :=
  encodeFields writer message schema.fields

/-- `switch (tag >>> 3)`, where the case leaves the switch on another tag. -/
def Schema.caseOf (schema : Schema M) (tag : ℕ) : Option (Field M) :=
  (schema.fields.find? fun field => field.number = tag / 8).filter
    fun field => field.tag = tag

/-- What the loop does after one record. -/
inductive Turn (M : Type)
  | proceed (message : M) (rest : Buffer)
  | stop (message : M)

def Schema.turn (schema : Schema M) (reader : BinaryReader ε) (message : M)
    (bytes : Buffer) : Except ε (Turn M) := do
  let (tag, rest) ← reader.uint32.run bytes
  match schema.caseOf tag with
  | some field => do
      let (value, rest) ← (field.kind.read reader).run rest
      return .proceed (field.set value message) rest
  | none =>
      if tag % 8 = 4 ∨ tag = 0 then return .stop message
      else do
        let ((), rest) ← (reader.skip (tag % 8)).run rest
        return .proceed message rest

/-- The ways that a record is taken: its field is set, it ends the message, or
it is skipped. -/
theorem turn_cases {reader : BinaryReader ε} {message : M} {bytes : Buffer}
    {turn : Turn M} (hturn : schema.turn reader message bytes = .ok turn) :
    ∃ tag rest, reader.uint32.run bytes = .ok (tag, rest) ∧
      ((∃ field value left, schema.caseOf tag = some field ∧
          (field.kind.read reader).run rest = .ok (value, left) ∧
          turn = .proceed (field.set value message) left) ∨
        (schema.caseOf tag = none ∧ (tag % 8 = 4 ∨ tag = 0) ∧ turn = .stop message) ∨
        ∃ left, schema.caseOf tag = none ∧ ¬(tag % 8 = 4 ∨ tag = 0) ∧
          (reader.skip (tag % 8)).run rest = .ok ((), left) ∧
          turn = .proceed message left) := by
  simp only [Schema.turn, bind_eq_ok, Prod.exists] at hturn
  obtain ⟨tag, rest, htag, hturn⟩ := hturn
  refine ⟨tag, rest, htag, ?_⟩
  cases hcase : schema.caseOf tag with
  | some field =>
      simp only [hcase, bind_eq_ok, Prod.exists, pure, Except.pure,
        Except.ok.injEq] at hturn
      obtain ⟨value, left, hread, rfl⟩ := hturn
      exact .inl ⟨field, value, left, rfl, hread, rfl⟩
  | none =>
      simp only [hcase] at hturn
      split at hturn
      · rename_i hstop
        obtain rfl := Except.ok.inj hturn
        exact .inr (.inl ⟨rfl, hstop, rfl⟩)
      · rename_i hgo
        simp only [bind_eq_ok, Prod.exists, pure, Except.pure, Except.ok.injEq] at hturn
        obtain ⟨⟨⟩, left, hskip, rfl⟩ := hturn
        exact .inr (.inr ⟨left, rfl, hgo, hskip, rfl⟩)

/-- Every record takes some bytes, so the loop ends. -/
theorem length_lt_of_turn {reader : BinaryReader ε} {message next : M}
    {bytes left : Buffer}
    (hturn : schema.turn reader message bytes = .ok (.proceed next left)) :
    left.length < bytes.length := by
  obtain ⟨tag, rest, htag, hcases⟩ := turn_cases hturn
  have htag := reader.uint32_lt htag
  obtain ⟨field, value, _, -, hread, heq⟩ | ⟨-, -, heq⟩ | ⟨_, -, -, hskip, heq⟩ := hcases
  · obtain ⟨-, rfl⟩ := Turn.proceed.inj heq
    have hread := (field.kind.read reader).length_le hread
    omega
  · cases heq
  · obtain ⟨-, rfl⟩ := Turn.proceed.inj heq
    have hskip := (reader.skip (tag % 8)).length_le hskip
    omega

/-- `while (reader.pos < end)`. -/
def Schema.decodeFrom (schema : Schema M) (reader : BinaryReader ε) (message : M)
    (bytes : Buffer) : Except ε M :=
  if bytes = [] then .ok message
  else
    match _hturn : schema.turn reader message bytes with
    | .error error => .error error
    | .ok (.stop last) => .ok last
    | .ok (.proceed next left) => schema.decodeFrom reader next left
termination_by bytes.length
decreasing_by exact length_lt_of_turn ‹_›

def Schema.decode (schema : Schema M) (reader : BinaryReader ε) (bytes : Buffer) :
    Except ε M :=
  schema.decodeFrom reader schema.base bytes

end Codec

/-! ## Reading records -/

section Records

variable {schema : Schema M} {writer : BinaryWriter ε} {reader : BinaryReader ε}
variable {field : Field M} {message : M} {bytes rest : Buffer}

theorem caseOf_eq_some {tag : ℕ} (hcase : schema.caseOf tag = some field) :
    field ∈ schema.fields ∧ field.tag = tag := by
  obtain ⟨hfind, htag⟩ := Option.filter_eq_some_iff.mp hcase
  exact ⟨List.mem_of_find?_eq_some hfind, by simpa using htag⟩

theorem number_eq (hmem : field ∈ schema.fields) : field.tag / 8 = field.number := by
  have htag := schema.tag_eq field hmem
  have hwire : field.kind.wireType < 8 := by cases field.kind <;> decide
  omega

/-- A field is found by its own number. -/
theorem caseOf_tag (hmem : field ∈ schema.fields) :
    schema.caseOf field.tag = some field := by
  have hfind : schema.fields.find? (fun other => other.number = field.number) =
      some field := by
    obtain ⟨found, hfound⟩ := Option.isSome_iff_exists.mp
      (List.find?_isSome.mpr ⟨field, hmem, by simp⟩ :
        (schema.fields.find? fun other => other.number = field.number).isSome)
    have hnumber : found.number = field.number := by
      simpa using List.find?_some hfound
    rw [hfound, List.inj_on_of_nodup_map schema.nodup
      (List.mem_of_find?_eq_some hfound) hmem hnumber]
  rw [Schema.caseOf, number_eq hmem, hfind]
  simp

theorem caseOf_eq_none {tag : ℕ} (hnone : ∀ field ∈ schema.fields, field.tag ≠ tag) :
    schema.caseOf tag = none := by
  cases hcase : schema.caseOf tag with
  | none => rfl
  | some field =>
      obtain ⟨hmem, htag⟩ := caseOf_eq_some hcase
      exact absurd htag (hnone field hmem)

@[simp]
theorem decodeFrom_nil : schema.decodeFrom reader message [] = .ok message := by
  rw [Schema.decodeFrom, if_pos rfl]

theorem ne_nil_of_turn {turn : Turn M}
    (hturn : schema.turn reader message bytes = .ok turn) : bytes ≠ [] := by
  rintro rfl
  obtain ⟨tag, rest, htag, -⟩ := turn_cases hturn
  exact absurd (reader.uint32_lt htag) (Nat.not_lt_zero _)

theorem decodeFrom_of_proceed {next : M} {left : Buffer}
    (hturn : schema.turn reader message bytes = .ok (.proceed next left)) :
    schema.decodeFrom reader message bytes = schema.decodeFrom reader next left := by
  rw [Schema.decodeFrom, if_neg (ne_nil_of_turn hturn)]
  split <;> simp_all

/-- A part of a stream: a field that the reader knows, or a value with another
tag that can be skipped. -/
inductive Piece (M : Type)
  | known (field : Field M) (value : field.kind.Value)
  | unknown (tag : ℕ) (body : Buffer)

def Piece.apply (message : M) : Piece M → M
  | .known field value => field.set value message
  | .unknown _ _ => message

def Piece.encode (writer : BinaryWriter ε) : Piece M → Except ε Buffer
  | .known field value => do
      let bytes ← field.kind.write writer value
      return writer.uint32 field.tag ++ bytes
  | .unknown tag body => .ok (writer.uint32 tag ++ body)

/-- A tag without a case that does not end the message, with a value that the
reader skips. -/
structure Skippable (schema : Schema M) (reader : BinaryReader ε) (tag : ℕ)
    (body : Buffer) : Prop where
  tag_lt : tag < 2 ^ 32
  proceeds : ¬(tag % 8 = 4 ∨ tag = 0)
  unknown : ∀ field ∈ schema.fields, field.tag ≠ tag
  skip : ∀ rest, (reader.skip (tag % 8)).run (body ++ rest) = .ok ((), rest)

def Piece.Valid (schema : Schema M) (reader : BinaryReader ε) : Piece M → Prop
  | .known field value => field ∈ schema.fields ∧ field.kind.Valid value
  | .unknown tag body => Skippable schema reader tag body

def encodePieces (writer : BinaryWriter ε) : List (Piece M) → Except ε Buffer
  | [] => .ok []
  | piece :: pieces => do
      let bytes ← piece.encode writer
      let rest ← encodePieces writer pieces
      return bytes ++ rest

theorem turn_piece (hlawful : Lawful writer reader) {piece : Piece M}
    (hvalid : piece.Valid schema reader) (hbytes : piece.encode writer = .ok bytes) :
    schema.turn reader message (bytes ++ rest) =
      .ok (.proceed (piece.apply message) rest) := by
  cases piece with
  | known field value =>
      obtain ⟨hmem, hvalue⟩ := hvalid
      simp only [Piece.encode, bind_eq_ok, pure, Except.pure, Except.ok.injEq] at hbytes
      obtain ⟨written, hwritten, rfl⟩ := hbytes
      have htag := hlawful.uint32 (schema.tag_lt field hmem) (written ++ rest)
      simp [Schema.turn, List.append_assoc, htag, bind, Except.bind, caseOf_tag hmem,
        hlawful.read hvalue hwritten rest, Piece.apply, pure, Except.pure]
  | unknown tag body =>
      obtain rfl := Except.ok.inj hbytes
      have htag := hlawful.uint32 hvalid.tag_lt (body ++ rest)
      simp [Schema.turn, List.append_assoc, htag, bind, Except.bind,
        caseOf_eq_none hvalid.unknown, hvalid.proceeds, hvalid.skip, Piece.apply, pure,
        Except.pure]

theorem decodeFrom_pieces (hlawful : Lawful writer reader) {pieces : List (Piece M)} :
    ∀ {message bytes}, (∀ piece ∈ pieces, piece.Valid schema reader) →
      encodePieces writer pieces = .ok bytes →
      schema.decodeFrom reader message (bytes ++ rest) =
        schema.decodeFrom reader (pieces.foldl Piece.apply message) rest := by
  induction pieces with
  | nil =>
      intro message bytes _ hbytes
      obtain rfl := Except.ok.inj hbytes
      rfl
  | cons piece pieces ih =>
      intro message bytes hvalid hbytes
      obtain ⟨hhead, htail⟩ := List.forall_mem_cons.mp hvalid
      simp only [encodePieces, bind_eq_ok, pure, Except.pure, Except.ok.injEq] at hbytes
      obtain ⟨front, hfront, back, hback, rfl⟩ := hbytes
      rw [List.append_assoc, decodeFrom_of_proceed (turn_piece hlawful hhead hfront),
        ih htail hback, List.foldl_cons]

theorem exists_encodePieces (hlawful : Lawful writer reader) {pieces : List (Piece M)}
    (hvalid : ∀ piece ∈ pieces, piece.Valid schema reader) :
    ∃ bytes, encodePieces writer pieces = .ok bytes := by
  induction pieces with
  | nil => exact ⟨[], rfl⟩
  | cons piece pieces ih =>
      obtain ⟨hhead, htail⟩ := List.forall_mem_cons.mp hvalid
      obtain ⟨back, hback⟩ := ih htail
      cases piece with
      | known field value =>
          obtain ⟨front, hfront⟩ := hlawful.write hhead.2
          exact ⟨_, by simp [encodePieces, Piece.encode, hfront, hback, bind,
            Except.bind, pure, Except.pure]; rfl⟩
      | unknown tag body =>
          exact ⟨_, by simp [encodePieces, Piece.encode, hback, bind, Except.bind,
            pure, Except.pure]; rfl⟩

end Records

/-! ## Round trips -/

section RoundTrips

variable {schema : Schema M} {writer : BinaryWriter ε} {reader : BinaryReader ε}
variable {message left right : M} {bytes : Buffer}

/-- The fields of the message can be told from their bytes. -/
def Schema.Valid (schema : Schema M) (message : M) : Prop :=
  ∀ field ∈ schema.fields, field.kind.Valid (field.get message)

theorem Schema.valid_base : schema.Valid schema.base := by
  intro field hmem
  rw [schema.get_base field hmem]
  exact field.kind.valid_default

/-- The records of a message, in the order of the fields. -/
def present (message : M) : List (Field M) → List (Piece M)
  | [] => []
  | field :: fields =>
      if field.kind.isDefault (field.get message) then present message fields
      else .known field (field.get message) :: present message fields

theorem encodeFields_eq (message : M) (fields : List (Field M)) :
    encodeFields writer message fields =
      encodePieces writer (present message fields) := by
  induction fields with
  | nil => rfl
  | cons field fields ih =>
      rw [encodeFields, present, Field.encode, ih]
      split
      · cases encodePieces writer (present message fields) <;> rfl
      · rfl

theorem encode_eq (message : M) :
    schema.encode writer message =
      encodePieces writer (present message schema.fields) :=
  encodeFields_eq message schema.fields

theorem valid_present (hvalid : schema.Valid message) :
    ∀ piece ∈ present message schema.fields, piece.Valid schema reader := by
  have hfields : ∀ fields : List (Field M), fields ⊆ schema.fields →
      ∀ piece ∈ present message fields, piece.Valid schema reader := by
    intro fields hsub
    induction fields with
    | nil => nofun
    | cons field fields ih =>
        obtain ⟨hmem, hsub⟩ := List.cons_subset.mp hsub
        rw [present]
        split
        · exact ih hsub
        · exact List.forall_mem_cons.mpr ⟨⟨hmem, hvalid field hmem⟩, ih hsub⟩
  exact hfields schema.fields (List.Subset.refl _)

/-- What is there in the second message wins. -/
def Schema.merge (schema : Schema M) (left right : M) : M :=
  (present right schema.fields).foldl Piece.apply left

theorem get_foldl_of_apart {other : Field M} {fields : List (Field M)}
    (hother : ∀ field ∈ fields, ∀ message value,
      other.get (field.set value message) = other.get message) :
    ∀ left, other.get ((present right fields).foldl Piece.apply left) =
      other.get left := by
  induction fields with
  | nil => exact fun _ => rfl
  | cons field fields ih =>
      intro left
      obtain ⟨hhead, htail⟩ := List.forall_mem_cons.mp hother
      rw [present]
      split
      · exact ih htail left
      · rw [List.foldl_cons, ih htail, Piece.apply, hhead]

theorem get_foldl {fields : List (Field M)}
    (hset : ∀ field ∈ fields, ∀ value message,
      field.get (field.set value message) = value)
    (hapart : fields.Pairwise Apart) :
    ∀ left, ∀ field ∈ fields,
      field.get ((present right fields).foldl Piece.apply left) =
        if field.kind.isDefault (field.get right) then field.get left
        else field.get right := by
  induction fields with
  | nil => nofun
  | cons first fields ih =>
      obtain ⟨hhead, htail⟩ := List.pairwise_cons.mp hapart
      obtain ⟨hfirst, hset⟩ := List.forall_mem_cons.mp hset
      intro left field hmem
      have hothers : ∀ left, first.get ((present right fields).foldl Piece.apply left) =
          first.get left :=
        get_foldl_of_apart fun other hother message => (hhead other hother message).2
      obtain rfl | hmem := List.mem_cons.mp hmem
      · rw [present]
        split
        · exact hothers left
        · rw [List.foldl_cons, hothers, Piece.apply, hfirst]
      · rw [present]
        split
        · exact ih hset htail left field hmem
        · rw [List.foldl_cons, ih hset htail _ field hmem, Piece.apply,
            (hhead field hmem left).1]

theorem get_merge {field : Field M} (hmem : field ∈ schema.fields) :
    field.get (schema.merge left right) =
      if field.kind.isDefault (field.get right) then field.get left
      else field.get right :=
  get_foldl schema.get_set schema.apart left field hmem

theorem base_merge : schema.merge schema.base message = message := by
  apply schema.ext
  intro field hmem
  rw [get_merge hmem, schema.get_base field hmem]
  split
  · rename_i hdefault
    exact (Kind.isDefault_iff.mp hdefault).symm
  · rfl

theorem exists_encode (hlawful : Lawful writer reader) (hvalid : schema.Valid message) :
    ∃ bytes, schema.encode writer message = .ok bytes := by
  rw [encode_eq]
  exact exists_encodePieces hlawful (valid_present hvalid)

/-- An encoded message in front of other records is merged into what was read
before. -/
theorem decodeFrom_encode_append (hlawful : Lawful writer reader)
    (hvalid : schema.Valid right) (hencode : schema.encode writer right = .ok bytes)
    (rest : Buffer) :
    schema.decodeFrom reader left (bytes ++ rest) =
      schema.decodeFrom reader (schema.merge left right) rest := by
  rw [encode_eq] at hencode
  exact decodeFrom_pieces hlawful (valid_present hvalid) hencode

theorem decode_encode (hlawful : Lawful writer reader) (hvalid : schema.Valid message)
    (hencode : schema.encode writer message = .ok bytes) :
    schema.decode reader bytes = .ok message := by
  have hdecode : schema.decodeFrom reader schema.base (bytes ++ []) =
      schema.decodeFrom reader (schema.merge schema.base message) [] :=
    decodeFrom_encode_append hlawful hvalid hencode []
  rwa [List.append_nil, decodeFrom_nil, base_merge] at hdecode

end RoundTrips

/-! ## What was read -/

section Results

variable {schema : Schema M} {writer : BinaryWriter ε} {reader : BinaryReader ε}

/-- The values are such that a reader makes of `bound` bytes. -/
def Schema.Readable (schema : Schema M) (bound : ℕ) (message : M) : Prop :=
  ∀ field ∈ schema.fields, field.kind.Readable bound (field.get message)

/-- No text of the message starts with a byte order mark. -/
def Schema.Unmarked (schema : Schema M) (message : M) : Prop :=
  ∀ field ∈ schema.fields, field.kind.Unmarked (field.get message)

theorem get_set_of_ne {field other : Field M} (hfield : field ∈ schema.fields)
    (hother : other ∈ schema.fields) (hne : other ≠ field) (value : field.kind.Value)
    (message : M) : other.get (field.set value message) = other.get message :=
  (schema.apart.forall hfield hother hne.symm message).1 value

theorem readable_set {field : Field M} {value : field.kind.Value} {message : M}
    {bound : ℕ} (hmem : field ∈ schema.fields) (hvalue : field.kind.Readable bound value)
    (hmessage : schema.Readable bound message) :
    schema.Readable bound (field.set value message) := by
  intro other hother
  by_cases heq : other = field
  · subst heq
    rwa [schema.get_set _ hmem]
  · rw [get_set_of_ne hmem hother heq]
    exact hmessage other hother

/-- One record keeps the values readable. -/
theorem readable_of_turn (hlawful : Lawful writer reader) {message next : M}
    {bytes left : Buffer} {bound : ℕ} (hbound : bytes.length ≤ bound)
    (hmessage : schema.Readable bound message)
    (hturn : schema.turn reader message bytes = .ok (.proceed next left)) :
    schema.Readable bound next := by
  obtain ⟨tag, rest, htag, hcases⟩ := turn_cases hturn
  obtain ⟨field, value, _, hcase, hread, heq⟩ | ⟨-, -, heq⟩ | ⟨_, -, -, -, heq⟩ := hcases
  · obtain ⟨rfl, -⟩ := Turn.proceed.inj heq
    have hle : rest.length ≤ bound := (reader.uint32.length_le htag).trans hbound
    exact readable_set (caseOf_eq_some hcase).1 ((hlawful.readable hread).mono hle)
      hmessage
  · cases heq
  · obtain ⟨rfl, -⟩ := Turn.proceed.inj heq
    exact hmessage

theorem stop_eq {message last : M} {bytes : Buffer}
    (hturn : schema.turn reader message bytes = .ok (.stop last)) : last = message := by
  obtain ⟨tag, rest, -, hcases⟩ := turn_cases hturn
  obtain ⟨_, _, _, -, -, heq⟩ | ⟨-, -, heq⟩ | ⟨_, -, -, -, heq⟩ := hcases
  · cases heq
  · exact Turn.stop.inj heq
  · cases heq

theorem readable_of_decodeFrom (hlawful : Lawful writer reader) {message result : M}
    {bytes : Buffer} {bound : ℕ} (hbound : bytes.length ≤ bound)
    (hmessage : schema.Readable bound message)
    (hdecode : schema.decodeFrom reader message bytes = .ok result) :
    schema.Readable bound result := by
  induction message, bytes using Schema.decodeFrom.induct schema reader with
  | case1 message =>
      rw [decodeFrom_nil] at hdecode
      rwa [← Except.ok.inj hdecode]
  | case2 message bytes hne error hturn =>
      rw [Schema.decodeFrom, if_neg hne] at hdecode
      split at hdecode <;> simp_all
  | case3 message bytes hne last hturn =>
      obtain rfl := stop_eq hturn
      rw [Schema.decodeFrom, if_neg hne] at hdecode
      split at hdecode <;> simp_all
  | case4 message bytes hne next left hturn ih =>
      rw [decodeFrom_of_proceed hturn] at hdecode
      exact ih ((length_lt_of_turn hturn).le.trans hbound)
        (readable_of_turn hlawful hbound hmessage hturn) hdecode

/-- Whatever the bytes are, a message that was read from them can be told from
its own bytes, unless a text starts with a byte order mark. -/
theorem valid_of_decode (hlawful : Lawful writer reader) {message : M} {bytes : Buffer}
    (hbound : bytes.length < 2 ^ 29) (hdecode : schema.decode reader bytes = .ok message)
    (hunmarked : schema.Unmarked message) : schema.Valid message := by
  have hbase : schema.Readable bytes.length schema.base := by
    intro field hmem
    rw [schema.get_base field hmem]
    exact field.kind.readable_default _
  have hreadable := readable_of_decodeFrom hlawful (Nat.le_refl _) hbase hdecode
  exact fun field hmem => (hreadable field hmem).valid hbound (hunmarked field hmem)

/-! ## Which record counts -/

/-- The record sets the field. -/
def Piece.Sets (field : Field M) : Piece M → Prop
  | .known other _ => other = field
  | .unknown _ _ => False

theorem get_foldl_of_not_sets {field : Field M} (hfield : field ∈ schema.fields)
    {pieces : List (Piece M)} (hvalid : ∀ piece ∈ pieces, piece.Valid schema reader)
    (hpieces : ∀ piece ∈ pieces, ¬ piece.Sets field) :
    ∀ message, field.get (pieces.foldl Piece.apply message) = field.get message := by
  induction pieces with
  | nil => exact fun _ => rfl
  | cons piece pieces ih =>
      intro message
      obtain ⟨hhead, htail⟩ := List.forall_mem_cons.mp hvalid
      obtain ⟨hfirst, hothers⟩ := List.forall_mem_cons.mp hpieces
      rw [List.foldl_cons, ih htail hothers]
      cases piece with
      | known other value =>
          exact get_set_of_ne hhead.1 hfield (fun heq => hfirst heq.symm) value message
      | unknown tag body => rfl

/-- The last record of a field decides its value. -/
theorem get_foldl_last {field : Field M} (hfield : field ∈ schema.fields)
    {front back : List (Piece M)} {value : field.kind.Value}
    (hvalid : ∀ piece ∈ back, piece.Valid schema reader)
    (hback : ∀ piece ∈ back, ¬ piece.Sets field) (message : M) :
    field.get ((front ++ .known field value :: back).foldl Piece.apply message) =
      value := by
  rw [List.foldl_append, List.foldl_cons, get_foldl_of_not_sets hfield hvalid hback]
  exact schema.get_set field hfield value _

end Results

end Wire
