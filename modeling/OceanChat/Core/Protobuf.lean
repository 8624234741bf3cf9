import OceanChat.Core.Decimal
import OceanChat.Core.Wire

/-!
# The protobuf wire format

Integers are written in groups of seven bits, the least significant group
first, and strings with their length in front.  This reader and writer obey the
laws of the codec for every value and every buffer.
-/

namespace Protobuf

open ByteBuffer (Buffer)
open Checks (bind_eq_ok)
open Wire (BinaryReader BinaryWriter Kind Lawful Parser decimal)

inductive WireError
  | prematureEof
  | invalidVarint
  | invalidValue
  | illegalTag (tag : ℕ)
  | invalidEndGroup
  | cantSkip (wireType : ℕ)
  deriving DecidableEq

/-! ## Variable-length integers -/

/-- At most `fuel` groups. -/
def writeVarint : ℕ → ℕ → Buffer
  | 0, _ => []
  | fuel + 1, value =>
      if value < 128 then [UInt8.ofNat value]
      else UInt8.ofNat (value % 128 + 128) :: writeVarint fuel (value / 128)

def readVarint : ℕ → Buffer → Except WireError (ℕ × Buffer)
  | 0, _ => .error .invalidVarint
  | _ + 1, [] => .error .prematureEof
  | fuel + 1, byte :: rest =>
      if byte.toNat < 128 then .ok (byte.toNat, rest)
      else do
        let (high, rest) ← readVarint fuel rest
        return (byte.toNat % 128 + 128 * high, rest)

/-- The groups of a value that is skipped are not counted. -/
def skipVarint : Buffer → Except WireError Buffer
  | [] => .error .prematureEof
  | byte :: rest => if byte.toNat < 128 then .ok rest else skipVarint rest

theorem length_writeVarint_le (fuel value : ℕ) : (writeVarint fuel value).length ≤ fuel := by
  induction fuel generalizing value with
  | zero => exact Nat.le_refl 0
  | succ fuel ih =>
      rw [writeVarint]
      split
      · exact Nat.le_add_left _ _
      · exact Nat.succ_le_succ (ih (value / 128))

theorem toNat_group {value : ℕ} (hlt : value < 256) : (UInt8.ofNat value).toNat = value := by
  rw [UInt8.toNat_ofNat', Nat.mod_eq_of_lt hlt]

/-- The last group alone, or a group with the continuation bit in front of the
groups of the rest. -/
theorem writeVarint_cases {fuel value : ℕ} (hvalue : value < 128 ^ fuel)
    (hfuel : 0 < fuel) :
    (∃ byte, writeVarint fuel value = [byte] ∧ byte.toNat = value ∧ value < 128) ∨
      ∃ byte less, fuel = less + 1 ∧ 0 < less ∧ value / 128 < 128 ^ less ∧
        writeVarint fuel value = byte :: writeVarint less (value / 128) ∧
        byte.toNat = value % 128 + 128 := by
  obtain ⟨less, rfl⟩ := Nat.exists_eq_succ_of_ne_zero hfuel.ne'
  by_cases hsmall : value < 128
  · exact .inl ⟨_, by rw [writeVarint, if_pos hsmall], toNat_group (by omega), hsmall⟩
  · have hhigh : value / 128 < 128 ^ less := by
      rw [Nat.div_lt_iff_lt_mul (by decide), ← pow_succ]
      exact hvalue
    have hless : 0 < less := by
      by_contra hzero
      obtain rfl : less = 0 := by omega
      omega
    exact .inr ⟨_, less, rfl, hless, hhigh, by rw [writeVarint, if_neg hsmall],
      toNat_group (by omega)⟩

/-- The reader may allow for more groups than the writer. -/
theorem readVarint_writeVarint (more : ℕ) (rest : Buffer) :
    ∀ {fuel value : ℕ}, value < 128 ^ fuel → 0 < fuel →
      readVarint (more + fuel) (writeVarint fuel value ++ rest) = .ok (value, rest) := by
  intro fuel
  induction fuel with
  | zero => exact fun _ hfuel => absurd hfuel (Nat.lt_irrefl 0)
  | succ fuel ih =>
      intro value hvalue hfuel
      obtain ⟨byte, hwrite, hbyte, hsmall⟩ |
          ⟨byte, less, hless, hpos, hhigh, hwrite, hbyte⟩ :=
        writeVarint_cases hvalue hfuel
      · rw [hwrite, List.singleton_append, Nat.add_succ, readVarint, if_pos (by omega),
          hbyte]
      · obtain rfl := Nat.succ.inj hless
        rw [hwrite, List.cons_append, Nat.add_succ, readVarint, if_neg (by omega),
          ih hhigh hpos, hbyte]
        simp only [bind, Except.bind, pure, Except.pure, Except.ok.injEq, Prod.mk.injEq,
          and_true]
        omega

theorem skipVarint_writeVarint (rest : Buffer) :
    ∀ {fuel value : ℕ}, value < 128 ^ fuel → 0 < fuel →
      skipVarint (writeVarint fuel value ++ rest) = .ok rest := by
  intro fuel
  induction fuel with
  | zero => exact fun _ hfuel => absurd hfuel (Nat.lt_irrefl 0)
  | succ fuel ih =>
      intro value hvalue hfuel
      obtain ⟨byte, hwrite, hbyte, hsmall⟩ |
          ⟨byte, less, hless, hpos, hhigh, hwrite, hbyte⟩ :=
        writeVarint_cases hvalue hfuel
      · rw [hwrite, List.singleton_append, skipVarint, if_pos (by omega)]
      · obtain rfl := Nat.succ.inj hless
        rw [hwrite, List.cons_append, skipVarint, if_neg (by omega), ih hhigh hpos]

theorem length_lt_of_readVarint :
    ∀ {fuel : ℕ} {bytes rest : Buffer} {value : ℕ},
      readVarint fuel bytes = .ok (value, rest) → rest.length < bytes.length := by
  intro fuel
  induction fuel with
  | zero => nofun
  | succ fuel ih =>
      intro bytes rest value hread
      cases bytes with
      | nil => cases hread
      | cons byte bytes =>
          rw [readVarint] at hread
          split at hread
          · obtain ⟨-, rfl⟩ := Prod.mk.inj (Except.ok.inj hread)
            exact Nat.lt_succ_self _
          · simp only [bind_eq_ok, Prod.exists, pure, Except.pure, Except.ok.injEq,
              Prod.mk.injEq] at hread
            obtain ⟨_, _, hread, -, rfl⟩ := hread
            exact Nat.lt_succ_of_lt (ih hread)

theorem length_le_of_skipVarint :
    ∀ {bytes rest : Buffer}, skipVarint bytes = .ok rest → rest.length ≤ bytes.length := by
  intro bytes
  induction bytes with
  | nil => nofun
  | cons byte bytes ih =>
      intro rest hskip
      rw [skipVarint] at hskip
      split at hskip
      · obtain rfl := Except.ok.inj hskip
        exact Nat.le_succ _
      · exact Nat.le_succ_of_le (ih hskip)

/-! ## The reader -/

def varint : Parser WireError ℕ where
  run := readVarint 10
  length_le hread := (length_lt_of_readVarint hread).le

/-- The first bytes of a buffer. -/
def bytes (count : ℕ) : Parser WireError Buffer where
  run buffer :=
    if buffer.length < count then .error .prematureEof
    else .ok (buffer.take count, buffer.drop count)
  length_le := by
    intro buffer value rest hrun
    split at hrun
    · cases hrun
    · obtain ⟨-, rfl⟩ := Prod.mk.inj (Except.ok.inj hrun)
      simp

/-- A length and as many bytes. -/
def delimited : Parser WireError Buffer where
  run buffer := do
    let (count, rest) ← (varint.map (· % 2 ^ 32)).run buffer
    (bytes count).run rest
  length_le := by
    intro buffer value rest hrun
    simp only [bind_eq_ok, Prod.exists] at hrun
    obtain ⟨count, left, hcount, hbytes⟩ := hrun
    exact ((bytes count).length_le hbytes).trans ((varint.map _).length_le hcount)

/-- A value that is no group. -/
def skipScalar (wireType : ℕ) (buffer : Buffer) : Except WireError Buffer :=
  match wireType with
  | 0 => skipVarint buffer
  | 1 => do
      let (_, rest) ← (bytes 8).run buffer
      return rest
  | 2 => do
      let (_, rest) ← delimited.run buffer
      return rest
  | 5 => do
      let (_, rest) ← (bytes 4).run buffer
      return rest
  | wireType => .error (.cantSkip wireType)

/-- The values of a group up to its end, which has to have the number of its
start where that is known. -/
def skipGroup : ℕ → Option ℕ → Buffer → Except WireError Buffer
  | 0, _, _ => .error .prematureEof
  | fuel + 1, number, buffer => do
      let (tag, rest) ← (varint.map (· % 2 ^ 32)).run buffer
      if tag / 8 = 0 ∨ 5 < tag % 8 then .error (.illegalTag tag)
      else if tag % 8 = 4 then
        if number = none ∨ number = some (tag / 8) then return rest
        else .error .invalidEndGroup
      else if tag % 8 = 3 then do
        let rest ← skipGroup fuel (some (tag / 8)) rest
        skipGroup fuel number rest
      else do
        let rest ← skipScalar (tag % 8) rest
        skipGroup fuel number rest

theorem length_le_of_skipScalar {wireType : ℕ} {buffer rest : Buffer}
    (hskip : skipScalar wireType buffer = .ok rest) : rest.length ≤ buffer.length := by
  unfold skipScalar at hskip
  split at hskip
  · exact length_le_of_skipVarint hskip
  all_goals try simp only [bind_eq_ok, Prod.exists, pure, Except.pure,
    Except.ok.injEq] at hskip
  · obtain ⟨_, _, hrun, rfl⟩ := hskip
    exact (bytes 8).length_le hrun
  · obtain ⟨_, _, hrun, rfl⟩ := hskip
    exact delimited.length_le hrun
  · obtain ⟨_, _, hrun, rfl⟩ := hskip
    exact (bytes 4).length_le hrun
  · cases hskip

theorem length_le_of_skipGroup :
    ∀ {fuel : ℕ} {number : Option ℕ} {buffer rest : Buffer},
      skipGroup fuel number buffer = .ok rest → rest.length ≤ buffer.length := by
  intro fuel
  induction fuel with
  | zero => nofun
  | succ fuel ih =>
      intro number buffer rest hskip
      simp only [skipGroup, bind_eq_ok, Prod.exists] at hskip
      obtain ⟨tag, left, htag, hskip⟩ := hskip
      have htag := (varint.map _).length_le htag
      split_ifs at hskip
      · obtain rfl := Except.ok.inj hskip
        exact htag
      · obtain ⟨inner, hinner, hskip⟩ := bind_eq_ok.mp hskip
        have hinner := ih hinner
        have hskip := ih hskip
        omega
      · obtain ⟨inner, hinner, hskip⟩ := bind_eq_ok.mp hskip
        have hinner := length_le_of_skipScalar hinner
        have hskip := ih hskip
        omega

/-- A group has fewer values than bytes. -/
def skipValue (wireType : ℕ) (buffer : Buffer) : Except WireError Buffer :=
  if wireType = 3 then skipGroup (buffer.length + 1) none buffer
  else skipScalar wireType buffer

theorem length_le_of_skipValue {wireType : ℕ} {buffer rest : Buffer}
    (hskip : skipValue wireType buffer = .ok rest) : rest.length ≤ buffer.length := by
  rw [skipValue] at hskip
  split at hskip
  · exact length_le_of_skipGroup hskip
  · exact length_le_of_skipScalar hskip

def skip (wireType : ℕ) : Parser WireError Unit where
  run buffer := do
    let rest ← skipValue wireType buffer
    return ((), rest)
  length_le := by
    intro buffer value rest hrun
    simp only [bind_eq_ok, pure, Except.pure, Except.ok.injEq, Prod.mk.injEq] at hrun
    obtain ⟨_, hskip, -, rfl⟩ := hrun
    exact length_le_of_skipValue hskip

/-- An integer in two's complement. -/
def signed (width : ℕ) : Parser WireError ℤ :=
  varint.map fun value => Int.bmod (value : ℕ) (2 ^ width)

def unsigned : Parser WireError ℤ :=
  varint.map fun value => ((value % 2 ^ 64 : ℕ) : ℤ)

def reader : BinaryReader WireError where
  uint32 := varint.map (· % 2 ^ 32)
  string := delimited.map Utf8.decode
  int32 := signed 32
  int64 := signed 64
  uint64 := unsigned
  bool := varint.map fun value => decide (value % 2 ^ 64 ≠ 0)
  skip := skip
  uint32_lt := by
    intro buffer value rest hrun
    obtain ⟨_, hrun, -⟩ := Parser.map_eq_ok.mp hrun
    exact length_lt_of_readVarint hrun

/-! ## The writer -/

/-- `BigInt(text)` for a text of decimal digits. -/
def parseDigits (text : Text) : Option ℕ :=
  Decimal.parse (String.ofList (text.map fun unit => Char.ofNat unit.toNat))

def parseInteger : Text → Option ℤ
  | [] => none
  | sign :: digits =>
      if sign = Text.unit '-' then (parseDigits digits).map fun value => -(value : ℤ)
      else (parseDigits (sign :: digits)).map Int.ofNat

/-- An integer in two's complement, of a text within the bounds. -/
def writeInteger (lower upper : ℤ) (text : Text) : Except WireError Buffer :=
  match parseInteger text with
  | none => .error .invalidValue
  | some value =>
      if lower ≤ value ∧ value < upper then
        .ok (writeVarint 10 (value % 2 ^ 64).toNat)
      else .error .invalidValue

def writer : BinaryWriter WireError where
  uint32 value := writeVarint 5 value
  string text :=
    let chunk := Utf8.encode text
    if chunk.length < 2 ^ 32 then .ok (writeVarint 5 chunk.length ++ chunk)
    else .error .invalidValue
  int32 value :=
    if -2 ^ 31 ≤ value ∧ value < 2 ^ 31 then
      .ok (writeVarint 10 (value % 2 ^ 64).toNat)
    else .error .invalidValue
  int64 := writeInteger (-2 ^ 63) (2 ^ 63)
  uint64 := writeInteger 0 (2 ^ 64)
  bool value := .ok [if value then 1 else 0]

theorem ofNat_toNat_unit {char : Char} (hdigit : char.isDigit = true) :
    Char.ofNat (Text.unit char).toNat = char := by
  obtain ⟨digit, hlt, rfl⟩ := Decimal.exists_digitChar hdigit
  interval_cases digit <;> rfl

theorem parseDigits_repr (value : ℕ) :
    parseDigits (Text.ofAscii value.repr.toList) = some value := by
  have hchars : (Text.ofAscii value.repr.toList).map
      (fun unit => Char.ofNat unit.toNat) = value.repr.toList := by
    rw [Text.ofAscii, List.map_map]
    conv_rhs => rw [← List.map_id value.repr.toList]
    apply List.map_congr_left
    intro char hmem
    exact ofNat_toNat_unit (Decimal.isDigit_of_mem_repr char hmem)
  rw [parseDigits, hchars, String.ofList_toList, Decimal.parse_repr]

theorem unit_ne_minus {char : Char} (hdigit : char.isDigit = true) :
    Text.unit char ≠ Text.unit '-' := by
  obtain ⟨digit, hlt, rfl⟩ := Decimal.exists_digitChar hdigit
  interval_cases digit <;> decide

theorem parseInteger_decimal (value : ℤ) : parseInteger (decimal value) = some value := by
  cases value with
  | ofNat value =>
      have hdecimal : decimal (Int.ofNat value) = Text.ofAscii value.repr.toList := rfl
      cases hchars : value.repr.toList with
      | nil =>
          have hparse := parseDigits_repr value
          rw [hchars] at hparse
          cases hparse
      | cons char chars =>
          have hdigit := Decimal.isDigit_of_mem_repr char (hchars ▸ List.mem_cons_self)
          have hparse := parseDigits_repr value
          rw [hchars, Text.ofAscii, List.map_cons] at hparse
          rw [hdecimal, hchars, Text.ofAscii, List.map_cons, parseInteger,
            if_neg (unit_ne_minus hdigit), hparse]
          rfl
  | negSucc value =>
      have hdecimal : decimal (Int.negSucc value) =
          Text.unit '-' :: Text.ofAscii (value + 1).repr.toList := by
        have hstring : toString (Int.negSucc value) = "-" ++ (value + 1).repr := rfl
        rw [decimal, hstring, String.toList_append]
        rfl
      rw [hdecimal, parseInteger, if_pos rfl, parseDigits_repr]
      rfl

theorem run_varint {fuel value : ℕ} (hvalue : value < 128 ^ fuel) (hfuel : 0 < fuel)
    (hlimit : fuel ≤ 10) (rest : Buffer) :
    varint.run (writeVarint fuel value ++ rest) = .ok (value, rest) := by
  have hread := readVarint_writeVarint (10 - fuel) rest hvalue hfuel
  rwa [Nat.sub_add_cancel hlimit] at hread

/-- A tag or a length. -/
theorem run_varint_uint32 {value : ℕ} (hlt : value < 2 ^ 32) (rest : Buffer) :
    (varint.map (· % 2 ^ 32)).run (writeVarint 5 value ++ rest) = .ok (value, rest) :=
  Parser.map_eq_ok.mpr
    ⟨value, run_varint (by omega) (by decide) (by decide) rest, Nat.mod_eq_of_lt hlt⟩

theorem run_varint_integer (value : ℤ) (rest : Buffer) :
    varint.run (writeVarint 10 (value % 2 ^ 64).toNat ++ rest) =
      .ok ((value % 2 ^ 64).toNat, rest) := by
  have hlt : (value % 2 ^ 64).toNat < 128 ^ 10 := by omega
  exact run_varint hlt (by decide) (by decide) rest

theorem skipValue_integer (value : ℤ) (rest : Buffer) :
    skipValue 0 (writeVarint 10 (value % 2 ^ 64).toNat ++ rest) = .ok rest := by
  have hlt : (value % 2 ^ 64).toNat < 128 ^ 10 := by omega
  exact skipVarint_writeVarint rest hlt (by decide)

theorem run_signed {value : ℤ} {width : ℕ} (hwidth : width = 32 ∨ width = 64)
    (hlower : -2 ^ (width - 1) ≤ value) (hupper : value < 2 ^ (width - 1))
    (rest : Buffer) :
    (signed width).run (writeVarint 10 (value % 2 ^ 64).toNat ++ rest) =
      .ok (value, rest) := by
  refine Parser.map_eq_ok.mpr ⟨_, run_varint_integer value rest, ?_⟩
  obtain rfl | rfl := hwidth <;> simp only [Int.bmod] <;> omega

theorem run_unsigned {value : ℤ} (hlower : 0 ≤ value) (hupper : value < 2 ^ 64)
    (rest : Buffer) :
    unsigned.run (writeVarint 10 (value % 2 ^ 64).toNat ++ rest) = .ok (value, rest) := by
  refine Parser.map_eq_ok.mpr ⟨_, run_varint_integer value rest, ?_⟩
  omega

theorem signed_bounds {buffer rest : Buffer} {value : ℤ} {width : ℕ}
    (hwidth : width = 32 ∨ width = 64)
    (hrun : (signed width).run buffer = .ok (value, rest)) :
    -2 ^ (width - 1) ≤ value ∧ value < 2 ^ (width - 1) := by
  obtain ⟨number, -, rfl⟩ := Parser.map_eq_ok.mp hrun
  obtain rfl | rfl := hwidth <;> simp only [Int.bmod] <;> omega

theorem unsigned_bounds {buffer rest : Buffer} {value : ℤ}
    (hrun : unsigned.run buffer = .ok (value, rest)) : 0 ≤ value ∧ value < 2 ^ 64 := by
  obtain ⟨number, -, rfl⟩ := Parser.map_eq_ok.mp hrun
  omega

/-- The bytes of a value that can be told from its bytes. -/
def bytesOf : (kind : Kind) → kind.Value → Buffer
  | .string, text => writeVarint 5 (Utf8.encode text).length ++ Utf8.encode text
  | .int32, value => writeVarint 10 (value % 2 ^ 64).toNat
  | .int64, text => writeVarint 10 (((parseInteger text).getD 0) % 2 ^ 64).toNat
  | .uint64, text => writeVarint 10 (((parseInteger text).getD 0) % 2 ^ 64).toNat
  | .bool, value => [if value then 1 else 0]

theorem length_encode_lt {text : Text} (hlength : text.length < 2 ^ 29) :
    (Utf8.encode text).length < 2 ^ 32 := by
  have hbound := Utf8.length_encode_le text
  omega

theorem write_string_eq {text : Text} (hlength : text.length < 2 ^ 29) :
    writer.string text =
      .ok (writeVarint 5 (Utf8.encode text).length ++ Utf8.encode text) :=
  if_pos (length_encode_lt hlength)

theorem writeInteger_decimal {lower upper value : ℤ} (hlower : lower ≤ value)
    (hupper : value < upper) :
    writeInteger lower upper (decimal value) =
      .ok (writeVarint 10 (((parseInteger (decimal value)).getD 0) % 2 ^ 64).toNat) := by
  rw [writeInteger, parseInteger_decimal]
  exact if_pos ⟨hlower, hupper⟩

theorem write_eq {kind : Kind} {value : kind.Value} (hvalid : kind.Valid value) :
    kind.write writer value = .ok (bytesOf kind value) := by
  cases kind with
  | string => exact write_string_eq hvalid.2
  | int32 => exact if_pos hvalid
  | int64 =>
      obtain ⟨number, hlower, hupper, rfl⟩ := hvalid
      exact writeInteger_decimal hlower hupper
  | uint64 =>
      obtain ⟨number, hlower, hupper, rfl⟩ := hvalid
      exact writeInteger_decimal hlower hupper
  | bool => rfl

theorem run_delimited {chunk : Buffer} (hlength : chunk.length < 2 ^ 32)
    (rest : Buffer) :
    delimited.run (writeVarint 5 chunk.length ++ chunk ++ rest) = .ok (chunk, rest) := by
  have hcount := run_varint_uint32 hlength (chunk ++ rest)
  have hbytes : (bytes chunk.length).run (chunk ++ rest) = .ok (chunk, rest) := by
    simp [bytes]
  rw [List.append_assoc]
  simp only [delimited, hcount, bind, Except.bind, hbytes]

theorem read_bytesOf {kind : Kind} {value : kind.Value} (hvalid : kind.Valid value)
    (rest : Buffer) :
    (kind.read reader).run (bytesOf kind value ++ rest) = .ok (value, rest) := by
  cases kind with
  | string =>
      exact Parser.map_eq_ok.mpr ⟨_, run_delimited (length_encode_lt hvalid.2) rest,
        Utf8.decode_encode hvalid.1⟩
  | int32 => exact run_signed (.inl rfl) hvalid.1 hvalid.2 rest
  | int64 =>
      obtain ⟨number, hlower, hupper, rfl⟩ := hvalid
      rw [bytesOf, parseInteger_decimal]
      exact Parser.map_eq_ok.mpr ⟨number, run_signed (.inr rfl) hlower hupper rest, rfl⟩
  | uint64 =>
      obtain ⟨number, hlower, hupper, rfl⟩ := hvalid
      rw [bytesOf, parseInteger_decimal]
      exact Parser.map_eq_ok.mpr ⟨number, run_unsigned hlower hupper rest, rfl⟩
  | bool => cases value <;> rfl

theorem skip_bytesOf {kind : Kind} {value : kind.Value} (hvalid : kind.Valid value)
    (rest : Buffer) :
    (skip kind.wireType).run (bytesOf kind value ++ rest) = .ok ((), rest) := by
  have hskip : skipValue kind.wireType (bytesOf kind value ++ rest) = .ok rest := by
    cases kind with
    | string =>
        have hrun := run_delimited (length_encode_lt hvalid.2) rest
        rw [skipValue, if_neg (by decide)]
        simp only [skipScalar, Kind.wireType, bytesOf, hrun, bind, Except.bind, pure,
          Except.pure]
    | int32 => exact skipValue_integer value rest
    | int64 => exact skipValue_integer _ rest
    | uint64 => exact skipValue_integer _ rest
    | bool => cases value <;> rfl
  simp [skip, hskip, bind, Except.bind, pure, Except.pure]

theorem length_of_delimited {buffer chunk rest : Buffer}
    (hrun : delimited.run buffer = .ok (chunk, rest)) : chunk.length ≤ buffer.length := by
  simp only [delimited, bind_eq_ok, Prod.exists, bytes] at hrun
  obtain ⟨count, left, hcount, hbytes⟩ := hrun
  have hleft := (varint.map _).length_le hcount
  split at hbytes
  · cases hbytes
  · obtain ⟨rfl, -⟩ := Prod.mk.inj (Except.ok.inj hbytes)
    simp only [List.length_take]
    omega

theorem readable_of_read {kind : Kind} {buffer rest : Buffer} {value : kind.Value}
    (hread : (kind.read reader).run buffer = .ok (value, rest)) :
    kind.Readable buffer.length value := by
  cases kind with
  | string =>
      obtain ⟨chunk, hchunk, rfl⟩ := Parser.map_eq_ok.mp hread
      exact ⟨Utf8.wellFormed_decode chunk,
        (Utf8.length_decode_le chunk).trans (length_of_delimited hchunk)⟩
  | int32 => exact signed_bounds (.inl rfl) hread
  | int64 =>
      obtain ⟨number, hnumber, rfl⟩ := Parser.map_eq_ok.mp hread
      obtain ⟨hlower, hupper⟩ := signed_bounds (.inr rfl) hnumber
      exact ⟨number, hlower, hupper, rfl⟩
  | uint64 =>
      obtain ⟨number, hnumber, rfl⟩ := Parser.map_eq_ok.mp hread
      obtain ⟨hlower, hupper⟩ := unsigned_bounds hnumber
      exact ⟨number, hlower, hupper, rfl⟩
  | bool => trivial

/-- The writer and the reader obey the laws of the codec. -/
theorem lawful : Lawful writer reader where
  uint32 := run_varint_uint32
  write hvalid := ⟨_, write_eq hvalid⟩
  read := by
    intro kind value bytes hvalid hwrite rest
    rw [write_eq hvalid] at hwrite
    obtain rfl := Except.ok.inj hwrite
    exact read_bytesOf hvalid rest
  skip := by
    intro kind value bytes hvalid hwrite rest
    rw [write_eq hvalid] at hwrite
    obtain rfl := Except.ok.inj hwrite
    exact skip_bytesOf hvalid rest
  readable := readable_of_read

end Protobuf
