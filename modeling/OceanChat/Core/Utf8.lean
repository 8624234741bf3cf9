import OceanChat.Core.ByteBuffer
import OceanChat.Core.Json

/-!
# UTF-16 texts as UTF-8 bytes

A text of UTF-16 code units is turned into scalar values, and those into UTF-8.
A lone surrogate and an ill-formed byte sequence become the replacement
character, and a byte order mark at the front is dropped by the decoder.  So
exactly the well-formed texts without a leading byte order mark are kept.
-/

namespace Utf8

open ByteBuffer (Buffer)
open Json (isHigh isLow)

/-! ## Scalar values of a text -/

def replacement : Char := '\uFFFD'

/-- The code units of a scalar value. -/
def units (char : Char) : Text :=
  if char.toNat < 0x10000 then [UInt16.ofNat char.toNat]
  else
    [UInt16.ofNat (0xD800 + (char.toNat - 0x10000) / 1024),
      UInt16.ofNat (0xDC00 + (char.toNat - 0x10000) % 1024)]

def ofChars (chars : List Char) : Text := chars.flatMap units

/-- A code unit that is no part of a pair. -/
def single (unit : UInt16) : Char :=
  if isHigh unit || isLow unit then replacement else Char.ofNat unit.toNat

def pair (high low : UInt16) : Char :=
  Char.ofNat (0x10000 + (high.toNat - 0xD800) * 1024 + (low.toNat - 0xDC00))

def toChars : Text → List Char
  | [] => []
  | [unit] => [single unit]
  | high :: low :: rest =>
      if isHigh high && isLow low then pair high low :: toChars rest
      else single high :: toChars (low :: rest)

/-- Every surrogate of the text is part of a pair. -/
def WellFormed (text : Text) : Prop := ∃ chars, ofChars chars = text

theorem toNat_lt_of_valid (char : Char) :
    char.toNat < 0xD800 ∨ 0xDFFF < char.toNat ∧ char.toNat < 0x110000 :=
  char.valid

theorem toChars_cons_of_not_isHigh {unit : UInt16} (hhigh : isHigh unit = false)
    (rest : Text) : toChars (unit :: rest) = single unit :: toChars rest := by
  cases rest with
  | nil => rfl
  | cons low rest => simp [toChars, hhigh]

/-- A scalar value is found again in front of any text. -/
theorem toChars_units_append (char : Char) (rest : Text) :
    toChars (units char ++ rest) = char :: toChars rest := by
  have hvalid := toNat_lt_of_valid char
  by_cases hsmall : char.toNat < 0x10000
  · have hunit : (UInt16.ofNat char.toNat).toNat = char.toNat := by
      rw [UInt16.toNat_ofNat']
      omega
    have hhigh : isHigh (UInt16.ofNat char.toNat) = false := by
      simp only [isHigh, hunit, Bool.and_eq_false_iff, decide_eq_false_iff_not]
      omega
    have hlow : isLow (UInt16.ofNat char.toNat) = false := by
      simp only [isLow, hunit, Bool.and_eq_false_iff, decide_eq_false_iff_not]
      omega
    rw [units, if_pos hsmall, List.singleton_append,
      toChars_cons_of_not_isHigh hhigh, single, hhigh, hlow, hunit]
    simp
  · obtain hlow | ⟨-, hbound⟩ := hvalid
    · omega
    have hfirst : (UInt16.ofNat (0xD800 + (char.toNat - 0x10000) / 1024)).toNat =
        0xD800 + (char.toNat - 0x10000) / 1024 := by
      rw [UInt16.toNat_ofNat']
      omega
    have hsecond : (UInt16.ofNat (0xDC00 + (char.toNat - 0x10000) % 1024)).toNat =
        0xDC00 + (char.toNat - 0x10000) % 1024 := by
      rw [UInt16.toNat_ofNat']
      omega
    have hhigh : isHigh (UInt16.ofNat (0xD800 + (char.toNat - 0x10000) / 1024)) =
        true := by
      simp only [isHigh, hfirst, Bool.and_eq_true, decide_eq_true_eq]
      omega
    have hlow : isLow (UInt16.ofNat (0xDC00 + (char.toNat - 0x10000) % 1024)) =
        true := by
      simp only [isLow, hsecond, Bool.and_eq_true, decide_eq_true_eq]
      omega
    have hvalue : 0x10000 +
        (0xD800 + (char.toNat - 0x10000) / 1024 - 0xD800) * 1024 +
        (0xDC00 + (char.toNat - 0x10000) % 1024 - 0xDC00) = char.toNat := by
      omega
    rw [units, if_neg hsmall, List.cons_append, List.singleton_append, toChars,
      hhigh, hlow, pair, hfirst, hsecond, hvalue]
    simp

theorem toChars_ofChars (chars : List Char) : toChars (ofChars chars) = chars := by
  induction chars with
  | nil => rfl
  | cons char chars ih =>
      rw [ofChars, List.flatMap_cons, toChars_units_append, ← ofChars, ih]

theorem ofChars_toChars {text : Text} (hwell : WellFormed text) :
    ofChars (toChars text) = text := by
  obtain ⟨chars, rfl⟩ := hwell
  rw [toChars_ofChars]

theorem wellFormed_ofChars (chars : List Char) : WellFormed (ofChars chars) :=
  ⟨chars, rfl⟩

theorem ofAscii_eq_ofChars {chars : List Char} (hsmall : ∀ char ∈ chars, char.toNat < 0x10000) :
    Text.ofAscii chars = ofChars chars := by
  rw [Text.ofAscii, ofChars, List.map_eq_flatMap]
  exact List.flatMap_congr fun char hmem => (if_pos (hsmall char hmem)).symm

theorem wellFormed_ofAscii {chars : List Char}
    (hsmall : ∀ char ∈ chars, char.toNat < 0x10000) : WellFormed (Text.ofAscii chars) :=
  ⟨chars, (ofAscii_eq_ofChars hsmall).symm⟩

/-! ## Bytes of scalar values -/

/-- How many continuation bytes a leading byte asks for, and the range of the
first of them. -/
def continuations (lead : ℕ) : ℕ × ℕ × ℕ :=
  if 0xC2 ≤ lead ∧ lead ≤ 0xDF then (1, 0x80, 0xBF)
  else if lead = 0xE0 then (2, 0xA0, 0xBF)
  else if lead = 0xED then (2, 0x80, 0x9F)
  else if 0xE1 ≤ lead ∧ lead ≤ 0xEF then (2, 0x80, 0xBF)
  else if lead = 0xF0 then (3, 0x90, 0xBF)
  else if 0xF1 ≤ lead ∧ lead ≤ 0xF3 then (3, 0x80, 0xBF)
  else if lead = 0xF4 then (3, 0x80, 0x8F)
  else (0, 0, 0)

def accepted : ℕ → ℕ → ℕ → Buffer → ℕ
  | 0, _, _, _ => 0
  | _ + 1, _, _, [] => 0
  | count + 1, lower, upper, byte :: rest =>
      if lower ≤ byte.toNat ∧ byte.toNat ≤ upper then
        accepted count 0x80 0xBF rest + 1
      else 0

/-- The length of the longest start of a character, where there is no whole
one; it is replaced as one. -/
def subpart : Buffer → ℕ
  | [] => 0
  | lead :: rest =>
      let (count, lower, upper) := continuations lead.toNat
      accepted count lower upper rest + 1

def decodeChars : ℕ → Buffer → List Char
  | 0, _ => []
  | _ + 1, [] => []
  | fuel + 1, byte :: rest =>
      match (byte :: rest).toByteArray.utf8DecodeChar? 0 with
      | some char => char :: decodeChars fuel ((byte :: rest).drop char.utf8Size)
      | none =>
          replacement :: decodeChars fuel ((byte :: rest).drop (subpart (byte :: rest)))

def encodeChars (chars : List Char) : Buffer := chars.flatMap String.utf8EncodeChar

theorem decodeChars_succ_append (fuel : ℕ) (char : Char) (rest : Buffer) :
    decodeChars (fuel + 1) (String.utf8EncodeChar char ++ rest) =
      char :: decodeChars fuel rest := by
  have hdecode : (String.utf8EncodeChar char ++ rest).toByteArray.utf8DecodeChar? 0 =
      some char := by
    rw [List.toByteArray_append, ByteArray.utf8DecodeChar?_utf8EncodeChar_append]
  have hdrop : (String.utf8EncodeChar char ++ rest).drop char.utf8Size = rest := by
    rw [← String.length_utf8EncodeChar, List.drop_left]
  cases hbytes : String.utf8EncodeChar char ++ rest with
  | nil =>
      rw [hbytes] at hdecode
      cases hdecode
  | cons byte tail =>
      rw [hbytes] at hdecode hdrop
      simp only [decodeChars, hdecode, hdrop]

theorem decodeChars_encodeChars {chars : List Char} :
    ∀ {fuel : ℕ}, chars.length ≤ fuel →
      decodeChars fuel (encodeChars chars) = chars := by
  induction chars with
  | nil =>
      rintro (_ | fuel) - <;> rfl
  | cons char chars ih =>
      intro fuel hfuel
      cases fuel with
      | zero => cases hfuel
      | succ fuel =>
          rw [encodeChars, List.flatMap_cons, decodeChars_succ_append, ← encodeChars,
            ih (Nat.le_of_succ_le_succ hfuel)]

theorem length_units_le (char : Char) : (units char).length ≤ char.utf8Size := by
  have hpos := char.utf8Size_pos
  rw [units]
  split
  · exact hpos
  · rename_i hlarge
    have hlarger : ∀ {bound : UInt32}, bound.toNat < 0x10000 → ¬ char.val ≤ bound := by
      intro bound hbound hle
      rw [UInt32.le_iff_toNat_le] at hle
      exact hlarge (Nat.lt_of_le_of_lt hle hbound)
    rw [Char.utf8Size, if_neg (hlarger (by decide)), if_neg (hlarger (by decide)),
      if_neg (hlarger (by decide))]
    exact (by decide : 2 ≤ 4)

theorem one_le_subpart (byte : UInt8) (rest : Buffer) : 1 ≤ subpart (byte :: rest) :=
  Nat.le_add_left _ _

/-- A decoded text has no more code units than there were bytes. -/
theorem length_decodeChars_le :
    ∀ (fuel : ℕ) (bytes : Buffer),
      (ofChars (decodeChars fuel bytes)).length ≤ bytes.length := by
  intro fuel
  induction fuel with
  | zero => exact fun _ => Nat.zero_le _
  | succ fuel ih =>
      intro bytes
      cases bytes with
      | nil => exact Nat.zero_le _
      | cons byte rest =>
          cases hdecode : (byte :: rest).toByteArray.utf8DecodeChar? 0 with
          | some char =>
              have hsize := ByteArray.le_size_of_utf8DecodeChar?_eq_some hdecode
              have hunits := length_units_le char
              have hrest := ih ((byte :: rest).drop char.utf8Size)
              simp only [List.length_drop, List.size_toByteArray, Nat.zero_add]
                at hsize hrest
              simp only [decodeChars, hdecode, ofChars, List.flatMap_cons,
                List.length_append] at hrest ⊢
              omega
          | none =>
              have hpart := one_le_subpart byte rest
              have hunits : (units replacement).length = 1 := rfl
              have hrest := ih ((byte :: rest).drop (subpart (byte :: rest)))
              simp only [List.length_drop] at hrest
              simp only [decodeChars, hdecode, ofChars, List.flatMap_cons,
                List.length_append] at hrest ⊢
              have hlength : (byte :: rest).length = rest.length + 1 := rfl
              omega

theorem length_le_length_encodeChars (chars : List Char) :
    chars.length ≤ (encodeChars chars).length := by
  induction chars with
  | nil => rfl
  | cons char chars ih =>
      have hpos := char.utf8Size_pos
      simp only [encodeChars, List.flatMap_cons, List.length_append, List.length_cons,
        String.length_utf8EncodeChar] at ih ⊢
      omega

/-! ## Bytes of a text -/

def byteOrderMark : UInt16 := 0xFEFF

def dropMark : Text → Text
  | [] => []
  | unit :: rest => if unit = byteOrderMark then rest else unit :: rest

def encode (text : Text) : Buffer := encodeChars (toChars text)

def decode (bytes : Buffer) : Text :=
  dropMark (ofChars (decodeChars bytes.length bytes))

/-- The texts that come back from their bytes. -/
structure Transmissible (text : Text) : Prop where
  wellFormed : WellFormed text
  unmarked : text.head? ≠ some byteOrderMark

theorem dropMark_of_unmarked {text : Text} (hunmarked : text.head? ≠ some byteOrderMark) :
    dropMark text = text := by
  cases text with
  | nil => rfl
  | cons unit rest =>
      rw [dropMark, if_neg]
      simpa using hunmarked

/-- The mark is a scalar value of its own, so that no pair loses its half. -/
theorem wellFormed_dropMark (chars : List Char) : WellFormed (dropMark (ofChars chars)) := by
  cases chars with
  | nil => exact wellFormed_ofChars []
  | cons char chars =>
      by_cases hsmall : char.toNat < 0x10000
      · rw [ofChars, List.flatMap_cons, units, if_pos hsmall, List.singleton_append,
          dropMark]
        split
        · exact wellFormed_ofChars chars
        · refine ⟨char :: chars, ?_⟩
          rw [ofChars, List.flatMap_cons, units, if_pos hsmall, List.singleton_append]
      · have hvalid := toNat_lt_of_valid char
        rw [dropMark_of_unmarked]
        · exact wellFormed_ofChars _
        · rw [ofChars, List.flatMap_cons, units, if_neg hsmall, List.cons_append,
            List.head?_cons, Ne, Option.some.injEq, ← UInt16.toNat_inj,
            UInt16.toNat_ofNat']
          simp only [byteOrderMark, UInt16.reduceToNat]
          omega

theorem length_dropMark_le (text : Text) : (dropMark text).length ≤ text.length := by
  cases text with
  | nil => exact Nat.le_refl 0
  | cons unit rest =>
      rw [dropMark]
      split
      · exact Nat.le_succ _
      · exact Nat.le_refl _

theorem length_decode_le (bytes : Buffer) : (decode bytes).length ≤ bytes.length :=
  (length_dropMark_le _).trans (length_decodeChars_le _ _)

theorem wellFormed_decode (bytes : Buffer) : WellFormed (decode bytes) :=
  wellFormed_dropMark _

theorem decode_encode {text : Text} (htext : Transmissible text) :
    decode (encode text) = text := by
  rw [decode, encode, decodeChars_encodeChars (length_le_length_encodeChars _),
    ofChars_toChars htext.wellFormed, dropMark_of_unmarked htext.unmarked]

theorem utf8Size_le_three {char : Char} (hsmall : char.toNat < 0x10000) :
    char.utf8Size ≤ 3 := by
  have hval : char.val ≤ 0xFFFF := by
    rw [UInt32.le_iff_toNat_le]
    exact Nat.le_of_lt_succ hsmall
  rw [Char.utf8Size]
  split_ifs <;> first | omega | contradiction

theorem utf8Size_single_le (unit : UInt16) : (single unit).utf8Size ≤ 3 := by
  have hlt := unit.toNat_lt
  apply utf8Size_le_three
  rw [single]
  split
  · decide
  · rw [Char.ofNat]
    split
    · exact hlt
    · decide

/-- A code unit takes three bytes at most. -/
theorem length_encode_le (text : Text) : (encode text).length ≤ 3 * text.length := by
  induction text using toChars.induct with
  | case1 => rfl
  | case2 unit => simpa [encode, encodeChars, toChars] using utf8Size_single_le unit
  | case3 high low rest hpair ih =>
      have hsize := Char.utf8Size_le_four (pair high low)
      simp only [encode, encodeChars, toChars, hpair, if_true, List.flatMap_cons,
        List.length_append, String.length_utf8EncodeChar, List.length_cons] at ih ⊢
      omega
  | case4 high low rest hpair ih =>
      have hsize := utf8Size_single_le high
      simp only [encode, encodeChars, toChars, hpair, List.flatMap_cons,
        List.length_append, String.length_utf8EncodeChar, List.length_cons,
        Bool.false_eq_true, if_false] at ih ⊢
      omega

end Utf8
