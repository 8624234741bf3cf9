import Mathlib

/-!
# Canonical decimal strings

Counters that outgrow a double are kept as decimal strings and compared
without converting them to numbers.  This module proves that comparing the
lengths first and the characters second agrees with the numeric order, and
that a canonical decimal string parses back to its number.  The same holds of
the bytes of the strings, since a digit is one byte.
-/

namespace Decimal

/-- Parse a non-empty string of decimal digits. -/
def parse (text : String) : Option ℕ :=
  if text.toList ≠ [] ∧ text.toList.all Char.isDigit then
    some (Nat.ofDigitChars 10 text.toList 0)
  else none

@[simp]
theorem parse_repr (value : ℕ) : parse value.repr = some value := by
  have hdigits : ∀ char ∈ Nat.toDigits 10 value, char.isDigit = true :=
    fun char hchar => Nat.isDigit_of_mem_toDigits (by omega) (by omega) hchar
  simpa [parse, Nat.ofDigitChars_ten_toDigits] using hdigits

/-- Appending one element to lists of equal length compares the lists first. -/
theorem append_singleton_lt_iff {left right : List Char} {x y : Char}
    (hlength : left.length = right.length) :
    left ++ [x] < right ++ [y] ↔ left < right ∨ left = right ∧ x < y := by
  induction left generalizing right with
  | nil =>
      obtain rfl : right = [] := List.length_eq_zero_iff.mp hlength.symm
      simp [List.cons_lt_cons_iff]
  | cons head tail ih =>
      cases right with
      | nil => simp at hlength
      | cons head' tail' =>
          have htail : tail.length = tail'.length := by simpa using hlength
          simp only [List.cons_append, List.cons_lt_cons_iff, ih htail,
            List.cons.injEq]
          grind

theorem digitChar_lt_iff {left right : ℕ} (hleft : left < 10)
    (hright : right < 10) :
    left.digitChar < right.digitChar ↔ left < right := by
  interval_cases left <;> interval_cases right <;> decide

theorem toDigits_lt_iff_of_length_eq {left right : ℕ}
    (hlength : (Nat.toDigits 10 left).length =
      (Nat.toDigits 10 right).length) :
    Nat.toDigits 10 left < Nat.toDigits 10 right ↔ left < right := by
  induction left using Nat.strong_induction_on generalizing right with
  | _ left ih =>
      have hdigit : ∀ value, (Nat.toDigits 10 value).length = 1 ↔ value < 10 := by
        intro value
        have hpos := Nat.length_toDigits_pos (b := 10) (n := value)
        have hle := Nat.length_toDigits_le_iff (n := value) (k := 1)
          (by omega : 1 < 10) (by omega)
        omega
      by_cases hsmall : left < 10
      · have hright : right < 10 := by
          rw [← hdigit, ← hlength, hdigit]
          exact hsmall
        rw [Nat.toDigits_of_lt_base hsmall, Nat.toDigits_of_lt_base hright]
        simpa [List.cons_lt_cons_iff] using digitChar_lt_iff hsmall hright
      · have hright : ¬ right < 10 := by
          rw [← hdigit, ← hlength, hdigit]
          exact hsmall
        rw [Nat.toDigits_of_base_le (by omega) (Nat.le_of_not_lt hsmall),
          Nat.toDigits_of_base_le (by omega) (Nat.le_of_not_lt hright)]
          at hlength ⊢
        have hquotient : (Nat.toDigits 10 (left / 10)).length =
            (Nat.toDigits 10 (right / 10)).length := by simpa using hlength
        have heq : Nat.toDigits 10 (left / 10) = Nat.toDigits 10 (right / 10) ↔
            left / 10 = right / 10 := by
          constructor
          · intro h
            have := congrArg (fun digits => Nat.ofDigitChars 10 digits 0) h
            simpa [Nat.ofDigitChars_ten_toDigits] using this
          · exact fun h => by rw [h]
        rw [append_singleton_lt_iff hquotient,
          ih (left / 10) (by omega) hquotient, heq,
          digitChar_lt_iff (Nat.mod_lt _ (by omega)) (Nat.mod_lt _ (by omega))]
        omega

theorem repr_lt_iff_of_length_eq {left right : ℕ}
    (hlength : left.repr.length = right.repr.length) :
    left.repr < right.repr ↔ left < right := by
  rw [String.lt_iff_toList_lt, Nat.toList_repr, Nat.toList_repr]
  apply toDigits_lt_iff_of_length_eq
  simpa [← String.length_toList] using hlength

theorem length_repr_le_of_le {left right : ℕ} (hle : left ≤ right) :
    left.repr.length ≤ right.repr.length := by
  have hpos : 0 < right.repr.length := Nat.length_repr_pos
  rw [Nat.length_repr_le_iff hpos]
  exact hle.trans_lt ((Nat.length_repr_le_iff hpos).mp le_rfl)

/-- Length first, characters second: the order of canonical decimal strings is
the numeric order. -/
theorem shortlex_iff {left right : ℕ} :
    (left.repr.length < right.repr.length ∨
      left.repr.length = right.repr.length ∧ left.repr < right.repr) ↔
      left < right := by
  constructor
  · rintro (hlength | ⟨hlength, hlt⟩)
    · by_contra hle
      have := length_repr_le_of_le (Nat.le_of_not_lt hle)
      omega
    · exact (repr_lt_iff_of_length_eq hlength).mp hlt
  · intro hlt
    rcases (length_repr_le_of_le hlt.le).lt_or_eq with hlength | hlength
    · exact Or.inl hlength
    · exact Or.inr ⟨hlength, (repr_lt_iff_of_length_eq hlength).mpr hlt⟩

/-! ## Canonical texts -/

/-- The decimal digits of a number, without leading zeros. -/
structure Canonical (text : String) (value : ℕ) : Prop where
  parsed : parse text = some value
  leading : text.toList.head? = some '0' → text.length = 1

theorem eq_zero_of_head?_toDigits {value : ℕ}
    (hzero : (Nat.toDigits 10 value).head? = some '0') : value = 0 := by
  induction value using Nat.strong_induction_on with
  | _ value ih =>
      by_cases hsmall : value < 10
      · rw [Nat.toDigits_of_lt_base hsmall] at hzero
        simpa using hzero
      · rw [Nat.toDigits_of_base_le (by omega) (not_lt.mp hsmall),
          List.head?_append_of_ne_nil _ Nat.toDigits_ne_nil] at hzero
        have hquotient := ih (value / 10) (by omega) hzero
        omega

theorem exists_digitChar {char : Char} (hdigit : char.isDigit = true) :
    ∃ digit < 10, char = Nat.digitChar digit := by
  obtain ⟨hlower, hupper⟩ : 48 ≤ char.toNat ∧ char.toNat ≤ 57 := by
    simpa [Char.isDigit, UInt32.le_iff_toNat_le] using hdigit
  refine ⟨char.toNat - 48, by omega, Char.toNat_inj.mp ?_⟩
  generalize char.toNat = code at *
  interval_cases code <;> rfl

/-- Digits without a leading zero are the digits of the number they denote. -/
theorem toDigits_ofDigitChars {digits : List Char} (hne : digits ≠ [])
    (hdigits : ∀ char ∈ digits, char.isDigit = true)
    (hleading : digits.head? = some '0' → digits.length = 1) :
    Nat.toDigits 10 (Nat.ofDigitChars 10 digits 0) = digits := by
  induction digits using List.reverseRecOn with
  | nil => exact absurd rfl hne
  | append_singleton digits char ih =>
      obtain ⟨digit, hdigit, rfl⟩ := exists_digitChar (hdigits char (by simp))
      rw [Nat.ofDigitChars_append, Nat.ofDigitChars_cons_digitChar_of_lt_ten hdigit,
        Nat.ofDigitChars_nil]
      by_cases hnil : digits = []
      · subst hnil
        simpa using Nat.toDigits_of_lt_base hdigit
      · have hhead : digits.head? ≠ some '0' := by
          intro hzero
          have hlength := hleading (by rwa [List.head?_append_of_ne_nil _ hnil])
          have hpositive := List.length_pos_of_ne_nil hnil
          simp only [List.length_append, List.length_singleton] at hlength
          omega
        have hsame := ih hnil (fun char hchar => hdigits char (by simp [hchar]))
          fun hzero => absurd hzero hhead
        have hpositive : 0 < Nat.ofDigitChars 10 digits 0 := by
          rw [Nat.pos_iff_ne_zero]
          intro hzero
          rw [hzero, Nat.toDigits_zero] at hsame
          exact hhead (by rw [← hsame]; rfl)
        rw [← Nat.toDigits_append_toDigits (by omega) hpositive hdigit, hsame,
          Nat.toDigits_of_lt_base hdigit]

/-- Every number has exactly one canonical text. -/
theorem canonical_iff {text : String} {value : ℕ} :
    Canonical text value ↔ text = value.repr := by
  constructor
  · rintro ⟨hparsed, hleading⟩
    obtain ⟨⟨hne, hdigits⟩, hvalue⟩ := Option.ite_none_right_eq_some.mp hparsed
    obtain rfl := Option.some.inj hvalue
    apply String.toList_inj.mp
    rw [Nat.toList_repr, toDigits_ofDigitChars hne (by simpa using hdigits)
      (by rwa [String.length_toList])]
  · rintro rfl
    refine ⟨parse_repr value, fun hzero => ?_⟩
    rw [Nat.toList_repr] at hzero
    rw [eq_zero_of_head?_toDigits hzero]
    rfl

/-! ## Bytes -/

/-- The bytes of a text. -/
def bytes (text : String) : List UInt8 := text.toList.flatMap String.utf8EncodeChar

/-- A digit is one byte. -/
theorem utf8EncodeChar_of_isDigit {char : Char} (hdigit : char.isDigit = true) :
    String.utf8EncodeChar char = [char.val.toUInt8] := by
  obtain ⟨digit, hlt, rfl⟩ := exists_digitChar hdigit
  interval_cases digit <;> rfl

theorem isDigit_of_mem_repr {value : ℕ} :
    ∀ char ∈ value.repr.toList, char.isDigit = true := by
  rw [Nat.toList_repr]
  exact fun char hchar => Nat.isDigit_of_mem_toDigits (by omega) (by omega) hchar

theorem bytes_repr (value : ℕ) :
    bytes value.repr = value.repr.toList.map fun char => char.val.toUInt8 := by
  rw [bytes, List.flatMap_congr fun char hchar =>
    utf8EncodeChar_of_isDigit (isDigit_of_mem_repr char hchar), ← List.map_eq_flatMap]

@[simp]
theorem length_bytes_repr (value : ℕ) :
    (bytes value.repr).length = value.repr.length := by
  rw [bytes_repr, List.length_map, String.length_toList]

theorem byte_lt_iff {left right : Char} (hleft : left.isDigit = true)
    (hright : right.isDigit = true) :
    left.val.toUInt8 < right.val.toUInt8 ↔ left < right := by
  obtain ⟨x, hx, rfl⟩ := exists_digitChar hleft
  obtain ⟨y, hy, rfl⟩ := exists_digitChar hright
  interval_cases x <;> interval_cases y <;> decide

theorem byte_inj {left right : Char} (hleft : left.isDigit = true)
    (hright : right.isDigit = true) :
    left.val.toUInt8 = right.val.toUInt8 ↔ left = right := by
  obtain ⟨x, hx, rfl⟩ := exists_digitChar hleft
  obtain ⟨y, hy, rfl⟩ := exists_digitChar hright
  interval_cases x <;> interval_cases y <;> decide

/-- Digits compare as their bytes do. -/
theorem map_byte_lt_iff {left right : List Char}
    (hleft : ∀ char ∈ left, char.isDigit = true)
    (hright : ∀ char ∈ right, char.isDigit = true) :
    left.map (fun char => char.val.toUInt8) <
        right.map (fun char => char.val.toUInt8) ↔ left < right := by
  induction left generalizing right with
  | nil => cases right <;> simp
  | cons head tail ih =>
      cases right with
      | nil => simp
      | cons head' tail' =>
          simp only [List.mem_cons, forall_eq_or_imp] at hleft hright
          simp only [List.map_cons, List.cons_lt_cons_iff,
            byte_lt_iff hleft.1 hright.1, byte_inj hleft.1 hright.1,
            ih hleft.2 hright.2]

theorem bytes_repr_lt_iff {left right : ℕ} :
    bytes left.repr < bytes right.repr ↔ left.repr < right.repr := by
  rw [bytes_repr, bytes_repr, String.lt_iff_toList_lt]
  exact map_byte_lt_iff isDigit_of_mem_repr isDigit_of_mem_repr

end Decimal
