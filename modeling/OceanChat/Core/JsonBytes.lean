import OceanChat.Core.Utf8

/-!
# JSON texts as UTF-8 bytes

The text of a value has no lone surrogate, since those are escaped, and does
not start with a byte order mark.  So it survives its way through UTF-8, and the
value is read back from the bytes.
-/

namespace Utf8

open ByteBuffer (Buffer)
open Json (isHigh isLow hexDigit hexEscape quote quoteUnit quoteUnits)
open Text (unit ofAscii)

/-! ## Well-formed texts -/

theorem wellFormed_nil : WellFormed [] := ⟨[], rfl⟩

theorem WellFormed.append {front back : Text} (hfront : WellFormed front)
    (hback : WellFormed back) : WellFormed (front ++ back) := by
  obtain ⟨first, rfl⟩ := hfront
  obtain ⟨second, rfl⟩ := hback
  exact ⟨first ++ second, List.flatMap_append⟩

/-- A code unit that is a scalar value. -/
def IsScalar (u : UInt16) : Prop := isHigh u = false ∧ isLow u = false

instance (u : UInt16) : Decidable (IsScalar u) :=
  inferInstanceAs (Decidable (_ ∧ _))

theorem wellFormed_singleton {u : UInt16} (hscalar : IsScalar u) : WellFormed [u] := by
  have hlt := u.toNat_lt
  have hvalid : Nat.isValidChar u.toNat := by
    obtain ⟨hhigh, hlow⟩ := hscalar
    simp only [isHigh, isLow, Bool.and_eq_false_iff, decide_eq_false_iff_not] at hhigh hlow
    simp only [Nat.isValidChar]
    omega
  have hchar : (Char.ofNat u.toNat).toNat = u.toNat := by
    rw [Char.ofNat, dif_pos hvalid]
    rfl
  refine ⟨[Char.ofNat u.toNat], ?_⟩
  rw [ofChars, List.flatMap_singleton, units, hchar, if_pos (by omega)]
  simp

theorem wellFormed_cons {u : UInt16} (hscalar : IsScalar u) {rest : Text}
    (hrest : WellFormed rest) : WellFormed (u :: rest) :=
  (wellFormed_singleton hscalar).append hrest

theorem wellFormed_of_scalars {text : Text} (hscalars : ∀ u ∈ text, IsScalar u) :
    WellFormed text := by
  induction text with
  | nil => exact wellFormed_nil
  | cons u rest ih =>
      obtain ⟨hhead, htail⟩ := List.forall_mem_cons.mp hscalars
      exact wellFormed_cons hhead (ih htail)

theorem wellFormed_pair {high low : UInt16} (hhigh : isHigh high = true)
    (hlow : isLow low = true) : WellFormed [high, low] := by
  simp only [isHigh, isLow, Bool.and_eq_true, decide_eq_true_eq] at hhigh hlow
  let value := 0x10000 + (high.toNat - 0xD800) * 1024 + (low.toNat - 0xDC00)
  have hvalid : Nat.isValidChar value := by
    simp only [Nat.isValidChar, value]
    omega
  have hchar : (Char.ofNat value).toNat = value := by
    rw [Char.ofNat, dif_pos hvalid]
    rfl
  have hfirst : 0xD800 + (value - 0x10000) / 1024 = high.toNat := by
    simp only [value]
    omega
  have hsecond : 0xDC00 + (value - 0x10000) % 1024 = low.toNat := by
    simp only [value]
    omega
  refine ⟨[Char.ofNat value], ?_⟩
  rw [ofChars, List.flatMap_singleton, units, hchar, if_neg (by simp only [value]; omega),
    hfirst, hsecond]
  simp

/-! ## The text of a value -/

theorem isScalar_hexDigit {value : ℕ} (hlt : value < 16) : IsScalar (hexDigit value) := by
  interval_cases value <;> decide

theorem wellFormed_hexEscape (u : UInt16) : WellFormed (hexEscape u) := by
  have hlt := u.toNat_lt
  apply wellFormed_of_scalars
  simp only [hexEscape, List.forall_mem_cons]
  exact ⟨by decide, by decide, isScalar_hexDigit (by omega), isScalar_hexDigit (by omega),
    isScalar_hexDigit (by omega), isScalar_hexDigit (by omega),
    List.forall_mem_nil _⟩

theorem isScalar_of_lookup_escapes {u letter : UInt16}
    (hlookup : Json.escapes.lookup u = some letter) : IsScalar letter := by
  obtain ⟨front, back, hescapes, -⟩ := List.lookup_eq_some_iff.mp hlookup
  have hmem : (u, letter) ∈ Json.escapes := by simp [hescapes]
  simp only [Json.escapes, List.mem_cons, Prod.mk.injEq, List.not_mem_nil,
    or_false] at hmem
  obtain ⟨-, rfl⟩ | ⟨-, rfl⟩ | ⟨-, rfl⟩ | ⟨-, rfl⟩ | ⟨-, rfl⟩ | ⟨-, rfl⟩ | ⟨-, rfl⟩ :=
    hmem <;> decide

theorem wellFormed_quoteUnit (u : UInt16) : WellFormed (quoteUnit u) := by
  rw [quoteUnit]
  split
  · rename_i letter hlookup
    exact wellFormed_cons (by decide)
      (wellFormed_singleton (isScalar_of_lookup_escapes hlookup))
  · split
    · exact wellFormed_hexEscape u
    · rename_i hplain
      apply wellFormed_singleton
      simp only [not_or, Bool.not_eq_true] at hplain
      exact hplain.2

/-- A surrogate without a partner is escaped. -/
theorem wellFormed_quoteUnits (text : Text) : WellFormed (quoteUnits text) := by
  induction text using Json.quoteUnits.induct with
  | case1 => exact wellFormed_nil
  | case2 u => exact wellFormed_quoteUnit u
  | case3 u v rest hpair ih =>
      rw [quoteUnits, if_pos hpair]
      exact (wellFormed_pair hpair.1 hpair.2).append ih
  | case4 u v rest hpair ih =>
      rw [quoteUnits, if_neg hpair]
      exact (wellFormed_quoteUnit u).append ih

theorem wellFormed_quote (text : Text) : WellFormed (quote text) :=
  wellFormed_cons (by decide)
    ((wellFormed_quoteUnits text).append (wellFormed_singleton (by decide)))

theorem isScalar_digit {value : ℕ} (hlt : value < 10) : IsScalar (Double.digit value) := by
  interval_cases value <;> decide

theorem wellFormed_digits {digits : List ℕ} (hdigits : ∀ value ∈ digits, value < 10) :
    WellFormed (digits.map Double.digit) := by
  apply wellFormed_of_scalars
  intro u hmem
  obtain ⟨value, hvalue, rfl⟩ := List.mem_map.mp hmem
  exact isScalar_digit (hdigits value hvalue)

theorem wellFormed_printFrac {frac : List ℕ} (hfrac : ∀ value ∈ frac, value < 10) :
    WellFormed (Double.printFrac frac) := by
  rw [Double.printFrac]
  split
  · exact wellFormed_nil
  · exact wellFormed_cons (by decide) (wellFormed_digits hfrac)

theorem wellFormed_printExp (exp : Option ℤ) : WellFormed (Double.printExp exp) := by
  cases exp with
  | none => exact wellFormed_nil
  | some exp =>
      have hsign : IsScalar (if exp < 0 then unit '-' else unit '+') := by
        split <;> decide
      exact wellFormed_cons (by decide) (wellFormed_cons hsign
        (wellFormed_digits fun value hmem => Double.toDigits_lt hmem))

theorem wellFormed_toText (double : Double) : WellFormed double.toText := by
  have hnumeral := Double.wellFormed_toNumeral double
  have hsign : WellFormed (if double.toNumeral.negative then [unit '-'] else []) := by
    split
    · exact wellFormed_singleton (by decide)
    · exact wellFormed_nil
  exact hsign.append ((wellFormed_digits hnumeral.int_lt).append
    ((wellFormed_printFrac hnumeral.frac_lt).append (wellFormed_printExp _)))

theorem wellFormed_nullText : WellFormed Json.nullText :=
  wellFormed_ofAscii (by simp)

theorem wellFormed_trueText : WellFormed Json.trueText :=
  wellFormed_ofAscii (by simp)

theorem wellFormed_falseText : WellFormed Json.falseText :=
  wellFormed_ofAscii (by simp)

mutual

theorem wellFormed_stringify : (value : Json) → WellFormed value.stringify
  | .null => by
      rw [Json.stringify]
      exact wellFormed_nullText
  | .boolean true => by
      rw [Json.stringify]
      exact wellFormed_trueText
  | .boolean false => by
      rw [Json.stringify]
      exact wellFormed_falseText
  | .number value => by
      rw [Json.stringify]
      exact wellFormed_toText value
  | .infinity _ => by
      rw [Json.stringify]
      exact wellFormed_nullText
  | .string value => by
      rw [Json.stringify]
      exact wellFormed_quote value
  | .array [] => by
      rw [Json.stringify]
      exact wellFormed_cons (by decide) (wellFormed_singleton (by decide))
  | .array (value :: values) => by
      rw [Json.stringify]
      exact wellFormed_cons (by decide)
        ((wellFormed_stringify value).append (wellFormed_stringifyElements values))
  | .object [] => by
      rw [Json.stringify]
      exact wellFormed_cons (by decide) (wellFormed_singleton (by decide))
  | .object ((key, value) :: members) => by
      rw [Json.stringify]
      exact wellFormed_cons (by decide) ((wellFormed_quote key).append
        (wellFormed_cons (by decide)
          ((wellFormed_stringify value).append (wellFormed_stringifyMembers members))))

theorem wellFormed_stringifyElements :
    (values : List Json) → WellFormed (Json.stringifyElements values)
  | [] => by
      rw [Json.stringifyElements]
      exact wellFormed_singleton (by decide)
  | value :: values => by
      rw [Json.stringifyElements]
      exact wellFormed_cons (by decide)
        ((wellFormed_stringify value).append (wellFormed_stringifyElements values))

theorem wellFormed_stringifyMembers :
    (members : List (Text × Json)) → WellFormed (Json.stringifyMembers members)
  | [] => by
      rw [Json.stringifyMembers]
      exact wellFormed_singleton (by decide)
  | (key, value) :: members => by
      rw [Json.stringifyMembers]
      exact wellFormed_cons (by decide) ((wellFormed_quote key).append
        (wellFormed_cons (by decide)
          ((wellFormed_stringify value).append (wellFormed_stringifyMembers members))))

end

theorem not_startsValue_byteOrderMark : ¬ Json.StartsValue byteOrderMark := by
  rintro (hmem | hsign | ⟨value, hlt, hdigit⟩)
  · exact absurd hmem (by decide)
  · exact absurd hsign (by decide)
  · interval_cases value <;> exact absurd hdigit (by decide)

theorem transmissible_stringify (value : Json) : Transmissible value.stringify where
  wellFormed := wellFormed_stringify value
  unmarked := by
    obtain ⟨u, tail, htext, hstarts⟩ := value.exists_stringify_eq_cons
    rw [htext, List.head?_cons]
    intro hmark
    obtain rfl := Option.some.inj hmark
    exact not_startsValue_byteOrderMark hstarts

/-- A plain value is read back from the bytes of its text. -/
theorem parse_decode_encode_stringify {value : Json} (hplain : value.Plain) :
    Json.parse (decode (encode value.stringify)) = some value := by
  rw [decode_encode (transmissible_stringify value), Json.parse_stringify hplain]

end Utf8
