import OceanChat.IdGenerator.Scripts

/-!
# Comparison of numbers as strings

To Lua a string is a sequence of bytes: `#` counts them and `<` compares them
one by one.  On canonical decimals the comparison helpers of the two scripts
decide the numeric order, whatever the size of the numbers.
-/

namespace OceanChat.IdGenerator

open Decimal (Canonical bytes)

/-- `is_greater_or_equal` on the bytes of its arguments. -/
def isGreaterOrEqualBytes (a b : List UInt8) : Bool :=
  if a.length ≠ b.length then decide (a.length > b.length) else decide (b ≤ a)

/-- `is_greater` on the bytes of its arguments. -/
def isGreaterBytes (a : List UInt8) : Option (List UInt8) → Bool
  | none => true
  | some b =>
      if a.length ≠ b.length then decide (a.length > b.length)
      else decide (b < a)

theorem isGreaterOrEqualBytes_repr (left right : ℕ) :
    isGreaterOrEqualBytes (bytes left.repr) (bytes right.repr) =
      isGreaterOrEqual left.repr right.repr := by
  simp only [isGreaterOrEqualBytes, isGreaterOrEqual, Decimal.length_bytes_repr,
    ← List.not_lt, Decimal.bytes_repr_lt_iff, decide_not]

theorem isGreaterBytes_repr (left right : ℕ) :
    isGreaterBytes (bytes left.repr) (some (bytes right.repr)) =
      isGreater left.repr (some right.repr) := by
  simp only [isGreaterBytes, isGreater, Decimal.length_bytes_repr,
    Decimal.bytes_repr_lt_iff]

/-- Comparing the strings, which Lua does byte by byte, is comparing the
numbers; a number is greater than an absent one. -/
theorem comparison_iff {a b : String} {x y : ℕ} (ha : Canonical a x)
    (hb : Canonical b y) :
    (isGreaterOrEqual a b = true ↔ y ≤ x) ∧
      (isGreater a (some b) = true ↔ y < x) ∧ isGreater a none = true ∧
      isGreaterOrEqualBytes (bytes a) (bytes b) = isGreaterOrEqual a b ∧
      isGreaterBytes (bytes a) (some (bytes b)) = isGreater a (some b) := by
  obtain rfl := Decimal.canonical_iff.mp ha
  obtain rfl := Decimal.canonical_iff.mp hb
  refine ⟨?_, ?_, rfl, isGreaterOrEqualBytes_repr x y, isGreaterBytes_repr x y⟩
  · rw [isGreaterOrEqual_repr, decide_eq_true_iff]
  · rw [isGreater_repr, decide_eq_true_iff]

theorem comparison_iff_of_powerOfTen :
    (isGreaterOrEqual "1000" "999" = true ↔ 999 ≤ 1000) ∧
      (isGreater "1000" (some "999") = true ↔ 999 < 1000) ∧
      isGreater "1000" none = true ∧
      isGreaterOrEqualBytes (bytes "1000") (bytes "999") =
        isGreaterOrEqual "1000" "999" ∧
      isGreaterBytes (bytes "1000") (some (bytes "999")) =
        isGreater "1000" (some "999") :=
  comparison_iff (Decimal.canonical_iff.mpr rfl) (Decimal.canonical_iff.mpr rfl)

end OceanChat.IdGenerator
