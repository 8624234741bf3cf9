import Mathlib

/-!
# Doubles and their decimal texts

A finite double is a rational that rounding to the nearest double leaves alone.
It is written with the fewest digits that round back to it, and a decimal text
is read by rounding its mathematical value.  Texts are lists of UTF-16 code
units.
-/

/-- A string as its UTF-16 code units. -/
abbrev Text := List UInt16

namespace Text

/-- The code unit of an ASCII character. -/
def unit (char : Char) : UInt16 := UInt16.ofNat char.toNat

def ofAscii (chars : List Char) : Text := chars.map unit

end Text

namespace Double

open Text (unit)

/-! ## Rounding -/

/-- The nearest integer; a tie goes to the even one. -/
def roundHalfEven (x : ℚ) : ℤ :=
  let fraction := x - ⌊x⌋
  if fraction < 1 / 2 then ⌊x⌋
  else if 1 / 2 < fraction then ⌊x⌋ + 1
  else if ⌊x⌋ % 2 = 0 then ⌊x⌋
  else ⌊x⌋ + 1

/-- The nearest double with ties to even; `none` beyond the largest one. -/
def nearest (x : ℚ) : Option ℚ :=
  if x = 0 then some 0
  else
    let quantum : ℚ := 2 ^ max (Int.log 2 |x| - 52) (-1074)
    let rounded := roundHalfEven (x / quantum) * quantum
    if |rounded| < 2 ^ 1024 then some rounded else none

@[simp]
theorem roundHalfEven_intCast (n : ℤ) : roundHalfEven n = n := by
  simp [roundHalfEven]

theorem roundHalfEven_bounds (x : ℚ) :
    ⌊x⌋ ≤ roundHalfEven x ∧ roundHalfEven x ≤ ⌊x⌋ + 1 := by
  unfold roundHalfEven
  simp only
  split
  · omega
  · split
    · omega
    · split <;> omega

theorem abs_roundHalfEven_le {x : ℚ} {bound : ℤ} (hx : |x| < bound) :
    |roundHalfEven x| ≤ bound := by
  obtain ⟨hlower, hupper⟩ := roundHalfEven_bounds x
  obtain ⟨hneg, hpos⟩ := abs_lt.mp hx
  have hfloor : -bound ≤ ⌊x⌋ := Int.le_floor.mpr (by push_cast; exact hneg.le)
  have hceil : ⌊x⌋ < bound := Int.floor_lt.mpr hpos
  rw [abs_le]
  omega

/-- A multiple of its own quantum is a double. -/
theorem nearest_of_eq_mul {y : ℚ} (hy : |y| < 2 ^ 1024) {n e : ℤ}
    (hvalue : y = n * 2 ^ e) (he : max (Int.log 2 |y| - 52) (-1074) ≤ e) :
    nearest y = some y := by
  unfold nearest
  split
  · rename_i hzero
    rw [hzero]
  · obtain ⟨k, hk⟩ := Int.eq_ofNat_of_zero_le
      (by omega : 0 ≤ e - max (Int.log 2 |y| - 52) (-1074))
    have htwo : (2 : ℚ) ^ max (Int.log 2 |y| - 52) (-1074) ≠ 0 := by positivity
    have hinteger : y / 2 ^ max (Int.log 2 |y| - 52) (-1074) =
        ((n * 2 ^ k : ℤ) : ℚ) := by
      rw [div_eq_iff htwo]
      conv_lhs => rw [hvalue,
        show e = k + max (Int.log 2 |y| - 52) (-1074) by omega,
        zpow_add₀ (by norm_num), zpow_natCast]
      push_cast
      ring
    have hrounded : (roundHalfEven (y / 2 ^ max (Int.log 2 |y| - 52) (-1074)) : ℚ) *
        2 ^ max (Int.log 2 |y| - 52) (-1074) = y := by
      rw [hinteger, roundHalfEven_intCast, ← hinteger, div_mul_cancel₀ _ htwo]
    simp only [hrounded, if_pos hy]

/-- Rounding again changes nothing. -/
theorem nearest_nearest {x y : ℚ} (hnearest : nearest x = some y) :
    nearest y = some y := by
  unfold nearest at hnearest
  split at hnearest
  · cases hnearest
    simp [nearest]
  · rename_i hx
    simp only at hnearest
    split at hnearest
    · rename_i hbound
      cases hnearest
      generalize hq : max (Int.log 2 |x| - 52) (-1074) = q at hbound ⊢
      have hpos : 0 < |x| := abs_pos.mpr hx
      have hquotient : |x / 2 ^ q| < ((2 ^ 53 : ℤ) : ℚ) := by
        have hlt : |x| < (2 : ℚ) ^ (Int.log 2 |x| + 1) :=
          Int.lt_zpow_succ_log_self (by norm_num) |x|
        have hle : (2 : ℚ) ^ (Int.log 2 |x| + 1) ≤ 2 ^ (q + 53) :=
          zpow_le_zpow_right₀ (by norm_num) (by omega)
        have htwo : (0 : ℚ) < 2 ^ q := by positivity
        rw [abs_div, abs_of_pos htwo, div_lt_iff₀ htwo]
        refine hlt.trans_le (hle.trans_eq ?_)
        rw [zpow_add₀ (by norm_num)]
        push_cast
        ring
      have hr := abs_roundHalfEven_le hquotient
      generalize roundHalfEven (x / 2 ^ q) = r at hbound hr ⊢
      by_cases hzero : r = 0
      · simp [hzero, nearest]
      have habs : |(r : ℚ) * 2 ^ q| = |r| * 2 ^ q := by
        rw [abs_mul, abs_of_pos (by positivity : (0 : ℚ) < 2 ^ q), Int.cast_abs]
      have hrpos : 0 < |(r : ℚ) * 2 ^ q| :=
        abs_pos.mpr (mul_ne_zero (by exact_mod_cast hzero) (by positivity))
      have hlog : ∀ bits : ℕ, |r| < 2 ^ bits →
          Int.log 2 |(r : ℚ) * 2 ^ q| < q + bits := by
        intro bits hbits
        refine (Int.lt_zpow_iff_log_lt (by norm_num) hrpos).mp ?_
        have hlt : (|r| : ℚ) < 2 ^ bits := by exact_mod_cast hbits
        rw [habs, zpow_add₀ (by norm_num : ((2 : ℕ) : ℚ) ≠ 0), zpow_natCast,
          mul_comm]
        push_cast
        exact mul_lt_mul_of_pos_left hlt (by positivity)
      by_cases hlast : |r| = 2 ^ 53
      · have hhalf : r = r / 2 * 2 := by
          rcases abs_eq (by norm_num : (0 : ℤ) ≤ 2 ^ 53) |>.mp hlast with rfl | rfl <;>
            norm_num
        have hvalue : (r : ℚ) * 2 ^ q = (r / 2 : ℤ) * 2 ^ (q + 1) := by
          rw [zpow_add_one₀ (by norm_num)]
          conv_lhs => rw [hhalf]
          push_cast
          ring
        have := hlog 54 (by rw [hlast]; norm_num)
        exact nearest_of_eq_mul hbound hvalue (by push_cast at this; omega)
      · have := hlog 53 (lt_of_le_of_ne hr hlast)
        exact nearest_of_eq_mul hbound rfl (by push_cast at this; omega)
    · cases hnearest

end Double

/-- A finite double; the zeros are not told apart. -/
structure Double where
  value : ℚ
  rounded : Double.nearest value = some value

namespace Double

open Text (unit)

theorem nearest_intCast {n : ℤ} (hn : |n| < 2 ^ 53) : nearest n = some (n : ℚ) := by
  have hcast : |(n : ℚ)| < 2 ^ 53 := by exact_mod_cast hn
  have hsmall : |(n : ℚ)| < 2 ^ 1024 :=
    hcast.trans (pow_lt_pow_right₀ (by norm_num) (by norm_num))
  by_cases hzero : n = 0
  · simp [hzero, nearest]
  · have hpos : 0 < |(n : ℚ)| := abs_pos.mpr (by exact_mod_cast hzero)
    have hlog : Int.log 2 |(n : ℚ)| < 53 :=
      (Int.lt_zpow_iff_log_lt (by norm_num) hpos).mp (by exact_mod_cast hcast)
    exact @nearest_of_eq_mul n hsmall n 0 (by simp) (by omega)

/-- The integers up to `2 ^ 53` are doubles. -/
def ofInt (n : ℤ) (hn : |n| < 2 ^ 53) : Double := ⟨n, nearest_intCast hn⟩

/-! ## Numerals -/

/-- A decimal numeral as the grammar of numbers reads it. -/
structure Numeral where
  negative : Bool
  int : List ℕ
  frac : List ℕ
  exp : Option ℤ
  deriving DecidableEq

/-- The number that a list of decimal digits denotes. -/
def ofDigits (digits : List ℕ) : ℕ := Nat.ofDigits 10 digits.reverse

/-- The decimal digits of a positive number. -/
def toDigits (number : ℕ) : List ℕ := (Nat.digits 10 number).reverse

def Numeral.value (numeral : Numeral) : ℚ :=
  (if numeral.negative then -1 else 1) *
    ofDigits (numeral.int ++ numeral.frac) *
      10 ^ (numeral.exp.getD 0 - numeral.frac.length)

/-! ## Shortest digits -/

/-- The exponent of the last one of `count` digits of a positive `x`. -/
def lastExponent (x : ℚ) (count : ℕ) : ℤ := Int.log 10 x + 1 - count

/-- `digits`, at most `10 ^ count`, with as many digits as `count`. -/
def decimalOf (count : ℕ) (exponent : ℤ) (digits : ℕ) : ℕ × ℤ :=
  if digits = 10 ^ count then (10 ^ (count - 1), exponent + 1) else (digits, exponent)

/-- The number with `count` digits nearest to a positive `x`, and the exponent
of its last digit. -/
def candidate (x : ℚ) (count : ℕ) : ℕ × ℤ :=
  let exponent := lastExponent x count
  decimalOf count exponent (roundHalfEven (x / 10 ^ exponent)).toNat

/-- The nearest number with `count` digits, then the next one below `x` and the next one
above: the nearest one may round to another double when one of the others does not. -/
def candidates (x : ℚ) (count : ℕ) : List (ℕ × ℤ) :=
  let exponent := lastExponent x count
  candidate x count :: [⌊x / 10 ^ exponent⌋, ⌈x / 10 ^ exponent⌉].map fun digits =>
    decimalOf count exponent digits.toNat

def sign (x : ℚ) : ℚ := if x < 0 then -1 else 1

/-- The digits round back to `x`. -/
def Denotes (x : ℚ) (decimal : ℕ × ℤ) : Prop :=
  decimal.1 ≠ 0 ∧ nearest (sign x * decimal.1 * 10 ^ decimal.2) = some x

instance (x : ℚ) (decimal : ℕ × ℤ) : Decidable (Denotes x decimal) :=
  inferInstanceAs (Decidable (_ ∧ _))

/-- Try more and more digits. -/
def search (x : ℚ) : ℕ → ℕ → ℕ × ℤ
  | 0, count => candidate |x| count
  | fuel + 1, count =>
      match (candidates |x| count).find? (Denotes x ·) with
      | some decimal => decimal
      | none => search x fuel (count + 1)

/-- A double has as many decimals as the binary logarithm of its denominator. -/
def shortest (x : ℚ) : ℕ × ℤ :=
  search x (Int.log 10 |x| + Nat.log 2 x.den).toNat 1

/-- `Number::toString` for a number with the digits of `decimal`, before it is
written down. -/
def numeral (negative : Bool) (decimal : ℕ × ℤ) : Numeral :=
  let digits := toDigits decimal.1
  let point : ℤ := decimal.2 + digits.length
  if digits.length ≤ point ∧ point ≤ 21 then
    ⟨negative, digits ++ List.replicate decimal.2.toNat 0, [], none⟩
  else if 0 < point ∧ point ≤ 21 then
    ⟨negative, digits.take point.toNat, digits.drop point.toNat, none⟩
  else if -6 < point ∧ point ≤ 0 then
    ⟨negative, [0], List.replicate (-point).toNat 0 ++ digits, none⟩
  else ⟨negative, digits.take 1, digits.drop 1, some (point - 1)⟩

def toNumeral (double : Double) : Numeral :=
  if double.value = 0 then ⟨false, [0], [], none⟩
  else numeral (decide (double.value < 0)) (shortest double.value)

/-! ## Texts -/

def digit (value : ℕ) : UInt16 := UInt16.ofNat (48 + value)

def digitValue (u : UInt16) : Option ℕ :=
  if 48 ≤ u.toNat ∧ u.toNat ≤ 57 then some (u.toNat - 48) else none

def printFrac (frac : List ℕ) : Text :=
  if frac = [] then [] else unit '.' :: frac.map digit

def printExp : Option ℤ → Text
  | none => []
  | some exp =>
      unit 'e' :: (if exp < 0 then unit '-' else unit '+') ::
        (toDigits exp.natAbs).map digit

def Numeral.print (numeral : Numeral) : Text :=
  (if numeral.negative then [unit '-'] else []) ++
    (numeral.int.map digit ++ (printFrac numeral.frac ++ printExp numeral.exp))

/-- The digits at the start of a text, and what follows them. -/
def takeDigits : Text → List ℕ × Text
  | [] => ([], [])
  | u :: rest =>
      match digitValue u with
      | some value =>
          let (digits, rest) := takeDigits rest
          (value :: digits, rest)
      | none => ([], u :: rest)

/-- A sign that may stand at the start of a text. -/
def takeSign (signs : List UInt16) : Text → Option UInt16 × Text
  | [] => (none, [])
  | u :: rest => if u ∈ signs then (some u, rest) else (none, u :: rest)

def parseFrac (text : Text) : Option (List ℕ × Text) :=
  match text with
  | u :: rest =>
      if u = unit '.' then
        match takeDigits rest with
        | ([], _) => none
        | (digits, rest) => some (digits, rest)
      else some ([], text)
  | [] => some ([], [])

def parseExp (text : Text) : Option (Option ℤ × Text) :=
  match text with
  | u :: rest =>
      if u = unit 'e' ∨ u = unit 'E' then
        let (sign, rest) := takeSign [unit '-', unit '+'] rest
        match takeDigits rest with
        | ([], _) => none
        | (digits, rest) =>
            let exp : ℤ := ofDigits digits
            some (some (if sign = some (unit '-') then -exp else exp), rest)
      else some (none, text)
  | [] => some (none, [])

/-- The numeral at the start of a text: an optional minus sign, an integer part
without leading zeros, an optional fraction and an optional exponent. -/
def parseNumeral (text : Text) : Option (Numeral × Text) :=
  let (sign, text) := takeSign [unit '-'] text
  let (int, text) := takeDigits text
  if int = [] ∨ (int.head? = some 0 ∧ int ≠ [0]) then none
  else
    (parseFrac text).bind fun (frac, text) =>
      (parseExp text).map fun (exp, text) =>
        (⟨sign.isSome, int, frac, exp⟩, text)

/-! ## The exact digits -/

/-- A double is an integer times a power of two. -/
theorem exists_zpow_of_nearest {x y : ℚ} (hnearest : nearest x = some y) :
    ∃ (m : ℤ) (e : ℤ), y = m * 2 ^ e := by
  unfold nearest at hnearest
  split at hnearest
  · cases hnearest
    exact ⟨0, 0, by simp⟩
  · simp only at hnearest
    split at hnearest
    · cases hnearest
      exact ⟨_, _, rfl⟩
    · cases hnearest

theorem exists_den_eq {x : ℚ} {m e : ℤ} (hx : x = m * 2 ^ e) :
    ∃ j, x.den = 2 ^ j := by
  rcases le_or_gt 0 e with he | he
  · obtain ⟨n, rfl⟩ := Int.eq_ofNat_of_zero_le he
    refine ⟨0, ?_⟩
    have hcast : x = ((m * 2 ^ n : ℤ) : ℚ) := by
      rw [hx]
      push_cast
      rw [zpow_natCast]
    rw [hcast, Rat.den_intCast, pow_zero]
  · obtain ⟨n, hn⟩ := Int.eq_ofNat_of_zero_le (by omega : 0 ≤ -e)
    have hcast : x = Rat.divInt m ((2 ^ n : ℕ) : ℤ) := by
      rw [hx, show e = -(n : ℤ) by omega, zpow_neg, zpow_natCast,
        Rat.divInt_eq_div]
      push_cast
      rw [div_eq_mul_inv]
    have hdvd : x.den ∣ 2 ^ n := by
      have hden := Rat.den_dvd m ((2 ^ n : ℕ) : ℤ)
      rw [← hcast] at hden
      exact Int.natCast_dvd_natCast.mp hden
    obtain ⟨j, -, hj⟩ := (Nat.dvd_prime_pow Nat.prime_two).mp hdvd
    exact ⟨j, hj⟩

/-- With as many decimals as its denominator has binary digits, a double is an
integer. -/
theorem exists_natCast_eq {x : ℚ} {m e : ℤ} (hx : x = m * 2 ^ e) :
    ∃ n : ℕ, |x| * 10 ^ Nat.log 2 x.den = n := by
  obtain ⟨j, hj⟩ := exists_den_eq hx
  have hlog : Nat.log 2 x.den = j := by
    rw [hj, Nat.log_pow one_lt_two]
  refine ⟨x.num.natAbs * 5 ^ j, ?_⟩
  have hpos : (x.den : ℚ) ≠ 0 := by
    exact_mod_cast x.den_nz
  have hvalue : |x| = x.num.natAbs / x.den := by
    conv_lhs => rw [← Rat.num_div_den x]
    rw [abs_div, Nat.abs_cast, ← Int.cast_abs, Int.abs_eq_natAbs, Int.cast_natCast]
  rw [hlog, hvalue, show (10 : ℚ) = 2 * 5 by norm_num, mul_pow]
  have hden : (x.den : ℚ) = 2 ^ j := by
    exact_mod_cast hj
  rw [hden] at hpos ⊢
  push_cast
  field_simp

theorem denotes_search {x : ℚ} {fuel count k : ℕ} (hle : count ≤ k)
    (hfuel : k ≤ count + fuel) (hdenotes : Denotes x (candidate |x| k)) :
    Denotes x (search x fuel count) := by
  induction fuel generalizing count with
  | zero =>
      obtain rfl : count = k := by omega
      exact hdenotes
  | succ fuel ih =>
      simp only [search]
      cases hfind : (candidates |x| count).find? (Denotes x ·) with
      | some decimal =>
          have hfound := List.find?_some hfind
          exact of_decide_eq_true hfound
      | none =>
          have hne : count ≠ k := by
            rintro rfl
            have hnot := List.find?_eq_none.mp hfind _ (List.mem_cons_self ..)
            exact hnot (decide_eq_true hdenotes)
          exact ih (by omega) (by omega)

theorem sign_mul_abs (x : ℚ) : sign x * |x| = x := by
  unfold sign
  split
  · rename_i hneg
    rw [abs_of_neg hneg]
    ring
  · rename_i hnonneg
    rw [abs_of_nonneg (not_lt.mp hnonneg)]
    ring

/-- The exact digits of a double round back to it. -/
theorem denotes_candidate {x : ℚ} (hx : x ≠ 0) (hnearest : nearest x = some x)
    {n : ℕ} (hn : |x| * 10 ^ Nat.log 2 x.den = n) {k : ℕ} (hk : 1 ≤ k)
    (hcount : (k : ℤ) = Int.log 10 |x| + 1 + Nat.log 2 x.den) :
    Denotes x (candidate |x| k) := by
  have hpos : 0 < |x| := abs_pos.mpr hx
  have hnpos : n ≠ 0 := by
    rintro rfl
    have : |x| * 10 ^ Nat.log 2 x.den = 0 := by simpa using hn
    have hten : (0 : ℚ) < 10 ^ Nat.log 2 x.den := by positivity
    nlinarith
  have hexp : Int.log 10 |x| + 1 - k = -(Nat.log 2 x.den : ℤ) := by omega
  have hdigits : roundHalfEven (|x| / 10 ^ (Int.log 10 |x| + 1 - k)) = n := by
    rw [hexp, zpow_neg, div_inv_eq_mul, zpow_natCast, hn]
    exact_mod_cast roundHalfEven_intCast (n : ℤ)
  have hvalue : sign x * n * 10 ^ (Int.log 10 |x| + 1 - k) = x := by
    rw [hexp, zpow_neg, zpow_natCast, ← hn]
    have hten : (10 : ℚ) ^ Nat.log 2 x.den ≠ 0 := by positivity
    conv_rhs => rw [← sign_mul_abs x]
    field_simp
  simp only [candidate, decimalOf, lastExponent, hdigits, Int.toNat_natCast]
  split
  · rename_i hcarry
    refine ⟨by positivity, ?_⟩
    have hsame : sign x * ((10 ^ (k - 1) : ℕ) : ℚ) *
        10 ^ (Int.log 10 |x| + 1 - (k : ℤ) + 1) = x := by
      conv_rhs => rw [← hvalue, hcarry]
      rw [zpow_add_one₀ (by norm_num)]
      push_cast
      conv_rhs => rw [show k = k - 1 + 1 by omega, pow_succ]
      have : ((k - 1 + 1 : ℕ) : ℤ) = k := by omega
      rw [this]
      ring
    simp only [hsame, hnearest]
  · exact ⟨hnpos, by simp only [hvalue, hnearest]⟩

theorem denotes_shortest {x : ℚ} (hx : x ≠ 0) (hnearest : nearest x = some x) :
    Denotes x (shortest x) := by
  obtain ⟨m, e, hdyadic⟩ := exists_zpow_of_nearest hnearest
  obtain ⟨n, hn⟩ := exists_natCast_eq hdyadic
  have hpos : 0 < |x| := abs_pos.mpr hx
  have hone : (10 : ℚ) ^ (-(Nat.log 2 x.den : ℤ)) ≤ |x| := by
    have hten : (0 : ℚ) < 10 ^ Nat.log 2 x.den := by positivity
    have hle : (1 : ℚ) ≤ n := by
      have : 0 < (n : ℚ) := by
        rw [← hn]
        positivity
      exact_mod_cast this
    rw [zpow_neg, zpow_natCast, inv_le_iff_one_le_mul₀ hten, hn]
    exact hle
  have hlog : -(Nat.log 2 x.den : ℤ) ≤ Int.log 10 |x| :=
    (Int.zpow_le_iff_le_log (by norm_num) hpos).mp (by exact_mod_cast hone)
  have hcount : ((Int.log 10 |x| + 1 + Nat.log 2 x.den).toNat : ℤ) =
      Int.log 10 |x| + 1 + Nat.log 2 x.den := by omega
  exact denotes_search (by omega) (by omega)
    (denotes_candidate hx hnearest hn (by omega) hcount)

/-! ## The value of a numeral -/

theorem ofDigits_append (left right : List ℕ) :
    ofDigits (left ++ right) =
      ofDigits left * 10 ^ right.length + ofDigits right := by
  simp only [ofDigits, List.reverse_append, Nat.ofDigits_append,
    List.length_reverse]
  ring

@[simp]
theorem ofDigits_replicate_zero (count : ℕ) :
    ofDigits (List.replicate count 0) = 0 := by
  simp [ofDigits, List.reverse_replicate]

@[simp]
theorem ofDigits_toDigits (number : ℕ) : ofDigits (toDigits number) = number := by
  simp [ofDigits, toDigits, Nat.ofDigits_digits]

theorem toDigits_lt {number value : ℕ} (hmem : value ∈ toDigits number) :
    value < 10 :=
  Nat.digits_lt_base (by norm_num) (List.mem_reverse.mp hmem)

theorem toDigits_ne_nil {number : ℕ} (hne : number ≠ 0) :
    toDigits number ≠ [] := by
  simpa [toDigits, Nat.digits_eq_nil_iff_eq_zero] using hne

theorem head?_toDigits_ne_zero (number : ℕ) :
    (toDigits number).head? ≠ some 0 := by
  by_cases hne : number = 0
  · simp [hne, toDigits]
  · have hnil : Nat.digits 10 number ≠ [] := by
      simpa [Nat.digits_eq_nil_iff_eq_zero] using hne
    rw [toDigits, List.head?_reverse, List.getLast?_eq_some_getLast hnil]
    simpa using Nat.getLast_digit_ne_zero 10 hne

theorem Numeral.value_eq {numeral : Numeral} {digits : ℕ} {exponent : ℤ}
    (hdigits : (ofDigits (numeral.int ++ numeral.frac) : ℚ) *
        10 ^ (numeral.exp.getD 0 - numeral.frac.length) =
      digits * 10 ^ exponent) :
    numeral.value =
      (if numeral.negative then -1 else 1) * digits * 10 ^ exponent := by
  rw [Numeral.value, mul_assoc, hdigits, mul_assoc]

/-- However it is laid out, a numeral has the value of its digits. -/
theorem value_numeral (negative : Bool) {digits : ℕ} (hne : digits ≠ 0)
    (exponent : ℤ) :
    (numeral negative (digits, exponent)).value =
      (if negative then -1 else 1) * digits * 10 ^ exponent := by
  have hsplit : ∀ count : ℕ, ofDigits ((toDigits digits).take count ++
      (toDigits digits).drop count) = digits := by
    simp [List.take_append_drop]
  by_cases hinteger : (toDigits digits).length ≤
      exponent + (toDigits digits).length ∧
        exponent + (toDigits digits).length ≤ 21
  · simp only [numeral, if_pos hinteger]
    obtain ⟨n, rfl⟩ := Int.eq_ofNat_of_zero_le (by omega : 0 ≤ exponent)
    exact Numeral.value_eq (by simp [ofDigits_append])
  by_cases hinside : 0 < exponent + (toDigits digits).length ∧
      exponent + (toDigits digits).length ≤ 21
  · simp only [numeral, if_neg hinteger, if_pos hinside]
    refine Numeral.value_eq ?_
    have hexponent : (none : Option ℤ).getD 0 - (((toDigits digits).drop
        (exponent + (toDigits digits).length).toNat).length : ℤ) = exponent := by
      simp only [Option.getD_none, List.length_drop]
      omega
    rw [hsplit, hexponent]
  by_cases hsmall : -6 < exponent + (toDigits digits).length ∧
      exponent + (toDigits digits).length ≤ 0
  · simp only [numeral, if_neg hinteger, if_neg hinside, if_pos hsmall]
    refine Numeral.value_eq ?_
    have hvalue : ofDigits ([0] ++ (List.replicate
        (-(exponent + (toDigits digits).length)).toNat 0 ++ toDigits digits)) =
          digits := by
      rw [ofDigits_append, ofDigits_append, ofDigits_replicate_zero,
        ofDigits_toDigits]
      simp [ofDigits]
    have hexponent : (none : Option ℤ).getD 0 - ((List.replicate
        (-(exponent + (toDigits digits).length)).toNat 0 ++
          toDigits digits).length : ℤ) = exponent := by
      simp only [Option.getD_none, List.length_append, List.length_replicate]
      omega
    rw [hvalue, hexponent]
  · simp only [numeral, if_neg hinteger, if_neg hinside, if_neg hsmall]
    refine Numeral.value_eq ?_
    have hexponent : (some (exponent + (toDigits digits).length - 1)).getD 0 -
        (((toDigits digits).drop 1).length : ℤ) = exponent := by
      have hlength := List.length_pos_of_ne_nil (toDigits_ne_nil hne)
      simp only [Option.getD_some, List.length_drop]
      omega
    rw [hsplit, hexponent]

theorem nearest_toNumeral (double : Double) :
    nearest double.toNumeral.value = some double.value := by
  unfold toNumeral
  split
  · rename_i hzero
    rw [hzero]
    decide +kernel
  · rename_i hne
    obtain ⟨hdigits, hdenotes⟩ := denotes_shortest hne double.rounded
    rw [value_numeral _ hdigits]
    simpa only [sign, decide_eq_true_eq] using hdenotes

/-! ## Printing and parsing -/

/-- The numerals that the grammar has: at least one digit in front, no leading
zeros, and no exponent of zero. -/
structure Numeral.WellFormed (numeral : Numeral) : Prop where
  int_ne_nil : numeral.int ≠ []
  int_lt : ∀ value ∈ numeral.int, value < 10
  int_head : numeral.int.head? = some 0 → numeral.int = [0]
  frac_lt : ∀ value ∈ numeral.frac, value < 10
  exp_ne_zero : numeral.exp ≠ some 0

/-- The text does not go on with a numeral. -/
def Delimited (text : Text) : Prop :=
  ∀ u, text.head? = some u → digitValue u = none ∧ u ≠ unit '.' ∧
    u ≠ unit 'e' ∧ u ≠ unit 'E'

theorem wellFormed_numeral (negative : Bool) {digits : ℕ} (hne : digits ≠ 0)
    (exponent : ℤ) : (numeral negative (digits, exponent)).WellFormed := by
  have hnil := toDigits_ne_nil hne
  have hlength := List.length_pos_of_ne_nil hnil
  have hlt : ∀ value ∈ toDigits digits, value < 10 := fun _ => toDigits_lt
  have hhead : ∀ {count : ℕ}, 0 < count →
      ((toDigits digits).take count).head? ≠ some 0 := by
    intro count hcount
    rw [List.head?_take, if_neg (by omega)]
    exact head?_toDigits_ne_zero digits
  have htake : ∀ {count : ℕ}, 0 < count → (toDigits digits).take count ≠ [] := by
    intro count hcount
    simp [hnil]
    omega
  unfold numeral
  simp only
  split
  · refine ⟨by simp [hnil], ?_, ?_, by simp, by simp⟩
    · intro value hmem
      rcases List.mem_append.mp hmem with hdigit | hzero
      · exact hlt value hdigit
      · rw [(List.mem_replicate.mp hzero).2]
        omega
    · rw [List.head?_append_of_ne_nil _ hnil]
      intro hzero
      exact absurd hzero (head?_toDigits_ne_zero digits)
  · split
    · rename_i hinside
      exact ⟨htake (by omega), fun value hmem => hlt value (List.mem_of_mem_take hmem),
        fun hzero => absurd hzero (hhead (by omega)),
        fun value hmem => hlt value (List.mem_of_mem_drop hmem), by simp⟩
    · split
      · refine ⟨by simp, by simp, by simp, ?_, by simp⟩
        intro value hmem
        rcases List.mem_append.mp hmem with hzero | hdigit
        · rw [(List.mem_replicate.mp hzero).2]
          omega
        · exact hlt value hdigit
      · rename_i hinteger hinside hsmall
        refine ⟨htake (by omega), fun value hmem => hlt value (List.mem_of_mem_take hmem),
          fun hzero => absurd hzero (hhead (by omega)),
          fun value hmem => hlt value (List.mem_of_mem_drop hmem), ?_⟩
        simp only [ne_eq, Option.some.injEq]
        omega

theorem wellFormed_toNumeral (double : Double) : double.toNumeral.WellFormed := by
  unfold toNumeral
  split
  · exact ⟨by simp, by simp, by simp, by simp, by simp⟩
  · rename_i hne
    exact wellFormed_numeral _ (denotes_shortest hne double.rounded).1 _

theorem digitValue_digit {value : ℕ} (hlt : value < 10) :
    digitValue (digit value) = some value := by
  interval_cases value <;> decide

theorem takeDigits_of_delimited {text : Text}
    (hnone : ∀ u, text.head? = some u → digitValue u = none) :
    takeDigits text = ([], text) := by
  cases text with
  | nil => rfl
  | cons u rest => simp [takeDigits, hnone u rfl]

theorem takeDigits_append {digits : List ℕ} {rest : Text}
    (hlt : ∀ value ∈ digits, value < 10)
    (hnone : ∀ u, rest.head? = some u → digitValue u = none) :
    takeDigits (digits.map digit ++ rest) = (digits, rest) := by
  induction digits with
  | nil => exact takeDigits_of_delimited hnone
  | cons value digits ih =>
      have htail := ih fun other hother => hlt other (List.mem_cons_of_mem _ hother)
      simp [takeDigits, digitValue_digit (hlt value (by simp)), htail]

/-- The exponent of a numeral is read back, whatever follows. -/
theorem parseExp_print {exp : Option ℤ} (hne : exp ≠ some 0) {rest : Text}
    (hdelimited : Delimited rest) :
    parseExp (printExp exp ++ rest) = some (exp, rest) := by
  cases exp with
  | none =>
      cases rest with
      | nil => rfl
      | cons u rest =>
          obtain ⟨-, -, he, hE⟩ := hdelimited u rfl
          simp [printExp, parseExp, he, hE]
  | some exp =>
      have hdigits : takeDigits ((toDigits exp.natAbs).map digit ++ rest) =
          (toDigits exp.natAbs, rest) :=
        takeDigits_append (fun _ => toDigits_lt) fun u hu => (hdelimited u hu).1
      have hnil : toDigits exp.natAbs ≠ [] :=
        toDigits_ne_nil (Int.natAbs_ne_zero.mpr fun hzero => hne (hzero ▸ rfl))
      obtain ⟨value, digits, hcons⟩ := List.exists_cons_of_ne_nil hnil
      have hvalue : ofDigits (value :: digits) = exp.natAbs := by
        rw [← hcons, ofDigits_toDigits]
      have hsign : ∀ u ∈ [unit '-', unit '+'], ∀ tail,
          takeSign [unit '-', unit '+'] (u :: tail) = (some u, tail) :=
        fun u hu tail => if_pos hu
      rw [hcons] at hdigits
      simp only [printExp, List.cons_append, parseExp, true_or, if_true, hcons]
      by_cases hneg : exp < 0
      · simp only [if_pos hneg, hsign (unit '-') (by simp), hdigits, hvalue,
          if_true, Option.some.injEq, Prod.mk.injEq, and_true]
        omega
      · have hplus : (some (unit '+') = some (unit '-')) = False := by decide
        simp only [if_neg hneg, hsign (unit '+') (by simp), hdigits, hvalue,
          hplus, if_false, Option.some.injEq, Prod.mk.injEq, and_true]
        omega

theorem digitValue_of_head_printExp {exp : Option ℤ} {rest : Text}
    (hdelimited : Delimited rest) {u : UInt16}
    (hhead : (printExp exp ++ rest).head? = some u) :
    digitValue u = none ∧ u ≠ unit '.' := by
  cases exp with
  | none =>
      obtain ⟨hdigit, hpoint, -⟩ := hdelimited u hhead
      exact ⟨hdigit, hpoint⟩
  | some exp =>
      obtain rfl : unit 'e' = u := by simpa [printExp] using hhead
      decide

theorem parseFrac_print {frac : List ℕ} {exp : Option ℤ} {rest : Text}
    (hlt : ∀ value ∈ frac, value < 10) (hdelimited : Delimited rest) :
    parseFrac (printFrac frac ++ (printExp exp ++ rest)) =
      some (frac, printExp exp ++ rest) := by
  have hhead : ∀ u, (printExp exp ++ rest).head? = some u →
      digitValue u = none ∧ u ≠ unit '.' :=
    fun _ => digitValue_of_head_printExp hdelimited
  cases frac with
  | nil =>
      simp only [printFrac, if_true, List.nil_append]
      cases htext : printExp exp ++ rest with
      | nil => rfl
      | cons u rest' =>
          have hpoint := (hhead u (by rw [htext]; rfl)).2
          simp [parseFrac, hpoint]
  | cons value frac =>
      have hdigits : takeDigits ((value :: frac).map digit ++
          (printExp exp ++ rest)) = (value :: frac, printExp exp ++ rest) :=
        takeDigits_append hlt fun u hu => (hhead u hu).1
      simp only [printFrac, if_neg (List.cons_ne_nil value frac), parseFrac,
        List.cons_append, if_true, hdigits]

/-- A numeral is read back, whatever follows it. -/
theorem parseNumeral_print {numeral : Numeral} (hwell : numeral.WellFormed)
    {rest : Text} (hdelimited : Delimited rest) :
    parseNumeral (numeral.print ++ rest) = some (numeral, rest) := by
  obtain ⟨negative, int, frac, exp⟩ := numeral
  have hexp := parseExp_print hwell.exp_ne_zero hdelimited
  have hfrac : parseFrac (printFrac frac ++ (printExp exp ++ rest)) =
      some (frac, printExp exp ++ rest) :=
    parseFrac_print hwell.frac_lt hdelimited
  have hnone : ∀ u, (printFrac frac ++ (printExp exp ++ rest)).head? = some u →
      digitValue u = none := by
    intro u hhead
    cases frac with
    | nil => exact (digitValue_of_head_printExp hdelimited hhead).1
    | cons value frac =>
        obtain rfl : unit '.' = u := by simpa [printFrac] using hhead
        decide
  have hint : takeDigits (int.map digit ++ (printFrac frac ++
      (printExp exp ++ rest))) = (int, printFrac frac ++ (printExp exp ++ rest)) :=
    takeDigits_append hwell.int_lt hnone
  have hshape : ¬ (int = [] ∨ int.head? = some 0 ∧ int ≠ [0]) := by
    rintro (hnil | ⟨hzero, hne⟩)
    · exact hwell.int_ne_nil hnil
    · exact hne (hwell.int_head hzero)
  have hsign : takeSign [unit '-'] (Numeral.print ⟨negative, int, frac, exp⟩ ++
      rest) = (if negative then some (unit '-') else none,
        int.map digit ++ (printFrac frac ++ (printExp exp ++ rest))) := by
    cases negative with
    | true => simp [Numeral.print, takeSign]
    | false =>
        obtain ⟨value, digits, rfl⟩ := List.exists_cons_of_ne_nil hwell.int_ne_nil
        have hminus : digit value ≠ unit '-' := by
          intro heq
          have hdigit := digitValue_digit (hwell.int_lt value (by simp))
          have hnone : digitValue (unit '-') = none := by decide
          rw [heq, hnone] at hdigit
          cases hdigit
        simp [Numeral.print, takeSign, hminus]
  simp only [parseNumeral, hsign, hint, if_neg hshape, hfrac, Option.bind_some,
    hexp, Option.map_some]
  cases negative <;> rfl

/-- `Number::toString`. -/
def toText (double : Double) : Text := double.toNumeral.print

/-- A text that starts as every number does. -/
def StartsNumber (u : UInt16) : Prop :=
  u = unit '-' ∨ ∃ value < 10, u = digit value

theorem exists_toText_eq_cons (double : Double) :
    ∃ u tail, double.toText = u :: tail ∧ StartsNumber u := by
  have hwell := wellFormed_toNumeral double
  obtain ⟨value, digits, hint⟩ := List.exists_cons_of_ne_nil hwell.int_ne_nil
  have hlt : value < 10 := hwell.int_lt value (by simp [hint])
  simp only [toText, Numeral.print, hint, List.map_cons, List.cons_append]
  cases double.toNumeral.negative with
  | true => exact ⟨_, _, rfl, .inl rfl⟩
  | false => exact ⟨_, _, rfl, .inr ⟨value, hlt, rfl⟩⟩

/-- The number at the start of a text: a double, or an infinity with its sign. -/
def parse (text : Text) : Option ((Double ⊕ Bool) × Text) :=
  (parseNumeral text).map fun (numeral, rest) =>
    match hnearest : nearest numeral.value with
    | some value => (.inl ⟨value, nearest_nearest hnearest⟩, rest)
    | none => (.inr numeral.negative, rest)

/-- A double is read back from its text, whatever follows it. -/
theorem parse_toText (double : Double) {rest : Text}
    (hdelimited : Delimited rest) :
    parse (double.toText ++ rest) = some (.inl double, rest) := by
  have hvalue := nearest_toNumeral double
  rw [parse, toText, parseNumeral_print (wellFormed_toNumeral double) hdelimited]
  simp only [Option.map_some, Option.some.injEq]
  split
  · rename_i value hnearest
    obtain rfl : double.value = value :=
      Option.some.inj (hvalue.symm.trans hnearest)
    rfl
  · rename_i hnone
    rw [hvalue] at hnone
    cases hnone

end Double
