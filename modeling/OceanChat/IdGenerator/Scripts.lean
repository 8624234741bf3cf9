import OceanChat.Core.Decimal
import OceanChat.Core.SegmentPool

/-!
# The sequence scripts

The two Lua scripts of the identifier generator work on the Redis hash
`seq:key`, whose fields hold decimal strings.  On a hash that encodes a cursor
of a segment pool they act as the pool's draw and offer.
-/

namespace OceanChat.IdGenerator

open SegmentPool

/-- Step size for sequence segment allocation. -/
def segmentStep : ℕ := 1000

def maxInt64 : ℕ := 2 ^ 63 - 1

/-- The hash `seq:key`; both fields are absent when the key does not exist. -/
structure SeqHash where
  max : Option String
  cur : Option String
  deriving DecidableEq

def SeqHash.empty : SeqHash := ⟨none, none⟩

/-- The comparison helper of `GENERATE_SEQ_LUA`. -/
def isGreaterOrEqual (a b : String) : Bool :=
  if a.length ≠ b.length then decide (a.length > b.length) else !decide (a < b)

/-- The comparison helper of `SYNC_SEGMENT_LUA`; `b` is absent when the hash
has no `max`. -/
def isGreater (a : String) : Option String → Bool
  | none => true
  | some b =>
      if a.length ≠ b.length then decide (a.length > b.length)
      else decide (b < a)

/-- `HINCRBY key cur 1`: an error on a value that is not an integer or would
leave the 64-bit range. -/
def hincrby (value : String) : Option String :=
  (Decimal.parse value).bind fun number =>
    if number + 1 ≤ maxInt64 then some (number + 1).repr else none

/-- `GENERATE_SEQ_LUA`: the new hash and the reply, or `none` when a command of
the script fails. -/
def generateSeqLua (hash : SeqHash) : Option (SeqHash × Option String) :=
  match hash.max with
  | none => some (hash, none)
  | some maxStr =>
      match hash.cur with
      | none => some (hash, none)
      | some curStr =>
          if isGreaterOrEqual curStr maxStr then some (hash, none)
          else (hincrby curStr).map fun next =>
            ({ hash with cur := some next }, some next)

/-- `SYNC_SEGMENT_LUA`: the new hash and whether the segment was installed. -/
def syncSegmentLua (hash : SeqHash) (newMax newCur : String) : SeqHash × Bool :=
  if isGreater newMax hash.max then (⟨some newMax, some newCur⟩, true)
  else (hash, false)

/-! ## Comparison of canonical decimals -/

theorem isGreaterOrEqual_repr (left right : ℕ) :
    isGreaterOrEqual left.repr right.repr = decide (right ≤ left) := by
  unfold isGreaterOrEqual
  split
  · rename_i hlength
    apply decide_eq_decide.mpr
    constructor
    · intro hlt
      exact (Decimal.shortlex_iff.mp (Or.inl hlt)).le
    · intro hle
      exact lt_of_le_of_ne (Decimal.length_repr_le_of_le hle) (Ne.symm hlength)
  · rename_i hlength
    have hlt := Decimal.repr_lt_iff_of_length_eq (not_not.mp hlength)
    simp only [hlt, ← decide_not, not_lt]

theorem isGreater_repr (left right : ℕ) :
    isGreater left.repr (some right.repr) = decide (right < left) := by
  simp only [isGreater]
  split
  · rename_i hlength
    apply decide_eq_decide.mpr
    constructor
    · intro hlt
      exact Decimal.shortlex_iff.mp (Or.inl hlt)
    · intro hlt
      exact lt_of_le_of_ne (Decimal.length_repr_le_of_le hlt.le)
        (Ne.symm hlength)
  · rename_i hlength
    exact decide_eq_decide.mpr
      (Decimal.repr_lt_iff_of_length_eq (not_not.mp hlength).symm)

/-! ## The scripts on an encoded cursor -/

/-- The upper limit of a segment, the `max` that `allocateSegment` answers. -/
def segmentMax (index : ℕ) : ℕ := (index + 1) * segmentStep

/-- The hash that holds a cursor, and the missing hash. -/
def SeqHash.ofCursor : Option Cursor → SeqHash
  | none => SeqHash.empty
  | some cursor =>
      ⟨some (segmentMax cursor.index).repr,
        some (cursor.value segmentStep).repr⟩

theorem generateSeqLua_empty :
    generateSeqLua (SeqHash.ofCursor none) =
      some (SeqHash.ofCursor none, none) := rfl

theorem generateSeqLua_usedUp {cursor : Cursor}
    (husedUp : ¬ cursor.offset + 1 < segmentStep) :
    generateSeqLua (SeqHash.ofCursor (some cursor)) =
      some (SeqHash.ofCursor (some cursor), none) := by
  have hle : segmentMax cursor.index ≤ cursor.value segmentStep := by
    simp only [segmentMax, Cursor.value, segmentStep] at husedUp ⊢
    omega
  simp [generateSeqLua, SeqHash.ofCursor, isGreaterOrEqual_repr, hle]

/-- Inside a segment the script draws the next number. -/
theorem generateSeqLua_room {cursor : Cursor}
    (hroom : cursor.offset + 1 < segmentStep)
    (hbound : segmentMax cursor.index ≤ maxInt64) :
    generateSeqLua (SeqHash.ofCursor (some cursor)) =
      some (SeqHash.ofCursor (some ⟨cursor.index, cursor.offset + 1⟩),
        some (Cursor.value segmentStep
          ⟨cursor.index, cursor.offset + 1⟩).repr) := by
  have hlt : ¬ segmentMax cursor.index ≤ cursor.value segmentStep := by
    simp only [segmentMax, Cursor.value, segmentStep] at hroom ⊢
    omega
  have hfits : cursor.value segmentStep < maxInt64 := by omega
  have hnext : cursor.value segmentStep + 1 =
      Cursor.value segmentStep ⟨cursor.index, cursor.offset + 1⟩ := by
    simp only [Cursor.value]
    omega
  simp [generateSeqLua, SeqHash.ofCursor, isGreaterOrEqual_repr, hlt, hincrby,
    hfits, hnext]

/-- On an encoded cursor the script installs exactly the newer segments. -/
theorem syncSegmentLua_ofCursor (active : Option Cursor) (index : ℕ) :
    syncSegmentLua (SeqHash.ofCursor active) (segmentMax index).repr
        (segmentMax index - segmentStep + 1).repr =
      if newer index active then
        (SeqHash.ofCursor (some ⟨index, 0⟩), true)
      else (SeqHash.ofCursor active, false) := by
  have hfirst : segmentMax index - segmentStep + 1 =
      Cursor.value segmentStep ⟨index, 0⟩ := by
    simp only [segmentMax, Cursor.value, segmentStep]
    omega
  cases active with
  | none => simp [syncSegmentLua, SeqHash.ofCursor, SeqHash.empty, isGreater,
      newer, hfirst]
  | some cursor =>
      have hnewer : segmentMax cursor.index < segmentMax index ↔
          cursor.index < index := by
        simp only [segmentMax, segmentStep]
        omega
      simp [syncSegmentLua, SeqHash.ofCursor, isGreater_repr, newer, hfirst,
        hnewer]

end OceanChat.IdGenerator
