import Mathlib

/-!
# Byte buffers and big-endian integers

An unsigned integer of a fixed width is a big-endian byte string.  A buffer is
written and read at fixed offsets: a write is read back at its own place and is
invisible at every disjoint place, and adjacent reads join to one.
-/

namespace ByteBuffer

abbrev Buffer := List UInt8

/-! ## Big-endian integers -/

/-- The last `width` bytes of an integer, most significant byte first. -/
def encodeBE : ℕ → ℕ → Buffer
  | 0, _ => []
  | width + 1, value => UInt8.ofNat (value / 256 ^ width) :: encodeBE width value

def decodeBE : Buffer → ℕ
  | [] => 0
  | byte :: bytes => byte.toNat * 256 ^ bytes.length + decodeBE bytes

@[simp]
theorem length_encodeBE (width value : ℕ) : (encodeBE width value).length = width := by
  induction width with
  | zero => rfl
  | succ width ih => simp [encodeBE, ih]

theorem decodeBE_encodeBE (width value : ℕ) :
    decodeBE (encodeBE width value) = value % 256 ^ width := by
  induction width with
  | zero => simp [encodeBE, decodeBE, Nat.mod_one]
  | succ width ih =>
      rw [encodeBE, decodeBE, length_encodeBE, ih, Nat.mod_pow_succ,
        UInt8.toNat_ofNat']
      ring

theorem decodeBE_encodeBE_of_lt {width value : ℕ} (hlt : value < 256 ^ width) :
    decodeBE (encodeBE width value) = value := by
  rw [decodeBE_encodeBE, Nat.mod_eq_of_lt hlt]

theorem decodeBE_lt (bytes : Buffer) : decodeBE bytes < 256 ^ bytes.length := by
  induction bytes with
  | nil => simp [decodeBE]
  | cons byte bytes ih =>
      have hbyte : byte.toNat < 256 := byte.toNat_lt
      rw [decodeBE, List.length_cons, pow_succ]
      nlinarith

/-- Bytes above the width do not matter. -/
theorem encodeBE_mul_add (width high value : ℕ) :
    encodeBE width (high * 256 ^ width + value) = encodeBE width value := by
  induction width generalizing high with
  | zero => rfl
  | succ width ih =>
      have hpos : 0 < 256 ^ width := by positivity
      have hsplit : high * 256 ^ (width + 1) + value =
          (high * 256) * 256 ^ width + value := by ring
      have hbyte : (high * 256 * 256 ^ width + value) / 256 ^ width =
          value / 256 ^ width + high * 256 := by
        rw [add_comm, Nat.add_mul_div_right _ _ hpos]
      rw [encodeBE, encodeBE, hsplit, ih, hbyte]
      congr 1
      apply UInt8.toNat_inj.mp
      simp [UInt8.toNat_ofNat']

theorem encodeBE_decodeBE (bytes : Buffer) :
    encodeBE bytes.length (decodeBE bytes) = bytes := by
  induction bytes with
  | nil => rfl
  | cons byte bytes ih =>
      have hpos : 0 < 256 ^ bytes.length := by positivity
      have hhead : (byte.toNat * 256 ^ bytes.length + decodeBE bytes) /
          256 ^ bytes.length = byte.toNat := by
        rw [add_comm, Nat.add_mul_div_right _ _ hpos,
          Nat.div_eq_of_lt (decodeBE_lt bytes), Nat.zero_add]
      rw [List.length_cons, decodeBE, encodeBE, hhead, encodeBE_mul_add, ih,
        UInt8.ofNat_toNat]

/-! ## Reading and writing -/

/-- The bytes of a buffer from an offset on. -/
def slice (buffer : Buffer) (offset width : ℕ) : Buffer :=
  (buffer.drop offset).take width

/-- The bytes of a buffer from one offset to another. -/
def subarray (buffer : Buffer) (start stop : ℕ) : Buffer :=
  (buffer.take stop).drop start

/-- Overwrite the bytes of a buffer from an offset on. -/
def write (buffer : Buffer) (offset : ℕ) (bytes : Buffer) : Buffer :=
  buffer.take offset ++ bytes ++ buffer.drop (offset + bytes.length)

section Access

variable {buffer bytes : Buffer} {offset width : ℕ}

theorem length_write (hfits : offset + bytes.length ≤ buffer.length) :
    (write buffer offset bytes).length = buffer.length := by
  simp only [write, List.length_append, List.length_take, List.length_drop]
  omega

theorem length_slice (hfits : offset + width ≤ buffer.length) :
    (slice buffer offset width).length = width := by
  simp only [slice, List.length_take, List.length_drop]
  omega

theorem slice_write_same (hfits : offset ≤ buffer.length) :
    slice (write buffer offset bytes) offset bytes.length = bytes := by
  have htake : (buffer.take offset).length = offset := by simpa using hfits
  rw [slice, write, List.append_assoc, List.drop_append_of_le_length htake.ge,
    List.drop_of_length_le htake.le, List.nil_append, List.take_left]

theorem slice_write_encodeBE (hfits : offset ≤ buffer.length) (value : ℕ) :
    slice (write buffer offset (encodeBE width value)) offset width =
      encodeBE width value := by
  have hsame : slice (write buffer offset (encodeBE width value)) offset
      (encodeBE width value).length = encodeBE width value :=
    slice_write_same hfits
  rwa [length_encodeBE] at hsame

/-- A write is invisible before its offset. -/
theorem slice_write_of_le {other : ℕ} (hbefore : other + width ≤ offset)
    (hfits : offset ≤ buffer.length) :
    slice (write buffer offset bytes) other width = slice buffer other width := by
  have htake : (buffer.take offset).length = offset := by simpa using hfits
  have hdrop : (buffer.drop other).length = buffer.length - other := by simp
  rw [slice, slice, write, List.append_assoc,
    List.drop_append_of_le_length (by omega),
    List.take_append_of_le_length (by simp only [List.length_drop]; omega),
    List.drop_take, List.take_take, min_eq_left (by omega)]

theorem drop_write_of_ge {other : ℕ} (hafter : offset + bytes.length ≤ other)
    (hfits : offset ≤ buffer.length) :
    (write buffer offset bytes).drop other = buffer.drop other := by
  have hlength : (buffer.take offset ++ bytes).length =
      offset + bytes.length := by
    simp [hfits]
  rw [write, List.drop_append, hlength, List.drop_of_length_le (by omega),
    List.nil_append, List.drop_drop]
  congr 1
  omega

/-- A write is invisible after its end. -/
theorem slice_write_of_ge {other : ℕ} (hafter : offset + bytes.length ≤ other)
    (hfits : offset ≤ buffer.length) :
    slice (write buffer offset bytes) other width = slice buffer other width := by
  rw [slice, slice, drop_write_of_ge hafter hfits]

theorem slice_append_left {more : Buffer} (hfits : offset + width ≤ buffer.length) :
    slice (buffer ++ more) offset width = slice buffer offset width := by
  rw [slice, slice, List.drop_append_of_le_length (by omega),
    List.take_append_of_le_length (by simp only [List.length_drop]; omega)]

/-- Writing back what was read changes nothing. -/
theorem write_slice_same (hfits : offset + width ≤ buffer.length) :
    write buffer offset (slice buffer offset width) = buffer := by
  rw [write, length_slice hfits, slice, List.append_assoc, ← List.drop_drop,
    List.take_append_drop, List.take_append_drop]

theorem slice_slice {inner : ℕ} (hfits : offset + inner ≤ width) :
    slice (slice buffer 0 width) offset inner = slice buffer offset inner := by
  rw [slice, slice, slice, List.drop_zero, List.drop_take, List.take_take,
    min_eq_left (by omega)]

/-- Adjacent reads join. -/
theorem slice_add (buffer : Buffer) (offset width more : ℕ) :
    slice buffer offset (width + more) =
      slice buffer offset width ++ slice buffer (offset + width) more := by
  rw [slice, slice, slice, List.take_add, List.drop_drop]

theorem slice_zero_append_drop (buffer : Buffer) (width : ℕ) :
    slice buffer 0 width ++ buffer.drop width = buffer := by
  simp [slice]

/-- Two offsets cut a buffer into three parts. -/
theorem subarray_append_drop {start stop : ℕ} (horder : start ≤ stop) :
    subarray buffer 0 start ++ subarray buffer start stop ++ buffer.drop stop =
      buffer := by
  have hhead : subarray buffer 0 start = (buffer.take stop).take start := by
    rw [subarray, List.drop_zero, List.take_take, min_eq_left horder]
  rw [hhead, subarray, List.take_append_drop, List.take_append_drop]

theorem length_subarray {start stop : ℕ} (hfits : stop ≤ buffer.length) :
    (subarray buffer start stop).length = stop - start := by
  rw [subarray, List.length_drop, List.length_take, min_eq_left hfits]

theorem subarray_head (head middle tail : Buffer) :
    subarray (head ++ middle ++ tail) 0 head.length = head := by
  rw [subarray, List.drop_zero, List.append_assoc, List.take_left]

theorem subarray_middle (head middle tail : Buffer) :
    subarray (head ++ middle ++ tail) head.length (head ++ middle).length =
      middle := by
  rw [subarray, List.take_left, List.drop_left]

end Access

end ByteBuffer
