import OceanChat.Core.ByteBuffer
import OceanChat.Core.Checks

/-!
# The Monkey protocol header

Six unsigned big-endian fields at fixed offsets of a twelve-byte buffer.  The
writes of the encoder tile the buffer, so nothing of the memory it was
allocated from is left in it.
-/

namespace OceanChat.Monkey

open ByteBuffer
open Checks (bind_eq_ok)

/-- What the caller of the framer passes. -/
structure FrameData where
  cmd : ℤ
  flags : ℤ
  reqId : ℤ
  deriving DecidableEq

structure HeaderInput extends FrameData where
  length : ℤ
  deriving DecidableEq

structure HeaderData extends HeaderInput where
  magic : ℤ
  version : ℤ
  deriving DecidableEq

/-- `outOfRange` is the `RangeError` of a write of the buffer, for a value that
is not between `0` and `max`. -/
inductive CodecError
  | outOfRange (max received : ℤ)
  | error (message : String)
  deriving DecidableEq

namespace MonkeyHeader

/-- Total fixed size of the header in bytes. -/
def size : ℕ := 12

/-- Protocol magic number. -/
def magic : ℤ := 0x4d4b

/-- Current protocol version. -/
def version : ℤ := 0x01

/-- `Buffer.allocUnsafe`: the bytes are whatever the memory holds. -/
def allocUnsafe (memory : ℕ → UInt8) (size : ℕ) : Buffer :=
  (List.range size).map memory

/-- `writeUInt8`, `writeUInt16BE`, `writeUIntBE` and `writeUInt32BE`. -/
def writeUIntBE (buffer : Buffer) (value : ℤ) (offset byteLength : ℕ) :
    Except CodecError Buffer :=
  if 0 ≤ value ∧ value < 256 ^ byteLength then
    .ok (write buffer offset (encodeBE byteLength value.toNat))
  else .error (.outOfRange (256 ^ byteLength - 1) value)

/-- `readUInt8`, `readUInt16BE`, `readUIntBE` and `readUInt32BE`. -/
def readUIntBE (buffer : Buffer) (offset byteLength : ℕ) : ℤ :=
  decodeBE (slice buffer offset byteLength)

def reqIdError (reqId : ℤ) : CodecError :=
  .error ("reqId out of bounds. Must be between 0 and 16777215, got " ++
    toString reqId)

def encode (memory : ℕ → UInt8) (data : HeaderInput) :
    Except CodecError Buffer := do
  let buffer := allocUnsafe memory size
  let buffer ← writeUIntBE buffer magic 0 2
  let buffer ← writeUIntBE buffer version 2 1
  let buffer ← writeUIntBE buffer data.cmd 3 1
  let buffer ← writeUIntBE buffer data.flags 4 1
  if data.reqId < 0 ∨ data.reqId > 0xffffff then .error (reqIdError data.reqId)
  else do
    let buffer ← writeUIntBE buffer data.reqId 5 3
    writeUIntBE buffer data.length 8 4

def decode (buffer : Buffer) : Except CodecError HeaderData :=
  if buffer.length < size then
    .error (.error ("Buffer too small. Expected at least " ++ toString size ++
      " bytes"))
  else .ok {
    magic := readUIntBE buffer 0 2
    version := readUIntBE buffer 2 1
    cmd := readUIntBE buffer 3 1
    flags := readUIntBE buffer 4 1
    reqId := readUIntBE buffer 5 3
    length := readUIntBE buffer 8 4 }

end MonkeyHeader

/-- The values that fit their fields. -/
structure HeaderInput.Fits (data : HeaderInput) : Prop where
  cmd : 0 ≤ data.cmd ∧ data.cmd ≤ 255
  flags : 0 ≤ data.flags ∧ data.flags ≤ 255
  reqId : 0 ≤ data.reqId ∧ data.reqId ≤ 2 ^ 24 - 1
  length : 0 ≤ data.length ∧ data.length ≤ 2 ^ 32 - 1

namespace MonkeyHeader

variable {memory : ℕ → UInt8} {buffer next : Buffer} {data : HeaderInput}
variable {value : ℤ} {offset byteLength : ℕ}

@[simp]
theorem length_allocUnsafe (memory : ℕ → UInt8) (size : ℕ) :
    (allocUnsafe memory size).length = size := by
  simp [allocUnsafe]

theorem writeUIntBE_eq_ok :
    writeUIntBE buffer value offset byteLength = .ok next ↔
      (0 ≤ value ∧ value < 256 ^ byteLength) ∧
        write buffer offset (encodeBE byteLength value.toNat) = next := by
  unfold writeUIntBE
  split
  · rename_i hfits
    simp [hfits]
  · rename_i hfits
    simp [hfits]

/-- A field that holds the bytes of a value is read as that value. -/
theorem readUIntBE_of_slice (hslice : slice buffer offset byteLength =
    encodeBE byteLength value.toNat) (hnonneg : 0 ≤ value)
    (hlt : value < 256 ^ byteLength) :
    readUIntBE buffer offset byteLength = value := by
  have hnat : value.toNat < 256 ^ byteLength := by
    rw [Int.toNat_lt hnonneg]
    exact_mod_cast hlt
  rw [readUIntBE, hslice, decodeBE_encodeBE_of_lt hnat, Int.toNat_of_nonneg hnonneg]

/-- A field holds the bytes of the value that is read from it. -/
theorem slice_eq_encodeBE_readUIntBE (hfits : offset + byteLength ≤ buffer.length) :
    slice buffer offset byteLength =
      encodeBE byteLength (readUIntBE buffer offset byteLength).toNat := by
  have hdecode := encodeBE_decodeBE (slice buffer offset byteLength)
  rw [length_slice hfits] at hdecode
  rw [readUIntBE, Int.toNat_natCast, hdecode]

theorem readUIntBE_bounds (hfits : offset + byteLength ≤ buffer.length) :
    0 ≤ readUIntBE buffer offset byteLength ∧
      readUIntBE buffer offset byteLength < 256 ^ byteLength := by
  have hlt := decodeBE_lt (slice buffer offset byteLength)
  rw [length_slice hfits] at hlt
  exact ⟨by simp [readUIntBE], by rw [readUIntBE]; exact_mod_cast hlt⟩

/-- A buffer that holds the six fields of a header. -/
structure Encodes (data : HeaderInput) (buffer : Buffer) : Prop where
  length_eq : buffer.length = size
  magic : slice buffer 0 2 = encodeBE 2 MonkeyHeader.magic.toNat
  version : slice buffer 2 1 = encodeBE 1 MonkeyHeader.version.toNat
  cmd : slice buffer 3 1 = encodeBE 1 data.cmd.toNat
  flags : slice buffer 4 1 = encodeBE 1 data.flags.toNat
  reqId : slice buffer 5 3 = encodeBE 3 data.reqId.toNat
  length : slice buffer 8 4 = encodeBE 4 data.length.toNat

/-- The fields tile the header. -/
theorem slice_size (buffer : Buffer) : slice buffer 0 size =
    slice buffer 0 2 ++ (slice buffer 2 1 ++ (slice buffer 3 1 ++
      (slice buffer 4 1 ++ (slice buffer 5 3 ++ slice buffer 8 4)))) := by
  rw [← slice_add buffer 5 3 4, ← slice_add buffer 4 1 7, ← slice_add buffer 3 1 8,
    ← slice_add buffer 2 1 9, ← slice_add buffer 0 2 10]
  rfl

theorem Encodes.unique (hbuffer : Encodes data buffer) (hnext : Encodes data next) :
    buffer = next := by
  have htile : ∀ other, Encodes data other → other = slice other 0 size := by
    intro other hother
    rw [slice, List.drop_zero, List.take_of_length_le hother.length_eq.le]
  rw [htile buffer hbuffer, htile next hnext, slice_size, slice_size,
    hbuffer.magic, hbuffer.version, hbuffer.cmd, hbuffer.flags, hbuffer.reqId,
    hbuffer.length, hnext.magic, hnext.version, hnext.cmd, hnext.flags,
    hnext.reqId, hnext.length]

/-- The six writes of the encoder, one after the other. -/
def writeFields (buffer : Buffer) (data : HeaderInput) : Buffer :=
  write (write (write (write (write (write buffer
    0 (encodeBE 2 MonkeyHeader.magic.toNat))
    2 (encodeBE 1 MonkeyHeader.version.toNat))
    3 (encodeBE 1 data.cmd.toNat))
    4 (encodeBE 1 data.flags.toNat))
    5 (encodeBE 3 data.reqId.toNat))
    8 (encodeBE 4 data.length.toNat)

/-- The encoder succeeds exactly on values that fit, and then its writes tile
the buffer. -/
theorem encode_eq_ok : encode memory data = .ok buffer ↔
    data.Fits ∧ writeFields (allocUnsafe memory size) data = buffer := by
  simp only [encode, bind_eq_ok, writeUIntBE_eq_ok, writeFields]
  constructor
  · rintro ⟨_, ⟨-, rfl⟩, _, ⟨-, rfl⟩, _, ⟨hcmd, rfl⟩, _, ⟨hflags, rfl⟩, hrest⟩
    split at hrest
    · cases hrest
    · simp only [bind_eq_ok, writeUIntBE_eq_ok] at hrest
      obtain ⟨_, ⟨hreqId, rfl⟩, hlength, rfl⟩ := hrest
      refine ⟨⟨?_, ?_, ?_, ?_⟩, rfl⟩ <;> omega
  · rintro ⟨hfits, rfl⟩
    obtain ⟨hcmd, hflags, hreqId, hlength⟩ := hfits
    refine ⟨_, ⟨by decide, rfl⟩, _, ⟨by decide, rfl⟩, _, ⟨by omega, rfl⟩, _,
      ⟨by omega, rfl⟩, ?_⟩
    rw [if_neg (by omega)]
    simp only [bind_eq_ok, writeUIntBE_eq_ok]
    exact ⟨_, ⟨by omega, rfl⟩, by omega, rfl⟩

theorem encodes_writeFields (hsize : buffer.length = size) :
    Encodes data (writeFields buffer data) := by
  have hwrite : ∀ {before : Buffer} (offset width value : ℕ),
      before.length = size → offset + width ≤ size →
        (write before offset (encodeBE width value)).length = size := by
    intro before offset width value hbefore hfits
    rw [length_write (by rwa [length_encodeBE, hbefore]), hbefore]
  have hmagic := hwrite 0 2 MonkeyHeader.magic.toNat hsize (by decide)
  have hversion := hwrite 2 1 MonkeyHeader.version.toNat hmagic (by decide)
  have hcmd := hwrite 3 1 data.cmd.toNat hversion (by decide)
  have hflags := hwrite 4 1 data.flags.toNat hcmd (by decide)
  have hreqId := hwrite 5 3 data.reqId.toNat hflags (by decide)
  have hfits : ∀ {before : Buffer} {offset : ℕ}, before.length = size →
      offset ≤ size → offset ≤ before.length := by
    intro before offset hbefore hoffset
    rwa [hbefore]
  constructor
  · exact hwrite 8 4 data.length.toNat hreqId (by decide)
  · rw [writeFields, slice_write_of_le (by decide) (hfits hreqId (by decide)),
      slice_write_of_le (by decide) (hfits hflags (by decide)),
      slice_write_of_le (by decide) (hfits hcmd (by decide)),
      slice_write_of_le (by decide) (hfits hversion (by decide)),
      slice_write_of_le (by decide) (hfits hmagic (by decide)),
      slice_write_encodeBE (hfits hsize (by decide))]
  · rw [writeFields, slice_write_of_le (by decide) (hfits hreqId (by decide)),
      slice_write_of_le (by decide) (hfits hflags (by decide)),
      slice_write_of_le (by decide) (hfits hcmd (by decide)),
      slice_write_of_le (by decide) (hfits hversion (by decide)),
      slice_write_encodeBE (hfits hmagic (by decide))]
  · rw [writeFields, slice_write_of_le (by decide) (hfits hreqId (by decide)),
      slice_write_of_le (by decide) (hfits hflags (by decide)),
      slice_write_of_le (by decide) (hfits hcmd (by decide)),
      slice_write_encodeBE (hfits hversion (by decide))]
  · rw [writeFields, slice_write_of_le (by decide) (hfits hreqId (by decide)),
      slice_write_of_le (by decide) (hfits hflags (by decide)),
      slice_write_encodeBE (hfits hcmd (by decide))]
  · rw [writeFields, slice_write_of_le (by decide) (hfits hreqId (by decide)),
      slice_write_encodeBE (hfits hflags (by decide))]
  · rw [writeFields, slice_write_encodeBE (hfits hreqId (by decide))]

end MonkeyHeader

end OceanChat.Monkey
