import OceanChat.Monkey.Header

/-!
# Framing of WebSocket messages

A frame is a header followed by its payload.  Framing and unframing are inverse
to each other, except that unframing accepts every protocol version.
-/

namespace OceanChat.Monkey

open ByteBuffer

namespace MonkeyFramer

def unframeWSMessage (buffer : Buffer) : Except CodecError (HeaderData × Buffer) :=
  if buffer.length < MonkeyHeader.size then
    .error (.error "Buffer too small to contain Monkey Header")
  else do
    let header ← MonkeyHeader.decode buffer
    if header.magic ≠ MonkeyHeader.magic then
      .error (.error "Invalid Magic Number")
    else if (buffer.length : ℤ) ≠ MonkeyHeader.size + header.length then
      .error (.error ("Payload length mismatch. Expected " ++
        toString header.length ++ ", got " ++
        toString ((buffer.length : ℤ) - MonkeyHeader.size)))
    else .ok (header, buffer.drop MonkeyHeader.size)

def frameWSMessage (memory : ℕ → UInt8) (headerData : FrameData)
    (payload : Buffer) : Except CodecError Buffer := do
  let headerBuffer ← MonkeyHeader.encode memory
    { headerData with length := payload.length }
  .ok (headerBuffer ++ payload)

/-- The fields of a buffer that is long enough. -/
def headerOf (buffer : Buffer) : HeaderData where
  magic := MonkeyHeader.readUIntBE buffer 0 2
  version := MonkeyHeader.readUIntBE buffer 2 1
  cmd := MonkeyHeader.readUIntBE buffer 3 1
  flags := MonkeyHeader.readUIntBE buffer 4 1
  reqId := MonkeyHeader.readUIntBE buffer 5 3
  length := MonkeyHeader.readUIntBE buffer 8 4

/-- What the framer accepts: a header with the magic number whose length field
counts the bytes after it. -/
structure Accepted (buffer : Buffer) : Prop where
  size_le : MonkeyHeader.size ≤ buffer.length
  magic : (headerOf buffer).magic = MonkeyHeader.magic
  length : (buffer.length : ℤ) = MonkeyHeader.size + (headerOf buffer).length

variable {memory : ℕ → UInt8} {buffer payload : Buffer} {header : HeaderData}
variable {headerData : FrameData}

theorem unframe_eq_ok : unframeWSMessage buffer = .ok (header, payload) ↔
    Accepted buffer ∧ headerOf buffer = header ∧
      buffer.drop MonkeyHeader.size = payload := by
  unfold unframeWSMessage
  split
  · rename_i hshort
    simp only [reduceCtorEq, false_iff]
    rintro ⟨⟨hsize, -, -⟩, -⟩
    omega
  · rename_i hlong
    have hdecode : MonkeyHeader.decode buffer = .ok (headerOf buffer) := by
      rw [MonkeyHeader.decode, if_neg hlong]
      rfl
    simp only [Checks.bind_eq_ok, hdecode, Except.ok.injEq, exists_eq_left']
    split
    · rename_i hmagic
      simp only [reduceCtorEq, false_iff]
      rintro ⟨⟨-, hsame, -⟩, -⟩
      exact hmagic hsame
    · rename_i hmagic
      split
      · rename_i hlength
        simp only [reduceCtorEq, false_iff]
        rintro ⟨⟨-, -, hsame⟩, -⟩
        exact hlength hsame
      · rename_i hlength
        simp only [Except.ok.injEq, Prod.mk.injEq, iff_and_self]
        rintro -
        exact ⟨not_lt.mp hlong, not_not.mp hmagic, not_not.mp hlength⟩

/-- A frame is a buffer whose first bytes hold the fields. -/
theorem frame_eq_ok : frameWSMessage memory headerData payload = .ok buffer ↔
    HeaderInput.Fits { headerData with length := payload.length } ∧
      ∃ head, MonkeyHeader.Encodes { headerData with length := payload.length }
        head ∧ head ++ payload = buffer := by
  simp only [frameWSMessage, Checks.bind_eq_ok, MonkeyHeader.encode_eq_ok,
    Except.ok.injEq]
  have hwrite : MonkeyHeader.Encodes { headerData with length := payload.length }
      (MonkeyHeader.writeFields (MonkeyHeader.allocUnsafe memory MonkeyHeader.size)
        { headerData with length := payload.length }) :=
    MonkeyHeader.encodes_writeFields (MonkeyHeader.length_allocUnsafe memory _)
  constructor
  · rintro ⟨head, ⟨hfits, rfl⟩, rfl⟩
    exact ⟨hfits, _, hwrite, rfl⟩
  · rintro ⟨hfits, head, hhead, rfl⟩
    exact ⟨_, ⟨hfits, rfl⟩, by rw [hwrite.unique hhead]⟩

/-- The framer throws exactly on values that do not fit their fields. -/
theorem frame_eq_error :
    (∃ error, frameWSMessage memory headerData payload = .error error) ↔
      ¬ HeaderInput.Fits { headerData with length := payload.length } := by
  cases hframe : frameWSMessage memory headerData payload with
  | ok buffer => simp [(frame_eq_ok.mp hframe).1]
  | error error =>
      simp only [Except.error.injEq, exists_eq', true_iff]
      intro hfits
      have hok : frameWSMessage memory headerData payload = .ok _ :=
        frame_eq_ok.mpr ⟨hfits, _, MonkeyHeader.encodes_writeFields
          (MonkeyHeader.length_allocUnsafe memory MonkeyHeader.size), rfl⟩
      rw [hframe] at hok
      cases hok

/-- The header of a frame is read back. -/
theorem headerOf_frame {data : HeaderInput} {head : Buffer} (hfits : data.Fits)
    (hhead : MonkeyHeader.Encodes data head) :
    headerOf (head ++ payload) =
      { data with magic := MonkeyHeader.magic
                  version := MonkeyHeader.version } := by
  have hslice : ∀ {offset width : ℕ} {value : ℤ},
      offset + width ≤ MonkeyHeader.size →
      slice head offset width = encodeBE width value.toNat →
      0 ≤ value → value < 256 ^ width →
        MonkeyHeader.readUIntBE (head ++ payload) offset width = value := by
    intro offset width value hwidth hbytes hnonneg hlt
    apply MonkeyHeader.readUIntBE_of_slice _ hnonneg hlt
    rw [slice_append_left (by rwa [hhead.length_eq]), hbytes]
  obtain ⟨hcmd, hflags, hreqId, hlength⟩ := hfits
  simp only [headerOf]
  rw [hslice (by decide) hhead.magic (by decide) (by decide),
    hslice (by decide) hhead.version (by decide) (by decide),
    hslice (by decide) hhead.cmd hcmd.1 (by omega),
    hslice (by decide) hhead.flags hflags.1 (by omega),
    hslice (by decide) hhead.reqId hreqId.1 (by omega),
    hslice (by decide) hhead.length hlength.1 (by omega)]

/-! ## Round trips -/

/-- A frame is twelve bytes longer than its payload and unframing returns what
was framed. -/
theorem unframe_of_frame
    (hframe : frameWSMessage memory headerData payload = .ok buffer) :
    buffer.length = 12 + payload.length ∧
      unframeWSMessage buffer = .ok
        ({ headerData with
            magic := 0x4d4b
            version := 1
            length := payload.length }, payload) := by
  obtain ⟨hfits, head, hhead, rfl⟩ := frame_eq_ok.mp hframe
  have hsize : head.length = 12 := hhead.length_eq
  have hheader : headerOf (head ++ payload) = _ := headerOf_frame hfits hhead
  refine ⟨by simp [hsize], unframe_eq_ok.mpr ⟨?_, hheader, ?_⟩⟩
  · constructor
    · simp [hsize, MonkeyHeader.size]
    · rw [hheader]
    · rw [hheader]
      simp [hsize, MonkeyHeader.size]
  · exact List.drop_left' hhead.length_eq

/-- Framing throws exactly outside the ranges of the fields; otherwise unframing
returns what was framed. -/
theorem unframe_frame (memory : ℕ → UInt8) (headerData : FrameData)
    (payload : Buffer) :
    ((∃ error, frameWSMessage memory headerData payload = .error error) ↔
      headerData.cmd < 0 ∨ 255 < headerData.cmd ∨
      headerData.flags < 0 ∨ 255 < headerData.flags ∨
      headerData.reqId < 0 ∨ 2 ^ 24 - 1 < headerData.reqId ∨
      2 ^ 32 - 1 < payload.length) ∧
    ∀ buffer, frameWSMessage memory headerData payload = .ok buffer →
      buffer.length = 12 + payload.length ∧
      unframeWSMessage buffer = .ok
        ({ headerData with
            magic := 0x4d4b
            version := 1
            length := payload.length }, payload) := by
  refine ⟨?_, fun buffer hframe => unframe_of_frame hframe⟩
  rw [frame_eq_error]
  constructor
  · intro hfits
    by_contra hinside
    apply hfits
    constructor <;> simp only <;> omega
  · rintro houtside ⟨hcmd, hflags, hreqId, hlength⟩
    simp only at hcmd hflags hreqId hlength
    omega

/-- Only the magic number, the payload length and the size are checked, so the
version byte may be overwritten. -/
theorem accepted_write_version :
    Accepted (write buffer 2 [1]) ↔ Accepted buffer := by
  by_cases hsize : 3 ≤ buffer.length
  · have hlength : (write buffer 2 [1]).length = buffer.length :=
      length_write hsize
    have hmagic : (headerOf (write buffer 2 [1])).magic =
        (headerOf buffer).magic := by
      simp only [headerOf, MonkeyHeader.readUIntBE]
      rw [slice_write_of_le (by decide) (by omega)]
    have hfield : (headerOf (write buffer 2 [1])).length =
        (headerOf buffer).length := by
      simp only [headerOf, MonkeyHeader.readUIntBE]
      rw [slice_write_of_ge (by decide) (by omega)]
    constructor
    · rintro ⟨hlong, hsame, hcount⟩
      rw [hlength] at hlong
      rw [hmagic] at hsame
      rw [hlength, hfield] at hcount
      exact ⟨hlong, hsame, hcount⟩
    · rintro ⟨hlong, hsame, hcount⟩
      exact ⟨by rwa [hlength], by rwa [hmagic], by rwa [hlength, hfield]⟩
  · have hshort : (write buffer 2 [1]).length < MonkeyHeader.size := by
      simp only [write, List.length_append, List.length_take, List.length_drop,
        List.length_cons, List.length_nil, MonkeyHeader.size]
      omega
    constructor
    · rintro ⟨hlong, -, -⟩
      omega
    · rintro ⟨hlong, -, -⟩
      simp only [MonkeyHeader.size] at hlong
      omega

/-- Framing the fields and the payload of an accepted buffer restores it with
the current version. -/
theorem frame_of_accepted (haccepted : Accepted buffer) :
    frameWSMessage memory (headerOf buffer).toFrameData
        (buffer.drop MonkeyHeader.size) = .ok (write buffer 2 [1]) := by
  have hsize : 12 ≤ buffer.length := haccepted.size_le
  have hpayload : ((buffer.drop MonkeyHeader.size).length : ℤ) =
      MonkeyHeader.readUIntBE buffer 8 4 := by
    have hcount := haccepted.length
    simp only [headerOf, MonkeyHeader.size] at hcount
    simp only [List.length_drop, MonkeyHeader.size]
    omega
  have hbounds : ∀ {offset width : ℕ}, offset + width ≤ 12 →
      0 ≤ MonkeyHeader.readUIntBE buffer offset width ∧
        MonkeyHeader.readUIntBE buffer offset width < 256 ^ width :=
    fun hfield => MonkeyHeader.readUIntBE_bounds (hfield.trans hsize)
  have hbefore : ∀ {offset width : ℕ}, offset + width ≤ 2 →
      slice (slice (write buffer 2 [1]) 0 12) offset width =
        encodeBE width (MonkeyHeader.readUIntBE buffer offset width).toNat := by
    intro offset width hfield
    rw [slice_slice (by omega), slice_write_of_le hfield (by omega),
      MonkeyHeader.slice_eq_encodeBE_readUIntBE (by omega)]
  have hafter : ∀ {offset width : ℕ}, 3 ≤ offset → offset + width ≤ 12 →
      slice (slice (write buffer 2 [1]) 0 12) offset width =
        encodeBE width (MonkeyHeader.readUIntBE buffer offset width).toNat := by
    intro offset width hstart hfield
    rw [slice_slice hfield, slice_write_of_ge hstart (by omega),
      MonkeyHeader.slice_eq_encodeBE_readUIntBE (by omega)]
  have hmagic : MonkeyHeader.readUIntBE buffer 0 2 = MonkeyHeader.magic :=
    haccepted.magic
  refine frame_eq_ok.mpr ⟨?_, slice (write buffer 2 [1]) 0 12, ?_, ?_⟩
  · have hcmd := hbounds (show 3 + 1 ≤ 12 by decide)
    have hflags := hbounds (show 4 + 1 ≤ 12 by decide)
    have hreqId := hbounds (show 5 + 3 ≤ 12 by decide)
    have hlength := hbounds (show 8 + 4 ≤ 12 by decide)
    constructor
    · simp only [headerOf]
      omega
    · simp only [headerOf]
      omega
    · simp only [headerOf]
      omega
    · simp only [hpayload]
      omega
  · constructor
    · exact length_slice (by rw [length_write (by simpa using hsize.trans' (by decide))]; omega)
    · rw [hbefore (by decide), hmagic]
    · rw [slice_slice (by decide)]
      exact slice_write_same (by omega)
    · exact hafter (by decide) (by decide)
    · exact hafter (by decide) (by decide)
    · exact hafter (by decide) (by decide)
    · simp only [hpayload]
      exact hafter (by decide) (by decide)
  · rw [MonkeyHeader.size, ← drop_write_of_ge (show 2 + [(1 : UInt8)].length ≤ 12 by decide)
      (by omega), slice_zero_append_drop]

/-- A buffer of another protocol version is accepted, but never framed. -/
theorem unframe_not_only_frames :
    ¬ ∀ buffer, (∃ result, unframeWSMessage buffer = .ok result) ↔
      ∃ memory headerData payload,
        frameWSMessage memory headerData payload = .ok buffer := by
  intro hclaim
  have hother : unframeWSMessage [0x4d, 0x4b, 2, 0, 0, 0, 0, 0, 0, 0, 0, 0] =
      .ok (⟨⟨⟨0, 0, 0⟩, 0⟩, 0x4d4b, 2⟩, []) := by decide
  obtain ⟨memory, headerData, payload, hframe⟩ := (hclaim _).mp ⟨_, hother⟩
  have hback := (unframe_of_frame hframe).2
  rw [hother] at hback
  simp at hback

/-- Unframing accepts exactly the frames up to their version byte, and framing
what it returns restores the buffer with the current version in that byte. -/
theorem unframe_iff_frame (memory : ℕ → UInt8) (buffer : Buffer) :
    ((∃ result, unframeWSMessage buffer = .ok result) ↔
      ∃ headerData payload, frameWSMessage memory headerData payload =
        .ok (write buffer 2 [1])) ∧
    ∀ header payload, unframeWSMessage buffer = .ok (header, payload) →
      frameWSMessage memory header.toFrameData payload =
        .ok (write buffer 2 [1]) ∧
      (frameWSMessage memory header.toFrameData payload = .ok buffer ↔
        header.version = 1) := by
  constructor
  · constructor
    · rintro ⟨⟨header, payload⟩, hunframe⟩
      obtain ⟨haccepted, -, -⟩ := unframe_eq_ok.mp hunframe
      exact ⟨_, _, frame_of_accepted haccepted⟩
    · rintro ⟨headerData, payload, hframe⟩
      obtain ⟨haccepted, -, -⟩ := unframe_eq_ok.mp (unframe_of_frame hframe).2
      exact ⟨_, unframe_eq_ok.mpr
        ⟨accepted_write_version.mp haccepted, rfl, rfl⟩⟩
  · intro header payload hunframe
    obtain ⟨haccepted, rfl, rfl⟩ := unframe_eq_ok.mp hunframe
    have hsize : 12 ≤ buffer.length := haccepted.size_le
    have hframe : frameWSMessage memory _ _ = .ok (write buffer 2 [1]) :=
      frame_of_accepted haccepted
    refine ⟨hframe, ?_⟩
    rw [hframe, Except.ok.injEq]
    constructor
    · intro hsame
      have hversion : slice buffer 2 1 = [1] := by
        rw [← hsame]
        exact slice_write_same (by omega)
      simp [headerOf, MonkeyHeader.readUIntBE, hversion, decodeBE]
    · intro hversion
      have hbyte : slice buffer 2 1 = [1] := by
        rw [MonkeyHeader.slice_eq_encodeBE_readUIntBE (by omega)]
        simp only [headerOf] at hversion
        rw [hversion]
        decide
      rw [← hbyte, write_slice_same (by omega)]

end MonkeyFramer

end OceanChat.Monkey
