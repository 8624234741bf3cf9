import OceanChat.Monkey.Framer

/-!
# The flags of a frame

The flags are one byte of the header.  They are set, cleared and tested with the bitwise
operators of JavaScript, which turn a number into 32 bits with a sign and back.
-/

namespace OceanChat.Monkey.MonkeyFlags

open ByteBuffer (Buffer)
open MonkeyFramer (frameWSMessage unframeWSMessage)

def none : ℤ := 0x00

/-- The receiver must send an acknowledgement. -/
def requireAck : ℤ := 0x01

def compressed : ℤ := 0x02

def encrypted : ℤ := 0x04

/-- The operand of a bitwise operator. -/
def toInt32 (value : ℤ) : BitVec 32 := BitVec.ofInt 32 value

def hasFlag (currentFlags flag : ℤ) : Bool :=
  decide ((toInt32 currentFlags &&& toInt32 flag).toInt = flag)

def setFlag (currentFlags flag : ℤ) : ℤ :=
  (toInt32 currentFlags ||| toInt32 flag).toInt

def clearFlag (currentFlags flag : ℤ) : ℤ :=
  (toInt32 currentFlags &&& ~~~toInt32 flag).toInt

/-! ## Bytes -/

def IsByte (flags : ℤ) : Prop := 0 ≤ flags ∧ flags < 256

/-- Bit `bit` of a flags byte. -/
def Has (flags : ℤ) (bit : ℕ) : Prop := (toInt32 flags).getLsbD bit = true

instance (flags : ℤ) (bit : ℕ) : Decidable (Has flags bit) :=
  inferInstanceAs (Decidable (_ = true))

section Bytes

variable {flags flag : ℤ} {bits : BitVec 32} {bit : ℕ}

theorem toInt32_toInt : toInt32 bits.toInt = bits := BitVec.ofInt_toInt

theorem toNat_toInt32 (hflags : IsByte flags) : (toInt32 flags).toNat = flags.toNat := by
  obtain ⟨hnonneg, hlt⟩ := hflags
  rw [toInt32, BitVec.toNat_ofInt]
  omega

theorem toInt_toInt32 (hflags : IsByte flags) : (toInt32 flags).toInt = flags := by
  have hnat := toNat_toInt32 hflags
  obtain ⟨hnonneg, hlt⟩ := hflags
  rw [BitVec.toInt_eq_toNat_of_lt (by omega), hnat]
  omega

theorem isByte_toInt (hbits : bits.toNat < 256) : IsByte bits.toInt := by
  rw [BitVec.toInt_eq_toNat_of_lt (by omega)]
  exact ⟨Int.natCast_nonneg _, by exact_mod_cast hbits⟩

theorem toNat_lt (hflags : IsByte flags) : (toInt32 flags).toNat < 256 := by
  rw [toNat_toInt32 hflags]
  exact (Int.toNat_lt hflags.1).mpr hflags.2

theorem isByte_setFlag (hflags : IsByte flags) (hflag : IsByte flag) :
    IsByte (setFlag flags flag) := by
  apply isByte_toInt
  rw [BitVec.toNat_or]
  exact Nat.or_lt_two_pow (n := 8) (toNat_lt hflags) (toNat_lt hflag)

theorem isByte_clearFlag (hflags : IsByte flags) : IsByte (clearFlag flags flag) := by
  apply isByte_toInt
  rw [BitVec.toNat_and]
  exact Nat.and_le_left.trans_lt (toNat_lt hflags)

theorem has_setFlag : Has (setFlag flags flag) bit ↔ Has flags bit ∨ Has flag bit := by
  simp only [Has, setFlag, toInt32_toInt, BitVec.getLsbD_or, Bool.or_eq_true]

theorem has_clearFlag :
    Has (clearFlag flags flag) bit ↔ Has flags bit ∧ ¬ Has flag bit := by
  simp only [Has, clearFlag, toInt32_toInt, BitVec.getLsbD_and, BitVec.getLsbD_not,
    Bool.and_eq_true, decide_eq_true_eq, Bool.not_eq_true', Bool.not_eq_true]
  constructor
  · rintro ⟨hflags, _, hflag⟩
    exact ⟨hflags, hflag⟩
  · rintro ⟨hflags, hflag⟩
    exact ⟨hflags, BitVec.lt_of_getLsbD hflags, hflag⟩

/-- A flag of several bits is there if all of them are. -/
theorem hasFlag_iff (hflag : IsByte flag) :
    hasFlag flags flag = true ↔ ∀ bit, Has flag bit → Has flags bit := by
  have hself := toInt_toInt32 hflag
  rw [hasFlag, decide_eq_true_eq]
  constructor
  · intro hall bit hbit
    have hbits : toInt32 flags &&& toInt32 flag = toInt32 flag := by
      apply BitVec.eq_of_toInt_eq
      rw [hall, hself]
    rw [Has, ← hbits, BitVec.getLsbD_and, Bool.and_eq_true] at hbit
    exact hbit.1
  · intro hall
    have hbits : toInt32 flags &&& toInt32 flag = toInt32 flag := by
      apply BitVec.eq_of_getLsbD_eq
      intro bit hbit
      rw [BitVec.getLsbD_and]
      cases hflagBit : (toInt32 flag).getLsbD bit with
      | false => exact Bool.and_false _
      | true => rw [hall bit hflagBit, Bool.and_true]
    rw [hbits, hself]

end Bytes

/-! ## Runs -/

inductive Change
  | set (flag : ℤ)
  | clear (flag : ℤ)

def Change.flag : Change → ℤ
  | set flag | clear flag => flag

def Change.apply (flags : ℤ) : Change → ℤ
  | set flag => setFlag flags flag
  | clear flag => clearFlag flags flag

def applyAll (flags : ℤ) (changes : List Change) : ℤ :=
  changes.foldl Change.apply flags

/-- The last change of this bit has set it; without one it is as it was. -/
def Raised (flags : ℤ) (changes : List Change) (bit : ℕ) : Prop :=
  (∃ before flag after, changes = before ++ .set flag :: after ∧ Has flag bit ∧
    ∀ change ∈ after, ¬ Has change.flag bit) ∨
  (Has flags bit ∧ ∀ change ∈ changes, ¬ Has change.flag bit)

section Runs

variable {flags : ℤ} {changes : List Change} {bit : ℕ}

theorem isByte_applyAll (hflags : IsByte flags)
    (hchanges : ∀ change ∈ changes, IsByte change.flag) :
    IsByte (applyAll flags changes) := by
  induction changes using List.reverseRecOn with
  | nil => exact hflags
  | append_singleton changes change ih =>
      have hbefore := ih fun other hother =>
        hchanges other (List.mem_append_left _ hother)
      have hlast := hchanges change (by simp)
      rw [applyAll, List.foldl_concat]
      cases change with
      | set flag => exact isByte_setFlag hbefore hlast
      | clear flag => exact isByte_clearFlag hbefore

theorem raised_concat (change : Change) :
    Raised flags (changes ++ [change]) bit ↔
      (∃ flag, change = .set flag ∧ Has flag bit) ∨
        (Raised flags changes bit ∧ ¬ Has change.flag bit) := by
  constructor
  · rintro (⟨before, flag, after, hsplit, hflag, hafter⟩ | ⟨hflags, hchanges⟩)
    · obtain rfl | ⟨after, last, rfl⟩ := List.eq_nil_or_concat' after
      · obtain ⟨rfl, hlast⟩ := List.append_inj' hsplit rfl
        exact .inl ⟨flag, List.singleton_inj.mp hlast, hflag⟩
      · rw [← List.cons_append, ← List.append_assoc] at hsplit
        obtain ⟨rfl, hlast⟩ := List.append_inj' hsplit rfl
        obtain rfl := List.singleton_inj.mp hlast
        refine .inr ⟨.inl ⟨before, flag, after, rfl, hflag, ?_⟩, hafter _ (by simp)⟩
        exact fun other hother => hafter other (List.mem_append_left _ hother)
    · refine .inr ⟨.inr ⟨hflags, ?_⟩, hchanges _ (by simp)⟩
      exact fun other hother => hchanges other (List.mem_append_left _ hother)
  · rintro (⟨flag, rfl, hflag⟩ | ⟨⟨before, flag, after, rfl, hflag, hafter⟩ |
      ⟨hflags, hchanges⟩, hlast⟩)
    · exact .inl ⟨changes, flag, [], rfl, hflag, List.forall_mem_nil _⟩
    · refine .inl ⟨before, flag, after ++ [change], by simp, hflag, ?_⟩
      simpa [or_imp, forall_and] using ⟨hafter, hlast⟩
    · refine .inr ⟨hflags, ?_⟩
      simpa [or_imp, forall_and] using ⟨hchanges, hlast⟩

theorem has_applyAll : Has (applyAll flags changes) bit ↔ Raised flags changes bit := by
  induction changes using List.reverseRecOn with
  | nil => simp [applyAll, Raised]
  | append_singleton changes change ih =>
      rw [raised_concat, ← ih, applyAll, List.foldl_concat, ← applyAll]
      cases change with
      | set flag =>
          rw [Change.apply, has_setFlag]
          simp only [Change.set.injEq, exists_eq_left', Change.flag]
          tauto
      | clear flag => simp [Change.apply, has_clearFlag, Change.flag]

end Runs

/-- Whether a header fits into its fields does not depend on the byte of the flags. -/
theorem fits_of_isByte {cmd flags other reqId length : ℤ} (hflags : IsByte flags)
    (hfits : HeaderInput.Fits ⟨⟨cmd, other, reqId⟩, length⟩) :
    HeaderInput.Fits ⟨⟨cmd, flags, reqId⟩, length⟩ where
  cmd := hfits.cmd
  flags := ⟨hflags.1, Int.le_of_lt_add_one hflags.2⟩
  reqId := hfits.reqId
  length := hfits.length

/-- However often flags are set and cleared before a frame is sent, they fit into their
byte, and the receiver of the frame finds a flag set exactly if the last change of each
of its bits has set it (or none has changed it and it was set at the start). -/
theorem hasFlag_of_frame {flags : ℤ} {changes : List Change} (hflags : IsByte flags)
    (hchanges : ∀ change ∈ changes, IsByte change.flag) (memory : ℕ → UInt8)
    (cmd reqId : ℤ) (payload : Buffer) :
    ((∃ error, frameWSMessage memory ⟨cmd, applyAll flags changes, reqId⟩ payload =
        .error error) ↔
      ∃ error, frameWSMessage memory ⟨cmd, flags, reqId⟩ payload = .error error) ∧
    ∀ frame, frameWSMessage memory ⟨cmd, applyAll flags changes, reqId⟩ payload =
        .ok frame →
      ∃ header, unframeWSMessage frame = .ok (header, payload) ∧
        ∀ flag, IsByte flag →
          (hasFlag header.flags flag = true ↔
            ∀ bit, Has flag bit → Raised flags changes bit) := by
  have hbyte := isByte_applyAll hflags hchanges
  constructor
  · rw [MonkeyFramer.frame_eq_error, MonkeyFramer.frame_eq_error, not_iff_not]
    exact ⟨fits_of_isByte hflags, fits_of_isByte hbyte⟩
  · intro frame hframe
    obtain ⟨-, hunframe⟩ := MonkeyFramer.unframe_of_frame hframe
    refine ⟨_, hunframe, fun flag hflag => ?_⟩
    rw [hasFlag_iff hflag]
    simp only [has_applyAll]

/-- A frame that is marked as compressed and then as encrypted instead. -/
theorem hasFlag_of_frame_encrypted :
    ∃ frame header, frameWSMessage (fun _ => 0)
        ⟨5, applyAll requireAck
          [.set compressed, .clear compressed, .set encrypted], 7⟩ [] = .ok frame ∧
      unframeWSMessage frame = .ok (header, []) ∧
      hasFlag header.flags encrypted = true := by
  have hchanges : ∀ change ∈ [Change.set compressed, .clear compressed, .set encrypted],
      IsByte change.flag := by
    simp [Change.flag, IsByte, compressed, encrypted]
  have hflags : IsByte requireAck := ⟨by decide, by decide⟩
  have hbit : ∀ bit < 32, Has encrypted bit → bit = 2 := by decide
  obtain ⟨header, hunframe, hhasFlag⟩ :=
    (hasFlag_of_frame hflags hchanges (fun _ => 0) 5 7 []).2 _ rfl
  refine ⟨_, header, rfl, hunframe, (hhasFlag encrypted ⟨by decide, by decide⟩).mpr ?_⟩
  intro bit hencrypted
  obtain rfl := hbit bit (BitVec.lt_of_getLsbD hencrypted) hencrypted
  exact .inl ⟨[.set compressed, .clear compressed], encrypted, [], rfl, hencrypted,
    List.forall_mem_nil _⟩

end OceanChat.Monkey.MonkeyFlags
