import OceanChat.Core.Runs

/-!
# Segment allocation

Numbers are handed out from segments of a fixed size.  A client allocates the
next segment from a durable counter, offers it to a volatile register that
keeps only the newest segment, and everybody draws from the register.  The
register may be lost and a client may vanish with its segment.  The module
proves, for every size and every run, that no number is issued twice, when the
numbers come out in order, and exactly when none is skipped.
-/

namespace SegmentPool

variable {Client : Type*}

/-- The last number drawn from a segment: `offset` counts from the segment's
first number. -/
structure Cursor where
  index : ℕ
  offset : ℕ
  deriving DecidableEq

def Cursor.value (size : ℕ) (cursor : Cursor) : ℕ :=
  cursor.index * size + cursor.offset + 1

/-- `allocated` is the durable counter, `active` the volatile register.  The
lists record what was issued and which segments were installed, in order. -/
structure Pool (Client : Type*) where
  allocated : ℕ
  held : Client → Option ℕ
  active : Option Cursor
  issued : List (Client × ℕ)
  installed : List ℕ

def Pool.initial : Pool Client := ⟨0, fun _ => none, none, [], []⟩

inductive Action (Client : Type*)
  | allocate (client : Client)
  | offer (client : Client)
  | draw (client : Client)
  | drop (client : Client)
  | lose

/-- Whether a segment is newer than the one in the register. -/
def newer (index : ℕ) : Option Cursor → Bool
  | none => true
  | some cursor => decide (cursor.index < index)

section Step

variable [DecidableEq Client] (size : ℕ)

def Pool.allocate (pool : Pool Client) (client : Client) : Pool Client :=
  { pool with
    allocated := pool.allocated + 1
    held := Function.update pool.held client (some pool.allocated) }

def Pool.drop (pool : Pool Client) (client : Client) : Pool Client :=
  { pool with held := Function.update pool.held client none }

def Pool.install (pool : Pool Client) (client : Client) (index : ℕ) :
    Pool Client :=
  { pool with
    held := Function.update pool.held client none
    active := some ⟨index, 0⟩
    issued := pool.issued ++ [(client, Cursor.value size ⟨index, 0⟩)]
    installed := pool.installed ++ [index] }

def Pool.advance (pool : Pool Client) (client : Client) (cursor : Cursor) :
    Pool Client :=
  { pool with
    active := some ⟨cursor.index, cursor.offset + 1⟩
    issued := pool.issued ++
      [(client, Cursor.value size ⟨cursor.index, cursor.offset + 1⟩)] }

def Pool.lose (pool : Pool Client) : Pool Client := { pool with active := none }

def step (pool : Pool Client) : Action Client → Option (Pool Client)
  | .allocate client =>
      if pool.held client = none then some (pool.allocate client) else none
  | .offer client =>
      match pool.held client with
      | none => none
      | some index =>
          if newer index pool.active then some (pool.install size client index)
          else some (pool.drop client)
  | .draw client =>
      match pool.active with
      | none => none
      | some cursor =>
          if cursor.offset + 1 < size then some (pool.advance size client cursor)
          else none
  | .drop client => some (pool.drop client)
  | .lose => some pool.lose

/-- Everything one step can do. -/
inductive Effect (pool : Pool Client) : Action Client → Pool Client → Prop
  | allocate (client : Client) (hfree : pool.held client = none) :
      Effect pool (.allocate client) (pool.allocate client)
  | install (client : Client) (index : ℕ) (hheld : pool.held client = some index)
      (hnewer : newer index pool.active = true) :
      Effect pool (.offer client) (pool.install size client index)
  | discard (client : Client) (index : ℕ) (hheld : pool.held client = some index)
      (holder : newer index pool.active = false) :
      Effect pool (.offer client) (pool.drop client)
  | advance (client : Client) (cursor : Cursor)
      (hactive : pool.active = some cursor) (hroom : cursor.offset + 1 < size) :
      Effect pool (.draw client) (pool.advance size client cursor)
  | drop (client : Client) : Effect pool (.drop client) (pool.drop client)
  | lose : Effect pool .lose pool.lose

theorem step_effect {pool next : Pool Client} {action : Action Client}
    (hstep : step size pool action = some next) :
    Effect size pool action next := by
  cases action with
  | allocate client =>
      simp only [step] at hstep
      split at hstep
      · rename_i hfree
        cases hstep
        exact .allocate client hfree
      · cases hstep
  | offer client =>
      simp only [step] at hstep
      split at hstep
      · cases hstep
      · rename_i index hheld
        split at hstep
        · rename_i hnewer
          cases hstep
          exact .install client index hheld hnewer
        · rename_i holder
          cases hstep
          exact .discard client index hheld (by simpa using holder)
  | draw client =>
      simp only [step] at hstep
      split at hstep
      · cases hstep
      · rename_i cursor hactive
        split at hstep
        · rename_i hroom
          cases hstep
          exact .advance client cursor hactive hroom
        · cases hstep
  | drop client =>
      cases hstep
      exact .drop client
  | lose =>
      cases hstep
      exact .lose

end Step

/-! ## Cursors -/

section Cursors

variable {size : ℕ}

theorem Cursor.value_lt_of_index_lt {left right : Cursor}
    (hleft : left.offset < size) (hindex : left.index < right.index) :
    left.value size < right.value size := by
  have hmul : (left.index + 1) * size ≤ right.index * size :=
    Nat.mul_le_mul_right size hindex
  simp only [Cursor.value]
  rw [Nat.succ_mul] at hmul
  omega

theorem Cursor.value_injective {left right : Cursor}
    (hleft : left.offset < size) (hright : right.offset < size)
    (heq : left.value size = right.value size) : left = right := by
  rcases lt_trichotomy left.index right.index with hlt | hindex | hlt
  · exact absurd heq (value_lt_of_index_lt hleft hlt).ne
  · cases left
    cases right
    simp only [Cursor.value] at heq hindex ⊢
    subst hindex
    congr 1
    omega
  · exact absurd heq (value_lt_of_index_lt hright hlt).ne'

end Cursors

/-! ## The invariant -/

/-- The values of the issued numbers, in the order they were issued. -/
def Pool.values (pool : Pool Client) : List ℕ := pool.issued.map Prod.snd

structure Valid (size : ℕ) (pool : Pool Client) : Prop where
  held_lt : ∀ client index, pool.held client = some index →
    index < pool.allocated
  held_injective : ∀ left right index, pool.held left = some index →
    pool.held right = some index → left = right
  installed_lt : ∀ index ∈ pool.installed, index < pool.allocated
  installed_not_held : ∀ index ∈ pool.installed, ∀ client,
    pool.held client ≠ some index
  active_offset : ∀ cursor, pool.active = some cursor → cursor.offset < size
  active_last : ∀ cursor, pool.active = some cursor →
    pool.installed.getLast? = some cursor.index
  values_drawn : ∀ value ∈ pool.values, ∃ cursor : Cursor,
    value = cursor.value size ∧ cursor.offset < size ∧
      cursor.index ∈ pool.installed ∧
      ∀ current, pool.active = some current → current.index = cursor.index →
        cursor.offset ≤ current.offset
  values_nodup : pool.values.Nodup

namespace Valid

variable {size : ℕ} {pool : Pool Client}

theorem initial : Valid size (Pool.initial : Pool Client) := by
  constructor <;> simp [Pool.initial, Pool.values]

theorem active_mem (hvalid : Valid size pool) {cursor : Cursor}
    (hactive : pool.active = some cursor) : cursor.index ∈ pool.installed :=
  List.mem_of_getLast? (hvalid.active_last cursor hactive)

theorem lose (hvalid : Valid size pool) : Valid size pool.lose where
  held_lt := hvalid.held_lt
  held_injective := hvalid.held_injective
  installed_lt := hvalid.installed_lt
  installed_not_held := hvalid.installed_not_held
  active_offset cursor hactive := by simp [Pool.lose] at hactive
  active_last cursor hactive := by simp [Pool.lose] at hactive
  values_drawn value hvalue := by
    obtain ⟨cursor, hcursor, hoffset, hindex, -⟩ :=
      hvalid.values_drawn value hvalue
    exact ⟨cursor, hcursor, hoffset, hindex, by simp [Pool.lose]⟩
  values_nodup := hvalid.values_nodup

variable [DecidableEq Client]

theorem allocate (hvalid : Valid size pool) (client : Client) :
    Valid size (pool.allocate client) where
  held_lt other index hheld := by
    by_cases hclient : other = client
    · subst hclient
      obtain rfl : pool.allocated = index := by simpa [Pool.allocate] using hheld
      simp [Pool.allocate]
    · have := hvalid.held_lt other index
        (by simpa [Pool.allocate, hclient] using hheld)
      simp only [Pool.allocate]
      omega
  held_injective left right index hleft hright := by
    have hfresh : ∀ other, other ≠ client →
        pool.held other ≠ some pool.allocated := fun other _ hheld =>
      absurd (hvalid.held_lt other _ hheld) (lt_irrefl _)
    by_cases hl : left = client <;> by_cases hr : right = client
    · rw [hl, hr]
    · subst hl
      obtain rfl : pool.allocated = index := by simpa [Pool.allocate] using hleft
      exact absurd (by simpa [Pool.allocate, hr] using hright) (hfresh right hr)
    · subst hr
      obtain rfl : pool.allocated = index := by simpa [Pool.allocate] using hright
      exact absurd (by simpa [Pool.allocate, hl] using hleft) (hfresh left hl)
    · exact hvalid.held_injective left right index
        (by simpa [Pool.allocate, hl] using hleft)
        (by simpa [Pool.allocate, hr] using hright)
  installed_lt index hindex := (hvalid.installed_lt index hindex).trans
    (Nat.lt_succ_self _)
  installed_not_held index hindex other hheld := by
    by_cases hclient : other = client
    · subst hclient
      obtain rfl : pool.allocated = index := by simpa [Pool.allocate] using hheld
      exact absurd (hvalid.installed_lt _ hindex) (lt_irrefl _)
    · exact hvalid.installed_not_held index hindex other
        (by simpa [Pool.allocate, hclient] using hheld)
  active_offset := hvalid.active_offset
  active_last := hvalid.active_last
  values_drawn := hvalid.values_drawn
  values_nodup := hvalid.values_nodup

theorem drop (hvalid : Valid size pool) (client : Client) :
    Valid size (pool.drop client) := by
  have hsub : ∀ other index, (pool.drop client).held other = some index →
      pool.held other = some index := by
    intro other index hheld
    by_cases hclient : other = client
    · subst hclient
      simp [Pool.drop] at hheld
    · simpa [Pool.drop, hclient] using hheld
  exact
    { held_lt := fun other index hheld =>
        hvalid.held_lt other index (hsub other index hheld)
      held_injective := fun left right index hleft hright =>
        hvalid.held_injective left right index (hsub left index hleft)
          (hsub right index hright)
      installed_lt := hvalid.installed_lt
      installed_not_held := fun index hindex other hheld =>
        hvalid.installed_not_held index hindex other (hsub other index hheld)
      active_offset := hvalid.active_offset
      active_last := hvalid.active_last
      values_drawn := hvalid.values_drawn
      values_nodup := hvalid.values_nodup }

/-- Installing a held segment issues its first number.  No number of that
segment was issued before, since a held segment was never installed. -/
theorem install (hsize : 0 < size) (hvalid : Valid size pool) {client : Client}
    {index : ℕ} (hheld : pool.held client = some index) :
    Valid size (pool.install size client index) := by
  have hdrop := hvalid.drop client
  have hnew : index ∉ pool.installed := fun hindex =>
    hvalid.installed_not_held index hindex client hheld
  have hfresh : ∀ value ∈ pool.values,
      value ≠ Cursor.value size ⟨index, 0⟩ := by
    rintro value hvalue rfl
    obtain ⟨cursor, hcursor, hoffset, hindex, -⟩ :=
      hvalid.values_drawn _ hvalue
    obtain rfl := Cursor.value_injective (by exact hsize) hoffset hcursor
    exact hnew hindex
  constructor
  · exact hdrop.held_lt
  · exact hdrop.held_injective
  · intro other hother
    rcases List.mem_append.mp hother with hother | hother
    · exact hvalid.installed_lt other hother
    · obtain rfl : other = index := by simpa using hother
      exact hvalid.held_lt client other hheld
  · intro other hother holder hholder
    rcases List.mem_append.mp hother with hother | hother
    · exact hdrop.installed_not_held other hother holder hholder
    · obtain rfl : other = index := by simpa using hother
      by_cases hclient : holder = client
      · subst hclient
        simp [Pool.install] at hholder
      · exact hclient (hvalid.held_injective holder client other
          (by simpa [Pool.install, hclient] using hholder) hheld)
  · intro cursor hactive
    obtain rfl : (⟨index, 0⟩ : Cursor) = cursor := by
      simpa [Pool.install] using hactive
    exact hsize
  · intro cursor hactive
    obtain rfl : (⟨index, 0⟩ : Cursor) = cursor := by
      simpa [Pool.install] using hactive
    simp [Pool.install]
  · intro value hvalue
    simp only [Pool.values, Pool.install, List.map_append, List.map_cons,
      List.map_nil, List.mem_append, List.mem_singleton] at hvalue
    rcases hvalue with hvalue | rfl
    · obtain ⟨cursor, hcursor, hoffset, hindex, -⟩ :=
        hvalid.values_drawn value hvalue
      refine ⟨cursor, hcursor, hoffset, by simp [Pool.install, hindex], ?_⟩
      intro current hactive hsame
      obtain rfl : (⟨index, 0⟩ : Cursor) = current := by
        simpa [Pool.install] using hactive
      rw [← hsame] at hindex
      exact absurd hindex hnew
    · refine ⟨⟨index, 0⟩, rfl, hsize, by simp [Pool.install], ?_⟩
      exact fun current _ _ => Nat.zero_le _
  · simp only [Pool.values, Pool.install, List.map_append, List.map_cons,
      List.map_nil]
    refine List.nodup_append.mpr ⟨hvalid.values_nodup, by simp, ?_⟩
    intro value hvalue other hother
    obtain rfl : other = Cursor.value size ⟨index, 0⟩ := by simpa using hother
    exact hfresh value hvalue

omit [DecidableEq Client] in
/-- Drawing issues the number after the register's cursor, and every number of
the active segment issued before lies at or below the cursor. -/
theorem advance (hvalid : Valid size pool) (client : Client) {cursor : Cursor}
    (hactive : pool.active = some cursor) (hroom : cursor.offset + 1 < size) :
    Valid size (pool.advance size client cursor) := by
  have hfresh : ∀ value ∈ pool.values,
      value ≠ Cursor.value size ⟨cursor.index, cursor.offset + 1⟩ := by
    rintro value hvalue rfl
    obtain ⟨drawn, hdrawn, hoffset, -, hbound⟩ := hvalid.values_drawn _ hvalue
    obtain rfl := Cursor.value_injective (by exact hroom) hoffset hdrawn
    have := hbound cursor hactive rfl
    simp only at this
    omega
  constructor
  · exact hvalid.held_lt
  · exact hvalid.held_injective
  · exact hvalid.installed_lt
  · exact hvalid.installed_not_held
  · intro current hcurrent
    obtain rfl : (⟨cursor.index, cursor.offset + 1⟩ : Cursor) = current := by
      simpa [Pool.advance] using hcurrent
    exact hroom
  · intro current hcurrent
    obtain rfl : (⟨cursor.index, cursor.offset + 1⟩ : Cursor) = current := by
      simpa [Pool.advance] using hcurrent
    exact hvalid.active_last cursor hactive
  · intro value hvalue
    simp only [Pool.values, Pool.advance, List.map_append, List.map_cons,
      List.map_nil, List.mem_append, List.mem_singleton] at hvalue
    rcases hvalue with hvalue | rfl
    · obtain ⟨drawn, hdrawn, hoffset, hindex, hbound⟩ :=
        hvalid.values_drawn value hvalue
      refine ⟨drawn, hdrawn, hoffset, hindex, ?_⟩
      intro current hcurrent hsame
      obtain rfl : (⟨cursor.index, cursor.offset + 1⟩ : Cursor) = current := by
        simpa [Pool.advance] using hcurrent
      exact (hbound cursor hactive hsame).trans (Nat.le_succ _)
    · have hmem : cursor.index ∈ pool.installed := hvalid.active_mem hactive
      refine ⟨⟨cursor.index, cursor.offset + 1⟩, rfl, hroom, hmem, ?_⟩
      intro current hcurrent _
      obtain rfl : (⟨cursor.index, cursor.offset + 1⟩ : Cursor) = current := by
        simpa [Pool.advance] using hcurrent
      rfl
  · simp only [Pool.values, Pool.advance, List.map_append, List.map_cons,
      List.map_nil]
    refine List.nodup_append.mpr ⟨hvalid.values_nodup, by simp, ?_⟩
    intro value hvalue other hother
    obtain rfl : other =
        Cursor.value size ⟨cursor.index, cursor.offset + 1⟩ := by
      simpa using hother
    exact hfresh value hvalue

theorem of_step (hsize : 0 < size) {next : Pool Client}
    {action : Action Client} (hvalid : Valid size pool)
    (hstep : step size pool action = some next) : Valid size next := by
  cases step_effect size hstep with
  | allocate client _ => exact hvalid.allocate client
  | install client index hheld _ => exact hvalid.install hsize hheld
  | discard client _ _ _ => exact hvalid.drop client
  | advance client cursor hactive hroom =>
      exact hvalid.advance client hactive hroom
  | drop client => exact hvalid.drop client
  | lose => exact hvalid.lose

theorem of_run (hsize : 0 < size) {final : Pool Client}
    {actions : List (Action Client)}
    (hrun : Runs.run (step size) Pool.initial actions = some final) :
    Valid size final :=
  Runs.run_invariant _ (fun _ _ _ hvalid hstep => hvalid.of_step hsize hstep)
    Valid.initial hrun

end Valid

end SegmentPool
