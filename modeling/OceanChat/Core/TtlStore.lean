import Mathlib

/-!
# Stores with expiring entries

A key-value store whose entries may carry an absolute deadline.  Every write is
one atomic command; `sweep` removes what is due, and it is applied whenever the
clock moves, so a stored entry is always a live one.
-/

namespace TtlStore

structure Entry (Value : Type*) where
  value : Value
  expiresAt : Option ℕ
  deriving DecidableEq

abbrev Store (Key Value : Type*) := Key → Option (Entry Value)

variable {Key Value : Type*}

def Entry.due (entry : Entry Value) (now : ℕ) : Bool :=
  match entry.expiresAt with
  | none => false
  | some deadline => decide (deadline ≤ now)

def empty : Store Key Value := fun _ => none

def get (store : Store Key Value) (key : Key) : Option Value :=
  (store key).map Entry.value

/-- Drop every entry whose deadline has passed. -/
def sweep (store : Store Key Value) (now : ℕ) : Store Key Value := fun key =>
  (store key).filter fun entry => !entry.due now

section Commands

variable [DecidableEq Key]

def put (store : Store Key Value) (key : Key) (value : Value)
    (expiresAt : Option ℕ) : Store Key Value :=
  Function.update store key (some ⟨value, expiresAt⟩)

def del (store : Store Key Value) (key : Key) : Store Key Value :=
  Function.update store key none

/-- `SET key value EX ttl NX`: write only where no entry is stored. -/
def setnx (store : Store Key Value) (key : Key) (value : Value)
    (expiresAt : Option ℕ) : Store Key Value × Bool :=
  if (store key).isNone then (put store key value expiresAt, true)
  else (store, false)

/-- Compare and delete: remove the entry only if it still holds `value`. -/
def delIfEqual [DecidableEq Value] (store : Store Key Value) (key : Key)
    (value : Value) : Store Key Value :=
  if get store key = some value then del store key else store

/-- `EXPIRE`: give an entry that is there a new deadline. -/
def expire (store : Store Key Value) (key : Key) (expiresAt : Option ℕ) :
    Store Key Value :=
  Function.update store key
    ((store key).map fun entry => ⟨entry.value, expiresAt⟩)

/-- `MSET`: write several entries that do not expire. -/
def mset (store : Store Key Value) (payload : List (Key × Value)) :
    Store Key Value :=
  payload.foldl (fun store pair => put store pair.1 pair.2 none) store

variable {store : Store Key Value} {key other : Key} {value : Value}
variable {expiresAt : Option ℕ}

@[simp]
theorem put_same : put store key value expiresAt key = some ⟨value, expiresAt⟩ := by
  simp [put]

theorem put_of_ne (hne : other ≠ key) :
    put store key value expiresAt other = store other := by
  simp [put, hne]

theorem del_of_ne (hne : other ≠ key) : del store key other = store other := by
  simp [del, hne]

@[simp]
theorem get_put_same : get (put store key value expiresAt) key = some value := by
  simp [get]

theorem get_put :
    get (put store key value expiresAt) =
      Function.update (get store) key (some value) := by
  funext other
  by_cases hother : other = key
  · subst hother
    simp
  · simp [get, put_of_ne hother, hother]

theorem get_put_of_ne (hne : other ≠ key) :
    get (put store key value expiresAt) other = get store other := by
  simp [get, put_of_ne hne]

@[simp]
theorem get_del_same : get (del store key) key = none := by
  simp [get, del]

theorem get_del_of_ne (hne : other ≠ key) :
    get (del store key) other = get store other := by
  simp [get, del_of_ne hne]

theorem setnx_of_none (hnone : store key = none) :
    setnx store key value expiresAt = (put store key value expiresAt, true) := by
  simp [setnx, hnone]

theorem setnx_of_some {entry : Entry Value} (hsome : store key = some entry) :
    setnx store key value expiresAt = (store, false) := by
  simp [setnx, hsome]

theorem setnx_of_ne (hne : other ≠ key) :
    (setnx store key value expiresAt).1 other = store other := by
  unfold setnx
  split
  · exact put_of_ne hne
  · rfl

theorem delIfEqual_of_ne [DecidableEq Value] (hne : other ≠ key) :
    delIfEqual store key value other = store other := by
  unfold delIfEqual
  split
  · exact del_of_ne hne
  · rfl

/-- `setnx` never overwrites what is stored. -/
theorem setnx_of_stored {entry : Entry Value} (hstored : store other = some entry) :
    (setnx store key value expiresAt).1 other = some entry := by
  by_cases hother : other = key
  · subst hother
    rw [setnx_of_some hstored]
    exact hstored
  · rw [setnx_of_ne hother]
    exact hstored

/-- Compare and delete leaves every entry that does not match. -/
theorem delIfEqual_of_get_ne [DecidableEq Value]
    (hne : other = key → get store key ≠ some value) :
    delIfEqual store key value other = store other := by
  by_cases hother : other = key
  · rw [delIfEqual, if_neg (hne hother)]
  · exact delIfEqual_of_ne hother

@[simp]
theorem delIfEqual_of_get [DecidableEq Value] (hget : get store key = some value) :
    delIfEqual store key value key = none := by
  simp [delIfEqual, hget, del]

@[simp]
theorem get_expire : get (expire store key expiresAt) other = get store other := by
  by_cases hother : other = key
  · subst hother
    cases hstore : store other <;> simp [get, expire, hstore]
  · simp [get, expire, hother]

theorem delIfEqual_eq_or_none [DecidableEq Value] :
    delIfEqual store key value other = store other ∨
      delIfEqual store key value other = none := by
  by_cases hother : other = key
  · subst hother
    unfold delIfEqual
    split
    · exact .inr (by simp [del])
    · exact .inl rfl
  · exact .inl (delIfEqual_of_ne hother)

end Commands

section Sweep

variable {store : Store Key Value} {key : Key} {now : ℕ}

theorem sweep_eq_some {entry : Entry Value} :
    sweep store now key = some entry ↔
      store key = some entry ∧ entry.due now = false := by
  simp [sweep, Option.filter_eq_some_iff]

theorem sweep_of_none (hnone : store key = none) : sweep store now key = none := by
  simp [sweep, hnone]

theorem sweep_of_live {entry : Entry Value} (hstore : store key = some entry)
    (hlive : entry.due now = false) : sweep store now key = some entry :=
  sweep_eq_some.mpr ⟨hstore, hlive⟩

theorem get_of_get_sweep {value : Value}
    (hget : get (sweep store now) key = some value) : get store key = some value := by
  obtain ⟨entry, hentry, rfl⟩ := Option.map_eq_some_iff.mp hget
  exact Option.map_eq_some_iff.mpr ⟨entry, (sweep_eq_some.mp hentry).1, rfl⟩

/-- Sweeping later includes sweeping earlier. -/
theorem sweep_sweep {later : ℕ} (hle : now ≤ later) :
    sweep (sweep store now) later = sweep store later := by
  have hdue : ∀ entry : Entry Value, entry.due now = true →
      entry.due later = true := by
    intro entry
    cases hdeadline : entry.expiresAt with
    | none => simp [Entry.due, hdeadline]
    | some deadline =>
        simp only [Entry.due, hdeadline, decide_eq_true_eq]
        intro hnow
        exact hnow.trans hle
  funext key
  cases hstore : store key with
  | none => simp [sweep, hstore]
  | some entry =>
      cases hentry : entry.due now with
      | false => simp [sweep, hstore, Option.filter, hentry]
      | true => simp [sweep, hstore, Option.filter, hentry, hdue entry hentry]

end Sweep

/-! ## Leases

A client that acquired a key with `setnx` and has not released it yet owns the
entry.  The two facts below are kept by every command, provided no owned entry
expires; together they are mutual exclusion. -/

variable {Client : Type*}

/-- Every owner finds its own value under its key, and no two clients own the
same value there. -/
structure Leases (store : Store Key Value)
    (owner : Client → Option (Key × Value)) : Prop where
  held : ∀ client key value, owner client = some (key, value) →
    get store key = some value
  distinct : ∀ left right key value, owner left = some (key, value) →
    owner right = some (key, value) → left = right

namespace Leases

variable {store : Store Key Value} {owner : Client → Option (Key × Value)}

/-- Mutual exclusion: one key has at most one owner. -/
theorem exclusive (hleases : Leases store owner) {left right : Client}
    {key : Key} {value value' : Value}
    (hleft : owner left = some (key, value))
    (hright : owner right = some (key, value')) : left = right := by
  have hvalue : some value = some value' :=
    (hleases.held left key value hleft).symm.trans
      (hleases.held right key value' hright)
  obtain rfl := Option.some.inj hvalue
  exact hleases.distinct left right key value hleft hright

theorem not_owned_of_none (hleases : Leases store owner) {key : Key}
    (hnone : store key = none) (client : Client) (value : Value) :
    owner client ≠ some (key, value) := by
  intro howner
  have hget := hleases.held client key value howner
  simp [get, hnone] at hget

theorem empty_owner : Leases store (fun _ : Client => none) :=
  ⟨by simp, by simp⟩

/-- Forgetting some owners keeps the remaining leases. -/
theorem mono (hleases : Leases store owner)
    {owner' : Client → Option (Key × Value)}
    (hsub : ∀ client key value, owner' client = some (key, value) →
      owner client = some (key, value)) : Leases store owner' where
  held client key value howner :=
    hleases.held client key value (hsub client key value howner)
  distinct left right key value hleft hright :=
    hleases.distinct left right key value (hsub left key value hleft)
      (hsub right key value hright)

/-- A command that leaves every owned entry alone keeps the leases. -/
theorem of_preserved (hleases : Leases store owner) {store' : Store Key Value}
    (hkeep : ∀ client key value, owner client = some (key, value) →
      get store' key = some value) : Leases store' owner where
  held := hkeep
  distinct := hleases.distinct

variable [DecidableEq Key]

/-- A write to a free key that makes nobody its owner. -/
theorem put_of_none (hleases : Leases store owner) {key : Key} (value : Value)
    (expiresAt : Option ℕ) (hnone : store key = none) :
    Leases (put store key value expiresAt) owner := by
  apply hleases.of_preserved
  intro client key' value' howner
  have hne : key' ≠ key := by
    rintro rfl
    exact hleases.not_owned_of_none hnone client value' howner
  rw [get_put_of_ne hne]
  exact hleases.held client key' value' howner

variable [DecidableEq Client]

/-- A successful `setnx` makes its caller the owner. -/
theorem acquire (hleases : Leases store owner) (client : Client) {key : Key}
    (value : Value) (expiresAt : Option ℕ) (hnone : store key = none) :
    Leases (put store key value expiresAt)
      (Function.update owner client (some (key, value))) := by
  have hother : ∀ other key' value', other ≠ client →
      owner other = some (key', value') → key' ≠ key := by
    rintro other key' value' - howner rfl
    exact hleases.not_owned_of_none hnone other value' howner
  constructor
  · intro other key' value' howner
    by_cases hclient : other = client
    · subst hclient
      obtain ⟨rfl, rfl⟩ : key = key' ∧ value = value' := by simpa using howner
      exact get_put_same
    · rw [Function.update_of_ne hclient] at howner
      rw [get_put_of_ne (hother other key' value' hclient howner)]
      exact hleases.held other key' value' howner
  · intro left right key' value' hleft hright
    by_cases hl : left = client <;> by_cases hr : right = client
    · rw [hl, hr]
    · subst hl
      rw [Function.update_of_ne hr] at hright
      obtain ⟨rfl, -⟩ : key = key' ∧ value = value' := by simpa using hleft
      exact absurd rfl (hother right _ value' hr hright)
    · subst hr
      rw [Function.update_of_ne hl] at hleft
      obtain ⟨rfl, -⟩ : key = key' ∧ value = value' := by simpa using hright
      exact absurd rfl (hother left _ value' hl hleft)
    · rw [Function.update_of_ne hl] at hleft
      rw [Function.update_of_ne hr] at hright
      exact hleases.distinct left right key' value' hleft hright

/-- An owner that stops owning its entry, whether or not it also deletes it,
leaves the other owners untouched. -/
theorem release [DecidableEq Value] (hleases : Leases store owner)
    {client : Client} {key : Key} {value : Value}
    (howner : owner client = some (key, value)) :
    Leases (delIfEqual store key value) (Function.update owner client none) := by
  have hrest : Leases store (Function.update owner client none) := by
    refine hleases.mono fun other key' value' hother => ?_
    by_cases hclient : other = client
    · subst hclient
      simp at hother
    · rwa [Function.update_of_ne hclient] at hother
  refine hrest.of_preserved fun other key' value' hother => ?_
  have hclient : other ≠ client := by
    rintro rfl
    simp at hother
  have hne : key' ≠ key := by
    rintro rfl
    rw [Function.update_of_ne hclient] at hother
    exact hclient (hleases.exclusive hother howner)
  rw [get, delIfEqual_of_ne hne]
  exact hrest.held other key' value' hother

end Leases

end TtlStore
