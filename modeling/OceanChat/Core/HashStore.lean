import Mathlib

/-!
# Stores of hashes

A store maps keys to hashes: finite maps of fields with one deadline for the
whole hash.  A hash without fields does not exist, and `sweep` removes the
hashes whose deadline has passed.
-/

namespace HashStore

structure Hash (Field Value : Type*) where
  fields : List (Field × Value)
  expiresAt : Option ℕ
  deriving DecidableEq

abbrev Store (Key Field Value : Type*) := Key → Option (Hash Field Value)

variable {Key Field Value : Type*}

def Hash.due (hash : Hash Field Value) (now : ℕ) : Bool :=
  match hash.expiresAt with
  | none => false
  | some deadline => decide (deadline ≤ now)

def empty : Store Key Field Value := fun _ => none

def hgetall (store : Store Key Field Value) (key : Key) : List Value :=
  ((store key).map fun hash => hash.fields.map Prod.snd).getD []

def sweep (store : Store Key Field Value) (now : ℕ) : Store Key Field Value :=
  fun key => (store key).filter fun hash => !hash.due now

section Commands

variable [DecidableEq Field]

def hget (store : Store Key Field Value) (key : Key) (field : Field) :
    Option Value :=
  (store key).bind fun hash => hash.fields.lookup field

variable [DecidableEq Key]

/-- Set one field; a new hash has no deadline. -/
def hset (store : Store Key Field Value) (key : Key) (field : Field)
    (value : Value) : Store Key Field Value :=
  Function.update store key <|
    match store key with
    | none => some ⟨[(field, value)], none⟩
    | some hash =>
        some ⟨(field, value) :: hash.fields.filter (·.1 ≠ field),
          hash.expiresAt⟩

def expire (store : Store Key Field Value) (key : Key) (deadline : ℕ) :
    Store Key Field Value :=
  Function.update store key <|
    (store key).map fun hash => { hash with expiresAt := some deadline }

/-- Remove one field, and the hash with its last field; the answer is the
number of fields removed. -/
def hdel (store : Store Key Field Value) (key : Key) (field : Field) :
    Store Key Field Value × ℕ :=
  match store key with
  | none => (store, 0)
  | some hash =>
      let fields := hash.fields.filter (·.1 ≠ field)
      (Function.update store key
          (if fields = [] then none else some ⟨fields, hash.expiresAt⟩),
        hash.fields.length - fields.length)

def del (store : Store Key Field Value) (key : Key) : Store Key Field Value :=
  Function.update store key none

/-! ## Reading back -/

variable {store : Store Key Field Value} {key other : Key}
variable {field field' : Field} {value : Value}

theorem lookup_filter_of_ne {fields : List (Field × Value)}
    (hne : field' ≠ field) :
    (fields.filter (·.1 ≠ field)).lookup field' = fields.lookup field' := by
  induction fields with
  | nil => rfl
  | cons head tail ih =>
      by_cases hhead : head.1 = field
      · have hskip : (field' == head.1) = false := by simp [hhead, hne]
        rw [List.filter_cons_of_neg (by simp [hhead]), ih, List.lookup, hskip]
      · rw [List.filter_cons_of_pos (by simp [hhead]), List.lookup, List.lookup,
          ih]

theorem lookup_filter_self (fields : List (Field × Value)) :
    (fields.filter (·.1 ≠ field)).lookup field = none := by
  rw [List.lookup_eq_none_iff]
  intro pair hpair
  simpa using (Ne.symm (by simpa using (List.mem_filter.mp hpair).2))

@[simp]
theorem hget_hset_same : hget (hset store key field value) key field =
    some value := by
  cases hstore : store key <;> simp [hget, hset, hstore, List.lookup]

theorem hget_hset_of_field_ne (hne : field' ≠ field) :
    hget (hset store key field value) key field' = hget store key field' := by
  have hskip : (field' == field) = false := by simp [hne]
  cases hstore : store key with
  | none => simp [hget, hset, hstore, List.lookup, hskip]
  | some hash =>
      simp only [hget, hset, hstore, Function.update_self, Option.bind_some,
        List.lookup, hskip]
      exact lookup_filter_of_ne hne

theorem hget_hset_of_key_ne (hne : other ≠ key) :
    hget (hset store key field value) other field' = hget store other field' := by
  simp [hget, hset, hne]

@[simp]
theorem hget_expire (deadline : ℕ) :
    hget (expire store key deadline) other field' = hget store other field' := by
  by_cases hkey : other = key
  · subst hkey
    cases hstore : store other <;> simp [hget, expire, hstore]
  · simp [hget, expire, hkey]

theorem hget_hdel_same : hget (hdel store key field).1 key field = none := by
  cases hstore : store key with
  | none => simp [hget, hdel, hstore]
  | some hash =>
      simp only [hget, hdel, hstore, Function.update_self]
      split
      · rfl
      · exact lookup_filter_self hash.fields

theorem hget_hdel_of_key_ne (hne : other ≠ key) :
    hget (hdel store key field).1 other field' = hget store other field' := by
  cases hstore : store key <;> simp [hget, hdel, hstore, hne]

theorem hget_hdel_of_field_ne (hne : field' ≠ field) :
    hget (hdel store key field).1 key field' = hget store key field' := by
  cases hstore : store key with
  | none => simp [hdel, hstore]
  | some hash =>
      simp only [hget, hdel, hstore, Function.update_self, Option.bind_some]
      rw [← lookup_filter_of_ne hne]
      split
      · rename_i hempty
        rw [hempty]
        rfl
      · rfl

@[simp]
theorem hget_del_same : hget (del store key) key field' = none := by
  simp [hget, del]

theorem hget_del_of_ne (hne : other ≠ key) :
    hget (del store key) other field' = hget store other field' := by
  simp [hget, del, hne]

omit [DecidableEq Key] in
theorem hget_sweep {now : ℕ} (hget : hget (sweep store now) key field =
    some value) : HashStore.hget store key field = some value := by
  obtain ⟨hash, hhash, hlookup⟩ := Option.bind_eq_some_iff.mp hget
  have hstore : store key = some hash :=
    (Option.filter_eq_some_iff.mp hhash).1
  rw [HashStore.hget, hstore]
  exact hlookup

theorem mem_of_lookup {fields : List (Field × Value)}
    (hlookup : fields.lookup field = some value) : (field, value) ∈ fields := by
  obtain ⟨front, back, rfl, -⟩ := List.lookup_eq_some_iff.mp hlookup
  simp

omit [DecidableEq Key] in
theorem mem_hgetall (hget : hget store key field = some value) :
    value ∈ hgetall store key := by
  obtain ⟨hash, hhash, hlookup⟩ := Option.bind_eq_some_iff.mp hget
  simp only [hgetall, hhash, Option.map_some, Option.getD_some, List.mem_map]
  exact ⟨(field, value), mem_of_lookup hlookup, rfl⟩

end Commands

/-! ## Deadlines -/

def deadline (store : Store Key Field Value) (key : Key) : Option ℕ :=
  (store key).bind Hash.expiresAt

/-- No hash expires before the bound of a value in it. -/
def Outlives [DecidableEq Field] (bound : Value → ℤ)
    (store : Store Key Field Value) : Prop :=
  ∀ key field value, hget store key field = some value →
    ∃ time, deadline store key = some time ∧ bound value ≤ time

namespace Outlives

variable [DecidableEq Field] {bound : Value → ℤ}
variable {store : Store Key Field Value} {key : Key} {field : Field}
variable {value : Value}

theorem empty : Outlives bound (empty : Store Key Field Value) := by
  intro key field value hfound
  simp [hget, HashStore.empty] at hfound

/-- Sweeping keeps the deadlines of the hashes that stay. -/
theorem sweep (houtlives : Outlives bound store) (now : ℕ) :
    Outlives bound (sweep store now) := by
  intro key field value hfound
  obtain ⟨time, htime, hle⟩ := houtlives key field value (hget_sweep hfound)
  refine ⟨time, ?_, hle⟩
  obtain ⟨hash, hhash, -⟩ := Option.bind_eq_some_iff.mp hfound
  have hstore : store key = some hash := (Option.filter_eq_some_iff.mp hhash).1
  rw [deadline, hstore] at htime
  rwa [deadline, hhash]

/-- A value that has expired with its hash has reached its bound. -/
theorem le_of_swept (houtlives : Outlives bound store) {now : ℕ}
    (hfound : hget store key field = some value)
    (hgone : hget (HashStore.sweep store now) key field = none) :
    bound value ≤ now := by
  obtain ⟨time, htime, hle⟩ := houtlives key field value hfound
  obtain ⟨hash, hhash, hlookup⟩ := Option.bind_eq_some_iff.mp hfound
  have hexpires : hash.expiresAt = some time := by
    simpa [deadline, hhash] using htime
  have hdue : hash.due now = true := by
    by_contra hlive
    have hkept : HashStore.sweep store now key = some hash := by
      simp [HashStore.sweep, hhash, Option.filter, hlive]
    rw [hget, hkept, Option.bind_some, hlookup] at hgone
    cases hgone
  have htimeLe : time ≤ now := by simpa [Hash.due, hexpires] using hdue
  exact hle.trans (by exact_mod_cast htimeLe)

variable [DecidableEq Key]

theorem del (houtlives : Outlives bound store) (key : Key) :
    Outlives bound (del store key) := by
  intro other field value hfound
  by_cases hkey : other = key
  · subst hkey
    simp at hfound
  · rw [hget_del_of_ne hkey] at hfound
    obtain ⟨time, htime, hle⟩ := houtlives other field value hfound
    exact ⟨time, by simpa [deadline, HashStore.del, hkey] using htime, hle⟩

omit [DecidableEq Key] in
theorem deadline_of_hget {store' : Store Key Field Value} {time : Option ℕ}
    (hfound : hget store' key field = some value)
    (hexpires : ∀ hash, store' key = some hash → hash.expiresAt = time) :
    deadline store' key = time := by
  obtain ⟨hash, hhash, -⟩ := Option.bind_eq_some_iff.mp hfound
  rw [deadline, hhash]
  exact hexpires hash hhash

theorem hdel (houtlives : Outlives bound store) (key : Key) (field : Field) :
    Outlives bound (hdel store key field).1 := by
  intro other field' value hfound
  by_cases hkey : other = key
  · subst hkey
    have hne : field' ≠ field := by
      rintro rfl
      simp [hget_hdel_same] at hfound
    have hold := hfound
    rw [hget_hdel_of_field_ne hne] at hold
    obtain ⟨time, htime, hle⟩ := houtlives other field' value hold
    obtain ⟨hash, hhash, -⟩ := Option.bind_eq_some_iff.mp hold
    refine ⟨time, deadline_of_hget hfound fun hash' hhash' => ?_, hle⟩
    have hexpires : hash.expiresAt = some time := by
      simpa [deadline, hhash] using htime
    simp only [HashStore.hdel, hhash, Function.update_self] at hhash'
    split at hhash'
    · cases hhash'
    · obtain rfl := Option.some.inj hhash'
      exact hexpires
  · rw [hget_hdel_of_key_ne hkey] at hfound
    obtain ⟨time, htime, hle⟩ := houtlives other field' value hfound
    refine ⟨time, ?_, hle⟩
    rw [← htime]
    cases hstore : store key <;> simp [deadline, HashStore.hdel, hstore, hkey]

/-- Storing a value and resetting the deadline of its hash. -/
theorem hset_expire (houtlives : Outlives bound store) {time : ℕ}
    (hnew : bound value ≤ time)
    (hold : ∀ field' value', hget store key field' = some value' →
      bound value' ≤ time) :
    Outlives bound (expire (hset store key field value) key time) := by
  intro other field' value' hfound
  rw [hget_expire] at hfound
  by_cases hkey : other = key
  · subst hkey
    have hdeadline :
        deadline (expire (hset store other field value) other time) other =
          some time := by
      cases hstore : store other <;>
        simp [deadline, expire, hset, hstore]
    refine ⟨time, hdeadline, ?_⟩
    by_cases hfield : field' = field
    · subst hfield
      obtain rfl : value = value' := by simpa using hfound
      exact hnew
    · rw [hget_hset_of_field_ne hfield] at hfound
      exact hold field' value' hfound
  · rw [hget_hset_of_key_ne hkey] at hfound
    obtain ⟨time', htime, hle⟩ := houtlives other field' value' hfound
    refine ⟨time', ?_, hle⟩
    simpa [deadline, expire, hset, hkey] using htime

end Outlives

end HashStore
