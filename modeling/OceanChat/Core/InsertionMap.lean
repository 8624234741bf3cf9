import Mathlib

/-!
# Maps in insertion order

A map that lists its keys in the order of their insertion.  Setting a key that
is there keeps its place, and a key that is deleted and set again goes to the
end.
-/

structure InsertionMap (Key Value : Type*) where
  entries : List (Key × Value)
  nodup : (entries.map Prod.fst).Nodup

namespace InsertionMap

variable {Key Value : Type*}

@[ext]
theorem ext {left right : InsertionMap Key Value}
    (hentries : left.entries = right.entries) : left = right := by
  cases left
  cases right
  cases hentries
  rfl

def empty : InsertionMap Key Value := ⟨[], List.nodup_nil⟩

def size (map : InsertionMap Key Value) : ℕ := map.entries.length

def deleteOldest (map : InsertionMap Key Value) : InsertionMap Key Value where
  entries := map.entries.tail
  nodup := map.nodup.sublist ((List.tail_sublist _).map Prod.fst)

def keys (map : InsertionMap Key Value) : List Key :=
  map.entries.map Prod.fst

def oldest (map : InsertionMap Key Value) : Option Key := map.keys.head?

def newest (map : InsertionMap Key Value) : Option Key := map.keys.getLast?

variable [DecidableEq Key]

def get (map : InsertionMap Key Value) (key : Key) : Option Value :=
  map.entries.lookup key

def delete (map : InsertionMap Key Value) (key : Key) : InsertionMap Key Value where
  entries := map.entries.filter fun entry => entry.1 ≠ key
  nodup := map.nodup.sublist (List.filter_sublist.map Prod.fst)

/-- The entries with the value of a key in its place. -/
def replace (entries : List (Key × Value)) (key : Key) (value : Value) :
    List (Key × Value) :=
  entries.map fun entry => if entry.1 = key then (key, value) else entry

theorem keys_replace (entries : List (Key × Value)) (key : Key) (value : Value) :
    (replace entries key value).map Prod.fst = entries.map Prod.fst := by
  rw [replace, List.map_map]
  refine List.map_congr_left fun entry _ => ?_
  by_cases hkey : entry.1 = key <;> simp [hkey]

def set (map : InsertionMap Key Value) (key : Key) (value : Value) :
    InsertionMap Key Value :=
  if hkey : key ∈ map.entries.map Prod.fst then
    ⟨replace map.entries key value, by
      rw [keys_replace]
      exact map.nodup⟩
  else
    ⟨map.entries ++ [(key, value)], by
      rw [List.map_append, List.nodup_append]
      refine ⟨map.nodup, by simp, ?_⟩
      intro other hother last hlast
      obtain rfl : last = key := by simpa using hlast
      rintro rfl
      exact hkey hother⟩

section Lookup

variable {map : InsertionMap Key Value} {key other : Key} {value : Value}

theorem get_eq_some_iff : map.get key = some value ↔ (key, value) ∈ map.entries := by
  obtain ⟨entries, hnodup⟩ := map
  simp only [get]
  induction entries with
  | nil => simp
  | cons entry entries ih =>
      obtain ⟨first, value'⟩ := entry
      obtain ⟨hfirst, hrest⟩ := List.nodup_cons.mp hnodup
      by_cases hkey : key = first
      · subst hkey
        have hnot : (key, value) ∉ entries := fun hmem =>
          hfirst (List.mem_map.mpr ⟨_, hmem, rfl⟩)
        simp [hnot, eq_comm]
      · have hbeq : (key == first) = false := beq_false_of_ne hkey
        simp [List.lookup_cons, hbeq, hkey, ih hrest]

@[simp]
theorem get_empty : (empty : InsertionMap Key Value).get key = none := rfl

@[simp]
theorem get_delete_same : (map.delete key).get key = none := by
  rw [Option.eq_none_iff_forall_ne_some]
  intro value hget
  have hmem := get_eq_some_iff.mp hget
  simp [delete] at hmem

theorem get_delete_of_ne (hne : other ≠ key) :
    (map.delete key).get other = map.get other := by
  ext value
  simp only [get_eq_some_iff]
  simp [delete, hne]

@[simp]
theorem get_set_same : (map.set key value).get key = some value := by
  rw [get_eq_some_iff, set]
  split
  · rename_i hkey
    obtain ⟨entry, hmem, rfl⟩ := List.mem_map.mp hkey
    exact List.mem_map.mpr ⟨entry, hmem, by simp⟩
  · simp

theorem get_set_of_ne (hne : other ≠ key) :
    (map.set key value).get other = map.get other := by
  ext value'
  simp only [get_eq_some_iff, set]
  split
  · -- The entries under other keys are not touched.
    simp only [replace, List.mem_map]
    constructor
    · rintro ⟨entry, hmem, heq⟩
      by_cases hkey : entry.1 = key
      · rw [if_pos hkey] at heq
        exact absurd (Prod.mk.inj heq).1.symm hne
      · rw [if_neg hkey] at heq
        exact heq ▸ hmem
    · intro hmem
      exact ⟨(other, value'), hmem, if_neg hne⟩
  · simp [hne]

/-- Dropping the oldest entry keeps the others. -/
theorem get_of_get_deleteOldest (hget : map.deleteOldest.get key = some value) :
    map.get key = some value :=
  get_eq_some_iff.mpr (List.mem_of_mem_tail (get_eq_some_iff.mp hget))

end Lookup

/-! ## Keys and sizes -/

section Keys

variable {map : InsertionMap Key Value} {key : Key} {value : Value}

omit [DecidableEq Key] in
theorem length_keys : map.keys.length = map.size := List.length_map _

theorem entries_delete : (map.delete key).entries =
    map.entries.filter fun entry => entry.1 ≠ key := rfl

theorem keys_delete : (map.delete key).keys = map.keys.filter (· ≠ key) := by
  rw [keys, delete, keys, List.filter_map]
  rfl

omit [DecidableEq Key] in
theorem keys_deleteOldest : map.deleteOldest.keys = map.keys.tail :=
  List.map_tail

theorem entries_set_of_mem (hkey : key ∈ map.keys) :
    (map.set key value).entries = replace map.entries key value := by
  rw [set, dif_pos (show key ∈ map.entries.map Prod.fst from hkey)]

theorem entries_set_of_not_mem (hkey : key ∉ map.keys) :
    (map.set key value).entries = map.entries ++ [(key, value)] := by
  rw [set, dif_neg (show key ∉ map.entries.map Prod.fst from hkey)]

theorem keys_set_of_mem (hkey : key ∈ map.keys) :
    (map.set key value).keys = map.keys := by
  rw [keys, entries_set_of_mem hkey, keys_replace, keys]

theorem keys_set_of_not_mem (hkey : key ∉ map.keys) :
    (map.set key value).keys = map.keys ++ [key] := by
  rw [keys, entries_set_of_not_mem hkey, List.map_append, keys]
  rfl

theorem not_mem_keys_delete : key ∉ (map.delete key).keys := by
  simp [keys_delete]

theorem mem_keys_iff : key ∈ map.keys ↔ (map.get key).isSome := by
  rw [Option.isSome_iff_exists]
  constructor
  · intro hkey
    obtain ⟨⟨found, value⟩, hmem, rfl⟩ := List.mem_map.mp hkey
    exact ⟨value, get_eq_some_iff.mpr hmem⟩
  · rintro ⟨value, hget⟩
    exact List.mem_map.mpr ⟨_, get_eq_some_iff.mp hget, rfl⟩

theorem size_delete_le : (map.delete key).size ≤ map.size :=
  List.length_filter_le _ _

theorem size_delete_lt (hkey : key ∈ map.keys) :
    (map.delete key).size < map.size := by
  rw [← length_keys, ← length_keys, keys_delete]
  refine List.length_filter_lt_length_iff_exists.mpr ⟨key, hkey, by simp⟩

omit [DecidableEq Key] in
theorem size_deleteOldest : map.deleteOldest.size = map.size - 1 :=
  List.length_tail

theorem size_set_of_mem (hkey : key ∈ map.keys) :
    (map.set key value).size = map.size := by
  rw [← length_keys, keys_set_of_mem hkey, length_keys]

theorem size_set_of_not_mem (hkey : key ∉ map.keys) :
    (map.set key value).size = map.size + 1 := by
  rw [← length_keys, keys_set_of_not_mem hkey, List.length_append, length_keys]
  rfl

theorem size_set_le : (map.set key value).size ≤ map.size + 1 := by
  by_cases hkey : key ∈ map.keys
  · rw [size_set_of_mem hkey]
    exact Nat.le_succ _
  · rw [size_set_of_not_mem hkey]

/-- Inserting a key anew moves it to the end. -/
theorem keys_set_delete :
    ((map.delete key).set key value).keys = map.keys.filter (· ≠ key) ++ [key] := by
  rw [keys_set_of_not_mem not_mem_keys_delete, keys_delete]

theorem delete_eq_deleteOldest (holdest : map.oldest = some key) :
    map.delete key = map.deleteOldest := by
  obtain ⟨entries, hnodup⟩ := map
  cases entries with
  | nil => cases holdest
  | cons entry rest =>
      obtain rfl : entry.1 = key := Option.some.inj holdest
      have hrest := (List.nodup_cons.mp hnodup).1
      apply ext
      simp only [delete, deleteOldest, List.tail_cons]
      rw [List.filter_cons_of_neg (by simp), List.filter_eq_self]
      intro other hother
      simpa using fun hkey => hrest (List.mem_map.mpr ⟨other, hother, hkey⟩)

/-- Giving up the oldest key makes the same room as giving up a key that is
there only if that is the oldest. -/
theorem set_deleteOldest_eq_iff (hkey : key ∈ map.keys) :
    map.deleteOldest.set key value = (map.delete key).set key value ↔
      map.oldest = some key := by
  constructor
  · intro heq
    have hkeys := congrArg keys heq
    rw [keys_set_delete] at hkeys
    have hnodup : map.keys.Nodup := map.nodup
    rw [oldest]
    cases hall : map.keys with
    | nil => simp [hall] at hkey
    | cons first rest =>
        by_contra hne
        have hfirst : first ≠ key := fun heq => hne (by simp [heq])
        rw [hall, List.nodup_cons] at hnodup
        have hrest : key ∈ map.deleteOldest.keys := by
          rw [keys_deleteOldest, hall]
          rw [hall] at hkey
          exact (List.mem_cons.mp hkey).resolve_left hfirst.symm
        rw [keys_set_of_mem hrest, keys_deleteOldest, hall, List.tail_cons]
          at hkeys
        refine hnodup.1 (hkeys ▸ List.mem_append_left _ ?_)
        simpa using hfirst
  · intro holdest
    rw [delete_eq_deleteOldest holdest]

/-- A key that is there keeps its place only if that is at the end. -/
theorem set_eq_set_delete_iff (hkey : key ∈ map.keys) :
    map.set key value = (map.delete key).set key value ↔
      map.newest = some key := by
  constructor
  · intro heq
    have hkeys := congrArg keys heq
    rw [keys_set_of_mem hkey, keys_set_delete] at hkeys
    rw [newest, hkeys, List.getLast?_concat]
  · intro hnewest
    obtain ⟨front, hfront⟩ := List.getLast?_eq_some_iff.mp hnewest
    obtain ⟨before, last, hentries, -, hlast⟩ :=
      List.map_eq_append_iff.mp hfront
    obtain ⟨⟨last, old⟩, rfl, rfl⟩ : ∃ entry, last = [entry] ∧ entry.1 = key := by
      simpa [List.map_eq_singleton_iff] using hlast
    have hbefore : ∀ entry ∈ before, entry.1 ≠ last := by
      have hnodup := map.nodup
      rw [hentries, List.map_append, List.nodup_append] at hnodup
      exact fun entry hentry =>
        hnodup.2.2 _ (List.mem_map_of_mem hentry) _ (by simp)
    have hkept : replace before last value = before :=
      (List.map_congr_left fun entry hentry =>
        if_neg (hbefore entry hentry)).trans (List.map_id before)
    have hfilter : before.filter (fun entry => entry.1 ≠ last) = before :=
      List.filter_eq_self.mpr (by simpa using hbefore)
    apply ext
    calc (map.set last value).entries
        = replace map.entries last value := entries_set_of_mem hkey
      _ = before ++ [(last, value)] := by
          rw [hentries, replace, List.map_append, ← replace, hkept]
          simp
      _ = (map.delete last).entries ++ [(last, value)] := by
          rw [entries_delete, hentries, List.filter_append, hfilter]
          simp
      _ = ((map.delete last).set last value).entries :=
          (entries_set_of_not_mem not_mem_keys_delete).symm

end Keys

section Assign

variable {map : InsertionMap Key Value}

/-- Set one entry after the other. -/
def assign (map : InsertionMap Key Value) (entries : List (Key × Value)) :
    InsertionMap Key Value :=
  entries.foldl (fun map entry => map.set entry.1 entry.2) map

theorem entries_assign {entries : List (Key × Value)}
    (hnodup : (map.keys ++ entries.map Prod.fst).Nodup) :
    (map.assign entries).entries = map.entries ++ entries := by
  induction entries generalizing map with
  | nil => exact (List.append_nil _).symm
  | cons entry entries ih =>
      rw [List.map_cons] at hnodup
      have hkey : entry.1 ∉ map.keys := fun hmem =>
        (List.nodup_append.mp hnodup).2.2 _ hmem _ List.mem_cons_self rfl
      have hnext : ((map.set entry.1 entry.2).keys ++ entries.map Prod.fst).Nodup := by
        rwa [keys_set_of_not_mem hkey, List.append_assoc, List.singleton_append]
      have hstep : map.assign (entry :: entries) =
          (map.set entry.1 entry.2).assign entries := rfl
      rw [hstep, ih hnext, entries_set_of_not_mem hkey, List.append_assoc,
        List.singleton_append]

end Assign

end InsertionMap
