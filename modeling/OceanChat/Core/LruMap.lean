import OceanChat.Core.InsertionMap

/-!
# Bounded maps that forget what has not been used

What such a map is for: it holds no more entries than it may, and to make room
for a new key it gives up the one that has been neither looked up nor inserted
for the longest time.  The keys are listed in the order of their last use.
-/

structure LruMap (Key Item : Type*) where
  max : ℕ
  positive : 0 < max
  map : InsertionMap Key Item
  bounded : map.size ≤ max

namespace LruMap

variable {Key Item : Type*}

def empty (max : ℕ) (positive : 0 < max) : LruMap Key Item :=
  ⟨max, positive, .empty, Nat.zero_le _⟩

variable [DecidableEq Key]

def delete (lru : LruMap Key Item) (key : Key) : LruMap Key Item where
  max := lru.max
  positive := lru.positive
  map := lru.map.delete key
  bounded := InsertionMap.size_delete_le.trans lru.bounded

/-- Room for an entry under the key: its own place if it has one, else a free
one, else that of the key that was used the longest ago. -/
def makeRoom (lru : LruMap Key Item) (key : Key) : InsertionMap Key Item :=
  if key ∈ lru.map.keys then lru.map.delete key
  else if lru.max ≤ lru.map.size then lru.map.deleteOldest
  else lru.map

theorem size_makeRoom_lt (lru : LruMap Key Item) (key : Key) :
    (lru.makeRoom key).size < lru.max := by
  have hbounded := lru.bounded
  rw [makeRoom]
  split_ifs with hkey hfull
  · exact (InsertionMap.size_delete_lt hkey).trans_le hbounded
  · have hpositive := lru.positive
    rw [InsertionMap.size_deleteOldest]
    omega
  · exact not_le.mp hfull

def insert (lru : LruMap Key Item) (key : Key) (item : Item) :
    LruMap Key Item where
  max := lru.max
  positive := lru.positive
  map := (lru.makeRoom key).set key item
  bounded := InsertionMap.size_set_le.trans (lru.size_makeRoom_lt key)

/-- An entry that is stale is given up and not found; any other becomes the one
used last. -/
def lookup (stale : Item → Bool) (lru : LruMap Key Item) (key : Key) :
    Option Item × LruMap Key Item :=
  match lru.map.get key with
  | none => (none, lru)
  | some item =>
      if stale item then (none, lru.delete key) else (some item, lru.insert key item)

def clear (lru : LruMap Key Item) : LruMap Key Item :=
  empty lru.max lru.positive

variable {lru : LruMap Key Item} {key : Key} {item : Item}

theorem makeRoom_of_mem (hkey : key ∈ lru.map.keys) :
    lru.makeRoom key = lru.map.delete key :=
  if_pos hkey

theorem makeRoom_of_not_mem (hkey : key ∉ lru.map.keys) :
    lru.makeRoom key =
      if lru.max ≤ lru.map.size then lru.map.deleteOldest else lru.map :=
  if_neg hkey

theorem map_insert :
    (lru.insert key item).map = (lru.makeRoom key).set key item := rfl

end LruMap
