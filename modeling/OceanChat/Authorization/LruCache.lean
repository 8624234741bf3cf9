import OceanChat.Core.InsertionMap

/-!
# The memory cache of the roles

A map that is meant to drop what has not been used for the longest time.  It
relies on the order of insertion: looking at an entry deletes it and inserts it
again, but setting one does not.
-/

namespace OceanChat.Authorization

structure Item (Time Value : Type*) where
  value : Value
  expiry : Time

/-- A map that drops its oldest entry when it is full. -/
structure LRUCache (Time Value : Type*) where
  max : ℕ
  cache : InsertionMap String (Item Time Value)

namespace LRUCache

variable {Time Value : Type*}

def get [LinearOrder Time] (lru : LRUCache Time Value) (now : Time)
    (key : String) : Option Value × LRUCache Time Value :=
  match lru.cache.get key with
  | none => (none, lru)
  | some item =>
      if item.expiry < now then
        (none, { lru with cache := lru.cache.delete key })
      else (some item.value, { lru with cache := (lru.cache.delete key).set key item })

/-- A full cache drops its oldest entry even if the key is there already. -/
def set [Add Time] (lru : LRUCache Time Value) (now : Time) (key : String)
    (value : Value) (ttlMs : Time) : LRUCache Time Value :=
  let cache := if lru.max ≤ lru.cache.size then lru.cache.deleteOldest else lru.cache
  { lru with cache := cache.set key ⟨value, now + ttlMs⟩ }

def delete (lru : LRUCache Time Value) (key : String) : LRUCache Time Value :=
  { lru with cache := lru.cache.delete key }

def clear (lru : LRUCache Time Value) : LRUCache Time Value :=
  { lru with cache := .empty }

section Lookup

variable {lru : LRUCache Time Value} {now ttlMs : Time} {key other : String}
variable {value : Value} {item : Item Time Value}

theorem item_of_item_delete (hitem : (lru.delete key).cache.get other = some item) :
    lru.cache.get other = some item := by
  by_cases hother : other = key
  · subst hother
    simp [delete] at hitem
  · rwa [delete, InsertionMap.get_delete_of_ne hother] at hitem

section Get

variable [LinearOrder Time]

theorem get_eq_some (hget : (lru.get now key).1 = some value) :
    ∃ item, lru.cache.get key = some item ∧ now ≤ item.expiry ∧
      item.value = value := by
  unfold get at hget
  split at hget
  · cases hget
  · rename_i item hitem
    split at hget
    · cases hget
    · rename_i hfresh
      exact ⟨item, hitem, not_lt.mp hfresh, Option.some.inj hget⟩

theorem get_of_fresh (hitem : lru.cache.get key = some item)
    (hfresh : now ≤ item.expiry) : (lru.get now key).1 = some item.value := by
  simp [get, hitem, not_lt.mpr hfresh]

theorem get_of_expired
    (hexpired : ∀ item, lru.cache.get key = some item → item.expiry < now) :
    (lru.get now key).1 = none := by
  unfold get
  split
  · rfl
  · rename_i item hitem
    rw [if_pos (hexpired item hitem)]

/-- Looking at an entry leaves no other entries than before. -/
theorem item_of_item_get (hitem : (lru.get now key).2.cache.get other = some item) :
    lru.cache.get other = some item := by
  unfold get at hitem
  split at hitem
  · exact hitem
  · rename_i found hfound
    by_cases hother : other = key
    · subst hother
      split at hitem
      · simp at hitem
      · obtain rfl : found = item := by simpa using hitem
        exact hfound
    · split at hitem
      · simpa [InsertionMap.get_delete_of_ne hother] using hitem
      · simpa [InsertionMap.get_set_of_ne hother,
          InsertionMap.get_delete_of_ne hother] using hitem

end Get

section Set

variable [Add Time]

theorem item_set_same :
    (lru.set now key value ttlMs).cache.get key = some ⟨value, now + ttlMs⟩ := by
  simp [set]

theorem item_of_item_set
    (hitem : (lru.set now key value ttlMs).cache.get other = some item) :
    (other = key ∧ item = ⟨value, now + ttlMs⟩) ∨ lru.cache.get other = some item := by
  by_cases hother : other = key
  · subst hother
    rw [item_set_same] at hitem
    exact .inl ⟨rfl, (Option.some.inj hitem).symm⟩
  · refine .inr ?_
    simp only [set, InsertionMap.get_set_of_ne hother] at hitem
    split at hitem
    · exact InsertionMap.get_of_get_deleteOldest hitem
    · exact hitem

end Set

end Lookup

end LRUCache

end OceanChat.Authorization
