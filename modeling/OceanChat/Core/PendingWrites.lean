import Mathlib

/-!
# Stores and the writes that are still to come

A write changes what a store holds under one key.  Writes that are applied one after the
other change a key only if one of them is about it, and only by those.
-/

namespace PendingWrites

structure Write (Key Value : Type*) where
  key : Key
  change : Option Value → Option Value

abbrev Store (Key Value : Type*) := Key → Option Value

variable {Key Value : Type*} [DecidableEq Key]

def Write.apply (store : Store Key Value) (write : Write Key Value) : Store Key Value :=
  Function.update store write.key (write.change (store write.key))

def replay (store : Store Key Value) (writes : List (Write Key Value)) :
    Store Key Value :=
  writes.foldl Write.apply store

/-- None of the writes is about the key. -/
def Untouched (writes : List (Write Key Value)) (key : Key) : Prop :=
  ∀ write ∈ writes, write.key ≠ key

variable {store other : Store Key Value} {write : Write Key Value}
variable {writes : List (Write Key Value)} {key : Key}

@[simp]
theorem apply_same : write.apply store write.key = write.change (store write.key) :=
  Function.update_self ..

theorem apply_of_ne (hne : key ≠ write.key) : write.apply store key = store key :=
  Function.update_of_ne hne ..

theorem apply_congr (hsame : store key = other key) :
    write.apply store key = write.apply other key := by
  by_cases hkey : key = write.key
  · subst hkey
    rw [apply_same, apply_same, hsame]
  · rw [apply_of_ne hkey, apply_of_ne hkey, hsame]

theorem replay_concat :
    replay store (writes ++ [write]) = write.apply (replay store writes) := by
  rw [replay, List.foldl_concat, replay]

/-- What becomes of a key depends on nothing that is stored under other keys. -/
theorem replay_congr (hsame : store key = other key) :
    replay store writes key = replay other writes key := by
  induction writes generalizing store other with
  | nil => exact hsame
  | cons write writes ih => exact ih (apply_congr hsame)

theorem replay_of_untouched (huntouched : Untouched writes key) :
    replay store writes key = store key := by
  induction writes generalizing store with
  | nil => rfl
  | cons write writes ih =>
      obtain ⟨hfirst, hrest⟩ := List.forall_mem_cons.mp huntouched
      have hstep : replay store (write :: writes) key =
          replay (write.apply store) writes key := rfl
      rw [hstep, ih hrest, apply_of_ne (Ne.symm hfirst)]

end PendingWrites
