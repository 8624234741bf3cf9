import Mathlib.Data.List.Induction
import Mathlib.Data.List.Nodup

/-!
# Upserts into a list of stamped entries

A call renews the stamp of the entries with its key, or appends a fresh entry
where there is none.  After any calls the old entries stand as before, each with
the stamp of the last call of its key, and the new keys follow in the order of
their first calls.
-/

namespace Upsert

/-- Entries with a key and a stamp that is replaced as a whole. -/
structure Stamped (Entry Key Time : Type) where
  key : Entry → Key
  touch : Time → Entry → Entry
  fresh : Key → Time → Entry
  key_touch : ∀ time entry, key (touch time entry) = key entry
  key_fresh : ∀ k time, key (fresh k time) = k
  touch_touch : ∀ time time' entry,
    touch time' (touch time entry) = touch time' entry
  touch_fresh : ∀ k time time', touch time' (fresh k time) = fresh k time'

variable {Entry Key Time : Type} [DecidableEq Key]

/-- Replace the stamp of an entry with the key of the call. -/
def renew (table : Stamped Entry Key Time) (call : Key × Time) (entry : Entry) :
    Entry :=
  if table.key entry = call.1 then table.touch call.2 entry else entry

def upsert (table : Stamped Entry Key Time) (entries : List Entry)
    (call : Key × Time) : List Entry :=
  if call.1 ∈ entries.map table.key then entries.map (renew table call)
  else entries ++ [table.fresh call.1 call.2]

def upserts (table : Stamped Entry Key Time) (entries : List Entry)
    (calls : List (Key × Time)) : List Entry :=
  calls.foldl (upsert table) entries

/-- The time of the last call of a key. -/
def lastCall (k : Key) (calls : List (Key × Time)) : Option Time :=
  ((calls.filter fun call => call.1 = k).getLast?).map Prod.snd

/-- The keys that are not known, in the order of their first calls. -/
def newKeys (known : List Key) : List (Key × Time) → List Key
  | [] => []
  | call :: calls =>
      if call.1 ∈ known then newKeys known calls
      else call.1 :: newKeys (call.1 :: known) calls

/-- An entry after the last call of its key. -/
def stamp (table : Stamped Entry Key Time) (calls : List (Key × Time))
    (entry : Entry) : Entry :=
  match lastCall (table.key entry) calls with
  | some time => table.touch time entry
  | none => entry

/-! ## Last calls and new keys -/

section Calls

variable {k : Key} {known : List Key} {calls : List (Key × Time)}

theorem lastCall_append (call : Key × Time) :
    lastCall k (calls ++ [call]) =
      if call.1 = k then some call.2 else lastCall k calls := by
  unfold lastCall
  by_cases hkey : call.1 = k
  · simp [hkey]
  · simp [hkey]

theorem lastCall_eq_none : lastCall k calls = none ↔ k ∉ calls.map Prod.fst := by
  rw [lastCall, Option.map_eq_none_iff, List.getLast?_eq_none_iff,
    List.filter_eq_nil_iff, List.mem_map]
  constructor
  · rintro hall ⟨call, hcall, hkey⟩
    exact hall call hcall (by simpa using hkey)
  · intro hnone call hcall hkey
    exact hnone ⟨call, hcall, by simpa using hkey⟩

theorem exists_lastCall (hmem : k ∈ calls.map Prod.fst) :
    ∃ time, lastCall k calls = some time := by
  refine Option.ne_none_iff_exists'.mp fun hnone => ?_
  exact lastCall_eq_none.mp hnone hmem

theorem mem_newKeys :
    k ∈ newKeys known calls ↔ k ∈ calls.map Prod.fst ∧ k ∉ known := by
  induction calls generalizing known with
  | nil => simp [newKeys]
  | cons call calls ih =>
      unfold newKeys
      split
      · rename_i hknown
        rw [ih, List.map_cons, List.mem_cons]
        constructor
        · rintro ⟨hmem, hnew⟩
          exact ⟨.inr hmem, hnew⟩
        · rintro ⟨hmem, hnew⟩
          refine ⟨hmem.resolve_left fun hsame => hnew (hsame ▸ hknown), hnew⟩
      · rename_i hunknown
        rw [List.mem_cons, ih, List.map_cons, List.mem_cons, List.mem_cons]
        constructor
        · rintro (rfl | ⟨hmem, hnew⟩)
          · exact ⟨.inl rfl, hunknown⟩
          · exact ⟨.inr hmem, fun hknown => hnew (.inr hknown)⟩
        · rintro ⟨hmem, hnew⟩
          by_cases hsame : k = call.1
          · exact .inl hsame
          · refine .inr ⟨hmem.resolve_left hsame, ?_⟩
            rintro (h | h)
            · exact hsame h
            · exact hnew h

theorem nodup_newKeys : (newKeys known calls).Nodup := by
  induction calls generalizing known with
  | nil => exact List.nodup_nil
  | cons call calls ih =>
      unfold newKeys
      split
      · exact ih
      · exact List.nodup_cons.mpr
          ⟨fun hmem => (mem_newKeys.mp hmem).2 List.mem_cons_self, ih⟩

theorem newKeys_append (call : Key × Time) :
    newKeys known (calls ++ [call]) =
      newKeys known calls ++
        if call.1 ∈ known ∨ call.1 ∈ calls.map Prod.fst then [] else [call.1] := by
  induction calls generalizing known with
  | nil => by_cases hknown : call.1 ∈ known <;> simp [newKeys, hknown]
  | cons first calls ih =>
      by_cases hknown : first.1 ∈ known
      · have hsame : (call.1 ∈ known ∨ call.1 ∈ (first :: calls).map Prod.fst) ↔
            call.1 ∈ known ∨ call.1 ∈ calls.map Prod.fst := by
          rw [List.map_cons, List.mem_cons]
          constructor
          · rintro (h | h | h)
            · exact .inl h
            · exact .inl (h ▸ hknown)
            · exact .inr h
          · rintro (h | h)
            · exact .inl h
            · exact .inr (.inr h)
        simp only [List.cons_append, newKeys, hknown, if_true, ih, hsame]
      · have hsame : (call.1 ∈ known ∨ call.1 ∈ (first :: calls).map Prod.fst) ↔
            call.1 ∈ first.1 :: known ∨ call.1 ∈ calls.map Prod.fst := by
          rw [List.map_cons, List.mem_cons, List.mem_cons]
          tauto
        simp only [List.cons_append, newKeys, hknown, if_false, ih, hsame]

end Calls

/-! ## The entries after any calls -/

section Entries

variable {table : Stamped Entry Key Time} {entries : List Entry}
variable {calls : List (Key × Time)} {entry : Entry}

theorem key_stamp : table.key (stamp table calls entry) = table.key entry := by
  unfold stamp
  split
  · exact table.key_touch _ _
  · rfl

/-- An entry that is not called stays as it is. -/
theorem stamp_of_not_mem (hnone : table.key entry ∉ calls.map Prod.fst) :
    stamp table calls entry = entry := by
  rw [stamp, lastCall_eq_none.mpr hnone]

theorem stamp_append (call : Key × Time) :
    stamp table (calls ++ [call]) entry =
      renew table call (stamp table calls entry) := by
  rw [renew, key_stamp]
  unfold stamp
  rw [lastCall_append]
  by_cases hkey : call.1 = table.key entry
  · rw [if_pos hkey, if_pos hkey.symm]
    cases lastCall (table.key entry) calls with
    | none => rfl
    | some time => exact (table.touch_touch _ _ _).symm
  · rw [if_neg hkey, if_neg (Ne.symm hkey)]

/-- A call of a key that is not there renews nothing. -/
theorem map_renew_of_not_mem {call : Key × Time}
    (hnone : call.1 ∉ entries.map table.key) :
    entries.map (renew table call) = entries := by
  have hsame : ∀ entry ∈ entries, renew table call entry = entry := by
    intro entry hentry
    refine if_neg fun hkey : table.key entry = call.1 => hnone ?_
    rw [← hkey]
    exact List.mem_map_of_mem hentry
  rw [List.map_congr_left hsame, List.map_id']

/-- The entries of the new keys. -/
def newEntries (table : Stamped Entry Key Time) (known : List Key)
    (calls : List (Key × Time)) : List Entry :=
  (newKeys known calls).filterMap fun k =>
    (lastCall k calls).map (table.fresh k)

theorem mem_newEntries {known : List Key} :
    entry ∈ newEntries table known calls ↔
      ∃ k ∈ newKeys known calls, ∃ time, lastCall k calls = some time ∧
        table.fresh k time = entry := by
  simp [newEntries, List.mem_filterMap]

theorem map_key_newEntries (table : Stamped Entry Key Time) (known : List Key)
    (calls : List (Key × Time)) :
    (newEntries table known calls).map table.key = newKeys known calls := by
  have hall : ∀ keys : List Key, (∀ k ∈ keys, k ∈ calls.map Prod.fst) →
      (keys.filterMap fun k => (lastCall k calls).map (table.fresh k)).map
        table.key = keys := by
    intro keys hkeys
    induction keys with
    | nil => rfl
    | cons k keys ih =>
        obtain ⟨time, htime⟩ := exists_lastCall (hkeys k List.mem_cons_self)
        rw [List.filterMap_cons_some (by rw [htime]; rfl), List.map_cons,
          table.key_fresh, ih fun one hone => hkeys one (List.mem_cons_of_mem _ hone)]
  exact hall _ fun k hk => (mem_newKeys.mp hk).1

/-- A further call renews the entries of the new keys like all others, and adds
one if its key has none. -/
theorem newEntries_append (known : List Key) (call : Key × Time) :
    newEntries table known (calls ++ [call]) =
      (newEntries table known calls).map (renew table call) ++
        if call.1 ∈ known ∨ call.1 ∈ calls.map Prod.fst then []
        else [table.fresh call.1 call.2] := by
  have hrenewed : ((newKeys known calls).filterMap fun k =>
      (lastCall k (calls ++ [call])).map (table.fresh k)) =
        (newEntries table known calls).map (renew table call) := by
    rw [newEntries, List.map_filterMap]
    refine List.filterMap_congr fun k hk => ?_
    obtain ⟨time, htime⟩ := exists_lastCall (mem_newKeys.mp hk).1
    rw [lastCall_append, htime, Option.map_some, Option.map_some, renew,
      table.key_fresh]
    by_cases hkey : call.1 = k
    · rw [if_pos hkey, if_pos hkey.symm, table.touch_fresh]
      rfl
    · rw [if_neg hkey, if_neg (Ne.symm hkey)]
      rfl
  rw [newEntries, newKeys_append, List.filterMap_append, hrenewed]
  split
  · rfl
  · simp [lastCall_append]

/-- The old entries with the stamps of their last calls, then the new ones. -/
theorem upserts_eq (table : Stamped Entry Key Time) (entries : List Entry)
    (calls : List (Key × Time)) :
    upserts table entries calls =
      entries.map (stamp table calls) ++
        newEntries table (entries.map table.key) calls := by
  induction calls using List.reverseRecOn with
  | nil =>
      have hsame : ∀ entry ∈ entries, stamp table [] entry = entry := fun _ _ => rfl
      rw [List.map_congr_left hsame, List.map_id']
      simp [upserts, newEntries, newKeys]
  | append_singleton calls call ih =>
      have hkeys : (entries.map (stamp table calls)).map table.key =
          entries.map table.key := by
        rw [List.map_map]
        exact List.map_congr_left fun entry _ => key_stamp
      have hold : entries.map (stamp table (calls ++ [call])) =
          (entries.map (stamp table calls)).map (renew table call) := by
        rw [List.map_map]
        exact List.map_congr_left fun entry _ => stamp_append call
      have hstep : upserts table entries (calls ++ [call]) =
          upsert table (upserts table entries calls) call := by
        simp [upserts]
      rw [hstep, ih, hold, upsert, List.map_append, hkeys,
        map_key_newEntries]
      have hthere : call.1 ∈ entries.map table.key ++
          newKeys (entries.map table.key) calls ↔
            call.1 ∈ entries.map table.key ∨ call.1 ∈ calls.map Prod.fst := by
        rw [List.mem_append, mem_newKeys]
        tauto
      rw [newEntries_append]
      by_cases hmem : call.1 ∈ entries.map table.key ++
          newKeys (entries.map table.key) calls
      · rw [if_pos hmem, if_pos (hthere.mp hmem), List.map_append, List.append_nil]
      · have hold : call.1 ∉ (entries.map (stamp table calls)).map table.key := by
          rw [hkeys]
          exact fun hin => hmem (List.mem_append_left _ hin)
        have hnew : call.1 ∉ (newEntries table (entries.map table.key) calls).map
            table.key := by
          rw [map_key_newEntries]
          exact fun hin => hmem (List.mem_append_right _ hin)
        rw [if_neg hmem, if_neg (mt hthere.mpr hmem), map_renew_of_not_mem hold,
          map_renew_of_not_mem hnew, List.append_assoc]

/-! ## What is kept -/

theorem map_key_upserts (table : Stamped Entry Key Time) (entries : List Entry)
    (calls : List (Key × Time)) :
    (upserts table entries calls).map table.key =
      entries.map table.key ++ newKeys (entries.map table.key) calls := by
  rw [upserts_eq, List.map_append, map_key_newEntries, List.map_map]
  congr 1
  exact List.map_congr_left fun entry _ => key_stamp

theorem nodup_upserts (hnodup : (entries.map table.key).Nodup) :
    ((upserts table entries calls).map table.key).Nodup := by
  rw [map_key_upserts]
  refine hnodup.append nodup_newKeys ?_
  intro k hknown hnew
  exact (mem_newKeys.mp hnew).2 hknown

/-- An entry of a called key has the stamp of the last call. -/
theorem touch_eq_self_of_mem {time : Time}
    (hmem : entry ∈ upserts table entries calls)
    (hlast : lastCall (table.key entry) calls = some time) :
    table.touch time entry = entry := by
  rw [upserts_eq, List.mem_append, List.mem_map, mem_newEntries] at hmem
  rcases hmem with ⟨old, hold, rfl⟩ | ⟨k, hk, time', htime', rfl⟩
  · rw [key_stamp] at hlast
    rw [stamp, hlast]
    exact table.touch_touch _ _ _
  · rw [table.key_fresh, htime', Option.some.injEq] at hlast
    subst hlast
    exact table.touch_fresh _ _ _

end Entries

end Upsert
