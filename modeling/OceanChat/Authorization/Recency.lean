import OceanChat.Authorization.LruCache
import OceanChat.Core.LruMap
import OceanChat.Core.Runs

/-!
# The memory cache against its purpose

The cache and a bounded map that forgets what has not been used go through the
same calls.  They agree as long as no call sets a key that is there already,
apart from the two places in the order where the cache does the right thing.
-/

namespace OceanChat.Authorization

open Runs

variable {Time Value : Type*}

inductive CacheCall (Time Value : Type*)
  | get (key : String)
  | set (key : String) (value : Value) (ttlMs : Time)
  | delete (key : String)
  | clear

/-- The cache and the map it should be. -/
structure Caches (Time Value : Type*) where
  cache : LRUCache Time Value
  reference : LruMap String (Item Time Value)

def Caches.initial (max : ℕ) (positive : 0 < max) : Caches Time Value :=
  ⟨⟨max, .empty⟩, .empty max positive⟩

variable [LinearOrder Time] [Add Time]

def Item.stale (now : Time) (item : Item Time Value) : Bool :=
  item.expiry < now

/-- Both go through a call that is made at the given time. -/
def Caches.step (caches : Caches Time Value) (call : Time × CacheCall Time Value) :
    Option (Caches Time Value) :=
  match call with
  | (now, .get key) => some
      ⟨(caches.cache.get now key).2,
        (caches.reference.lookup (Item.stale now) key).2⟩
  | (now, .set key value ttlMs) => some
      ⟨caches.cache.set now key value ttlMs,
        caches.reference.insert key ⟨value, now + ttlMs⟩⟩
  | (_, .delete key) => some
      ⟨caches.cache.delete key, caches.reference.delete key⟩
  | (_, .clear) => some ⟨caches.cache.clear, caches.reference.clear⟩

/-- What both answer. -/
def answers (caches : Caches Time Value) (call : Time × CacheCall Time Value) :
    List (Option Value × Option Value) :=
  match call with
  | (now, .get key) =>
      [((caches.cache.get now key).1,
        (caches.reference.lookup (Item.stale now) key).1.map Item.value)]
  | _ => []

/-- The cache has given the answers of the reference and holds what that holds,
in the same order of use. -/
structure Refines (caches : Caches Time Value)
    (history : List (Option Value × Option Value)) : Prop where
  sameAnswers : ∀ answer ∈ history, answer.1 = answer.2
  sameMax : caches.cache.max = caches.reference.max
  sameEntries : caches.cache.cache = caches.reference.map

/-- The call sets no key that is there, unless the cache is full and the key is
its oldest, or there is room and the key is its newest. -/
def KeepsRecency (caches : Caches Time Value)
    (call : Time × CacheCall Time Value) : Prop :=
  match call with
  | (_, .set key _ _) => key ∈ caches.cache.cache.keys →
      if caches.cache.max ≤ caches.cache.cache.size then
        caches.cache.cache.oldest = some key
      else caches.cache.cache.newest = some key
  | _ => True

variable {caches next : Caches Time Value} {call : Time × CacheCall Time Value}
variable {history : List (Option Value × Option Value)} {max : ℕ}

/-! ## The size of the cache -/

/-- The cache holds no more than it may. -/
def Fits (max : ℕ) (cache : LRUCache Time Value) : Prop :=
  cache.max = max ∧ cache.cache.size ≤ max

omit [Add Time] in
theorem Fits.get {cache : LRUCache Time Value} (hfits : Fits max cache)
    (now : Time) (key : String) : Fits max (cache.get now key).2 := by
  obtain ⟨hmax, hsize⟩ := hfits
  rw [LRUCache.get]
  split
  · exact ⟨hmax, hsize⟩
  · rename_i item hitem
    have hkey : key ∈ cache.cache.keys :=
      InsertionMap.mem_keys_iff.mpr (by simp [hitem])
    have hsmaller := InsertionMap.size_delete_lt hkey
    split
    · exact ⟨hmax, hsmaller.le.trans hsize⟩
    · exact ⟨hmax, InsertionMap.size_set_le.trans (hsmaller.trans_le hsize)⟩

omit [LinearOrder Time] in
theorem Fits.set {cache : LRUCache Time Value} (hfits : Fits max cache)
    (positive : 0 < max) (now : Time) (key : String) (value : Value)
    (ttlMs : Time) : Fits max (cache.set now key value ttlMs) := by
  obtain ⟨hmax, hsize⟩ := hfits
  refine ⟨hmax, InsertionMap.size_set_le.trans ?_⟩
  split
  · rw [InsertionMap.size_deleteOldest]
    omega
  · omega

theorem Fits.of_step (hfits : Fits max caches.cache) (positive : 0 < max)
    (hstep : caches.step call = some next) : Fits max next.cache := by
  obtain ⟨now, operation⟩ := call
  cases operation with
  | get key =>
      cases hstep
      exact hfits.get now key
  | set key value ttlMs =>
      cases hstep
      exact hfits.set positive now key value ttlMs
  | delete key =>
      cases hstep
      exact ⟨hfits.1, InsertionMap.size_delete_le.trans hfits.2⟩
  | clear =>
      cases hstep
      exact ⟨hfits.1, Nat.zero_le _⟩

/-! ## Refinement -/

omit [LinearOrder Time] [Add Time] in
theorem Refines.initial (max : ℕ) (positive : 0 < max) :
    Refines (Caches.initial max positive : Caches Time Value) [] :=
  ⟨by simp, rfl, rfl⟩

omit [LinearOrder Time] in
/-- Setting a key is the insertion of the reference exactly under the condition
of `KeepsRecency`. -/
theorem set_eq_insert_iff (hmax : caches.cache.max = caches.reference.max)
    (hentries : caches.cache.cache = caches.reference.map) (now : Time)
    (key : String) (value : Value) (ttlMs : Time) :
    (caches.cache.set now key value ttlMs).cache =
        (caches.reference.insert key ⟨value, now + ttlMs⟩).map ↔
      KeepsRecency caches (now, .set key value ttlMs) := by
  rw [LruMap.map_insert, KeepsRecency]
  simp only [LRUCache.set]
  by_cases hkey : key ∈ caches.cache.cache.keys
  · have hroom := LruMap.makeRoom_of_mem (hentries ▸ hkey)
    rw [hroom, ← hentries, imp_iff_right hkey]
    split_ifs with hfull
    · exact InsertionMap.set_deleteOldest_eq_iff hkey
    · exact InsertionMap.set_eq_set_delete_iff hkey
  · have hroom := LruMap.makeRoom_of_not_mem (hentries ▸ hkey)
    rw [hroom, ← hentries, ← hmax]
    exact iff_of_true rfl fun hmem => absurd hmem hkey

omit [Add Time] in
theorem get_eq_lookup (hentries : caches.cache.cache = caches.reference.map)
    (now : Time) (key : String) :
    (caches.cache.get now key).1 =
        (caches.reference.lookup (Item.stale now) key).1.map Item.value ∧
      (caches.cache.get now key).2.cache =
        (caches.reference.lookup (Item.stale now) key).2.map ∧
      (caches.cache.get now key).2.max = caches.cache.max ∧
      (caches.reference.lookup (Item.stale now) key).2.max =
        caches.reference.max := by
  rw [LRUCache.get, LruMap.lookup, ← hentries]
  cases hitem : caches.cache.cache.get key with
  | none => exact ⟨rfl, hentries, rfl, rfl⟩
  | some item =>
      by_cases hstale : item.expiry < now
      · simp [Item.stale, hstale, LruMap.delete, hentries]
      · have hkey : key ∈ caches.reference.map.keys := by
          rw [← hentries, InsertionMap.mem_keys_iff, hitem]
          rfl
        simp [Item.stale, hstale, LruMap.makeRoom_of_mem hkey, hentries,
          LruMap.insert]

theorem Refines.of_step (hrefines : Refines caches history)
    (hkeeps : KeepsRecency caches call) (hstep : caches.step call = some next) :
    Refines next (history ++ answers caches call) := by
  obtain ⟨hanswers, hmax, hentries⟩ := hrefines
  obtain ⟨now, operation⟩ := call
  cases operation with
  | get key =>
      cases hstep
      obtain ⟨hanswer, hmap, hcacheMax, hreferenceMax⟩ :=
        get_eq_lookup hentries now key
      refine ⟨?_, ?_, hmap⟩
      · simp only [List.mem_append]
        rintro answer (hold | hnew)
        · exact hanswers answer hold
        · rw [List.mem_singleton.mp hnew]
          exact hanswer
      · rw [hcacheMax, hreferenceMax, hmax]
  | set key value ttlMs =>
      cases hstep
      refine ⟨by simpa [answers] using hanswers, hmax, ?_⟩
      exact (set_eq_insert_iff hmax hentries now key value ttlMs).mpr hkeeps
  | delete key =>
      cases hstep
      refine ⟨by simpa [answers] using hanswers, hmax, ?_⟩
      rw [LRUCache.delete, hentries]
      rfl
  | clear =>
      cases hstep
      exact ⟨by simpa [answers] using hanswers, hmax, rfl⟩

theorem Refines.not_of_step (hrefines : Refines caches history)
    (hbreaks : ¬ KeepsRecency caches call)
    (hstep : caches.step call = some next) :
    ¬ Refines next (history ++ answers caches call) := by
  obtain ⟨now, operation⟩ := call
  cases operation with
  | set key value ttlMs =>
      cases hstep
      intro hnext
      exact hbreaks ((set_eq_insert_iff hrefines.sameMax hrefines.sameEntries now key
        value ttlMs).mp hnext.sameEntries)
  | get key => exact absurd trivial hbreaks
  | delete key => exact absurd trivial hbreaks
  | clear => exact absurd trivial hbreaks

/-- The cache is a map that forgets what has not been used exactly as long as no
set of a key that is there finds it in the wrong place. -/
theorem refines_iff_keepsRecency (positive : 0 < max)
    {calls : List (Time × CacheCall Time Value)} {final : Caches Time Value}
    (hrun : run Caches.step (Caches.initial max positive) calls = some final) :
    final.cache.cache.size ≤ max ∧
      ((∀ first, first <+: calls → ∀ middle,
          run Caches.step (Caches.initial max positive) first = some middle →
            Refines middle (trace Caches.step answers
              (Caches.initial max positive) first)) ↔
        Guarded Caches.step KeepsRecency (Caches.initial max positive) calls) := by
  constructor
  · have hfits : Fits max final.cache :=
      run_invariant (fun caches => Fits max caches.cache)
        (fun _ _ _ hfits hstep => hfits.of_step positive hstep)
        ⟨rfl, Nat.zero_le _⟩ hrun
    exact hfits.2
  · exact always_iff_guarded_trace Refines Refines (fun _ _ hrefines => hrefines)
      (fun _ _ _ _ hrefines hkeeps hstep => hrefines.of_step hkeeps hstep)
      (fun _ _ _ _ hrefines hbreaks hstep => hrefines.not_of_step hbreaks hstep)
      (Refines.initial max positive) hrun

/-- Two users in a cache for two, the second of them set twice, as two misses at
once do. -/
def doubleMiss : List (ℤ × CacheCall ℤ String) :=
  [(0, .set "a" "member" 10000), (1, .set "b" "member" 10000),
    (2, .set "b" "member" 10000), (3, .get "a")]

/-- The second set has driven the first user out. -/
theorem not_refines_of_doubleMiss :
    ∃ final, run Caches.step (Caches.initial 2 Nat.two_pos) doubleMiss =
        some final ∧
      trace Caches.step answers (Caches.initial 2 Nat.two_pos) doubleMiss =
        [(none, some "member")] ∧
      ¬ Refines final (trace Caches.step answers
        (Caches.initial 2 Nat.two_pos) doubleMiss) := by
  have htrace : trace Caches.step answers (Caches.initial 2 Nat.two_pos)
      doubleMiss = [(none, some "member")] := by decide
  obtain ⟨final, hrun⟩ := Option.isSome_iff_exists.mp
    (show (run Caches.step (Caches.initial 2 Nat.two_pos) doubleMiss).isSome
      by decide)
  refine ⟨final, hrun, htrace, fun hrefines => ?_⟩
  have hanswer := hrefines.sameAnswers (none, some "member") (by simp [htrace])
  cases hanswer

/-- A third user drives out the one that was not looked up. -/
def thirdUser : List (ℤ × CacheCall ℤ String) :=
  [(0, .set "a" "member" 10000), (1, .set "b" "member" 10000), (2, .get "a"),
    (3, .set "c" "member" 10000), (4, .get "b")]

theorem refines_iff_keepsRecency_of_thirdUser :
    ∃ final, run Caches.step (Caches.initial 2 Nat.two_pos) thirdUser =
        some final ∧ final.cache.cache.size ≤ 2 ∧
      ((∀ first, first <+: thirdUser → ∀ middle,
          run Caches.step (Caches.initial 2 Nat.two_pos) first = some middle →
            Refines middle (trace Caches.step answers
              (Caches.initial 2 Nat.two_pos) first)) ↔
        Guarded Caches.step KeepsRecency (Caches.initial 2 Nat.two_pos)
          thirdUser) := by
  obtain ⟨final, hrun⟩ := Option.isSome_iff_exists.mp
    (show (run Caches.step (Caches.initial 2 Nat.two_pos) thirdUser).isSome
      by decide)
  exact ⟨final, hrun, refines_iff_keepsRecency Nat.two_pos hrun⟩

end OceanChat.Authorization
