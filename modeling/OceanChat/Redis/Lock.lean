import OceanChat.Common.AppException
import OceanChat.Core.Runs
import OceanChat.Core.TtlStore

/-!
# The distributed lock

Clients take a lock with `setnx` and give it back with `delIfEqual`, and the
value under the lock key says whose it is.  An entry may expire at any time, and
a client may release its lock long after it has lost it, more than once, or
never.
-/

namespace OceanChat.Lock

abbrev Locks := TtlStore.Store String String

/-- `SET key value EX ttl NX`; `ttl` is in seconds, `now` in milliseconds. -/
def setnx (store : Locks) (key value : String) (now ttl : ℕ) : Locks × Bool :=
  TtlStore.setnx store key value (some (now + ttl * 1000))

/-- The compare-and-delete script; it answers how many keys it deleted. -/
def delIfEqual (store : Locks) (key expectedValue : String) : Locks × ℕ :=
  if TtlStore.get store key = some expectedValue then (TtlStore.del store key, 1)
  else (store, 0)

theorem fst_delIfEqual (store : Locks) (key expectedValue : String) :
    (delIfEqual store key expectedValue).1 =
      TtlStore.delIfEqual store key expectedValue := by
  unfold delIfEqual TtlStore.delIfEqual
  split <;> rfl

/-- One attempt of a client to take a lock. -/
structure Acquisition (Client : Type*) where
  client : Client
  lockKey : String
  lockValue : String
  deriving DecidableEq

/-- `creator` is the acquisition that wrote the entry now stored under a key.
`attempts` are all acquisitions so far, `inside` those that were answered `OK`
and have been neither released nor abandoned. -/
structure State (Client : Type*) where
  locks : Locks
  creator : String → Option (Acquisition Client)
  attempts : List (Acquisition Client)
  inside : List (Acquisition Client)

def State.initial {Client : Type*} : State Client where
  locks := TtlStore.empty
  creator := fun _ => none
  attempts := []
  inside := []

/-- `expire` takes away the entries under any set of keys, whatever their
deadlines. -/
inductive Event (Client : Type*)
  | setnx (acquisition : Acquisition Client) (now ttl : ℕ) (reply : Reply)
  | delIfEqual (acquisition : Acquisition Client) (reply : Reply)
  | abandon (acquisition : Acquisition Client)
  | expire (gone : String → Bool)

variable {Client : Type*}

/-- Leave the entries under some keys and forget who wrote the others. -/
def State.setLocks (state : State Client) (locks : Locks) : State Client :=
  { state with
    locks := locks
    creator := fun key => if (locks key).isSome then state.creator key else none }

section Step

variable [DecidableEq Client]

def State.leave (state : State Client) (acquisition : Acquisition Client) :
    State Client :=
  { state with inside := state.inside.filter (· ≠ acquisition) }

/-- Only a client that has tried to take a lock releases it. -/
def step (state : State Client) : Event Client → Option (State Client)
  | .setnx acquisition now ttl reply =>
      let (locks, acquired) := setnx state.locks acquisition.lockKey
        acquisition.lockValue now ttl
      some {
        locks := if reply.took then locks else state.locks
        creator := if reply.took ∧ acquired then
            Function.update state.creator acquisition.lockKey (some acquisition)
          else state.creator
        attempts := acquisition :: state.attempts
        inside := if reply = .ok ∧ acquired then acquisition :: state.inside
          else state.inside }
  | .delIfEqual acquisition reply =>
      if acquisition ∈ state.attempts then
        let locks := (delIfEqual state.locks acquisition.lockKey
          acquisition.lockValue).1
        some ((if reply.took then state.setLocks locks else state).leave
          acquisition)
      else none
  | .abandon acquisition => some (state.leave acquisition)
  | .expire gone =>
      some (state.setLocks fun key => if gone key then none else state.locks key)

end Step

/-- No lock value is used twice under one key. -/
def Distinct (state : State Client) : Event Client → Prop
  | .setnx acquisition _ _ _ => ∀ other ∈ state.attempts,
      other.lockKey = acquisition.lockKey →
        other.lockValue ≠ acquisition.lockValue
  | _ => True

instance (state : State Client) (event : Event Client) :
    Decidable (Distinct state event) :=
  match event with
  | .setnx acquisition _ _ _ => inferInstanceAs (Decidable (∀ other ∈
      state.attempts, other.lockKey = acquisition.lockKey →
        other.lockValue ≠ acquisition.lockValue))
  | .delIfEqual _ _ | .abandon _ | .expire _ => .isTrue trivial

/-- No entry expires while the acquisition that wrote it is inside. -/
def KeepsInside (state : State Client) : Event Client → Prop
  | .expire gone => ∀ key acquisition, gone key = true →
      state.creator key = some acquisition → acquisition ∉ state.inside
  | _ => True

/-! ## Every entry belongs to the acquisition that wrote it -/

/-- What holds whatever expires. -/
structure Owned (state : State Client) : Prop where
  written : ∀ key entry, state.locks key = some entry →
    ∃ acquisition ∈ state.attempts, state.creator key = some acquisition ∧
      acquisition.lockKey = key ∧ acquisition.lockValue = entry.value
  stored : ∀ key acquisition, state.creator key = some acquisition →
    state.locks key ≠ none
  distinct : ∀ left ∈ state.attempts, ∀ right ∈ state.attempts,
    left.lockKey = right.lockKey → left.lockValue = right.lockValue →
      left = right
  attempted : ∀ acquisition ∈ state.inside, acquisition ∈ state.attempts

/-- What holds as long as nobody inside loses an entry. -/
def Held (state : State Client) : Prop :=
  ∀ acquisition ∈ state.inside,
    state.creator acquisition.lockKey = some acquisition

variable {state next final : State Client} {event : Event Client}
variable {acquisition : Acquisition Client} {key : String}

theorem Owned.initial : Owned (State.initial : State Client) :=
  ⟨by simp [State.initial, TtlStore.empty], by simp [State.initial],
    by simp [State.initial], by simp [State.initial]⟩

theorem Held.initial : Held (State.initial : State Client) := by
  simp [Held, State.initial]

theorem creator_setLocks {locks : Locks} :
    (state.setLocks locks).creator key = some acquisition ↔
      locks key ≠ none ∧ state.creator key = some acquisition := by
  simp [State.setLocks, Option.isSome_iff_ne_none]

/-- Entries may go. -/
theorem Owned.setLocks (howned : Owned state) {locks : Locks}
    (hsub : ∀ key entry, locks key = some entry → state.locks key = some entry) :
    Owned (state.setLocks locks) where
  written key entry hentry := by
    obtain ⟨acquisition, hattempt, hcreator, hkey, hvalue⟩ :=
      howned.written key entry (hsub key entry hentry)
    refine ⟨acquisition, hattempt, creator_setLocks.mpr ⟨?_, hcreator⟩, hkey,
      hvalue⟩
    exact Option.ne_none_iff_exists'.mpr ⟨entry, hentry⟩
  stored key acquisition hcreator := (creator_setLocks.mp hcreator).1
  distinct := howned.distinct
  attempted := howned.attempted

/-- The entry that a matching value deletes is the one that its acquisition
wrote. -/
theorem Owned.creator_of_get (howned : Owned state)
    (hattempt : acquisition ∈ state.attempts)
    (hget : TtlStore.get state.locks acquisition.lockKey =
      some acquisition.lockValue) :
    state.creator acquisition.lockKey = some acquisition := by
  obtain ⟨entry, hentry, hvalue⟩ := Option.map_eq_some_iff.mp hget
  obtain ⟨other, hother, hcreator, hkey, hwritten⟩ :=
    howned.written acquisition.lockKey entry hentry
  rw [hcreator, howned.distinct other hother acquisition hattempt hkey
    (hwritten.trans hvalue)]

/-- A release deletes nothing but the entry of its own acquisition. -/
theorem Owned.delIfEqual_of_creator_ne (howned : Owned state)
    (hattempt : acquisition ∈ state.attempts)
    (hne : state.creator key ≠ some acquisition) :
    (delIfEqual state.locks acquisition.lockKey acquisition.lockValue).1 key =
      state.locks key := by
  rw [fst_delIfEqual]
  apply TtlStore.delIfEqual_of_get_ne
  rintro rfl hget
  exact hne (howned.creator_of_get hattempt hget)

theorem delIfEqual_sub {locks : Locks} {lockKey lockValue : String}
    {entry : TtlStore.Entry String}
    (hentry : (delIfEqual locks lockKey lockValue).1 key = some entry) :
    locks key = some entry := by
  rw [fst_delIfEqual] at hentry
  have hcases : TtlStore.delIfEqual locks lockKey lockValue key = locks key ∨
      TtlStore.delIfEqual locks lockKey lockValue key = none :=
    TtlStore.delIfEqual_eq_or_none
  rcases hcases with hsame | hnone
  · exact hsame ▸ hentry
  · rw [hnone] at hentry
    cases hentry

theorem distinct_cons (howned : Owned state)
    (hfresh : ∀ other ∈ state.attempts, other.lockKey = acquisition.lockKey →
      other.lockValue ≠ acquisition.lockValue) :
    ∀ left ∈ acquisition :: state.attempts,
      ∀ right ∈ acquisition :: state.attempts,
        left.lockKey = right.lockKey → left.lockValue = right.lockValue →
          left = right := by
  intro left hleft right hright hkey hvalue
  rcases List.mem_cons.mp hleft with rfl | hold
  · rcases List.mem_cons.mp hright with hsame | hother
    · exact hsame.symm
    · exact absurd hvalue.symm (hfresh right hother hkey.symm)
  · rcases List.mem_cons.mp hright with rfl | hother
    · exact absurd hvalue (hfresh left hold hkey)
    · exact howned.distinct left hold right hother hkey hvalue

/-- A free key is written. -/
theorem Owned.acquire (howned : Owned state)
    (hfresh : ∀ other ∈ state.attempts, other.lockKey = acquisition.lockKey →
      other.lockValue ≠ acquisition.lockValue)
    (expiresAt : Option ℕ) {inside : List (Acquisition Client)}
    (hinside : ∀ other ∈ inside, other = acquisition ∨ other ∈ state.inside) :
    Owned {
      locks := TtlStore.put state.locks acquisition.lockKey
        acquisition.lockValue expiresAt
      creator := Function.update state.creator acquisition.lockKey
        (some acquisition)
      attempts := acquisition :: state.attempts
      inside := inside } where
  written key entry hentry := by
    by_cases hkey : key = acquisition.lockKey
    · subst hkey
      obtain rfl : _ = entry := by simpa using hentry
      exact ⟨acquisition, by simp, by simp, rfl, rfl⟩
    · simp only [TtlStore.put_of_ne hkey] at hentry
      obtain ⟨other, hother, hcreator, hwritten⟩ := howned.written key entry hentry
      exact ⟨other, List.mem_cons_of_mem _ hother, by simp [hkey, hcreator],
        hwritten⟩
  stored key other hcreator := by
    by_cases hkey : key = acquisition.lockKey
    · subst hkey
      simp
    · simp only [Function.update_of_ne hkey] at hcreator
      simp only [TtlStore.put_of_ne hkey]
      exact howned.stored key other hcreator
  distinct := distinct_cons howned hfresh
  attempted other hother := by
    rcases hinside other hother with rfl | hold
    · simp
    · exact List.mem_cons_of_mem _ (howned.attempted other hold)

/-- A refused attempt changes nothing but the list of attempts. -/
theorem Owned.refuse (howned : Owned state)
    (hfresh : ∀ other ∈ state.attempts, other.lockKey = acquisition.lockKey →
      other.lockValue ≠ acquisition.lockValue) :
    Owned { state with attempts := acquisition :: state.attempts } where
  written key entry hentry := by
    obtain ⟨other, hother, hwritten⟩ := howned.written key entry hentry
    exact ⟨other, List.mem_cons_of_mem _ hother, hwritten⟩
  stored := howned.stored
  distinct := distinct_cons howned hfresh
  attempted other hother :=
    List.mem_cons_of_mem _ (howned.attempted other hother)

/-- At most one acquisition of a key is inside. -/
theorem Held.exclusive (hheld : Held state) {left right : Acquisition Client}
    (hleft : left ∈ state.inside) (hright : right ∈ state.inside)
    (hkey : left.lockKey = right.lockKey) : left = right :=
  Option.some.inj ((hheld left hleft).symm.trans (hkey ▸ hheld right hright))

section Steps

variable [DecidableEq Client]

theorem Owned.leave (howned : Owned state) (acquisition : Acquisition Client) :
    Owned (state.leave acquisition) where
  written := howned.written
  stored := howned.stored
  distinct := howned.distinct
  attempted other hother :=
    howned.attempted other (List.mem_of_mem_filter hother)

theorem mem_inside_leave {other : Acquisition Client} :
    other ∈ (state.leave acquisition).inside ↔
      other ∈ state.inside ∧ other ≠ acquisition := by
  simp [State.leave]

theorem Held.leave (hheld : Held state) (acquisition : Acquisition Client) :
    Held (state.leave acquisition) :=
  fun other hother => hheld other (mem_inside_leave.mp hother).1

/-- Everything one step can do. -/
inductive Effect (state : State Client) : Event Client → State Client → Prop
  | acquired (acquisition : Acquisition Client) (now ttl : ℕ) (reply : Reply)
      (hfree : state.locks acquisition.lockKey = none)
      (htook : reply.took = true) :
      Effect state (.setnx acquisition now ttl reply) {
        locks := TtlStore.put state.locks acquisition.lockKey
          acquisition.lockValue (some (now + ttl * 1000))
        creator := Function.update state.creator acquisition.lockKey
          (some acquisition)
        attempts := acquisition :: state.attempts
        inside := if reply = .ok then acquisition :: state.inside
          else state.inside }
  | refused (acquisition : Acquisition Client) (now ttl : ℕ) (reply : Reply) :
      Effect state (.setnx acquisition now ttl reply)
        { state with attempts := acquisition :: state.attempts }
  | released (acquisition : Acquisition Client) (reply : Reply)
      (hattempt : acquisition ∈ state.attempts) :
      Effect state (.delIfEqual acquisition reply)
        ((if reply.took then state.setLocks (delIfEqual state.locks
            acquisition.lockKey acquisition.lockValue).1
          else state).leave acquisition)
  | abandoned (acquisition : Acquisition Client) :
      Effect state (.abandon acquisition) (state.leave acquisition)
  | expired (gone : String → Bool) :
      Effect state (.expire gone)
        (state.setLocks fun key => if gone key then none else state.locks key)

theorem step_effect (hstep : step state event = some next) :
    Effect state event next := by
  cases event with
  | setnx acquisition now ttl reply =>
      simp only [step, setnx] at hstep
      cases hlock : state.locks acquisition.lockKey with
      | some entry =>
          simp only [TtlStore.setnx_of_some hlock] at hstep
          obtain rfl := Option.some.inj hstep
          simpa using Effect.refused acquisition now ttl reply
      | none =>
          simp only [TtlStore.setnx_of_none hlock] at hstep
          obtain rfl := Option.some.inj hstep
          cases reply with
          | failed => simpa [Reply.took] using
              Effect.refused acquisition now ttl .failed
          | ok => simpa [Reply.took] using
              Effect.acquired acquisition now ttl .ok hlock rfl
          | lost => simpa [Reply.took] using
              Effect.acquired acquisition now ttl .lost hlock rfl
  | delIfEqual acquisition reply =>
      simp only [step] at hstep
      split at hstep
      · rename_i hattempt
        obtain rfl := Option.some.inj hstep
        exact .released acquisition reply hattempt
      · cases hstep
  | abandon acquisition =>
      obtain rfl := Option.some.inj hstep
      exact .abandoned acquisition
  | expire gone =>
      obtain rfl := Option.some.inj hstep
      exact .expired gone

theorem Owned.of_step (howned : Owned state) (hdistinct : Distinct state event)
    (hstep : step state event = some next) : Owned next := by
  cases step_effect hstep with
  | acquired acquisition now ttl reply hfree htook =>
      apply howned.acquire hdistinct
      intro other hother
      split at hother
      · exact List.mem_cons.mp hother
      · exact .inr hother
  | refused acquisition now ttl reply => exact howned.refuse hdistinct
  | released acquisition reply hattempt =>
      apply Owned.leave
      split
      · exact howned.setLocks fun key entry => delIfEqual_sub
      · exact howned
  | abandoned acquisition => exact howned.leave acquisition
  | expired gone =>
      apply howned.setLocks
      intro key entry hentry
      split at hentry
      · cases hentry
      · exact hentry

theorem Held.of_step (hheld : Held state) (howned : Owned state)
    (hkeep : KeepsInside state event) (hstep : step state event = some next) :
    Held next := by
  cases step_effect hstep with
  | acquired acquisition now ttl reply hfree htook =>
      intro other hother
      have hcases : other = acquisition ∨ other ∈ state.inside := by
        simp only at hother
        split at hother
        · exact List.mem_cons.mp hother
        · exact .inr hother
      rcases hcases with rfl | hold
      · simp
      · have hne : other.lockKey ≠ acquisition.lockKey := by
          intro hkey
          exact howned.stored other.lockKey other (hheld other hold)
            (hkey ▸ hfree)
        simp only [Function.update_of_ne hne]
        exact hheld other hold
  | refused acquisition now ttl reply => exact hheld
  | released acquisition reply hattempt =>
      intro other hother
      obtain ⟨hinside, hne⟩ := mem_inside_leave.mp hother
      cases htook : reply.took with
      | false =>
          rw [htook] at hinside
          exact hheld other hinside
      | true =>
          rw [htook] at hinside
          have hcreator := hheld other hinside
          refine creator_setLocks.mpr ⟨?_, hcreator⟩
          rw [howned.delIfEqual_of_creator_ne hattempt]
          · exact howned.stored other.lockKey other hcreator
          · rw [hcreator]
            exact fun hsame => hne (Option.some.inj hsame)
  | abandoned acquisition => exact hheld.leave acquisition
  | expired gone =>
      intro other hinside
      have hcreator := hheld other hinside
      refine creator_setLocks.mpr ⟨?_, hcreator⟩
      split
      · rename_i hgone
        exact absurd hinside (hkeep other.lockKey other hgone hcreator)
      · exact howned.stored other.lockKey other hcreator

/-! ## Runs -/

theorem Owned.of_run {events : List (Event Client)} (howned : Owned state)
    (hdistinct : Runs.Guarded step Distinct state events)
    (hrun : Runs.run step state events = some final) : Owned final :=
  Runs.run_invariant_of_guarded Owned
    (fun _ _ _ howned hdistinct hstep => howned.of_step hdistinct hstep)
    howned hdistinct hrun

theorem Held.of_run {events : List (Event Client)} (hheld : Held state)
    (howned : Owned state)
    (hdistinct : Runs.Guarded step Distinct state events)
    (hkeep : Runs.Guarded step KeepsInside state events)
    (hrun : Runs.run step state events = some final) : Held final := by
  refine (Runs.run_invariant_of_guarded (fun state => Owned state ∧ Held state)
    ?_ ⟨howned, hheld⟩ (Runs.guarded_and.mpr ⟨hdistinct, hkeep⟩) hrun).2
  rintro middle event next ⟨howned, hheld⟩ ⟨hdistinct, hkeep⟩ hstep
  exact ⟨howned.of_step hdistinct hstep, hheld.of_step howned hkeep hstep⟩

/-- However late it comes, a release takes away no entry but the one that its
own acquisition wrote; and as long as no entry expires before its owner has
left, at most one acquisition of a key is inside. -/
theorem lock_safe {events : List (Event Client)}
    (hrun : Runs.run step State.initial events = some final)
    (hdistinct : Runs.Guarded step Distinct State.initial events) :
    (∀ acquisition reply next key,
      step final (.delIfEqual acquisition reply) = some next →
        final.creator key ≠ some acquisition →
          next.locks key = final.locks key) ∧
      (Runs.Guarded step KeepsInside State.initial events →
        ∀ left ∈ final.inside, ∀ right ∈ final.inside,
          left.lockKey = right.lockKey → left = right) := by
  have howned := Owned.initial.of_run hdistinct hrun
  constructor
  · intro acquisition reply next key hstep hne
    cases step_effect hstep with
    | released _ _ hattempt =>
        split
        · exact howned.delIfEqual_of_creator_ne hattempt hne
        · rfl
  · intro hkeep left hleft right hright hkey
    exact (Held.initial.of_run Owned.initial hdistinct hkeep hrun).exclusive
      hleft hright hkey

end Steps

/-- The lock of the first client expires, the second takes it, and then the
first one releases. -/
def lateRelease : List (Event ℕ) :=
  [.setnx ⟨0, "key:lock", "lock-0"⟩ 0 10 .ok, .expire fun _ => true,
    .setnx ⟨1, "key:lock", "lock-1"⟩ 10000 10 .ok]

theorem lock_safe_of_lateRelease :
    ∃ final next, Runs.run step State.initial lateRelease = some final ∧
      step final (.delIfEqual ⟨0, "key:lock", "lock-0"⟩ .ok) = some next ∧
      TtlStore.get final.locks "key:lock" = some "lock-1" ∧
      next.locks "key:lock" = final.locks "key:lock" := by
  obtain ⟨final, hrun, hfinal⟩ := Option.map_eq_some_iff.mp
    (show (Runs.run step State.initial lateRelease).map (fun state =>
        (state.creator "key:lock", TtlStore.get state.locks "key:lock",
          (step state (.delIfEqual ⟨0, "key:lock", "lock-0"⟩ .ok)).isSome)) =
      some (some ⟨1, "key:lock", "lock-1"⟩, some "lock-1", true) by decide)
  obtain ⟨hcreator, hget, henabled⟩ : _ ∧ _ ∧ _ := by simpa using hfinal
  obtain ⟨next, hnext⟩ := Option.isSome_iff_exists.mp henabled
  exact ⟨final, next, hrun, hnext, hget, (lock_safe hrun (by decide)).1
    ⟨0, "key:lock", "lock-0"⟩ .ok next "key:lock" hnext (by simp [hcreator])⟩

end OceanChat.Lock
