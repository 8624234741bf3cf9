import OceanChat.IdGenerator.Service

/-!
# The loop of the slow path

`allocateSegmentAndGenerate` for any replies of Redis and MongoDB.  An iteration
that loses the race for the lock counts as a retry; one whose segment comes too
late does not, so only the first kind is bounded by `MAX_RETRIES`.
-/

namespace OceanChat.IdGenerator

/-- What an awaited command rejects with. -/
inductive Failure
  | app (error : AppException)
  | other
  deriving DecidableEq

/-- The replies of one iteration.  `setnx` tells whether the answer is `OK`;
`generate` is the one `GENERATE_SEQ_LUA` that the iteration may run. -/
structure Replies where
  setnx : Except Failure Bool
  allocateSegment : Except Failure ℤ
  sync : Except Failure ℤ
  generate : Except Failure (Option String)
  delIfEqual : Except Failure Unit

/-- How an iteration ends: the call returns or throws, or the loop goes on. -/
inductive Iteration
  | ends (outcome : Outcome)
  | again (retries : ℕ)
  deriving DecidableEq

/-- The outer `catch` block. -/
def caught : Failure → AppException
  | .app error => error
  | .other => allocationFailed

/-- `if (fastPathResult)`. -/
def Replies.fastPath (replies : Replies) : Except Failure (Option String) :=
  replies.generate.map (·.filter (· ≠ ""))

/-- The `finally` block of a call that still takes itself for the owner of the
lock. -/
def Replies.release (replies : Replies) (ended : Except Failure (Option String)) :
    Except Failure (Option String) :=
  match replies.delIfEqual with
  | .ok () => ended
  | .error failure => .error failure

/-- The inner `try` statement, `none` for `continue`. -/
def Replies.allocate (replies : Replies) : Except Failure (Option String) :=
  match replies.allocateSegment with
  | .error failure => replies.release (.error failure)
  | .ok max =>
      let cur := max - segmentStep + 1
      match replies.sync with
      | .error failure => replies.release (.error failure)
      | .ok synced =>
          if synced = 1 then replies.release (.ok (some (toString cur)))
          else
            match replies.fastPath with
            | .error failure => replies.release (.error failure)
            | .ok (some seq) => replies.release (.ok (some seq))
            | .ok none => .ok none

/-- The body of the `while` loop. -/
def iteration (retries : ℕ) (replies : Replies) : Iteration :=
  match replies.setnx with
  | .error failure => .ends (.threw (caught failure))
  | .ok false =>
      match replies.fastPath with
      | .error failure => .ends (.threw (caught failure))
      | .ok (some seq) => .ends (.returned seq)
      | .ok none => .again (retries + 1)
  | .ok true =>
      match replies.allocate with
      | .error failure => .ends (.threw (caught failure))
      | .ok (some seq) => .ends (.returned seq)
      | .ok none => .again retries

/-- The loop, with the replies of its iterations; `none` when it goes on after
all of them. -/
def allocateSegmentAndGenerate (retries : ℕ) : List Replies → Option Outcome
  | [] => if retries < maxRetries then none else some (.threw lockTimeout)
  | replies :: rest =>
      if retries < maxRetries then
        match iteration retries replies with
        | .ends outcome => some outcome
        | .again retries => allocateSegmentAndGenerate retries rest
      else some (.threw lockTimeout)

/-- The call returns or throws after at most `MAX_RETRIES` iterations. -/
def Bounded (replies : ℕ → Replies) : Prop :=
  ∃ outcome, allocateSegmentAndGenerate 0 ((List.range maxRetries).map replies) =
    some outcome

/-- `GENERATE_SEQ_LUA` answers nil. -/
def Replies.Exhausted (replies : Replies) : Prop := replies.fastPath = .ok none

/-- Another call has the lock, and no number is there after the wait. -/
def Replies.LosesRace (replies : Replies) : Prop :=
  replies.setnx = .ok false ∧ replies.Exhausted

instance decidableLosesRace (replies : Replies) : Decidable replies.LosesRace :=
  inferInstanceAs (Decidable
    (replies.setnx = .ok false ∧ replies.fastPath = .ok none))

/-- The segment comes too late, and no number is there either. -/
def Replies.ComesLate (replies : Replies) : Prop :=
  replies.setnx = .ok true ∧ (∃ max, replies.allocateSegment = .ok max) ∧
    (∃ synced, replies.sync = .ok synced ∧ synced ≠ 1) ∧ replies.Exhausted

/-- The iteration ends with the loop going on. -/
def Replies.Repeats (replies : Replies) : Prop :=
  replies.LosesRace ∨ replies.ComesLate

section Loop

variable {replies : Replies} {retries next : ℕ}

/-- The `finally` block never turns an end into a `continue`. -/
theorem release_eq_none {ended : Except Failure (Option String)}
    (hended : replies.release ended = .ok none) : ended = .ok none := by
  unfold Replies.release at hended
  split at hended
  · exact hended
  · cases hended

theorem allocate_eq_none : replies.allocate = .ok none ↔
    (∃ max, replies.allocateSegment = .ok max) ∧
      (∃ synced, replies.sync = .ok synced ∧ synced ≠ 1) ∧ replies.Exhausted := by
  unfold Replies.allocate Replies.Exhausted
  constructor
  · intro hnone
    split at hnone
    · cases release_eq_none hnone
    · rename_i max hmax
      split at hnone
      · cases release_eq_none hnone
      · rename_i synced hsynced
        split at hnone
        · cases release_eq_none hnone
        · rename_i hlate
          split at hnone
          · cases release_eq_none hnone
          · cases release_eq_none hnone
          · rename_i hnil
            exact ⟨⟨max, hmax⟩, ⟨synced, hsynced, hlate⟩, hnil⟩
  · rintro ⟨⟨max, hmax⟩, ⟨synced, hsynced, hlate⟩, hnil⟩
    simp only [hmax, hsynced, if_neg hlate, hnil]

theorem iteration_eq_again : iteration retries replies = .again next ↔
    (replies.LosesRace ∧ next = retries + 1) ∨
      (replies.ComesLate ∧ next = retries) := by
  simp only [Replies.ComesLate, ← allocate_eq_none]
  unfold iteration Replies.LosesRace Replies.Exhausted
  split
  · rename_i failure hfailed
    simp [hfailed]
  · rename_i hlost
    split <;> rename_i hreply <;> simp [hlost, hreply, eq_comm]
  · rename_i hacquired
    split <;> rename_i hreply <;> simp [hacquired, hreply, eq_comm]

theorem repeats_iff : replies.Repeats ↔
    ∃ next, iteration retries replies = .again next := by
  simp only [iteration_eq_again, exists_or, exists_and_left, exists_eq, and_true,
    Replies.Repeats]

/-- An iteration repeats in only one of the two ways. -/
theorem not_comesLate_of_losesRace (hlost : replies.LosesRace) :
    ¬ replies.ComesLate := by
  rintro ⟨hacquired, -⟩
  cases hlost.1.symm.trans hacquired

/-- The loop goes on as long as its iterations repeat and fewer than
`MAX_RETRIES` of them have lost the race. -/
theorem allocateSegmentAndGenerate_eq_none {all : List Replies} :
    allocateSegmentAndGenerate retries all = none ↔
      (∀ replies ∈ all, replies.Repeats) ∧
        retries + all.countP (fun replies => replies.LosesRace) < maxRetries := by
  induction all generalizing retries with
  | nil => simp [allocateSegmentAndGenerate]
  | cons replies rest ih =>
      rw [allocateSegmentAndGenerate, List.forall_mem_cons, List.countP_cons]
      by_cases hmore : retries < maxRetries
      · rw [if_pos hmore]
        cases hiteration : iteration retries replies with
        | ends outcome =>
            have hends : ¬ replies.Repeats := by
              rw [@repeats_iff replies retries, hiteration]
              simp
            simp [hends]
        | again next =>
            have hrepeats : replies.Repeats := repeats_iff.mpr ⟨next, hiteration⟩
            simp only [ih, hrepeats, true_and]
            rcases iteration_eq_again.mp hiteration with
              ⟨hlost, rfl⟩ | ⟨hlate, rfl⟩
            · simp only [hlost, decide_true, if_true]
              rw [Nat.add_right_comm, Nat.add_assoc]
            · have hother : ¬ replies.LosesRace := fun hlost =>
                not_comesLate_of_losesRace hlost hlate
              simp [hother]
      · rw [if_neg hmore]
        simp only [reduceCtorEq, false_iff]
        omega

end Loop

/-- The call is through after `MAX_RETRIES` iterations exactly if one of them
does not repeat or all of them lose the race for the lock. -/
theorem bounded_iff_repeats (replies : ℕ → Replies) : Bounded replies ↔
    (∃ i < maxRetries, ¬ (replies i).Repeats) ∨
      ∀ i < maxRetries, (replies i).LosesRace := by
  have hcount : (List.range maxRetries).countP
      (fun i => (replies i).LosesRace) < maxRetries ↔
        ¬ ∀ i < maxRetries, (replies i).LosesRace := by
    have hle := List.countP_le_length (p := fun i => decide (replies i).LosesRace)
      (l := List.range maxRetries)
    have heq := List.countP_eq_length (p := fun i => decide (replies i).LosesRace)
      (l := List.range maxRetries)
    rw [List.length_range] at hle heq
    simp only [List.mem_range, decide_eq_true_iff] at heq
    rw [← heq]
    omega
  have hloop : allocateSegmentAndGenerate 0 ((List.range maxRetries).map replies) =
        none ↔
      (∀ i < maxRetries, (replies i).Repeats) ∧
        ¬ ∀ i < maxRetries, (replies i).LosesRace := by
    rw [allocateSegmentAndGenerate_eq_none, Nat.zero_add, List.countP_map,
      ← hcount, List.forall_mem_map]
    simp only [List.mem_range]
    rfl
  rw [Bounded, ← Option.ne_none_iff_exists', ne_eq, hloop, not_and_or, not_not,
    not_forall]
  simp only [not_forall, exists_prop]

/-- Every segment comes too late, and is used up when the call looks. -/
def lateReplies (i : ℕ) : Replies where
  setnx := .ok true
  allocateSegment := .ok ((i + 1) * segmentStep)
  sync := .ok 0
  generate := .ok none
  delIfEqual := .ok ()

theorem comesLate_lateReplies (i : ℕ) : (lateReplies i).ComesLate :=
  ⟨rfl, ⟨_, rfl⟩, ⟨0, rfl, by decide⟩, rfl⟩

/-- Then the loop never ends. -/
theorem endless_of_lateReplies (count : ℕ) :
    allocateSegmentAndGenerate 0 ((List.range count).map lateReplies) = none := by
  rw [allocateSegmentAndGenerate_eq_none, Nat.zero_add, List.countP_eq_zero.mpr]
  · refine ⟨List.forall_mem_map.mpr fun i _ => .inr (comesLate_lateReplies i), ?_⟩
    decide
  · refine List.forall_mem_map.mpr fun i _ => ?_
    rw [decide_eq_true_iff]
    exact fun hlost => not_comesLate_of_losesRace hlost (comesLate_lateReplies i)

theorem not_bounded_of_lateReplies : ¬ Bounded lateReplies := by
  rintro ⟨outcome, hends⟩
  rw [endless_of_lateReplies] at hends
  cases hends

end OceanChat.IdGenerator
