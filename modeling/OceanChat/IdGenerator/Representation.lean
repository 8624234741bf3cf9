import OceanChat.IdGenerator.Refinement

/-!
# Representation of a segment

A segment is a number in MongoDB, a `BigInt` in a call and a pair of decimal
strings in Redis.  In every reachable state the hash of a key is missing or
holds a position in a segment that MongoDB has allocated for the key, so
`GENERATE_SEQ_LUA` neither fails nor leaves the segment.
-/

namespace OceanChat.IdGenerator

open Decimal (Canonical)
open Runs SegmentPool

/-- A hash whose key has the counter `counter` in MongoDB. -/
inductive Represents (counter : ℕ) : SeqHash → Prop
  | missing : Represents counter SeqHash.empty
  | segment {max cur : ℕ} {maxStr curStr : String} (hmax : Canonical maxStr max)
      (hcur : Canonical curStr cur) (hpositive : 0 < max)
      (hmultiple : segmentStep ∣ max) (hlower : max - segmentStep + 1 ≤ cur)
      (hupper : cur ≤ max) (hallocated : max ≤ counter) :
      Represents counter ⟨some maxStr, some curStr⟩

/-- The upper limit that a step allocates for the key. -/
def allocations (key : String) (state : State) : Event → List ℕ
  | .command id reply =>
      match state.phaseOf key id with
      | some (.allocate _ _) =>
          if (allocateSegment state key).isSome ∧ reply.took then
            [state.sequences key + segmentStep]
          else []
      | _ => []
  | _ => []

variable {key other : String} {state next final : State} {event : Event}
variable {events : List Event} {pool : Pool CallId}

/-! ## The hash -/

/-- The script stays in the segment, and its increment does not overflow. -/
theorem Represents.generate {counter : ℕ} {hash : SeqHash}
    (hrepresents : Represents counter hash) (hcounter : counter ≤ maxInt64) :
    ∃ later reply, generateSeqLua hash = some (later, reply) ∧
      Represents counter later := by
  cases hrepresents with
  | missing => exact ⟨_, _, rfl, .missing⟩
  | @segment max cur maxStr curStr hmax hcur hpositive hmultiple hlower hupper
      hallocated =>
      obtain rfl := Decimal.canonical_iff.mp hmax
      obtain rfl := Decimal.canonical_iff.mp hcur
      by_cases husedUp : max ≤ cur
      · refine ⟨⟨some max.repr, some cur.repr⟩, none, ?_,
          .segment hmax hcur hpositive hmultiple hlower hupper hallocated⟩
        simp [generateSeqLua, isGreaterOrEqual_repr, husedUp]
      · have hfits : cur < maxInt64 := by omega
        refine ⟨⟨some max.repr, some (cur + 1).repr⟩, some (cur + 1).repr, ?_,
          .segment hmax (Decimal.canonical_iff.mpr rfl) hpositive hmultiple
            (by omega) (by omega) hallocated⟩
        simp [generateSeqLua, isGreaterOrEqual_repr, husedUp, hincrby, hfits]

theorem segmentMax_sub (index : ℕ) :
    segmentMax index - segmentStep = index * segmentStep := by
  rw [segmentMax, Nat.succ_mul, Nat.add_sub_cancel]

theorem Refines.represents (hrel : Refines key state pool) :
    Represents (state.sequences key) (state.hashes (redisKey key)) := by
  rw [hrel.hash_eq]
  cases hactive : pool.active with
  | none => exact .missing
  | some cursor =>
      have hoffset := hrel.valid.active_offset cursor hactive
      have hindex := hrel.valid.installed_lt _ (hrel.valid.active_mem hactive)
      refine .segment (Decimal.canonical_iff.mpr rfl)
        (Decimal.canonical_iff.mpr rfl) (by simp [segmentMax, segmentStep])
        (Nat.dvd_mul_left _ _) ?_ ?_ ?_
      · rw [segmentMax_sub, Cursor.value]
        omega
      · rw [segmentMax, Cursor.value, Nat.succ_mul]
        omega
      · rw [hrel.sequence_eq]
        exact Nat.mul_le_mul_right _ hindex

/-! ## The counter -/

@[simp]
theorem evalGenerate_sequences {reply : Reply} {onSeq : String → Phase}
    {onNil onError : Phase} :
    (evalGenerate state key reply onSeq onNil onError).1.sequences =
      state.sequences := by
  unfold evalGenerate
  split
  · rfl
  · split <;> rfl

/-- A command allocates the next segment or leaves the counter alone. -/
theorem allocations_of_command {id : CallId} {reply : Reply} {before after : Phase}
    (hphase : state.phaseOf key id = some before)
    (hcommand : command state key reply before = some (next, after)) :
    allocations key state (.command id reply) = [] ∧
        next.sequences key = state.sequences key ∨
      allocations key state (.command id reply) =
          [state.sequences key + segmentStep] ∧
        next.sequences key = state.sequences key + segmentStep := by
  simp only [allocations, hphase]
  cases before with
  | allocate retries lockValue =>
      obtain rfl := congrArg Prod.fst (Option.some.inj hcommand)
      cases hallocate : allocateSegment state key with
      | none => exact .inl ⟨by simp, by simp [runAllocate, hallocate]⟩
      | some result =>
          obtain ⟨allocated, max⟩ := result
          obtain ⟨rfl, -, rfl⟩ := allocateSegment_eq_some hallocate
          cases htook : reply.took with
          | false => exact .inl ⟨by simp, by simp [runAllocate, hallocate, htook]⟩
          | true => exact .inr ⟨by simp, by simp [runAllocate, hallocate, htook]⟩
  | fastPath | retry | discarded =>
      obtain rfl := congrArg Prod.fst (Option.some.inj hcommand)
      exact .inl ⟨rfl, by rw [evalGenerate_sequences]⟩
  | sync retries lockValue max =>
      obtain rfl := congrArg Prod.fst (Option.some.inj hcommand)
      refine .inl ⟨rfl, ?_⟩
      simp only [runSync]
      split <;> rfl
  | release lockValue outcome =>
      obtain rfl := congrArg Prod.fst (Option.some.inj hcommand)
      refine .inl ⟨rfl, ?_⟩
      simp only [runRelease]
      split <;> rfl
  | acquire | finished | crashed => cases hcommand

theorem allocations_of_step (hstep : step state event = some next) :
    allocations key state event = [] ∧
        next.sequences key = state.sequences key ∨
      allocations key state event = [state.sequences key + segmentStep] ∧
        next.sequences key = state.sequences key + segmentStep := by
  cases step_effect hstep with
  | executed id key' reply before after middle hcall hcommand =>
      by_cases hkey : key' = key
      · subst hkey
        have hcases := allocations_of_command (State.phaseOf_eq_some.mpr hcall)
          hcommand
        exact hcases
      · refine .inl ⟨?_, (Elsewhere.command hcommand).sequence_eq key (Ne.symm hkey)⟩
        simp [allocations, State.phaseOf_of_key_ne hcall hkey]
  | attempted id key' lockValue reply retries hcall =>
      refine .inl ⟨rfl, ?_⟩
      simp only [acquireLock, State.setPhase]
      split <;> rfl
  | called | crashed | ticked | lost => exact .inl ⟨rfl, rfl⟩

/-- MongoDB allocates the segments of a key one after the other. -/
theorem allocations_of_run (hrun : run step State.initial events = some final) :
    ∃ count, trace step (allocations key) State.initial events =
        (List.range count).map segmentMax ∧
      final.sequences key = count * segmentStep := by
  refine trace_invariant (fun state history => ∃ count,
      history = (List.range count).map segmentMax ∧
        state.sequences key = count * segmentStep)
    ?_ ⟨0, rfl, by simp [State.initial]⟩ (guarded_true _ events) hrun
  rintro state history event next ⟨count, rfl, hcount⟩ - hstep
  rcases allocations_of_step hstep with ⟨hnone, hsame⟩ | ⟨hmax, hnext⟩
  · exact ⟨count, by rw [hnone, List.append_nil], hsame.trans hcount⟩
  · refine ⟨count + 1, ?_, by rw [hnext, hcount, Nat.succ_mul]⟩
    rw [hmax, hcount, ← Nat.succ_mul, List.range_succ, List.map_append,
      List.map_singleton]
    rfl

/-! ## Reachable states -/

/-- In every reachable state the hash represents a position in an allocated
segment, the script keeps it so, and every returned number is in a segment that
has been allocated for the key. -/
theorem represents_of_run (hrun : run step State.initial events = some final)
    (key : String) :
    Represents (final.sequences key) (final.hashes (redisKey key)) ∧
      (∃ later reply, generateSeqLua (final.hashes (redisKey key)) =
          some (later, reply) ∧ Represents (final.sequences key) later) ∧
      ∀ id seq, final.Returned key id seq → ∃ value, Canonical seq value ∧
        ∃ max ∈ trace step (allocations key) State.initial events,
          max - segmentStep + 1 ≤ value ∧ value ≤ max := by
  obtain ⟨pool, -, hrel⟩ := (Refines.initial key).of_run hrun
  refine ⟨hrel.represents, hrel.represents.generate hrel.sequence_le, ?_⟩
  intro id seq hreturned
  have hseq : (final.phaseOf key id).bind Phase.issuedSeq = some seq := by
    rw [State.phaseOf_eq_some.mpr hreturned]
    rfl
  obtain ⟨value, rfl, hissued⟩ := hrel.issued_of_seq id seq hseq
  obtain ⟨cursor, rfl, hoffset, hinstalled, -⟩ :=
    hrel.valid.values_drawn value (List.mem_map_of_mem hissued)
  refine ⟨_, Decimal.canonical_iff.mpr rfl, segmentMax cursor.index, ?_, ?_, ?_⟩
  · obtain ⟨count, htrace, hcount⟩ := @allocations_of_run key _ _ hrun
    have hallocated : count = pool.allocated := by
      have hsame := hcount.symm.trans hrel.sequence_eq
      exact Nat.eq_of_mul_eq_mul_right (by decide) hsame
    rw [htrace]
    apply List.mem_map_of_mem
    rw [List.mem_range, hallocated]
    exact hrel.valid.installed_lt _ hinstalled
  · rw [segmentMax_sub, Cursor.value]
    omega
  · rw [segmentMax, Cursor.value, Nat.succ_mul]
    omega

theorem represents_of_slowPath :
    ∃ final, run step State.initial (.call 0 "group:123" :: slowPath 0 "lock-0") =
        some final ∧
      Represents (final.sequences "group:123")
        (final.hashes (redisKey "group:123")) ∧
      (∃ later reply, generateSeqLua (final.hashes (redisKey "group:123")) =
          some (later, reply) ∧
        Represents (final.sequences "group:123") later) ∧
      ∀ id seq, final.Returned "group:123" id seq →
        ∃ value, Canonical seq value ∧
          ∃ max ∈ trace step (allocations "group:123") State.initial
              (.call 0 "group:123" :: slowPath 0 "lock-0"),
            max - segmentStep + 1 ≤ value ∧ value ≤ max := by
  have henabled : (run step State.initial
      (.call 0 "group:123" :: slowPath 0 "lock-0")).isSome = true := by decide
  obtain ⟨final, hrun⟩ := Option.isSome_iff_exists.mp henabled
  exact ⟨final, hrun, represents_of_run hrun "group:123"⟩

end OceanChat.IdGenerator
