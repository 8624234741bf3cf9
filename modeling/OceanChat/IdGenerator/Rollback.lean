import OceanChat.IdGenerator.Refinement

/-!
# Rollback of the sequence

`SYNC_SEGMENT_LUA` compares a segment with the one in the hash, so it cannot
protect a hash that was lost: a delayed call then installs an older segment.
The maxima installed for a key increase exactly when no step does that.
-/

namespace OceanChat.IdGenerator

open Runs SegmentPool

/-- The upper limit that a step installs in the hash of the key. -/
def installs (key : String) (state : State) : Event → List ℕ
  | .command id reply =>
      match state.phaseOf key id with
      | some (.sync _ _ max) =>
          if reply.took && (syncSegmentLua (state.hashes (redisKey key))
            max.repr (max - segmentStep + 1).repr).2 then [max] else []
      | _ => []
  | _ => []

/-- The step does not run `SYNC_SEGMENT_LUA` on a missing hash with an upper
limit that an installed one has reached before. -/
def NotStaleSync (key : String) (current : State × List ℕ) (event : Event) :
    Prop :=
  ∀ id reply retries lockValue max, event = .command id reply →
    reply.took = true →
    current.1.phaseOf key id = some (.sync retries lockValue max) →
    current.1.hashes (redisKey key) = SeqHash.empty →
      ∀ earlier ∈ current.2, earlier < max

variable {key : String}

/-- The refinement relation for a state with its installed limits. -/
def RefinesInstalled (key : String) (current : State × List ℕ)
    (pool : Pool CallId) : Prop :=
  Refines key current.1 pool ∧ current.2 = pool.installed.map segmentMax

theorem segmentMax_lt_iff {left right : ℕ} :
    segmentMax left < segmentMax right ↔ left < right := by
  simp only [segmentMax, segmentStep]
  omega

/-- A step that does not run the script installs nothing. -/
theorem installs_eq_nil {state : State} {event : Event}
    (hsync : ∀ id reply retries lockValue max, event = .command id reply →
      reply.took = true →
        state.phaseOf key id ≠ some (.sync retries lockValue max)) :
    installs key state event = [] := by
  cases event with
  | command id reply =>
      simp only [installs]
      split
      · rename_i retries lockValue max hphase
        have hfailed : reply.took = false := by
          rw [Bool.eq_false_iff]
          intro htook
          exact hsync id reply retries lockValue max rfl htook hphase
        simp [hfailed]
      · rfl
  | _ => rfl

theorem RefinesInstalled.simulate {current next : State × List ℕ}
    {event : Event} {pool : Pool CallId}
    (hrel : RefinesInstalled key current pool)
    (hstep : withHistory step (installs key) current event = some next) :
    ∃ pool', run (SegmentPool.step segmentStep) pool
        (emit key current.1 event) = some pool' ∧
      RefinesInstalled key next pool' := by
  obtain ⟨hnext, hhistory⟩ := withHistory_eq_some.mp hstep
  obtain ⟨pool', hpool', hrel'⟩ := hrel.1.simulate hnext
  refine ⟨pool', hpool', hrel', ?_⟩
  rw [hhistory, hrel.2]
  rcases emit_offer_or_quiet key current.1 event with
    ⟨id, reply, retries, lockValue, max, rfl, htook, hphase, hemit⟩ |
    ⟨hoffer, hsync⟩
  · obtain ⟨index, hheld, rfl⟩ := hrel.1.held_of_sync hphase
    rw [hemit] at hpool'
    cases hnewer : newer index pool.active with
    | true =>
        obtain rfl : pool.install segmentStep id index = pool' := by
          simpa [run, SegmentPool.step, hheld, hnewer] using hpool'
        simp [installs, hphase, htook, hrel.1.hash_eq, syncSegmentLua_ofCursor,
          hnewer, Pool.install]
    | false =>
        obtain rfl : pool.drop id = pool' := by
          simpa [run, SegmentPool.step, hheld, hnewer] using hpool'
        simp [installs, hphase, htook, hrel.1.hash_eq, syncSegmentLua_ofCursor,
          hnewer, Pool.drop]
  · rw [installs_eq_nil hsync, installed_eq_of_run hoffer hpool', List.append_nil]

/-- Offering a stale segment to an empty register is the same as running the
script with a stale limit on a missing hash. -/
theorem RefinesInstalled.guard_iff {current : State × List ℕ} {event : Event}
    {pool : Pool CallId} (hrel : RefinesInstalled key current pool) :
    Guarded (SegmentPool.step segmentStep) NotStale pool
        (emit key current.1 event) ↔
      NotStaleSync key current event := by
  rcases emit_offer_or_quiet key current.1 event with
    ⟨id, reply, retries, lockValue, max, rfl, htook, hphase, hemit⟩ |
    ⟨hoffer, hsync⟩
  · obtain ⟨index, hheld, rfl⟩ := hrel.1.held_of_sync hphase
    have hmissing : current.1.hashes (redisKey key) = SeqHash.empty ↔
        pool.active = none := by
      rw [hrel.1.hash_eq]
      cases pool.active <;> simp [SeqHash.ofCursor, SeqHash.empty]
    rw [hemit, guarded_cons, NotStale, NotStaleSync]
    simp only [guarded_nil, implies_true, and_true, hrel.2, hmissing]
    constructor
    · intro hfresh id' reply' retries' lockValue' max' hevent _ hphase' hactive
        earlier hearlier
      cases hevent
      rw [hphase] at hphase'
      cases hphase'
      obtain ⟨earlierIndex, hmem, rfl⟩ := List.mem_map.mp hearlier
      exact segmentMax_lt_iff.mpr
        (hfresh id index rfl hheld hactive earlierIndex hmem)
    · intro hfresh client index' haction hheld' hactive earlier hearlier
      cases haction
      rw [hheld] at hheld'
      cases hheld'
      exact segmentMax_lt_iff.mp (hfresh id reply retries lockValue _ rfl htook
        hphase hactive _ (List.mem_map_of_mem hearlier))
  · constructor
    · intro _ id reply retries lockValue max hevent htook hphase
      exact absurd hphase (hsync id reply retries lockValue max hevent htook)
    · intro _
      apply guarded_of_forall
      rintro action haction middle client index rfl
      exact absurd haction (hoffer client)

/-- The installed upper limits increase over a run exactly when no step runs
`SYNC_SEGMENT_LUA` with a stale limit on a missing hash. -/
theorem installs_increasing_iff {events : List Event} {final : State}
    (hrun : run step State.initial events = some final) :
    (trace step (installs key) State.initial events).Pairwise (· < ·) ↔
      Guarded (withHistory step (installs key)) (NotStaleSync key)
        (State.initial, []) events := by
  have hinitial : RefinesInstalled key (State.initial, []) Pool.initial :=
    ⟨Refines.initial key, rfl⟩
  have hhistory : run (withHistory step (installs key)) (State.initial, [])
      events = some (final, [] ++ trace step (installs key) State.initial
        events) := run_withHistory hrun
  have hsimulate : ∀ current event next pool, RefinesInstalled key current pool →
      True → withHistory step (installs key) current event = some next →
        ∃ pool', run (SegmentPool.step segmentStep) pool
            (emit key current.1 event) = some pool' ∧
          RefinesInstalled key next pool' :=
    fun _ _ _ _ hrel _ hstep => hrel.simulate hstep
  obtain ⟨pool, hpool, -, hinstalled⟩ := run_simulation hsimulate hinitial
    (guarded_true _ events) hhistory
  have hincreasing : (trace step (installs key) State.initial events).Pairwise
      (· < ·) ↔ pool.installed.Pairwise (· < ·) := by
    have hmaxima : trace step (installs key) State.initial events =
        pool.installed.map segmentMax := by simpa using hinstalled
    rw [hmaxima, List.pairwise_map]
    simp only [segmentMax_lt_iff]
  rw [hincreasing, installed_pairwise_iff_notStale (by decide) hpool]
  exact guarded_trace_iff hsimulate (fun _ _ _ _ hrel _ _ => hrel.guard_iff)
    hinitial (guarded_true _ events) hhistory

/-- A call allocates the first segment and stalls, its lock expires, another
call installs the second segment, the hash is lost, and the stalled call runs
its script. -/
def rollbackRun : List Event :=
  [.call 0 "group:123", .command 0 .ok, .setnx 0 "lock-0" .ok, .command 0 .ok,
    .tick 5000, .call 1 "group:123"] ++ slowPath 1 "lock-1" ++
  [.loseHash "group:123", .command 0 .ok]

theorem installs_not_always_increasing :
    ¬ ∀ (key : String) (events : List Event) (final : State),
      run step State.initial events = some final →
        (trace step (installs key) State.initial events).Pairwise (· < ·) := by
  intro hclaim
  have henabled : (run step State.initial rollbackRun).isSome = true := by decide
  obtain ⟨final, hrun⟩ := Option.isSome_iff_exists.mp henabled
  have htrace : trace step (installs "group:123") State.initial rollbackRun =
      [2000, 1000] := by decide
  have hincreasing := hclaim "group:123" rollbackRun final hrun
  rw [htrace] at hincreasing
  exact absurd hincreasing (by decide)

theorem installs_increasing_iff_of_rollback :
    ∃ final, run step State.initial rollbackRun = some final ∧
      ¬ Guarded (withHistory step (installs "group:123"))
        (NotStaleSync "group:123") (State.initial, []) rollbackRun := by
  have henabled : (run step State.initial rollbackRun).isSome = true := by decide
  obtain ⟨final, hrun⟩ := Option.isSome_iff_exists.mp henabled
  refine ⟨final, hrun, ?_⟩
  rw [← installs_increasing_iff hrun]
  decide

end OceanChat.IdGenerator
