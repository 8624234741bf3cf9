import OceanChat.IdGenerator.Refinement

/-!
# Order of the returned numbers

The pool invariants seen from the callers.  Two calls never return the same
number, whatever fails or is lost.  While the hash of a key survives, a call
that starts after another one returned gets the larger number.
-/

namespace OceanChat.IdGenerator

open Runs SegmentPool

variable {key : String} {first second : CallId} {firstSeq secondSeq : String}

/-- A returned number was issued to the call by the pool. -/
theorem Refines.issued_of_returned {state : State} {pool : Pool CallId}
    (hrel : Refines key state pool)
    (hreturned : state.Returned key first firstSeq) :
    ∃ value : ℕ, firstSeq = value.repr ∧ (first, value) ∈ pool.issued := by
  apply hrel.issued_of_seq
  rw [State.phaseOf_eq_some.mpr hreturned]
  rfl

/-- The calls of one key return pairwise different numbers, in every run with
lock expiry, crashes, failed commands and lost hashes. -/
theorem returned_distinct {events : List Event} {final : State}
    (hrun : run step State.initial events = some final)
    (hfirst : final.Returned key first firstSeq)
    (hsecond : final.Returned key second secondSeq) (hne : first ≠ second) :
    ∃ firstValue secondValue, Decimal.parse firstSeq = some firstValue ∧
      Decimal.parse secondSeq = some secondValue ∧
      firstValue ≠ secondValue := by
  obtain ⟨pool, -, hrel⟩ := (Refines.initial key).of_run hrun
  obtain ⟨firstValue, rfl, hfirstIssued⟩ := hrel.issued_of_returned hfirst
  obtain ⟨secondValue, rfl, hsecondIssued⟩ := hrel.issued_of_returned hsecond
  refine ⟨firstValue, secondValue, Decimal.parse_repr _, Decimal.parse_repr _, ?_⟩
  intro hvalue
  have hinjective := List.inj_on_of_nodup_map hrel.valid.values_nodup
  have hpair := hinjective hfirstIssued hsecondIssued hvalue
  exact hne (congrArg Prod.fst hpair)

theorem returned_distinct_after_loss :
    ∃ final, run step State.initial
        (.call 0 "group:123" :: slowPath 0 "lock-0" ++
          .loseHash "group:123" :: .call 1 "group:123" ::
            slowPath 1 "lock-1") = some final ∧
      final.Returned "group:123" 0 "1" ∧ final.Returned "group:123" 1 "1001" ∧
      ∃ firstValue secondValue, Decimal.parse "1" = some firstValue ∧
        Decimal.parse "1001" = some secondValue ∧
        firstValue ≠ secondValue := by
  obtain ⟨final, hrun, hcalls⟩ := Option.map_eq_some_iff.mp
    (show (run step State.initial
        (.call 0 "group:123" :: slowPath 0 "lock-0" ++
          .loseHash "group:123" :: .call 1 "group:123" ::
            slowPath 1 "lock-1")).map (fun state =>
              (state.calls 0, state.calls 1)) =
      some (some ⟨"group:123", .finished (.returned "1")⟩,
        some ⟨"group:123", .finished (.returned "1001")⟩) by decide)
  obtain ⟨hfirst, hsecond⟩ := Prod.mk.inj hcalls
  exact ⟨final, hrun, hfirst, hsecond,
    returned_distinct hrun hfirst hsecond (by decide)⟩

/-- Without a lost hash the pool never loses its register. -/
theorem emit_ne_lose {state : State} {event : Event} {action : Action CallId}
    (hkept : event ≠ .loseHash key) (haction : action ∈ emit key state event) :
    action ≠ .lose := by
  have hemission := emission key state event
  generalize emit key state event = actions at haction hemission
  cases hemission with
  | lose => exact absurd rfl hkept
  | waste id retries lockValue _ =>
      rcases List.mem_pair.mp haction with rfl | rfl <;> simp
  | silent => simp at haction
  | _ =>
      rw [List.mem_singleton.mp haction]
      simp

/-- While the hash of the key survives, a call that starts after another one
returned gets the larger number. -/
theorem returned_lt_of_returned_before {before after : List Event}
    {middle final : State}
    (hkept : ∀ event ∈ before ++ after, event ≠ .loseHash key)
    (hbefore : run step State.initial before = some middle)
    (hafter : run step middle after = some final)
    (hfirst : middle.Returned key first firstSeq)
    (hnotStarted : middle.calls second = none)
    (hsecond : final.Returned key second secondSeq) :
    ∃ firstValue secondValue, Decimal.parse firstSeq = some firstValue ∧
      Decimal.parse secondSeq = some secondValue ∧
      firstValue < secondValue := by
  obtain ⟨pool, hpool, hrel⟩ := (Refines.initial key).of_run hbefore
  obtain ⟨pool', hpool', hrel'⟩ := hrel.of_run hafter
  have hordered : Ordered segmentStep pool' := by
    refine Ordered.of_run (by decide) ?_ (run_append_eq_some.mpr
      ⟨pool, hpool, hpool'⟩)
    rw [← trace_append hbefore]
    apply guarded_of_forall
    intro action haction _
    obtain ⟨event, hevent, state, hemit⟩ := exists_emit_of_mem_trace haction
    exact emit_ne_lose (hkept event hevent) hemit
  obtain ⟨firstValue, rfl, hfirstIssued⟩ := hrel.issued_of_returned hfirst
  obtain ⟨secondValue, rfl, hsecondIssued⟩ := hrel'.issued_of_returned hsecond
  obtain ⟨later, hlater⟩ := issued_run_grows hpool'
  have hsecondLater : (second, secondValue) ∈ later := by
    rw [← hlater] at hsecondIssued
    refine (List.mem_append.mp hsecondIssued).resolve_left fun hold => ?_
    exact hrel.started second secondValue hold hnotStarted
  refine ⟨firstValue, secondValue, Decimal.parse_repr _, Decimal.parse_repr _, ?_⟩
  have hincreasing := hordered.increasing
  rw [Pool.values, ← hlater, List.map_append, List.pairwise_append]
    at hincreasing
  exact hincreasing.2.2 firstValue (List.mem_map_of_mem hfirstIssued)
    secondValue (List.mem_map_of_mem hsecondLater)

theorem returned_lt_of_returned_before_crash :
    ∃ middle final,
      run step State.initial (.call 0 "group:123" :: slowPath 0 "lock-0") =
        some middle ∧
      run step middle [.call 1 "group:123", .crash 1, .tick 5000,
        .call 2 "group:123", .command 2 .ok] = some final ∧
      middle.Returned "group:123" 0 "1" ∧ final.Returned "group:123" 2 "2" ∧
      ∃ firstValue secondValue, Decimal.parse "1" = some firstValue ∧
        Decimal.parse "2" = some secondValue ∧ firstValue < secondValue := by
  obtain ⟨middle, hbefore, hmiddle⟩ := Option.map_eq_some_iff.mp
    (show (run step State.initial
        (.call 0 "group:123" :: slowPath 0 "lock-0")).map (fun state =>
          (state.calls 0, state.calls 2)) =
      some (some ⟨"group:123", .finished (.returned "1")⟩, none) by decide)
  obtain ⟨final, hrun, hsecond⟩ := Option.map_eq_some_iff.mp
    (show (run step State.initial
        (.call 0 "group:123" :: slowPath 0 "lock-0" ++
          [.call 1 "group:123", .crash 1, .tick 5000, .call 2 "group:123",
            .command 2 .ok])).map (fun state => state.calls 2) =
      some (some ⟨"group:123", .finished (.returned "2")⟩) by decide)
  obtain ⟨hfirst, hnotStarted⟩ := Prod.mk.inj hmiddle
  rw [run_append, hbefore, Option.bind_some] at hrun
  exact ⟨middle, final, hbefore, hrun, hfirst, hsecond,
    returned_lt_of_returned_before (by decide) hbefore hrun hfirst hnotStarted
      hsecond⟩

end OceanChat.IdGenerator
