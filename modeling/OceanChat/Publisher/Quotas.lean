import OceanChat.Publisher.Bounds

/-!
# The quotas of the publisher

Normal and critical tasks wait in one queue, and a call looks at nothing but its
length.  A normal call finds no room where a critical one still does, so the
tasks that fill the rest of the queue are all critical.
-/

namespace OceanChat.Publisher

open Runs

variable {refuses : String → Bool} {state next : State} {event : Event}
variable {id : ℕ} {task : Task}

/-- How many tasks of the class wait. -/
def State.waiting (state : State) (isCritical : Bool) : ℕ :=
  state.queue.countP fun task => task.isCritical = isCritical

/-- The call is a critical one. -/
def Event.isCritical : Event → Bool
  | .publishSafe _ _ _ _ options => options.isCritical.getD false
  | _ => false

theorem length_queue (state : State) :
    state.queue.length = state.waiting true + state.waiting false := by
  rw [List.length_eq_countP_add_countP fun task : Task =>
    task.isCritical = true]
  simp [State.waiting]

/-! ## What a step does to the queue -/

/-- The queue gives up its first task, if it has one, and no promise moves. -/
theorem processNext_keeps (refuses : String → Bool) (state : State) :
    (processNext refuses state).1.queue = state.queue.tail ∧
      (processNext refuses state).1.promises = state.promises := by
  obtain ⟨activeCount, queue, active, published, promises⟩ := state
  cases queue with
  | nil => exact ⟨rfl, rfl⟩
  | cons first queue =>
      cases hrefused : first.refused refuses with
      | true => simp [processNext, start_of_refused hrefused]
      | false => simp [processNext, start_of_clean hrefused]

theorem queue_accept (refuses : String → Bool) (state : State) (task : Task) :
    (accept refuses state task).queue.Sublist (state.queue ++ [task]) := by
  by_cases hroom : state.activeCount < concurrencyLimit
  · have hqueue := (processNext_keeps refuses (state.enqueue task)).1
    rw [accept_of_room hroom (Prod.mk.eta.symm : processNext refuses
      (state.enqueue task) = _)]
    split
    · rw [queue_settlePromise, hqueue]
      exact List.tail_sublist _
    · rw [hqueue]
      exact List.tail_sublist _
  · rw [accept_of_full refuses hroom]
    exact List.Sublist.refl _

/-- The queue only grows at its end, by the task of a call that is admitted. -/
theorem queue_of_step (hstep : step refuses state event = some next) :
    next.queue.Sublist state.queue ∨
      ∃ task : Task, task.isCritical = event.isCritical ∧
        state.queue.length < queueLimit task.isCritical ∧
        next.queue.Sublist (state.queue ++ [task]) := by
  cases effect_of_step hstep with
  | @accepted id subject data options hfree hadmitted =>
      exact .inr ⟨taskOf id subject data options, rfl, hadmitted,
        queue_accept refuses state _⟩
  | down | full | answered | buried | deadAnswered =>
      exact .inl (List.Sublist.refl _)
  | reported =>
      left
      split
      · exact (queue_settlePromise state _ _).symm ▸ List.Sublist.refl _
      · exact List.Sublist.refl _
  | finished =>
      left
      rw [(processNext_keeps refuses _).1]
      exact List.tail_sublist _

/-! ## Quotas -/

theorem waiting_of_sublist {isCritical : Bool}
    (hqueue : next.queue.Sublist state.queue) :
    next.waiting isCritical ≤ state.waiting isCritical :=
  hqueue.countP_le

theorem waiting_of_append {isCritical : Bool}
    (hqueue : next.queue.Sublist (state.queue ++ [task])) :
    next.waiting isCritical ≤ state.waiting isCritical +
      if task.isCritical = isCritical then 1 else 0 := by
  calc next.waiting isCritical
      ≤ (state.queue ++ [task]).countP
          (fun task => task.isCritical = isCritical) := hqueue.countP_le
    _ = state.waiting isCritical +
          if task.isCritical = isCritical then 1 else 0 := by
        rw [List.countP_append, List.countP_singleton, State.waiting]
        simp

/-- Normal tasks never take more than their own part of the queue. -/
theorem waiting_normal_of_step
    (hnormal : state.waiting false ≤ maxNormalQueueSize)
    (hstep : step refuses state event = some next) :
    next.waiting false ≤ maxNormalQueueSize := by
  rcases queue_of_step hstep with hqueue | ⟨task, -, hroom, hqueue⟩
  · exact (waiting_of_sublist hqueue).trans hnormal
  · have hwaiting := @waiting_of_append state next task false hqueue
    cases hcritical : task.isCritical with
    | true =>
        rw [if_neg (by simp [hcritical])] at hwaiting
        exact hwaiting.trans hnormal
    | false =>
        rw [if_pos hcritical] at hwaiting
        have hlength := length_queue state
        rw [hcritical, queueLimit, if_neg Bool.false_ne_true] at hroom
        omega

/-- Normal calls leave no critical task. -/
theorem waiting_critical_of_step (hcritical : state.waiting true = 0)
    (hnormal : event.isCritical = false)
    (hstep : step refuses state event = some next) :
    next.waiting true = 0 := by
  apply Nat.le_zero.mp
  rcases queue_of_step hstep with hqueue | ⟨task, hclass, -, hqueue⟩
  · exact (waiting_of_sublist hqueue).trans hcritical.le
  · have hwaiting := @waiting_of_append state next task true hqueue
    rwa [hcritical, if_neg (by simp [hclass, hnormal])] at hwaiting

theorem promise_accept (refuses : String → Bool) (state : State) (task : Task) :
    (accept refuses state task).promises task.id =
        (state.enqueue task).promises task.id ∨
      (accept refuses state task).promises task.id =
        some (.rejected .badHeader) := by
  by_cases hroom : state.activeCount < concurrencyLimit
  · have hpromises := (processNext_keeps refuses (state.enqueue task)).2
    rw [accept_of_room hroom (Prod.mk.eta.symm : processNext refuses
      (state.enqueue task) = _)]
    split
    · rw [State.settlePromise]
      split
      · exact .inr (Function.update_self ..)
      · exact .inl (congrFun hpromises _)
    · exact .inl (congrFun hpromises _)
  · exact .inl (by rw [accept_of_full refuses hroom])

/-- Only a full queue rejects a call for a full queue. -/
theorem full_of_rejected {js : Bool} {subject : String} {data : Json}
    {options : PublishOptions} {isCritical : Bool}
    (hstep : step refuses state
      (.publishSafe id js subject data options) = some next)
    (hrejected : next.promises id =
      some (.rejected (.app (queueLimitException isCritical)))) :
    queueLimit (options.isCritical.getD false) ≤ state.queue.length := by
  cases effect_of_step hstep with
  | down =>
      rw [promises_setPromise_self] at hrejected
      cases isCritical <;> exact absurd hrejected (by decide)
  | full hfree hfull => exact hfull
  | accepted =>
      rcases promise_accept refuses state (taskOf id subject data options) with
        hqueued | hthrown
      · have hawaited := hqueued.symm.trans hrejected
        rw [State.enqueue, promises_setPromise_self] at hawaited
        split at hawaited <;> cases hawaited
      · cases hthrown.symm.trans hrejected

/-- The critical quota: however calls and completions interleave, only critical
tasks use up what is reserved for them. -/
theorem criticalQuota {events : List Event}
    (hrun : run (step refuses) State.initial events = some state) :
    state.waiting false ≤ maxNormalQueueSize ∧
      ∀ id js subject data options next, options.isCritical = some true →
        step refuses state (.publishSafe id js subject data options) =
          some next →
        next.promises id =
          some (.rejected (.app (queueLimitException true))) →
        maxCriticalQueueSize - maxNormalQueueSize ≤ state.waiting true ∧
          ∃ event ∈ events, event.isCritical = true := by
  have hnormal : state.waiting false ≤ maxNormalQueueSize :=
    run_invariant (fun state => state.waiting false ≤ maxNormalQueueSize)
      (fun _ _ _ hinv hstep => waiting_normal_of_step hinv hstep)
      (Nat.zero_le _) hrun
  refine ⟨hnormal, ?_⟩
  intro id js subject data options next hcritical hstep hrejected
  have hfull := full_of_rejected hstep hrejected
  rw [hcritical, Option.getD_some, queueLimit, if_pos rfl] at hfull
  have hlength := length_queue state
  have hreserved :
      maxCriticalQueueSize - maxNormalQueueSize ≤ state.waiting true := by
    omega
  refine ⟨hreserved, ?_⟩
  by_contra hnone
  have hempty : state.waiting true = 0 := by
    have hguard : Guarded (step refuses)
        (fun _ event => event.isCritical = false) State.initial events := by
      refine guarded_of_forall fun event hevent _ => ?_
      simpa using fun hclass => hnone ⟨event, hevent, hclass⟩
    exact run_invariant_of_guarded (fun state => state.waiting true = 0)
      (fun _ _ _ hinv hclass hstep =>
        waiting_critical_of_step hinv hclass hstep) rfl hguard hrun
  rw [hempty] at hreserved
  exact absurd hreserved (by decide)

/-- The queue is full of tasks of both classes when one more critical call comes. -/
theorem criticalQuota_of_burst :
    ∃ state next, run (step hasLineBreak) State.initial burst = some state ∧
      step hasLineBreak state (call true 10100) = some next ∧
      next.promises 10100 =
        some (.rejected (.app (queueLimitException true))) ∧
      state.waiting false ≤ maxNormalQueueSize ∧
      maxCriticalQueueSize - maxNormalQueueSize ≤ state.waiting true ∧
      ∃ event ∈ burst, event.isCritical = true := by
  obtain ⟨state, hrun, hfilled⟩ := run_burst hasLineBreak
  have hfull : maxCriticalQueueSize ≤ state.queue.length := by
    rw [hfilled.length_queue, List.length_append, List.length_replicate,
      List.length_replicate]
    decide
  have hstep : step hasLineBreak state (call true 10100) = some (state.setPromise 10100
      (.rejected (.app (queueLimitException true)))) := by
    simp [step, call, taskOf, hfilled.free 10100 le_rfl, queueLimit, hfull]
  have hrejected := promises_setPromise_self state 10100
    (.rejected (.app (queueLimitException true)))
  obtain ⟨hnormal, hcritical⟩ := criticalQuota hrun
  exact ⟨state, _, hrun, hstep, hrejected, hnormal,
    hcritical 10100 true _ _ _ _ rfl hstep hrejected⟩

end OceanChat.Publisher
