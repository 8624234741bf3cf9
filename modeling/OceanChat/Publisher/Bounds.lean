import OceanChat.Publisher.Service

/-!
# The bounds of the publisher

The count of the publisher is raised where a task starts and lowered where its
promise chain ends, and no limit is checked there.  As long as no task throws
where it starts, the publisher is a work pool; a task that throws leaves the
count raised for good.
-/

namespace OceanChat.Publisher

open Runs WorkPool

variable {refuses : String → Bool} {state next : State} {event : Event}
variable {id : ℕ} {task : Task}

/-- The tasks of the publisher as a work pool. -/
def State.pool (state : State) : Pool Task :=
  ⟨state.queue, state.active.map Active.task⟩

/-- The count is that of the tasks started and not yet finished. -/
def Counted (state : State) : Prop :=
  state.activeCount = state.active.length

structure Bounded (state : State) : Prop where
  counted : Counted state
  nonneg : 0 ≤ state.activeCount
  limited : state.activeCount ≤ concurrencyLimit
  queued : state.queue.length ≤ maxCriticalQueueSize
  busy : state.queue ≠ [] → state.activeCount = concurrencyLimit

/-- The task that the step takes from the queue. -/
def State.starting (state : State) : Event → Option Task
  | .publishSafe id js subject data options =>
      let task := taskOf id subject data options
      if js ∧ state.queue.length < queueLimit task.isCritical ∧
          state.activeCount < concurrencyLimit then
        (state.queue ++ [task]).head?
      else none
  | .finish _ => state.queue.head?
  | _ => none

/-- The step starts no task whose message identifier is refused. -/
def StartsCleanly (refuses : String → Bool) (state : State) (event : Event) :
    Prop :=
  ∀ task ∈ state.starting event, task.refused refuses = false

theorem bounded_iff : Bounded state ↔ Counted state ∧
    Fits concurrencyLimit state.pool ∧
      state.queue.length ≤ maxCriticalQueueSize := by
  have hlength : state.pool.running.length = state.active.length := by
    simp [State.pool]
  constructor
  · rintro ⟨hcounted, -, hlimited, hqueued, hbusy⟩
    rw [hcounted] at hlimited hbusy
    refine ⟨hcounted, ⟨?_, fun hwaiting => ?_⟩, hqueued⟩
    · rw [hlength]
      exact_mod_cast hlimited
    · rw [hlength]
      exact_mod_cast hbusy hwaiting
  · rintro ⟨hcounted, ⟨hbounded, hbusy⟩, hqueued⟩
    rw [hlength] at hbounded hbusy
    refine ⟨hcounted, ?_, ?_, hqueued, fun hwaiting => ?_⟩
    · rw [hcounted]
      exact Int.natCast_nonneg _
    · rw [hcounted]
      exact_mod_cast hbounded
    · rw [hcounted]
      exact_mod_cast hbusy hwaiting

theorem Bounded.initial : Bounded State.initial :=
  bounded_iff.mpr ⟨rfl, Fits.empty, Nat.zero_le _⟩

/-! ## What a step leaves alone -/

@[simp]
theorem activeCount_setPromise (state : State) (id : ℕ) (promise : PromiseState) :
    (state.setPromise id promise).activeCount = state.activeCount := rfl

@[simp]
theorem queue_setPromise (state : State) (id : ℕ) (promise : PromiseState) :
    (state.setPromise id promise).queue = state.queue := rfl

@[simp]
theorem active_setPromise (state : State) (id : ℕ) (promise : PromiseState) :
    (state.setPromise id promise).active = state.active := rfl

@[simp]
theorem promises_setPromise_self (state : State) (id : ℕ)
    (promise : PromiseState) :
    (state.setPromise id promise).promises id = some promise :=
  Function.update_self ..

/-- Nothing but promises is different. -/
def SameTasks (state next : State) : Prop :=
  next.activeCount = state.activeCount ∧ next.pool = state.pool

theorem sameTasks_setPromise (state : State) (id : ℕ) (promise : PromiseState) :
    SameTasks state (state.setPromise id promise) := ⟨rfl, rfl⟩

theorem sameTasks_settlePromise (state : State) (id : ℕ)
    (promise : PromiseState) :
    SameTasks state (state.settlePromise id promise) := by
  rw [State.settlePromise]
  split <;> exact ⟨rfl, rfl⟩

theorem queue_settlePromise (state : State) (id : ℕ) (promise : PromiseState) :
    (state.settlePromise id promise).queue = state.queue :=
  congrArg Pool.waiting (sameTasks_settlePromise state id promise).2

theorem sameTasks_setPhase (state : State) (id : ℕ) (phase : Phase) :
    SameTasks state (state.setPhase id phase) := by
  refine ⟨rfl, ?_⟩
  simp only [State.pool, State.setPhase, List.map_map, Pool.mk.injEq, true_and]
  apply List.map_congr_left
  intro entry _
  simp only [Function.comp_apply]
  split <;> rfl

theorem SameTasks.trans {middle : State} (hfirst : SameTasks state middle)
    (hsecond : SameTasks middle next) : SameTasks state next :=
  ⟨hsecond.1.trans hfirst.1, hsecond.2.trans hfirst.2⟩

theorem length_active_of_pool (hpool : next.pool = state.pool) :
    next.active.length = state.active.length := by
  have hrunning := congrArg (fun pool => pool.running.length) hpool
  simpa [State.pool] using hrunning

theorem Bounded.of_sameTasks (hbounded : Bounded state)
    (hsame : SameTasks state next) : Bounded next := by
  obtain ⟨hcount, hpool⟩ := hsame
  obtain ⟨hcounted, hfits, hqueued⟩ := bounded_iff.mp hbounded
  have hqueue : next.queue = state.queue := congrArg Pool.waiting hpool
  refine bounded_iff.mpr ⟨?_, hpool ▸ hfits, hqueue ▸ hqueued⟩
  rw [Counted, hcount, hcounted, length_active_of_pool hpool]

/-! ## Starting -/

theorem start_of_clean (hclean : task.refused refuses = false) (state : State) :
    start refuses state task = ({ state with
      activeCount := state.activeCount + 1
      active := state.active ++ [⟨task, .publishing⟩]
      published := state.published ++ [task.publication] }, false) := by
  simp [start, hclean]

theorem start_of_refused (hrefused : task.refused refuses = true)
    (state : State) :
    start refuses state task =
      ({ state with activeCount := state.activeCount + 1 }, true) := by
  simp [start, hrefused]

/-- The publisher takes the next task as a work pool does. -/
theorem processNext_of_clean
    (hclean : ∀ task ∈ state.queue.head?, task.refused refuses = false) :
    (processNext refuses state).2 = false ∧
      (processNext refuses state).1.pool = state.pool.next ∧
      (processNext refuses state).1.activeCount -
          (processNext refuses state).1.active.length =
        state.activeCount - state.active.length := by
  obtain ⟨activeCount, queue, active, published, promises⟩ := state
  cases queue with
  | nil => simp [processNext, State.pool, Pool.next]
  | cons task queue =>
      have htask : task.refused refuses = false := hclean task rfl
      simp only [processNext, start_of_clean htask, State.pool, Pool.next,
        List.map_append, List.map_cons, List.map_nil, List.length_append,
        List.length_cons, List.length_nil, true_and]
      push_cast
      ring

/-- A task that throws leaves the count raised and runs nowhere. -/
theorem processNext_of_refused {queue : List Task}
    (hqueue : state.queue = task :: queue)
    (hrefused : task.refused refuses = true) :
    processNext refuses state =
      ({ state with queue := queue, activeCount := state.activeCount + 1 },
        true) := by
  simp [processNext, hqueue, start_of_refused hrefused]

theorem processNext_of_cons {queue : List Task} (hqueue : state.queue = task :: queue)
    (hclean : task.refused refuses = false) :
    processNext refuses state =
      ({ state with
        queue := queue
        activeCount := state.activeCount + 1
        active := state.active ++ [⟨task, .publishing⟩]
        published := state.published ++ [task.publication] }, false) := by
  simp [processNext, hqueue, start_of_clean hclean]

/-! ## Steps -/

/-- The task is queued, and the executor has not yet looked at the count. -/
def State.enqueue (state : State) (task : Task) : State :=
  State.setPromise { state with queue := state.queue ++ [task] } task.id
    (if task.isCritical then .pending else .resolved)

theorem accept_of_full (refuses : String → Bool)
    (hfull : ¬ state.activeCount < concurrencyLimit) (task : Task) :
    accept refuses state task = state.enqueue task :=
  if_neg hfull

theorem accept_of_room (hroom : state.activeCount < concurrencyLimit)
    {threw : Bool}
    (hnext : processNext refuses (state.enqueue task) = (next, threw)) :
    accept refuses state task =
      if threw then next.settlePromise task.id (.rejected .badHeader)
      else next := by
  rw [State.enqueue] at hnext
  simp only [accept, activeCount_setPromise, hroom, if_true, hnext]
  cases threw <;> rfl

theorem counted_of_sub_eq (hcounted : Counted state)
    (hsame : next.activeCount - next.active.length =
      state.activeCount - state.active.length) : Counted next := by
  rw [Counted] at hcounted ⊢
  omega

theorem room_iff (hcounted : Counted state) :
    state.activeCount < concurrencyLimit ↔
      state.pool.running.length < concurrencyLimit := by
  rw [hcounted, State.pool, List.length_map]
  exact Nat.cast_lt

theorem accept_of_clean (hcounted : Counted state)
    (hclean : state.activeCount < concurrencyLimit →
      ∀ first ∈ (state.queue ++ [task]).head?, first.refused refuses = false) :
    Counted (accept refuses state task) ∧
      (accept refuses state task).pool =
        state.pool.submit concurrencyLimit task := by
  by_cases hroom : state.activeCount < concurrencyLimit
  · obtain ⟨hthrew, hpool, hcount⟩ :=
      @processNext_of_clean refuses (state.enqueue task) (hclean hroom)
    rw [accept_of_room hroom (Prod.mk.eta.symm : processNext refuses
      (state.enqueue task) = _), hthrew, Pool.submit,
      if_pos ((room_iff hcounted).mp hroom)]
    exact ⟨counted_of_sub_eq hcounted hcount, hpool⟩
  · rw [accept_of_full refuses hroom, Pool.submit,
      if_neg (mt (room_iff hcounted).mpr hroom)]
    exact ⟨hcounted, rfl⟩

/-- The state in which `finally` calls `processNext`. -/
def State.remove (state : State) (id : ℕ) : State :=
  { state with
    active := state.active.eraseP fun entry => entry.task.id = id
    activeCount := state.activeCount - 1 }

theorem pool_remove (state : State) (id : ℕ) :
    (state.remove id).pool =
      state.pool.remove fun task => task.id = id := by
  simp only [State.pool, State.remove, Pool.remove, Pool.mk.injEq, true_and,
    List.eraseP_map]
  rfl

/-- What an enabled step does, one case for each branch it takes. -/
inductive Effect (refuses : String → Bool) (state : State) : Event → State → Prop
  | down {id : ℕ} {subject data options} (hfree : state.promises id = none) :
      Effect refuses state (.publishSafe id false subject data options)
        (state.setPromise id (.rejected (.app notOperationalException)))
  | full {id : ℕ} {subject data options} (hfree : state.promises id = none)
      (hfull : queueLimit (taskOf id subject data options).isCritical ≤
        state.queue.length) :
      Effect refuses state (.publishSafe id true subject data options)
        (state.setPromise id (.rejected (.app
          (queueLimitException (taskOf id subject data options).isCritical))))
  | accepted {id : ℕ} {subject data options} (hfree : state.promises id = none)
      (hroom : state.queue.length <
        queueLimit (taskOf id subject data options).isCritical) :
      Effect refuses state (.publishSafe id true subject data options)
        (accept refuses state (taskOf id subject data options))
  | answered {id : ℕ} {task : Task}
      (hfind : state.find id = some ⟨task, .publishing⟩) :
      Effect refuses state (.settle id none) (state.setPhase id (.settled none))
  | buried {id : ℕ} {task : Task} {failure}
      (hfind : state.find id = some ⟨task, .publishing⟩) :
      Effect refuses state (.settle id (some failure))
        (State.setPhase
          { state with published := state.published ++ [task.deadLetter] } id
          .deadLetter)
  | deadAnswered {id : ℕ} {task : Task} {failure}
      (hfind : state.find id = some ⟨task, .deadLetter⟩) :
      Effect refuses state (.settle id failure)
        (state.setPhase id (.settled failure))
  | reported {id : ℕ} {task : Task} {finalErr result}
      (hfind : state.find id = some ⟨task, .settled finalErr⟩)
      (hresult : finalErr = none ∧ result = PromiseState.resolved ∨
        ∃ failure, finalErr = some failure ∧
          result = .rejected (.error failure.message)) :
      Effect refuses state (.report id)
        (State.setPhase
          (if task.isCritical then state.settlePromise id result else state) id
          .finishing)
  | finished {id : ℕ} {task : Task}
      (hfind : state.find id = some ⟨task, .finishing⟩) :
      Effect refuses state (.finish id) (processNext refuses (state.remove id)).1

theorem effect_of_step (hstep : step refuses state event = some next) :
    Effect refuses state event next := by
  cases event with
  | publishSafe id js subject data options =>
      simp only [step] at hstep
      split_ifs at hstep with hfree hjs hfull
      · cases hstep
        subst hjs
        exact .down (by simpa using hfree)
      · cases hstep
        obtain rfl : js = true := by simpa using hjs
        exact .full (by simpa using hfree) hfull
      · cases hstep
        obtain rfl : js = true := by simpa using hjs
        exact .accepted (by simpa using hfree) (not_le.mp hfull)
  | settle id failure =>
      simp only [step] at hstep
      split at hstep
      · rename_i task hfind
        cases failure with
        | none =>
            cases hstep
            exact .answered hfind
        | some failure =>
            cases hstep
            exact .buried hfind
      · rename_i task hfind
        cases hstep
        exact .deadAnswered hfind
      · cases hstep
  | report id =>
      simp only [step] at hstep
      split at hstep
      · rename_i task finalErr hfind
        cases hstep
        cases finalErr with
        | none => exact .reported hfind (.inl ⟨rfl, rfl⟩)
        | some failure => exact .reported hfind (.inr ⟨failure, rfl, rfl⟩)
      · cases hstep
  | finish id =>
      simp only [step] at hstep
      split at hstep
      · rename_i task hfind
        cases hstep
        exact .finished hfind
      · cases hstep

theorem running_of_find {entry : Active} (hfind : state.find id = some entry) :
    state.pool.running.any (fun task => task.id = id) = true := by
  have hid : entry.task.id = id := by simpa using List.find?_some hfind
  rw [State.pool, List.any_map, List.any_eq_true]
  exact ⟨entry, List.mem_of_find?_eq_some hfind, by simpa using hid⟩

theorem length_active_remove {entry : Active}
    (hfind : state.find id = some entry) :
    (state.remove id).active.length + 1 = state.active.length := by
  have hany := running_of_find hfind
  rw [State.pool, List.any_map] at hany
  have hpos : 0 < state.active.length :=
    List.length_pos_of_mem (List.mem_of_find?_eq_some hfind)
  have herase : (state.remove id).active.length = state.active.length - 1 := by
    rw [State.remove, List.length_eraseP]
    exact if_pos hany
  omega

theorem counted_remove (hcounted : Counted state) {entry : Active}
    (hfind : state.find id = some entry) : Counted (state.remove id) := by
  have hlength := length_active_remove hfind
  rw [Counted] at hcounted ⊢
  simp only [State.remove] at hlength ⊢
  omega

namespace Bounded

theorem of_accept (hbounded : Bounded state)
    (hqueue : state.queue.length < queueLimit task.isCritical)
    (hclean : state.activeCount < concurrencyLimit →
      ∀ first ∈ (state.queue ++ [task]).head?, first.refused refuses = false) :
    Bounded (accept refuses state task) := by
  obtain ⟨hcounted, hfits, -⟩ := bounded_iff.mp hbounded
  obtain ⟨hcounted', hpool⟩ := accept_of_clean hcounted hclean
  refine bounded_iff.mpr ⟨hcounted', hpool ▸ hfits.submit task, ?_⟩
  have hlimit : queueLimit task.isCritical ≤ maxCriticalQueueSize := by
    cases task.isCritical <;> decide
  calc (accept refuses state task).queue.length
      = (state.pool.submit concurrencyLimit task).waiting.length :=
        congrArg (fun pool => pool.waiting.length) hpool
    _ ≤ state.queue.length + 1 := length_waiting_submit_le _ _ _
    _ ≤ maxCriticalQueueSize := by omega

theorem of_finish (hbounded : Bounded state) {entry : Active}
    (hfind : state.find id = some entry)
    (hclean : ∀ first ∈ state.queue.head?, first.refused refuses = false) :
    Bounded (processNext refuses (state.remove id)).1 := by
  obtain ⟨hcounted, hfits, hqueued⟩ := bounded_iff.mp hbounded
  obtain ⟨-, hpool, hcount⟩ :=
    @processNext_of_clean refuses (state.remove id) hclean
  rw [pool_remove] at hpool
  refine bounded_iff.mpr ⟨?_, ?_, ?_⟩
  · exact counted_of_sub_eq (counted_remove hcounted hfind) hcount
  · rw [hpool]
    exact hfits.finish (running_of_find hfind)
  · calc (processNext refuses (state.remove id)).1.queue.length
        = (state.pool.finish fun task => task.id = id).waiting.length :=
          congrArg (fun pool => pool.waiting.length) hpool
      _ ≤ state.queue.length := length_waiting_finish_le _ _
      _ ≤ maxCriticalQueueSize := hqueued

theorem of_step (hbounded : Bounded state)
    (hclean : StartsCleanly refuses state event)
    (hstep : step refuses state event = some next) : Bounded next := by
  cases effect_of_step hstep with
  | down => exact hbounded.of_sameTasks (sameTasks_setPromise _ _ _)
  | full => exact hbounded.of_sameTasks (sameTasks_setPromise _ _ _)
  | accepted hfree hadmitted =>
      refine hbounded.of_accept hadmitted fun hroom first hfirst => ?_
      apply hclean first
      rw [State.starting, if_pos ⟨rfl, hadmitted, hroom⟩]
      exact hfirst
  | answered => exact hbounded.of_sameTasks (sameTasks_setPhase _ _ _)
  | buried =>
      exact hbounded.of_sameTasks (sameTasks_setPhase
        { state with published := state.published ++ _ } _ _)
  | deadAnswered => exact hbounded.of_sameTasks (sameTasks_setPhase _ _ _)
  | reported =>
      split
      · exact hbounded.of_sameTasks
          ((sameTasks_settlePromise _ _ _).trans (sameTasks_setPhase _ _ _))
      · exact hbounded.of_sameTasks (sameTasks_setPhase _ _ _)
  | finished hfind => exact hbounded.of_finish hfind hclean

theorem not_of_accept (hbounded : Bounded state)
    (hroom : state.activeCount < concurrencyLimit) {first : Task}
    (hfirst : first ∈ (state.queue ++ [task]).head?)
    (hrefused : first.refused refuses = true) :
    ¬ Bounded (accept refuses state task) := by
  have hcounted := hbounded.counted
  have hempty : state.queue = [] := by
    by_contra hwaiting
    exact absurd (hbounded.busy hwaiting) hroom.ne
  obtain rfl : task = first := by simpa [hempty] using hfirst
  have hqueue : (state.enqueue task).queue = task :: [] := by
    simp [State.enqueue, hempty]
  rw [accept_of_room hroom (processNext_of_refused hqueue hrefused)]
  intro hnext
  obtain ⟨hcount, hpool⟩ := sameTasks_settlePromise
    { state.enqueue task with
      queue := []
      activeCount := (state.enqueue task).activeCount + 1 }
    task.id (.rejected .badHeader)
  have hafter := hnext.counted
  rw [if_pos rfl, Counted, hcount, length_active_of_pool hpool] at hafter
  rw [Counted] at hcounted
  simp only [State.enqueue, activeCount_setPromise, active_setPromise] at hafter
  omega

theorem not_of_finish (hbounded : Bounded state) {entry : Active}
    (hfind : state.find id = some entry) {first : Task}
    (hfirst : first ∈ state.queue.head?)
    (hrefused : first.refused refuses = true) :
    ¬ Bounded (processNext refuses (state.remove id)).1 := by
  obtain ⟨rest, hqueue⟩ : ∃ rest, state.queue = first :: rest :=
    List.head?_eq_some_iff.mp hfirst
  have hremoved : (state.remove id).queue = first :: rest := hqueue
  rw [processNext_of_refused hremoved hrefused]
  intro hnext
  have hafter := hnext.counted
  have hbefore := counted_remove hbounded.counted hfind
  rw [Counted] at hafter hbefore
  simp only at hafter
  omega

theorem not_of_step (hbounded : Bounded state)
    (hunclean : ¬ StartsCleanly refuses state event)
    (hstep : step refuses state event = some next) : ¬ Bounded next := by
  obtain ⟨first, hfirst, hrefused⟩ : ∃ first ∈ state.starting event,
      first.refused refuses = true := by
    simpa [StartsCleanly] using hunclean
  cases effect_of_step hstep with
  | accepted hfree hadmitted =>
      simp only [State.starting] at hfirst
      split at hfirst
      · rename_i hstarts
        exact hbounded.not_of_accept hstarts.2.2 hfirst hrefused
      · cases hfirst
  | finished hfind => exact hbounded.not_of_finish hfind hfirst hrefused
  | down => simp [State.starting] at hfirst
  | full hfree hfull => simp [State.starting, hfull.not_gt] at hfirst
  | answered | buried | deadAnswered | reported => cases hfirst

end Bounded

/-! ## A full queue -/

def call (isCritical : Bool) (id : ℕ) : Event :=
  .publishSafe id true "auth.event.user.loggedIn" (.object []) ⟨some isCritical, none⟩

/-- Calls of one class, one after the other. -/
def calls (isCritical : Bool) (first count : ℕ) : List Event :=
  (List.range count).map fun offset => call isCritical (first + offset)

/-- So many tasks have started, those of these classes wait, and the calls from `first`
on are still to come. -/
structure Filled (running : ℕ) (classes : List Bool) (first : ℕ) (state : State) :
    Prop where
  activeCount : state.activeCount = running
  classes : state.queue.map Task.isCritical = classes
  free : ∀ id, first ≤ id → state.promises id = none

section Filled

variable {running first : ℕ} {classes : List Bool}
variable (refuses : String → Bool) {isCritical : Bool}

theorem Filled.length_queue (hfilled : Filled running classes first state) :
    state.queue.length = classes.length := by
  rw [← hfilled.classes, List.length_map]

theorem Filled.step_call (hfilled : Filled running classes first state)
    (hroom : classes.length < queueLimit isCritical) :
    step refuses state (call isCritical first) = some (accept refuses state
      (taskOf first "auth.event.user.loggedIn" (.object []) ⟨some isCritical, none⟩)) := by
  have hadmitted : ¬ queueLimit isCritical ≤ state.queue.length := by
    rw [hfilled.length_queue]
    omega
  simp [step, call, hfilled.free first le_rfl, taskOf, hadmitted]

/-- Every slot is taken, so the task waits. -/
theorem Filled.wait_call (hfilled : Filled running classes first state)
    (hbusy : concurrencyLimit ≤ running)
    (hroom : classes.length < queueLimit isCritical) :
    ∃ next, step refuses state (call isCritical first) = some next ∧
      Filled running (classes ++ [isCritical]) (first + 1) next := by
  refine ⟨_, hfilled.step_call refuses hroom, ?_⟩
  rw [accept_of_full refuses (by rw [hfilled.activeCount]; exact_mod_cast hbusy.not_gt)]
  refine ⟨hfilled.activeCount, ?_, fun id hid => ?_⟩
  · simp [State.enqueue, taskOf, hfilled.classes]
  · have hne : id ≠ first := by omega
    simp [State.enqueue, State.setPromise, taskOf, hne, hfilled.free id (by omega)]

/-- A slot is free, so the task starts at once. -/
theorem Filled.start_call (hfilled : Filled running [] first state)
    (hslot : running < concurrencyLimit) :
    ∃ next, step refuses state (call isCritical first) = some next ∧
      Filled (running + 1) [] (first + 1) next := by
  have hidle : state.queue = [] := List.map_eq_nil_iff.mp hfilled.classes
  have hqueue : (state.enqueue (taskOf first "auth.event.user.loggedIn" (.object [])
      ⟨some isCritical, none⟩)).queue = taskOf first "auth.event.user.loggedIn" (.object [])
        ⟨some isCritical, none⟩ :: [] := by
    simp [State.enqueue, hidle]
  refine ⟨_, hfilled.step_call refuses (by cases isCritical <;> decide), ?_⟩
  rw [accept_of_room (by rw [hfilled.activeCount]; exact_mod_cast hslot)
    (processNext_of_cons hqueue rfl), if_neg Bool.false_ne_true]
  refine ⟨?_, rfl, fun id hid => ?_⟩
  · simp [State.enqueue, hfilled.activeCount]
  · have hne : id ≠ first := by omega
    simp [State.enqueue, State.setPromise, taskOf, hne, hfilled.free id (by omega)]

theorem run_calls (isCritical : Bool) (Inv : ℕ → State → Prop) {count : ℕ}
    (hstep : ∀ offset < count, ∀ state, Inv offset state →
      ∃ next, step refuses state (call isCritical (first + offset)) = some next ∧
        Inv (offset + 1) next)
    (hinit : Inv 0 state) :
    ∃ final, run (step refuses) state (calls isCritical first count) = some final ∧
      Inv count final := by
  induction count with
  | zero => exact ⟨state, rfl, hinit⟩
  | succ count ih =>
      obtain ⟨middle, hmiddle, hinv⟩ := ih fun offset hlt => hstep offset (by omega)
      obtain ⟨final, hfinal, hend⟩ := hstep count (by omega) middle hinv
      refine ⟨final, ?_, hend⟩
      rw [calls, List.range_succ, List.map_append]
      exact run_append_eq_some.mpr ⟨middle, hmiddle, run_cons_eq_some.mpr ⟨final, hfinal, rfl⟩⟩

variable (isCritical)

/-- The calls of one class behind a full pool all wait. -/
theorem Filled.wait_calls (hfilled : Filled running classes first state)
    (hbusy : concurrencyLimit ≤ running) {count : ℕ}
    (hroom : classes.length + count ≤ queueLimit isCritical) :
    ∃ final, run (step refuses) state (calls isCritical first count) = some final ∧
      Filled running (classes ++ List.replicate count isCritical) (first + count) final := by
  refine run_calls refuses isCritical (fun offset => Filled running
    (classes ++ List.replicate offset isCritical) (first + offset)) ?_ (by simpa using hfilled)
  intro offset hlt middle hmiddle
  have hstill : (classes ++ List.replicate offset isCritical).length <
      queueLimit isCritical := by
    rw [List.length_append, List.length_replicate]
    omega
  obtain ⟨next, hnext, hfilled⟩ := hmiddle.wait_call refuses hbusy hstill
  refine ⟨next, hnext, ?_⟩
  rwa [List.replicate_succ', ← List.append_assoc]

theorem Filled.start_calls (hfilled : Filled 0 [] first state) {count : ℕ}
    (hslots : count ≤ concurrencyLimit) :
    ∃ final, run (step refuses) state (calls isCritical first count) = some final ∧
      Filled count [] (first + count) final :=
  Publisher.run_calls refuses isCritical (fun offset => Filled offset [] (first + offset))
    (fun _ hlt _ hmiddle => hmiddle.start_call refuses (by omega)) hfilled

end Filled

/-- As many calls of both classes as the publisher has room for. -/
def burst : List Event :=
  calls false 0 concurrencyLimit ++ calls false 100 maxNormalQueueSize ++
    calls true 5100 (maxCriticalQueueSize - maxNormalQueueSize)

theorem run_burst (refuses : String → Bool) :
    ∃ final, run (step refuses) .initial burst = some final ∧
      Filled concurrencyLimit (List.replicate maxNormalQueueSize false ++
        List.replicate (maxCriticalQueueSize - maxNormalQueueSize) true) 10100 final := by
  have hnormal : ([] : List Bool).length + maxNormalQueueSize ≤ queueLimit false := le_rfl
  have hcritical : ([] ++ List.replicate maxNormalQueueSize false).length +
      (maxCriticalQueueSize - maxNormalQueueSize) ≤ queueLimit true := by
    rw [List.nil_append, List.length_replicate]
    decide
  have hinitial : Filled 0 [] 0 State.initial := ⟨rfl, rfl, fun _ _ => rfl⟩
  obtain ⟨first, hfirst, hbusy⟩ :=
    hinitial.start_calls refuses false le_rfl
  obtain ⟨second, hsecond, hwaiting⟩ := hbusy.wait_calls refuses false le_rfl
    hnormal
  obtain ⟨final, hfinal, hfull⟩ := hwaiting.wait_calls refuses true le_rfl hcritical
  refine ⟨final, ?_, hfull⟩
  rw [burst, List.append_assoc]
  exact run_append_eq_some.mpr ⟨first, hfirst, run_append_eq_some.mpr ⟨second, hsecond, hfinal⟩⟩

/-! ## Bounds -/

/-- The publisher keeps its bounds exactly as long as no task throws where it
starts. -/
theorem bounded_iff_startsCleanly {events : List Event} {final : State}
    (hrun : run (step refuses) State.initial events = some final) :
    (∀ first, first <+: events → ∀ middle,
        run (step refuses) State.initial first = some middle →
          Bounded middle) ↔
      Guarded (step refuses) (StartsCleanly refuses) State.initial events := by
  refine always_iff_guarded (fun _ _ => True) Bounded Bounded
    (fun _ hbounded => hbounded) ?_ ?_ Bounded.initial (guarded_true _ _) hrun
  · exact fun state event next hbounded _ hclean hstep =>
      hbounded.of_step hclean hstep
  · exact fun state event next hbounded _ hunclean hstep =>
      hbounded.not_of_step hunclean hstep

/-- A header value must not hold a line break. -/
def hasLineBreak (value : String) : Bool :=
  value.toList.any fun letter => letter = '\r' || letter = '\n'

/-- One event on an idle publisher, its identifier broken over two lines. -/
def brokenCall : List Event :=
  [.publishSafe 0 true "auth.event.user.loggedIn" (.object [])
    ⟨none, some "login\n0"⟩]

/-- Nothing runs and one slot is taken for good. -/
theorem not_bounded_of_brokenCall :
    ∃ final, run (step hasLineBreak) State.initial brokenCall = some final ∧
      final.activeCount = 1 ∧ final.active = [] ∧ ¬ Bounded final := by
  obtain ⟨final, hrun, hfacts⟩ := Option.map_eq_some_iff.mp
    (show (run (step hasLineBreak) State.initial brokenCall).map
      (fun state => (state.activeCount, state.active.length)) = some (1, 0)
      by decide)
  obtain ⟨hcount, hlength⟩ := Prod.mk.inj hfacts
  refine ⟨final, hrun, hcount, List.length_eq_zero_iff.mp hlength, ?_⟩
  intro hbounded
  have hcounted := hbounded.counted
  rw [Counted, hcount, hlength] at hcounted
  exact absurd hcounted (by decide)

/-- A critical call whose message ends on the dead-letter subject. -/
def deadLetterCall : List Event :=
  [.publishSafe 0 true "auth.jwt.revoke" (.object []) ⟨some true, some "u1"⟩,
    .settle 0 (some (.error "TIMEOUT")), .settle 0 none, .report 0, .finish 0]

/-- Every slot is taken and the queue is full. -/
theorem bounded_iff_startsCleanly_of_burst :
    ∃ final, run (step hasLineBreak) State.initial burst = some final ∧
      final.activeCount = concurrencyLimit ∧
      final.queue.length = maxCriticalQueueSize ∧
      ((∀ first, first <+: burst → ∀ middle,
          run (step hasLineBreak) State.initial first = some middle →
            Bounded middle) ↔
        Guarded (step hasLineBreak) (StartsCleanly hasLineBreak) State.initial
          burst) := by
  obtain ⟨final, hrun, hfilled⟩ := run_burst hasLineBreak
  refine ⟨final, hrun, hfilled.activeCount, ?_, bounded_iff_startsCleanly hrun⟩
  rw [hfilled.length_queue, List.length_append, List.length_replicate,
    List.length_replicate]
  rfl

/-! ## A stalled publisher -/

/-- Every slot is taken and nothing runs. -/
def Stalled (state : State) : Prop :=
  state.active = [] ∧ ¬ state.activeCount < concurrencyLimit

theorem Stalled.of_step (hstalled : Stalled state)
    (hstep : step refuses state event = some next) :
    Stalled next ∧ next.published = state.published := by
  obtain ⟨hactive, hfull⟩ := hstalled
  have hnone : ∀ id, state.find id = none := by simp [State.find, hactive]
  cases effect_of_step hstep with
  | down | full => exact ⟨⟨hactive, hfull⟩, rfl⟩
  | accepted =>
      rw [accept_of_full refuses hfull]
      exact ⟨⟨hactive, hfull⟩, rfl⟩
  | answered hfind | buried hfind | deadAnswered hfind | reported hfind
  | finished hfind => cases (hnone _).symm.trans hfind

/-- It publishes nothing any more, whatever is called. -/
theorem Stalled.of_run {events : List Event} {final : State}
    (hstalled : Stalled state)
    (hrun : run (step refuses) state events = some final) :
    final.published = state.published := by
  have hkept : Stalled final ∧ final.published = state.published := by
    apply run_invariant (fun later =>
      Stalled later ∧ later.published = state.published) _ ⟨hstalled, rfl⟩ hrun
    rintro middle event next ⟨hmiddle, hsame⟩ hstep
    obtain ⟨hnext, hpublished⟩ := hmiddle.of_step hstep
    exact ⟨hnext, hpublished.trans hsame⟩
  exact hkept.2

/-- A refused task on an idle publisher takes a slot and leaves nothing behind. -/
theorem step_of_refused {subject : String} {data : Json}
    {options : PublishOptions} (hidle : state.queue = [])
    (hroom : state.activeCount < concurrencyLimit)
    (hfree : state.promises id = none)
    (hrefused : (taskOf id subject data options).refused refuses = true) :
    ∃ next, step refuses state (.publishSafe id true subject data options) =
        some next ∧
      next.activeCount = state.activeCount + 1 ∧ next.active = state.active ∧
        next.queue = [] ∧ ∀ other, other ≠ id →
          next.promises other = state.promises other := by
  have hqueue : (state.enqueue (taskOf id subject data options)).queue =
      taskOf id subject data options :: [] := by
    simp [State.enqueue, hidle]
  have hadmitted : ¬ queueLimit (taskOf id subject data options).isCritical ≤
      state.queue.length := by
    rw [hidle]
    cases (taskOf id subject data options).isCritical <;> decide
  refine ⟨accept refuses state (taskOf id subject data options), ?_, ?_⟩
  · simp [step, hfree, hadmitted]
  · rw [accept_of_room hroom (processNext_of_refused hqueue hrefused), if_pos rfl,
      State.settlePromise]
    refine ⟨?_, ?_, ?_, fun other hother => ?_⟩
    · split <;> rfl
    · split <;> rfl
    · split <;> rfl
    · have hid : other ≠ (taskOf id subject data options).id := hother
      split <;> simp [State.enqueue, State.setPromise, hid]

/-- Calls with a broken identifier, one after the other. -/
def brokenCalls (count : ℕ) : List Event :=
  (List.range count).map fun id =>
    .publishSafe id true "auth.event.user.loggedIn" (.object [])
      ⟨none, some "login\n0"⟩

theorem run_brokenCalls {count : ℕ} (hle : count ≤ concurrencyLimit) :
    ∃ final, run (step hasLineBreak) State.initial (brokenCalls count) =
        some final ∧ final.activeCount = count ∧ final.active = [] ∧
      final.queue = [] ∧ ∀ id, count ≤ id → final.promises id = none := by
  induction count with
  | zero => exact ⟨State.initial, rfl, rfl, rfl, rfl, fun _ _ => rfl⟩
  | succ count ih =>
      obtain ⟨middle, hmiddle, hcount, hactive, hqueue, hfree⟩ := ih (by omega)
      have hroom : middle.activeCount < concurrencyLimit := by
        rw [hcount]
        exact_mod_cast hle
      obtain ⟨final, hstep, hraised, hsame, hempty, hothers⟩ :=
        step_of_refused hqueue hroom (hfree count le_rfl)
          (show (taskOf count "auth.event.user.loggedIn" (.object [])
            ⟨none, some "login\n0"⟩).refused hasLineBreak = true by
              simp [taskOf, Task.refused, Task.header, hasLineBreak])
      refine ⟨final, ?_, ?_, hsame.trans hactive, hempty, fun id hid => ?_⟩
      · rw [brokenCalls, List.range_succ, List.map_append]
        exact run_append_eq_some.mpr
          ⟨middle, hmiddle, run_cons_eq_some.mpr ⟨final, hstep, rfl⟩⟩
      · rw [hraised, hcount]
        push_cast
        rfl
      · rw [hothers id (by omega)]
        exact hfree id (by omega)

/-- A hundred of them stall the publisher for good: no later event makes it
publish anything. -/
theorem stalled_of_brokenCalls :
    ∃ stalled, run (step hasLineBreak) State.initial
        (brokenCalls concurrencyLimit) = some stalled ∧
      ∀ events final, run (step hasLineBreak) stalled events = some final →
        final.published = stalled.published := by
  obtain ⟨stalled, hstalled, hcount, hactive, -⟩ := run_brokenCalls le_rfl
  refine ⟨stalled, hstalled, fun events final hrun => ?_⟩
  exact Stalled.of_run ⟨hactive, by simp [hcount]⟩ hrun

end OceanChat.Publisher
