import OceanChat.Cores.AsyncQueue

/-!
# The slots of the asynchronous queue

As long as no task throws when it is called, the queue is a work pool, every
task lives its tale, and its promise settles with what its own promise settled
with.  A task that throws takes its slot with it.
-/

namespace OceanChat.AsyncQueue

open Runs WorkPool TaskTales

variable {Value Cause : Type*}
variable {concurrency : ℕ} {maxQueueSize : Option ℕ}
variable {state next : State Value Cause} {event : Event Value Cause}
variable {history : History Value Cause} {task : Task Cause} {id : ℕ}

/-! ## Slots -/

/-- The tasks of the queue as a work pool. -/
def State.pool (state : State Value Cause) : Pool (Task Cause) :=
  ⟨state.queue, state.active.map Prod.fst⟩

/-- The count is right and the slots are used as in a work pool. -/
structure Bounded (concurrency : ℕ) (state : State Value Cause) : Prop where
  counted : state.activeCount = state.active.length
  fits : Fits concurrency state.pool

theorem length_running (state : State Value Cause) :
    state.pool.running.length = state.active.length :=
  List.length_map _

theorem Bounded.initial :
    Bounded concurrency (State.initial : State Value Cause) :=
  ⟨rfl, Fits.empty⟩

theorem Bounded.of_same (hbounded : Bounded concurrency state)
    (hcount : next.activeCount = state.activeCount)
    (hpool : next.pool = state.pool) : Bounded concurrency next := by
  refine ⟨?_, hpool ▸ hbounded.fits⟩
  rw [hcount, hbounded.counted, ← length_running, ← hpool, length_running]

theorem pool_setPhase (state : State Value Cause) (id : ℕ)
    (phase : Phase Value Cause) :
    (state.setPhase id phase).pool = state.pool := by
  simp only [State.pool, State.setPhase, List.map_map, Pool.mk.injEq, true_and]
  refine List.map_congr_left fun entry _ => ?_
  rw [Function.comp_apply]
  split <;> rfl

theorem settlePromise_keeps (state : State Value Cause) (id : ℕ)
    (promise : PromiseState Value Cause) :
    (state.settlePromise id promise).activeCount = state.activeCount ∧
      (state.settlePromise id promise).pool = state.pool := by
  rw [State.settlePromise]
  split <;> exact ⟨rfl, rfl⟩

/-- The state in which `finally` looks at the queue. -/
def State.remove (state : State Value Cause) (id : ℕ) : State Value Cause :=
  { state with
    active := state.active.eraseP fun entry => entry.1.id = id
    activeCount := state.activeCount - 1 }

/-- What an enabled step does, one case for each branch it takes. -/
inductive Effect (concurrency : ℕ) (maxQueueSize : Option ℕ)
    (state : State Value Cause) : Event Value Cause → State Value Cause → Prop
  | full {task : Task Cause} (hfree : state.promises task.id = none)
      (hfull : isFull maxQueueSize state) :
      Effect concurrency maxQueueSize state (.enqueue task)
        (state.setPromise task.id (.rejected (.error "Queue is full")))
  | accepted {task : Task Cause} (hfree : state.promises task.id = none)
      (hfull : ¬ isFull maxQueueSize state) :
      Effect concurrency maxQueueSize state (.enqueue task)
        (accept concurrency state task)
  | settled {id : ℕ} {task : Task Cause} {outcome}
      (hfind : state.find id = some (task, .running)) :
      Effect concurrency maxQueueSize state (.settle id outcome)
        (state.setPhase id (.settled outcome))
  | reported {id : ℕ} {task : Task Cause} {outcome}
      (hfind : state.find id = some (task, .settled outcome)) :
      Effect concurrency maxQueueSize state (.report id)
        ((state.settlePromise id outcome.promise).setPhase id .finishing)
  | finished {id : ℕ} {task : Task Cause}
      (hfind : state.find id = some (task, .finishing)) :
      Effect concurrency maxQueueSize state (.finish id)
        (startNext (state.remove id)).1

theorem effect_of_step
    (hstep : step concurrency maxQueueSize state event = some next) :
    Effect concurrency maxQueueSize state event next := by
  cases event with
  | enqueue task =>
      simp only [step] at hstep
      split_ifs at hstep with hfree hfull
      · cases hstep
        exact .full (by simpa using hfree) hfull
      · cases hstep
        exact .accepted (by simpa using hfree) hfull
  | settle id outcome =>
      simp only [step] at hstep
      split at hstep
      · rename_i task hfind
        cases hstep
        exact .settled hfind
      · cases hstep
  | report id =>
      simp only [step] at hstep
      split at hstep
      · rename_i task outcome hfind
        cases hstep
        exact .reported hfind
      · cases hstep
  | finish id =>
      simp only [step] at hstep
      split at hstep
      · rename_i task hfind
        cases hstep
        exact .finished hfind
      · cases hstep

theorem start_of_clean (hclean : task.throws = none)
    (state : State Value Cause) :
    start state task = ({ state with
      activeCount := state.activeCount + 1
      active := state.active ++ [(task, .running)] }, none) := by
  simp [start, hclean]

/-- The queue takes the next task as a work pool does. -/
theorem startNext_of_clean (state : State Value Cause)
    (hclean : ∀ task ∈ state.queue.head?, task.throws = none) :
    (startNext state).2 = none ∧
      (startNext state).1.pool = state.pool.next ∧
      (startNext state).1.activeCount - (startNext state).1.active.length =
        state.activeCount - state.active.length := by
  obtain ⟨⟨queue, active, promises⟩, activeCount⟩ := state
  cases queue with
  | nil => simp [startNext, State.pool, Pool.next]
  | cons task queue =>
      have htask : task.throws = none := hclean task rfl
      simp only [startNext, start_of_clean htask, State.pool, Pool.next,
        List.map_append, List.map_cons, List.map_nil, List.length_append,
        List.length_cons, List.length_nil, true_and]
      push_cast
      ring

/-- A task that throws leaves the count raised and runs nowhere. -/
theorem startNext_of_throws {queue : List (Task Cause)} {cause : Cause}
    (hqueue : state.queue = task :: queue) (hthrows : task.throws = some cause) :
    startNext state =
      ({ state with queue := queue, activeCount := state.activeCount + 1 },
        some cause) := by
  simp [startNext, hqueue, start, hthrows]

theorem accept_of_full (hfull : ¬ state.activeCount < concurrency)
    (task : Task Cause) :
    accept concurrency state task = state.enqueue task :=
  if_neg hfull

theorem accept_of_clean (hroom : state.activeCount < concurrency)
    (hnext : startNext (state.enqueue task) = (next, none)) :
    accept concurrency state task = next := by
  have hqueued : (state.enqueue task).activeCount < concurrency := hroom
  simp only [accept, hqueued, if_true, hnext]

theorem accept_of_throws {cause : Cause} (hroom : state.activeCount < concurrency)
    (hnext : startNext (state.enqueue task) = (next, some cause)) :
    accept concurrency state task =
      next.settlePromise task.id (.rejected (.cause cause)) := by
  have hqueued : (state.enqueue task).activeCount < concurrency := hroom
  simp only [accept, hqueued, if_true, hnext]

theorem room_iff (hbounded : Bounded concurrency state) :
    state.activeCount < concurrency ↔
      state.pool.running.length < concurrency := by
  rw [hbounded.counted, length_running]
  exact Nat.cast_lt

namespace Bounded

theorem accept (hbounded : Bounded concurrency state)
    (hclean : state.activeCount < concurrency →
      ∀ first ∈ (state.queue ++ [task]).head?, first.throws = none) :
    Bounded concurrency (accept concurrency state task) := by
  have hsubmit := hbounded.fits.submit task
  by_cases hroom : state.activeCount < concurrency
  · obtain ⟨hthrew, hpool, hcount⟩ :=
      startNext_of_clean (state.enqueue task) (hclean hroom)
    rw [Pool.submit, if_pos ((room_iff hbounded).mp hroom)] at hsubmit
    rw [accept_of_clean hroom (Prod.ext rfl hthrew)]
    refine ⟨?_, hpool ▸ hsubmit⟩
    have hcounted := hbounded.counted
    have hsame : (state.enqueue task).activeCount -
        (state.enqueue task).active.length =
          state.activeCount - state.active.length := rfl
    rw [hsame, hcounted, sub_self] at hcount
    exact sub_eq_zero.mp hcount
  · rw [Pool.submit, if_neg (mt (room_iff hbounded).mpr hroom)] at hsubmit
    rw [accept_of_full hroom]
    exact ⟨hbounded.counted, hsubmit⟩

theorem length_remove {entry : Task Cause × Phase Value Cause}
    (hfind : state.find id = some entry) :
    (state.remove id).active.length + 1 = state.active.length := by
  have hmem := List.mem_of_find?_eq_some hfind
  have hid := List.find?_some hfind
  have hany : state.active.any (fun entry => entry.1.id = id) = true :=
    List.any_eq_true.mpr ⟨entry, hmem, hid⟩
  have hpos : 0 < state.active.length := List.length_pos_of_mem hmem
  have herase : (state.remove id).active.length = state.active.length - 1 := by
    rw [State.remove, List.length_eraseP]
    exact if_pos hany
  omega

theorem pool_remove (state : State Value Cause) (id : ℕ) :
    (state.remove id).pool = state.pool.remove fun task => task.id = id := by
  simp only [State.pool, State.remove, Pool.remove, Pool.mk.injEq, true_and,
    List.eraseP_map]
  rfl

theorem finish (hbounded : Bounded concurrency state)
    {entry : Task Cause × Phase Value Cause}
    (hfind : state.find id = some entry)
    (hclean : ∀ first ∈ state.queue.head?, first.throws = none) :
    Bounded concurrency (startNext (state.remove id)).1 := by
  obtain ⟨-, hpool, hcount⟩ := startNext_of_clean (state.remove id) hclean
  have hany : state.pool.running.any (fun task => task.id = id) = true := by
    rw [State.pool, List.any_map, List.any_eq_true]
    exact ⟨entry, List.mem_of_find?_eq_some hfind, List.find?_some hfind⟩
  have hfinish := hbounded.fits.finish hany
  rw [Pool.finish, ← pool_remove, ← hpool] at hfinish
  refine ⟨?_, hfinish⟩
  have hlength := length_remove hfind
  have hcounted := hbounded.counted
  have hlower : (state.remove id).activeCount = state.activeCount - 1 := rfl
  omega

theorem of_step (hbounded : Bounded concurrency state)
    (hclean : StartsCleanly concurrency maxQueueSize state event)
    (hstep : step concurrency maxQueueSize state event = some next) :
    Bounded concurrency next := by
  cases effect_of_step hstep with
  | full => exact hbounded.of_same rfl rfl
  | accepted hfree hfull =>
      refine hbounded.accept fun hroom first hfirst => hclean first ?_
      rw [State.starting, if_pos ⟨hfull, hroom⟩]
      exact hfirst
  | settled => exact hbounded.of_same rfl (pool_setPhase _ _ _)
  | @reported id task outcome hfind =>
      obtain ⟨hcount, hpool⟩ := settlePromise_keeps state id outcome.promise
      exact (hbounded.of_same hcount hpool).of_same rfl (pool_setPhase _ _ _)
  | finished hfind => exact hbounded.finish hfind hclean

/-- A task that throws leaves a count that nothing brings down again. -/
theorem not_counted_of_step (hbounded : Bounded concurrency state)
    (hunclean : ¬ StartsCleanly concurrency maxQueueSize state event)
    (hstep : step concurrency maxQueueSize state event = some next) :
    next.activeCount ≠ next.active.length := by
  have hcounted := hbounded.counted
  obtain ⟨first, hfirst, hthrows⟩ :
      ∃ first ∈ state.starting concurrency maxQueueSize event,
        first.throws ≠ none := by
    simpa [StartsCleanly] using hunclean
  obtain ⟨cause, hcause⟩ := Option.ne_none_iff_exists'.mp hthrows
  cases effect_of_step hstep with
  | full hfree hfull => simp [State.starting, hfull] at hfirst
  | @accepted task hfree hfull =>
      simp only [State.starting] at hfirst
      split_ifs at hfirst with hstarts
      · obtain ⟨rest, hqueue⟩ := List.head?_eq_some_iff.mp hfirst
        have hqueued : (state.enqueue task).queue = first :: rest := hqueue
        rw [accept_of_throws hstarts.2 (startNext_of_throws hqueued hcause)]
        obtain ⟨hcount, hpool⟩ := settlePromise_keeps
          { state.enqueue task with
            queue := rest
            activeCount := (state.enqueue task).activeCount + 1 }
          task.id (.rejected (.cause cause))
        rw [hcount, ← length_running, hpool, length_running]
        intro hafter
        have hraised : state.activeCount + 1 = state.active.length := hafter
        omega
      · cases hfirst
  | @finished id task hfind =>
      obtain ⟨rest, hqueue⟩ := List.head?_eq_some_iff.mp hfirst
      have hremoved : (state.remove id).queue = first :: rest := hqueue
      rw [startNext_of_throws hremoved hcause]
      have hlength := length_remove hfind
      intro hafter
      have hraised : state.activeCount - 1 + 1 =
        (state.remove id).active.length := hafter
      omega
  | settled | reported => cases hfirst

end Bounded

/-! ## Tales -/

inductive Tale (task : Task Cause) : Option (Phase Value Cause) →
    PromiseState Value Cause → History Value Cause → Prop
  | waiting : Tale task none .pending [.accepted task]
  | running : Tale task (some .running) .pending
      [.accepted task, .started task]
  | settled (outcome : Outcome Value Cause) :
      Tale task (some (.settled outcome)) .pending
        [.accepted task, .started task, .noted task (.settled outcome)]
  | finishing (outcome : Outcome Value Cause) :
      Tale task (some .finishing) outcome.promise
        [.accepted task, .started task, .noted task (.settled outcome)]

def script : Script (Task Cause) (Phase Value Cause)
    (PromiseState Value Cause) (Note Value Cause) where
  id := Task.id
  first := .running
  last := .finishing
  awaited := fun _ => .pending
  Tale := Tale
  waiting := fun _ => .waiting
  starts := by
    intro task promise history htale
    cases htale
    exact .running

theorem Tale.settle {promise : PromiseState Value Cause}
    (htale : Tale task (some .running) promise history)
    (outcome : Outcome Value Cause) :
    Tale task (some (.settled outcome)) promise
      (history ++ [.noted task (.settled outcome)]) := by
  cases htale
  exact .settled outcome

theorem Tale.report {promise : PromiseState Value Cause}
    {outcome : Outcome Value Cause}
    (htale : Tale task (some (.settled outcome)) promise history) :
    promise = .pending ∧
      Tale task (some .finishing) outcome.promise history := by
  cases htale
  exact ⟨rfl, .finishing outcome⟩

theorem Outcome.promise_injective :
    Function.Injective (Outcome.promise : Outcome Value Cause → _) := by
  intro left right heq
  cases left <;> cases right <;> cases heq <;> rfl

theorem Outcome.promise_ne_pending (outcome : Outcome Value Cause) :
    outcome.promise ≠ .pending := by
  cases outcome <;> nofun

/-- The promise of a task is settled where its tale has ended and the handler
has run. -/
theorem Tale.promise_iff {phase : Option (Phase Value Cause)}
    {promise : PromiseState Value Cause}
    (htale : Tale task phase promise history) (outcome : Outcome Value Cause) :
    promise = outcome.promise ↔ .noted task (.settled outcome) ∈ history ∧
      ∀ other, phase ≠ some (.settled other) := by
  cases htale with
  | waiting => simp [outcome.promise_ne_pending.symm]
  | running => simp [outcome.promise_ne_pending.symm]
  | settled => simp [outcome.promise_ne_pending.symm]
  | finishing other =>
      simp [Outcome.promise_injective.eq_iff, eq_comm]

theorem Tale.pending_or {phase : Option (Phase Value Cause)}
    {promise : PromiseState Value Cause}
    (htale : Tale task phase promise history) :
    promise = .pending ∨ ∃ outcome, promise = Outcome.promise outcome := by
  cases htale with
  | waiting => exact .inl rfl
  | running => exact .inl rfl
  | settled outcome => exact .inl rfl
  | finishing outcome => exact .inr ⟨outcome, rfl⟩

def Recorded (state : State Value Cause) (history : History Value Cause) :
    Prop :=
  script.Recorded state.toDesk history

theorem find_of_recorded (hrecorded : Recorded state history)
    {entry : Task Cause × Phase Value Cause} (hentry : entry ∈ state.active) :
    state.find entry.1.id = some entry := by
  obtain ⟨found, hfound⟩ : ∃ found, state.find entry.1.id = some found := by
    apply Option.ne_none_iff_exists'.mp
    intro hnone
    simpa using List.find?_eq_none.mp hnone entry hentry
  have hid : found.1.id = entry.1.id := by
    simpa using List.find?_some hfound
  rw [hfound, hrecorded.eq_of_active (List.mem_of_find?_eq_some hfound) hentry hid]

theorem tale_of_find (hrecorded : Recorded state history)
    {phase : Phase Value Cause} (hfind : state.find id = some (task, phase)) :
    ∃ promise, state.promises id = some promise ∧
      Tale task (some phase) promise (script.tale history id) := by
  obtain rfl : task.id = id := by simpa using List.find?_some hfind
  exact hrecorded.running _ (List.mem_of_find?_eq_some hfind)

namespace Recorded

theorem initial : Recorded (State.initial : State Value Cause) [] :=
  Script.Recorded.initial

theorem startNext (hrecorded : Recorded state history)
    (hclean : ∀ first ∈ state.queue.head?, first.throws = none) :
    Recorded (startNext state).1
      (history ++ state.queue.head?.toList.flatMap calls) := by
  cases hqueue : state.queue with
  | nil => simpa [AsyncQueue.startNext, hqueue] using hrecorded
  | cons first queue =>
      have hfirst : first.throws = none := hclean first (by simp [hqueue])
      have hcalls : calls first =
          ([.started first] : History Value Cause) := by simp [calls, hfirst]
      simp only [AsyncQueue.startNext, hqueue, start_of_clean hfirst,
        List.head?_cons, Option.toList_some, List.flatMap_singleton, hcalls]
      exact Script.Recorded.start hrecorded hqueue

theorem accept (hrecorded : Recorded state history) (concurrency : ℕ)
    (hfree : state.promises task.id = none)
    (hclean : state.activeCount < concurrency →
      ∀ first ∈ (state.queue ++ [task]).head?, first.throws = none) :
    Recorded (accept concurrency state task) (history ++ .accepted task ::
      if state.activeCount < concurrency then
        (state.queue ++ [task]).head?.toList.flatMap calls
      else []) := by
  have hqueued : Recorded (state.enqueue task) (history ++ [.accepted task]) :=
    Script.Recorded.enqueue hrecorded hfree
  rw [List.append_cons]
  by_cases hroom : state.activeCount < concurrency
  · obtain ⟨hthrew, -⟩ := startNext_of_clean (state.enqueue task) (hclean hroom)
    rw [accept_of_clean hroom (Prod.ext rfl hthrew), if_pos hroom]
    exact hqueued.startNext (hclean hroom)
  · rw [accept_of_full hroom, if_neg hroom, List.append_nil]
    exact hqueued

/-- A task goes on to its next phase. -/
theorem advance (hrecorded : Recorded state history)
    {phase later : Phase Value Cause} {promise : PromiseState Value Cause}
    (notes : List (Note Value Cause))
    (hfind : state.find id = some (task, phase))
    (hqueue : next.queue = state.queue)
    (hactive : next.active = (state.setPhase id later).active)
    (hothers : ∀ other, other ≠ id →
      next.promises other = state.promises other)
    (hpromise : next.promises id = some promise)
    (htale : Tale task (some later) promise
      (script.tale history id ++ notes.map (Entry.noted task))) :
    Recorded next (history ++ notes.map (Entry.noted task)) := by
  obtain rfl : task.id = id := by simpa using List.find?_some hfind
  exact Script.Recorded.advance hrecorded (List.mem_of_find?_eq_some hfind)
    hqueue hactive hothers hpromise htale

theorem of_step (hrecorded : Recorded state history)
    (hclean : StartsCleanly concurrency maxQueueSize state event)
    (hstep : step concurrency maxQueueSize state event = some next) :
    Recorded next
      (history ++ entries concurrency maxQueueSize state event) := by
  cases effect_of_step hstep with
  | full hfree hfull =>
      simp only [entries, if_pos hfull, List.append_nil]
      exact Script.Recorded.promise hrecorded hfree _
  | accepted hfree hfull =>
      have haccept := hrecorded.accept concurrency hfree
        fun hroom first hfirst => hclean first (by
          rw [State.starting, if_pos ⟨hfull, hroom⟩]
          exact hfirst)
      simp only [entries, if_neg hfull, State.starting]
      by_cases hroom : state.activeCount < concurrency
      · rw [if_pos ⟨hfull, hroom⟩]
        rwa [if_pos hroom] at haccept
      · rw [if_neg (fun hboth => hroom hboth.2)]
        rwa [if_neg hroom] at haccept
  | @settled id task outcome hfind =>
      obtain ⟨promise, hpromise, htale⟩ := tale_of_find hrecorded hfind
      simp only [entries, hfind]
      exact hrecorded.advance [.settled outcome] hfind rfl rfl
        (fun _ _ => rfl) hpromise (htale.settle outcome)
  | @reported id task outcome hfind =>
      obtain ⟨promise, hpromise, htale⟩ := tale_of_find hrecorded hfind
      obtain ⟨rfl, hreported⟩ := htale.report
      rw [← List.append_nil (script.tale history id)] at hreported
      simp only [State.settlePromise, hpromise]
      exact hrecorded.advance [] hfind rfl rfl
        (fun other hne => Function.update_of_ne hne _ _)
        (Function.update_self ..) hreported
  | @finished id task hfind =>
      obtain rfl : task.id = id := by simpa using List.find?_some hfind
      have hremove : Recorded (state.remove task.id) history :=
        Script.Recorded.remove hrecorded (List.mem_of_find?_eq_some hfind)
      exact hremove.startNext hclean

theorem orderly (hrecorded : Recorded state history)
    (hbounded : Bounded concurrency state) (hpositive : 1 ≤ concurrency) :
    Orderly concurrency state history := by
  have htale : ∀ task ∈ acceptedTasks history, ∃ phase promise,
      state.promises task.id = some promise ∧
        Tale task phase promise (script.tale history task.id) ∧
          ((∀ outcome, phase ≠ some (.settled outcome)) ↔ ¬ Due state task) := by
    intro task htask
    obtain ⟨phase, ⟨promise, hpromise, htale⟩, hphase⟩ :=
      Script.Recorded.exists_phase hrecorded htask
    refine ⟨phase, promise, hpromise, htale, ?_⟩
    rw [Due, not_exists]
    exact forall_congr' fun outcome => not_congr (hphase _ nofun)
  refine ⟨?_, hbounded.counted, hrecorded.inOrder, hrecorded.distinct,
    ?_, ?_, ?_, ?_⟩
  · rw [← length_running]
    exact hbounded.fits.bounded
  · intro task htask outcome
    obtain ⟨phase, promise, hpromise, htold, hdue⟩ := htale task htask
    have hiff := htold.promise_iff outcome
    rw [Script.mem_tale_iff, hdue] at hiff
    rw [hpromise, Option.some.injEq, hiff]
    simp [Entry.task, script]
  · intro task htask
    obtain ⟨phase, promise, hpromise, htold, -⟩ := htale task htask
    simpa only [hpromise, Option.some.injEq] using htold.pending_or
  · exact fun entry hentry =>
      ⟨Script.Recorded.started_of_active hrecorded hentry,
        find_of_recorded hrecorded hentry⟩
  · intro hidle
    refine hbounded.fits.waiting_eq_nil ?_
    rw [length_running, hidle]
    exact hpositive

end Recorded

/-- The queue leaks no slot exactly as long as no task that it starts throws. -/
theorem orderly_iff_startsCleanly {events : List (Event Value Cause)}
    {final : State Value Cause} (hpositive : 1 ≤ concurrency)
    (hrun : run (step concurrency maxQueueSize) State.initial events =
      some final) :
    (∀ first, first <+: events → ∀ middle,
        run (step concurrency maxQueueSize) State.initial first = some middle →
          Orderly concurrency middle (trace (step concurrency maxQueueSize)
            (entries concurrency maxQueueSize) State.initial first)) ↔
      Guarded (step concurrency maxQueueSize)
        (StartsCleanly concurrency maxQueueSize) State.initial events := by
  refine always_iff_guarded_trace
    (fun state history => Recorded state history ∧ Bounded concurrency state)
    (Orderly concurrency)
    (fun state history hinv => hinv.1.orderly hinv.2 hpositive) ?_ ?_
    ⟨Recorded.initial, Bounded.initial⟩ hrun
  · rintro state history event next ⟨hrecorded, hbounded⟩ hclean hstep
    exact ⟨hrecorded.of_step hclean hstep, hbounded.of_step hclean hstep⟩
  · rintro state history event next ⟨-, hbounded⟩ hunclean hstep horderly
    exact hbounded.not_counted_of_step hunclean hstep horderly.counted

/-- Three tasks on a queue that runs one at a time; the second throws when it is
called. -/
def throwingTask : List (Event ℕ String) :=
  [.enqueue ⟨0, none⟩, .enqueue ⟨1, some "not a promise"⟩, .enqueue ⟨2, none⟩,
    .settle 0 (.fulfilled 7), .report 0, .finish 0]

/-- Nothing runs, the third task waits, the slot is taken and the promise of the
second is pending. -/
theorem not_orderly_of_throwingTask :
    ∃ final : State ℕ String,
      run (step 1 none) State.initial throwingTask = some final ∧
        final.active = [] ∧ final.queue ≠ [] ∧ final.activeCount = 1 ∧
        final.promises 1 = some .pending ∧
        ¬ Orderly 1 final (trace (step 1 none) (entries 1 none) State.initial
          throwingTask) := by
  refine ⟨_, rfl, rfl, nofun, rfl, rfl, fun horderly => ?_⟩
  exact absurd (horderly.drained rfl) nofun

/-- Two tasks, one of which is refused for a full queue. -/
def fullQueue : List (Event ℕ String) :=
  [.enqueue ⟨0, none⟩, .enqueue ⟨1, none⟩, .enqueue ⟨2, none⟩,
    .settle 0 (.rejected "lost"), .report 0, .finish 0]

theorem orderly_iff_startsCleanly_of_fullQueue :
    ∃ final : State ℕ String,
      run (step 1 (some 1)) State.initial fullQueue = some final ∧
        ((∀ first, first <+: fullQueue → ∀ middle,
            run (step 1 (some 1)) State.initial first = some middle →
              Orderly 1 middle (trace (step 1 (some 1)) (entries 1 (some 1))
                State.initial first)) ↔
          Guarded (step 1 (some 1)) (StartsCleanly 1 (some 1)) State.initial
            fullQueue) :=
  ⟨_, rfl, orderly_iff_startsCleanly le_rfl rfl⟩

end OceanChat.AsyncQueue
