import OceanChat.Core.TaskTales
import OceanChat.Publisher.Bounds

/-!
# Deliveries of the publisher

Every accepted call has a tale: its task waits, is sent, and ends on its subject
or, if that fails, on the dead-letter subject.  A publisher whose tasks start
cleanly tells the caller of a critical call how the tale ends.
-/

namespace OceanChat.Publisher

open Runs WorkPool TaskTales

/-- What is noted of a task that has been sent.  `answered` and `deadAnswered`
end the publish to the subject and to the dead-letter subject. -/
inductive Note
  | answered (failure : Option Failure)
  | buried
  | deadAnswered (failure : Option Failure)

abbrev History := List (Entry Task Note)

def publication? : Entry Task Note → Option Publication
  | .started task => some task.publication
  | .noted task .buried => some task.deadLetter
  | _ => none

/-- The task whose first publish has failed. -/
def failed? : Entry Task Note → Option Task
  | .noted task (.answered (some _)) => some task
  | _ => none

def buried? : Entry Task Note → Option Task
  | .noted task .buried => some task
  | _ => none

/-- The task that the step starts, unless it throws. -/
def sends (refuses : String → Bool) (state : State) (event : Event) : History :=
  ((state.starting event).filter fun task => ! task.refused refuses).toList.map
    Entry.started

def entries (refuses : String → Bool) (state : State) (event : Event) :
    History :=
  match event with
  | .publishSafe id js subject data options =>
      let task := taskOf id subject data options
      if js ∧ state.queue.length < queueLimit task.isCritical then
        .accepted task :: sends refuses state event
      else []
  | .settle id failure =>
      match state.find id with
      | some ⟨task, .publishing⟩ =>
          (.answered failure :: if failure.isSome then [.buried] else []).map
            (Entry.noted task)
      | some ⟨task, .deadLetter⟩ =>
          [Note.deadAnswered failure].map (Entry.noted task)
      | _ => []
  | .report _ => []
  | .finish _ => sends refuses state event

/-- The subject or the dead-letter subject has taken the message. -/
def Delivered (history : History) (task : Task) : Prop :=
  .noted task (.answered none) ∈ history ∨
    .noted task (.deadAnswered none) ∈ history

/-- Both have failed. -/
def Lost (history : History) (task : Task) : Prop :=
  (∃ failure, .noted task (.answered (some failure)) ∈ history) ∧
    ∃ failure, .noted task (.deadAnswered (some failure)) ∈ history

/-- The handler that settles the promise of the task has yet to run. -/
def Due (state : State) (task : Task) : Prop :=
  ∃ finalErr, ⟨task, .settled finalErr⟩ ∈ state.active

/-- The publisher runs every accepted task once and reports it truthfully. -/
structure Truthful (state : State) (history : History) : Prop where
  published : state.published = history.filterMap publication?
  /-- Tasks start in the order of their acceptance, and none starts twice. -/
  inOrder : acceptedTasks history = startedTasks history ++ state.queue
  distinct : ((acceptedTasks history).map Task.id).Nodup
  /-- The dead letters are those of the tasks whose first publish failed. -/
  deadLetters : history.filterMap buried? = history.filterMap failed?
  resolves : ∀ task ∈ acceptedTasks history, task.isCritical = true →
    (state.promises task.id = some .resolved ↔
      Delivered history task ∧ ¬ Due state task)
  rejects : ∀ task ∈ acceptedTasks history, task.isCritical = true →
    ((∃ reason, state.promises task.id = some (.rejected reason)) ↔
      Lost history task ∧ ¬ Due state task)
  resolvesAtOnce : ∀ task ∈ acceptedTasks history, task.isCritical = false →
    state.promises task.id = some .resolved
  /-- Whatever runs is one event away from its next phase. -/
  running : ∀ entry ∈ state.active, entry.task ∈ startedTasks history ∧
    state.find entry.task.id = some entry
  /-- A task waits only for as long as all the slots run earlier ones. -/
  busy : state.queue ≠ [] → state.active.length = concurrencyLimit

/-! ## Tales -/

/-- How the tale of a task ends, and with which error. -/
inductive Ending (task : Task) : Option Failure → History → Prop
  | delivered : Ending task none
      [.accepted task, .started task, .noted task (.answered none)]
  | buried (failure : Failure) (finalErr : Option Failure) :
      Ending task finalErr
        [.accepted task, .started task, .noted task (.answered (some failure)),
          .noted task .buried, .noted task (.deadAnswered finalErr)]

/-- The promise of a call whose task has been accepted. -/
def Task.awaited (task : Task) : PromiseState :=
  if task.isCritical then .pending else .resolved

def outcome : Option Failure → PromiseState
  | none => .resolved
  | some failure => .rejected (.error failure.message)

def Task.reported (task : Task) (finalErr : Option Failure) : PromiseState :=
  if task.isCritical then outcome finalErr else .resolved

/-- A task that waits has no phase yet; one that has finished stays in the last
phase. -/
inductive Tale (task : Task) : Option Phase → PromiseState → History → Prop
  | waiting : Tale task none task.awaited [.accepted task]
  | publishing : Tale task (some .publishing) task.awaited
      [.accepted task, .started task]
  | deadLetter (failure : Failure) :
      Tale task (some .deadLetter) task.awaited
        [.accepted task, .started task, .noted task (.answered (some failure)),
          .noted task .buried]
  | settled {finalErr : Option Failure} {history : History}
      (hending : Ending task finalErr history) :
      Tale task (some (.settled finalErr)) task.awaited history
  | finishing {finalErr : Option Failure} {history : History}
      (hending : Ending task finalErr history) :
      Tale task (some .finishing) (task.reported finalErr) history

variable {refuses : String → Bool} {state next : State} {event : Event}
variable {history : History} {id : ℕ} {task : Task}

namespace Tale

variable {promise : PromiseState}

theorem start (htale : Tale task none promise history) :
    Tale task (some .publishing) promise (history ++ [.started task]) := by
  cases htale
  exact .publishing

theorem answer (htale : Tale task (some .publishing) promise history) :
    Tale task (some (.settled none)) promise
      (history ++ [.noted task (.answered none)]) := by
  cases htale
  exact .settled .delivered

theorem bury (htale : Tale task (some .publishing) promise history)
    (failure : Failure) :
    Tale task (some .deadLetter) promise
      (history ++ [.noted task (.answered (some failure)),
        .noted task .buried]) := by
  cases htale
  exact .deadLetter failure

theorem deadAnswer (htale : Tale task (some .deadLetter) promise history)
    (finalErr : Option Failure) :
    Tale task (some (.settled finalErr)) promise
      (history ++ [.noted task (.deadAnswered finalErr)]) := by
  cases htale with
  | deadLetter failure => exact .settled (.buried failure finalErr)

theorem report {finalErr : Option Failure}
    (htale : Tale task (some (.settled finalErr)) promise history) :
    promise = task.awaited ∧
      Tale task (some .finishing) (task.reported finalErr) history := by
  cases htale with
  | settled hending => exact ⟨rfl, .finishing hending⟩

/-- The promise of a critical call is settled where its tale has ended and the
handler has run. -/
theorem promise_iff {phase : Option Phase}
    (htale : Tale task phase promise history)
    (hcritical : task.isCritical = true) :
    (promise = .resolved ↔ Delivered history task ∧
        ∀ finalErr, phase ≠ some (.settled finalErr)) ∧
      ((∃ reason, promise = .rejected reason) ↔ Lost history task ∧
        ∀ finalErr, phase ≠ some (.settled finalErr)) := by
  cases htale with
  | waiting => simp [Task.awaited, hcritical, Delivered, Lost]
  | publishing => simp [Task.awaited, hcritical, Delivered, Lost]
  | deadLetter failure => simp [Task.awaited, hcritical, Delivered, Lost]
  | settled hending => simp [Task.awaited, hcritical]
  | @finishing finalErr history hending =>
      cases hending with
      | delivered =>
          simp [Task.reported, hcritical, outcome, Delivered, Lost]
      | buried failure =>
          cases finalErr <;>
            simp [Task.reported, hcritical, outcome, Delivered, Lost]

theorem resolved_of_normal {phase : Option Phase}
    (htale : Tale task phase promise history)
    (hnormal : task.isCritical = false) : promise = .resolved := by
  cases htale <;> simp [Task.awaited, Task.reported, hnormal]

end Tale

def script : Script Task Phase PromiseState Note where
  id := Task.id
  first := .publishing
  last := .finishing
  awaited := Task.awaited
  Tale := Tale
  waiting := fun _ => .waiting
  starts := Tale.start

theorem delivered_tale :
    Delivered (script.tale history task.id) task ↔ Delivered history task := by
  simp [Delivered, Script.mem_tale_iff, Entry.task, script]

theorem lost_tale :
    Lost (script.tale history task.id) task ↔ Lost history task := by
  simp [Lost, Script.mem_tale_iff, Entry.task, script]

def State.desk (state : State) : Desk Task Phase PromiseState where
  queue := state.queue
  active := state.active.map fun entry => (entry.task, entry.phase)
  promises := state.promises

structure Recorded (state : State) (history : History) : Prop where
  tales : script.Recorded state.desk history
  published : state.published = history.filterMap publication?
  deadLetters : history.filterMap buried? = history.filterMap failed?

/-! ## The desk of the publisher -/

theorem id_of_find {entry : Active} (hfind : state.find id = some entry) :
    entry.task.id = id := by
  simpa using List.find?_some hfind

theorem mem_desk_iff {phase : Phase} :
    (task, phase) ∈ state.desk.active ↔ ⟨task, phase⟩ ∈ state.active := by
  constructor
  · intro hmem
    obtain ⟨⟨task, phase⟩, hentry, hpair⟩ := List.mem_map.mp hmem
    cases hpair
    exact hentry
  · intro hmem
    exact List.mem_map.mpr ⟨_, hmem, rfl⟩

theorem mem_desk_of_find {entry : Active} (hfind : state.find id = some entry) :
    (entry.task, entry.phase) ∈ state.desk.active :=
  mem_desk_iff.mpr (List.mem_of_find?_eq_some hfind)

theorem desk_setPhase (state : State) (id : ℕ) (phase : Phase) :
    (state.setPhase id phase).desk.active = state.desk.active.map fun entry =>
      if entry.1.id = id then (entry.1, phase) else entry := by
  simp only [State.desk, State.setPhase, List.map_map]
  refine List.map_congr_left fun entry _ => ?_
  simp only [Function.comp_apply]
  split <;> rfl

theorem desk_remove (state : State) (id : ℕ) :
    (state.remove id).desk = { state.desk with
      active := state.desk.active.eraseP fun entry => entry.1.id = id } := by
  simp only [State.desk, State.remove, List.eraseP_map]
  rfl

/-- Entries that say nothing of publishing. -/
theorem filterMap_append_accepted {Output : Type*}
    {read : Entry Task Note → Option Output}
    (hnone : read (Entry.accepted task) = none) :
    (history ++ [Entry.accepted task]).filterMap read =
      history.filterMap read := by
  rw [List.filterMap_append, List.filterMap_cons_none hnone, List.filterMap_nil,
    List.append_nil]

namespace Recorded

theorem initial : Recorded State.initial [] :=
  ⟨Script.Recorded.initial, rfl, rfl⟩

theorem setPromise (hrecorded : Recorded state history)
    (hfree : state.promises id = none) (promise : PromiseState) :
    Recorded (state.setPromise id promise) history :=
  ⟨hrecorded.tales.promise hfree promise, hrecorded.published,
    hrecorded.deadLetters⟩

theorem enqueue (hrecorded : Recorded state history)
    (hfree : state.promises task.id = none) :
    Recorded (state.enqueue task) (history ++ [.accepted task]) := by
  refine ⟨hrecorded.tales.enqueue hfree, ?_, ?_⟩
  · exact hrecorded.published.trans (filterMap_append_accepted rfl).symm
  · calc (history ++ [Entry.accepted task]).filterMap buried?
        = history.filterMap buried? := filterMap_append_accepted rfl
      _ = history.filterMap failed? := hrecorded.deadLetters
      _ = (history ++ [Entry.accepted task]).filterMap failed? :=
          (filterMap_append_accepted rfl).symm

/-- The first task of the queue starts. -/
theorem send (hrecorded : Recorded state history) {queue : List Task}
    (hqueue : state.queue = task :: queue) :
    Recorded { state with
      activeCount := state.activeCount + 1
      queue := queue
      active := state.active ++ [⟨task, .publishing⟩]
      published := state.published ++ [task.publication] }
      (history ++ [.started task]) := by
  have htales := hrecorded.tales.start hqueue
  refine ⟨?_, ?_, ?_⟩
  · rw [State.desk, List.map_append]
    exact htales
  · rw [List.filterMap_append, hrecorded.published]
    rfl
  · rw [List.filterMap_append, List.filterMap_append, hrecorded.deadLetters]
    rfl

/-- A task goes on to its next phase. -/
theorem advance (hrecorded : Recorded state history) {entry : Active}
    {phase : Phase} {promise : PromiseState} (notes : List Note)
    (hfind : state.find id = some entry)
    (hqueue : next.queue = state.queue)
    (hactive : next.active = (state.setPhase id phase).active)
    (hothers : ∀ other, other ≠ id →
      next.promises other = state.promises other)
    (hpublished : next.published = state.published ++
      (notes.map (Entry.noted entry.task)).filterMap publication?)
    (hletters : (notes.map (Entry.noted entry.task)).filterMap buried? =
      (notes.map (Entry.noted entry.task)).filterMap failed?)
    (hpromise : next.promises id = some promise)
    (htale : Tale entry.task (some phase) promise
      (script.tale history id ++ notes.map (Entry.noted entry.task))) :
    Recorded next (history ++ notes.map (Entry.noted entry.task)) := by
  obtain rfl := id_of_find hfind
  refine ⟨?_, ?_, ?_⟩
  · have hdesk : next.desk.active =
        (state.setPhase entry.task.id phase).desk.active :=
      congrArg (List.map _) hactive
    rw [desk_setPhase] at hdesk
    exact hrecorded.tales.advance (mem_desk_of_find hfind) hqueue hdesk hothers
      hpromise htale
  · rw [hpublished, hrecorded.published, List.filterMap_append]
  · rw [List.filterMap_append, List.filterMap_append]
    exact congrArg₂ _ hrecorded.deadLetters hletters

theorem tale_of_find (hrecorded : Recorded state history) {phase : Phase}
    (hfind : state.find id = some ⟨task, phase⟩) :
    ∃ promise, state.promises id = some promise ∧
      Tale task (some phase) promise (script.tale history id) := by
  obtain rfl : task.id = id := id_of_find hfind
  exact hrecorded.tales.running _ (mem_desk_of_find hfind)

theorem remove (hrecorded : Recorded state history)
    (hfind : state.find id = some ⟨task, .finishing⟩) :
    Recorded (state.remove id) history := by
  obtain rfl : task.id = id := id_of_find hfind
  refine ⟨?_, hrecorded.published, hrecorded.deadLetters⟩
  rw [desk_remove]
  exact hrecorded.tales.remove (mem_desk_of_find hfind)

theorem processNext (hrecorded : Recorded state history)
    (hclean : ∀ first ∈ state.queue.head?, first.refused refuses = false) :
    Recorded (processNext refuses state).1
      (history ++ state.queue.head?.toList.map Entry.started) := by
  cases hqueue : state.queue with
  | nil => simpa [Publisher.processNext, hqueue] using hrecorded
  | cons first queue =>
      have hfirst : first.refused refuses = false := hclean first (by simp [hqueue])
      simp only [Publisher.processNext, hqueue, start_of_clean hfirst]
      exact hrecorded.send hqueue

theorem accept (hrecorded : Recorded state history)
    (hfree : state.promises task.id = none)
    (hclean : state.activeCount < concurrencyLimit →
      ∀ first ∈ (state.queue ++ [task]).head?, first.refused refuses = false) :
    Recorded (accept refuses state task) (history ++ .accepted task ::
      if state.activeCount < concurrencyLimit then
        (state.queue ++ [task]).head?.toList.map Entry.started
      else []) := by
  have hqueued := hrecorded.enqueue hfree
  rw [List.append_cons]
  by_cases hroom : state.activeCount < concurrencyLimit
  · obtain ⟨hthrew, -⟩ :=
      @processNext_of_clean refuses (state.enqueue task) (hclean hroom)
    rw [accept_of_room hroom (Prod.mk.eta.symm : Publisher.processNext refuses
      (state.enqueue task) = _), hthrew, if_pos hroom]
    exact hqueued.processNext (hclean hroom)
  · rw [accept_of_full refuses hroom, if_neg hroom, List.append_nil]
    exact hqueued

end Recorded

/-! ## Runs -/

theorem sends_of_clean (hclean : StartsCleanly refuses state event) :
    sends refuses state event =
      (state.starting event).toList.map Entry.started := by
  cases hstarts : state.starting event with
  | none => simp [sends, hstarts]
  | some first => simp [sends, hstarts, hclean first hstarts]

theorem sends_of_refused (hstarts : state.starting event = some task)
    (hrefused : task.refused refuses = true) :
    sends refuses state event = [] := by
  simp [sends, hstarts, hrefused]

/-- What a call that is queued leaves in the history. -/
theorem entries_publishSafe {subject : String} {data : Json}
    {options : PublishOptions}
    (hroom : state.queue.length <
      queueLimit (taskOf id subject data options).isCritical) :
    entries refuses state (.publishSafe id true subject data options) =
      .accepted (taskOf id subject data options) ::
        sends refuses state (.publishSafe id true subject data options) := by
  simp [entries, hroom]

theorem starting_publishSafe {subject : String} {data : Json}
    {options : PublishOptions}
    (hroom : state.queue.length <
      queueLimit (taskOf id subject data options).isCritical) :
    state.starting (.publishSafe id true subject data options) =
      if state.activeCount < concurrencyLimit then
        (state.queue ++ [taskOf id subject data options]).head?
      else none := by
  simp [State.starting, hroom]

namespace Recorded

theorem of_step (hrecorded : Recorded state history)
    (hclean : StartsCleanly refuses state event)
    (hstep : step refuses state event = some next) :
    Recorded next (history ++ entries refuses state event) := by
  cases effect_of_step hstep with
  | down hfree =>
      rw [entries, if_neg (by simp), List.append_nil]
      exact hrecorded.setPromise hfree _
  | full hfree hfull =>
      rw [entries, if_neg (fun hroom => hfull.not_gt hroom.2), List.append_nil]
      exact hrecorded.setPromise hfree _
  | @accepted id subject data options hfresh hroom =>
      rw [entries_publishSafe hroom, sends_of_clean hclean,
        starting_publishSafe hroom]
      have hstarts := starting_publishSafe hroom
      have haccept := @accept refuses state history
        (taskOf id subject data options) hrecorded hfresh
        fun hslot first hfirst => hclean first (by
          rw [hstarts, if_pos hslot]
          exact hfirst)
      split_ifs at haccept ⊢ with hslot
      · exact haccept
      · exact haccept
  | answered hfind =>
      obtain ⟨promise, hpromise, htale⟩ := hrecorded.tale_of_find hfind
      simp only [entries, hfind]
      exact hrecorded.advance [.answered none] hfind rfl rfl (fun _ _ => rfl)
        (List.append_nil _).symm rfl hpromise htale.answer
  | @buried id task failure hfind =>
      obtain ⟨promise, hpromise, htale⟩ := hrecorded.tale_of_find hfind
      simp only [entries, hfind]
      exact hrecorded.advance [.answered (some failure), .buried] hfind rfl rfl
        (fun _ _ => rfl) rfl rfl hpromise (htale.bury failure)
  | @deadAnswered id task failure hfind =>
      obtain ⟨promise, hpromise, htale⟩ := hrecorded.tale_of_find hfind
      simp only [entries, hfind]
      exact hrecorded.advance [.deadAnswered failure] hfind rfl rfl
        (fun _ _ => rfl) (List.append_nil _).symm rfl hpromise
        (htale.deadAnswer failure)
  | @reported id task finalErr result hfind hresult =>
      obtain ⟨promise, hpromise, htale⟩ := hrecorded.tale_of_find hfind
      obtain ⟨rfl, hreported⟩ := htale.report
      rw [← List.append_nil (script.tale history id)] at hreported
      cases hcritical : task.isCritical with
      | true =>
          rw [Task.awaited, if_pos hcritical] at hpromise
          rw [Task.reported, if_pos hcritical] at hreported
          simp only [if_true, State.settlePromise, if_pos hpromise]
          refine hrecorded.advance [] hfind rfl rfl
            (fun other hne => Function.update_of_ne hne _ _)
            (List.append_nil _).symm rfl ?_ hreported
          obtain ⟨rfl, rfl⟩ | ⟨failure, rfl, rfl⟩ := hresult
          · exact Function.update_self ..
          · exact Function.update_self ..
      | false =>
          rw [Task.awaited, if_neg (by simp [hcritical])] at hpromise
          rw [Task.reported, if_neg (by simp [hcritical])] at hreported
          exact hrecorded.advance [] hfind rfl rfl (fun _ _ => rfl)
            (List.append_nil _).symm rfl hpromise hreported
  | finished hfind =>
      rw [entries, sends_of_clean hclean]
      exact (hrecorded.remove hfind).processNext hclean

end Recorded

theorem Recorded.find_of_mem (hrecorded : Recorded state history)
    {entry : Active} (hentry : entry ∈ state.active) :
    state.find entry.task.id = some entry := by
  obtain ⟨found, hfound⟩ : ∃ found, state.find entry.task.id = some found := by
    apply Option.ne_none_iff_exists'.mp
    intro hnone
    simpa using List.find?_eq_none.mp hnone entry hentry
  have hsame := hrecorded.tales.eq_of_active (mem_desk_of_find hfound)
    (mem_desk_iff.mpr hentry) (id_of_find hfound)
  obtain ⟨htask, hphase⟩ := Prod.mk.inj hsame
  rw [hfound, Option.some.injEq]
  cases found
  cases htask
  cases hphase
  rfl

/-- The promise of an accepted task is the one of its tale. -/
theorem Recorded.exists_tale (hrecorded : Recorded state history)
    (htask : task ∈ acceptedTasks history) :
    ∃ phase promise, state.promises task.id = some promise ∧
      Tale task phase promise (script.tale history task.id) ∧
        ((∀ finalErr, phase ≠ some (.settled finalErr)) ↔ ¬ Due state task) := by
  obtain ⟨phase, ⟨promise, hpromise, htale⟩, hphase⟩ :=
    hrecorded.tales.exists_phase htask
  refine ⟨phase, promise, hpromise, htale, ?_⟩
  rw [Due, not_exists]
  refine forall_congr' fun finalErr => not_congr ?_
  rw [← mem_desk_iff]
  exact hphase _ nofun

theorem Recorded.truthful (hrecorded : Recorded state history)
    (hbounded : Bounded state) : Truthful state history := by
  have hcritical : ∀ task ∈ acceptedTasks history, task.isCritical = true →
      (state.promises task.id = some .resolved ↔
        Delivered history task ∧ ¬ Due state task) ∧
      ((∃ reason, state.promises task.id = some (.rejected reason)) ↔
        Lost history task ∧ ¬ Due state task) := by
    intro task htask hcritical
    obtain ⟨phase, promise, hpromise, htale, hdue⟩ :=
      hrecorded.exists_tale htask
    have hiff := htale.promise_iff hcritical
    rw [delivered_tale, lost_tale, hdue] at hiff
    simpa only [hpromise, Option.some.injEq] using hiff
  refine ⟨hrecorded.published, hrecorded.tales.inOrder,
    hrecorded.tales.distinct, hrecorded.deadLetters,
    fun task htask hclass => (hcritical task htask hclass).1,
    fun task htask hclass => (hcritical task htask hclass).2, ?_, ?_, ?_⟩
  · intro task htask hnormal
    obtain ⟨phase, promise, hpromise, htale, -⟩ := hrecorded.exists_tale htask
    rw [hpromise, htale.resolved_of_normal hnormal]
  · intro entry hentry
    exact ⟨hrecorded.tales.started_of_active (mem_desk_iff.mpr hentry),
      hrecorded.find_of_mem hentry⟩
  · intro hwaiting
    have hcount := hbounded.counted.symm.trans (hbounded.busy hwaiting)
    exact_mod_cast hcount

/-- A task that throws where it starts has left the queue and is never sent. -/
theorem step_refused (hfirst : task ∈ state.starting event)
    (hrefused : task.refused refuses = true)
    (hstep : step refuses state event = some next) :
    startedTasks (entries refuses state event) = [] ∧
      next.queue.length + 1 = state.queue.length +
        (acceptedTasks (entries refuses state event)).length := by
  have hnone := sends_of_refused hfirst hrefused
  cases effect_of_step hstep with
  | down => simp [State.starting] at hfirst
  | full hfree hfull => simp [State.starting, hfull.not_gt] at hfirst
  | @accepted id subject data options hfree hroom =>
      rw [starting_publishSafe hroom] at hfirst
      split_ifs at hfirst with hslot
      · obtain ⟨rest, hqueue⟩ := List.head?_eq_some_iff.mp hfirst
        have hqueued : (state.enqueue
            (taskOf id subject data options)).queue = task :: rest := hqueue
        rw [entries_publishSafe hroom, hnone,
          accept_of_room hslot (processNext_of_refused hqueued hrefused),
          if_pos rfl, queue_settlePromise]
        refine ⟨rfl, ?_⟩
        have hlength := congrArg List.length hqueue
        rw [List.length_append, List.length_cons] at hlength
        exact hlength.symm
      · cases hfirst
  | @finished id _ hfind =>
      obtain ⟨rest, hqueue⟩ := List.head?_eq_some_iff.mp hfirst
      have hremoved : (state.remove id).queue = task :: rest := hqueue
      rw [entries, hnone, processNext_of_refused hremoved hrefused, hqueue]
      exact ⟨rfl, rfl⟩
  | answered | buried | deadAnswered | reported => cases hfirst

theorem Recorded.not_truthful_of_step (hrecorded : Recorded state history)
    (hunclean : ¬ StartsCleanly refuses state event)
    (hstep : step refuses state event = some next) :
    ¬ Truthful next (history ++ entries refuses state event) := by
  obtain ⟨first, hfirst, hrefused⟩ : ∃ first ∈ state.starting event,
      first.refused refuses = true := by
    simpa [StartsCleanly] using hunclean
  obtain ⟨hsent, hqueue⟩ := step_refused hfirst hrefused hstep
  have hbefore := congrArg List.length hrecorded.tales.inOrder
  intro htruthful
  have hafter := congrArg List.length htruthful.inOrder
  rw [acceptedTasks_append, startedTasks_append, hsent, List.append_nil,
    List.length_append, List.length_append] at hafter
  rw [List.length_append] at hbefore
  have hdesk : state.desk.queue = state.queue := rfl
  rw [hdesk] at hbefore
  omega

/-- The publisher is truthful exactly as long as no task throws where it
starts. -/
theorem truthful_iff_startsCleanly {events : List Event} {final : State}
    (hrun : run (step refuses) State.initial events = some final) :
    (∀ first, first <+: events → ∀ middle,
        run (step refuses) State.initial first = some middle →
          Truthful middle
            (trace (step refuses) (entries refuses) State.initial first)) ↔
      Guarded (step refuses) (StartsCleanly refuses) State.initial events := by
  refine always_iff_guarded_trace
    (fun state history => Recorded state history ∧ Bounded state) Truthful
    (fun state history hinv => hinv.1.truthful hinv.2) ?_ ?_
    ⟨Recorded.initial, Bounded.initial⟩ hrun
  · rintro state history event next ⟨hrecorded, hbounded⟩ hclean hstep
    exact ⟨hrecorded.of_step hclean hstep, hbounded.of_step hclean hstep⟩
  · rintro state history event next ⟨hrecorded, -⟩ hunclean hstep
    exact hrecorded.not_truthful_of_step hunclean hstep

/-- The caller is told that the event is on its way, and it is gone. -/
theorem not_truthful_of_brokenCall :
    ∃ final, run (step hasLineBreak) State.initial brokenCall = some final ∧
      final.promises 0 = some .resolved ∧ final.queue = [] ∧
      final.published = [] ∧
      ¬ Truthful final (trace (step hasLineBreak) (entries hasLineBreak)
        State.initial brokenCall) := by
  obtain ⟨final, hrun, hfacts⟩ := Option.map_eq_some_iff.mp
    (show (run (step hasLineBreak) State.initial brokenCall).map
      (fun state => (state.promises 0, state.queue.length,
        state.published.length)) = some (some .resolved, 0, 0) by decide)
  simp only [Prod.mk.injEq, List.length_eq_zero_iff] at hfacts
  obtain ⟨hpromise, hqueue, hpublished⟩ := hfacts
  refine ⟨final, hrun, hpromise, hqueue, hpublished, fun htruthful => ?_⟩
  have horder := congrArg List.length htruthful.inOrder
  rw [hqueue, List.append_nil] at horder
  exact absurd horder (by decide)

theorem truthful_iff_startsCleanly_of_deadLetterCall :
    ∃ final, run (step hasLineBreak) State.initial deadLetterCall =
        some final ∧
      ((∀ first, first <+: deadLetterCall → ∀ middle,
          run (step hasLineBreak) State.initial first = some middle →
            Truthful middle (trace (step hasLineBreak) (entries hasLineBreak)
              State.initial first)) ↔
        Guarded (step hasLineBreak) (StartsCleanly hasLineBreak) State.initial
          deadLetterCall) := by
  obtain ⟨final, hrun⟩ := Option.isSome_iff_exists.mp
    (show (run (step hasLineBreak) State.initial deadLetterCall).isSome
      by decide)
  exact ⟨final, hrun, truthful_iff_startsCleanly hrun⟩

end OceanChat.Publisher
