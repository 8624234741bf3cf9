import Mathlib

/-!
# Tales of tasks

Tasks are accepted into a queue, start in turn, pass through phases and leave.
Each of them has a promise, and everything that happens to it is noted in a
history.  What the promise of a task and its part of the history look like in
each phase is its tale.  This module keeps the books: as long as every move of a
task continues its own tale, all tasks start once, in the order of acceptance,
and are where their tales say they are.
-/

namespace TaskTales

variable {Task Phase Promise Note : Type*}

inductive Entry (Task Note : Type*)
  | accepted (task : Task)
  | started (task : Task)
  | noted (task : Task) (note : Note)

namespace Entry

def task : Entry Task Note → Task
  | accepted task | started task | noted task _ => task

def accepted? : Entry Task Note → Option Task
  | accepted task => some task
  | _ => none

def started? : Entry Task Note → Option Task
  | started task => some task
  | _ => none

end Entry

def acceptedTasks (history : List (Entry Task Note)) : List Task :=
  history.filterMap Entry.accepted?

def startedTasks (history : List (Entry Task Note)) : List Task :=
  history.filterMap Entry.started?

/-- The tasks that wait, those that run with their phases, and the promises. -/
structure Desk (Task Phase Promise : Type*) where
  queue : List Task
  active : List (Task × Phase)
  promises : ℕ → Option Promise

/-- The tale of a task: what its promise and its part of the history may be
before it starts, in each phase, and in the last phase and ever after. -/
structure Script (Task Phase Promise Note : Type*) where
  id : Task → ℕ
  first : Phase
  last : Phase
  awaited : Task → Promise
  Tale : Task → Option Phase → Promise → List (Entry Task Note) → Prop
  waiting : ∀ task, Tale task none (awaited task) [.accepted task]
  starts : ∀ {task promise entries}, Tale task none promise entries →
    Tale task (some first) promise (entries ++ [.started task])

namespace Script

variable (script : Script Task Phase Promise Note)

/-- What has happened to the task with the identifier. -/
def tale (history : List (Entry Task Note)) (id : ℕ) :
    List (Entry Task Note) :=
  history.filter fun entry => script.id entry.task = id

/-- The task is in the given phase of its tale. -/
def Holds (desk : Desk Task Phase Promise) (history : List (Entry Task Note))
    (task : Task) (phase : Option Phase) : Prop :=
  ∃ promise, desk.promises (script.id task) = some promise ∧
    script.Tale task phase promise (script.tale history (script.id task))

/-- The task is none of those that run. -/
def Idle (desk : Desk Task Phase Promise) (task : Task) : Prop :=
  ∀ entry ∈ desk.active, script.id entry.1 ≠ script.id task

/-- Every task is where its tale says it is. -/
structure Recorded (desk : Desk Task Phase Promise)
    (history : List (Entry Task Note)) : Prop where
  inOrder : acceptedTasks history = startedTasks history ++ desk.queue
  distinct : ((acceptedTasks history).map script.id).Nodup
  known : ∀ entry ∈ history, entry.task ∈ acceptedTasks history
  started : (desk.active.map Prod.fst).Sublist (startedTasks history)
  waits : ∀ task ∈ desk.queue, script.Holds desk history task none
  running : ∀ entry ∈ desk.active,
    script.Holds desk history entry.1 (some entry.2)
  finished : ∀ task ∈ startedTasks history, script.Idle desk task →
    script.Holds desk history task (some script.last)

end Script

/-! ## Histories -/

variable {history news : List (Entry Task Note)} {task : Task}

theorem acceptedTasks_append (history news : List (Entry Task Note)) :
    acceptedTasks (history ++ news) =
      acceptedTasks history ++ acceptedTasks news := List.filterMap_append ..

theorem startedTasks_append (history news : List (Entry Task Note)) :
    startedTasks (history ++ news) =
      startedTasks history ++ startedTasks news := List.filterMap_append ..

theorem acceptedTasks_noted (task : Task) (notes : List Note) :
    acceptedTasks (notes.map (Entry.noted task)) = [] := by
  simp [acceptedTasks, List.filterMap_map, Entry.accepted?]

theorem startedTasks_noted (task : Task) (notes : List Note) :
    startedTasks (notes.map (Entry.noted task)) = [] := by
  simp [startedTasks, List.filterMap_map, Entry.started?]

namespace Script

variable {script : Script Task Phase Promise Note}
variable {desk next : Desk Task Phase Promise} {id : ℕ}

theorem mem_tale_iff {entry : Entry Task Note} :
    entry ∈ script.tale history id ↔
      entry ∈ history ∧ script.id entry.task = id := by
  simp [tale]

theorem tale_of_ne (hne : ∀ entry ∈ news, script.id entry.task ≠ id) :
    script.tale news id = [] := by
  simpa [tale] using hne

theorem tale_append_of_ne (history : List (Entry Task Note))
    (hne : ∀ entry ∈ news, script.id entry.task ≠ id) :
    script.tale (history ++ news) id = script.tale history id := by
  rw [tale, List.filter_append, ← tale, ← tale, tale_of_ne hne, List.append_nil]

theorem tale_append_of_eq (history : List (Entry Task Note))
    (heq : ∀ entry ∈ news, script.id entry.task = id) :
    script.tale (history ++ news) id = script.tale history id ++ news := by
  rw [tale, List.filter_append, ← tale, List.filter_eq_self.mpr]
  simpa using heq

/-- A task that a step does not concern stays where it is. -/
theorem Holds.frame {phase : Option Phase}
    (hholds : script.Holds desk history task phase)
    (next : Desk Task Phase Promise) (news : List (Entry Task Note))
    (hpromise : next.promises (script.id task) =
      desk.promises (script.id task))
    (hnews : ∀ entry ∈ news, script.id entry.task ≠ script.id task) :
    script.Holds next (history ++ news) task phase := by
  obtain ⟨promise, hsome, htale⟩ := hholds
  refine ⟨promise, hpromise.trans hsome, ?_⟩
  rwa [tale_append_of_ne history hnews]

namespace Recorded

theorem initial : script.Recorded ⟨[], [], fun _ => none⟩ [] where
  inOrder := rfl
  distinct := List.nodup_nil
  known := by simp
  started := List.Sublist.refl _
  waits := by simp
  running := by simp
  finished := by simp [startedTasks]

theorem accepted_of_started (hrecorded : script.Recorded desk history)
    (htask : task ∈ startedTasks history) : task ∈ acceptedTasks history := by
  rw [hrecorded.inOrder]
  exact List.mem_append_left _ htask

theorem accepted_of_queue (hrecorded : script.Recorded desk history)
    (htask : task ∈ desk.queue) : task ∈ acceptedTasks history := by
  rw [hrecorded.inOrder]
  exact List.mem_append_right _ htask

theorem started_of_active (hrecorded : script.Recorded desk history)
    {entry : Task × Phase} (hentry : entry ∈ desk.active) :
    entry.1 ∈ startedTasks history :=
  hrecorded.started.mem (List.mem_map_of_mem hentry)

theorem eq_of_id (hrecorded : script.Recorded desk history) {other : Task}
    (htask : task ∈ acceptedTasks history)
    (hother : other ∈ acceptedTasks history)
    (hid : script.id task = script.id other) : task = other :=
  List.inj_on_of_nodup_map hrecorded.distinct htask hother hid

/-- A task that waits has another identifier than any that has started. -/
theorem ne_of_queue (hrecorded : script.Recorded desk history) {other : Task}
    (htask : task ∈ startedTasks history) (hother : other ∈ desk.queue) :
    script.id task ≠ script.id other := by
  have hids := hrecorded.distinct
  rw [hrecorded.inOrder, List.map_append, List.nodup_append] at hids
  exact hids.2.2 _ (List.mem_map_of_mem htask) _ (List.mem_map_of_mem hother)

theorem ids_active (hrecorded : script.Recorded desk history) :
    (desk.active.map fun entry => script.id entry.1).Nodup := by
  have hstarted : ((startedTasks history).map script.id).Nodup := by
    have hall := hrecorded.distinct
    rw [hrecorded.inOrder, List.map_append] at hall
    exact hall.of_append_left
  have hactive := (hrecorded.started.map script.id).nodup hstarted
  rwa [List.map_map] at hactive

theorem eq_of_active (hrecorded : script.Recorded desk history)
    {entry other : Task × Phase} (hentry : entry ∈ desk.active)
    (hother : other ∈ desk.active)
    (hid : script.id entry.1 = script.id other.1) : entry = other :=
  List.inj_on_of_nodup_map hrecorded.ids_active hentry hother hid

/-- Every accepted task is in the middle of its tale. -/
theorem exists_phase (hrecorded : script.Recorded desk history)
    (htask : task ∈ acceptedTasks history) :
    ∃ phase, script.Holds desk history task phase ∧
      ∀ other, other ≠ script.last →
        (phase = some other ↔ (task, other) ∈ desk.active) := by
  have hplace := htask
  rw [hrecorded.inOrder] at hplace
  rcases List.mem_append.mp hplace with hstarted | hqueue
  · by_cases hidle : script.Idle desk task
    · refine ⟨_, hrecorded.finished task hstarted hidle, fun other hother => ?_⟩
      refine iff_of_false (fun hphase => hother ?_) fun hmem => ?_
      · exact (Option.some.inj hphase).symm
      · exact hidle _ hmem rfl
    · obtain ⟨entry, hentry, hid⟩ : ∃ entry ∈ desk.active,
          script.id entry.1 = script.id task := by simpa [Idle] using hidle
      obtain rfl : entry.1 = task := hrecorded.eq_of_id
        (hrecorded.accepted_of_started (hrecorded.started_of_active hentry))
        htask hid
      refine ⟨_, hrecorded.running entry hentry, fun other _ => ?_⟩
      rw [Option.some.injEq]
      constructor
      · rintro rfl
        exact hentry
      · intro hmem
        rw [hrecorded.eq_of_active hentry hmem rfl]
  · refine ⟨none, hrecorded.waits task hqueue, fun other _ => ?_⟩
    refine iff_of_false nofun fun hmem => ?_
    exact hrecorded.ne_of_queue (hrecorded.started_of_active hmem) hqueue rfl

/-- No task of the history has an identifier without a promise. -/
theorem ne_of_free (hrecorded : script.Recorded desk history)
    (hfree : desk.promises id = none) (htask : task ∈ acceptedTasks history) :
    script.id task ≠ id := by
  rintro rfl
  obtain ⟨phase, ⟨promise, hpromise, -⟩, -⟩ := hrecorded.exists_phase htask
  cases hfree.symm.trans hpromise

theorem tale_of_free (hrecorded : script.Recorded desk history)
    (hfree : desk.promises id = none) : script.tale history id = [] :=
  tale_of_ne fun entry hentry =>
    hrecorded.ne_of_free hfree (hrecorded.known entry hentry)

/-! ## Moves -/

/-- A promise is made that belongs to no task. -/
theorem promise (hrecorded : script.Recorded desk history)
    (hfree : desk.promises id = none) (promise : Promise) :
    script.Recorded { desk with
      promises := Function.update desk.promises id (some promise) } history := by
  have hkeep : ∀ {task : Task} {phase : Option Phase},
      task ∈ acceptedTasks history → script.Holds desk history task phase →
        script.Holds { desk with
          promises := Function.update desk.promises id (some promise) }
          history task phase := by
    intro task phase htask hholds
    have hne := hrecorded.ne_of_free hfree htask
    have hframe := hholds.frame { desk with
      promises := Function.update desk.promises id (some promise) } []
      (Function.update_of_ne hne _ _) (by simp)
    rwa [List.append_nil] at hframe
  refine { hrecorded with
    waits := fun task htask => ?_
    running := fun entry hentry => ?_
    finished := fun task htask hidle => ?_ }
  · exact hkeep (hrecorded.accepted_of_queue htask) (hrecorded.waits task htask)
  · exact hkeep (hrecorded.accepted_of_started
      (hrecorded.started_of_active hentry)) (hrecorded.running entry hentry)
  · exact hkeep (hrecorded.accepted_of_started htask)
      (hrecorded.finished task htask hidle)

theorem enqueue (hrecorded : script.Recorded desk history)
    (hfree : desk.promises (script.id task) = none) :
    script.Recorded
      ⟨desk.queue ++ [task], desk.active, Function.update desk.promises
        (script.id task) (some (script.awaited task))⟩
      (history ++ [.accepted task]) := by
  have hkeep : ∀ {other : Task} {phase : Option Phase},
      other ∈ acceptedTasks history → script.Holds desk history other phase →
        script.Holds ⟨desk.queue ++ [task], desk.active, Function.update
          desk.promises (script.id task) (some (script.awaited task))⟩
          (history ++ [.accepted task]) other phase := by
    intro other phase hother hholds
    have hne := hrecorded.ne_of_free hfree hother
    exact hholds.frame _ _ (Function.update_of_ne hne _ _)
      (by simpa [Entry.task] using hne.symm)
  have haccepted : acceptedTasks (history ++ [.accepted task]) =
      acceptedTasks history ++ [task] := acceptedTasks_append _ _
  have hstarted : startedTasks (history ++ [.accepted task]) =
      startedTasks history :=
    (startedTasks_append _ _).trans (List.append_nil _)
  constructor
  · rw [haccepted, hstarted, hrecorded.inOrder, List.append_assoc]
  · rw [haccepted, List.map_append]
    refine hrecorded.distinct.append (List.nodup_singleton _) ?_
    rw [List.map_singleton, List.disjoint_singleton]
    intro hmem
    obtain ⟨other, hother, hid⟩ := List.mem_map.mp hmem
    exact hrecorded.ne_of_free hfree hother hid
  · intro entry hentry
    rw [haccepted]
    rcases List.mem_append.mp hentry with hold | hnew
    · exact List.mem_append_left _ (hrecorded.known entry hold)
    · obtain rfl : entry = .accepted task := by simpa using hnew
      exact List.mem_append_right _ (List.mem_singleton_self _)
  · rw [hstarted]
    exact hrecorded.started
  · intro other hmem
    rcases List.mem_append.mp hmem with hold | hnew
    · exact hkeep (hrecorded.accepted_of_queue hold) (hrecorded.waits other hold)
    · obtain rfl : other = task := by simpa using hnew
      refine ⟨script.awaited other, Function.update_self .., ?_⟩
      rw [tale_append_of_eq history (by simp [Entry.task]),
        hrecorded.tale_of_free hfree]
      exact script.waiting other
  · exact fun entry hentry => hkeep (hrecorded.accepted_of_started
      (hrecorded.started_of_active hentry)) (hrecorded.running entry hentry)
  · intro other hmem hidle
    rw [hstarted] at hmem
    exact hkeep (hrecorded.accepted_of_started hmem)
      (hrecorded.finished other hmem hidle)

/-- The first task of the queue starts. -/
theorem start (hrecorded : script.Recorded desk history) {queue : List Task}
    (hqueue : desk.queue = task :: queue) :
    script.Recorded
      ⟨queue, desk.active ++ [(task, script.first)], desk.promises⟩
      (history ++ [.started task]) := by
  have hhead : task ∈ desk.queue := by simp [hqueue]
  have hkeep : ∀ {other : Task} {phase : Option Phase},
      script.id other ≠ script.id task → script.Holds desk history other phase →
        script.Holds
          ⟨queue, desk.active ++ [(task, script.first)], desk.promises⟩
          (history ++ [.started task]) other phase := by
    intro other phase hne hholds
    exact hholds.frame _ _ rfl (by simpa [Entry.task] using hne.symm)
  have haccepted : acceptedTasks (history ++ [.started task]) =
      acceptedTasks history :=
    (acceptedTasks_append _ _).trans (List.append_nil _)
  have hstarted : startedTasks (history ++ [.started task]) =
      startedTasks history ++ [task] := startedTasks_append _ _
  constructor
  · rw [haccepted, hstarted, hrecorded.inOrder, hqueue, List.append_assoc]
    rfl
  · rw [haccepted]
    exact hrecorded.distinct
  · intro entry hentry
    rw [haccepted]
    rcases List.mem_append.mp hentry with hold | hnew
    · exact hrecorded.known entry hold
    · obtain rfl : entry = .started task := by simpa using hnew
      exact hrecorded.accepted_of_queue hhead
  · rw [hstarted, List.map_append]
    exact hrecorded.started.append (List.Sublist.refl _)
  · intro other hmem
    have hids := hrecorded.distinct
    rw [hrecorded.inOrder, hqueue, List.map_append, List.nodup_append,
      List.map_cons, List.nodup_cons] at hids
    refine hkeep (fun hid => ?_) (hrecorded.waits other (by
      rw [hqueue]
      exact List.mem_cons_of_mem _ hmem))
    exact hids.2.1.1 (List.mem_map.mpr ⟨other, hmem, hid⟩)
  · intro entry hentry
    rcases List.mem_append.mp hentry with hold | hnew
    · exact hkeep (hrecorded.ne_of_queue (hrecorded.started_of_active hold) hhead)
        (hrecorded.running entry hold)
    · obtain rfl : entry = (task, script.first) := by simpa using hnew
      obtain ⟨promise, hpromise, htale⟩ := hrecorded.waits task hhead
      refine ⟨promise, hpromise, ?_⟩
      rw [tale_append_of_eq history (by simp [Entry.task])]
      exact script.starts htale
  · intro other hmem hidle
    have hne : script.id other ≠ script.id task := fun hid =>
      hidle (task, script.first) (by simp) hid.symm
    rw [hstarted] at hmem
    rcases List.mem_append.mp hmem with hold | hnew
    · exact hkeep hne (hrecorded.finished other hold fun entry hentry =>
        hidle entry (List.mem_append_left _ hentry))
    · exact absurd (congrArg script.id (List.mem_singleton.mp hnew)) hne

/-- A task goes on to its next phase. -/
theorem advance (hrecorded : script.Recorded desk history)
    {entry : Task × Phase} {phase : Phase} {promise : Promise}
    {notes : List Note} (hentry : entry ∈ desk.active)
    (hqueue : next.queue = desk.queue)
    (hactive : next.active = desk.active.map fun other =>
      if script.id other.1 = script.id entry.1 then (other.1, phase) else other)
    (hothers : ∀ other, other ≠ script.id entry.1 →
      next.promises other = desk.promises other)
    (hpromise : next.promises (script.id entry.1) = some promise)
    (htale : script.Tale entry.1 (some phase) promise
      (script.tale history (script.id entry.1) ++
        notes.map (Entry.noted entry.1))) :
    script.Recorded next (history ++ notes.map (Entry.noted entry.1)) := by
  have hmine := hrecorded.started_of_active hentry
  have hkeep : ∀ {other : Task} {phase : Option Phase},
      script.id other ≠ script.id entry.1 →
        script.Holds desk history other phase →
          script.Holds next (history ++ notes.map (Entry.noted entry.1))
            other phase := by
    intro other phase hne hholds
    refine hholds.frame next _ (hothers _ hne) fun new hnew => ?_
    obtain ⟨note, -, rfl⟩ := List.mem_map.mp hnew
    exact hne.symm
  have haccepted : acceptedTasks (history ++ notes.map (Entry.noted entry.1)) =
      acceptedTasks history := by
    rw [acceptedTasks_append, acceptedTasks_noted, List.append_nil]
  have hstarted : startedTasks (history ++ notes.map (Entry.noted entry.1)) =
      startedTasks history := by
    rw [startedTasks_append, startedTasks_noted, List.append_nil]
  have htasks : next.active.map Prod.fst = desk.active.map Prod.fst := by
    rw [hactive, List.map_map]
    refine List.map_congr_left fun other _ => ?_
    rw [Function.comp_apply]
    split <;> rfl
  constructor
  · rw [haccepted, hstarted, hqueue]
    exact hrecorded.inOrder
  · rw [haccepted]
    exact hrecorded.distinct
  · intro other hother
    rw [haccepted]
    rcases List.mem_append.mp hother with hold | hnew
    · exact hrecorded.known other hold
    · obtain ⟨note, -, rfl⟩ := List.mem_map.mp hnew
      exact hrecorded.accepted_of_started hmine
  · rw [htasks, hstarted]
    exact hrecorded.started
  · intro other hmem
    rw [hqueue] at hmem
    exact hkeep (hrecorded.ne_of_queue hmine hmem).symm
      (hrecorded.waits other hmem)
  · intro other hmem
    rw [hactive] at hmem
    obtain ⟨old, hold, rfl⟩ := List.mem_map.mp hmem
    by_cases hid : script.id old.1 = script.id entry.1
    · obtain rfl := hrecorded.eq_of_active hold hentry hid
      rw [if_pos rfl]
      refine ⟨promise, hpromise, ?_⟩
      rw [tale_append_of_eq history (by simp [Entry.task])]
      exact htale
    · rw [if_neg hid]
      exact hkeep hid (hrecorded.running old hold)
  · intro other hmem hidle
    rw [hstarted] at hmem
    have hgone : script.Idle desk other := by
      intro old hold
      have hmapped : old.1 ∈ next.active.map Prod.fst := by
        rw [htasks]
        exact List.mem_map_of_mem hold
      obtain ⟨later, hlater, hsame⟩ := List.mem_map.mp hmapped
      rw [← hsame]
      exact hidle later hlater
    exact hkeep (hgone entry hentry).symm (hrecorded.finished other hmem hgone)

/-- A task in its last phase leaves. -/
theorem remove (hrecorded : script.Recorded desk history)
    (hentry : (task, script.last) ∈ desk.active) :
    script.Recorded { desk with
      active := desk.active.eraseP fun other =>
        script.id other.1 = script.id task } history := by
  refine { hrecorded with
    started := (List.eraseP_sublist.map _).trans hrecorded.started
    running := fun other hmem =>
      hrecorded.running other (List.mem_of_mem_eraseP hmem)
    finished := fun other hmem hidle => ?_ }
  by_cases hid : script.id other = script.id task
  · obtain rfl : other = task := hrecorded.eq_of_id
      (hrecorded.accepted_of_started hmem)
      (hrecorded.accepted_of_started (hrecorded.started_of_active hentry)) hid
    exact hrecorded.running _ hentry
  · refine hrecorded.finished other hmem fun old hold hsame => ?_
    refine hidle old ((List.mem_eraseP_of_neg ?_).mpr hold) hsame
    simp [hsame, hid]

end Recorded

end Script

end TaskTales
