import Mathlib

/-!
# Work pools

Tasks wait in a queue and a bounded number of them run.  A task that is
submitted starts the first one waiting if there is room, and a task that ends
starts the next without asking for room.  No other step moves a task, and yet
the pool never runs more tasks than it may and never idles while one waits.
-/

namespace WorkPool

variable {Task : Type*}

structure Pool (Task : Type*) where
  waiting : List Task
  running : List Task

namespace Pool

def empty : Pool Task := ⟨[], []⟩

/-- The first task that waits starts. -/
def next (pool : Pool Task) : Pool Task :=
  match pool.waiting with
  | [] => pool
  | task :: rest => ⟨rest, pool.running ++ [task]⟩

def enqueue (pool : Pool Task) (task : Task) : Pool Task :=
  { pool with waiting := pool.waiting ++ [task] }

def submit (limit : ℕ) (pool : Pool Task) (task : Task) : Pool Task :=
  if pool.running.length < limit then (pool.enqueue task).next
  else pool.enqueue task

/-- The first running task of the given kind ends. -/
def remove (pool : Pool Task) (done : Task → Bool) : Pool Task :=
  { pool with running := pool.running.eraseP done }

def finish (pool : Pool Task) (done : Task → Bool) : Pool Task :=
  (pool.remove done).next

end Pool

open Pool

variable {limit : ℕ} {pool : Pool Task}

theorem length_waiting_next (pool : Pool Task) :
    pool.next.waiting.length = pool.waiting.length - 1 := by
  obtain ⟨waiting, running⟩ := pool
  cases waiting <;> simp [Pool.next]

theorem length_running_next (hwaiting : pool.waiting ≠ []) :
    pool.next.running.length = pool.running.length + 1 := by
  obtain ⟨waiting, running⟩ := pool
  cases waiting with
  | nil => exact absurd rfl hwaiting
  | cons task rest => simp [Pool.next]

theorem next_of_empty (hwaiting : pool.waiting = []) : pool.next = pool := by
  simp [Pool.next, hwaiting]

theorem length_waiting_submit_le (limit : ℕ) (pool : Pool Task) (task : Task) :
    (pool.submit limit task).waiting.length ≤ pool.waiting.length + 1 := by
  rw [Pool.submit]
  split
  · rw [length_waiting_next]
    simp [Pool.enqueue]
  · simp [Pool.enqueue]

theorem length_waiting_finish_le (pool : Pool Task) (done : Task → Bool) :
    (pool.finish done).waiting.length ≤ pool.waiting.length := by
  rw [Pool.finish, length_waiting_next]
  exact Nat.sub_le _ _

/-- The pool runs at most `limit` tasks, and as many as that if one waits. -/
structure Fits (limit : ℕ) (pool : Pool Task) : Prop where
  bounded : pool.running.length ≤ limit
  busy : pool.waiting ≠ [] → pool.running.length = limit

namespace Fits

theorem empty : Fits limit (Pool.empty : Pool Task) :=
  ⟨Nat.zero_le _, fun hwaiting => absurd rfl hwaiting⟩

theorem waiting_eq_nil (hfits : Fits limit pool)
    (hroom : pool.running.length < limit) : pool.waiting = [] := by
  by_contra hwaiting
  exact absurd (hfits.busy hwaiting) hroom.ne

/-- A pool with room has nothing waiting, so it starts the task itself. -/
theorem submit_of_room (hfits : Fits limit pool)
    (hroom : pool.running.length < limit) (task : Task) :
    pool.submit limit task = ⟨[], pool.running ++ [task]⟩ := by
  rw [Pool.submit, if_pos hroom]
  simp [Pool.enqueue, Pool.next, hfits.waiting_eq_nil hroom]

theorem submit (hfits : Fits limit pool) (task : Task) :
    Fits limit (pool.submit limit task) := by
  by_cases hroom : pool.running.length < limit
  · rw [hfits.submit_of_room hroom]
    refine ⟨?_, fun hwaiting => absurd rfl hwaiting⟩
    rw [List.length_append, List.length_singleton]
    exact hroom
  · rw [Pool.submit, if_neg hroom]
    exact ⟨hfits.bounded, fun _ => hfits.bounded.antisymm (not_lt.mp hroom)⟩

theorem finish (hfits : Fits limit pool) {done : Task → Bool}
    (hdone : pool.running.any done = true) : Fits limit (pool.finish done) := by
  have hbounded := hfits.bounded
  have hrunning : 0 < pool.running.length := by
    obtain ⟨task, htask, -⟩ := List.any_eq_true.mp hdone
    exact List.length_pos_of_mem htask
  have hremove : (pool.remove done).running.length + 1 =
      pool.running.length := by
    simp only [Pool.remove, List.length_eraseP, hdone, if_true]
    omega
  by_cases hwaiting : pool.waiting = []
  · have hnext : pool.finish done = pool.remove done := next_of_empty hwaiting
    rw [hnext]
    exact ⟨by omega, fun hnonempty => absurd hwaiting hnonempty⟩
  · have hlength : (pool.finish done).running.length = pool.running.length := by
      have hnext : (pool.remove done).waiting ≠ [] := hwaiting
      rw [Pool.finish, length_running_next hnext, hremove]
    exact ⟨hlength ▸ hbounded, fun _ => hlength ▸ hfits.busy hwaiting⟩

end Fits

end WorkPool
