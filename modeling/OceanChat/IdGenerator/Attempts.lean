import OceanChat.IdGenerator.SlowPath

/-!
# The attempts of a call

In the running system a call tries to get its lock no more than `MAX_RETRIES`
times and once more for each of its segments that comes too late.  How often
that happens is up to the other calls and to Redis.
-/

namespace OceanChat.IdGenerator

open Runs

/-! ## A bound -/

/-- What a call does in its loop. -/
inductive Pass
  | attempt
  | discard
  deriving DecidableEq

/-- The discards that a command of this phase makes. -/
def Phase.discards : Phase → ℕ
  | .discarded _ _ => 1
  | _ => 0

/-- The attempts of a call to get the lock, and its segments that have come too
late. -/
def passes (id : CallId) (state : State) : Event → List Pass
  | .setnx other _ _ => if other = id then [.attempt] else []
  | .command other _ =>
      if other = id then
        List.replicate ((state.calls id).elim 0 fun call => call.phase.discards)
          .discard
      else []
  | _ => []

/-- The attempts that a call in this phase has made. -/
def Phase.Spent (attempts discards : ℕ) : Phase → Prop
  | .fastPath => attempts = 0 ∧ discards = 0
  | .acquire retries => retries < maxRetries ∧ attempts = retries + discards
  | .retry retries => retries ≤ maxRetries ∧ attempts = retries + discards
  | .allocate retries _ | .sync retries _ _ | .discarded retries _ =>
      retries < maxRetries ∧ attempts = retries + 1 + discards
  | _ => attempts ≤ maxRetries + discards

theorem Phase.Spent.le {phase : Phase} {attempts discards : ℕ}
    (hspent : phase.Spent attempts discards) : attempts ≤ maxRetries + discards := by
  cases phase <;> simp only [Phase.Spent] at hspent <;> omega

theorem spent_loopHead {retries attempts discards : ℕ} (hle : retries ≤ maxRetries)
    (hattempts : attempts = retries + discards) :
    (loopHead retries).Spent attempts discards := by
  unfold loopHead
  split
  · rename_i hmore
    exact ⟨hmore, hattempts⟩
  · simp only [Phase.Spent]
    omega

theorem spent_release {lockValue : String} {outcome : Outcome}
    {attempts discards : ℕ} (hle : attempts ≤ maxRetries + discards) :
    (Phase.release lockValue outcome).Spent attempts discards := hle

theorem spent_finished {outcome : Outcome} {attempts discards : ℕ}
    (hle : attempts ≤ maxRetries + discards) :
    (Phase.finished outcome).Spent attempts discards := hle

/-- A command keeps to what the call may spend. -/
theorem Phase.Spent.of_command {state next : State} {key : String} {reply : Reply}
    {before after : Phase} {attempts discards : ℕ}
    (hspent : before.Spent attempts discards)
    (hcommand : command state key reply before = some (next, after)) :
    after.Spent attempts (discards + before.discards) := by
  have hle := hspent.le
  cases before with
  | fastPath =>
      obtain ⟨rfl, rfl⟩ := hspent
      obtain rfl := congrArg Prod.snd (Option.some.inj hcommand)
      exact evalGenerate_phase _ (fun _ => spent_finished hle)
        (spent_loopHead (Nat.zero_le _) rfl) (spent_finished hle)
  | retry retries =>
      obtain rfl := congrArg Prod.snd (Option.some.inj hcommand)
      exact evalGenerate_phase _ (fun _ => spent_finished hle)
        (spent_loopHead hspent.1 hspent.2) (spent_finished hle)
  | allocate retries lockValue =>
      obtain rfl := congrArg Prod.snd (Option.some.inj hcommand)
      simp only [runAllocate]
      cases allocateSegment state key with
      | none => exact spent_release hle
      | some result =>
          simp only [Option.elim_some]
          split
          · exact hspent
          · exact spent_release hle
  | sync retries lockValue max =>
      obtain rfl := congrArg Prod.snd (Option.some.inj hcommand)
      simp only [runSync]
      split
      · split
        · exact spent_release hle
        · exact hspent
      · exact spent_release hle
  | discarded retries lockValue =>
      obtain rfl := congrArg Prod.snd (Option.some.inj hcommand)
      obtain ⟨hlt, hattempts⟩ := hspent
      have hlater : attempts ≤ maxRetries + (discards + 1) := by omega
      refine evalGenerate_phase _ (fun _ => spent_release hlater)
        (spent_loopHead hlt.le ?_) (spent_release hlater)
      rw [hattempts, Phase.discards]
      omega
  | release lockValue outcome =>
      obtain rfl := congrArg Prod.snd (Option.some.inj hcommand)
      exact spent_finished hle
  | acquire | finished | crashed => cases hcommand

/-- An attempt to get the lock keeps to it as well. -/
theorem Phase.Spent.of_acquireLock {state : State} {key lockValue : String}
    {reply : Reply} {retries attempts discards : ℕ}
    (hspent : (Phase.acquire retries).Spent attempts discards) :
    (acquireLock state key lockValue reply retries).2.Spent (attempts + 1)
      discards := by
  obtain ⟨hlt, rfl⟩ := hspent
  simp only [acquireLock]
  split
  · split
    · exact ⟨hlt, by omega⟩
    · exact ⟨hlt, by omega⟩
  · exact spent_finished (by omega)

variable {state next final : State} {event : Event} {events : List Event}
variable {id : CallId}

/-- What a call has done keeps to its phase. -/
def Spends (id : CallId) (state : State) (history : List Pass) : Prop :=
  match state.calls id with
  | none => history = []
  | some call => call.phase.Spent (history.count .attempt) (history.count .discard)

theorem spends_of_some {history : List Pass} {call : Call}
    (hcall : state.calls id = some call) : Spends id state history ↔
      call.phase.Spent (history.count .attempt) (history.count .discard) := by
  rw [Spends, hcall]

theorem spends_setPhase {history : List Pass} {key : String} {phase : Phase} :
    Spends id (state.setPhase id key phase) history ↔
      phase.Spent (history.count .attempt) (history.count .discard) := by
  have hcall : (state.setPhase id key phase).calls id = some ⟨key, phase⟩ :=
    Function.update_self ..
  exact spends_of_some hcall

/-- A step of another call changes nothing. -/
theorem Spends.of_other {history : List Pass} {other : CallId} {key : String}
    {phase : Phase} (hspends : Spends id state history) (hne : other ≠ id)
    (hcalls : next.calls = state.calls) :
    Spends id (next.setPhase other key phase) history := by
  have hsame : (next.setPhase other key phase).calls id = state.calls id := by
    rw [← hcalls]
    exact Function.update_of_ne hne.symm ..
  rwa [Spends, hsame]

theorem Spends.of_step {history : List Pass} (hspends : Spends id state history)
    (hstep : step state event = some next) :
    Spends id next (history ++ passes id state event) := by
  cases step_effect hstep with
  | called other key hnone =>
      simp only [passes, List.append_nil]
      by_cases hid : other = id
      · subst hid
        obtain rfl : history = [] := by rwa [Spends, hnone] at hspends
        rw [spends_setPhase]
        split
        · exact ⟨rfl, rfl⟩
        · exact spent_finished (Nat.zero_le _)
      · exact hspends.of_other hid rfl
  | attempted other key lockValue reply retries hcall =>
      by_cases hid : other = id
      · subst hid
        have hspent := (spends_of_some hcall).mp hspends
        rw [passes, if_pos rfl, spends_setPhase, List.count_append, List.count_append]
        exact hspent.of_acquireLock
      · rw [passes, if_neg hid, List.append_nil]
        exact hspends.of_other hid Elsewhere.acquireLock.calls_eq
  | executed other key reply before after middle hcall hcommand =>
      by_cases hid : other = id
      · subst hid
        have hspent := ((spends_of_some hcall).mp hspends).of_command hcommand
        rw [spends_setPhase, List.count_append, List.count_append]
        simpa [passes, hcall, List.count_replicate] using hspent
      · rw [passes, if_neg hid, List.append_nil]
        exact hspends.of_other hid (Elsewhere.command hcommand).calls_eq
  | crashed other key phase hcall =>
      simp only [passes, List.append_nil]
      by_cases hid : other = id
      · subst hid
        exact spends_setPhase.mpr ((spends_of_some hcall).mp hspends).le
      · exact hspends.of_other hid rfl
  | ticked | lost =>
      simp only [passes, List.append_nil]
      exact hspends

def isAttempt (id : CallId) : Event → Bool
  | .setnx other _ _ => decide (other = id)
  | _ => false

theorem count_attempt_passes (id : CallId) (state : State) (event : Event) :
    (passes id state event).count .attempt = if isAttempt id event then 1 else 0 := by
  cases event with
  | setnx other lockValue reply =>
      by_cases hid : other = id <;> simp [passes, isAttempt, hid]
  | command other reply =>
      by_cases hid : other = id <;>
        simp [passes, isAttempt, hid, List.count_replicate]
  | _ => rfl

theorem count_attempt_trace (hrun : run step state events = some final) :
    (trace step (passes id) state events).count .attempt =
      events.countP (isAttempt id) := by
  induction events generalizing state with
  | nil => rfl
  | cons event events ih =>
      obtain ⟨next, hnext, hrest⟩ := run_cons_eq_some.mp hrun
      rw [trace_cons hnext, List.count_append, ih hrest, List.countP_cons,
        count_attempt_passes, Nat.add_comm]

/-- In every run of the system, a call tries to get the lock at most
`MAX_RETRIES` times and once more for each of its segments that comes too
late. -/
theorem attempts_le_of_run (hrun : run step State.initial events = some final)
    (id : CallId) : events.countP (isAttempt id) ≤
      maxRetries + (trace step (passes id) State.initial events).count .discard := by
  have hspends : Spends id final
      ([] ++ trace step (passes id) State.initial events) :=
    trace_invariant (Spends id) (fun _ _ _ _ hspends _ hstep => hspends.of_step hstep)
      rfl (guarded_true _ events) hrun
  rw [← count_attempt_trace hrun]
  rw [List.nil_append, Spends] at hspends
  split at hspends
  · rw [hspends]
    exact Nat.zero_le _
  · exact hspends.le

/-! ## A call that does not come to an end -/

/-- Call 0 gets the lock and a segment, the lock expires, another call installs
the next segment, and the hash is lost after it has refused the segment of
call 0. -/
def lateRound (key : String) (round : ℕ) : List Event :=
  [.setnx 0 "lock-0" .ok, .command 0 .ok, .tick 5000, .call (round + 1) key] ++
    slowPath (round + 1) "lock-1" ++
  [.command 0 .ok, .loseHash key, .command 0 .ok]

def lateRounds (key : String) (count : ℕ) : List Event :=
  .call 0 key :: .command 0 .ok :: (List.range count).flatMap (lateRound key)

theorem countP_lateRounds (key : String) (count : ℕ) :
    (lateRounds key count).countP (isAttempt 0) = count := by
  have hround : ∀ round, (lateRound key round).countP (isAttempt 0) = 1 := by
    intro round
    simp [lateRound, slowPath, isAttempt]
  rw [lateRounds, List.countP_cons_of_neg (by simp [isAttempt]),
    List.countP_cons_of_neg (by simp [isAttempt])]
  induction count with
  | zero => rfl
  | succ count ih => simp [List.range_succ, ih, hround]

/-- Call 0 is at the head of its loop after some rounds. -/
structure AtLoopHead (key : String) (round : ℕ) (state : State) : Prop where
  hash : state.hashes (redisKey key) = SeqHash.empty
  lock : state.locks (lockKey key) = none
  sequence : state.sequences key = 2 * round * segmentStep
  waiting : state.calls 0 = some ⟨key, .acquire 0⟩
  fresh : ∀ id, round < id → state.calls id = none

theorem syncSegmentLua_missing (newMax newCur : String) :
    syncSegmentLua ⟨none, none⟩ newMax newCur = (⟨some newMax, some newCur⟩, true) :=
  rfl

theorem syncSegmentLua_of_le {max newMax : ℕ} (hle : newMax ≤ max)
    (cur : Option String) (newCur : String) :
    syncSegmentLua ⟨some max.repr, cur⟩ newMax.repr newCur =
      (⟨some max.repr, cur⟩, false) := by
  simp [syncSegmentLua, isGreater_repr, hle]

namespace AtLoopHead

variable {key : String} {round : ℕ}

theorem start (hkey : keyValid key = true) : ∃ next,
    run step State.initial [.call 0 key, .command 0 .ok] = some next ∧
      AtLoopHead key 0 next := by
  refine ⟨State.setPhase (State.setPhase (State.setHash State.initial key
    SeqHash.empty) 0 key .fastPath) 0 key (.acquire 0), ?_, ?_⟩
  · simp [run, step, State.initial, hkey, State.setPhase, command, evalGenerate,
      generateSeqLua, SeqHash.empty, Reply.took, State.setHash, loopHead, maxRetries]
  · constructor
    · simp [State.initial, State.setPhase, State.setHash]
    · rfl
    · simp [State.initial, State.setPhase, State.setHash]
    · simp [State.setPhase]
    · intro id hid
      simp [State.initial, State.setPhase, State.setHash, hid.ne']

end AtLoopHead

/-- Call 0 has a segment, but no longer the lock. -/
structure Offers (key : String) (round : ℕ) (state : State) : Prop where
  hash : state.hashes (redisKey key) = SeqHash.empty
  lock : state.locks (lockKey key) = none
  sequence : state.sequences key = 2 * round * segmentStep + segmentStep
  offering : state.calls 0 =
    some ⟨key, .sync 0 "lock-0" (2 * round * segmentStep + segmentStep)⟩
  fresh : ∀ id, round < id → state.calls id = none

section Rounds

variable {key : String} {round : ℕ}

/-- The lock of call 0 expires before it can offer its segment. -/
theorem AtLoopHead.offers (hhead : AtLoopHead key round state)
    (hfits : 2 * round * segmentStep + segmentStep ≤ maxInt64) :
    ∃ next, run step state [.setnx 0 "lock-0" .ok, .command 0 .ok, .tick 5000] =
      some next ∧ Offers key round next := by
  obtain ⟨hhash, hlock, hsequence, hwaiting, hfresh⟩ := hhead
  have hswept : TtlStore.sweep (TtlStore.put state.locks (lockKey key) "lock-0"
      (some (state.now + lockTtl))) (state.now + 5000) (lockKey key) = none := by
    simp [TtlStore.sweep, TtlStore.put, TtlStore.Entry.due, lockTtl]
  simp only [run]
  simp [step, hwaiting, acquireLock, TtlStore.setnx_of_none hlock, Reply.took,
    State.setPhase, command, runAllocate, allocateSegment, hsequence, hfits]
  constructor
  · exact hhash
  · exact hswept
  · simp
  · simp
  · intro id hid
    simp [hfresh id hid, (show id ≠ 0 by omega)]

/-- Another call installs the next segment, and the hash is lost once it has
refused that of call 0. -/
theorem Offers.atLoopHead (hoffers : Offers key round state)
    (hkey : keyValid key = true)
    (hfits : 2 * round * segmentStep + segmentStep + segmentStep ≤ maxInt64) :
    ∃ next, run step state (.call (round + 1) key ::
        slowPath (round + 1) "lock-1" ++
          [.command 0 .ok, .loseHash key, .command 0 .ok]) = some next ∧
      AtLoopHead key (round + 1) next := by
  obtain ⟨hhash, hlock, hsequence, hoffering, hfresh⟩ := hoffers
  have hother := hfresh (round + 1) (by omega)
  simp only [slowPath, List.cons_append, List.nil_append, run]
  simp [step, hoffering, acquireLock, TtlStore.setnx_of_none hlock, Reply.took,
    State.setPhase, command, runAllocate, allocateSegment, hsequence, hfits,
    hother, hkey, evalGenerate, hhash, generateSeqLua, SeqHash.empty, loopHead,
    maxRetries, runSync, syncSegmentLua_missing, syncSegmentLua_of_le,
    State.setHash, runRelease]
  constructor
  · simp [SeqHash.empty]
  · simp [TtlStore.delIfEqual, TtlStore.get, TtlStore.del]
  · simp only [Function.update_self]
    ring
  · simp
  · intro id hid
    have hcalls := hfresh id (by omega)
    simp [hcalls, (show id ≠ 0 by omega), (show id ≠ round + 1 by omega)]

/-- A round brings call 0 back to the head of its loop. -/
theorem AtLoopHead.of_round (hhead : AtLoopHead key round state)
    (hkey : keyValid key = true)
    (hfits : 2 * (round + 1) * segmentStep ≤ maxInt64) :
    ∃ next, run step state (lateRound key round) = some next ∧
      AtLoopHead key (round + 1) next := by
  have hsecond : 2 * (round + 1) * segmentStep =
      2 * round * segmentStep + segmentStep + segmentStep := by ring
  rw [hsecond] at hfits
  obtain ⟨middle, hmiddle, hoffers⟩ := hhead.offers (by omega)
  obtain ⟨next, hnext, hlast⟩ := hoffers.atLoopHead hkey hfits
  have hsplit : lateRound key round =
      [.setnx 0 "lock-0" .ok, .command 0 .ok, .tick 5000] ++
        (.call (round + 1) key :: slowPath (round + 1) "lock-1" ++
          [.command 0 .ok, .loseHash key, .command 0 .ok]) := by
    rfl
  rw [hsplit]
  exact ⟨next, run_append_eq_some.mpr ⟨middle, hmiddle, hnext⟩, hlast⟩

end Rounds

/-- As long as the counter of the key has room, a call can be kept from its end
for any number of attempts. -/
theorem exists_run_of_lateRounds {key : String} (hkey : keyValid key = true)
    {count : ℕ} (hfits : 2 * count * segmentStep ≤ maxInt64) :
    (lateRounds key count).countP (isAttempt 0) = count ∧
      ∃ final, run step State.initial (lateRounds key count) = some final ∧
        final.calls 0 = some ⟨key, .acquire 0⟩ := by
  refine ⟨countP_lateRounds key count, ?_⟩
  suffices hhead : ∃ final, run step State.initial (lateRounds key count) =
      some final ∧ AtLoopHead key count final by
    obtain ⟨final, hrun, hfinal⟩ := hhead
    exact ⟨final, hrun, hfinal.waiting⟩
  induction count with
  | zero => exact AtLoopHead.start hkey
  | succ count ih =>
      obtain ⟨middle, hmiddle, hhead⟩ :=
        ih (hfits.trans' (by simp only [segmentStep]; omega))
      obtain ⟨final, hfinal, hlast⟩ := hhead.of_round hkey hfits
      refine ⟨final, ?_, hlast⟩
      rw [lateRounds, List.range_succ, List.flatMap_append, List.flatMap_singleton,
        ← List.cons_append, ← List.cons_append]
      exact run_append_eq_some.mpr ⟨middle, hmiddle, hfinal⟩

end OceanChat.IdGenerator
