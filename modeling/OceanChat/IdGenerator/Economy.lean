import OceanChat.IdGenerator.Refinement

/-!
# Economy of the sequence

Without faults the allocation lock excludes every other allocation for the same
key, and every number that the pool issues is returned by its call.  The
numbers returned by `n` calls are then `1, ..., n` exactly when every
`SYNC_SEGMENT_LUA` finds the hash missing or used up.
-/

namespace OceanChat.IdGenerator

open Runs SegmentPool

/-- No command of a call for the key fails, none of these calls crashes, the
lock of the key does not expire and its hash is not lost. -/
def Faultless (key : String) (state : State) : Event → Prop
  | .call _ _ => True
  | .setnx id _ reply => (state.phaseOf key id).isSome → reply = .ok
  | .command id reply => (state.phaseOf key id).isSome → reply = .ok
  | .crash id => state.phaseOf key id = none
  | .tick ms => ∀ entry ∈ state.locks (lockKey key),
      entry.due (state.now + ms) = false
  | .loseHash lost => lost ≠ key

instance (key : String) (state : State) (event : Event) :
    Decidable (Faultless key state event) := by
  cases event <;> unfold Faultless <;> infer_instance

/-- A step that runs `SYNC_SEGMENT_LUA` finds the hash missing or used up. -/
def SyncsUsedUp (key : String) (state : State) (event : Event) : Prop :=
  ∀ id reply retries lockValue max, event = .command id reply →
    state.phaseOf key id = some (.sync retries lockValue max) →
      (state.hashes (redisKey key)).cur = (state.hashes (redisKey key)).max

variable {key : String} {state next : State} {pool pool' : Pool CallId}
variable {id : CallId} {event : Event}

/-! ## The allocation lock -/

/-- The value of the lock that a call will release. -/
def Phase.lockValue : Phase → Option String
  | .allocate _ lockValue => some lockValue
  | .sync _ lockValue _ => some lockValue
  | .discarded _ lockValue => some lockValue
  | .release lockValue _ => some lockValue
  | _ => none

def State.owner (state : State) (key : String) (id : CallId) :
    Option (String × String) :=
  ((state.phaseOf key id).bind Phase.lockValue).map fun lockValue =>
    (lockKey key, lockValue)

/-- The calls past a successful `setnx` own the lock of the key. -/
def Locked (key : String) (state : State) : Prop :=
  TtlStore.Leases state.locks (state.owner key)

theorem Locked.initial : Locked key State.initial := by
  have howner : State.initial.owner key = fun _ => none := rfl
  rw [Locked, howner]
  exact TtlStore.Leases.empty_owner

theorem owner_setPhase {phase : Phase} (hcalls : next.calls = state.calls) :
    (next.setPhase id key phase).owner key =
      Function.update (state.owner key) id
        (phase.lockValue.map fun lockValue => (lockKey key, lockValue)) := by
  funext other
  by_cases hid : other = id
  · subst hid
    simp [State.owner]
  · rw [Function.update_of_ne hid, State.owner,
      State.phaseOf_setPhase_of_ne hid]
    simp only [State.owner, State.phaseOf, hcalls]

/-- A call for the key moves to a phase with the same lock, or without one. -/
theorem Locked.of_phase (hlocked : Locked key state) {before phase : Phase}
    (hphase : state.phaseOf key id = some before)
    (hcalls : next.calls = state.calls) (hlocks : next.locks = state.locks)
    (hkeep : phase.lockValue = before.lockValue ∨ phase.lockValue = none) :
    Locked key (next.setPhase id key phase) := by
  rw [Locked, owner_setPhase hcalls]
  simp only [State.setPhase, hlocks]
  apply TtlStore.Leases.mono hlocked
  intro other key' lockValue hother
  by_cases hid : other = id
  · subst hid
    rw [Function.update_self] at hother
    rcases hkeep with hsame | hnone
    · rw [State.owner, hphase, Option.bind_some, ← hsame]
      exact hother
    · simp [hnone] at hother
  · rwa [Function.update_of_ne hid] at hother

/-- A call for another key, or a new call, moves and the lock stays. -/
theorem Locked.of_unowned (hlocked : Locked key state) {other : String}
    {phase : Phase} (hfree : state.phaseOf key id = none)
    (hphase : other = key → phase.lockValue = none)
    (hcalls : next.calls = state.calls)
    (hlock : next.locks (lockKey key) = state.locks (lockKey key)) :
    Locked key (next.setPhase id other phase) := by
  have howner : (next.setPhase id other phase).owner key = state.owner key := by
    funext id'
    by_cases hid : id' = id
    · subst hid
      by_cases hkey : other = key
      · subst hkey
        simp [State.owner, hfree, hphase rfl]
      · simp [State.owner, hfree, State.phaseOf_setPhase_of_key_ne hkey]
    · rw [State.owner, State.phaseOf_setPhase_of_ne hid]
      simp only [State.owner, State.phaseOf, hcalls]
  rw [Locked, howner]
  apply TtlStore.Leases.of_preserved hlocked
  intro client key' lockValue hclient
  obtain ⟨value, -, hvalue⟩ := Option.map_eq_some_iff.mp hclient
  obtain ⟨rfl, rfl⟩ := Prod.mk.inj hvalue
  have hget := hlocked.held client _ _ hclient
  simpa only [TtlStore.get, State.setPhase, hlock] using hget

theorem Locked.of_acquire (hlocked : Locked key state) {retries : ℕ}
    {lockValue : String}
    (hphase : state.phaseOf key id = some (.acquire retries)) :
    Locked key ((acquireLock state key lockValue .ok retries).1.setPhase id key
      (acquireLock state key lockValue .ok retries).2) := by
  cases hlock : state.locks (lockKey key) with
  | none =>
      rw [Locked, owner_setPhase Elsewhere.acquireLock.calls_eq]
      simp only [acquireLock, TtlStore.setnx_of_none hlock, Reply.took, if_true,
        State.setPhase, Phase.lockValue, Option.map_some]
      exact TtlStore.Leases.acquire hlocked id lockValue _ hlock
  | some entry =>
      simp only [acquireLock, TtlStore.setnx_of_some hlock, Reply.took, if_true]
      exact hlocked.of_phase hphase rfl rfl (Or.inr rfl)

theorem Locked.of_release (hlocked : Locked key state) {lockValue : String}
    {outcome : Outcome}
    (hphase : state.phaseOf key id = some (.release lockValue outcome)) :
    Locked key ((runRelease state key .ok lockValue outcome).1.setPhase id key
      (runRelease state key .ok lockValue outcome).2) := by
  rw [Locked, owner_setPhase Elsewhere.runRelease.calls_eq]
  simp only [runRelease, Reply.took, if_true, State.setPhase, Phase.lockValue,
    Option.map_none]
  apply TtlStore.Leases.release hlocked
  simp [State.owner, hphase, Phase.lockValue]

/-- A phase that follows `GENERATE_SEQ_LUA` keeps the lock or gives it up. -/
theorem Locked.of_eval (hlocked : Locked key state) {before : Phase}
    {onSeq : String → Phase} {onNil onError : Phase} {reply : Reply}
    (hphase : state.phaseOf key id = some before)
    (hseq : ∀ seq, (onSeq seq).lockValue = before.lockValue)
    (hnil : onNil.lockValue = none)
    (herror : onError.lockValue = before.lockValue) :
    Locked key ((evalGenerate state key reply onSeq onNil onError).1.setPhase
      id key (evalGenerate state key reply onSeq onNil onError).2) := by
  apply hlocked.of_phase hphase Elsewhere.evalGenerate.calls_eq
    evalGenerate_locks
  exact evalGenerate_phase
    (fun phase => phase.lockValue = before.lockValue ∨ phase.lockValue = none)
    (fun seq => Or.inl (hseq seq)) (Or.inr hnil) (Or.inl herror)

theorem loopHead_lockValue (retries : ℕ) :
    (loopHead retries).lockValue = none := by
  unfold loopHead
  split <;> rfl

theorem Locked.of_command (hlocked : Locked key state) {before after : Phase}
    (hphase : state.phaseOf key id = some before)
    (hcommand : command state key .ok before = some (next, after)) :
    Locked key (next.setPhase id key after) := by
  cases before with
  | fastPath =>
      obtain ⟨rfl, rfl⟩ := Prod.mk.inj (Option.some.inj hcommand)
      exact hlocked.of_eval hphase (fun _ => rfl) (loopHead_lockValue 0) rfl
  | retry retries =>
      obtain ⟨rfl, rfl⟩ := Prod.mk.inj (Option.some.inj hcommand)
      exact hlocked.of_eval hphase (fun _ => rfl) (loopHead_lockValue _) rfl
  | discarded retries lockValue =>
      obtain ⟨rfl, rfl⟩ := Prod.mk.inj (Option.some.inj hcommand)
      exact hlocked.of_eval hphase (fun _ => rfl) (loopHead_lockValue _) rfl
  | allocate retries lockValue =>
      obtain rfl := congrArg Prod.fst (Option.some.inj hcommand)
      obtain rfl := congrArg Prod.snd (Option.some.inj hcommand)
      apply hlocked.of_phase hphase Elsewhere.runAllocate.calls_eq
        runAllocate_locks
      left
      simp only [runAllocate]
      cases allocateSegment state key <;> rfl
  | sync retries lockValue max =>
      obtain ⟨rfl, rfl⟩ := Prod.mk.inj (Option.some.inj hcommand)
      apply hlocked.of_phase hphase rfl rfl
      left
      simp only [if_true]
      split <;> rfl
  | release lockValue outcome =>
      obtain ⟨rfl, rfl⟩ := Prod.mk.inj (Option.some.inj hcommand)
      exact hlocked.of_release hphase
  | acquire retries => cases hcommand
  | finished outcome => cases hcommand
  | crashed => cases hcommand

/-- Without faults the lock excludes other allocations after every step. -/
theorem Locked.of_step (hlocked : Locked key state)
    (hfaultless : Faultless key state event)
    (hstep : step state event = some next) : Locked key next := by
  cases step_effect hstep with
  | called id key' hnone =>
      apply hlocked.of_unowned (State.phaseOf_of_none hnone) ?_ rfl rfl
      intro _
      split <;> rfl
  | attempted id key' lockValue reply retries hcall =>
      by_cases hkey : key' = key
      · subst hkey
        have hphase := State.phaseOf_eq_some.mpr hcall
        obtain rfl : reply = .ok := hfaultless (by simp [hphase])
        exact hlocked.of_acquire hphase
      · exact hlocked.of_unowned (State.phaseOf_of_key_ne hcall hkey)
          (fun heq => absurd heq hkey) Elsewhere.acquireLock.calls_eq
          (Elsewhere.acquireLock.lock_eq key (Ne.symm hkey))
  | executed id key' reply before after middle hcall hcommand =>
      by_cases hkey : key' = key
      · subst hkey
        have hphase := State.phaseOf_eq_some.mpr hcall
        obtain rfl : reply = .ok := hfaultless (by simp [hphase])
        exact hlocked.of_command hphase hcommand
      · exact hlocked.of_unowned (State.phaseOf_of_key_ne hcall hkey)
          (fun heq => absurd heq hkey) (Elsewhere.command hcommand).calls_eq
          ((Elsewhere.command hcommand).lock_eq key (Ne.symm hkey))
  | crashed id key' phase hcall =>
      exact hlocked.of_unowned hfaultless (fun _ => rfl) rfl rfl
  | ticked ms =>
      apply TtlStore.Leases.of_preserved hlocked
      intro client key' lockValue hclient
      obtain ⟨value, -, hvalue⟩ := Option.map_eq_some_iff.mp hclient
      obtain ⟨rfl, rfl⟩ := Prod.mk.inj hvalue
      have hget := hlocked.held client _ _ hclient
      obtain ⟨entry, hentry, rfl⟩ := Option.map_eq_some_iff.mp hget
      simp only [TtlStore.get,
        TtlStore.sweep_of_live hentry (hfaultless entry hentry), Option.map_some]
  | lost lost => exact hlocked

/-! ## Delivery of the issued numbers -/

/-- Every issued number is on its way to its caller. -/
def Delivered (key : String) (state : State) (pool : Pool CallId) : Prop :=
  ∀ id value, (id, value) ∈ pool.issued →
    (state.phaseOf key id).bind Phase.issuedSeq = some value.repr

/-- A step without faults keeps every number that is on its way. -/
theorem issuedSeq_kept (hfaultless : Faultless key state event)
    (hstep : step state event = some next) {seq : String}
    (hseq : (state.phaseOf key id).bind Phase.issuedSeq = some seq) :
    (next.phaseOf key id).bind Phase.issuedSeq = some seq := by
  obtain ⟨phase, hphase, hissued⟩ := Option.bind_eq_some_iff.mp hseq
  have hcall := State.phaseOf_eq_some.mp hphase
  have hmoved : ∀ {middle : State} {id' : CallId} {key' : String}
      {phase' : Phase}, middle.calls = state.calls → id ≠ id' →
      ((middle.setPhase id' key' phase').phaseOf key id).bind
        Phase.issuedSeq = some seq := by
    intro middle id' key' phase' hcalls hid
    rw [State.phaseOf_setPhase_of_ne hid, ← hseq]
    simp only [State.phaseOf, hcalls]
  cases step_effect hstep with
  | called id' key' hnone =>
      apply hmoved rfl
      rintro rfl
      rw [hcall] at hnone
      cases hnone
  | attempted id' key' lockValue reply retries hcall' =>
      apply hmoved Elsewhere.acquireLock.calls_eq
      rintro rfl
      rw [hcall] at hcall'
      cases hcall'
      cases hissued
  | executed id' key' reply before after middle hcall' hcommand =>
      by_cases hid : id = id'
      · subst hid
        rw [hcall] at hcall'
        cases hcall'
        obtain rfl : reply = .ok := hfaultless (by simp [hphase])
        cases phase with
        | release lockValue outcome =>
            obtain ⟨-, rfl⟩ := Prod.mk.inj (Option.some.inj hcommand)
            cases outcome with
            | returned seq' => simpa [Phase.issuedSeq] using hissued
            | threw error => cases hissued
        | finished outcome => cases hcommand
        | _ => cases hissued
      · exact hmoved (Elsewhere.command hcommand).calls_eq hid
  | crashed id' key' phase' hcall' =>
      apply hmoved rfl
      rintro rfl
      rw [Faultless, hphase] at hfaultless
      cases hfaultless
  | ticked ms => exact hseq
  | lost lost => exact hseq

/-- A call that draws without a fault carries the number away. -/
theorem issuedSeq_of_draw {before after : Phase} {hash : SeqHash} {seq : String}
    (hdraws : before.draws = true)
    (hgenerate : generateSeqLua (state.hashes (redisKey key)) =
      some (hash, some seq))
    (hcommand : command state key .ok before = some (next, after)) :
    after.issuedSeq = some seq := by
  cases before with
  | fastPath =>
      obtain rfl := congrArg Prod.snd (Option.some.inj hcommand)
      simp [evalGenerate, hgenerate, Phase.issuedSeq]
  | retry retries =>
      obtain rfl := congrArg Prod.snd (Option.some.inj hcommand)
      simp [evalGenerate, hgenerate, Phase.issuedSeq]
  | discarded retries lockValue =>
      obtain rfl := congrArg Prod.snd (Option.some.inj hcommand)
      simp [evalGenerate, hgenerate, Phase.issuedSeq]
  | _ => cases hdraws

/-- What a step without faults issues is on its way afterwards. -/
theorem issued_of_step (hrel : Refines key state pool)
    (hfaultless : Faultless key state event)
    (hstep : step state event = some next)
    (hpool : run (SegmentPool.step segmentStep) pool (emit key state event) =
      some pool') :
    pool'.issued = pool.issued ∨
      ∃ id value, pool'.issued = pool.issued ++ [(id, value)] ∧
        (state.phaseOf key id).bind Phase.issuedSeq = none ∧
        (next.phaseOf key id).bind Phase.issuedSeq ≠ none := by
  have hemission := emission key state event
  generalize emit key state event = actions at hpool hemission
  cases hemission with
  | silent =>
      obtain rfl : pool = pool' := by simpa using hpool
      exact Or.inl rfl
  | draw id reply before hash seq hphase hdraws hgenerate =>
      obtain rfl : reply = .ok := hfaultless (by simp [hphase])
      cases hactive : pool.active with
      | none => simp [run, SegmentPool.step, hactive] at hpool
      | some cursor =>
          by_cases hroom : cursor.offset + 1 < segmentStep
          · obtain rfl : pool.advance segmentStep id cursor = pool' := by
              simpa [run, SegmentPool.step, hactive, hroom] using hpool
            have hfresh := Phase.issuedSeq_of_draws hdraws
            refine Or.inr ⟨id, _, rfl, by simp [hphase, hfresh], ?_⟩
            cases step_effect hstep with
            | executed _ key' _ before' after middle hcall hcommand =>
                have hcall' := State.phaseOf_eq_some.mp hphase
                rw [hcall] at hcall'
                cases hcall'
                simp [issuedSeq_of_draw hdraws hgenerate hcommand]
          · simp [run, SegmentPool.step, hactive, hroom] at hpool
  | offer id reply retries lockValue max hphase htook =>
      obtain rfl : reply = .ok := hfaultless (by simp [hphase])
      obtain ⟨index, hheld, rfl⟩ := hrel.held_of_sync hphase
      cases hnewer : newer index pool.active with
      | false =>
          obtain rfl : pool.drop id = pool' := by
            simpa [run, SegmentPool.step, hheld, hnewer] using hpool
          exact Or.inl rfl
      | true =>
          obtain rfl : pool.install segmentStep id index = pool' := by
            simpa [run, SegmentPool.step, hheld, hnewer] using hpool
          refine Or.inr ⟨id, _, rfl, by simp [hphase, Phase.issuedSeq], ?_⟩
          cases step_effect hstep with
          | executed _ key' _ before' after middle hcall hcommand =>
              have hcall' := State.phaseOf_eq_some.mp hphase
              rw [hcall] at hcall'
              cases hcall'
              obtain rfl := congrArg Prod.snd (Option.some.inj hcommand)
              simp [runSync, hrel.hash_eq, syncSegmentLua_ofCursor, hnewer,
                Phase.issuedSeq]
  | allocate id retries lockValue hphase =>
      have hfree := hrel.held_eq id
      simp only [hphase, Option.bind_some, Phase.pendingMax] at hfree
      obtain rfl : pool.allocate id = pool' := by
        simpa [run, SegmentPool.step, Option.map_eq_none_iff.mp hfree.symm]
          using hpool
      exact Or.inl rfl
  | waste id retries lockValue hphase =>
      cases hfaultless (by simp [hphase])
  | fail id reply retries lockValue max hphase hfailed =>
      obtain rfl : pool.drop id = pool' := by
        simpa [run, SegmentPool.step] using hpool
      exact Or.inl rfl
  | crash id max hpending =>
      obtain rfl : pool.drop id = pool' := by
        simpa [run, SegmentPool.step] using hpool
      exact Or.inl rfl
  | lose =>
      obtain rfl : pool.lose = pool' := by
        simpa [run, SegmentPool.step] using hpool
      exact Or.inl rfl

theorem Delivered.of_step (hrel : Refines key state pool)
    (hrel' : Refines key next pool') (hdelivered : Delivered key state pool)
    (hfaultless : Faultless key state event)
    (hstep : step state event = some next)
    (hpool : run (SegmentPool.step segmentStep) pool (emit key state event) =
      some pool') : Delivered key next pool' := by
  intro id value hmem
  rcases issued_of_step hrel hfaultless hstep hpool with
    hsame | ⟨newId, newValue, hnew, hfresh, hcarried⟩
  · rw [hsame] at hmem
    exact issuedSeq_kept hfaultless hstep (hdelivered id value hmem)
  · rw [hnew, List.mem_append, List.mem_singleton] at hmem
    rcases hmem with hold | hlast
    · exact issuedSeq_kept hfaultless hstep (hdelivered id value hold)
    · obtain ⟨rfl, rfl⟩ := Prod.mk.inj hlast
      obtain ⟨seq, hseq⟩ := Option.ne_none_iff_exists'.mp hcarried
      obtain ⟨carried, rfl, hissued⟩ := hrel'.issued_of_seq id seq hseq
      rw [hseq]
      rw [hnew, List.mem_append, List.mem_singleton] at hissued
      rcases hissued with hold | hlast
      · rw [hdelivered id carried hold] at hfresh
        cases hfresh
      · rw [(Prod.mk.inj hlast).2]

/-! ## The claim over whole runs -/

/-- The refinement relation of the runs without faults. -/
structure RefinesFaultless (key : String) (state : State) (pool : Pool CallId) :
    Prop where
  refines : Refines key state pool
  locked : Locked key state
  delivered : Delivered key state pool

namespace RefinesFaultless

theorem initial : RefinesFaultless key State.initial Pool.initial :=
  ⟨Refines.initial key, Locked.initial, by simp [Delivered, Pool.initial]⟩

theorem simulate (hrel : RefinesFaultless key state pool)
    (hfaultless : Faultless key state event)
    (hstep : step state event = some next) :
    ∃ pool', run (SegmentPool.step segmentStep) pool (emit key state event) =
      some pool' ∧ RefinesFaultless key next pool' := by
  obtain ⟨pool', hpool, hrefines⟩ := hrel.refines.simulate hstep
  exact ⟨pool', hpool, hrefines, hrel.locked.of_step hfaultless hstep,
    hrel.delivered.of_step hrel.refines hrefines hfaultless hstep hpool⟩

/-- A call about to allocate finds no segment held by another call. -/
theorem free_of_allocate (hrel : RefinesFaultless key state pool)
    {retries : ℕ} {lockValue : String}
    (hphase : state.phaseOf key id = some (.allocate retries lockValue))
    (other : CallId) : pool.held other = none := by
  have hheld := hrel.refines.held_eq other
  cases hother : (state.phaseOf key other).bind Phase.pendingMax with
  | none =>
      rw [hother] at hheld
      exact Option.map_eq_none_iff.mp hheld.symm
  | some max =>
      obtain ⟨phase, hphase', hpending⟩ := Option.bind_eq_some_iff.mp hother
      cases phase with
      | sync retries' lockValue' max' =>
          have howner : state.owner key id = some (lockKey key, lockValue) := by
            simp [State.owner, hphase, Phase.lockValue]
          have howner' : state.owner key other =
              some (lockKey key, lockValue') := by
            simp [State.owner, hphase', Phase.lockValue]
          obtain rfl : id = other :=
            TtlStore.Leases.exclusive hrel.locked howner howner'
          rw [hphase] at hphase'
          cases hphase'
      | _ => cases hpending

theorem exclusive (hrel : RefinesFaultless key state pool)
    (hfaultless : Faultless key state event) :
    Guarded (SegmentPool.step segmentStep) Exclusive pool
      (emit key state event) := by
  have hemission := emission key state event
  generalize emit key state event = actions at hemission
  cases hemission with
  | silent => trivial
  | draw => exact ⟨trivial, fun _ _ => trivial⟩
  | offer => exact ⟨trivial, fun _ _ => trivial⟩
  | allocate id retries lockValue hphase =>
      exact ⟨hrel.free_of_allocate hphase, fun _ _ => trivial⟩
  | waste id retries lockValue hphase => cases hfaultless (by simp [hphase])
  | fail id reply retries lockValue max hphase hfailed =>
      obtain rfl : reply = .ok := hfaultless (by simp [hphase])
      cases hfailed
  | crash id max hpending =>
      rw [Faultless] at hfaultless
      rw [hfaultless] at hpending
      cases hpending
  | lose => exact absurd rfl hfaultless

/-- The fields of the hash agree when the register is empty or used up. -/
theorem fields_agree_iff (hrel : RefinesFaultless key state pool) :
    (state.hashes (redisKey key)).cur = (state.hashes (redisKey key)).max ↔
      ∀ cursor, pool.active = some cursor →
        cursor.offset + 1 = segmentStep := by
  rw [hrel.refines.hash_eq]
  cases hactive : pool.active with
  | none => simp [SeqHash.ofCursor, SeqHash.empty]
  | some cursor =>
      have hoffset := hrel.refines.valid.active_offset cursor hactive
      simp only [SeqHash.ofCursor, Option.some.injEq, Nat.repr_inj,
        forall_eq', Cursor.value, segmentMax, segmentStep] at hoffset ⊢
      omega

theorem usedUp_iff (hrel : RefinesFaultless key state pool)
    (hfaultless : Faultless key state event) :
    Guarded (SegmentPool.step segmentStep) (UsedUp segmentStep) pool
        (emit key state event) ↔
      SyncsUsedUp key state event := by
  rcases emit_offer_or_quiet key state event with
    ⟨id, reply, retries, lockValue, max, rfl, htook, hphase, hemit⟩ |
    ⟨hoffer, hsync⟩
  · rw [hemit, guarded_cons, SyncsUsedUp]
    simp only [guarded_nil, implies_true, and_true]
    constructor
    · intro husedUp _ _ _ _ _ _ _
      exact hrel.fields_agree_iff.mpr (husedUp id rfl)
    · intro hagree _ _
      exact hrel.fields_agree_iff.mp
        (hagree id reply retries lockValue max rfl hphase)
  · constructor
    · intro _ id reply retries lockValue max hevent hphase
      subst hevent
      obtain rfl : reply = .ok := hfaultless (by simp [hphase])
      exact absurd hphase (hsync id .ok retries lockValue max rfl rfl)
    · intro _
      apply guarded_of_forall
      rintro action haction middle client rfl
      exact absurd haction (hoffer client)

/-- Once all calls have finished, the issued numbers are the returned ones. -/
theorem returned_iff_issued (hrel : RefinesFaultless key state pool)
    (hfinished : ∀ id phase, state.phaseOf key id = some phase →
      ∃ outcome, phase = .finished outcome) (id : CallId) (seq : String) :
    state.Returned key id seq ↔
      ∃ value : ℕ, seq = value.repr ∧ (id, value) ∈ pool.issued := by
  constructor
  · intro hreturned
    apply hrel.refines.issued_of_seq
    rw [State.phaseOf_eq_some.mpr hreturned]
    rfl
  · intro hissued
    obtain ⟨value, rfl, hmem⟩ := hissued
    obtain ⟨phase, hphase, hseq⟩ :=
      Option.bind_eq_some_iff.mp (hrel.delivered id value hmem)
    obtain ⟨outcome, rfl⟩ := hfinished id phase hphase
    cases outcome with
    | returned seq' =>
        obtain rfl : seq' = value.repr := by simpa [Phase.issuedSeq] using hseq
        exact State.phaseOf_eq_some.mp hphase
    | threw error => cases hseq

/-- A call is issued at most one number. -/
theorem issued_clients_nodup (hrel : RefinesFaultless key state pool) :
    (pool.issued.map Prod.fst).Nodup := by
  have hissued : pool.issued.Nodup :=
    List.Nodup.of_map Prod.snd hrel.refines.valid.values_nodup
  refine (List.nodup_map_iff_inj_on hissued).mpr ?_
  intro left hleft right hright hclient
  obtain ⟨leftId, leftValue⟩ := left
  obtain ⟨rightId, rightValue⟩ := right
  obtain rfl : leftId = rightId := hclient
  have hvalues := (hrel.delivered leftId leftValue hleft).symm.trans
    (hrel.delivered leftId rightValue hright)
  rw [Nat.repr_inj.mp (Option.some.inj hvalues)]

/-- The successful calls are as many as the issued numbers. -/
theorem ncard_returned (hrel : RefinesFaultless key state pool)
    (hfinished : ∀ id phase, state.phaseOf key id = some phase →
      ∃ outcome, phase = .finished outcome) :
    {id | ∃ seq, state.Returned key id seq}.ncard = pool.values.length := by
  have hset : {id | ∃ seq, state.Returned key id seq} =
      ((pool.issued.map Prod.fst).toFinset : Set CallId) := by
    ext id
    simp only [Set.mem_ofPred_eq, hrel.returned_iff_issued hfinished,
      List.coe_toFinset, List.mem_map]
    constructor
    · intro hid
      obtain ⟨seq, value, -, hmem⟩ := hid
      exact ⟨(id, value), hmem, rfl⟩
    · intro hid
      obtain ⟨⟨id', value⟩, hmem, rfl⟩ := hid
      exact ⟨value.repr, value, rfl, hmem⟩
  rw [hset, Set.ncard_coe_finset,
    List.toFinset_card_of_nodup hrel.issued_clients_nodup, List.length_map,
    Pool.values, List.length_map]

theorem returned_eq_image (hrel : RefinesFaultless key state pool)
    (hfinished : ∀ id phase, state.phaseOf key id = some phase →
      ∃ outcome, phase = .finished outcome) :
    {seq | ∃ id, state.Returned key id seq} =
      Nat.repr '' {value | value ∈ pool.values} := by
  ext seq
  simp only [Set.mem_ofPred_eq, hrel.returned_iff_issued hfinished,
    Set.mem_image, Pool.values, List.mem_map]
  constructor
  · intro hseq
    obtain ⟨id, value, rfl, hmem⟩ := hseq
    exact ⟨value, ⟨(id, value), hmem, rfl⟩, rfl⟩
  · intro hseq
    obtain ⟨value, ⟨⟨id, value'⟩, hmem, rfl⟩, rfl⟩ := hseq
    exact ⟨id, value', rfl, hmem⟩

end RefinesFaultless

section WholeRuns

variable {final : State} {events : List Event}

theorem exists_refinesFaultless
    (hfaultless : Guarded step (Faultless key) State.initial events)
    (hrun : run step State.initial events = some final) :
    ∃ pool, run (SegmentPool.step segmentStep) Pool.initial
        (trace step (emit key) State.initial events) = some pool ∧
      RefinesFaultless key final pool :=
  run_simulation
    (fun _ _ _ _ hrel hfaultless hstep =>
      RefinesFaultless.simulate hrel hfaultless hstep)
    RefinesFaultless.initial hfaultless hrun

/-- Without faults the pool run allocates one segment at a time. -/
theorem exclusive_of_faultless
    (hfaultless : Guarded step (Faultless key) State.initial events)
    (hrun : run step State.initial events = some final) :
    Guarded (SegmentPool.step segmentStep) Exclusive Pool.initial
      (trace step (emit key) State.initial events) := by
  have htrue : Guarded step (fun _ _ => True) State.initial events :=
    guarded_true State.initial events
  refine (guarded_trace_iff
    (fun _ _ _ _ hrel hfaultless hstep =>
      RefinesFaultless.simulate hrel hfaultless hstep)
    (fun _ _ _ _ hrel hfaultless _ => ?_)
    RefinesFaultless.initial hfaultless hrun).mpr htrue
  exact iff_true_intro (RefinesFaultless.exclusive hrel hfaultless)

theorem usedUp_trace_iff
    (hfaultless : Guarded step (Faultless key) State.initial events)
    (hrun : run step State.initial events = some final) :
    Guarded (SegmentPool.step segmentStep) (UsedUp segmentStep) Pool.initial
        (trace step (emit key) State.initial events) ↔
      Guarded step (SyncsUsedUp key) State.initial events :=
  guarded_trace_iff
    (fun _ _ _ _ hrel hfaultless hstep =>
      RefinesFaultless.simulate hrel hfaultless hstep)
    (fun _ _ _ _ hrel hfaultless _ =>
      RefinesFaultless.usedUp_iff hrel hfaultless)
    RefinesFaultless.initial hfaultless hrun

/-- An increasing list is `1, ..., n` exactly when its members are. -/
private theorem eq_range_iff_mem {values : List ℕ}
    (hsorted : values.Pairwise (· < ·)) :
    values = List.range' 1 values.length ↔
      ∀ value, value ∈ values ↔ value ∈ Set.Icc 1 values.length := by
  have hrange : ∀ value, value ∈ List.range' 1 values.length ↔
      value ∈ Set.Icc 1 values.length := by
    intro value
    rw [List.mem_range'_1, Set.mem_Icc]
    omega
  constructor
  · intro heq value
    rw [← hrange, ← heq]
  · intro hmem
    apply hsorted.eq_of_mem_iff List.pairwise_lt_range'
    intro value
    rw [hmem, hrange]

/-- In a run without faults whose calls have all finished, the numbers returned
by the `n` successful calls are `1, ..., n` exactly when every
`SYNC_SEGMENT_LUA` of the run finds the hash missing or used up. -/
theorem returned_consecutive_iff
    (hrun : run step State.initial events = some final)
    (hfaultless : Guarded step (Faultless key) State.initial events)
    (hfinished : ∀ id phase, final.phaseOf key id = some phase →
      ∃ outcome, phase = .finished outcome) :
    {seq | ∃ id, final.Returned key id seq} =
        Nat.repr '' Set.Icc 1 {id | ∃ seq, final.Returned key id seq}.ncard ↔
      Guarded step (SyncsUsedUp key) State.initial events := by
  obtain ⟨pool, hpool, hrel⟩ := exists_refinesFaultless hfaultless hrun
  have hexclusive := exclusive_of_faultless hfaultless hrun
  have hordered : Ordered segmentStep pool := by
    refine Ordered.of_run (by decide) (hexclusive.mono ?_) hpool
    rintro middle action hguard rfl
    exact hguard
  have hlength : pool.values.length = pool.issued.length := by
    rw [Pool.values, List.length_map]
  have hinjective : Function.Injective Nat.repr := fun _ _ heq =>
    Nat.repr_inj.mp heq
  calc
    _ ↔ {value | value ∈ pool.values} = Set.Icc 1 pool.values.length := by
      rw [hrel.ncard_returned hfinished, hrel.returned_eq_image hfinished,
        hinjective.image_injective.eq_iff]
    _ ↔ pool.values = List.range' 1 pool.values.length := by
      rw [eq_range_iff_mem hordered.increasing, Set.ext_iff]
      rfl
    _ ↔ Guarded step (SyncsUsedUp key) State.initial events := by
      rw [hlength, values_eq_range_iff_usedUp (by decide) hexclusive hpool,
        usedUp_trace_iff hfaultless hrun]

end WholeRuns

/-! ## A run that skips numbers -/

/-- Both calls miss the fast path before either of them holds the lock; the
second allocates although the first has just installed a segment. -/
def wasteRun : List Event :=
  [.call 0 "group:123", .call 1 "group:123", .command 1 .ok] ++
    slowPath 0 "lock-0" ++ (slowPath 1 "lock-1").tail

theorem exists_final_of_wasteRun :
    ∃ final, run step State.initial wasteRun = some final ∧
      final.calls 0 = some ⟨"group:123", .finished (.returned "1")⟩ ∧
      final.calls 1 = some ⟨"group:123", .finished (.returned "1001")⟩ ∧
      ∀ id, id ≠ 0 → id ≠ 1 → final.calls id = none := by
  obtain ⟨final, hrun, hcalls⟩ := Option.map_eq_some_iff.mp
    (show (run step State.initial wasteRun).map (fun state =>
        (state.calls 0, state.calls 1)) =
      some (some ⟨"group:123", .finished (.returned "1")⟩,
        some ⟨"group:123", .finished (.returned "1001")⟩) by decide)
  obtain ⟨hfirst, hsecond⟩ := Prod.mk.inj hcalls
  refine ⟨final, hrun, hfirst, hsecond, fun id hzero hone => ?_⟩
  apply calls_eq_none_of_run rfl _ hrun
  intro key
  simp [wasteRun, slowPath, hzero, hone]

theorem finished_of_wasteRun {final : State}
    (hfirst : final.calls 0 = some ⟨"group:123", .finished (.returned "1")⟩)
    (hsecond : final.calls 1 =
      some ⟨"group:123", .finished (.returned "1001")⟩)
    (hidle : ∀ id, id ≠ 0 → id ≠ 1 → final.calls id = none) (id : CallId)
    (phase : Phase) (hphase : final.phaseOf "group:123" id = some phase) :
    ∃ outcome, phase = .finished outcome := by
  have hcall := State.phaseOf_eq_some.mp hphase
  by_cases hzero : id = 0
  · subst hzero
    rw [hfirst] at hcall
    cases hcall
    exact ⟨_, rfl⟩
  · by_cases hone : id = 1
    · subst hone
      rw [hsecond] at hcall
      cases hcall
      exact ⟨_, rfl⟩
    · rw [hidle id hzero hone] at hcall
      cases hcall

theorem returned_not_always_consecutive :
    ¬ ∀ (key : String) (events : List Event) (final : State),
      run step State.initial events = some final →
      Guarded step (Faultless key) State.initial events →
      (∀ id phase, final.phaseOf key id = some phase →
        ∃ outcome, phase = .finished outcome) →
      {seq | ∃ id, final.Returned key id seq} =
        Nat.repr '' Set.Icc 1 {id | ∃ seq, final.Returned key id seq}.ncard := by
  intro hclaim
  obtain ⟨final, hrun, hfirst, hsecond, hidle⟩ := exists_final_of_wasteRun
  have hset := hclaim "group:123" wasteRun final hrun (by decide)
    (finished_of_wasteRun hfirst hsecond hidle)
  have hcalls : {id | ∃ seq, final.Returned "group:123" id seq} ⊆ {0, 1} := by
    intro id hid
    obtain ⟨seq, hreturned⟩ := hid
    by_contra hother
    simp only [Set.mem_insert_iff, Set.mem_singleton_iff, not_or] at hother
    rw [State.Returned, hidle id hother.1 hother.2] at hreturned
    cases hreturned
  have hcount : {id | ∃ seq, final.Returned "group:123" id seq}.ncard ≤ 2 :=
    (Set.ncard_le_ncard hcalls).trans_eq (Set.ncard_pair (by decide))
  have hmem : "1001" ∈ Nat.repr '' Set.Icc 1
      {id | ∃ seq, final.Returned "group:123" id seq}.ncard := by
    rw [← hset]
    exact ⟨1, hsecond⟩
  obtain ⟨value, hvalue, hrepr⟩ := hmem
  have hthousand : value = 1001 := Nat.repr_inj.mp hrepr
  have hle := hvalue.2
  omega

theorem returned_consecutive_iff_of_wasteRun :
    ∃ final, run step State.initial wasteRun = some final ∧
      ({seq | ∃ id, final.Returned "group:123" id seq} = Nat.repr ''
          Set.Icc 1 {id | ∃ seq, final.Returned "group:123" id seq}.ncard ↔
        Guarded step (SyncsUsedUp "group:123") State.initial wasteRun) := by
  obtain ⟨final, hrun, hfirst, hsecond, hidle⟩ := exists_final_of_wasteRun
  exact ⟨final, hrun, returned_consecutive_iff hrun (by decide)
    (finished_of_wasteRun hfirst hsecond hidle)⟩

end OceanChat.IdGenerator
