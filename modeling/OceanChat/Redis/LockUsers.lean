import OceanChat.Auth.Exchange
import OceanChat.IdGenerator.Economy
import OceanChat.Redis.GetOrSet
import OceanChat.Redis.Lock

/-!
# Who uses the distributed lock

The refresh of tokens and the allocation of segments run the lock protocol: what
each of their steps does to its lock is a run of the protocol over the same
entries.
-/

namespace OceanChat.Lock

open Runs

/-! ## Following the protocol -/

/-- The protocol has the same entries, and inside are the locks that the calls
of a system hold. -/
structure Tracks (locks : Locks) (owner : ℕ → Option (String × String))
    (protocol : State ℕ) : Prop where
  locks_eq : protocol.locks = locks
  inside_iff : ∀ id key value,
    owner id = some (key, value) ↔ ⟨id, key, value⟩ ∈ protocol.inside
  attempted : ∀ acquisition ∈ protocol.inside, acquisition ∈ protocol.attempts

/-- A call that gives up its lock without releasing it. -/
def leaves (id : ℕ) : Option (String × String) → Option (String × String) →
    List (Event ℕ)
  | some (key, value), none => [.abandon ⟨id, key, value⟩]
  | _, _ => []

namespace Tracks

variable {locks : Locks} {owner : ℕ → Option (String × String)}
variable {protocol : State ℕ} {id : ℕ}

theorem initial : Tracks TtlStore.empty (fun _ => none) State.initial :=
  ⟨rfl, by simp [State.initial], by simp [State.initial]⟩

/-- A call leaves the lock it holds. -/
theorem leave (htracks : Tracks locks owner protocol) {key value : String}
    (howner : owner id = some (key, value)) :
    Tracks locks (Function.update owner id none)
      (protocol.leave ⟨id, key, value⟩) where
  locks_eq := htracks.locks_eq
  inside_iff other key' value' := by
    rw [mem_inside_leave, ← htracks.inside_iff]
    by_cases hid : other = id
    · subst hid
      rw [howner]
      simp only [Function.update_self, reduceCtorEq, false_iff]
      rintro ⟨hsame, hne⟩
      obtain ⟨rfl, rfl⟩ := Prod.mk.inj (Option.some.inj hsame)
      exact hne rfl
    · simp [hid]
  attempted other hother :=
    htracks.attempted other (mem_inside_leave.mp hother).1

theorem leaves (htracks : Tracks locks owner protocol)
    {new : Option (String × String)} (hnew : new = owner id ∨ new = none) :
    ∃ protocol', run step protocol (leaves id (owner id) new) = some protocol' ∧
      Tracks locks (Function.update owner id new) protocol' := by
  rcases hnew with rfl | rfl
  · refine ⟨protocol, ?_, by rwa [Function.update_eq_self]⟩
    cases howner : owner id <;> rfl
  · cases howner : owner id with
    | none =>
        refine ⟨protocol, rfl, ?_⟩
        rwa [← howner, Function.update_eq_self]
    | some lock => exact ⟨_, rfl, htracks.leave howner⟩

theorem setnx (htracks : Tracks locks owner protocol) (hnone : owner id = none)
    (key value : String) (now ttl : ℕ) (reply : Reply) :
    ∃ protocol', run step protocol
        [.setnx ⟨id, key, value⟩ now ttl reply] = some protocol' ∧
      Tracks (if reply.took then (Lock.setnx locks key value now ttl).1 else locks)
        (Function.update owner id
          (if reply = .ok ∧ (Lock.setnx locks key value now ttl).2 = true then
            some (key, value) else none)) protocol' := by
  obtain ⟨locks', creator, attempts, inside⟩ := protocol
  obtain rfl : locks' = locks := htracks.locks_eq
  rename' locks' => locks
  refine ⟨{
      locks := if reply.took then (Lock.setnx locks key value now ttl).1 else locks
      creator := _
      attempts := ⟨id, key, value⟩ :: attempts
      inside := if reply = .ok ∧ (Lock.setnx locks key value now ttl).2 = true then
          ⟨id, key, value⟩ :: inside
        else inside }, rfl, rfl, ?_, ?_⟩
  · intro other key' value'
    have hold : owner other = some (key', value') ↔
        ⟨other, key', value'⟩ ∈ inside := htracks.inside_iff other key' value'
    by_cases hid : other = id
    · subst hid
      rw [hnone] at hold
      simp only [Function.update_self]
      split
      · simp [← hold, eq_comm]
      · simpa using hold
    · rw [Function.update_of_ne hid, hold]
      simp only
      split <;> simp [hid]
  · intro other hother
    have hold : ∀ other ∈ inside, other ∈ attempts := htracks.attempted
    simp only at hother
    split at hother
    · exact List.mem_cons.mpr ((List.mem_cons.mp hother).imp_right (hold other))
    · exact List.mem_cons_of_mem _ (hold other hother)

theorem delIfEqual (htracks : Tracks locks owner protocol) {key value : String}
    (howner : owner id = some (key, value)) (reply : Reply) :
    ∃ protocol', run step protocol
        [.delIfEqual ⟨id, key, value⟩ reply] = some protocol' ∧
      Tracks (if reply.took then TtlStore.delIfEqual locks key value else locks)
        (Function.update owner id none) protocol' := by
  have hinside := (htracks.inside_iff id key value).mp howner
  have hattempt := htracks.attempted _ hinside
  obtain ⟨locks', creator, attempts, inside⟩ := protocol
  obtain rfl : locks' = locks := htracks.locks_eq
  rename' locks' => locks
  refine ⟨_, run_cons_eq_some.mpr ⟨_, if_pos hattempt, rfl⟩, ?_⟩
  apply Tracks.leave _ howner
  split
  · exact ⟨fst_delIfEqual _ _ _, htracks.inside_iff, htracks.attempted⟩
  · exact htracks

theorem sweep (htracks : Tracks locks owner protocol) (now : ℕ) :
    ∃ protocol', run step protocol
        [.expire fun key => (locks key).any fun entry => entry.due now] =
          some protocol' ∧
      Tracks (TtlStore.sweep locks now) owner protocol' := by
  refine ⟨_, rfl, ?_, htracks.inside_iff, htracks.attempted⟩
  funext key
  simp only [State.setLocks, htracks.locks_eq, TtlStore.sweep]
  cases hlock : locks key with
  | none => rfl
  | some entry => cases hdue : entry.due now <;> simp [Option.filter, hdue]

end Tracks

end OceanChat.Lock

namespace OceanChat.Auth

open Runs

/-! ## The refresh of tokens -/

/-- What a step of the service is in the lock protocol. -/
def lockEvents (state : State) : Event → List (Lock.Event ℕ)
  | .setnx id reply =>
      match state.calls id with
      | some (.refresh payload lockValue .acquire) =>
          [.setnx ⟨id, lockKey payload.sub payload.deviceId, lockValue⟩ state.now
            lockTtl reply]
      | _ => []
  | .release id reply =>
      match state.lockOwner id with
      | some (key, lockValue) => [.delIfEqual ⟨id, key, lockValue⟩ reply]
      | none => []
  | .crash id => Lock.leaves id (state.lockOwner id) none
  | .tick ms => [.expire fun key =>
      (state.locks key).any fun entry => entry.due (state.now + ms)]
  | _ => []

section Steps

variable {config : Config} {state next final : State} {event : Event}
variable {protocol : Lock.State ℕ} {id : ℕ} {call : Call}

theorem lock_of_inside {payload : JwtPayload} {lockValue : String}
    {phase : RefreshPhase} (hinside : phase.inside = true) :
    Call.lock (.refresh payload lockValue phase) =
      some (lockKey payload.sub payload.deviceId, lockValue) :=
  if_pos hinside

/-- A call moves on with the lock it has. -/
theorem tracks_setCall
    (htracks : Lock.Tracks state.locks state.lockOwner protocol)
    (hlocks : next.locks = state.locks) (hcalls : next.calls = state.calls)
    (hlock : call.lock = state.lockOwner id) :
    Lock.Tracks (next.setCall id call).locks (next.setCall id call).lockOwner
      protocol := by
  have howner : next.lockOwner = state.lockOwner := by
    funext other
    rw [State.lockOwner, hcalls, State.lockOwner]
  rw [lockOwner_setCall, howner, hlock, Function.update_eq_self]
  exact hlocks ▸ htracks

theorem tracks_setnx
    (htracks : Lock.Tracks state.locks state.lockOwner protocol)
    (payload : JwtPayload) (lockValue : String) (reply : Reply)
    (hcall : state.calls id = some (.refresh payload lockValue .acquire)) :
    ∃ protocol', run Lock.step protocol [.setnx
        ⟨id, lockKey payload.sub payload.deviceId, lockValue⟩ state.now lockTtl
          reply] = some protocol' ∧
      Lock.Tracks
        (if reply.took then (Lock.setnx state.locks
            (lockKey payload.sub payload.deviceId) lockValue state.now lockTtl).1
          else state.locks)
        (Function.update state.lockOwner id (Call.lock (.refresh payload lockValue
          (afterSetnx reply (Lock.setnx state.locks
            (lockKey payload.sub payload.deviceId) lockValue state.now
              lockTtl).2)))) protocol' := by
  have hnone : state.lockOwner id = none := by
    simp [State.lockOwner, hcall, Call.lock, RefreshPhase.inside]
  have hlock : Call.lock (.refresh payload lockValue (afterSetnx reply
      (Lock.setnx state.locks (lockKey payload.sub payload.deviceId) lockValue
        state.now lockTtl).2)) =
      if reply = .ok ∧ (Lock.setnx state.locks
          (lockKey payload.sub payload.deviceId) lockValue state.now
            lockTtl).2 = true then
        some (lockKey payload.sub payload.deviceId, lockValue)
      else none := by
    cases reply <;> cases (Lock.setnx state.locks
      (lockKey payload.sub payload.deviceId) lockValue state.now lockTtl).2 <;>
    rfl
  rw [hlock]
  exact htracks.setnx hnone _ lockValue state.now lockTtl reply

/-- Every step of the service is a run of the lock protocol. -/
theorem tracks_of_step
    (htracks : Lock.Tracks state.locks state.lockOwner protocol)
    (hstep : step config state event = some next) :
    ∃ protocol', run Lock.step protocol (lockEvents state event) =
        some protocol' ∧
      Lock.Tracks next.locks next.lockOwner protocol' := by
  cases step_effect hstep with
  | setnx id reply payload lockValue hcall =>
      simp only [lockEvents, hcall, lockOwner_setCall]
      exact tracks_setnx htracks payload lockValue reply hcall
  | release id reply payload lockValue result hcall =>
      have howner : state.lockOwner id =
          some (lockKey payload.sub payload.deviceId, lockValue) := by
        simp [State.lockOwner, hcall, Call.lock, RefreshPhase.inside]
      simp only [lockEvents, howner, lockOwner_setCall]
      exact htracks.delIfEqual howner reply
  | crash id call hcall hpending =>
      simp only [lockEvents, lockOwner_setCall, call.lock_crash]
      exact htracks.leaves (.inr rfl)
  | tick ms => exact htracks.sweep (state.now + ms)
  | read id reply payload lockValue hcall =>
      refine ⟨protocol, rfl, tracks_setCall htracks rfl rfl ?_⟩
      rw [State.lockOwner, hcall, Option.bind_some]
      refine (lock_of_inside ?_).trans (lock_of_inside rfl).symm
      split
      · exact afterHget_inside payload _
      · rfl
  | lookup id answer payload lockValue storage hcall =>
      refine ⟨protocol, rfl, tracks_setCall htracks rfl rfl ?_⟩
      rw [State.lockOwner, hcall, Option.bind_some]
      exact (lock_of_inside (afterLookup_inside storage answer)).trans
        (lock_of_inside rfl).symm
  | _ =>
      refine ⟨protocol, rfl, tracks_setCall htracks rfl rfl ?_⟩
      simp_all [State.lockOwner, Call.lock, RefreshPhase.inside]

/-- Every run of the service is a run of the lock protocol. -/
theorem tracks_of_run {events : List Event}
    (hrun : run (step config) State.initial events = some final) :
    ∃ protocol, run Lock.step Lock.State.initial
        (trace (step config) lockEvents State.initial events) = some protocol ∧
      Lock.Tracks final.locks final.lockOwner protocol :=
  run_simulation
    (fun _ _ _ _ htracks _ hstep => tracks_of_step htracks hstep)
    Lock.Tracks.initial (guarded_true _ _) hrun

end Steps

end OceanChat.Auth

namespace OceanChat.IdGenerator

open Runs

/-! ## The allocation of segments -/

/-- The lock that a call holds. -/
def Call.lock (call : Call) : Option (String × String) :=
  call.phase.lockValue.map fun lockValue => (lockKey call.key, lockValue)

def State.lockOwner (state : State) (id : CallId) : Option (String × String) :=
  (state.calls id).bind Call.lock

/-- What a step of the generator is in the lock protocol.  After a failed
compare-and-set a call that goes on to try again keeps its entry unreleased. -/
def lockEvents (state : State) : Event → List (Lock.Event CallId)
  | .setnx id lockValue reply =>
      match state.calls id with
      | some ⟨key, .acquire _⟩ =>
          [.setnx ⟨id, lockKey key, lockValue⟩ state.now 5 reply]
      | _ => []
  | .command id reply =>
      match state.calls id with
      | some ⟨key, .release lockValue _⟩ =>
          [.delIfEqual ⟨id, lockKey key, lockValue⟩ reply]
      | some ⟨key, before⟩ =>
          ((command state key reply before).map fun result =>
            Lock.leaves id (state.lockOwner id) (Call.lock ⟨key, result.2⟩)).getD []
      | none => []
  | .crash id => Lock.leaves id (state.lockOwner id) none
  | .tick ms => [.expire fun key =>
      (state.locks key).any fun entry => entry.due (state.now + ms)]
  | _ => []

section Steps

variable {state next final : State} {event : Event}
variable {protocol : Lock.State CallId} {id : CallId} {key : String}

theorem lockOwner_setPhase (hcalls : next.calls = state.calls) (phase : Phase) :
    (next.setPhase id key phase).lockOwner =
      Function.update state.lockOwner id (Call.lock ⟨key, phase⟩) := by
  funext other
  by_cases hid : other = id
  · subst hid
    simp [State.lockOwner, State.setPhase]
  · simp [State.lockOwner, State.setPhase, hid, hcalls]

/-- A command other than the release leaves the locks alone, and the call keeps
its lock or gives it up. -/
theorem command_keeps {reply : Reply} {before after : Phase}
    (hcommand : command state key reply before = some (next, after))
    (hrelease : ∀ lockValue outcome, before ≠ .release lockValue outcome) :
    next.locks = state.locks ∧
      (after.lockValue = before.lockValue ∨ after.lockValue = none) := by
  cases before with
  | fastPath | retry retries | discarded retries lockValue =>
      obtain ⟨rfl, rfl⟩ := Prod.mk.inj (Option.some.inj hcommand)
      refine ⟨evalGenerate_locks, evalGenerate_phase (fun phase =>
        phase.lockValue = _ ∨ phase.lockValue = none) (fun _ => ?_) ?_ ?_⟩
      · exact .inl rfl
      · exact .inr (loopHead_lockValue _)
      · exact .inl rfl
  | allocate retries lockValue =>
      have hresult : runAllocate state key reply retries lockValue =
          (next, after) := Option.some.inj hcommand
      have hlocks := congrArg (fun result => result.1.locks) hresult
      have hphase := congrArg (fun result => result.2.lockValue) hresult
      refine ⟨hlocks.symm.trans runAllocate_locks, .inl (hphase.symm.trans ?_)⟩
      unfold runAllocate
      cases allocateSegment state key with
      | none => rfl
      | some result =>
          simp only [Option.elim_some]
          split <;> rfl
  | sync retries lockValue max =>
      obtain ⟨rfl, rfl⟩ := Prod.mk.inj (Option.some.inj hcommand)
      refine ⟨?_, .inl ?_⟩
      · dsimp only
        split <;> rfl
      · dsimp only
        split
        · split <;> rfl
        · rfl
  | release lockValue outcome => exact absurd rfl (hrelease lockValue outcome)
  | acquire retries => cases hcommand
  | finished outcome => cases hcommand
  | crashed => cases hcommand

theorem tracks_setnx
    (htracks : Lock.Tracks state.locks state.lockOwner protocol)
    {lockValue : String} {reply : Reply} {retries : ℕ}
    (hcall : state.calls id = some ⟨key, .acquire retries⟩) :
    ∃ protocol', run Lock.step protocol
        [.setnx ⟨id, lockKey key, lockValue⟩ state.now 5 reply] =
          some protocol' ∧
      Lock.Tracks (acquireLock state key lockValue reply retries).1.locks
        (Function.update state.lockOwner id
          (Call.lock ⟨key, (acquireLock state key lockValue reply retries).2⟩))
        protocol' := by
  have hnone : state.lockOwner id = none := by
    simp [State.lockOwner, hcall, Call.lock, Phase.lockValue]
  have hlocks : (acquireLock state key lockValue reply retries).1.locks =
      if reply.took then
        (Lock.setnx state.locks (lockKey key) lockValue state.now 5).1
      else state.locks := by
    cases reply <;> rfl
  have hlock : Call.lock
      ⟨key, (acquireLock state key lockValue reply retries).2⟩ =
      if reply = .ok ∧ (Lock.setnx state.locks (lockKey key) lockValue
          state.now 5).2 = true then
        some (lockKey key, lockValue)
      else none := by
    cases hstored : state.locks (lockKey key) with
    | none =>
        cases reply <;> simp [acquireLock, Lock.setnx,
          TtlStore.setnx_of_none hstored, Call.lock, Phase.lockValue]
    | some entry =>
        cases reply <;> simp [acquireLock, Lock.setnx,
          TtlStore.setnx_of_some hstored, Call.lock, Phase.lockValue]
  rw [hlocks, hlock]
  exact htracks.setnx hnone (lockKey key) lockValue state.now 5 reply

/-- Every step of the generator is a run of the lock protocol. -/
theorem tracks_of_step
    (htracks : Lock.Tracks state.locks state.lockOwner protocol)
    (hstep : step state event = some next) :
    ∃ protocol', run Lock.step protocol (lockEvents state event) =
        some protocol' ∧
      Lock.Tracks next.locks next.lockOwner protocol' := by
  cases step_effect hstep with
  | called id key hnone =>
      refine ⟨protocol, rfl, ?_⟩
      have hlock : Call.lock ⟨key, if keyValid key then .fastPath
          else .finished (.threw invalidSequenceKey)⟩ = state.lockOwner id := by
        rw [State.lockOwner, hnone]
        split <;> rfl
      rw [lockOwner_setPhase rfl, hlock, Function.update_eq_self]
      exact htracks
  | attempted id key lockValue reply retries hcall =>
      simp only [lockEvents, hcall]
      rw [lockOwner_setPhase Elsewhere.acquireLock.calls_eq]
      exact tracks_setnx htracks hcall
  | executed id key reply before after middle hcall hcommand =>
      rw [lockOwner_setPhase (Elsewhere.command hcommand).calls_eq]
      have howner : state.lockOwner id = Call.lock ⟨key, before⟩ := by
        simp [State.lockOwner, hcall]
      by_cases hrelease : ∃ lockValue outcome, before = .release lockValue outcome
      · obtain ⟨lockValue, outcome, rfl⟩ := hrelease
        obtain ⟨hnext, hafter⟩ := Prod.mk.inj (Option.some.inj hcommand)
        have hlocks : middle.locks = if reply.took then
              TtlStore.delIfEqual state.locks (lockKey key) lockValue
            else state.locks := by
          rw [← hnext]
          cases reply <;> rfl
        have hfinished : Call.lock ⟨key, after⟩ = none := by
          rw [← hafter]
          rfl
        simp only [lockEvents, hcall, State.setPhase, hlocks, hfinished]
        exact htracks.delIfEqual howner reply
      · push Not at hrelease
        obtain ⟨hlocks, hvalue⟩ := command_keeps hcommand hrelease
        have hevents : lockEvents state (.command id reply) =
            Lock.leaves id (state.lockOwner id) (Call.lock ⟨key, after⟩) := by
          cases before <;> simp_all [lockEvents]
        rw [hevents]
        simp only [State.setPhase, hlocks]
        apply htracks.leaves
        rw [howner]
        exact hvalue.imp (fun hsame => by simp [Call.lock, hsame])
          (fun hnone => by simp [Call.lock, hnone])
  | crashed id key phase hcall =>
      rw [lockOwner_setPhase rfl]
      exact htracks.leaves (.inr rfl)
  | ticked ms => exact htracks.sweep (state.now + ms)
  | lost key => exact ⟨protocol, rfl, htracks⟩

/-- Every run of the generator is a run of the lock protocol. -/
theorem tracks_of_run {events : List Event}
    (hrun : run step State.initial events = some final) :
    ∃ protocol, run Lock.step Lock.State.initial
        (trace step lockEvents State.initial events) = some protocol ∧
      Lock.Tracks final.locks final.lockOwner protocol :=
  run_simulation
    (fun _ _ _ _ htracks _ hstep => tracks_of_step htracks hstep)
    Lock.Tracks.initial (guarded_true _ _) hrun

end Steps

end OceanChat.IdGenerator

namespace OceanChat.GetOrSet

open Runs TtlStore

/-! ## Reads through the cache -/

/-- The lock that a call holds. -/
def Phase.lock {Value : Type*} (key : String) :
    Phase String Value → Option (String × String)
  | .fetching lockValue | .storing lockValue _ _ | .releasing lockValue _ =>
      some (lockKey key, lockValue)
  | _ => none

/-- What a step of a call is in the lock protocol. -/
def lockEvents {Value : Type*} (options : GetOrSetOptions) (key : String)
    (now id : ℕ) : Phase String Value → Action String → List (Lock.Event ℕ)
  | .acquiring, .setnx lockValue reply =>
      [.setnx ⟨id, lockKey key, lockValue⟩ now options.lockTtl reply]
  | .releasing lockValue _, .release reply =>
      [.delIfEqual ⟨id, lockKey key, lockValue⟩ reply]
  | _, _ => []

/-- The entries under lock keys. -/
def lockPart (isLock : String → Bool) (redis : Store String String) : Lock.Locks :=
  fun key => if isLock key then redis key else none

section LockPart

variable {isLock : String → Bool} {redis : Store String String}
variable {key value : String} {expiresAt : Option ℕ}

theorem lockPart_put (hlock : isLock key = true) :
    lockPart isLock (put redis key value expiresAt) =
      put (lockPart isLock redis) key value expiresAt := by
  funext other
  by_cases hother : other = key
  · subst hother
    simp [lockPart, hlock]
  · simp [lockPart, put_of_ne hother]

theorem lockPart_put_of_not (hlock : isLock key = false) :
    lockPart isLock (put redis key value expiresAt) = lockPart isLock redis := by
  funext other
  by_cases hother : other = key
  · subst hother
    simp [lockPart, hlock]
  · simp [lockPart, put_of_ne hother]

theorem lockPart_setnx (hlock : isLock key = true) :
    setnx (lockPart isLock redis) key value expiresAt =
      (lockPart isLock (setnx redis key value expiresAt).1,
        (setnx redis key value expiresAt).2) := by
  cases hstored : redis key with
  | none =>
      have hnone : lockPart isLock redis key = none := by simp [lockPart, hstored]
      rw [setnx_of_none hnone, setnx_of_none hstored, lockPart_put hlock]
  | some entry =>
      have hsome : lockPart isLock redis key = some entry := by
        simp [lockPart, hlock, hstored]
      rw [setnx_of_some hsome, setnx_of_some hstored]

theorem lockPart_delIfEqual (hlock : isLock key = true) :
    lockPart isLock (delIfEqual redis key value) =
      delIfEqual (lockPart isLock redis) key value := by
  have hget : TtlStore.get (lockPart isLock redis) key =
      TtlStore.get redis key := by
    simp [TtlStore.get, lockPart, hlock]
  unfold delIfEqual
  rw [hget]
  split
  · funext other
    by_cases hother : other = key
    · subst hother
      simp [lockPart, del]
    · simp [lockPart, del_of_ne hother]
  · rfl

end LockPart

/-- Every step of a read is a run of the lock protocol, and the entry that it
stores is no lock. -/
theorem tracks_of_step {Value : Type*} {options : GetOrSetOptions}
    {encode : Option Value → String} {key : String} {source : Option Value}
    {now id : ℕ} {redis redis' : Store String String}
    {phase phase' : Phase String Value} {action : Action String}
    {isLock : String → Bool} {owner : ℕ → Option (String × String)}
    {protocol : Lock.State ℕ} (hlock : isLock (lockKey key) = true)
    (hkey : isLock key = false)
    (htracks : Lock.Tracks (lockPart isLock redis) owner protocol)
    (howner : owner id = phase.lock key)
    (hstep : step options encode key source now redis phase action =
      some (redis', phase')) :
    ∃ protocol', run Lock.step protocol
        (lockEvents options key now id phase action) = some protocol' ∧
      Lock.Tracks (lockPart isLock redis')
        (Function.update owner id (phase'.lock key)) protocol' := by
  have hquiet : ∀ {later : Store String String} {held : Option (String × String)},
      lockPart isLock later = lockPart isLock redis → held = owner id →
        Lock.Tracks (lockPart isLock later) (Function.update owner id held)
          protocol := by
    rintro later held hlater rfl
    rwa [hlater, Function.update_eq_self]
  cases effect_of_step hstep with
  | @acquired lockValue hfree =>
      obtain ⟨protocol', hrun, hlater⟩ := htracks.setnx howner (lockKey key)
        lockValue now options.lockTtl .ok
      rw [Lock.setnx, lockPart_setnx hlock, hfree] at hlater
      exact ⟨protocol', hrun, hlater⟩
  | @refused lockValue htaken =>
      obtain ⟨protocol', hrun, hlater⟩ := htracks.setnx howner (lockKey key)
        lockValue now options.lockTtl .ok
      rw [Lock.setnx, lockPart_setnx hlock, htaken] at hlater
      exact ⟨protocol', hrun, hlater⟩
  | @setnxFailed lockValue reply hreply =>
      obtain ⟨protocol', hrun, hlater⟩ := htracks.setnx howner (lockKey key)
        lockValue now options.lockTtl reply
      refine ⟨protocol', hrun, ?_⟩
      rw [Lock.setnx, lockPart_setnx hlock] at hlater
      cases reply with
      | ok => exact absurd rfl hreply
      | failed => exact hlater
      | lost => exact hlater
  | @released lockValue outcome reply =>
      obtain ⟨protocol', hrun, hlater⟩ := htracks.delIfEqual howner reply
      refine ⟨protocol', hrun, ?_⟩
      rw [← lockPart_delIfEqual hlock] at hlater
      cases reply <;> exact hlater
  | waits | waitsOn =>
      refine ⟨protocol, rfl, hquiet rfl ?_⟩
      rw [howner, loop]
      split <;> rfl
  | fetched =>
      refine ⟨protocol, rfl, hquiet rfl ?_⟩
      rw [howner, afterFetch]
      split <;> rfl
  | stored => exact ⟨protocol, rfl, hquiet (lockPart_put_of_not hkey) howner.symm⟩
  | setFailed =>
      refine ⟨protocol, rfl, hquiet ?_ howner.symm⟩
      split
      · exact lockPart_put_of_not hkey
      · rfl
  | hit | miss | getFailed | fetchFailed | retried | retryFailed | found =>
      exact ⟨protocol, rfl, hquiet rfl howner.symm⟩

end OceanChat.GetOrSet
