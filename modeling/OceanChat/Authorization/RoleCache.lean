import OceanChat.Authorization.LruCache
import OceanChat.Core.Runs
import OceanChat.Redis.GetOrSet

/-!
# The role cache

Any number of service instances, each with memory caches of its own and perhaps
a data source, share one Redis.  A read looks into the memory of its instance,
then into Redis, and puts what it returns into the memory; an invalidation
deletes the entry of its own instance and the one in Redis.
-/

namespace OceanChat.Authorization

open GetOrSet (GetOrSetOptions)

/-! ## The service -/

abbrev Roles := List String

/-- Whose roles are asked for: those of a user, or those with a permission. -/
inductive Kind
  | user
  | permission
  deriving DecidableEq

structure Target where
  kind : Kind
  id : String
  deriving DecidableEq

/-- What a text in Redis stands for: the JSON text of a list or of null, or the
value of a lock, which is no JSON text. -/
inductive Cached
  | roles (roles : Roles)
  | null
  | lock (lockValue : ℕ)
  deriving DecidableEq

def encode : Option Roles → Cached
  | some roles => .roles roles
  | none => .null

def l1CacheTtlMs : ℕ := 10 * 1000

def l1MaxSize : ℕ := 10000

def l2CacheTtlSec : ℕ := 3600

def cacheKey (target : Target) : String :=
  (match target.kind with
  | .user => "auth:user:"
  | .permission => "auth:perm:") ++ target.id ++ ":roles"

/-- The options of `getUserGlobalRoles` and `getRolesForPermission`. -/
def cacheOptions : Kind → GetOrSetOptions
  | .user => { ttl := l2CacheTtlSec, ttlJitter := 60, lockTtl := 5 }
  | .permission => { ttl := l2CacheTtlSec * 24, ttlJitter := 300, lockTtl := 5 }

/-- Where a read is; `finishing` holds the parsed result. -/
inductive Progress
  | reading (phase : GetOrSet.Phase Cached Roles)
  | getting
  | finishing (roles : Option Roles)
  | returned (roles : Roles)
  | threw

structure Call where
  site : ℕ
  target : Target
  startedAt : ℕ
  progress : Progress

/-- `l1` holds the memory caches of the instances, `dataSource` tells which of
them have a data source, and `deletions` the targets whose `DEL` has been sent
and not executed. -/
structure State where
  now : ℕ
  redis : TtlStore.Store String Cached
  source : Target → Roles
  dataSource : ℕ → Bool
  l1 : ℕ × Kind → LRUCache ℕ Roles
  calls : ℕ → Option Call
  deletions : List Target

def State.initial (now : ℕ) (redis : TtlStore.Store String Cached)
    (source : Target → Roles) (dataSource : ℕ → Bool) : State where
  now := now
  redis := redis
  source := source
  dataSource := dataSource
  l1 := fun _ => ⟨l1MaxSize, .empty⟩
  calls := fun _ => none
  deletions := []

/-- `change` is a change of the roles in the data source, `finish` the part of a
read that follows its result. -/
inductive Event
  | change (target : Target) (roles : Roles)
  | call (id site : ℕ) (target : Target)
  | read (id : ℕ) (action : GetOrSet.Action Cached)
  | finish (id : ℕ)
  | invalidate (site : ℕ) (target : Target)
  | del (target : Target) (reply : Reply)
  | tick (ms : ℕ)

/-- `JSON.parse` of an entry. -/
def parse : Cached → Progress
  | .roles roles => .finishing (some roles)
  | .null => .finishing none
  | .lock _ => .threw

def continueRead : GetOrSet.Phase Cached Roles → Progress
  | .returned (.cached rawCachedValue) => parse rawCachedValue
  | .returned (.fetched value) => .finishing value
  | .returned .gaveUp => .finishing none
  | .returned .threw => .threw
  | phase => .reading phase

/-- A read without a data source after its `GET`. -/
def continueGet (reply : Reply) (entry : Option Cached) : Progress :=
  match reply, entry with
  | .ok, some rawCachedValue => parse rawCachedValue
  | .ok, none => .finishing none
  | _, _ => .threw

/-- A read after it has looked into the memory of its instance. -/
def startRead (l1 : Option Roles) (dataSource : Bool) : Progress :=
  match l1 with
  | some roles => .returned roles
  | none => if dataSource then .reading .getting else .getting

def step (state : State) : Event → Option State
  | .change target roles =>
      some { state with source := Function.update state.source target roles }
  | .call id site target =>
      if (state.calls id).isNone then
        let result := (state.l1 (site, target.kind)).get state.now target.id
        some { state with
          l1 := Function.update state.l1 (site, target.kind) result.2
          calls := Function.update state.calls id (some ⟨site, target, state.now,
            startRead result.1 (state.dataSource site)⟩) }
      else none
  | .read id action =>
      match state.calls id with
      | some ⟨site, target, startedAt, .reading phase⟩ =>
          (GetOrSet.step (cacheOptions target.kind) encode (cacheKey target)
            (some (state.source target)) state.now state.redis phase action).map
              fun (redis, phase) => { state with
                redis := redis
                calls := Function.update state.calls id
                  (some ⟨site, target, startedAt, continueRead phase⟩) }
      | some ⟨site, target, startedAt, .getting⟩ =>
          match action with
          | .get reply =>
              some { state with
                calls := Function.update state.calls id
                  (some ⟨site, target, startedAt, continueGet reply
                    (TtlStore.get state.redis (cacheKey target))⟩) }
          | _ => none
      | _ => none
  | .finish id =>
      match state.calls id with
      | some ⟨site, target, startedAt, .finishing roles⟩ =>
          let finalRoles := roles.getD []
          some { state with
            l1 := Function.update state.l1 (site, target.kind)
              ((state.l1 (site, target.kind)).set state.now target.id finalRoles
                l1CacheTtlMs)
            calls := Function.update state.calls id
              (some ⟨site, target, startedAt, .returned finalRoles⟩) }
      | _ => none
  | .invalidate site target =>
      some { state with
        l1 := Function.update state.l1 (site, target.kind)
          ((state.l1 (site, target.kind)).delete target.id)
        deletions := target :: state.deletions }
  | .del target reply =>
      if target ∈ state.deletions then
        some { state with
          redis := if reply.took then TtlStore.del state.redis (cacheKey target)
            else state.redis
          deletions := state.deletions.erase target }
      else none
  | .tick ms =>
      some { state with
        now := state.now + ms
        redis := TtlStore.sweep state.redis (state.now + ms) }

/-! ## Inversion -/

/-- What an enabled event does. -/
inductive Effect (state : State) : Event → State → Prop
  | change {target roles} :
      Effect state (.change target roles)
        { state with source := Function.update state.source target roles }
  | call {id site target} (hnone : state.calls id = none) :
      Effect state (.call id site target) { state with
        l1 := Function.update state.l1 (site, target.kind)
          ((state.l1 (site, target.kind)).get state.now target.id).2
        calls := Function.update state.calls id (some ⟨site, target, state.now,
          startRead ((state.l1 (site, target.kind)).get state.now target.id).1
            (state.dataSource site)⟩) }
  | read {id action site target startedAt phase redis phase'}
      (hcall : state.calls id = some ⟨site, target, startedAt, .reading phase⟩)
      (hread : GetOrSet.step (cacheOptions target.kind) encode (cacheKey target)
        (some (state.source target)) state.now state.redis phase action =
          some (redis, phase')) :
      Effect state (.read id action) { state with
        redis := redis
        calls := Function.update state.calls id
          (some ⟨site, target, startedAt, continueRead phase'⟩) }
  | get {id reply site target startedAt}
      (hcall : state.calls id = some ⟨site, target, startedAt, .getting⟩) :
      Effect state (.read id (.get reply)) { state with
        calls := Function.update state.calls id
          (some ⟨site, target, startedAt, continueGet reply
            (TtlStore.get state.redis (cacheKey target))⟩) }
  | finish {id site target startedAt roles}
      (hcall : state.calls id =
        some ⟨site, target, startedAt, .finishing roles⟩) :
      Effect state (.finish id) { state with
        l1 := Function.update state.l1 (site, target.kind)
          ((state.l1 (site, target.kind)).set state.now target.id
            (roles.getD []) l1CacheTtlMs)
        calls := Function.update state.calls id
          (some ⟨site, target, startedAt, .returned (roles.getD [])⟩) }
  | invalidate {site target} :
      Effect state (.invalidate site target) { state with
        l1 := Function.update state.l1 (site, target.kind)
          ((state.l1 (site, target.kind)).delete target.id)
        deletions := target :: state.deletions }
  | del {target reply} (hmem : target ∈ state.deletions) :
      Effect state (.del target reply) { state with
        redis := if reply.took then TtlStore.del state.redis (cacheKey target)
          else state.redis
        deletions := state.deletions.erase target }
  | tick {ms} :
      Effect state (.tick ms) { state with
        now := state.now + ms
        redis := TtlStore.sweep state.redis (state.now + ms) }

theorem effect_of_step {state next : State} {event : Event}
    (hstep : step state event = some next) : Effect state event next := by
  unfold step at hstep
  split at hstep
  case h_1 target roles =>
    obtain rfl := Option.some.inj hstep
    exact .change
  case h_2 id site target =>
    obtain ⟨hnone, heq⟩ := Option.ite_none_right_eq_some.mp hstep
    obtain rfl := Option.some.inj heq
    exact .call (Option.isNone_iff_eq_none.mp hnone)
  case h_3 id action =>
    split at hstep
    · rename_i site target startedAt phase hcall
      obtain ⟨⟨redis, phase'⟩, hread, rfl⟩ := Option.map_eq_some_iff.mp hstep
      exact .read hcall hread
    · rename_i site target startedAt hcall
      split at hstep
      · obtain rfl := Option.some.inj hstep
        exact .get hcall
      · cases hstep
    · cases hstep
  case h_4 id =>
    split at hstep
    · rename_i site target startedAt roles hcall
      obtain rfl := Option.some.inj hstep
      exact .finish hcall
    · cases hstep
  case h_5 site target =>
    obtain rfl := Option.some.inj hstep
    exact .invalidate
  case h_6 target reply =>
    obtain ⟨hmem, heq⟩ := Option.ite_none_right_eq_some.mp hstep
    obtain rfl := Option.some.inj heq
    exact .del hmem
  case h_7 ms =>
    obtain rfl := Option.some.inj hstep
    exact .tick

/-! ## Keys -/

/-- The entry of a target is never a lock. -/
theorem cacheKey_ne_lockKey (target other : Target) :
    cacheKey target ≠ GetOrSet.lockKey (cacheKey other) := by
  intro heq
  have hlast := congrArg (fun text => text.toList.getLast?) heq
  simp [cacheKey, GetOrSet.lockKey] at hlast

end OceanChat.Authorization
