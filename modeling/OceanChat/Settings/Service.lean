import OceanChat.Core.Runs
import OceanChat.Redis.GetOrSet
import OceanChat.Settings.Codec

/-!
# The settings service

Any number of `getSettingValue` and `setSettingValue` calls and pre-warmings of
any number of instances share one Redis and one database.  A write deletes the
entry of its key without waiting for the deletion, and a pre-warming writes what
it has read from the database with one `MSET` and then one `EXPIRE` a key.
-/

namespace OceanChat.Settings

open GetOrSet (GetOrSetOptions)
open Runs (run)

def cacheOptions : GetOrSetOptions where
  ttl := 3600
  nullTtl := 300
  lockTtl := 10
  lockWaitTime := 100
  ttlJitter := 300

/-- The text that `getOrSet` stores, where `none` is null. -/
def encode (value : Option Value) : Text :=
  valueToStore (value.getD (.json .null))

/-- Where a `getSettingValue` call is; null is a JSON value. -/
inductive Progress
  | reading (attempt : ℕ) (phase : GetOrSet.Phase Text Value)
  | waiting (attempt wakesAt : ℕ)
  | returned (value : Value)
  | threw

structure Call where
  key : String
  retries : ℕ
  delay : ℕ
  progress : Progress

/-- A pre-warming that has read the settings, and the keys that still wait for
their lifetime. -/
inductive Warming
  | found (allSettings : Database)
  | expiring (keysToSetTTL : List String)

/-- `deletions` holds the keys whose `DEL` has been sent and not executed. -/
structure State where
  now : ℕ
  redis : TtlStore.Store String Text
  database : Database
  calls : ℕ → Option Call
  deletions : List String
  warmings : ℕ → Option Warming

def State.initial (now : ℕ) (redis : TtlStore.Store String Text)
    (database : Database) : State where
  now := now
  redis := redis
  database := database
  calls := fun _ => none
  deletions := []
  warmings := fun _ => none

/-- `upsert` is the database command of `setSettingValue`, `createIfNotExists`
that of the seeding. -/
inductive Event
  | call (id : ℕ) (key : String) (retries delay : ℕ)
  | read (id : ℕ) (action : GetOrSet.Action Text)
  | wake (id : ℕ)
  | upsert (key : String) (value : SettingValue) (reply : Reply)
  | del (key : String) (reply : Reply)
  | createIfNotExists (key : String) (value : SettingValue)
  | find (id : ℕ)
  | mset (id : ℕ) (reply : Reply)
  | expire (id : ℕ) (key : String) (jitter : ℕ) (reply : Reply)
  | tick (ms : ℕ)

/-- The head of the retry loop. -/
def startAttempt (retries attempt : ℕ) : Progress :=
  if attempt < retries then .reading attempt .getting
  else .returned (.json .null)

/-- The body of the retry loop after a step of its `getOrSet`. -/
def continueAttempt (delay now attempt : ℕ) :
    GetOrSet.Phase Text Value → Progress
  | .returned (.cached rawCachedValue) =>
      .returned (readResult (.json (.string rawCachedValue)))
  | .returned (.fetched (some value)) => .returned (readResult value)
  | .returned (.fetched none) | .returned .gaveUp =>
      .waiting attempt (now + delay * (attempt + 1))
  | .returned .threw => .threw
  | phase => .reading attempt phase

/-- The call has come to its next command, and Redis holds `redis`. -/
def State.advance (state : State) (id : ℕ) (redis : TtlStore.Store String Text)
    (call : Call) : State :=
  { state with
    redis := redis
    calls := Function.update state.calls id (some call) }

section Advance

variable (state : State) (id : ℕ) (redis redis' : TtlStore.Store String Text)
variable (call call' : Call)

@[simp]
theorem State.advance_now : (state.advance id redis call).now = state.now := rfl

@[simp]
theorem State.advance_redis : (state.advance id redis call).redis = redis := rfl

@[simp]
theorem State.advance_database :
    (state.advance id redis call).database = state.database := rfl

@[simp]
theorem State.advance_calls_same :
    (state.advance id redis call).calls id = some call := by
  simp [State.advance]

theorem State.advance_calls_of_ne {other : ℕ} (hne : other ≠ id) :
    (state.advance id redis call).calls other = state.calls other :=
  Function.update_of_ne hne _ _

@[simp]
theorem State.advance_advance :
    (state.advance id redis call).advance id redis' call' =
      state.advance id redis' call' := by
  simp [State.advance]

end Advance

def step (state : State) : Event → Option State
  | .call id key retries delay =>
      if (state.calls id).isNone then
        some (state.advance id state.redis
          ⟨key, retries, delay, startAttempt retries 0⟩)
      else none
  | .read id action =>
      match state.calls id with
      | some ⟨key, retries, delay, .reading attempt phase⟩ =>
          (GetOrSet.step cacheOptions encode (getCacheKey key)
            ((state.database.lookup key).map SettingValue.value) state.now
            state.redis phase action).map fun (redis, phase) =>
              state.advance id redis
                ⟨key, retries, delay, continueAttempt delay state.now attempt phase⟩
      | _ => none
  | .wake id =>
      match state.calls id with
      | some ⟨key, retries, delay, .waiting attempt wakesAt⟩ =>
          if wakesAt ≤ state.now then
            some (state.advance id state.redis
              ⟨key, retries, delay, startAttempt retries (attempt + 1)⟩)
          else none
      | _ => none
  | .upsert key value reply =>
      some { state with
        database := if reply.took then state.database.insert key value
          else state.database
        deletions := if reply = .ok then key :: state.deletions
          else state.deletions }
  | .del key reply =>
      if key ∈ state.deletions then
        some { state with
          redis := if reply.took then TtlStore.del state.redis (getCacheKey key)
            else state.redis
          deletions := state.deletions.erase key }
      else none
  | .createIfNotExists key value =>
      some { state with
        database := if (state.database.lookup key).isNone then
            state.database.insert key value
          else state.database }
  | .find id =>
      if (state.warmings id).isNone then
        some { state with
          warmings := Function.update state.warmings id
            (some (if state.database.entries = [] then .expiring []
              else .found state.database)) }
      else none
  | .mset id reply =>
      match state.warmings id with
      | some (.found allSettings) =>
          some { state with
            redis := if reply.took then
                TtlStore.mset state.redis (msetPayload allSettings)
              else state.redis
            warmings := Function.update state.warmings id
              (some (.expiring (if reply = .ok then
                (msetPayload allSettings).map Prod.fst else []))) }
      | _ => none
  | .expire id key jitter reply =>
      match state.warmings id with
      | some (.expiring keysToSetTTL) =>
          if key ∈ keysToSetTTL ∧ jitter < 300 then
            some { state with
              redis := if reply.took then
                  TtlStore.expire state.redis key
                    (some (state.now + (cacheOptions.ttl + jitter) * 1000))
                else state.redis
              warmings := Function.update state.warmings id
                (some (.expiring (keysToSetTTL.erase key))) }
          else none
      | _ => none
  | .tick ms =>
      some { state with
        now := state.now + ms
        redis := TtlStore.sweep state.redis (state.now + ms) }

/-! ## Inversion -/

/-- What an enabled event does. -/
inductive Effect (state : State) : Event → State → Prop
  | call {id key retries delay} (hnone : state.calls id = none) :
      Effect state (.call id key retries delay)
        (state.advance id state.redis
          ⟨key, retries, delay, startAttempt retries 0⟩)
  | read {id action key retries delay attempt phase redis phase'}
      (hcall : state.calls id =
        some ⟨key, retries, delay, .reading attempt phase⟩)
      (hread : GetOrSet.step cacheOptions encode (getCacheKey key)
        ((state.database.lookup key).map SettingValue.value) state.now state.redis
        phase action = some (redis, phase')) :
      Effect state (.read id action)
        (state.advance id redis
          ⟨key, retries, delay, continueAttempt delay state.now attempt phase'⟩)
  | wake {id key retries delay attempt wakesAt}
      (hcall : state.calls id =
        some ⟨key, retries, delay, .waiting attempt wakesAt⟩)
      (hwakes : wakesAt ≤ state.now) :
      Effect state (.wake id) (state.advance id state.redis
        ⟨key, retries, delay, startAttempt retries (attempt + 1)⟩)
  | upsert {key value reply} :
      Effect state (.upsert key value reply) { state with
        database := if reply.took then state.database.insert key value
          else state.database
        deletions := if reply = .ok then key :: state.deletions
          else state.deletions }
  | del {key reply} (hmem : key ∈ state.deletions) :
      Effect state (.del key reply) { state with
        redis := if reply.took then TtlStore.del state.redis (getCacheKey key)
          else state.redis
        deletions := state.deletions.erase key }
  | createIfNotExists {key value} :
      Effect state (.createIfNotExists key value) { state with
        database := if (state.database.lookup key).isNone then
            state.database.insert key value
          else state.database }
  | find {id} (hnone : state.warmings id = none) :
      Effect state (.find id) { state with
        warmings := Function.update state.warmings id
          (some (if state.database.entries = [] then .expiring []
            else .found state.database)) }
  | mset {id reply allSettings}
      (hwarming : state.warmings id = some (.found allSettings)) :
      Effect state (.mset id reply) { state with
        redis := if reply.took then
            TtlStore.mset state.redis (msetPayload allSettings)
          else state.redis
        warmings := Function.update state.warmings id
          (some (.expiring (if reply = .ok then
            (msetPayload allSettings).map Prod.fst else []))) }
  | expire {id key jitter reply keysToSetTTL}
      (hwarming : state.warmings id = some (.expiring keysToSetTTL))
      (hmem : key ∈ keysToSetTTL) (hjitter : jitter < 300) :
      Effect state (.expire id key jitter reply) { state with
        redis := if reply.took then
            TtlStore.expire state.redis key
              (some (state.now + (cacheOptions.ttl + jitter) * 1000))
          else state.redis
        warmings := Function.update state.warmings id
          (some (.expiring (keysToSetTTL.erase key))) }
  | tick {ms} :
      Effect state (.tick ms) { state with
        now := state.now + ms
        redis := TtlStore.sweep state.redis (state.now + ms) }

theorem effect_of_step {state next : State} {event : Event}
    (hstep : step state event = some next) : Effect state event next := by
  unfold step at hstep
  split at hstep
  case h_1 id key retries delay =>
    obtain ⟨hnone, heq⟩ := Option.ite_none_right_eq_some.mp hstep
    obtain rfl := Option.some.inj heq
    exact .call (Option.isNone_iff_eq_none.mp hnone)
  case h_2 id action =>
    split at hstep
    · rename_i key retries delay attempt phase hcall
      obtain ⟨⟨redis, phase'⟩, hread, rfl⟩ := Option.map_eq_some_iff.mp hstep
      exact .read hcall hread
    · cases hstep
  case h_3 id =>
    split at hstep
    · rename_i key retries delay attempt wakesAt hcall
      obtain ⟨hwakes, heq⟩ := Option.ite_none_right_eq_some.mp hstep
      obtain rfl := Option.some.inj heq
      exact .wake hcall hwakes
    · cases hstep
  case h_4 key value reply =>
    obtain rfl := Option.some.inj hstep
    exact .upsert
  case h_5 key reply =>
    obtain ⟨hmem, heq⟩ := Option.ite_none_right_eq_some.mp hstep
    obtain rfl := Option.some.inj heq
    exact .del hmem
  case h_6 key value =>
    obtain rfl := Option.some.inj hstep
    exact .createIfNotExists
  case h_7 id =>
    obtain ⟨hnone, heq⟩ := Option.ite_none_right_eq_some.mp hstep
    obtain rfl := Option.some.inj heq
    exact .find (Option.isNone_iff_eq_none.mp hnone)
  case h_8 id reply =>
    split at hstep
    · rename_i allSettings hwarming
      obtain rfl := Option.some.inj hstep
      exact .mset hwarming
    · cases hstep
  case h_9 id key jitter reply =>
    split at hstep
    · rename_i keysToSetTTL hwarming
      obtain ⟨⟨hmem, hjitter⟩, heq⟩ := Option.ite_none_right_eq_some.mp hstep
      obtain rfl := Option.some.inj heq
      exact .expire hwarming hmem hjitter
    · cases hstep
  case h_10 ms =>
    obtain rfl := Option.some.inj hstep
    exact .tick

/-! ## Calls by themselves -/

theorem get_mset (redis : TtlStore.Store String Text)
    (payload : List (String × Text)) :
    TtlStore.get (TtlStore.mset redis payload) = mset (TtlStore.get redis) payload := by
  induction payload generalizing redis with
  | nil => rfl
  | cons pair payload ih =>
      rw [TtlStore.mset, List.foldl_cons, ← TtlStore.mset, ih, TtlStore.get_put]
      rfl

/-- The pre-warming writes the setting that it has found. -/
theorem get_mset_msetPayload (redis : TtlStore.Store String Text)
    (allSettings : Database) (key : String) :
    TtlStore.get (TtlStore.mset redis (msetPayload allSettings)) (getCacheKey key) =
      ((allSettings.lookup key).map fun setting =>
        valueToCache setting.value).or (TtlStore.get redis (getCacheKey key)) := by
  rw [get_mset]
  cases hlookup : allSettings.lookup key with
  | none => exact loadAllSettingsToCache_of_none hlookup
  | some setting => exact loadAllSettingsToCache_of_lookup hlookup

section Alone

variable {state : State} {id retries delay attempt jitter : ℕ} {key : String}
variable {setting : SettingValue} {lockValue : Text}
variable {redis : TtlStore.Store String Text}
variable {phase phase' : GetOrSet.Phase Text Value}

theorem continueAttempt_of_not_returned (now : ℕ)
    (hphase : ∀ outcome, phase ≠ .returned outcome) :
    continueAttempt delay now attempt phase = .reading attempt phase := by
  cases phase with
  | returned outcome => exact absurd rfl (hphase outcome)
  | _ => rfl

/-- A `getSettingValue` call takes the steps of its `getOrSet`. -/
theorem run_reads {action : GetOrSet.Action Text}
    {actions : List (GetOrSet.Action Text)}
    (hcall : state.calls id = some ⟨key, retries, delay, .reading attempt phase⟩)
    (hrun : GetOrSet.runAlone cacheOptions encode (getCacheKey key)
      ((state.database.lookup key).map SettingValue.value) state.now
      (state.redis, phase) (action :: actions) = some (redis, phase')) :
    run step state ((action :: actions).map (.read id)) =
      some (state.advance id redis ⟨key, retries, delay,
        continueAttempt delay state.now attempt phase'⟩) := by
  induction actions generalizing state phase action with
  | nil =>
      obtain ⟨⟨redis', phase''⟩, hstep, hnil⟩ := Runs.run_cons_eq_some.mp hrun
      obtain ⟨rfl, rfl⟩ := Prod.mk.inj (Option.some.inj hnil)
      simp only at hstep
      simp [run, step, hcall, hstep]
  | cons next actions ih =>
      obtain ⟨⟨redis', phase''⟩, hstep, hrest⟩ := Runs.run_cons_eq_some.mp hrun
      obtain ⟨⟨later, phaseLater⟩, hnext, -⟩ := Runs.run_cons_eq_some.mp hrest
      have hcontinue : continueAttempt delay state.now attempt phase'' =
          .reading attempt phase'' :=
        continueAttempt_of_not_returned _ (GetOrSet.not_returned_of_step hnext)
      simp only at hstep
      have hread : step state (.read id action) =
          some (state.advance id redis' ⟨key, retries, delay,
            .reading attempt phase''⟩) := by
        simp [step, hcall, hstep, hcontinue]
      refine Runs.run_cons_eq_some.mpr ⟨_, hread, ?_⟩
      rw [ih (State.advance_calls_same _ _ _ _) hrest, State.advance_advance]
      rfl

/-- The first attempt of a call and the steps of its `getOrSet`. -/
theorem run_call {action : GetOrSet.Action Text}
    {actions : List (GetOrSet.Action Text)} (hnone : state.calls id = none)
    (hrun : GetOrSet.runAlone cacheOptions encode (getCacheKey key)
      ((state.database.lookup key).map SettingValue.value) state.now
      (state.redis, .getting) (action :: actions) = some (redis, phase')) :
    run step state (.call id key (retries + 1) delay ::
        (action :: actions).map (.read id)) =
      some (state.advance id redis ⟨key, retries + 1, delay,
        continueAttempt delay state.now 0 phase'⟩) := by
  have hcalled : step state (.call id key (retries + 1) delay) =
      some (state.advance id state.redis
        ⟨key, retries + 1, delay, .reading 0 .getting⟩) := by
    simp [step, hnone, startAttempt]
  refine Runs.run_cons_eq_some.mpr ⟨_, hcalled, ?_⟩
  rw [run_reads (State.advance_calls_same _ _ _ _) hrun, State.advance_advance]
  rfl

/-- The steps of a call that no other call disturbs. -/
def aloneRun (state : State) (id : ℕ) (key : String) (retries delay jitter : ℕ)
    (lockValue : Text) : List Event :=
  .call id key retries delay ::
    (if (TtlStore.get state.redis (getCacheKey key)).isSome then [.get .ok]
    else [.get .ok, .setnx lockValue .ok, .fetch jitter .ok, .set .ok,
      .release .ok]).map (.read id)

/-- A call by itself returns and caches what `getSettingValue` does. -/
theorem run_aloneRun (hnone : state.calls id = none)
    (hlock : state.redis (GetOrSet.lockKey (getCacheKey key)) = none)
    (hlookup : state.database.lookup key = some setting)
    (hjitter : jitter < cacheOptions.ttlJitter) :
    ∃ final, run step state
        (aloneRun state id key (retries + 1) delay jitter lockValue) = some final ∧
      final.calls id = some ⟨key, retries + 1, delay, .returned
        (getSettingValue state.database key (retries + 1)
          (TtlStore.get state.redis)).1⟩ ∧
      TtlStore.get final.redis (getCacheKey key) =
        (getSettingValue state.database key (retries + 1)
          (TtlStore.get state.redis)).2 (getCacheKey key) := by
  cases hentry : TtlStore.get state.redis (getCacheKey key) with
  | some rawCachedValue =>
      rw [getSettingValue_of_hit retries hentry]
      refine ⟨state.advance id state.redis ⟨key, retries + 1, delay,
        .returned (readResult (.json (.string rawCachedValue)))⟩, ?_,
        State.advance_calls_same _ _ _ _, rfl⟩
      rw [aloneRun, hentry]
      exact run_call hnone (GetOrSet.runAlone_hit hentry)
  | none =>
      obtain ⟨redis, hmiss, hstored⟩ :
          ∃ redis, GetOrSet.runAlone cacheOptions encode (getCacheKey key)
              ((state.database.lookup key).map SettingValue.value) state.now
              (state.redis, .getting) [.get .ok, .setnx lockValue .ok,
                .fetch jitter .ok, .set .ok, .release .ok] =
                some (redis, .returned (.fetched (some setting.value))) ∧
            TtlStore.get redis (getCacheKey key) =
              some (valueToStore setting.value) := by
        rw [hlookup]
        exact GetOrSet.runAlone_miss hentry hlock hjitter (by decide)
      rw [getSettingValue_of_miss retries hentry hlookup]
      refine ⟨state.advance id redis ⟨key, retries + 1, delay,
        .returned (readResult setting.value)⟩, ?_,
        State.advance_calls_same _ _ _ _, ?_⟩
      · rw [aloneRun, hentry]
        exact run_call hnone hmiss
      · simpa using hstored

end Alone

end OceanChat.Settings
