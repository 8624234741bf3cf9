import OceanChat.Common.AppException
import OceanChat.Core.Runs
import OceanChat.Core.TtlStore

/-!
# `RedisService.getOrSet`

A read through the cache: on a miss the call that gets the lock fetches the
value and stores it, and every other call waits and looks again.  One step of a
call executes the command it awaits and continues up to its next `await`; the
steps that read the clock after a reply are steps of their own.
-/

namespace OceanChat.GetOrSet

variable {Raw Value : Type*}

/-- Lifetimes are in seconds, `lockWaitTime` is in milliseconds. -/
structure GetOrSetOptions where
  ttl : ℕ
  nullTtl : ℕ := 300
  lockTtl : ℕ := 10
  lockWaitTime : ℕ := 100
  ttlJitter : ℕ := 0

/-- How a call ends: with an entry as it is stored, with what the fetcher
returned (`none` for null), with null after waiting for the lock in vain, or
with an error. -/
inductive Outcome (Raw Value : Type*)
  | cached (rawCachedValue : Raw)
  | fetched (value : Option Value)
  | gaveUp
  | threw

/-- What a call awaits.  `refused` has lost the lock and `retried` has looked
again; both come to the condition of the loop next. -/
inductive Phase (Raw Value : Type*)
  | getting
  | acquiring
  | fetching (lockValue : Raw)
  | storing (lockValue : Raw) (valueToCache : Option Value) (effectiveTtl : ℕ)
  | releasing (lockValue : Raw) (outcome : Outcome Raw Value)
  | refused
  | sleeping (startTime wakesAt : ℕ)
  | retried (startTime : ℕ) (retryValue : Option Raw)
  | returned (outcome : Outcome Raw Value)

/-- `jitter` is what `Math.random` adds to the lifetime. -/
inductive Action (Raw : Type*)
  | get (reply : Reply)
  | setnx (lockValue : Raw) (reply : Reply)
  | fetch (jitter : ℕ) (reply : Reply)
  | set (reply : Reply)
  | release (reply : Reply)
  | retry (reply : Reply)
  | resume

def lockKey (key : String) : String := key ++ ":lock"

theorem lockKey_ne (key : String) : lockKey key ≠ key := by
  intro heq
  have hlength := congrArg String.length heq
  simp [lockKey] at hlength

/-- The condition of the wait loop, after `Date.now()`. -/
def loop (options : GetOrSetOptions) (now startTime : ℕ) : Phase Raw Value :=
  if now - startTime < options.lockTtl * 800 then
    .sleeping startTime (now + options.lockWaitTime)
  else .returned .gaveUp

def effectiveTtl (options : GetOrSetOptions) (jitter : ℕ) :
    Option Value → ℕ
  | some _ => options.ttl + jitter
  | none => options.nullTtl

def afterFetch (options : GetOrSetOptions) (lockValue : Raw) (jitter : ℕ)
    (value : Option Value) : Phase Raw Value :=
  if 0 < effectiveTtl options jitter value then
    .storing lockValue value (effectiveTtl options jitter value)
  else .releasing lockValue (.fetched value)

/-- One step of a call for `key`; `source` is what the data source holds. -/
def step [DecidableEq Raw] (options : GetOrSetOptions) (encode : Option Value → Raw)
    (key : String) (source : Option Value) (now : ℕ)
    (redis : TtlStore.Store String Raw) :
    Phase Raw Value → Action Raw →
      Option (TtlStore.Store String Raw × Phase Raw Value)
  | .getting, .get reply =>
      some (redis, match reply, TtlStore.get redis key with
        | .ok, some rawCachedValue => .returned (.cached rawCachedValue)
        | .ok, none => .acquiring
        | _, _ => .returned .threw)
  | .acquiring, .setnx lockValue reply =>
      let result := TtlStore.setnx redis (lockKey key) lockValue
        (some (now + options.lockTtl * 1000))
      some (if reply.took then result.1 else redis, match reply, result.2 with
        | .ok, true => .fetching lockValue
        | .ok, false => .refused
        | _, _ => .returned .threw)
  | .fetching lockValue, .fetch jitter reply =>
      if jitter = 0 ∨ jitter < options.ttlJitter then
        some (redis, match reply with
          | .ok => afterFetch options lockValue jitter source
          | _ => .releasing lockValue .threw)
      else none
  | .storing lockValue valueToCache ttl, .set reply =>
      some (if reply.took then
          TtlStore.put redis key (encode valueToCache) (some (now + ttl * 1000))
        else redis,
        .releasing lockValue (match reply with
          | .ok => .fetched valueToCache
          | _ => .threw))
  | .releasing lockValue outcome, .release reply =>
      some (if reply.took then TtlStore.delIfEqual redis (lockKey key) lockValue
        else redis, .returned outcome)
  | .refused, .resume => some (redis, loop options now now)
  | .sleeping startTime wakesAt, .retry reply =>
      if wakesAt ≤ now then
        some (redis, .retried startTime (match reply with
          | .ok => TtlStore.get redis key
          | _ => none))
      else none
  | .retried _ (some retryValue), .resume =>
      some (redis, .returned (.cached retryValue))
  | .retried startTime none, .resume => some (redis, loop options now startTime)
  | _, _ => none

/-- The text that a step writes under `other`, the key itself or its lock. -/
def writes (encode : Option Value → Raw) (key other : String)
    (redis : TtlStore.Store String Raw) :
    Phase Raw Value → Action Raw → Option Raw
  | .acquiring, .setnx lockValue reply =>
      if other = lockKey key ∧ reply.took = true ∧ redis other = none then
        some lockValue
      else none
  | .storing _ valueToCache _, .set reply =>
      if other = key ∧ reply.took = true then some (encode valueToCache) else none
  | _, _ => none

/-! ## What a step does -/

section Steps

variable [DecidableEq Raw] {options : GetOrSetOptions} {encode : Option Value → Raw}
variable {key other : String} {source : Option Value} {now : ℕ}
variable {redis redis' : TtlStore.Store String Raw}
variable {phase phase' : Phase Raw Value} {action : Action Raw}

/-- What an enabled step does, one case for each way in which its command can
end. -/
inductive Effect (options : GetOrSetOptions) (encode : Option Value → Raw)
    (key : String) (source : Option Value) (now : ℕ)
    (redis : TtlStore.Store String Raw) :
    Phase Raw Value → Action Raw → TtlStore.Store String Raw → Phase Raw Value → Prop
  | hit {rawCachedValue} (hget : TtlStore.get redis key = some rawCachedValue) :
      Effect options encode key source now redis .getting (.get .ok) redis
        (.returned (.cached rawCachedValue))
  | miss (hget : TtlStore.get redis key = none) :
      Effect options encode key source now redis .getting (.get .ok) redis .acquiring
  | getFailed {reply} (hreply : reply ≠ .ok) :
      Effect options encode key source now redis .getting (.get reply) redis
        (.returned .threw)
  | acquired {lockValue} (hfree : (TtlStore.setnx redis (lockKey key) lockValue
        (some (now + options.lockTtl * 1000))).2 = true) :
      Effect options encode key source now redis .acquiring (.setnx lockValue .ok)
        (TtlStore.setnx redis (lockKey key) lockValue
          (some (now + options.lockTtl * 1000))).1 (.fetching lockValue)
  | refused {lockValue} (htaken : (TtlStore.setnx redis (lockKey key) lockValue
        (some (now + options.lockTtl * 1000))).2 = false) :
      Effect options encode key source now redis .acquiring (.setnx lockValue .ok)
        (TtlStore.setnx redis (lockKey key) lockValue
          (some (now + options.lockTtl * 1000))).1 .refused
  | setnxFailed {lockValue reply} (hreply : reply ≠ .ok) :
      Effect options encode key source now redis .acquiring (.setnx lockValue reply)
        (if reply.took then (TtlStore.setnx redis (lockKey key) lockValue
            (some (now + options.lockTtl * 1000))).1
          else redis) (.returned .threw)
  | fetched {lockValue jitter} :
      Effect options encode key source now redis (.fetching lockValue)
        (.fetch jitter .ok) redis (afterFetch options lockValue jitter source)
  | fetchFailed {lockValue jitter reply} (hreply : reply ≠ .ok) :
      Effect options encode key source now redis (.fetching lockValue)
        (.fetch jitter reply) redis (.releasing lockValue .threw)
  | stored {lockValue valueToCache ttl} :
      Effect options encode key source now redis (.storing lockValue valueToCache ttl)
        (.set .ok)
        (TtlStore.put redis key (encode valueToCache) (some (now + ttl * 1000)))
        (.releasing lockValue (.fetched valueToCache))
  | setFailed {lockValue valueToCache ttl reply} (hreply : reply ≠ .ok) :
      Effect options encode key source now redis (.storing lockValue valueToCache ttl)
        (.set reply)
        (if reply.took then
            TtlStore.put redis key (encode valueToCache) (some (now + ttl * 1000))
          else redis) (.releasing lockValue .threw)
  | released {lockValue outcome reply} :
      Effect options encode key source now redis (.releasing lockValue outcome)
        (.release reply)
        (if reply.took then TtlStore.delIfEqual redis (lockKey key) lockValue
          else redis) (.returned outcome)
  | waits :
      Effect options encode key source now redis .refused .resume redis
        (loop options now now)
  | retried {startTime wakesAt} (hwakes : wakesAt ≤ now) :
      Effect options encode key source now redis (.sleeping startTime wakesAt)
        (.retry .ok) redis (.retried startTime (TtlStore.get redis key))
  | retryFailed {startTime wakesAt reply} (hreply : reply ≠ .ok) :
      Effect options encode key source now redis (.sleeping startTime wakesAt)
        (.retry reply) redis (.retried startTime none)
  | found {startTime retryValue} :
      Effect options encode key source now redis (.retried startTime (some retryValue))
        .resume redis (.returned (.cached retryValue))
  | waitsOn {startTime} :
      Effect options encode key source now redis (.retried startTime none) .resume
        redis (loop options now startTime)

theorem effect_of_step
    (hstep : step options encode key source now redis phase action =
      some (redis', phase')) :
    Effect options encode key source now redis phase action redis' phase' := by
  unfold step at hstep
  split at hstep
  case h_1 reply =>
    obtain ⟨rfl, rfl⟩ := Prod.mk.inj (Option.some.inj hstep)
    split
    · rename_i rawCachedValue hget
      exact .hit hget
    · rename_i hget
      exact .miss hget
    · rename_i hhit hmiss
      refine .getFailed fun hok => ?_
      cases hget : TtlStore.get redis key with
      | none => exact hmiss hok hget
      | some rawCachedValue => exact hhit rawCachedValue hok hget
  case h_2 lockValue reply =>
    obtain ⟨rfl, rfl⟩ := Prod.mk.inj (Option.some.inj hstep)
    cases reply with
    | ok =>
        cases hresult : (TtlStore.setnx redis (lockKey key) lockValue
            (some (now + options.lockTtl * 1000))).2 with
        | true => exact .acquired hresult
        | false => exact .refused hresult
    | failed => exact .setnxFailed nofun
    | lost => exact .setnxFailed nofun
  case h_3 lockValue jitter reply =>
    obtain ⟨-, heq⟩ := Option.ite_none_right_eq_some.mp hstep
    obtain ⟨rfl, rfl⟩ := Prod.mk.inj (Option.some.inj heq)
    cases reply with
    | ok => exact .fetched
    | failed => exact .fetchFailed nofun
    | lost => exact .fetchFailed nofun
  case h_4 lockValue valueToCache ttl reply =>
    obtain ⟨rfl, rfl⟩ := Prod.mk.inj (Option.some.inj hstep)
    cases reply with
    | ok => exact .stored
    | failed => exact .setFailed nofun
    | lost => exact .setFailed nofun
  case h_5 lockValue outcome reply =>
    obtain ⟨rfl, rfl⟩ := Prod.mk.inj (Option.some.inj hstep)
    exact .released
  case h_6 =>
    obtain ⟨rfl, rfl⟩ := Prod.mk.inj (Option.some.inj hstep)
    exact .waits
  case h_7 startTime wakesAt reply =>
    obtain ⟨hwakes, heq⟩ := Option.ite_none_right_eq_some.mp hstep
    obtain ⟨rfl, rfl⟩ := Prod.mk.inj (Option.some.inj heq)
    cases reply with
    | ok => exact .retried hwakes
    | failed => exact .retryFailed nofun
    | lost => exact .retryFailed nofun
  case h_8 startTime retryValue =>
    obtain ⟨rfl, rfl⟩ := Prod.mk.inj (Option.some.inj hstep)
    exact .found
  case h_9 startTime =>
    obtain ⟨rfl, rfl⟩ := Prod.mk.inj (Option.some.inj hstep)
    exact .waitsOn
  case h_10 => cases hstep

omit [DecidableEq Raw] in
/-- `setnx` leaves an entry alone unless it takes the lock. -/
theorem entry_of_setnx (lockValue : Raw) (reply : Reply) (other : String) :
    (writes encode key other redis .acquiring (.setnx lockValue reply) = none ∧
        (if reply.took then (TtlStore.setnx redis (lockKey key) lockValue
            (some (now + options.lockTtl * 1000))).1
          else redis) other = redis other) ∨
      ∃ raw, writes encode key other redis .acquiring (.setnx lockValue reply) =
          some raw ∧
        TtlStore.get (if reply.took then (TtlStore.setnx redis (lockKey key) lockValue
            (some (now + options.lockTtl * 1000))).1
          else redis) other = some raw := by
  by_cases hwrites : other = lockKey key ∧ reply.took = true ∧ redis other = none
  · obtain ⟨rfl, htook, hnone⟩ := hwrites
    refine .inr ⟨lockValue, by simp [writes, htook, hnone], ?_⟩
    simp [htook, TtlStore.setnx_of_none hnone]
  · refine .inl ⟨by simp [writes, hwrites], ?_⟩
    cases htook : reply.took with
    | false => rfl
    | true =>
        by_cases hother : other = lockKey key
        · subst hother
          obtain ⟨entry, hentry⟩ := Option.ne_none_iff_exists'.mp fun hnone =>
            hwrites ⟨rfl, htook, hnone⟩
          simp [TtlStore.setnx_of_some hentry]
        · simp [TtlStore.setnx_of_ne hother]

omit [DecidableEq Raw] in
/-- `set` leaves an entry alone unless it writes it. -/
theorem entry_of_set (lockValue : Raw) (valueToCache : Option Value) (ttl : ℕ)
    (reply : Reply) (other : String) :
    (writes encode key other redis (.storing lockValue valueToCache ttl) (.set reply) =
          none ∧
        (if reply.took then
            TtlStore.put redis key (encode valueToCache) (some (now + ttl * 1000))
          else redis) other = redis other) ∨
      ∃ raw, writes encode key other redis (.storing lockValue valueToCache ttl)
          (.set reply) = some raw ∧
        TtlStore.get (if reply.took then
            TtlStore.put redis key (encode valueToCache) (some (now + ttl * 1000))
          else redis) other = some raw := by
  by_cases hwrites : other = key ∧ reply.took = true
  · obtain ⟨rfl, htook⟩ := hwrites
    exact .inr ⟨encode valueToCache, by simp [writes, htook], by simp [htook]⟩
  · refine .inl ⟨by simp [writes, hwrites], ?_⟩
    cases htook : reply.took with
    | false => rfl
    | true => exact TtlStore.put_of_ne fun hother => hwrites ⟨hother, htook⟩

/-- A step leaves an entry alone, removes it or writes it. -/
theorem entry_of_step
    (hstep : step options encode key source now redis phase action =
      some (redis', phase')) (other : String) :
    (writes encode key other redis phase action = none ∧
        (redis' other = redis other ∨ redis' other = none)) ∨
      ∃ raw, writes encode key other redis phase action = some raw ∧
        TtlStore.get redis' other = some raw := by
  cases effect_of_step hstep with
  | @acquired lockValue | @refused lockValue =>
      exact (entry_of_setnx lockValue .ok other).imp_left (And.imp_right .inl)
  | @setnxFailed lockValue reply =>
      exact (entry_of_setnx lockValue reply other).imp_left (And.imp_right .inl)
  | @stored lockValue valueToCache ttl =>
      exact (entry_of_set lockValue valueToCache ttl .ok other).imp_left
        (And.imp_right .inl)
  | @setFailed lockValue valueToCache ttl reply =>
      exact (entry_of_set lockValue valueToCache ttl reply other).imp_left
        (And.imp_right .inl)
  | @released lockValue outcome reply =>
      refine .inl ⟨rfl, ?_⟩
      cases reply.took with
      | false => exact .inl rfl
      | true => exact TtlStore.delIfEqual_eq_or_none
  | hit | miss | getFailed | fetched | fetchFailed | waits | retried | retryFailed
  | found | waitsOn => exact .inl ⟨rfl, .inl rfl⟩

end Steps

/-! ## What a call holds -/

/-- Every entry the outcome comes from meets `reads`, and every value that was
fetched and stored meets `stores`. -/
def Outcome.Holds (reads : Raw → Prop) (stores : Option Value → Prop) :
    Outcome Raw Value → Prop
  | .cached rawCachedValue => reads rawCachedValue
  | .fetched value => stores value
  | _ => True

/-- A value that is still to be stored meets `fetches`. -/
def Phase.Holds (reads : Raw → Prop) (fetches stores : Option Value → Prop) :
    Phase Raw Value → Prop
  | .storing _ valueToCache _ => fetches valueToCache
  | .releasing _ outcome | .returned outcome => outcome.Holds reads stores
  | .retried _ (some retryValue) => reads retryValue
  | _ => True

theorem Phase.Holds.mono {phase : Phase Raw Value} {reads reads' : Raw → Prop}
    {fetches fetches' stores stores' : Option Value → Prop}
    (hreads : ∀ raw, reads raw → reads' raw)
    (hfetches : ∀ value, fetches value → fetches' value)
    (hstores : ∀ value, stores value → stores' value)
    (hholds : phase.Holds reads fetches stores) :
    phase.Holds reads' fetches' stores' := by
  have houtcome : ∀ outcome : Outcome Raw Value, outcome.Holds reads stores →
      outcome.Holds reads' stores' := by
    rintro (raw | value | _ | _) houtcome
    · exact hreads raw houtcome
    · exact hstores value houtcome
    · trivial
    · trivial
  cases phase with
  | storing lockValue value ttl => exact hfetches value hholds
  | releasing lockValue outcome => exact houtcome outcome hholds
  | returned outcome => exact houtcome outcome hholds
  | retried startTime retryValue =>
      cases retryValue with
      | none => trivial
      | some raw => exact hreads raw hholds
  | _ => trivial

section Holds

variable [DecidableEq Raw] {options : GetOrSetOptions} {encode : Option Value → Raw}
variable {key : String} {source : Option Value} {now : ℕ}
variable {redis redis' : TtlStore.Store String Raw}
variable {phase phase' : Phase Raw Value} {action : Action Raw}
variable {reads : Raw → Prop} {fetches stores : Option Value → Prop}

omit [DecidableEq Raw] in
theorem holds_loop (startTime : ℕ) :
    (loop options now startTime : Phase Raw Value).Holds reads fetches stores := by
  unfold loop
  split <;> trivial

/-- A step of a call keeps what it holds when the entry of its key, the data
source and the text that it writes meet the predicates. -/
theorem Phase.Holds.of_step (hholds : phase.Holds reads fetches stores)
    (hstep : step options encode key source now redis phase action =
      some (redis', phase'))
    (httl : 0 < options.ttl) (hnullTtl : 0 < options.nullTtl)
    (hentry : ∀ raw, TtlStore.get redis key = some raw → reads raw)
    (hsource : fetches source)
    (hwrites : ∀ raw, writes encode key key redis phase action = some raw →
      reads raw)
    (hstores : ∀ value, fetches value → reads (encode value) → stores value) :
    phase'.Holds reads fetches stores := by
  cases effect_of_step hstep with
  | hit hget => exact hentry _ hget
  | @fetched lockValue jitter =>
      have hpositive : 0 < effectiveTtl options jitter source := by
        cases source with
        | none => exact hnullTtl
        | some value => exact Nat.add_pos_left httl jitter
      rw [afterFetch, if_pos hpositive]
      exact hsource
  | stored => exact hstores _ hholds (hwrites _ (by simp [writes, Reply.took]))
  | released => exact hholds
  | waits => exact holds_loop now
  | retried =>
      cases hget : TtlStore.get redis key with
      | none => trivial
      | some raw => exact hentry raw hget
  | found => exact hholds
  | waitsOn => exact holds_loop _
  | miss | getFailed | acquired | refused | setnxFailed | fetchFailed | setFailed
  | retryFailed => trivial

end Holds

/-! ## How long an entry lasts -/

/-- A value that is still to be stored gets at least this lifetime. -/
def Phase.Lasts (seconds : ℕ) : Phase Raw Value → Prop
  | .storing _ _ effectiveTtl => seconds ≤ effectiveTtl
  | _ => True

section Lasts

variable [DecidableEq Raw] {options : GetOrSetOptions} {encode : Option Value → Raw}
variable {key other : String} {source : Option Value} {now seconds : ℕ}
variable {redis redis' : TtlStore.Store String Raw}
variable {phase phase' : Phase Raw Value} {action : Action Raw}

omit [DecidableEq Raw] in
theorem lasts_loop (startTime : ℕ) :
    (loop options now startTime : Phase Raw Value).Lasts seconds := by
  unfold loop
  split <;> trivial

omit [DecidableEq Raw] in
theorem lasts_afterFetch {lockValue : Raw} {jitter : ℕ} {value : Option Value}
    (httl : seconds ≤ options.ttl) (hnullTtl : seconds ≤ options.nullTtl) :
    (afterFetch options lockValue jitter value).Lasts seconds := by
  unfold afterFetch
  split
  · cases value with
    | none => exact hnullTtl
    | some value => exact Nat.le_add_right_of_le httl
  · trivial

theorem lasts_of_step
    (hstep : step options encode key source now redis phase action =
      some (redis', phase'))
    (httl : seconds ≤ options.ttl) (hnullTtl : seconds ≤ options.nullTtl) :
    phase'.Lasts seconds := by
  cases effect_of_step hstep with
  | fetched => exact lasts_afterFetch httl hnullTtl
  | waits | waitsOn => exact lasts_loop _
  | _ => trivial

/-- A text that is written under the key itself stays for its lifetime. -/
theorem exists_entry_of_writes
    (hstep : step options encode key source now redis phase action =
      some (redis', phase'))
    (hlasts : phase.Lasts seconds) (hne : other ≠ lockKey key) {raw : Raw}
    (hwrites : writes encode key other redis phase action = some raw) :
    ∃ deadline, redis' other = some ⟨raw, some deadline⟩ ∧
      now + seconds * 1000 ≤ deadline := by
  unfold writes at hwrites
  split at hwrites
  · rename_i lockValue reply
    obtain ⟨hwritten, -⟩ := Option.ite_none_right_eq_some.mp hwrites
    exact absurd hwritten.1 hne
  · rename_i lockValue valueToCache ttl reply
    obtain ⟨⟨rfl, htook⟩, heq⟩ := Option.ite_none_right_eq_some.mp hwrites
    obtain rfl := Option.some.inj heq
    obtain ⟨rfl, -⟩ := Prod.mk.inj (Option.some.inj hstep)
    have hseconds : seconds ≤ ttl := hlasts
    refine ⟨now + ttl * 1000, by simp [htook], ?_⟩
    omega
  · cases hwrites

end Lasts

/-! ## A call by itself -/

section Alone

variable [DecidableEq Raw] {options : GetOrSetOptions} {encode : Option Value → Raw}
variable {key : String} {source : Option Value} {now : ℕ}
variable {redis redis' : TtlStore.Store String Raw}
variable {phase phase' : Phase Raw Value} {action : Action Raw}

/-- The steps of a call, one after the other at one moment. -/
def runAlone (options : GetOrSetOptions) (encode : Option Value → Raw) (key : String)
    (source : Option Value) (now : ℕ) :
    TtlStore.Store String Raw × Phase Raw Value → List (Action Raw) →
      Option (TtlStore.Store String Raw × Phase Raw Value) :=
  Runs.run fun current action =>
    step options encode key source now current.1 current.2 action

/-- A call that has returned takes no further step. -/
theorem not_returned_of_step
    (hstep : step options encode key source now redis phase action =
      some (redis', phase')) (outcome : Outcome Raw Value) :
    phase ≠ .returned outcome := by
  rintro rfl
  cases action <;> cases hstep

theorem runAlone_hit {rawCachedValue : Raw}
    (hentry : TtlStore.get redis key = some rawCachedValue) :
    runAlone options encode key source now (redis, .getting) [.get .ok] =
      some (redis, .returned (.cached rawCachedValue)) := by
  simp [runAlone, Runs.run, step, hentry]

/-- A miss fetches the value, stores it and releases the lock. -/
theorem runAlone_miss {lockValue : Raw} {value : Value} {jitter : ℕ}
    (hmiss : TtlStore.get redis key = none) (hlock : redis (lockKey key) = none)
    (hjitter : jitter < options.ttlJitter) (httl : 0 < options.ttl) :
    ∃ redis', runAlone options encode key (some value) now (redis, .getting)
        [.get .ok, .setnx lockValue .ok, .fetch jitter .ok, .set .ok,
          .release .ok] = some (redis', .returned (.fetched (some value))) ∧
      TtlStore.get redis' key = some (encode (some value)) := by
  refine ⟨TtlStore.delIfEqual
    (TtlStore.put
      (TtlStore.put redis (lockKey key) lockValue
        (some (now + options.lockTtl * 1000)))
      key (encode (some value)) (some (now + (options.ttl + jitter) * 1000)))
    (lockKey key) lockValue, ?_, ?_⟩
  · simp [runAlone, Runs.run, step, hmiss, TtlStore.setnx_of_none hlock, Reply.took,
      hjitter, afterFetch, effectiveTtl, httl]
  · simp [TtlStore.get, TtlStore.delIfEqual_of_ne (lockKey_ne key).symm]

end Alone

end OceanChat.GetOrSet
