import OceanChat.Cores.Idempotency
import OceanChat.Gateway.NatsEvents

/-!
# Suppression of revocations by requests

The key of an idempotent request and the mark of a handled revoke event live
under one prefix.  A revoke event is processed as if no request had been made
exactly when no request takes the mark of that event.
-/

namespace OceanChat.Gateway

open Runs OceanChat.Idempotency

theorem dedupeKey_eq (jti : String) :
    dedupeKey jti = getIdempotencyRedisKey ("auth.jwt.revoke:" ++ jti) := by
  have hbegin : "idempotency:auth.jwt.revoke:" =
      "idempotency:" ++ "auth.jwt.revoke:" := by simp
  unfold dedupeKey getIdempotencyRedisKey
  rw [hbegin, String.append_assoc]

/-- The header that collides with the mark of a revoke event. -/
theorem getIdempotencyRedisKey_eq_dedupeKey_iff {idempotencyKey jti : String} :
    getIdempotencyRedisKey idempotencyKey = dedupeKey jti ↔
      idempotencyKey = "auth.jwt.revoke:" ++ jti := by
  rw [dedupeKey_eq]
  exact getIdempotencyRedisKey_injective.eq_iff

/-- The requests whose entry is the mark of a revoke event. -/
theorem redisKey_eq_dedupeKey_iff {request : Request} {jti : String} :
    request.redisKey = some (dedupeKey jti) ↔
      request.method ∈ methodsToCheck ∧
        request.idempotencyKey = some ("auth.jwt.revoke:" ++ jti) := by
  unfold Request.redisKey
  split
  · rename_i hmethod
    simp only [hmethod, true_and, Option.map_eq_some_iff,
      getIdempotencyRedisKey_eq_dedupeKey_iff, Option.filter_eq_some_iff]
    constructor
    · intro hkey
      obtain ⟨header, ⟨hheader, -⟩, rfl⟩ := hkey
      exact hheader
    · intro hheader
      exact ⟨_, ⟨hheader, by simp⟩, rfl⟩
  · rename_i hmethod
    simp [hmethod]

/-- How an event is processed: its outcome, the memory of the instance and the
mark of the event afterwards. -/
def processed (redis : Redis) (cache : Cache) (now : ℕ)
    (event : TokenRevokedEvent) :
    Handled × Cache × Option (TtlStore.Entry Stored) :=
  let (outcome, marked, memory) := onEvent redis cache now event
  (outcome, memory, marked (dedupeKey event.jti))

/-- An event with this identifier, delivered now, is processed as it would be
if only time had passed since the store was `redis`. -/
def Unsuppressed (redis : Redis) (jti : String) (state : Idempotency.State) :
    Prop :=
  ∀ cache exp, processed state.redis cache state.now ⟨jti, exp⟩ =
    processed (TtlStore.sweep redis state.now) cache state.now ⟨jti, exp⟩

/-- The step does not execute the `setnx` of a request whose header names the
token while the event has no mark yet. -/
def KeepsMark (jti : String) (state : Idempotency.State)
    (event : Idempotency.Event) : Prop :=
  ∀ id reply request, event = .setnx id reply → reply.took = true →
    state.requests id = some ⟨request, .acquiring⟩ →
    request.method ∈ methodsToCheck →
    request.idempotencyKey = some ("auth.jwt.revoke:" ++ jti) →
      state.redis (dedupeKey jti) ≠ none

/-- No request with this key has left its processing entry. -/
def Untouched (key : String) (state : Idempotency.State) : Prop :=
  ∀ id request phase, state.requests id = some ⟨request, phase⟩ →
    request.redisKey = some key → phase.entered = false

/-- The key holds what it would hold if only time had passed. -/
structure Quiet (redis : Redis) (key : String) (state : Idempotency.State) :
    Prop where
  store_eq : state.redis key = TtlStore.sweep redis state.now key
  untouched : Untouched key state

namespace Quiet

variable {redis : Redis} {key : String} {state next : Idempotency.State}
variable {event : Idempotency.Event}

theorem initial (now : ℕ) (redis : Redis) :
    Quiet redis key (Idempotency.State.initial now redis) :=
  ⟨rfl, by simp [Untouched, Idempotency.State.initial]⟩

theorem processed_eq {jti : String}
    (hstore : state.redis (dedupeKey jti) =
      TtlStore.sweep redis state.now (dedupeKey jti)) :
    Unsuppressed redis jti state := by
  intro cache exp
  simp only [processed, onEvent, markEvent, TtlStore.setnx, hstore]
  cases hmark : TtlStore.sweep redis state.now (dedupeKey jti) with
  | none => simp
  | some entry => simp [hstore, hmark]

/-- A request moves on without touching the key. -/
theorem setPhase (hquiet : Quiet redis key state) {id : ℕ} {request : Request}
    {phase : Phase} (hnow : next.now = state.now)
    (hrequests : next.requests = state.requests)
    (hredis : next.redis key = state.redis key)
    (hphase : request.redisKey = some key → phase.entered = false) :
    Quiet redis key (next.setPhase id request phase) where
  store_eq := by
    simpa only [Idempotency.State.setPhase, hnow, hredis] using hquiet.store_eq
  untouched other request' phase' hrequest := by
    by_cases hid : other = id
    · subst hid
      simp only [Idempotency.State.setPhase, Function.update_self, Option.some.injEq,
        Pending.mk.injEq] at hrequest
      obtain ⟨rfl, rfl⟩ := hrequest
      exact hphase
    · simp only [Idempotency.State.setPhase, Function.update_of_ne hid, hrequests]
        at hrequest
      exact hquiet.untouched other request' phase' hrequest

/-- A command of a request writes to another key. -/
theorem of_write (hquiet : Quiet redis key state) {id : ℕ} {request : Request}
    {phase : Phase} {reply : Reply} {stored : Redis}
    (hstored : stored key = state.redis key)
    (hphase : request.redisKey = some key → phase.entered = false) :
    Quiet redis key (Idempotency.State.setPhase
      (if reply.took then { state with redis := stored } else state) id request
      phase) := by
  cases reply with
  | failed => exact hquiet.setPhase rfl rfl rfl hphase
  | ok => exact hquiet.setPhase rfl rfl hstored hphase
  | lost => exact hquiet.setPhase rfl rfl hstored hphase

/-- A request that finds the key taken, or whose command fails, leaves it. -/
theorem of_setnx (hquiet : Quiet redis key state) {id : ℕ} {request : Request}
    {reply : Reply} (htaken : reply.took = true → state.redis key ≠ none) :
    Quiet redis key (Idempotency.State.setPhase
      (if reply.took then
        { state with
          redis := (TtlStore.setnx state.redis key .processing
            (some (state.now + processingTtl * 1000))).1 }
      else state) id request
      (if reply = .ok then
        if (TtlStore.setnx state.redis key .processing
          (some (state.now + processingTtl * 1000))).2 then .handling
        else .reading
      else .finished .commandThrew)) := by
  cases reply with
  | failed => exact hquiet.setPhase rfl rfl rfl fun _ => rfl
  | ok =>
      obtain ⟨entry, hentry⟩ := Option.ne_none_iff_exists'.mp (htaken rfl)
      rw [TtlStore.setnx_of_some hentry]
      exact hquiet.setPhase rfl rfl rfl fun _ => rfl
  | lost =>
      obtain ⟨entry, hentry⟩ := Option.ne_none_iff_exists'.mp (htaken rfl)
      rw [TtlStore.setnx_of_some hentry]
      exact hquiet.setPhase rfl rfl rfl fun _ => rfl

theorem tick (hquiet : Quiet redis key state) (ms : ℕ) :
    Quiet redis key { state with
      now := state.now + ms
      redis := TtlStore.sweep state.redis (state.now + ms) } where
  store_eq := by
    have hlater : TtlStore.sweep redis (state.now + ms) key =
        TtlStore.sweep (TtlStore.sweep redis state.now) (state.now + ms) key := by
      rw [TtlStore.sweep_sweep (Nat.le_add_right _ _)]
    rw [hlater]
    simp only [TtlStore.sweep, hquiet.store_eq]
  untouched := hquiet.untouched

/-- A request that has left its processing entry has another key. -/
theorem key_ne (hquiet : Quiet redis key state) {id : ℕ} {request : Request}
    {phase : Phase} {key' : String}
    (hrequest : state.requests id = some ⟨request, phase⟩)
    (hentered : phase.entered = true) (hkey : request.redisKey = some key') :
    key ≠ key' := by
  rintro rfl
  rw [hquiet.untouched id request phase hrequest hkey] at hentered
  cases hentered

end Quiet

theorem Quiet.of_step {redis : Redis} {jti : String}
    {state next : Idempotency.State} {event : Idempotency.Event}
    (hquiet : Quiet redis (dedupeKey jti) state)
    (hguard : KeepsMark jti state event)
    (hstep : Idempotency.step state event = some next) :
    Quiet redis (dedupeKey jti) next := by
  cases Idempotency.step_effect hstep with
  | requested id request hnone =>
      refine hquiet.setPhase rfl rfl rfl fun _ => ?_
      split <;> rfl
  | acquired id reply request key hrequest hkey =>
      by_cases hmark : key = dedupeKey jti
      · subst hmark
        obtain ⟨hmethod, hheader⟩ := redisKey_eq_dedupeKey_iff.mp hkey
        exact hquiet.of_setnx fun htook =>
          hguard id reply request rfl htook hrequest hmethod hheader
      · refine hquiet.of_write (TtlStore.setnx_of_ne (Ne.symm hmark)) ?_
        intro hsame
        exact absurd (Option.some.inj (hkey.symm.trans hsame)) hmark
  | read id reply request key hrequest hkey =>
      exact hquiet.setPhase rfl rfl rfl fun _ => rfl
  | passed id result request answer hrequest =>
      exact hquiet.setPhase rfl rfl rfl fun _ => rfl
  | handled id result request hrequest =>
      exact hquiet.setPhase rfl rfl rfl fun hmark =>
        absurd rfl (hquiet.key_ne hrequest rfl hmark)
  | stored id jitter reply request key statusCode body hrequest hkey =>
      exact hquiet.of_write
        (TtlStore.put_of_ne (hquiet.key_ne hrequest rfl hkey)) fun hmark =>
          absurd rfl (hquiet.key_ne hrequest rfl hmark)
  | removed id reply request key before after hrequest hkey hcleanup =>
      obtain ⟨hentered, -⟩ := Idempotency.phases_of_cleanup hcleanup
      exact hquiet.of_write
        (TtlStore.del_of_ne (hquiet.key_ne hrequest hentered hkey)) fun hmark =>
          absurd rfl (hquiet.key_ne hrequest hentered hmark)
  | crashed id request phase hrequest =>
      exact hquiet.setPhase rfl rfl rfl fun _ => rfl
  | ticked ms => exact hquiet.tick ms

/-- A request that takes a free mark makes the event a duplicate. -/
theorem not_unsuppressed_of_step {redis : Redis} {jti : String}
    {state next : Idempotency.State} {event : Idempotency.Event}
    (hquiet : Quiet redis (dedupeKey jti) state)
    (hguard : ¬ KeepsMark jti state event)
    (hstep : Idempotency.step state event = some next) :
    ¬ Unsuppressed redis jti next := by
  intro hunsuppressed
  apply hguard
  intro id reply request hevent htook hrequest hmethod hheader hfree
  subst hevent
  have hkey : request.redisKey = some (dedupeKey jti) :=
    redisKey_eq_dedupeKey_iff.mpr ⟨hmethod, hheader⟩
  have hstored : next.redis (dedupeKey jti) ≠ none := by
    simp only [Idempotency.step, hrequest, hkey, Option.map_some, htook,
      TtlStore.setnx_of_none hfree, Option.some.injEq] at hstep
    subst hstep
    simp [Idempotency.State.setPhase]
  have hnow : next.now = state.now := by
    simp only [Idempotency.step, hrequest, hkey, Option.map_some, htook,
      TtlStore.setnx_of_none hfree, Option.some.injEq] at hstep
    subst hstep
    rfl
  obtain ⟨entry, hentry⟩ := Option.ne_none_iff_exists'.mp hstored
  have hbaseline : TtlStore.sweep redis next.now (dedupeKey jti) = none := by
    rw [hnow, ← hquiet.store_eq, hfree]
  have houtcome := congrArg Prod.fst (hunsuppressed TtlStore.empty 0)
  simp [processed, onEvent, markEvent, TtlStore.setnx_of_some hentry,
    TtlStore.setnx_of_none hbaseline] at houtcome

/-- Every event is processed as if no request had been made, after every
sequence of requests, exactly when none of them takes the mark of the event. -/
theorem unsuppressed_iff_keepsMark {now : ℕ} {redis : Redis} {jti : String}
    {events : List Idempotency.Event} {final : Idempotency.State}
    (hrun : run Idempotency.step (Idempotency.State.initial now redis) events =
      some final) :
    (∀ first, first <+: events → ∀ middle,
        run Idempotency.step (Idempotency.State.initial now redis) first =
          some middle → Unsuppressed redis jti middle) ↔
      Guarded Idempotency.step (KeepsMark jti)
        (Idempotency.State.initial now redis) events :=
  always_iff_guarded (fun _ _ => True) (Quiet redis (dedupeKey jti))
    (Unsuppressed redis jti)
    (fun _ hquiet => Quiet.processed_eq hquiet.store_eq)
    (fun _ _ _ hquiet _ hguard hstep => hquiet.of_step hguard hstep)
    (fun _ _ _ hquiet _ hguard hstep =>
      not_unsuppressed_of_step hquiet hguard hstep)
    (Quiet.initial now redis) (guarded_true _ events) hrun

/-- One request whose header names a token suppresses its revocation. -/
def suppressionRun : List Idempotency.Event :=
  [.request 0 ⟨"POST", some "auth.jwt.revoke:jti-1", none⟩, .setnx 0 .ok]

theorem not_always_unsuppressed :
    (∃ idempotencyKey jti, getIdempotencyRedisKey idempotencyKey =
      dedupeKey jti) ∧
    ¬ ∀ (now : ℕ) (redis : Redis) (jti : String)
      (events : List Idempotency.Event) (final : Idempotency.State),
      run Idempotency.step (Idempotency.State.initial now redis) events =
        some final → Unsuppressed redis jti final := by
  constructor
  · exact ⟨"auth.jwt.revoke:jti-1", "jti-1", by decide +kernel⟩
  · intro hclaim
    obtain ⟨final, hrun, hmark⟩ := Option.map_eq_some_iff.mp
      (show (run Idempotency.step
          (Idempotency.State.initial 0 TtlStore.empty) suppressionRun).map
            (fun state => (state.now, state.redis (dedupeKey "jti-1"))) =
        some (0, some ⟨.processing, some 60000⟩) by decide +kernel)
    obtain ⟨hnow, hentry⟩ := Prod.mk.inj hmark
    have hfree : TtlStore.sweep (TtlStore.empty : Redis) final.now
        (dedupeKey "jti-1") = none := TtlStore.sweep_of_none rfl
    have houtcome := congrArg Prod.fst
      (hclaim 0 TtlStore.empty "jti-1" suppressionRun final hrun
        TtlStore.empty 900)
    simp [processed, onEvent, markEvent, TtlStore.setnx_of_some hentry,
      TtlStore.setnx_of_none hfree] at houtcome

theorem unsuppressed_iff_keepsMark_of_request :
    ∃ final, run Idempotency.step (Idempotency.State.initial 0 TtlStore.empty)
        suppressionRun = some final ∧
      ((∀ first, first <+: suppressionRun → ∀ middle,
          run Idempotency.step (Idempotency.State.initial 0 TtlStore.empty)
            first = some middle → Unsuppressed TtlStore.empty "jti-2" middle) ↔
        Guarded Idempotency.step (KeepsMark "jti-2")
          (Idempotency.State.initial 0 TtlStore.empty) suppressionRun) := by
  have henabled : (run Idempotency.step
      (Idempotency.State.initial 0 TtlStore.empty)
      suppressionRun).isSome = true := by decide
  obtain ⟨final, hrun⟩ := Option.isSome_iff_exists.mp henabled
  exact ⟨final, hrun, unsuppressed_iff_keepsMark hrun⟩

end OceanChat.Gateway
