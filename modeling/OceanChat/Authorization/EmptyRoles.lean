import OceanChat.Authorization.RevokedRoles
import OceanChat.Redis.Contention

/-!
# Empty role lists

A read that gets null has no roles to return, and returns and caches an empty
list.  As long as the roles of a target are not empty, that happens when a read
has waited for the lock in vain, and when an instance without a data source
finds nothing in Redis.
-/

namespace OceanChat.Authorization

open Runs

/-- A list that is not empty, as it is stored. -/
def Filled (raw : Cached) : Prop :=
  ∃ roles, raw = .roles roles ∧ roles ≠ []

def FilledValue (value : Option Roles) : Prop :=
  ∃ roles, value = some roles ∧ roles ≠ []

/-- The read has roles to return. -/
def Progress.HasRoles : Progress → Prop
  | .finishing roles => FilledValue roles
  | .returned roles => roles ≠ []
  | _ => True

/-- No read of the target has got null or returned an empty list, and no memory
cache holds one. -/
structure NeverEmpty (target : Target) (state : State) : Prop where
  reads : ∀ id site startedAt progress,
    state.calls id = some ⟨site, target, startedAt, progress⟩ →
      progress.HasRoles
  cached : ∀ site item,
    (state.l1 (site, target.kind)).cache.get target.id = some item →
      item.value ≠ []

/-- The roles in the data source stay filled. -/
def KeepsRoles (target : Target) (_ : State) (event : Event) : Prop :=
  ∀ roles, event = .change target roles → roles ≠ []

/-- The step finds no wait of a read of the target over, and no instance without
a data source finds nothing in Redis. -/
def FindsRoles (target : Target) (state : State) (event : Event) : Prop :=
  ∀ id action site startedAt progress, event = .read id action →
    state.calls id = some ⟨site, target, startedAt, progress⟩ →
      match progress with
      | .reading phase =>
          ¬ GetOrSet.GivesUp (cacheOptions target.kind) state.now phase action
      | .getting => action = .get .ok →
          TtlStore.get state.redis (cacheKey target) ≠ none
      | _ => True

/-- What a read carries is filled. -/
def Progress.Carries : Progress → Prop
  | .reading phase => phase.Gives Filled FilledValue
  | progress => progress.HasRoles

/-- Everything that a read of the target can find is filled. -/
structure Stocked (target : Target) (state : State) : Prop where
  source : state.source target ≠ []
  entry : ∀ raw, TtlStore.get state.redis (cacheKey target) = some raw →
    Filled raw
  reads : ∀ id site startedAt progress,
    state.calls id = some ⟨site, target, startedAt, progress⟩ →
      progress.Carries
  cached : ∀ site item,
    (state.l1 (site, target.kind)).cache.get target.id = some item →
      item.value ≠ []

theorem cacheKey_injective : Function.Injective cacheKey := by
  rintro ⟨kind, id⟩ ⟨other, otherId⟩ heq
  have hlists := congrArg String.toList heq
  cases kind <;> cases other <;>
    simp [cacheKey, String.toList_append] at hlists
  · rw [String.toList_inj] at hlists
    rw [hlists]
  · rw [String.toList_inj] at hlists
    rw [hlists]

variable {target : Target} {state next : State} {event : Event}

/-! ## What a read carries -/

theorem filled_encode {value : Option Roles} (hfilled : FilledValue value) :
    Filled (encode value) := by
  obtain ⟨roles, rfl, hroles⟩ := hfilled
  exact ⟨roles, rfl, hroles⟩

theorem carries_parse {raw : Cached} (hfilled : Filled raw) :
    (parse raw).Carries := by
  obtain ⟨roles, rfl, hroles⟩ := hfilled
  exact ⟨roles, rfl, hroles⟩

theorem carries_continueRead {phase : GetOrSet.Phase Cached Roles}
    (hgives : phase.Gives Filled FilledValue) :
    (continueRead phase).Carries := by
  cases phase with
  | returned outcome =>
      cases outcome with
      | cached raw => exact carries_parse hgives
      | fetched value => exact hgives
      | gaveUp => exact hgives.elim
      | threw => trivial
  | _ => exact hgives

theorem carries_continueGet {reply : Reply} {entry : Option Cached}
    (hentry : ∀ raw, entry = some raw → Filled raw)
    (hfound : reply = .ok → entry ≠ none) :
    (continueGet reply entry).Carries := by
  unfold continueGet
  split
  · exact carries_parse (hentry _ rfl)
  · exact absurd rfl (hfound rfl)
  · trivial

theorem carries_startRead {l1 : Option Roles} (dataSource : Bool)
    (hl1 : ∀ roles, l1 = some roles → roles ≠ []) :
    (startRead l1 dataSource).Carries := by
  unfold startRead
  split
  · exact hl1 _ rfl
  · split <;> trivial

theorem Progress.Carries.hasRoles {progress : Progress}
    (hcarries : progress.Carries) : progress.HasRoles := by
  cases progress with
  | reading phase => trivial
  | _ => exact hcarries

namespace Stocked

theorem initial {now : ℕ} {redis : TtlStore.Store String Cached}
    {source : Target → Roles} {dataSource : ℕ → Bool}
    (hsource : source target ≠ [])
    (hredis : ∀ raw, TtlStore.get redis (cacheKey target) = some raw →
      Filled raw) :
    Stocked target (State.initial now redis source dataSource) where
  source := hsource
  entry := hredis
  reads := nofun
  cached site item hitem := by cases hitem

theorem neverEmpty (hstocked : Stocked target state) :
    NeverEmpty target state where
  reads id site startedAt progress hcall :=
    (hstocked.reads id site startedAt progress hcall).hasRoles
  cached := hstocked.cached

/-- What a step writes under the key of the target is filled. -/
theorem filled_of_writes (hstocked : Stocked target state) {raw : Cached}
    (hwrites : writes target state event = some raw) : Filled raw := by
  unfold writes at hwrites
  split at hwrites
  · rename_i id action
    split at hwrites
    · rename_i site target' startedAt phase hcall
      unfold GetOrSet.writes at hwrites
      split at hwrites
      · obtain ⟨hlock, -⟩ := Option.ite_none_right_eq_some.mp hwrites
        exact absurd hlock.1 (cacheKey_ne_lockKey target target')
      · obtain ⟨⟨hkey, -⟩, htext⟩ := Option.ite_none_right_eq_some.mp hwrites
        obtain rfl := cacheKey_injective hkey
        rw [← Option.some.inj htext]
        exact filled_encode (hstocked.reads id site startedAt _ hcall)
      · cases hwrites
    · cases hwrites
  · cases hwrites

theorem entry_of_step (hstocked : Stocked target state)
    (hstep : step state event = some next) {raw : Cached}
    (hraw : TtlStore.get next.redis (cacheKey target) = some raw) :
    Filled raw := by
  rcases Authorization.entry_of_step hstep target with
    ⟨-, hsame⟩ | ⟨text, hwrites, hget⟩
  · exact hstocked.entry raw (hsame raw hraw)
  · obtain rfl : text = raw := Option.some.inj (hget.symm.trans hraw)
    exact hstocked.filled_of_writes hwrites

theorem cached_of_step (hstocked : Stocked target state)
    (hstep : step state event = some next) {site : ℕ} {item : Item ℕ Roles}
    (hitem : (next.l1 (site, target.kind)).cache.get target.id = some item) :
    item.value ≠ [] := by
  rcases item_of_step hstep hitem with
    hold | ⟨id, startedAt, roles, -, hcall, rfl⟩
  · exact hstocked.cached site item hold
  · obtain ⟨found, rfl, hfound⟩ := hstocked.reads id site startedAt _ hcall
    exact hfound

theorem source_of_step (hstocked : Stocked target state)
    (hkeeps : KeepsRoles target state event)
    (hstep : step state event = some next) : next.source target ≠ [] := by
  cases effect_of_step hstep with
  | @change target' roles =>
      by_cases htarget : target' = target
      · subst htarget
        simpa using hkeeps roles rfl
      · have hother : target ≠ target' := fun heq => htarget heq.symm
        simpa [Function.update_of_ne hother] using hstocked.source
  | _ => exact hstocked.source

theorem reads_of_step (hstocked : Stocked target state)
    (hfinds : FindsRoles target state event)
    (hstep : step state event = some next) {id site startedAt : ℕ}
    {progress : Progress}
    (hcall : next.calls id = some ⟨site, target, startedAt, progress⟩) :
    progress.Carries := by
  by_cases hother : event.target = some id
  case neg =>
    rw [calls_of_step hstep hother] at hcall
    exact hstocked.reads id site startedAt progress hcall
  cases effect_of_step hstep with
  | @call id' site' target' hnone =>
      obtain rfl := Option.some.inj hother
      simp only [Function.update_self, Option.some.injEq, Call.mk.injEq] at hcall
      obtain ⟨rfl, rfl, -, rfl⟩ := hcall
      refine carries_startRead _ fun roles hroles => ?_
      obtain ⟨item, hitem, -, rfl⟩ := LRUCache.get_eq_some hroles
      exact hstocked.cached site' item hitem
  | @read id' action site' target' startedAt' phase redis phase' hold hread =>
      obtain rfl := Option.some.inj hother
      simp only [Function.update_self, Option.some.injEq, Call.mk.injEq] at hcall
      obtain ⟨rfl, rfl, -, rfl⟩ := hcall
      have hsource : FilledValue (some (state.source target')) :=
        ⟨_, rfl, hstocked.source⟩
      exact carries_continueRead ((GetOrSet.gives_iff_of_step
        (hstocked.reads _ _ _ _ hold) hstocked.entry hsource hread).mpr
          (hfinds _ _ _ _ _ rfl hold))
  | @get id' reply site' target' startedAt' hold =>
      obtain rfl := Option.some.inj hother
      simp only [Function.update_self, Option.some.injEq, Call.mk.injEq] at hcall
      obtain ⟨rfl, rfl, -, rfl⟩ := hcall
      refine carries_continueGet hstocked.entry fun hok => ?_
      subst hok
      exact hfinds _ _ _ _ _ rfl hold rfl
  | @finish id' site' target' startedAt' roles hold =>
      obtain rfl := Option.some.inj hother
      simp only [Function.update_self, Option.some.injEq, Call.mk.injEq] at hcall
      obtain ⟨rfl, rfl, -, rfl⟩ := hcall
      obtain ⟨found, rfl, hfound⟩ := hstocked.reads _ _ _ _ hold
      exact hfound
  | _ => cases hother

theorem of_step (hstocked : Stocked target state)
    (hkeeps : KeepsRoles target state event)
    (hfinds : FindsRoles target state event)
    (hstep : step state event = some next) : Stocked target next where
  source := hstocked.source_of_step hkeeps hstep
  entry _ hraw := hstocked.entry_of_step hstep hraw
  reads _ _ _ _ hcall := hstocked.reads_of_step hfinds hstep hcall
  cached _ _ hitem := hstocked.cached_of_step hstep hitem

end Stocked

/-- A read that has waited in vain, or has found nothing and cannot fetch, has
got null. -/
theorem not_neverEmpty_of_step (hmisses : ¬ FindsRoles target state event)
    (hstep : step state event = some next) : ¬ NeverEmpty target next := by
  simp only [FindsRoles, not_forall] at hmisses
  obtain ⟨id, action, site, startedAt, progress, rfl, hcall, hmisses⟩ := hmisses
  have hnull : next.calls id =
      some ⟨site, target, startedAt, .finishing none⟩ := by
    cases progress with
    | reading phase =>
        rw [not_not] at hmisses
        simp only [step, hcall] at hstep
        obtain ⟨⟨redis, phase'⟩, hread, rfl⟩ := Option.map_eq_some_iff.mp hstep
        obtain rfl := GetOrSet.gaveUp_of_givesUp hmisses hread
        exact Function.update_self ..
    | getting =>
        simp only [not_forall, not_not] at hmisses
        obtain ⟨rfl, hnone⟩ := hmisses
        simp only [step, hcall] at hstep
        obtain rfl := Option.some.inj hstep
        simp [continueGet, hnone]
    | _ => exact absurd trivial hmisses
  intro hnever
  obtain ⟨roles, hroles, -⟩ := hnever.reads id site startedAt _ hnull
  cases hroles

/-- Roles that are there are never reported as absent exactly as long as no read
finds its wait over, and no instance without a data source finds nothing. -/
theorem neverEmpty_iff {now : ℕ} {redis : TtlStore.Store String Cached}
    {source : Target → Roles} {dataSource : ℕ → Bool}
    (hsource : source target ≠ [])
    (hredis : ∀ raw, TtlStore.get redis (cacheKey target) = some raw →
      Filled raw)
    {events : List Event} {final : State}
    (hkeeps : ∀ roles, .change target roles ∈ events → roles ≠ [])
    (hrun : run step (State.initial now redis source dataSource) events =
      some final) :
    (∀ first, first <+: events → ∀ middle,
        run step (State.initial now redis source dataSource) first =
          some middle → NeverEmpty target middle) ↔
      Guarded step (FindsRoles target)
        (State.initial now redis source dataSource) events := by
  have hroles : Guarded step (KeepsRoles target)
      (State.initial now redis source dataSource) events :=
    guarded_of_forall fun event hevent _ roles hchange =>
      hkeeps roles (hchange ▸ hevent)
  refine always_iff_guarded (KeepsRoles target) (Stocked target)
    (NeverEmpty target) (fun _ hstocked => hstocked.neverEmpty) ?_ ?_
    (Stocked.initial hsource hredis) hroles hrun
  · exact fun _ _ _ hstocked hkeeps hfinds hstep =>
      hstocked.of_step hkeeps hfinds hstep
  · exact fun _ _ _ _ _ hmisses hstep => not_neverEmpty_of_step hmisses hstep

/-- Contention for a lock is reported as absence exactly where a wait is over:
for any calls of `getOrSet` for a key, and for the reads of the role cache. -/
theorem contention_not_absence {Raw Value : Type*} [DecidableEq Raw]
    (encode : Option Value → Raw) (key : String) (target : Target) :
    (∀ now redis source events final, source ≠ none →
      (∀ value, .change value ∈ events → value ≠ none) →
      run (GetOrSet.Callers.step encode key)
        (GetOrSet.Callers.initial now redis source) events = some final →
      ((∀ first, first <+: events → ∀ middle,
          run (GetOrSet.Callers.step encode key)
              (GetOrSet.Callers.initial now redis source) first = some middle →
            GetOrSet.NoNull middle) ↔
        Guarded (GetOrSet.Callers.step encode key) GetOrSet.WaitsOn
          (GetOrSet.Callers.initial now redis source) events)) ∧
    ∀ now redis source dataSource events final, source target ≠ [] →
      (∀ raw, TtlStore.get redis (cacheKey target) = some raw → Filled raw) →
      (∀ roles, .change target roles ∈ events → roles ≠ []) →
      run step (State.initial now redis source dataSource) events =
        some final →
      ((∀ first, first <+: events → ∀ middle,
          run step (State.initial now redis source dataSource) first =
              some middle → NeverEmpty target middle) ↔
        Guarded step (FindsRoles target)
          (State.initial now redis source dataSource) events) := by
  constructor
  · intro now redis source events final hsource hkeeps hrun
    exact GetOrSet.noNull_iff hsource hkeeps hrun
  · intro now redis source dataSource events final hsource hredis hkeeps hrun
    exact neverEmpty_iff hsource hredis hkeeps hrun

/-- Call 0 holds the lock while it fetches; call 1 waits four seconds. -/
def slowFetch : List (GetOrSet.CallersEvent Cached Roles) :=
  [.call 0 (cacheOptions .user), .act 0 (.get .ok), .act 0 (.setnx (.lock 0) .ok),
    .call 1 (cacheOptions .user), .act 1 (.get .ok), .act 1 (.setnx (.lock 1) .ok),
    .act 1 .resume, .tick 4000, .act 1 (.retry .ok), .act 1 .resume]

/-- The same calls as reads of the roles of a user. -/
def slowRead : List Event :=
  [.call 0 0 userTarget, .read 0 (.get .ok), .read 0 (.setnx (.lock 0) .ok),
    .call 1 0 userTarget, .read 1 (.get .ok), .read 1 (.setnx (.lock 1) .ok),
    .read 1 .resume, .tick 4000, .read 1 (.retry .ok), .read 1 .resume,
    .finish 1]

/-- Whether a call gave up its wait. -/
def gaveUp (callers : GetOrSet.Callers Cached Roles) (i : ℕ) : Bool :=
  match callers.calls i with
  | some (_, .returned .gaveUp) => true
  | _ => false

/-- What the memory of an instance holds for the target. -/
def cachedRoles (state : State) (site : ℕ) (target : Target) : Option Roles :=
  ((state.l1 (site, target.kind)).cache.get target.id).map Item.value

/-- An administrator is returned, and kept in memory, as a user without
roles. -/
theorem not_neverEmpty_of_slowRead :
    (∃ final, run (GetOrSet.Callers.step encode "auth:user:user-1:roles")
        (GetOrSet.Callers.initial 0 TtlStore.empty (some ["admin"])) slowFetch =
          some final ∧ ¬ GetOrSet.NoNull final) ∧
    ∃ final, run step (State.initial 0 TtlStore.empty adminSource fun _ => true)
        slowRead = some final ∧
      final.source userTarget = ["admin"] ∧
      returnedRoles final 1 = some (userTarget, 0, []) ∧
      cachedRoles final 0 userTarget = some [] ∧
      ¬ NeverEmpty userTarget final := by
  constructor
  · obtain ⟨final, hrun, hnull⟩ := Option.map_eq_some_iff.mp
      (show (run (GetOrSet.Callers.step encode "auth:user:user-1:roles")
        (GetOrSet.Callers.initial 0 TtlStore.empty (some ["admin"]))
        slowFetch).map (fun callers => gaveUp callers 1) = some true
        by decide +kernel)
    refine ⟨final, hrun, fun hnoNull => ?_⟩
    unfold gaveUp at hnull
    split at hnull
    · rename_i options hcall
      exact Bool.noConfusion (hnoNull 1 options .gaveUp hcall)
    · cases hnull
  · obtain ⟨final, hrun, hfacts⟩ := Option.map_eq_some_iff.mp
      (show (run step (State.initial 0 TtlStore.empty adminSource fun _ => true)
        slowRead).map (fun state =>
          (returnedRoles state 1, cachedRoles state 0 userTarget)) =
            some (some (userTarget, 0, []), some []) by decide +kernel)
    have hsource : (run step (State.initial 0 TtlStore.empty adminSource
        fun _ => true) slowRead).map (fun state => state.source userTarget) =
          some ["admin"] := by decide +kernel
    rw [hrun, Option.map_some, Option.some.injEq] at hsource
    obtain ⟨hreturned, hcached⟩ := Prod.mk.inj hfacts
    refine ⟨final, hrun, hsource, hreturned, hcached, fun hnever => ?_⟩
    obtain ⟨item, hitem, hvalue⟩ := Option.map_eq_some_iff.mp hcached
    exact hnever.cached 0 item hitem hvalue

/-- A call that finds the value while it waits. -/
def shortFetch : List (GetOrSet.CallersEvent Cached Roles) :=
  [.call 0 (cacheOptions .user), .act 0 (.get .ok), .act 0 (.setnx (.lock 0) .ok),
    .call 1 (cacheOptions .user), .act 1 (.get .ok), .act 1 (.setnx (.lock 1) .ok),
    .act 1 .resume, .act 0 (.fetch 0 .ok), .act 0 (.set .ok), .tick 100,
    .act 1 (.retry .ok), .act 1 .resume]

theorem contention_not_absence_of_shortFetch :
    (∃ final, run (GetOrSet.Callers.step encode "auth:user:user-1:roles")
        (GetOrSet.Callers.initial 0 TtlStore.empty (some ["admin"])) shortFetch =
          some final ∧
      ((∀ first, first <+: shortFetch → ∀ middle,
          run (GetOrSet.Callers.step encode "auth:user:user-1:roles")
              (GetOrSet.Callers.initial 0 TtlStore.empty (some ["admin"]))
              first = some middle → GetOrSet.NoNull middle) ↔
        Guarded (GetOrSet.Callers.step encode "auth:user:user-1:roles")
          GetOrSet.WaitsOn
          (GetOrSet.Callers.initial 0 TtlStore.empty (some ["admin"]))
          shortFetch)) ∧
    ∃ final, run step (State.initial 0 TtlStore.empty adminSource fun _ => true)
        missRun = some final ∧
      ((∀ first, first <+: missRun → ∀ middle,
          run step (State.initial 0 TtlStore.empty adminSource fun _ => true)
              first = some middle → NeverEmpty userTarget middle) ↔
        Guarded step (FindsRoles userTarget)
          (State.initial 0 TtlStore.empty adminSource fun _ => true)
          missRun) := by
  obtain ⟨hcalls, hreads⟩ :=
    contention_not_absence encode "auth:user:user-1:roles" userTarget
  obtain ⟨final, hrun⟩ := Option.isSome_iff_exists.mp
    (show (run (GetOrSet.Callers.step encode "auth:user:user-1:roles")
      (GetOrSet.Callers.initial 0 TtlStore.empty (some ["admin"]))
      shortFetch).isSome by decide +kernel)
  obtain ⟨last, hlast⟩ := Option.isSome_iff_exists.mp
    (show (run step (State.initial 0 TtlStore.empty adminSource fun _ => true)
      missRun).isSome by decide +kernel)
  refine ⟨⟨final, hrun, hcalls _ _ _ _ final nofun ?_ hrun⟩, last, hlast,
    hreads _ _ _ _ _ last nofun nofun ?_ hlast⟩
  · simp [shortFetch]
  · simp [missRun]

end OceanChat.Authorization
