import OceanChat.Authorization.RoleCache

/-!
# Revoked roles

After an invalidation has completed, the reads that start more than the lifetime
of the memory caches later return lists that the data source held since the
change exactly when nothing that was under way brings an older list back.
-/

namespace OceanChat.Authorization

open Runs

/-- The list that a step puts into the data source. -/
def changed (target : Target) (_ : State) : Event → List Roles
  | .change target' roles => if target' = target then [roles] else []
  | _ => []

/-- The text that a step writes into Redis under the key of the target. -/
def writes (target : Target) (state : State) : Event → Option Cached
  | .read id action =>
      match state.calls id with
      | some ⟨_, target', _, .reading phase⟩ =>
          GetOrSet.writes encode (cacheKey target') (cacheKey target) state.redis
            phase action
      | _ => none
  | _ => none

/-- The list that a read returns when it finds the text in Redis. -/
def readRoles : Cached → Option Roles
  | .roles roles => some roles
  | .null => some []
  | .lock _ => none

/-- The list that a step puts into a memory cache after the deletion, for a read
that has come before it or has found no list. -/
def lateRoles (target : Target) (deleted state : State) : Event → Option Roles
  | .finish id =>
      match state.calls id with
      | some ⟨_, target', _, .finishing roles⟩ =>
          if target' = target ∧ deleted.now < state.now ∧
              (deleted.calls id ≠ none ∨ roles = none) then
            some (roles.getD [])
          else none
      | _ => none
  | _ => none

def Reads (held : List Roles) (raw : Cached) : Prop :=
  ∀ roles, readRoles raw = some roles → roles ∈ held

/-- A read that has started late enough and has returned, has returned a list of
the history, and so does one that starts `ms` later, late enough, and finds an
entry in the memory of its instance or in Redis. -/
structure Revoked (target : Target) (deleted : State)
    (current : State × List Roles) : Prop where
  returned : ∀ id site startedAt roles, deleted.calls id = none →
    current.1.calls id = some ⟨site, target, startedAt, .returned roles⟩ →
    deleted.now + l1CacheTtlMs < startedAt → roles ∈ current.2
  l1Hit : ∀ ms id site startedAt roles final,
    deleted.now + l1CacheTtlMs < current.1.now + ms →
    current.1.calls id = none →
    run step current.1 [.tick ms, .call id site target] = some final →
    final.calls id = some ⟨site, target, startedAt, .returned roles⟩ →
      roles ∈ current.2
  l2Hit : ∀ ms id site startedAt roles final,
    deleted.now + l1CacheTtlMs < current.1.now + ms →
    current.1.calls id = none →
    run step current.1 [.tick ms, .call id site target, .read id (.get .ok),
      .finish id] = some final →
    TtlStore.get final.redis (cacheKey target) ≠ none →
    final.calls id = some ⟨site, target, startedAt, .returned roles⟩ →
      roles ∈ current.2

/-- What the step writes into Redis or brings late into a memory cache is a list
of the history. -/
def KeepsRevoked (target : Target) (deleted : State)
    (current : State × List Roles) (event : Event) : Prop :=
  (∀ raw, writes target current.1 event = some raw → Reads current.2 raw) ∧
  ∀ roles, lateRoles target deleted current.1 event = some roles →
    roles ∈ current.2

/-! ## What a step does -/

/-- The read that a step belongs to. -/
def Event.target : Event → Option ℕ
  | .call id .. | .read id _ | .finish id => some id
  | _ => none

section Steps

variable {target : Target} {state next : State} {event : Event}

theorem calls_of_step (hstep : step state event = some next) {id : ℕ}
    (hother : event.target ≠ some id) : next.calls id = state.calls id := by
  cases effect_of_step hstep with
  | call | read | get | finish =>
      refine Function.update_of_ne ?_ _ _
      rintro rfl
      exact hother rfl
  | _ => rfl

theorem calls_ne_none_of_step (hstep : step state event = some next) {id : ℕ}
    (hcall : state.calls id ≠ none) : next.calls id ≠ none := by
  by_cases htarget : event.target = some id
  · cases effect_of_step hstep with
    | call | read | get | finish =>
        obtain rfl := Option.some.inj htarget
        simp
    | _ => cases htarget
  · rwa [calls_of_step hstep htarget]

theorem now_le_of_step (hstep : step state event = some next) :
    state.now ≤ next.now := by
  cases effect_of_step hstep with
  | tick => exact Nat.le_add_right _ _
  | _ => exact le_rfl

/-- A step changes the list in the data source and says so, or leaves it. -/
theorem source_of_step (hstep : step state event = some next) (target : Target) :
    (changed target state event = [] ∧ next.source target = state.source target) ∨
      changed target state event = [next.source target] := by
  cases effect_of_step hstep with
  | @change target' roles =>
      by_cases htarget : target' = target
      · exact .inr (by simp [changed, htarget])
      · exact .inl ⟨by simp [changed, htarget],
          Function.update_of_ne (fun heq => htarget heq.symm) _ _⟩
  | _ => exact .inl ⟨rfl, rfl⟩

/-- A step writes the entry in Redis and says so, or writes nothing new. -/
theorem entry_of_step (hstep : step state event = some next) (target : Target) :
    (writes target state event = none ∧
        ∀ raw, TtlStore.get next.redis (cacheKey target) = some raw →
          TtlStore.get state.redis (cacheKey target) = some raw) ∨
      ∃ raw, writes target state event = some raw ∧
        TtlStore.get next.redis (cacheKey target) = some raw := by
  cases effect_of_step hstep with
  | @read id action site target' startedAt phase redis phase' hcall hread =>
      simp only [writes, hcall]
      rcases GetOrSet.entry_of_step hread (cacheKey target) with
        ⟨hwrites, hsame | hnone⟩ | hwritten
      · exact .inl ⟨hwrites, fun raw hraw => by rwa [TtlStore.get, hsame] at hraw⟩
      · refine .inl ⟨hwrites, fun raw hraw => ?_⟩
        simp [TtlStore.get, hnone] at hraw
      · exact .inr hwritten
  | @get id reply site target' startedAt hcall =>
      exact .inl ⟨by simp [writes, hcall], fun raw hraw => hraw⟩
  | @del target' reply =>
      refine .inl ⟨rfl, fun raw hraw => ?_⟩
      cases htook : reply.took with
      | false => simpa [htook] using hraw
      | true =>
          by_cases hkey : cacheKey target = cacheKey target'
          · simp [htook, hkey] at hraw
          · simpa [htook, TtlStore.get_del_of_ne hkey] using hraw
  | tick => exact .inl ⟨rfl, fun raw hraw => TtlStore.get_of_get_sweep hraw⟩
  | _ => exact .inl ⟨rfl, fun raw hraw => hraw⟩

/-- An entry of a memory cache was there before, or a read has just put it
there. -/
theorem item_of_step (hstep : step state event = some next) {site : ℕ}
    {target : Target} {item : Item ℕ Roles}
    (hitem : (next.l1 (site, target.kind)).cache.get target.id = some item) :
    (state.l1 (site, target.kind)).cache.get target.id = some item ∨
      ∃ id startedAt roles, event = .finish id ∧
        state.calls id = some ⟨site, target, startedAt, .finishing roles⟩ ∧
        item = ⟨roles.getD [], state.now + l1CacheTtlMs⟩ := by
  cases effect_of_step hstep with
  | @call id site' target' =>
      by_cases hsite : (site, target.kind) = (site', target'.kind)
      · simp only [← hsite, Function.update_self] at hitem
        exact .inl (LRUCache.item_of_item_get hitem)
      · exact .inl (by simpa [Function.update_of_ne hsite] using hitem)
  | @finish id site' target' startedAt roles hcall =>
      by_cases hsite : (site, target.kind) = (site', target'.kind)
      · simp only [← hsite, Function.update_self] at hitem
        rcases LRUCache.item_of_item_set hitem with ⟨hid, rfl⟩ | hold
        · obtain ⟨rfl, hkind⟩ := Prod.mk.inj hsite
          obtain rfl : target = target' := by
            cases target
            cases target'
            simp_all
          exact .inr ⟨id, startedAt, roles, rfl, hcall, rfl⟩
        · exact .inl hold
      · exact .inl (by simpa [Function.update_of_ne hsite] using hitem)
  | @invalidate site' target' =>
      by_cases hsite : (site, target.kind) = (site', target'.kind)
      · simp only [← hsite, Function.update_self] at hitem
        exact .inl (LRUCache.item_of_item_delete hitem)
      · exact .inl (by simpa [Function.update_of_ne hsite] using hitem)
  | _ => exact .inl hitem

end Steps

/-! ## What a read holds -/

def Fetches (held : List Roles) (value : Option Roles) : Prop :=
  ∃ roles, value = some roles ∧ roles ∈ held

/-- Whatever a read can still return comes from the list, except for the empty
list of a read that has found nothing; `late` tells that it started late. -/
def Progress.Holds (held : List Roles) (late : Prop) : Progress → Prop
  | .reading phase => phase.Holds (Reads held) (Fetches held) (Fetches held)
  | .finishing (some roles) => roles ∈ held
  | .returned roles => late → roles ∈ held
  | _ => True

section Holds

variable {held held' : List Roles} {late : Prop}

theorem Fetches.mono {value : Option Roles} (hsub : ∀ roles ∈ held, roles ∈ held')
    (hfetches : Fetches held value) : Fetches held' value := by
  obtain ⟨roles, rfl, hmem⟩ := hfetches
  exact ⟨roles, rfl, hsub _ hmem⟩

theorem Reads.mono {raw : Cached} (hsub : ∀ roles ∈ held, roles ∈ held')
    (hreads : Reads held raw) : Reads held' raw :=
  fun roles hroles => hsub _ (hreads roles hroles)

theorem Progress.Holds.mono {progress : Progress}
    (hsub : ∀ roles ∈ held, roles ∈ held') (hholds : progress.Holds held late) :
    progress.Holds held' late := by
  match progress, hholds with
  | .reading phase, hholds =>
      exact GetOrSet.Phase.Holds.mono (fun _ => Reads.mono hsub)
        (fun _ => Fetches.mono hsub) (fun _ => Fetches.mono hsub) hholds
  | .finishing (some roles), hholds => exact hsub _ hholds
  | .returned roles, hholds => exact fun hlate => hsub _ (hholds hlate)
  | .finishing none, _ | .getting, _ | .threw, _ => trivial

theorem holds_parse {raw : Cached} (hreads : Reads held raw) :
    (parse raw).Holds held late := by
  cases raw with
  | roles roles => exact hreads roles rfl
  | null => trivial
  | lock lockValue => trivial

theorem holds_continueGet {reply : Reply} {entry : Option Cached}
    (hreads : ∀ raw, entry = some raw → Reads held raw) :
    (continueGet reply entry).Holds held late := by
  unfold continueGet
  split
  · exact holds_parse (hreads _ rfl)
  · trivial
  · trivial

theorem holds_continueRead {phase : GetOrSet.Phase Cached Roles}
    (hholds : phase.Holds (Reads held) (Fetches held) (Fetches held)) :
    (continueRead phase).Holds held late := by
  cases phase with
  | returned outcome =>
      cases outcome with
      | cached raw => exact holds_parse hholds
      | fetched value =>
          obtain ⟨roles, rfl, hmem⟩ := hholds
          exact hmem
      | gaveUp | threw => trivial
  | _ => exact hholds

end Holds

/-! ## What a step keeps -/

/-- All but finitely many reads are still to come. -/
def Unbounded (state : State) : Prop :=
  ∃ bound, ∀ id, bound ≤ id → state.calls id = none

/-- No entry outlives its lifetime from now, and no value is stored for less
than five minutes. -/
structure Timely (state : State) : Prop where
  expiry : ∀ site (target : Target) item,
    (state.l1 (site, target.kind)).cache.get target.id = some item →
      item.expiry ≤ state.now + l1CacheTtlMs
  lasts : ∀ id site target startedAt phase,
    state.calls id = some ⟨site, target, startedAt, .reading phase⟩ →
      phase.Lasts 300
  unbounded : Unbounded state

/-- Everything that a late read can find or bring along comes from the
history. -/
structure Served (target : Target) (deleted : State)
    (current : State × List Roles) : Prop where
  entry : ∀ raw, TtlStore.get current.1.redis (cacheKey target) = some raw →
    Reads current.2 raw
  item : ∀ site item,
    (current.1.l1 (site, target.kind)).cache.get target.id = some item →
      deleted.now + l1CacheTtlMs < item.expiry → item.value ∈ current.2
  source : current.1.source target ∈ current.2
  calls : ∀ id site startedAt progress, deleted.calls id = none →
    current.1.calls id = some ⟨site, target, startedAt, progress⟩ →
      startedAt ≤ current.1.now ∧
        progress.Holds current.2 (deleted.now + l1CacheTtlMs < startedAt)
  kept : ∀ id, deleted.calls id ≠ none → current.1.calls id ≠ none
  now_le : deleted.now ≤ current.1.now
  timely : Timely current.1

section Timely

variable {state next : State} {event : Event}

theorem Unbounded.of_step (hunbounded : Unbounded state)
    (hstep : step state event = some next) : Unbounded next :=
  exists_bound_of_step (fun _ hother => calls_of_step hstep hother) hunbounded

theorem parse_ne_reading (raw : Cached) (phase : GetOrSet.Phase Cached Roles) :
    parse raw ≠ .reading phase := by
  cases raw <;> simp [parse]

theorem continueGet_ne_reading (reply : Reply) (entry : Option Cached)
    (phase : GetOrSet.Phase Cached Roles) :
    continueGet reply entry ≠ .reading phase := by
  unfold continueGet
  split
  · exact parse_ne_reading _ _
  · simp
  · simp

theorem eq_of_continueRead {phase phase' : GetOrSet.Phase Cached Roles}
    (hcontinue : continueRead phase' = .reading phase) : phase' = phase := by
  cases phase' with
  | returned outcome =>
      cases outcome with
      | cached raw => exact absurd hcontinue (parse_ne_reading raw phase)
      | _ => cases hcontinue
  | _ => exact Progress.reading.inj hcontinue

theorem eq_of_startRead {l1 : Option Roles} {dataSource : Bool}
    {phase : GetOrSet.Phase Cached Roles}
    (hstart : startRead l1 dataSource = .reading phase) : .getting = phase := by
  unfold startRead at hstart
  split at hstart
  · cases hstart
  · split at hstart
    · exact Progress.reading.inj hstart
    · cases hstart

theorem le_cacheOptions (kind : Kind) :
    300 ≤ (cacheOptions kind).ttl ∧ 300 ≤ (cacheOptions kind).nullTtl := by
  cases kind <;> decide

theorem lasts_of_step
    (hlasts : ∀ id site target startedAt phase,
      state.calls id = some ⟨site, target, startedAt, .reading phase⟩ →
        phase.Lasts 300)
    (hstep : step state event = some next) {id site startedAt : ℕ}
    {target : Target} {phase : GetOrSet.Phase Cached Roles}
    (hcall : next.calls id = some ⟨site, target, startedAt, .reading phase⟩) :
    phase.Lasts 300 := by
  by_cases htarget : event.target = some id
  · cases effect_of_step hstep with
    | @call id' site' target' hnone =>
        obtain rfl := Option.some.inj htarget
        simp only [Function.update_self, Option.some.injEq, Call.mk.injEq] at hcall
        obtain ⟨-, -, -, hstart⟩ := hcall
        rw [← eq_of_startRead hstart]
        trivial
    | @read id' action site' target' startedAt' phase' redis phase'' hread hphase =>
        obtain rfl := Option.some.inj htarget
        simp only [Function.update_self, Option.some.injEq, Call.mk.injEq] at hcall
        obtain ⟨-, -, -, hcontinue⟩ := hcall
        obtain ⟨httl, hnullTtl⟩ := le_cacheOptions target'.kind
        rw [← eq_of_continueRead hcontinue]
        exact GetOrSet.lasts_of_step hphase httl hnullTtl
    | @get id' reply site' target' startedAt' hget =>
        obtain rfl := Option.some.inj htarget
        simp only [Function.update_self, Option.some.injEq, Call.mk.injEq] at hcall
        exact absurd hcall.2.2.2 (continueGet_ne_reading _ _ _)
    | @finish id' site' target' startedAt' roles hfinish =>
        obtain rfl := Option.some.inj htarget
        simp at hcall
    | _ => cases htarget
  · rw [calls_of_step hstep htarget] at hcall
    exact hlasts id site target startedAt phase hcall

theorem Timely.of_step (htimely : Timely state)
    (hstep : step state event = some next) : Timely next where
  expiry site target item hitem := by
    have hnow := now_le_of_step hstep
    rcases item_of_step hstep hitem with hold | ⟨id, startedAt, roles, -, -, rfl⟩
    · have hle := htimely.expiry site target item hold
      omega
    · exact Nat.add_le_add_right hnow _
  lasts id site target startedAt phase hcall := lasts_of_step htimely.lasts hstep hcall
  unbounded := htimely.unbounded.of_step hstep

end Timely

section Keeps

variable {target : Target} {deleted state next : State} {held : List Roles}
variable {event : Event}

theorem Served.item_of_step (hserved : Served target deleted (state, held))
    (hkeeps : KeepsRevoked target deleted (state, held) event)
    (hstep : step state event = some next) {site : ℕ} {item : Item ℕ Roles}
    (hitem : (next.l1 (site, target.kind)).cache.get target.id = some item)
    (hlate : deleted.now + l1CacheTtlMs < item.expiry) : item.value ∈ held := by
  rcases OceanChat.Authorization.item_of_step hstep hitem with
    hold | ⟨id, startedAt, roles, rfl, hcall, rfl⟩
  · exact hserved.item site item hold hlate
  · have hnow : deleted.now < state.now := by
      simp only at hlate
      omega
    -- A read that has come since the deletion brings a list of the history.
    by_cases hguard : deleted.calls id ≠ none ∨ roles = none
    · exact hkeeps.2 _ (by simp [lateRoles, hcall, hnow, hguard])
    · obtain ⟨hnew, hsome⟩ := not_or.mp hguard
      obtain ⟨roles, rfl⟩ := Option.ne_none_iff_exists'.mp hsome
      exact (hserved.calls id site startedAt _ (not_not.mp hnew) hcall).2

theorem Served.holds_startRead (hserved : Served target deleted (state, held))
    (site : ℕ) (dataSource : Bool) :
    (startRead ((state.l1 (site, target.kind)).get state.now target.id).1
      dataSource).Holds held (deleted.now + l1CacheTtlMs < state.now) := by
  cases hl1 : ((state.l1 (site, target.kind)).get state.now target.id).1 with
  | none =>
      cases dataSource <;> trivial
  | some roles =>
      intro hlate
      obtain ⟨item, hitem, hfresh, rfl⟩ := LRUCache.get_eq_some hl1
      exact hserved.item site item hitem (hlate.trans_le hfresh)

theorem Served.calls_of_step (hserved : Served target deleted (state, held))
    (hkeeps : KeepsRevoked target deleted (state, held) event)
    (hstep : step state event = some next) {id site startedAt : ℕ}
    {progress : Progress} (hnew : deleted.calls id = none)
    (hcall : next.calls id = some ⟨site, target, startedAt, progress⟩) :
    startedAt ≤ next.now ∧
      progress.Holds held (deleted.now + l1CacheTtlMs < startedAt) := by
  have hnow := now_le_of_step hstep
  by_cases htarget : event.target = some id
  · cases effect_of_step hstep with
    | @call id' site' target' hnone =>
        obtain rfl := Option.some.inj htarget
        simp only [Function.update_self, Option.some.injEq, Call.mk.injEq] at hcall
        obtain ⟨rfl, rfl, rfl, rfl⟩ := hcall
        exact ⟨le_rfl, hserved.holds_startRead site' (state.dataSource site')⟩
    | @read id' action site' target' startedAt' phase redis phase' hread hphase =>
        obtain rfl := Option.some.inj htarget
        simp only [Function.update_self, Option.some.injEq, Call.mk.injEq] at hcall
        obtain ⟨rfl, rfl, rfl, rfl⟩ := hcall
        obtain ⟨hstarted, hholds⟩ := hserved.calls id' _ _ _ hnew hread
        obtain ⟨httl, hnullTtl⟩ := le_cacheOptions target'.kind
        have hwrites : ∀ raw, GetOrSet.writes encode (cacheKey target')
            (cacheKey target') state.redis phase action = some raw →
              Reads held raw :=
          fun raw hraw => hkeeps.1 raw (by simpa only [writes, hread] using hraw)
        have hholds' : phase'.Holds (Reads held) (Fetches held) (Fetches held) :=
          GetOrSet.Phase.Holds.of_step hholds hphase (by omega) (by omega)
            hserved.entry ⟨_, rfl, hserved.source⟩ hwrites fun _ hfetches _ => hfetches
        exact ⟨hstarted, holds_continueRead hholds'⟩
    | @get id' reply site' target' startedAt' hget =>
        obtain rfl := Option.some.inj htarget
        simp only [Function.update_self, Option.some.injEq, Call.mk.injEq] at hcall
        obtain ⟨rfl, rfl, rfl, rfl⟩ := hcall
        exact ⟨(hserved.calls id' _ _ _ hnew hget).1, holds_continueGet hserved.entry⟩
    | @finish id' site' target' startedAt' roles hfinish =>
        obtain rfl := Option.some.inj htarget
        simp only [Function.update_self, Option.some.injEq, Call.mk.injEq] at hcall
        obtain ⟨rfl, rfl, rfl, rfl⟩ := hcall
        obtain ⟨hstarted, hholds⟩ := hserved.calls id' _ _ _ hnew hfinish
        refine ⟨hstarted, fun hlate => ?_⟩
        cases roles with
        | some roles => exact hholds
        | none =>
            have hnow' : deleted.now < state.now := by
              simp only at hstarted
              omega
            exact hkeeps.2 [] (by simp [lateRoles, hfinish, hnow'])
    | _ => cases htarget
  · rw [OceanChat.Authorization.calls_of_step hstep htarget] at hcall
    obtain ⟨hstarted, hholds⟩ := hserved.calls id site startedAt progress hnew hcall
    exact ⟨hstarted.trans hnow, hholds⟩

theorem Served.of_step (hserved : Served target deleted (state, held))
    (hkeeps : KeepsRevoked target deleted (state, held) event)
    (hstep : step state event = some next) :
    Served target deleted (next, held ++ changed target state event) := by
  have hsub : ∀ roles ∈ held, roles ∈ held ++ changed target state event :=
    fun roles hmem => List.mem_append_left _ hmem
  have hnow := now_le_of_step hstep
  refine ⟨fun raw hraw => ?_, fun site item hitem hlate =>
    hsub _ (hserved.item_of_step hkeeps hstep hitem hlate), ?_,
    fun id site startedAt progress hnew hcall => ?_,
    fun id hold => calls_ne_none_of_step hstep (hserved.kept id hold),
    hserved.now_le.trans hnow, hserved.timely.of_step hstep⟩
  · rcases entry_of_step hstep target with ⟨-, hsame⟩ | ⟨text, hwrites, htext⟩
    · exact (hserved.entry raw (hsame raw hraw)).mono hsub
    · obtain rfl := Option.some.inj (htext.symm.trans hraw)
      exact (hkeeps.1 text hwrites).mono hsub
  · rcases source_of_step hstep target with ⟨-, hsame⟩ | hchanged
    · rw [hsame]
      exact hsub _ hserved.source
    · simp [hchanged]
  · obtain ⟨hstarted, hholds⟩ := hserved.calls_of_step hkeeps hstep hnew hcall
    exact ⟨hstarted, hholds.mono hsub⟩

end Keeps

/-! ## Reads by themselves -/

section Alone

variable {target : Target} {state final : State} {id site startedAt : ℕ}
variable {roles : Roles}

/-- A read that returns at once has found a fresh entry in the memory. -/
theorem exists_item_of_run
    (hrun : run step state [.call id site target] = some final)
    (hcall : final.calls id = some ⟨site, target, startedAt, .returned roles⟩) :
    ∃ item, (state.l1 (site, target.kind)).cache.get target.id = some item ∧
      state.now ≤ item.expiry ∧ item.value = roles := by
  obtain ⟨final', hstep, hrun⟩ := run_cons_eq_some.mp hrun
  obtain rfl : final' = final := by simpa using hrun
  cases effect_of_step hstep with
  | call hnone =>
      simp only [Function.update_self, Option.some.injEq, Call.mk.injEq] at hcall
      obtain ⟨-, -, -, hstart⟩ := hcall
      cases hl1 : ((state.l1 (site, target.kind)).get state.now target.id).1 with
      | none =>
          rw [hl1] at hstart
          cases hsource : state.dataSource site <;> simp [startRead, hsource] at hstart
      | some found =>
          obtain ⟨item, hitem, hfresh, rfl⟩ := LRUCache.get_eq_some hl1
          rw [hl1] at hstart
          exact ⟨item, hitem, hfresh, Progress.returned.inj hstart⟩

theorem readRoles_of_parse {raw : Cached} {result : Option Roles}
    (hparse : parse raw = .finishing result) :
    readRoles raw = some (result.getD []) := by
  cases raw with
  | roles roles =>
      obtain rfl := Progress.finishing.inj hparse
      rfl
  | null =>
      obtain rfl := Progress.finishing.inj hparse
      rfl
  | lock lockValue => cases hparse

/-- A read that returns after one `GET` while the entry is in Redis has read
it. -/
theorem exists_raw_of_run
    (hrun : run step state [.call id site target, .read id (.get .ok),
      .finish id] = some final)
    (hentry : TtlStore.get final.redis (cacheKey target) ≠ none)
    (hcall : final.calls id = some ⟨site, target, startedAt, .returned roles⟩) :
    ∃ raw, TtlStore.get state.redis (cacheKey target) = some raw ∧
      readRoles raw = some roles := by
  obtain ⟨called, hcalled, hrun⟩ := run_cons_eq_some.mp hrun
  obtain ⟨got, hgot, hrun⟩ := run_cons_eq_some.mp hrun
  obtain ⟨final', hfinish, hrun⟩ := run_cons_eq_some.mp hrun
  obtain rfl : final' = final := by simpa using hrun
  cases effect_of_step hfinish with
  | @finish _ site' target' startedAt' result hfinishing =>
      simp only [Function.update_self, Option.some.injEq, Call.mk.injEq] at hcall
      obtain ⟨rfl, rfl, rfl, hreturned⟩ := hcall
      obtain rfl := Progress.returned.inj hreturned
      obtain ⟨raw, hraw⟩ := Option.ne_none_iff_exists'.mp hentry
      cases effect_of_step hcalled with
      | call hnone =>
          cases effect_of_step hgot with
          | @read _ _ site'' target'' startedAt'' phase redis phase' hreading hphase =>
              simp only [Function.update_self, Option.some.injEq,
                Call.mk.injEq] at hreading hfinishing
              obtain ⟨rfl, rfl, -, hstart⟩ := hreading
              obtain rfl := eq_of_startRead hstart
              obtain ⟨rfl, rfl⟩ := Prod.mk.inj (Option.some.inj hphase)
              simp only [hraw, continueRead] at hfinishing
              exact ⟨raw, hraw, readRoles_of_parse hfinishing.2.2.2⟩
          | @get _ _ site'' target'' startedAt'' hgetting =>
              simp only [Function.update_self, Option.some.injEq,
                Call.mk.injEq] at hgetting hfinishing
              obtain ⟨rfl, rfl, -, hstart⟩ := hgetting
              simp only [hraw, continueGet] at hfinishing
              exact ⟨raw, hraw, readRoles_of_parse hfinishing.2.2.2⟩

end Alone

section Revoked

variable {target : Target} {deleted state next : State} {held : List Roles}
variable {event : Event}

theorem run_tick_cons {state final : State} {ms : ℕ} {events : List Event}
    (hrun : run step state (.tick ms :: events) = some final) :
    run step { state with
      now := state.now + ms
      redis := TtlStore.sweep state.redis (state.now + ms) } events = some final := by
  obtain ⟨ticked, hticked, hrun⟩ := run_cons_eq_some.mp hrun
  obtain rfl := Option.some.inj hticked
  exact hrun

theorem Served.revoked {current : State × List Roles}
    (hserved : Served target deleted current) : Revoked target deleted current where
  returned id site startedAt roles hnew hcall hlate :=
    (hserved.calls id site startedAt _ hnew hcall).2 hlate
  l1Hit ms id site startedAt roles final hlate hnone hrun hcall := by
    obtain ⟨item, hitem, hfresh, rfl⟩ := exists_item_of_run (run_tick_cons hrun) hcall
    exact hserved.item site item hitem (hlate.trans_le hfresh)
  l2Hit ms id site startedAt roles final hlate hnone hrun hentry hcall := by
    obtain ⟨raw, hraw, hroles⟩ := exists_raw_of_run (run_tick_cons hrun) hentry hcall
    exact hserved.entry raw (TtlStore.get_of_get_sweep hraw) roles hroles

/-- A fresh entry of a memory cache is returned by a read that starts while it
lasts. -/
theorem exists_run_l1Hit (hunbounded : Unbounded state) {site ms : ℕ}
    {item : Item ℕ Roles}
    (hitem : (state.l1 (site, target.kind)).cache.get target.id = some item)
    (hfresh : state.now + ms ≤ item.expiry) :
    ∃ id final, state.calls id = none ∧
      run step state [.tick ms, .call id site target] = some final ∧
      final.calls id =
        some ⟨site, target, state.now + ms, .returned item.value⟩ := by
  obtain ⟨id, hbound⟩ := hunbounded
  have hnone := hbound id le_rfl
  have hl1 := LRUCache.get_of_fresh hitem hfresh
  have hfinal : (run step state [.tick ms, .call id site target]).map
      (fun final => final.calls id) =
        some (some ⟨site, target, state.now + ms, .returned item.value⟩) := by
    simp [run, step, hnone, hl1, startRead]
  obtain ⟨final, hrun, hcall⟩ := Option.map_eq_some_iff.mp hfinal
  exact ⟨id, final, hnone, hrun, hcall⟩

/-- An entry that stays in Redis is returned by a read that starts after the
entries of the memory caches have expired. -/
theorem exists_run_l2Hit (htimely : Timely state) {deadline : ℕ} {raw : Cached}
    {roles : Roles}
    (hentry : state.redis (cacheKey target) = some ⟨raw, some deadline⟩)
    (hdeadline : state.now + 300 * 1000 ≤ deadline)
    (hroles : readRoles raw = some roles) :
    ∃ id final, state.calls id = none ∧
      run step state [.tick (l1CacheTtlMs + 1), .call id 0 target,
        .read id (.get .ok), .finish id] = some final ∧
      TtlStore.get final.redis (cacheKey target) ≠ none ∧
      final.calls id = some ⟨0, target, state.now + (l1CacheTtlMs + 1),
        .returned roles⟩ := by
  obtain ⟨id, hbound⟩ := htimely.unbounded
  have hnone := hbound id le_rfl
  have hl1 : ((state.l1 (0, target.kind)).get (state.now + (l1CacheTtlMs + 1))
      target.id).1 = none := by
    refine LRUCache.get_of_expired fun item hitem => ?_
    have hle := htimely.expiry 0 target item hitem
    omega
  have hget : TtlStore.get
      (TtlStore.sweep state.redis (state.now + (l1CacheTtlMs + 1)))
      (cacheKey target) = some raw := by
    have hlive : TtlStore.Entry.due ⟨raw, some deadline⟩
        (state.now + (l1CacheTtlMs + 1)) = false := by
      refine decide_eq_false ?_
      simp only [l1CacheTtlMs]
      omega
    rw [TtlStore.get, TtlStore.sweep_of_live hentry hlive]
    rfl
  obtain ⟨result, hparse, hresult⟩ : ∃ result, parse raw = .finishing result ∧
      result.getD [] = roles := by
    cases raw with
    | roles found => exact ⟨some found, rfl, Option.some.inj hroles⟩
    | null => exact ⟨none, rfl, Option.some.inj hroles⟩
    | lock lockValue => cases hroles
  have hfinal : (run step state [.tick (l1CacheTtlMs + 1), .call id 0 target,
      .read id (.get .ok), .finish id]).map (fun final =>
        (TtlStore.get final.redis (cacheKey target), final.calls id)) =
      some (some raw, some ⟨0, target, state.now + (l1CacheTtlMs + 1),
        .returned roles⟩) := by
    cases hsource : state.dataSource 0 <;>
      simp [run, step, hnone, hl1, startRead, hsource, GetOrSet.step, hget,
        continueGet, continueRead, hparse, hresult]
  obtain ⟨final, hrun, hprojected⟩ := Option.map_eq_some_iff.mp hfinal
  obtain ⟨hraw, hcall⟩ := Prod.mk.inj hprojected
  exact ⟨id, final, hnone, hrun, by simp [hraw], hcall⟩

/-- A text that is written into Redis stays until the entries of the memory
caches have expired. -/
theorem exists_entry_of_writes (htimely : Timely state)
    (hstep : step state event = some next) {raw : Cached}
    (hwrites : writes target state event = some raw) :
    changed target state event = [] ∧ ∃ deadline,
      next.redis (cacheKey target) = some ⟨raw, some deadline⟩ ∧
      next.now + 300 * 1000 ≤ deadline := by
  cases effect_of_step hstep with
  | @read id action site target' startedAt phase redis phase' hcall hread =>
      simp only [writes, hcall] at hwrites
      exact ⟨rfl, GetOrSet.exists_entry_of_writes hread
        (htimely.lasts id site target' startedAt phase hcall)
        (cacheKey_ne_lockKey target target') hwrites⟩
  | @get id reply site target' startedAt hcall => simp [writes, hcall] at hwrites
  | _ => cases hwrites

/-- A late read that brings a list along puts it into its memory. -/
theorem exists_item_of_lateRoles (hstep : step state event = some next)
    {roles : Roles} (hlate : lateRoles target deleted state event = some roles) :
    changed target state event = [] ∧ deleted.now < next.now ∧ ∃ site,
      (next.l1 (site, target.kind)).cache.get target.id =
        some ⟨roles, next.now + l1CacheTtlMs⟩ := by
  cases effect_of_step hstep with
  | @finish id site target' startedAt result hcall =>
      simp only [lateRoles, hcall, Option.ite_none_right_eq_some,
        Option.some.injEq] at hlate
      obtain ⟨⟨rfl, hnow, -⟩, rfl⟩ := hlate
      exact ⟨rfl, hnow, site, by simp [LRUCache.item_set_same]⟩
  | _ => cases hlate

/-- Outside the guard a late read can return another list. -/
theorem not_revoked_of_not_keepsRevoked
    (hserved : Served target deleted (state, held))
    (hbad : ¬ KeepsRevoked target deleted (state, held) event)
    (hstep : step state event = some next) :
    ¬ Revoked target deleted (next, held ++ changed target state event) := by
  intro hrevoked
  have htimely := hserved.timely.of_step hstep
  have hnow : deleted.now ≤ next.now := hserved.now_le.trans (now_le_of_step hstep)
  apply hbad
  constructor
  · intro raw hwrites roles hroles
    obtain ⟨hchanged, deadline, hentry, hdeadline⟩ :=
      exists_entry_of_writes hserved.timely hstep hwrites
    obtain ⟨id, final, hnone, hrun, hfound, hcall⟩ :=
      exists_run_l2Hit htimely hentry hdeadline hroles
    have hmem := hrevoked.l2Hit (l1CacheTtlMs + 1) id 0 _ roles final
      (by simp only; omega) hnone hrun hfound hcall
    rwa [hchanged, List.append_nil] at hmem
  · intro roles hlate
    obtain ⟨hchanged, hlater, site, hitem⟩ := exists_item_of_lateRoles hstep hlate
    have hfresh : next.now + l1CacheTtlMs ≤
        Item.expiry ⟨roles, next.now + l1CacheTtlMs⟩ := le_rfl
    obtain ⟨id, final, hnone, hrun, hcall⟩ :=
      exists_run_l1Hit htimely.unbounded hitem hfresh
    have hmem := hrevoked.l1Hit l1CacheTtlMs id site _ roles final
      (by simp only; omega) hnone hrun hcall
    rwa [hchanged, List.append_nil] at hmem

end Revoked

/-! ## Runs -/

/-- The lists of the target from a change on. -/
def heldSince (target : Target) (roles : Roles) (current : State)
    (events : List Event) : List Roles :=
  [roles] ++ trace step (changed target) current events

section Run

variable {target : Target} {roles : Roles} {now : ℕ}
variable {redis : TtlStore.Store String Cached} {source : Target → Roles}
variable {dataSource : ℕ → Bool} {before between after : List Event}
variable {ready stale pending deleted final : State}

theorem Timely.initial : Timely (State.initial now redis source dataSource) where
  expiry site target item hitem := by
    simp [State.initial] at hitem
  lasts id site target startedAt phase hcall := by
    cases hcall
  unbounded := ⟨0, fun _ _ => rfl⟩

theorem source_mem_heldSince
    (hchange : step ready (.change target roles) = some stale)
    (hbetween : run step stale between = some pending) :
    pending.source target ∈ heldSince target roles stale between := by
  refine trace_invariant (fun state history => state.source target ∈ history)
    ?_ ?_ (guarded_true _ _) hbetween
  · intro state history event next hmem _ hstep
    rcases source_of_step hstep target with ⟨-, hsame⟩ | hchanged
    · rw [hsame]
      exact List.mem_append_left _ hmem
    · simp [hchanged]
  · obtain rfl := Option.some.inj hchange
    simp

theorem served_of_runs
    (hbefore : run step (State.initial now redis source dataSource) before =
      some ready)
    (hchange : step ready (.change target roles) = some stale)
    (hbetween : run step stale between = some pending)
    (hdel : step pending (.del target .ok) = some deleted) :
    Served target deleted (deleted, heldSince target roles stale between) := by
  have hready : Timely ready :=
    run_invariant Timely (fun _ _ _ htimely hstep => htimely.of_step hstep)
      .initial hbefore
  have hpending : Timely pending :=
    run_invariant Timely (fun _ _ _ htimely hstep => htimely.of_step hstep)
      (hready.of_step hchange) hbetween
  have htimely := hpending.of_step hdel
  have hsource := source_mem_heldSince hchange hbetween
  refine ⟨fun raw hraw => ?_, fun site item hitem hlate => ?_, ?_, ?_,
    fun id hold => hold, le_rfl, htimely⟩
  · cases effect_of_step hdel with
    | del => simp [Reply.took] at hraw
  · exact absurd (htimely.expiry site target item hitem) (not_le.mpr hlate)
  · cases effect_of_step hdel with
    | del => exact hsource
  · intro id site startedAt progress hnew hcall
    rw [hnew] at hcall
    cases hcall

/-- After the deletion of an invalidation that follows a change has completed,
every read that starts more than ten seconds later returns a list that the data
source held since the change, exactly when no list that is older is written into
Redis or brought late into a memory cache. -/
theorem revoked_iff
    (hbefore : run step (State.initial now redis source dataSource) before =
      some ready)
    (hchange : step ready (.change target roles) = some stale)
    (hbetween : run step stale between = some pending)
    (hdel : step pending (.del target .ok) = some deleted)
    (hafter : run step deleted after = some final) :
    (∀ first, first <+: after → ∀ current,
        run (withHistory step (changed target))
          (deleted, heldSince target roles stale between) first = some current →
            Revoked target deleted current) ↔
      Guarded (withHistory step (changed target)) (KeepsRevoked target deleted)
        (deleted, heldSince target roles stale between) after := by
  refine always_iff_guarded (fun _ _ => True) (Served target deleted)
    (Revoked target deleted) (fun _ hserved => hserved.revoked) ?_ ?_
    (served_of_runs hbefore hchange hbetween hdel) (guarded_true _ after)
    (run_withHistory hafter)
  · rintro ⟨state, history⟩ event ⟨next, later⟩ hserved - hkeeps hstep
    obtain ⟨hstep, rfl⟩ := withHistory_eq_some.mp hstep
    exact hserved.of_step hkeeps hstep
  · rintro ⟨state, history⟩ event ⟨next, later⟩ hserved - hbad hstep
    obtain ⟨hstep, rfl⟩ := withHistory_eq_some.mp hstep
    exact not_revoked_of_not_keepsRevoked hserved hbad hstep

end Run

/-! ## A stale fill -/

def userTarget : Target := ⟨.user, "user-1"⟩

def adminSource : Target → Roles := fun _ => ["admin"]

/-- Read 0 misses and fetches the roles before the change. -/
def missRun : List Event :=
  [.call 0 0 userTarget, .read 0 (.get .ok), .read 0 (.setnx (.lock 7) .ok),
    .read 0 (.fetch 0 .ok)]

/-- Read 0 stores them after the deletion, and read 1 finds them in Redis more
than ten seconds later. -/
def staleFillRun : List Event :=
  [.read 0 (.set .ok), .tick 10001, .call 1 0 userTarget, .read 1 (.get .ok),
    .finish 1]

/-- The target of a read, when it started and what it has returned. -/
def returnedRoles (state : State) (id : ℕ) : Option (Target × ℕ × Roles) :=
  match state.calls id with
  | some ⟨_, target, startedAt, .returned roles⟩ => some (target, startedAt, roles)
  | _ => none

theorem exists_call_of_returnedRoles {state : State} {id startedAt : ℕ}
    {target : Target} {roles : Roles}
    (hreturned : returnedRoles state id = some (target, startedAt, roles)) :
    ∃ site, state.calls id = some ⟨site, target, startedAt, .returned roles⟩ := by
  unfold returnedRoles at hreturned
  split at hreturned
  · rename_i site target' startedAt' roles' hcall
    simp only [Option.some.injEq, Prod.mk.injEq] at hreturned
    obtain ⟨rfl, rfl, rfl⟩ := hreturned
    exact ⟨site, hcall⟩
  · cases hreturned

theorem exists_staleFillRun : ∃ ready stale pending deleted final,
    run step (State.initial 0 TtlStore.empty adminSource fun _ => true) missRun =
      some ready ∧
    step ready (.change userTarget ["member"]) = some stale ∧
    run step stale [.invalidate 0 userTarget] = some pending ∧
    step pending (.del userTarget .ok) = some deleted ∧
    run step deleted staleFillRun = some final ∧
    deleted.now = 0 ∧ deleted.calls 1 = none ∧
    ∃ site, final.calls 1 = some ⟨site, userTarget, 10001, .returned ["admin"]⟩ := by
  have hrun : ((run step (State.initial 0 TtlStore.empty adminSource
      fun _ => true) missRun).bind fun ready =>
      (step ready (.change userTarget ["member"])).bind fun stale =>
        (run step stale [.invalidate 0 userTarget]).bind fun pending =>
          (step pending (.del userTarget .ok)).bind fun deleted =>
            (run step deleted staleFillRun).map fun final =>
              ((deleted.now, (deleted.calls 1).isNone), returnedRoles final 1)) =
      some ((0, true), some (userTarget, 10001, ["admin"])) := by decide +kernel
  obtain ⟨ready, hbefore, hrun⟩ := Option.bind_eq_some_iff.mp hrun
  obtain ⟨stale, hchange, hrun⟩ := Option.bind_eq_some_iff.mp hrun
  obtain ⟨pending, hbetween, hrun⟩ := Option.bind_eq_some_iff.mp hrun
  obtain ⟨deleted, hdel, hrun⟩ := Option.bind_eq_some_iff.mp hrun
  obtain ⟨final, hafter, hfinal⟩ := Option.map_eq_some_iff.mp hrun
  simp only [Prod.mk.injEq] at hfinal
  obtain ⟨⟨hnow, hnew⟩, hreturned⟩ := hfinal
  exact ⟨ready, stale, pending, deleted, final, hbefore, hchange, hbetween, hdel,
    hafter, hnow, Option.isNone_iff_eq_none.mp hnew,
    exists_call_of_returnedRoles hreturned⟩

/-- The revoked role is returned 10001 ms after the invalidation. -/
theorem not_revoked_of_staleFillRun : ∃ ready stale pending deleted final,
    run step (State.initial 0 TtlStore.empty adminSource fun _ => true) missRun =
      some ready ∧
    step ready (.change userTarget ["member"]) = some stale ∧
    run step stale [.invalidate 0 userTarget] = some pending ∧
    step pending (.del userTarget .ok) = some deleted ∧
    run step deleted staleFillRun = some final ∧
    heldSince userTarget ["member"] stale [.invalidate 0 userTarget] =
      [["member"]] ∧
    ¬ Revoked userTarget deleted (final,
      heldSince userTarget ["member"] stale [.invalidate 0 userTarget]) := by
  obtain ⟨ready, stale, pending, deleted, final, hbefore, hchange, hbetween, hdel,
    hafter, hnow, hnew, site, hcall⟩ := exists_staleFillRun
  refine ⟨ready, stale, pending, deleted, final, hbefore, hchange, hbetween, hdel,
    hafter, rfl, fun hrevoked => ?_⟩
  have hlate : deleted.now + l1CacheTtlMs < 10001 := by
    rw [hnow]
    decide
  have hmem := hrevoked.returned 1 site 10001 _ hnew hcall hlate
  have hheld : heldSince userTarget ["member"] stale [.invalidate 0 userTarget] =
      [["member"]] := rfl
  simp [hheld] at hmem

theorem revoked_iff_of_staleFillRun : ∃ stale deleted final,
    run step deleted staleFillRun = some final ∧
    ((∀ first, first <+: staleFillRun → ∀ current,
        run (withHistory step (changed userTarget)) (deleted,
          heldSince userTarget ["member"] stale [.invalidate 0 userTarget])
            first = some current → Revoked userTarget deleted current) ↔
      Guarded (withHistory step (changed userTarget))
        (KeepsRevoked userTarget deleted) (deleted,
          heldSince userTarget ["member"] stale [.invalidate 0 userTarget])
        staleFillRun) := by
  obtain ⟨ready, stale, pending, deleted, final, hbefore, hchange, hbetween, hdel,
    hafter, -⟩ := exists_staleFillRun
  exact ⟨stale, deleted, final, hafter,
    revoked_iff hbefore hchange hbetween hdel hafter⟩

end OceanChat.Authorization
