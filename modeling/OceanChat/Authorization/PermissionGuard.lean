import OceanChat.Authorization.EmptyRoles
import OceanChat.Authorization.PermissionChecker
import OceanChat.Core.Checks

/-!
# The permission guard

A request that needs permissions passes the guard if its user has all of them in
its scope.  The role lists come out of the caches, and every list that a read
returns is one that the data source has held for just that user or permission,
or the empty one.
-/

namespace OceanChat.Authorization

open Runs (run run_invariant withHistory withHistory_eq_some)

/-! ## The guard -/

namespace PermissionGuard

/-- The property `rid` of an object, if it has one; `none` inside is a value that
is no string and not truthy. -/
abbrev Rid := Option (Option String)

/-- What the guard reads of a request.  Over HTTP `user` is `req.user` with its
`sub`; over RPC the first three are the places of the user's identifier. -/
inductive Context
  | http (user : Option (Option String)) (query params body : Rid)
  | rpc (nestedUser id userId : Option String) (data : Rid)
  | other

/-- What a request is rejected with instead of a decision. -/
inductive Thrown
  | typeError
  | app (error : AppException)

/-- The metadata of the handler, or else that of its class. -/
def getAllAndOverride (handler controller : Option (List String)) :
    Option (List String) :=
  handler.or controller

/-- The later objects override the earlier ones. -/
def merge (query params body : Rid) : Rid := body.or (params.or query)

def extractContext : Context → Except Thrown (Option String × Option String)
  | .http none _ _ _ => .error .typeError
  | .http (some sub) query params body =>
      .ok (truthy sub, truthy (merge query params body).join)
  | .rpc nestedUser id userId data =>
      .ok ((truthy nestedUser).or ((truthy id).or (truthy userId)), truthy data.join)
  | .other => .ok (none, none)

def canActivate {Error : Type*} (service : PermissionCheckerService Error)
    (handler controller : Option (List String)) (context : Context) :
    Except Thrown Bool :=
  match getAllAndOverride handler controller with
  | none | some [] => .ok true
  | some requiredPermissions => do
      let (userId, scopeId) ← extractContext context
      match userId with
      | none => .ok false
      | some userId =>
          (service.hasAllPermissions userId requiredPermissions scopeId).mapError .app

end PermissionGuard

/-! ## Where the lists of a target come from -/

/-- Everything that a read of the target can find or bring along is in the list. -/
structure Genuine (target : Target) (current : State × List Roles) : Prop where
  nil : [] ∈ current.2
  source : current.1.source target ∈ current.2
  entry : ∀ raw, TtlStore.get current.1.redis (cacheKey target) = some raw →
    Reads current.2 raw
  item : ∀ site item,
    (current.1.l1 (site, target.kind)).cache.get target.id = some item →
      item.value ∈ current.2
  calls : ∀ id site startedAt progress,
    current.1.calls id = some ⟨site, target, startedAt, progress⟩ →
      progress.Holds current.2 True

section Genuine

variable {target : Target} {state next : State} {held : List Roles} {event : Event}

theorem Genuine.initial {now : ℕ} {redis : TtlStore.Store String Cached}
    {source : Target → Roles} {dataSource : ℕ → Bool}
    (hredis : ∀ raw, TtlStore.get redis (cacheKey target) = some raw →
      Reads [[], source target] raw) :
    Genuine target (State.initial now redis source dataSource,
      [[], source target]) where
  nil := by simp
  source := by simp [State.initial]
  entry := hredis
  item site item hitem := by cases hitem
  calls id site startedAt progress hcall := by cases hcall

theorem reads_encode {value : Option Roles} (hfetches : Fetches held value) :
    Reads held (encode value) := by
  obtain ⟨roles, rfl, hmem⟩ := hfetches
  intro found hfound
  exact Option.some.inj hfound ▸ hmem

/-- What a step writes under the key of the target is a list of the target. -/
theorem Genuine.reads_of_writes (hgenuine : Genuine target (state, held))
    {raw : Cached} (hwrites : writes target state event = some raw) :
    Reads held raw := by
  unfold writes at hwrites
  split at hwrites
  · rename_i id action
    split at hwrites
    · rename_i site target' startedAt phase hcall
      unfold GetOrSet.writes at hwrites
      split at hwrites
      · obtain ⟨hlock, -⟩ := Option.ite_none_right_eq_some.mp hwrites
        exact absurd hlock.1 (cacheKey_ne_lockKey target target')
      · obtain ⟨⟨hkey, -⟩, htext⟩ := Option.ite_none_right_eq_some.mp hwrites
        -- only a read of the target itself writes under its key
        obtain rfl := cacheKey_injective hkey
        have hholds := hgenuine.calls id site startedAt _ hcall
        exact Option.some.inj htext ▸ reads_encode hholds
      · cases hwrites
    · cases hwrites
  · cases hwrites

theorem Genuine.entry_of_step (hgenuine : Genuine target (state, held))
    (hstep : step state event = some next) {raw : Cached}
    (hraw : TtlStore.get next.redis (cacheKey target) = some raw) : Reads held raw := by
  obtain ⟨-, hsame⟩ | ⟨text, hwrites, htext⟩ :=
    Authorization.entry_of_step hstep target
  · exact hgenuine.entry raw (hsame raw hraw)
  · obtain rfl := Option.some.inj (htext.symm.trans hraw)
    exact hgenuine.reads_of_writes hwrites

theorem Genuine.item_of_step (hgenuine : Genuine target (state, held))
    (hstep : step state event = some next) {site : ℕ} {item : Item ℕ Roles}
    (hitem : (next.l1 (site, target.kind)).cache.get target.id = some item) :
    item.value ∈ held := by
  obtain hold | ⟨id, startedAt, roles, -, hcall, rfl⟩ :=
    Authorization.item_of_step hstep hitem
  · exact hgenuine.item site item hold
  · cases roles with
    | none => exact hgenuine.nil
    | some roles => exact hgenuine.calls id site startedAt _ hcall

theorem Genuine.holds_startRead (hgenuine : Genuine target (state, held))
    (site : ℕ) (dataSource : Bool) :
    (startRead ((state.l1 (site, target.kind)).get state.now target.id).1
      dataSource).Holds held True := by
  cases hl1 : ((state.l1 (site, target.kind)).get state.now target.id).1 with
  | none => cases dataSource <;> trivial
  | some roles =>
      obtain ⟨item, hitem, -, rfl⟩ := LRUCache.get_eq_some hl1
      exact fun _ => hgenuine.item site item hitem

theorem Genuine.calls_of_step (hgenuine : Genuine target (state, held))
    (hstep : step state event = some next) {id site startedAt : ℕ}
    {progress : Progress}
    (hcall : next.calls id = some ⟨site, target, startedAt, progress⟩) :
    progress.Holds held True := by
  by_cases hother : event.target = some id
  case neg =>
    rw [Authorization.calls_of_step hstep hother] at hcall
    exact hgenuine.calls id site startedAt progress hcall
  cases effect_of_step hstep with
  | @call id' site' target' hnone =>
      obtain rfl := Option.some.inj hother
      simp only [Function.update_self, Option.some.injEq, Call.mk.injEq] at hcall
      obtain ⟨rfl, rfl, -, rfl⟩ := hcall
      exact hgenuine.holds_startRead site' _
  | @read id' action site' target' startedAt' phase redis phase' hold hread =>
      obtain rfl := Option.some.inj hother
      simp only [Function.update_self, Option.some.injEq, Call.mk.injEq] at hcall
      obtain ⟨rfl, rfl, -, rfl⟩ := hcall
      obtain ⟨httl, hnullTtl⟩ := le_cacheOptions target'.kind
      have hwrites : ∀ raw, GetOrSet.writes encode (cacheKey target')
          (cacheKey target') state.redis phase action = some raw → Reads held raw := by
        intro raw hraw
        have hwritten : writes target' state (.read id' action) = some raw := by
          simpa only [writes, hold] using hraw
        exact hgenuine.reads_of_writes hwritten
      have hholds : phase'.Holds (Reads held) (Fetches held) (Fetches held) :=
        GetOrSet.Phase.Holds.of_step (hgenuine.calls id' _ _ _ hold) hread
          (by omega) (by omega) hgenuine.entry ⟨_, rfl, hgenuine.source⟩ hwrites
          fun _ hfetches _ => hfetches
      exact holds_continueRead hholds
  | @get id' reply site' target' startedAt' hold =>
      obtain rfl := Option.some.inj hother
      simp only [Function.update_self, Option.some.injEq, Call.mk.injEq] at hcall
      obtain ⟨rfl, rfl, -, rfl⟩ := hcall
      exact holds_continueGet hgenuine.entry
  | @finish id' site' target' startedAt' roles hold =>
      obtain rfl := Option.some.inj hother
      simp only [Function.update_self, Option.some.injEq, Call.mk.injEq] at hcall
      obtain ⟨rfl, rfl, -, rfl⟩ := hcall
      intro _
      cases roles with
      | none => exact hgenuine.nil
      | some roles => exact hgenuine.calls _ _ _ _ hold
  | _ => cases hother

theorem Genuine.of_step (hgenuine : Genuine target (state, held))
    (hstep : step state event = some next) :
    Genuine target (next, held ++ changed target state event) := by
  have hsub : ∀ roles ∈ held, roles ∈ held ++ changed target state event :=
    fun roles hmem => List.mem_append_left _ hmem
  refine ⟨hsub _ hgenuine.nil, ?_,
    fun raw hraw => (hgenuine.entry_of_step hstep hraw).mono hsub,
    fun site item hitem => hsub _ (hgenuine.item_of_step hstep hitem),
    fun id site startedAt progress hcall =>
      (hgenuine.calls_of_step hstep hcall).mono hsub⟩
  obtain ⟨-, hsame⟩ | hchanged := source_of_step hstep target
  · exact hsame ▸ hsub _ hgenuine.source
  · exact List.mem_append_right _ (hchanged ▸ List.mem_singleton_self _)

end Genuine

/-- The data source has held the list for the target before or during the events. -/
def HeldIn (source : Target → Roles) (events : List Event) (target : Target)
    (roles : Roles) : Prop :=
  roles = source target ∨ Event.change target roles ∈ events

section Run

variable {now : ℕ} {redis : TtlStore.Store String Cached} {source : Target → Roles}
variable {dataSource : ℕ → Bool} {target : Target} {events : List Event} {final : State}

theorem mem_of_changed {state : State} {event : Event} {roles : Roles}
    (hmem : roles ∈ changed target state event) : event = .change target roles := by
  unfold changed at hmem
  split at hmem
  · split at hmem
    · rename_i htarget
      rw [List.mem_singleton.mp hmem, htarget]
    · cases hmem
  · cases hmem

theorem Genuine.of_run
    (hredis : ∀ raw, TtlStore.get redis (cacheKey target) = some raw →
      Reads [[], source target] raw)
    (hrun : run step (State.initial now redis source dataSource) events = some final) :
    Genuine target (final, [[], source target] ++
      Runs.trace step (changed target) (State.initial now redis source dataSource)
        events) := by
  refine run_invariant (Genuine target) ?_ (Genuine.initial hredis)
    (Runs.run_withHistory hrun)
  rintro ⟨state, history⟩ event ⟨next, later⟩ hgenuine hstep
  obtain ⟨hstep, rfl⟩ := withHistory_eq_some.mp hstep
  exact hgenuine.of_step hstep

/-- A role that a read has returned was held for the target of the read. -/
theorem heldIn_of_returned
    (hredis : ∀ raw, TtlStore.get redis (cacheKey target) = some raw →
      Reads [[], source target] raw)
    (hrun : run step (State.initial now redis source dataSource) events = some final)
    {id site startedAt : ℕ} {roles : Roles}
    (hcall : final.calls id = some ⟨site, target, startedAt, .returned roles⟩)
    {role : String} (hrole : role ∈ roles) : HeldIn source events target roles := by
  have hmem := (Genuine.of_run hredis hrun).calls id site startedAt _ hcall trivial
  obtain hstart | hlater := List.mem_append.mp hmem
  · simp only [List.mem_cons, List.not_mem_nil, or_false] at hstart
    obtain rfl | hsource := hstart
    · cases hrole
    · exact .inl hsource
  · obtain ⟨event, hevent, state, hchanged⟩ := Runs.exists_emit_of_mem_trace hlater
    exact .inr (mem_of_changed hchanged ▸ hevent)

end Run

/-! ## Who passes the guard -/

section Checks

variable {Error : Type*} {service : PermissionCheckerService Error} {userId : String}
variable {scopeId : Option String}

theorem exists_of_mapM_ok {Value Result Failure : Type} {f : Value → Except Failure Result}
    {values : List Value} {results : List Result} (hmap : values.mapM f = .ok results) :
    ∀ value ∈ values, ∃ result ∈ results, f value = .ok result := by
  induction values generalizing results with
  | nil => exact List.forall_mem_nil _
  | cons value values ih =>
      rw [List.mapM_cons] at hmap
      obtain ⟨first, hfirst, hmap⟩ := Checks.bind_eq_ok.mp hmap
      obtain ⟨rest, hrest, hresults⟩ := Checks.bind_eq_ok.mp hmap
      obtain rfl := Except.ok.inj hresults
      rw [List.forall_mem_cons]
      refine ⟨⟨first, List.mem_cons_self, hfirst⟩, fun other hother => ?_⟩
      obtain ⟨result, hmem, hresult⟩ := ih hrest other hother
      exact ⟨result, List.mem_cons_of_mem _ hmem, hresult⟩

/-- An effective role is a global one, or one that the provider gives in the
scope. -/
theorem role_of_getEffectiveRoles {roles : Roles}
    (hroles : service.getEffectiveRoles userId scopeId = .ok roles) {role : String}
    (hrole : role ∈ roles) :
    (∃ globalRoles, service.getUserGlobalRoles userId = .ok globalRoles ∧
        role ∈ globalRoles) ∨
      ∃ scope getScopedRoles scopedRoles, truthy scopeId = some scope ∧
        service.getScopedRoles = some getScopedRoles ∧
        getScopedRoles userId scope = .ok scopedRoles ∧ role ∈ scopedRoles := by
  unfold PermissionCheckerService.getEffectiveRoles at hroles
  obtain ⟨globalRoles, hglobal, hroles⟩ := Checks.bind_eq_ok.mp hroles
  split at hroles
  · rename_i scope getScopedRoles hscope hprovider
    split at hroles
    · rename_i scopedRoles hscoped
      rw [← Except.ok.inj hroles, List.mem_eraseDups, List.mem_append] at hrole
      exact hrole.imp (fun hmem => ⟨globalRoles, hglobal, hmem⟩)
        fun hmem => ⟨scope, getScopedRoles, scopedRoles, hscope, hprovider, hscoped, hmem⟩
    · cases hroles
  · exact .inl ⟨globalRoles, hglobal, Except.ok.inj hroles ▸ hrole⟩

/-- Whoever has all permissions has a role for each of them. -/
theorem role_of_hasAllPermissions {permissions : List String}
    (hall : service.hasAllPermissions userId permissions scopeId = .ok true) :
    userId ≠ "" ∧ ∃ roles, service.getEffectiveRoles userId scopeId = .ok roles ∧
      ∀ permission ∈ permissions, ∃ role ∈ roles, ∃ allowedRoles,
        service.getRolesForPermission permission = .ok allowedRoles ∧
          role ∈ allowedRoles := by
  unfold PermissionCheckerService.hasAllPermissions
    PermissionCheckerService.checkPermissions at hall
  split at hall
  · cases hall
  · rename_i hpresent
    obtain ⟨roles, hroles, hall⟩ := Checks.bind_eq_ok.mp hall
    obtain ⟨allowed, hallowed, hall⟩ := Checks.bind_eq_ok.mp hall
    split at hall
    · cases hall
    · refine ⟨fun huser => hpresent (.inl huser), roles, hroles, ?_⟩
      intro permission hpermission
      obtain ⟨allowedRoles, hmem, hfetched⟩ := exists_of_mapM_ok hallowed permission hpermission
      obtain ⟨role, hrole, hholds⟩ := List.any_eq_true.mp
        (List.all_eq_true.mp (Except.ok.inj hall) allowedRoles hmem)
      exact ⟨role, List.mem_toFinset.mp (of_decide_eq_true hholds), allowedRoles,
        hfetched, hrole⟩

end Checks

/-- The lists that the checker works on have been returned by reads of the caches. -/
structure AnsweredBy {Error : Type*} (service : PermissionCheckerService Error)
    (final : State) : Prop where
  user : ∀ userId roles, service.getUserGlobalRoles userId = .ok roles →
    ∃ id site startedAt,
      final.calls id = some ⟨site, ⟨.user, userId⟩, startedAt, .returned roles⟩
  permission : ∀ permissionId roles,
    service.getRolesForPermission permissionId = .ok roles →
      ∃ id site startedAt, final.calls id =
        some ⟨site, ⟨.permission, permissionId⟩, startedAt, .returned roles⟩

namespace PermissionGuard

/-- The user has a role, from the data source or from the provider in the scope, that
the data source has listed for the permission. -/
def Entitled {Error : Type*} (service : PermissionCheckerService Error)
    (source : Target → Roles) (events : List Event) (userId : String)
    (scopeId : Option String) (permission : String) : Prop :=
  ∃ role,
    ((∃ roles, HeldIn source events ⟨.user, userId⟩ roles ∧ role ∈ roles) ∨
      ∃ scope getScopedRoles scopedRoles, truthy scopeId = some scope ∧
        service.getScopedRoles = some getScopedRoles ∧
        getScopedRoles userId scope = .ok scopedRoles ∧ role ∈ scopedRoles) ∧
    ∃ allowedRoles, HeldIn source events ⟨.permission, permission⟩ allowedRoles ∧
      role ∈ allowedRoles

/-- A request that passes needs no permission, or has a user that has all of them. -/
theorem hasAllPermissions_of_canActivate {Error : Type*}
    {service : PermissionCheckerService Error} {handler controller : Option (List String)}
    {context : Context}
    (hin : canActivate service handler controller context = .ok true) :
    ((getAllAndOverride handler controller).getD [] = []) ∨
      ∃ userId scopeId, extractContext context = .ok (some userId, scopeId) ∧
        service.hasAllPermissions userId
          ((getAllAndOverride handler controller).getD []) scopeId = .ok true := by
  unfold canActivate at hin
  split at hin
  · rename_i hrequired
    exact .inl (by rw [hrequired]; rfl)
  · rename_i hrequired
    exact .inl (by rw [hrequired]; rfl)
  · rename_i requiredPermissions hnonempty hrequired
    obtain ⟨⟨userId, scopeId⟩, hcontext, hin⟩ := Checks.bind_eq_ok.mp hin
    right
    cases userId with
    | none => cases hin
    | some userId =>
        refine ⟨userId, scopeId, hcontext, ?_⟩
        rw [hrequired]
        exact Checks.mapError_eq_ok.mp hin

/-- Whatever happens to the caches and to the commands they send, a request that
passes the guard needs no permission, or the user it names is entitled to every one
of them by lists that the data source has held for that user and that permission. -/
theorem passes_by_held_roles {Error : Type*} (now : ℕ)
    (redis : TtlStore.Store String Cached) (source : Target → Roles)
    (dataSource : ℕ → Bool)
    (hredis : ∀ target raw, TtlStore.get redis (cacheKey target) = some raw →
      Reads [[], source target] raw)
    (events : List Event) (final : State)
    (hrun : run step (State.initial now redis source dataSource) events = some final)
    (service : PermissionCheckerService Error) (hservice : AnsweredBy service final)
    (handler controller : Option (List String)) (context : Context)
    (hin : canActivate service handler controller context = .ok true) :
    (getAllAndOverride handler controller).getD [] = [] ∨
      ∃ userId scopeId, extractContext context = .ok (some userId, scopeId) ∧
        ∀ permission ∈ (getAllAndOverride handler controller).getD [],
          Entitled service source events userId scopeId permission := by
  refine (hasAllPermissions_of_canActivate hin).imp_right ?_
  rintro ⟨userId, scopeId, hcontext, hall⟩
  obtain ⟨-, roles, hroles, hgranted⟩ := role_of_hasAllPermissions hall
  refine ⟨userId, scopeId, hcontext, fun permission hpermission => ?_⟩
  obtain ⟨role, hrole, allowedRoles, hallowed, hmem⟩ := hgranted permission hpermission
  refine ⟨role, ?_, allowedRoles, ?_, hmem⟩
  · refine (role_of_getEffectiveRoles hroles hrole).imp_left ?_
    rintro ⟨globalRoles, hglobal, hheld⟩
    obtain ⟨id, site, startedAt, hcall⟩ := hservice.user userId globalRoles hglobal
    exact ⟨globalRoles, heldIn_of_returned (hredis _) hrun hcall hheld, hheld⟩
  · obtain ⟨id, site, startedAt, hcall⟩ :=
      hservice.permission permission allowedRoles hallowed
    exact heldIn_of_returned (hredis _) hrun hcall hmem

/-! ## A request with two rooms -/

def roomSource : Target → Roles
  | ⟨.user, _⟩ => ["member"]
  | ⟨.permission, _⟩ => ["owner"]

/-- Reads 0 and 1 fetch the lists of the user and of the permission. -/
def fetchRun : List Event :=
  [.call 0 0 ⟨.user, "u"⟩, .call 1 0 ⟨.permission, "delete"⟩, .read 0 (.get .ok),
    .read 1 (.get .ok), .read 0 (.setnx (.lock 1) .ok), .read 1 (.setnx (.lock 2) .ok),
    .read 0 (.fetch 0 .ok), .read 1 (.fetch 0 .ok), .read 0 (.set .ok),
    .read 1 (.set .ok), .read 1 (.release .ok), .read 0 (.release .ok), .finish 0,
    .finish 1]

/-- The user owns one room. -/
def roomService : PermissionCheckerService Empty where
  getUserGlobalRoles userId :=
    if userId = "u" then .ok ["member"]
    else .error PermissionCheckerService.scopedRolesException
  getRolesForPermission permission :=
    if permission = "delete" then .ok ["owner"]
    else .error PermissionCheckerService.scopedRolesException
  getScopedRoles := some fun _ room => .ok (if room = "mine" then ["owner"] else [])

/-- The room of the body decides, not the one of the path. -/
def roomContext : Context :=
  .http (some (some "u")) none (some (some "yours")) (some (some "mine"))

theorem passes_by_held_roles_of_room :
    ∃ userId scopeId, extractContext roomContext = .ok (some userId, scopeId) ∧
      ∀ permission ∈ ["delete"],
        Entitled roomService roomSource fetchRun userId scopeId permission := by
  have hreturned : (run step (State.initial 0 TtlStore.empty roomSource fun _ => true)
      fetchRun).map (fun final => (returnedRoles final 0, returnedRoles final 1)) =
      some (some (⟨.user, "u"⟩, 0, ["member"]),
        some (⟨.permission, "delete"⟩, 0, ["owner"])) := by rfl
  obtain ⟨final, hrun, hfinal⟩ := Option.map_eq_some_iff.mp hreturned
  obtain ⟨huser, hpermission⟩ := Prod.mk.inj hfinal
  have hservice : AnsweredBy roomService final := by
    constructor
    · intro userId roles hroles
      obtain ⟨site, hcall⟩ := exists_call_of_returnedRoles huser
      unfold roomService at hroles
      obtain ⟨rfl, rfl⟩ : userId = "u" ∧ ["member"] = roles := by
        by_cases hu : userId = "u"
        · simpa [hu] using hroles
        · simp [hu] at hroles
      exact ⟨0, site, 0, hcall⟩
    · intro permissionId roles hroles
      obtain ⟨site, hcall⟩ := exists_call_of_returnedRoles hpermission
      unfold roomService at hroles
      obtain ⟨rfl, rfl⟩ : permissionId = "delete" ∧ ["owner"] = roles := by
        by_cases hp : permissionId = "delete"
        · simpa [hp] using hroles
        · simp [hp] at hroles
      exact ⟨1, site, 0, hcall⟩
  have hin : canActivate roomService (some ["delete"]) none roomContext = .ok true := by
    rfl
  exact (passes_by_held_roles 0 TtlStore.empty roomSource (fun _ => true)
    (fun target raw hraw => by cases hraw) fetchRun final hrun roomService hservice
    (some ["delete"]) none roomContext hin).resolve_left (by decide)

end PermissionGuard

end OceanChat.Authorization
