import OceanChat.Authorization.PermissionChecker

/-!
# Batched permission checks

`hasAllPermissions` and `hasAtLeastOnePermission` fetch the roles of all
permissions at once and go through them in memory.  Over one snapshot of the
roles both say what `hasPermission` says of the single permissions, and no role
that a user gains takes a permission away.
-/

namespace OceanChat.Authorization

/-- What the role cache and the scope provider answer at one time. -/
structure Snapshot where
  globalRoles : String → Roles
  scopedRoles : Option (String → String → Roles)
  permissionRoles : String → Roles

namespace Snapshot

/-- The checker over the snapshot, where no provider fails. -/
def service (snapshot : Snapshot) : PermissionCheckerService Empty where
  getUserGlobalRoles userId := .ok (snapshot.globalRoles userId)
  getRolesForPermission permissionId := .ok (snapshot.permissionRoles permissionId)
  getScopedRoles := snapshot.scopedRoles.map fun getScopedRoles userId scopeId =>
    .ok (getScopedRoles userId scopeId)

/-- The roles in a scope; without a provider there are none. -/
def rolesIn (snapshot : Snapshot) (userId scopeId : String) : Roles :=
  (snapshot.scopedRoles.map (· userId scopeId)).getD []

def Holds (snapshot : Snapshot) (userId : String) (scopeId : Option String)
    (role : String) : Prop :=
  role ∈ snapshot.globalRoles userId ∨
    ∃ scope, truthy scopeId = some scope ∧ role ∈ snapshot.rolesIn userId scope

def Permits (snapshot : Snapshot) (userId : String) (scopeId : Option String)
    (permissionId : String) : Prop :=
  ∃ role ∈ snapshot.permissionRoles permissionId, snapshot.Holds userId scopeId role

/-- Users gain roles, globally or in a scope. -/
structure Grows (before after : Snapshot) : Prop where
  globalRoles : ∀ userId, before.globalRoles userId ⊆ after.globalRoles userId
  rolesIn : ∀ userId scopeId,
    before.rolesIn userId scopeId ⊆ after.rolesIn userId scopeId
  permissionRoles : before.permissionRoles = after.permissionRoles

/-- A check that is true before is true after. -/
def Keeps (before after : Snapshot)
    (check : PermissionCheckerService Empty → Except AppException Bool) : Prop :=
  check before.service = .ok true → check after.service = .ok true

section Checks

variable {snapshot before after : Snapshot} {userId : String}
variable {permissionId scopeId : Option String} {permissions : List String}

/-- The merged list has the roles that the user holds. -/
theorem exists_getEffectiveRoles (snapshot : Snapshot) (userId : String)
    (scopeId : Option String) :
    ∃ roles, snapshot.service.getEffectiveRoles userId scopeId = .ok roles ∧
      ∀ role, role ∈ roles ↔ snapshot.Holds userId scopeId role := by
  cases hscope : truthy scopeId with
  | none =>
      refine ⟨snapshot.globalRoles userId, ?_, ?_⟩
      · simp [PermissionCheckerService.getEffectiveRoles, hscope, service, bind,
          Except.bind]
      · simp [Holds, hscope]
  | some scope =>
      cases hprovider : snapshot.scopedRoles with
      | none =>
          refine ⟨snapshot.globalRoles userId, ?_, ?_⟩
          · simp [PermissionCheckerService.getEffectiveRoles, hscope, hprovider,
              service, bind, Except.bind]
          · simp [Holds, rolesIn, hprovider]
      | some getScopedRoles =>
          refine ⟨(snapshot.globalRoles userId ++
            getScopedRoles userId scope).eraseDups, ?_, ?_⟩
          · simp [PermissionCheckerService.getEffectiveRoles, hscope, hprovider,
              service, bind, Except.bind]
          · simp [Holds, hscope, rolesIn, hprovider]

theorem hasPermission_iff :
    snapshot.service.hasPermission userId permissionId scopeId = .ok true ↔
      userId ≠ "" ∧ ∃ permission, truthy permissionId = some permission ∧
        snapshot.Permits userId scopeId permission := by
  obtain ⟨roles, heffective, hroles⟩ :=
    exists_getEffectiveRoles snapshot userId scopeId
  cases hpermission : truthy permissionId with
  | none => simp [PermissionCheckerService.hasPermission, hpermission]
  | some permission =>
      by_cases huser : userId = ""
      · simp [PermissionCheckerService.hasPermission, hpermission, huser]
      · have hallowed : snapshot.service.getRolesForPermission permission =
            .ok (snapshot.permissionRoles permission) := rfl
        simp [PermissionCheckerService.hasPermission, hpermission, huser,
          heffective, hallowed, bind, Except.bind, Permits, hroles, and_comm]

/-- The shared body answers what the quantifier says of the roles that allow
the permissions. -/
theorem checkPermissions_iff (quantify : List Roles → (Roles → Bool) → Bool)
    {roles : Roles}
    (heffective : snapshot.service.getEffectiveRoles userId scopeId = .ok roles) :
    snapshot.service.checkPermissions quantify userId permissions scopeId =
        .ok true ↔
      userId ≠ "" ∧ permissions ≠ [] ∧ roles ≠ [] ∧
        quantify (permissions.map snapshot.permissionRoles) (fun allowedRoles =>
          allowedRoles.any fun role => decide (role ∈ roles.toFinset)) = true := by
  have hfetch : permissions.mapM snapshot.service.getRolesForPermission =
      .ok (permissions.map snapshot.permissionRoles) :=
    List.mapM_pure
  by_cases huser : userId = ""
  · simp [PermissionCheckerService.checkPermissions, huser]
  · by_cases hpermissions : permissions = []
    · simp [PermissionCheckerService.checkPermissions, hpermissions]
    · by_cases hroles : roles = []
      · simp [PermissionCheckerService.checkPermissions, huser, hpermissions,
          hroles, heffective, hfetch, bind, Except.bind]
      · simp [PermissionCheckerService.checkPermissions, huser, hpermissions,
          hroles, heffective, hfetch, bind, Except.bind]

theorem hasAllPermissions_iff :
    snapshot.service.hasAllPermissions userId permissions scopeId = .ok true ↔
      userId ≠ "" ∧ permissions ≠ [] ∧
        ∀ permission ∈ permissions, snapshot.Permits userId scopeId permission := by
  obtain ⟨roles, heffective, hroles⟩ :=
    exists_getEffectiveRoles snapshot userId scopeId
  rw [PermissionCheckerService.hasAllPermissions,
    checkPermissions_iff List.all heffective]
  simp only [List.all_map, List.all_eq_true, Function.comp_apply, List.any_eq_true,
    decide_eq_true_eq, List.mem_toFinset, hroles]
  constructor
  · rintro ⟨huser, hpermissions, -, hall⟩
    exact ⟨huser, hpermissions, hall⟩
  · rintro ⟨huser, hpermissions, hall⟩
    refine ⟨huser, hpermissions, ?_, hall⟩
    -- the first permission is granted by some role, so there is one
    obtain ⟨first, hfirst⟩ := List.exists_mem_of_ne_nil permissions hpermissions
    obtain ⟨role, -, hholds⟩ := hall first hfirst
    exact List.ne_nil_of_mem ((hroles role).mpr hholds)

theorem hasAtLeastOnePermission_iff :
    snapshot.service.hasAtLeastOnePermission userId permissions scopeId =
        .ok true ↔
      userId ≠ "" ∧
        ∃ permission ∈ permissions, snapshot.Permits userId scopeId permission := by
  obtain ⟨roles, heffective, hroles⟩ :=
    exists_getEffectiveRoles snapshot userId scopeId
  rw [PermissionCheckerService.hasAtLeastOnePermission,
    checkPermissions_iff List.any heffective]
  simp only [List.any_map, List.any_eq_true, Function.comp_apply,
    decide_eq_true_eq, List.mem_toFinset, hroles]
  constructor
  · rintro ⟨huser, -, -, hany⟩
    exact ⟨huser, hany⟩
  · rintro ⟨huser, permission, hpermission, role, hallowed, hholds⟩
    exact ⟨huser, List.ne_nil_of_mem hpermission,
      List.ne_nil_of_mem ((hroles role).mpr hholds), permission, hpermission,
      role, hallowed, hholds⟩

theorem hasPermission_some_iff {permission : String} (hpermission : permission ≠ "") :
    snapshot.service.hasPermission userId (some permission) scopeId = .ok true ↔
      userId ≠ "" ∧ snapshot.Permits userId scopeId permission := by
  have hpresent : truthy (some permission) = some permission := by
    simp [truthy, hpermission]
  simp [hasPermission_iff, hpresent]

theorem Grows.permits (hgrows : before.Grows after) {permission : String}
    (hpermits : before.Permits userId scopeId permission) :
    after.Permits userId scopeId permission := by
  obtain ⟨role, hallowed, hholds⟩ := hpermits
  refine ⟨role, hgrows.permissionRoles ▸ hallowed, ?_⟩
  obtain hglobal | ⟨scope, hscope, hscoped⟩ := hholds
  · exact .inl (hgrows.globalRoles userId hglobal)
  · exact .inr ⟨scope, hscope, hgrows.rolesIn userId scope hscoped⟩

theorem Grows.keeps_hasPermission (hgrows : before.Grows after) :
    before.Keeps after (·.hasPermission userId permissionId scopeId) := by
  intro htrue
  obtain ⟨huser, permission, hpermission, hpermits⟩ := hasPermission_iff.mp htrue
  exact hasPermission_iff.mpr ⟨huser, permission, hpermission, hgrows.permits hpermits⟩

theorem Grows.keeps_hasAllPermissions (hgrows : before.Grows after) :
    before.Keeps after (·.hasAllPermissions userId permissions scopeId) := by
  intro htrue
  obtain ⟨huser, hpermissions, hall⟩ := hasAllPermissions_iff.mp htrue
  exact hasAllPermissions_iff.mpr ⟨huser, hpermissions,
    fun permission hpermission => hgrows.permits (hall permission hpermission)⟩

theorem Grows.keeps_hasAtLeastOnePermission (hgrows : before.Grows after) :
    before.Keeps after (·.hasAtLeastOnePermission userId permissions scopeId) := by
  intro htrue
  obtain ⟨huser, permission, hpermission, hpermits⟩ :=
    hasAtLeastOnePermission_iff.mp htrue
  exact hasAtLeastOnePermission_iff.mpr
    ⟨huser, permission, hpermission, hgrows.permits hpermits⟩

end Checks

/-- The batched checks say what the single one says of every permission or of
some permission, and no gained role makes any of the three false. -/
theorem batched_agrees (snapshot : Snapshot) (userId : String)
    (scopeId : Option String) {permissions : List String}
    (hpermissions : ∀ permission ∈ permissions, permission ≠ "") :
    (snapshot.service.hasAllPermissions userId permissions scopeId = .ok true ↔
      userId ≠ "" ∧ permissions ≠ [] ∧ ∀ permission ∈ permissions,
        snapshot.service.hasPermission userId (some permission) scopeId =
          .ok true) ∧
    (snapshot.service.hasAtLeastOnePermission userId permissions scopeId =
        .ok true ↔
      ∃ permission ∈ permissions,
        snapshot.service.hasPermission userId (some permission) scopeId =
          .ok true) ∧
    ∀ after, snapshot.Grows after →
      (∀ permissionId,
        snapshot.Keeps after (·.hasPermission userId permissionId scopeId)) ∧
      snapshot.Keeps after (·.hasAllPermissions userId permissions scopeId) ∧
      snapshot.Keeps after
        (·.hasAtLeastOnePermission userId permissions scopeId) := by
  refine ⟨?_, ?_, fun after hgrows => ⟨fun _ => hgrows.keeps_hasPermission,
    hgrows.keeps_hasAllPermissions, hgrows.keeps_hasAtLeastOnePermission⟩⟩
  · rw [hasAllPermissions_iff]
    constructor
    · rintro ⟨huser, hnonempty, hall⟩
      exact ⟨huser, hnonempty, fun permission hpermission =>
        (hasPermission_some_iff (hpermissions permission hpermission)).mpr
          ⟨huser, hall permission hpermission⟩⟩
    · rintro ⟨huser, hnonempty, hall⟩
      exact ⟨huser, hnonempty, fun permission hpermission =>
        ((hasPermission_some_iff (hpermissions permission hpermission)).mp
          (hall permission hpermission)).2⟩
  · rw [hasAtLeastOnePermission_iff]
    constructor
    · rintro ⟨huser, permission, hpermission, hpermits⟩
      exact ⟨permission, hpermission,
        (hasPermission_some_iff (hpermissions permission hpermission)).mpr
          ⟨huser, hpermits⟩⟩
    · rintro ⟨permission, hpermission, hhas⟩
      obtain ⟨huser, hpermits⟩ :=
        (hasPermission_some_iff (hpermissions permission hpermission)).mp hhas
      exact ⟨huser, permission, hpermission, hpermits⟩

/-- A moderator who owns the room; only an administrator may view every room. -/
def roomOwner : Snapshot where
  globalRoles _ := ["moderator"]
  scopedRoles := some fun _ _ => ["owner", "moderator", "owner"]
  permissionRoles permissionId :=
    if permissionId = PermissionId.viewCRoom then ["owner", "admin"] else ["admin"]

def administrator : Snapshot :=
  { roomOwner with globalRoles := fun _ => ["admin", "moderator"] }

theorem grows_administrator : roomOwner.Grows administrator where
  globalRoles _ := by simp [roomOwner, administrator]
  rolesIn _ _ := List.Subset.refl _
  permissionRoles := rfl

theorem batched_agrees_of_roomOwner :
    roomOwner.service.hasAllPermissions "u-1"
        [PermissionId.viewCRoom, PermissionId.viewPRoom] (some "room-A") =
      .ok false ∧
    (∃ permission ∈ [PermissionId.viewCRoom, PermissionId.viewPRoom],
      roomOwner.service.hasPermission "u-1" (some permission) (some "room-A") =
        .ok true) ∧
    administrator.service.hasAtLeastOnePermission "u-1"
        [PermissionId.viewCRoom, PermissionId.viewPRoom] (some "room-A") =
      .ok true := by
  obtain ⟨-, hatLeastOne, hkeeps⟩ := @batched_agrees roomOwner "u-1" (some "room-A")
    [PermissionId.viewCRoom, PermissionId.viewPRoom] (by decide)
  have hbefore : roomOwner.service.hasAtLeastOnePermission "u-1"
      [PermissionId.viewCRoom, PermissionId.viewPRoom] (some "room-A") =
        .ok true := by decide
  exact ⟨by decide, hatLeastOne.mp hbefore,
    (hkeeps administrator grows_administrator).2.2 hbefore⟩

end Snapshot

end OceanChat.Authorization
