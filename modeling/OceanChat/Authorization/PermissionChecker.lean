import OceanChat.Authorization.RoleCache
import OceanChat.Common.AppException
import Mathlib.Data.Finset.Dedup

/-!
# The permission checker

A user has a permission if one of the user's roles is allowed to perform the
action.  The roles held within a scope come from a provider that a service may
lack and whose errors are not the library's own.
-/

namespace OceanChat.Authorization

namespace PermissionId

def viewCRoom : String := "view-c-room"
def viewPRoom : String := "view-p-room"
def viewDRoom : String := "view-d-room"
def viewJoinedRoom : String := "view-joined-room"

end PermissionId

/-- `value` where JavaScript takes it for true. -/
def truthy (value : Option String) : Option String := value.filter (· ≠ "")

/-- `getUserGlobalRoles` and `getRolesForPermission` are the calls of the role
cache, `getScopedRoles` is the one of the scope provider. -/
structure PermissionCheckerService (Error : Type*) where
  getUserGlobalRoles : String → Except AppException Roles
  getRolesForPermission : String → Except AppException Roles
  getScopedRoles : Option (String → String → Except Error Roles)

namespace PermissionCheckerService

variable {Error : Type*}

def scopedRolesException : AppException :=
  infrastructureException "FAILED_TO_RETRIEVE_SCOPED_ROLES"
    ErrorCodes.failedToFetchScopedRoles 500

/-- Global roles, and the roles in the scope if there is one, each once. -/
def getEffectiveRoles (service : PermissionCheckerService Error) (userId : String)
    (scopeId : Option String) : Except AppException Roles := do
  let globalRoles ← service.getUserGlobalRoles userId
  match truthy scopeId, service.getScopedRoles with
  | some scopeId, some getScopedRoles =>
      match getScopedRoles userId scopeId with
      | .ok scopedRoles => .ok (globalRoles ++ scopedRoles).eraseDups
      | .error _ => .error scopedRolesException
  | _, _ => .ok globalRoles

def hasPermission (service : PermissionCheckerService Error) (userId : String)
    (permissionId scopeId : Option String) : Except AppException Bool :=
  match truthy permissionId with
  | some permissionId =>
      if userId = "" then .ok false
      else do
        let userRoles ← service.getEffectiveRoles userId scopeId
        let allowedRoles ← service.getRolesForPermission permissionId
        .ok (userRoles.any fun role => allowedRoles.contains role)
  | none => .ok false

/-- The body that the two batched checks share, up to how they go through the
roles of the permissions. -/
def checkPermissions (quantify : List Roles → (Roles → Bool) → Bool)
    (service : PermissionCheckerService Error) (userId : String)
    (permissions : List String) (scopeId : Option String) :
    Except AppException Bool :=
  if userId = "" ∨ permissions = [] then .ok false
  else do
    let userRoles ← service.getEffectiveRoles userId scopeId
    let permissionsRolesList ← permissions.mapM service.getRolesForPermission
    if userRoles = [] then .ok false
    else
      let userRolesSet := userRoles.toFinset
      .ok (quantify permissionsRolesList fun allowedRoles =>
        allowedRoles.any fun role => decide (role ∈ userRolesSet))

def hasAllPermissions (service : PermissionCheckerService Error) (userId : String)
    (permissions : List String) (scopeId : Option String) :
    Except AppException Bool :=
  service.checkPermissions List.all userId permissions scopeId

def hasAtLeastOnePermission (service : PermissionCheckerService Error)
    (userId : String) (permissions : List String) (scopeId : Option String) :
    Except AppException Bool :=
  service.checkPermissions List.any userId permissions scopeId

end PermissionCheckerService

/-- Whether one of the user's global roles is allowed to perform the action. -/
def MayPerform (getUserGlobalRoles getRolesForPermission : String → Roles)
    (userId permissionId : String) : Prop :=
  ∃ role ∈ getUserGlobalRoles userId, role ∈ getRolesForPermission permissionId

section Fixed

variable {Error : Type*} {getUserGlobalRoles getRolesForPermission : String → Roles}
variable {userId permissionId : String}

instance decidableMayPerform : Decidable
    (MayPerform getUserGlobalRoles getRolesForPermission userId permissionId) :=
  inferInstanceAs (Decidable (∃ role ∈ getUserGlobalRoles userId,
    role ∈ getRolesForPermission permissionId))

/-- A check without a scope, where the role cache gives fixed answers. -/
theorem hasPermission_eq_ok (getUserGlobalRoles getRolesForPermission : String → Roles)
    (getScopedRoles : Option (String → String → Except Error Roles))
    (huser : userId ≠ "") (hpermission : permissionId ≠ "") :
    PermissionCheckerService.hasPermission
        ⟨fun userId => .ok (getUserGlobalRoles userId),
          fun permissionId => .ok (getRolesForPermission permissionId),
          getScopedRoles⟩ userId (some permissionId) none =
      .ok (decide (MayPerform getUserGlobalRoles getRolesForPermission userId
        permissionId)) := by
  have hpresent : truthy (some permissionId) = some permissionId := by
    simp [truthy, hpermission]
  have hany : ((getUserGlobalRoles userId).any fun role =>
      (getRolesForPermission permissionId).contains role) =
        decide (MayPerform getUserGlobalRoles getRolesForPermission userId
          permissionId) := by
    rw [Bool.eq_iff_iff, decide_eq_true_iff]
    simp [MayPerform]
  simp only [PermissionCheckerService.hasPermission, hpresent, if_neg huser]
  rw [← hany]
  rfl

end Fixed

end OceanChat.Authorization
