import OceanChat.Authorization.PermissionChecker
import OceanChat.Core.Ancestors

/-!
# Room access

A discussion is open to whoever may enter its parent room; the other validators
look at the room alone.  The access validator and the discussion validator call
each other, so a check follows the chain of parent rooms first.
-/

namespace OceanChat.Authorization

/-- Channels, private groups, direct messages and livechats. -/
inductive RoomType
  | c
  | p
  | d
  | l
  deriving DecidableEq

structure RoomContext where
  id : String
  t : RoomType
  teamId : Option String
  prid : Option String
  deriving DecidableEq

inductive TeamType
  | isPublic
  | isPrivate
  deriving DecidableEq

structure TeamDataProvider (Error : Type*) where
  getTeamType : String → Except Error (Option TeamType)
  isTeamMember : String → String → Except Error Bool

/-- What the validators are given; a service may lack any of the three
providers. -/
structure Providers (Error : Type*) where
  getUserGlobalRoles : String → Except AppException Roles
  getRolesForPermission : String → Except AppException Roles
  getScopedRoles : Option (String → String → Except Error Roles)
  teamProvider : Option (TeamDataProvider Error)
  getRoomContext : Option (String → Except Error (Option RoomContext))

/-- What a check throws. -/
inductive Thrown (Error : Type*)
  | app (error : AppException)
  | provider (error : Error)

variable {Error : Type*}

def Providers.hasPermission (providers : Providers Error) (userId : String)
    (permissionId : Option String) : Except (Thrown Error) Bool :=
  (PermissionCheckerService.hasPermission
    ⟨providers.getUserGlobalRoles, providers.getRolesForPermission,
      providers.getScopedRoles⟩ userId permissionId none).mapError .app

/-! ## Validators -/

def PublicRoomValidator.validate (providers : Providers Error) (userId : String)
    (room : RoomContext) : Except (Thrown Error) Bool :=
  if room.t ≠ .c ∨ (truthy room.teamId).isSome then .ok false
  else providers.hasPermission userId (some PermissionId.viewCRoom)

def TeamRoomValidator.validate (providers : Providers Error) (userId : String)
    (room : RoomContext) : Except (Thrown Error) Bool :=
  match truthy room.teamId, providers.teamProvider with
  | some teamId, some teamProvider =>
      if room.t ≠ .c then .ok false
      else do
        let teamType ← (teamProvider.getTeamType teamId).mapError .provider
        if teamType = some .isPublic then
          providers.hasPermission userId (some PermissionId.viewCRoom)
        else if userId ≠ "" then
          (teamProvider.isTeamMember userId teamId).mapError .provider
        else .ok false
  | _, _ => .ok false

namespace MembershipValidator

def getTypePermission : RoomType → Option String
  | .c => some PermissionId.viewCRoom
  | .p => some PermissionId.viewPRoom
  | .d => some PermissionId.viewDRoom
  | .l => none

def validate (providers : Providers Error) (userId : String) (room : RoomContext) :
    Except (Thrown Error) Bool :=
  match providers.getScopedRoles with
  | none => .ok false
  | some getScopedRoles => do
      let roles ← (getScopedRoles userId room.id).mapError .provider
      if roles.length = 0 then .ok false
      else do
        let viewsJoinedRoom ← providers.hasPermission userId
          (some PermissionId.viewJoinedRoom)
        if viewsJoinedRoom then .ok true
        else providers.hasPermission userId (getTypePermission room.t)

end MembershipValidator

/-- `none` as long as the calls of the access validator have not come to an
end. -/
abbrev Outcome (Error : Type*) := Option (Except (Thrown Error) Bool)

def DiscussionValidator.validate (providers : Providers Error)
    (canAccess : String → RoomContext → Outcome Error) (userId : String)
    (room : RoomContext) : Outcome Error :=
  match truthy room.prid, providers.getRoomContext with
  | some prid, some getRoomContext =>
      match getRoomContext prid with
      | .error error => some (.error (.provider error))
      | .ok none => some (.ok false)
      | .ok (some parentRoom) => canAccess userId parentRoom
  | _, _ => some (.ok false)

/-- The loop over the validators: the first one that grants access or throws
decides. -/
def firstGrant : List (Outcome Error) → Outcome Error
  | [] => some (.ok false)
  | some (.ok false) :: rest => firstGrant rest
  | decided :: _ => decided

/-- `RoomAccessValidator.canAccess`; the fuel bounds how deep its calls are
nested. -/
def canAccess (providers : Providers Error) :
    ℕ → String → RoomContext → Outcome Error
  | 0, _, _ => none
  | fuel + 1, userId, room =>
      if userId = "" then some (.ok false)
      else firstGrant [
        DiscussionValidator.validate providers (canAccess providers fuel) userId
          room,
        some (TeamRoomValidator.validate providers userId room),
        some (PublicRoomValidator.validate providers userId room),
        some (MembershipValidator.validate providers userId room)]

/-- Finitely many calls are made, and the answer is `result`. -/
def Returns (providers : Providers Error) (userId : String) (room : RoomContext)
    (result : Bool) : Prop :=
  ∃ fuel, canAccess providers fuel userId room = some (.ok result)

/-! ## Fixed answers -/

/-- All providers are there, give fixed answers and do not throw. -/
structure Answers where
  getUserGlobalRoles : String → Roles
  getRolesForPermission : String → Roles
  getScopedRoles : String → String → Roles
  getTeamType : String → Option TeamType
  isTeamMember : String → String → Bool
  getRoomContext : String → Option RoomContext

namespace Answers

def providers (answers : Answers) : Providers Error where
  getUserGlobalRoles userId := .ok (answers.getUserGlobalRoles userId)
  getRolesForPermission permissionId :=
    .ok (answers.getRolesForPermission permissionId)
  getScopedRoles := some fun userId scopeId =>
    .ok (answers.getScopedRoles userId scopeId)
  teamProvider := some {
    getTeamType teamId := .ok (answers.getTeamType teamId)
    isTeamMember userId teamId := .ok (answers.isTeamMember userId teamId) }
  getRoomContext := some fun roomId => .ok (answers.getRoomContext roomId)

/-- The parent room, unless `prid` is unset or the lookup gives null. -/
def parentRoom (answers : Answers) (room : RoomContext) : Option RoomContext :=
  (truthy room.prid).bind answers.getRoomContext

def HasPermission (answers : Answers) (userId permissionId : String) : Prop :=
  MayPerform answers.getUserGlobalRoles answers.getRolesForPermission userId
    permissionId

instance (answers : Answers) (userId permissionId : String) :
    Decidable (answers.HasPermission userId permissionId) :=
  inferInstanceAs (Decidable (MayPerform _ _ userId permissionId))

/-- What gives a user access to a room by itself. -/
inductive Grants (answers : Answers) (userId : String) (room : RoomContext) : Prop
  | publicTeam (teamId : String) (hchannel : room.t = .c)
      (hteam : truthy room.teamId = some teamId)
      (htype : answers.getTeamType teamId = some .isPublic)
      (hpermission : answers.HasPermission userId PermissionId.viewCRoom)
  | teamMember (teamId : String) (hchannel : room.t = .c)
      (hteam : truthy room.teamId = some teamId)
      (htype : answers.getTeamType teamId ≠ some .isPublic)
      (hmember : answers.isTeamMember userId teamId = true)
  | publicChannel (hchannel : room.t = .c) (hteam : truthy room.teamId = none)
      (hpermission : answers.HasPermission userId PermissionId.viewCRoom)
  | joined (hroles : answers.getScopedRoles userId room.id ≠ [])
      (hpermission : answers.HasPermission userId PermissionId.viewJoinedRoom)
  | joinedType (permissionId : String)
      (hroles : answers.getScopedRoles userId room.id ≠ [])
      (htype : MembershipValidator.getTypePermission room.t = some permissionId)
      (hpermission : answers.HasPermission userId permissionId)

/-! ## The validators under fixed answers -/

section Validators

variable (answers : Answers) (userId : String) (room : RoomContext)

def viewsPublicRoom : Bool :=
  room.t = .c && (truthy room.teamId).isNone &&
    answers.HasPermission userId PermissionId.viewCRoom

def viewsTeamRoom : Bool :=
  room.t = .c && (truthy room.teamId).any fun teamId =>
    if answers.getTeamType teamId = some .isPublic then
      answers.HasPermission userId PermissionId.viewCRoom
    else answers.isTeamMember userId teamId

def viewsJoinedRoom : Bool :=
  answers.getScopedRoles userId room.id ≠ [] &&
    (answers.HasPermission userId PermissionId.viewJoinedRoom ||
      (MembershipValidator.getTypePermission room.t).any fun permissionId =>
        answers.HasPermission userId permissionId)

/-- What the validators that look at the room alone answer together. -/
def accepts : Bool :=
  answers.viewsTeamRoom userId room || answers.viewsPublicRoom userId room ||
    answers.viewsJoinedRoom userId room

variable {answers userId room}

theorem hasPermission_providers {permissionId : String} (huser : userId ≠ "")
    (hpermission : permissionId ≠ "") :
    (answers.providers : Providers Error).hasPermission userId
        (some permissionId) =
      .ok (decide (answers.HasPermission userId permissionId)) := by
  exact congrArg (Except.mapError Thrown.app)
    (hasPermission_eq_ok answers.getUserGlobalRoles answers.getRolesForPermission _
      huser hpermission)

theorem validate_publicRoom (huser : userId ≠ "") :
    PublicRoomValidator.validate (answers.providers : Providers Error) userId room =
      .ok (answers.viewsPublicRoom userId room) := by
  rw [PublicRoomValidator.validate, hasPermission_providers huser (by decide)]
  by_cases hchannel : room.t = .c
  · cases hteam : truthy room.teamId <;> simp [viewsPublicRoom, hchannel, hteam]
  · simp [viewsPublicRoom, hchannel]

theorem validate_teamRoom (huser : userId ≠ "") :
    TeamRoomValidator.validate (answers.providers : Providers Error) userId room =
      .ok (answers.viewsTeamRoom userId room) := by
  rw [TeamRoomValidator.validate, hasPermission_providers huser (by decide)]
  cases hteam : truthy room.teamId with
  | none => simp [viewsTeamRoom, hteam]
  | some teamId =>
      by_cases hchannel : room.t = .c
      · by_cases htype : answers.getTeamType teamId = some .isPublic
        · simp [viewsTeamRoom, hteam, hchannel, htype, providers, Except.mapError,
            bind, Except.bind]
        · simp [viewsTeamRoom, hteam, hchannel, htype, huser, providers,
            Except.mapError, bind, Except.bind]
      · simp [viewsTeamRoom, hteam, hchannel, providers]

theorem getTypePermission_ne {permissionId : String}
    (htype : MembershipValidator.getTypePermission room.t = some permissionId) :
    permissionId ≠ "" := by
  cases ht : room.t <;> simp only [ht, MembershipValidator.getTypePermission,
    Option.some.injEq, reduceCtorEq] at htype
  all_goals
    subst htype
    decide

theorem validate_membership (huser : userId ≠ "") :
    MembershipValidator.validate (answers.providers : Providers Error) userId room =
      .ok (answers.viewsJoinedRoom userId room) := by
  have hroles : (answers.providers : Providers Error).getScopedRoles =
      some fun userId scopeId => .ok (answers.getScopedRoles userId scopeId) := rfl
  rw [MembershipValidator.validate, hroles,
    hasPermission_providers huser (by decide)]
  by_cases hempty : answers.getScopedRoles userId room.id = []
  · simp [viewsJoinedRoom, hempty, Except.mapError, bind, Except.bind]
  · by_cases hjoined : answers.HasPermission userId PermissionId.viewJoinedRoom
    · simp [viewsJoinedRoom, hempty, hjoined, Except.mapError, bind, Except.bind]
    · cases htype : MembershipValidator.getTypePermission room.t with
      | none =>
          simp [viewsJoinedRoom, hempty, hjoined, htype, Except.mapError, bind,
            Except.bind, Providers.hasPermission,
            PermissionCheckerService.hasPermission, truthy]
      | some permissionId =>
          rw [hasPermission_providers huser (getTypePermission_ne htype)]
          simp [viewsJoinedRoom, hempty, hjoined, htype, Except.mapError, bind,
            Except.bind]

theorem viewsTeamRoom_iff :
    answers.viewsTeamRoom userId room = true ↔
      room.t = .c ∧ ∃ teamId, truthy room.teamId = some teamId ∧
        (if answers.getTeamType teamId = some .isPublic then
          answers.HasPermission userId PermissionId.viewCRoom
        else answers.isTeamMember userId teamId = true) := by
  rw [viewsTeamRoom, Bool.and_eq_true, decide_eq_true_eq, Option.any_eq_true]
  refine and_congr_right fun _ => exists_congr fun teamId => and_congr_right fun _ => ?_
  split <;> simp

theorem viewsJoinedRoom_iff :
    answers.viewsJoinedRoom userId room = true ↔
      answers.getScopedRoles userId room.id ≠ [] ∧
        (answers.HasPermission userId PermissionId.viewJoinedRoom ∨
          ∃ permissionId,
            MembershipValidator.getTypePermission room.t = some permissionId ∧
              answers.HasPermission userId permissionId) := by
  simp only [viewsJoinedRoom, Bool.and_eq_true, Bool.or_eq_true, decide_eq_true_eq,
    Option.any_eq_true]

theorem accepts_iff :
    answers.accepts userId room = true ↔ answers.Grants userId room := by
  rw [accepts, Bool.or_eq_true, Bool.or_eq_true, viewsTeamRoom_iff,
    viewsJoinedRoom_iff]
  constructor
  · rintro ((⟨hchannel, teamId, hteam, hviews⟩ | hpublic) |
      ⟨hroles, hjoined | ⟨permissionId, htype, hpermission⟩⟩)
    · split at hviews
      · rename_i htype
        exact .publicTeam teamId hchannel hteam htype hviews
      · rename_i htype
        exact .teamMember teamId hchannel hteam htype hviews
    · simp only [viewsPublicRoom, Bool.and_eq_true, decide_eq_true_eq,
        Option.isNone_iff_eq_none] at hpublic
      exact .publicChannel hpublic.1.1 hpublic.1.2 hpublic.2
    · exact .joined hroles hjoined
    · exact .joinedType permissionId hroles htype hpermission
  · intro hgrants
    cases hgrants with
    | publicTeam teamId hchannel hteam htype hpermission =>
        exact .inl (.inl ⟨hchannel, teamId, hteam, by rwa [if_pos htype]⟩)
    | teamMember teamId hchannel hteam htype hmember =>
        exact .inl (.inl ⟨hchannel, teamId, hteam, by rwa [if_neg htype]⟩)
    | publicChannel hchannel hteam hpermission =>
        exact .inl (.inr (by simp [viewsPublicRoom, hchannel, hteam, hpermission]))
    | joined hroles hpermission => exact .inr ⟨hroles, .inl hpermission⟩
    | joinedType permissionId hroles htype hpermission =>
        exact .inr ⟨hroles, .inr ⟨permissionId, htype, hpermission⟩⟩

end Validators

/-! ## The chain of parent rooms -/

variable {answers : Answers} {userId : String} {room : RoomContext} {fuel : ℕ}

/-- The loop over the validators once the discussion validator has answered. -/
theorem firstGrant_answered (discussion team publicRoom membership : Bool) :
    firstGrant [(some (.ok discussion) : Outcome Error), some (.ok team),
        some (.ok publicRoom), some (.ok membership)] =
      some (.ok (discussion || (team || publicRoom || membership))) := by
  cases discussion <;> cases team <;> cases publicRoom <;> cases membership <;> rfl

theorem validate_discussion (canAccess : String → RoomContext → Outcome Error) :
    DiscussionValidator.validate answers.providers canAccess userId room =
      match answers.parentRoom room with
      | none => some (.ok false)
      | some parentRoom => canAccess userId parentRoom := by
  cases hprid : truthy room.prid with
  | none => simp [DiscussionValidator.validate, parentRoom, hprid]
  | some prid =>
      cases hparent : answers.getRoomContext prid <;>
        simp [DiscussionValidator.validate, parentRoom, hprid, hparent, providers]

/-- The access validator searches the chain of parent rooms. -/
theorem canAccess_eq_climb (huser : userId ≠ "") :
    canAccess (answers.providers : Providers Error) fuel userId room =
      (Ancestors.climb answers.parentRoom (answers.accepts userId) fuel room).map
        .ok := by
  induction fuel generalizing room with
  | zero => rfl
  | succ fuel ih =>
      rw [canAccess, if_neg huser, validate_teamRoom huser,
        validate_publicRoom huser, validate_membership huser, validate_discussion]
      cases hparent : answers.parentRoom room with
      | none =>
          rw [Ancestors.climb_of_root hparent, firstGrant_answered]
          rfl
      | some parentRoom =>
          rw [Ancestors.climb_of_parent hparent]
          simp only [ih]
          cases Ancestors.climb answers.parentRoom (answers.accepts userId) fuel
              parentRoom with
          | none => rfl
          | some result =>
              simp only [Option.map_some, firstGrant_answered]
              rfl

theorem returns_iff_climb {result : Bool} (huser : userId ≠ "") :
    Returns (answers.providers : Providers Error) userId room result ↔
      ∃ fuel, Ancestors.climb answers.parentRoom (answers.accepts userId) fuel
        room = some result := by
  refine exists_congr fun fuel => ?_
  rw [canAccess_eq_climb huser]
  simp

/-- An access check has at most one answer. -/
theorem returns_unique {left right : Bool}
    (hleft : Returns (answers.providers : Providers Error) userId room left)
    (hright : Returns (answers.providers : Providers Error) userId room right) :
    left = right := by
  by_cases huser : userId = ""
  · obtain ⟨_ | fuel, hleft⟩ := hleft
    · cases hleft
    obtain ⟨_ | fuel', hright⟩ := hright
    · cases hright
    rw [canAccess, if_pos huser] at hleft hright
    exact Except.ok.inj (Option.some.inj (hleft.symm.trans hright))
  · obtain ⟨fuel, hleft⟩ := (returns_iff_climb huser).mp hleft
    obtain ⟨fuel', hright⟩ := (returns_iff_climb huser).mp hright
    rcases le_total fuel fuel' with hle | hle
    · exact Option.some.inj ((Ancestors.climb_mono hle hleft).symm.trans hright)
    · exact Option.some.inj (hleft.symm.trans (Ancestors.climb_mono hle hright))

theorem returns_of_anonymous {providers : Providers Error} :
    Returns providers "" room false := ⟨1, rfl⟩

end Answers

/-! ## Ancestor-wise access -/

/-- On a finite chain of parent rooms the access validator answers whether some
room of the chain grants access by itself. -/
theorem canAccess_iff_ancestor_grants (answers : Answers) (userId : String)
    (room : RoomContext) (hends : Ancestors.Ends answers.parentRoom room) :
    ∃ result, Returns (answers.providers : Providers Error) userId room result ∧
      (result = true ↔ userId ≠ "" ∧ ∃ ancestor,
        Ancestors.Ancestor answers.parentRoom room ancestor ∧
          answers.Grants userId ancestor) := by
  by_cases huser : userId = ""
  · subst huser
    exact ⟨false, Answers.returns_of_anonymous, by simp⟩
  · obtain ⟨fuel, result, hclimb, hresult⟩ :=
      Ancestors.exists_climb (answers.accepts userId) hends
    refine ⟨result, (Answers.returns_iff_climb huser).mpr ⟨fuel, hclimb⟩, ?_⟩
    simp only [hresult, Answers.accepts_iff, ne_eq, huser, not_false_eq_true, true_and]

/-- A public channel and a discussion in it. -/
def channelRoom : RoomContext := ⟨"general", .c, none, none⟩

def discussionRoom : RoomContext := ⟨"discussion-1", .p, none, some "general"⟩

/-- Every user may view public channels and has joined no room. -/
def channelAnswers : Answers where
  getUserGlobalRoles _ := ["user"]
  getRolesForPermission permissionId :=
    if permissionId = PermissionId.viewCRoom then ["admin", "user"] else ["admin"]
  getScopedRoles _ _ := []
  getTeamType _ := none
  isTeamMember _ _ := false
  getRoomContext roomId := if roomId = "general" then some channelRoom else none

theorem canAccess_iff_ancestor_grants_discussion :
    ∃ result, Returns (channelAnswers.providers : Providers Empty) "alice"
        discussionRoom result ∧
      (result = true ↔ "alice" ≠ "" ∧ ∃ ancestor,
        Ancestors.Ancestor channelAnswers.parentRoom discussionRoom ancestor ∧
          channelAnswers.Grants "alice" ancestor) :=
  canAccess_iff_ancestor_grants channelAnswers "alice" discussionRoom
    (.step (by decide) (.root (by decide) : Ancestors.Ends _ channelRoom))

/-! ## Termination -/

/-- The recursion follows `prid` as far as it leads, and has no other bound. -/
theorem canAccess_returns_iff (answers : Answers) (userId : String)
    (room : RoomContext) :
    (∃ result, Returns (answers.providers : Providers Error) userId room result) ↔
      userId = "" ∨ Ancestors.Ends answers.parentRoom room := by
  by_cases huser : userId = ""
  · subst huser
    exact iff_of_true ⟨false, Answers.returns_of_anonymous⟩ (.inl rfl)
  · rw [or_iff_right huser,
      ← Ancestors.climb_ends_iff (answers.accepts userId), exists_comm]
    exact exists_congr fun result => Answers.returns_iff_climb huser

/-- A discussion that is its own parent. -/
def cyclicRoom : RoomContext := ⟨"discussion-1", .p, none, some "discussion-1"⟩

def cyclicAnswers : Answers :=
  { channelAnswers with getRoomContext := fun _ => some cyclicRoom }

theorem canAccess_not_returns_of_cycle :
    ¬ ∃ result, Returns (cyclicAnswers.providers : Providers Empty) "alice"
      cyclicRoom result := by
  rintro ⟨result, hreturns⟩
  obtain ⟨fuel, hclimb⟩ := (Answers.returns_iff_climb (by decide)).mp hreturns
  have hparent : cyclicAnswers.parentRoom cyclicRoom = some cyclicRoom := by decide
  exact Ancestors.not_ends_of_cycle (.single hparent)
    (Ancestors.ends_of_climb hclimb)

end OceanChat.Authorization
