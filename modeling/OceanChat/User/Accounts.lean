import OceanChat.Core.Runs
import OceanChat.Core.Utf8
import OceanChat.User.LocalPassword
import OceanChat.User.Registration

/-!
# Accounts

A registration validates name and password, hashes the password and stores the
user; the index on the names lets one document with each name in.  Any number of
registrations are interleaved, and each of their inserts may fail or be answered
by an error although it took effect.
-/

namespace OceanChat.Accounts

open Checks (Throws)
open Credentials (AuthProviders UserDocument)
open LocalPassword (validatePassword)
open Registration (RegExp Rejection validateCreateUserDto)
open Runs (run)
open Settings (Value)

/-- Argon2: the hash of a password depends on a salt, and the password fits its
hashes. -/
structure PasswordService (Error : Type) where
  hash : ℕ → String → Except Error String
  verify : String → String → Except Error Bool
  ne_empty : ∀ {salt plain passwordHash}, hash salt plain = .ok passwordHash →
    passwordHash ≠ ""
  verify_hash : ∀ {salt plain passwordHash}, hash salt plain = .ok passwordHash →
    verify plain passwordHash = .ok true

/-- What passes the validation pipe of the user service. -/
structure CreateUserDto where
  username : String
  password : String
  username_ne : username ≠ ""
  password_ne : password ≠ ""

/-! ## Registering -/

def usernameAlreadyExists : AppException :=
  domainException "USERNAME_ALREADY_EXISTS" ErrorCodes.usernameAlreadyExists 409

def userCreationError : AppException :=
  infrastructureException "USER_CREATION_ERROR" ErrorCodes.creationError 500

/-- What `create` throws when the validation rejects. -/
def rethrow : Rejection → AppException
  | .exception error _ => error
  | .syntaxError => userCreationError
  | .unread => userCreationError

/-- `none` is a read that rejects. -/
def getSettingValue (reads : String → Option Value) (key : String) :
    Except Rejection Value :=
  match reads key with
  | some value => .ok value
  | none => .error .unread

/-- The code units of a string. -/
def textOf (value : String) : Text := Utf8.ofChars value.toList

def validateDto (regExp : RegExp) (reads : String → Option Value)
    (dto : CreateUserDto) : Except Rejection Unit :=
  validateCreateUserDto regExp (getSettingValue reads) (textOf dto.username)
    (textOf dto.password)

def newUser (id : String) (dto : CreateUserDto) (passwordHash : String) :
    UserDocument where
  id := id
  username := dto.username
  active := true
  providers := [⟨.local, dto.username, some passwordHash⟩]

/-- Where a call of `create` is: it awaits the settings, the hash or the insert, or is
over. -/
inductive Stage
  | validating
  | hashing
  | saving (passwordHash : String)
  | resolved (user : Credentials.User)
  | rejected (error : AppException)

structure Call where
  createUserDto : CreateUserDto
  stage : Stage

structure State where
  users : List UserDocument
  calls : ℕ → Option Call

def State.initial (users : List UserDocument) : State := ⟨users, fun _ => none⟩

def State.put (state : State) (id : ℕ) (createUserDto : CreateUserDto) (stage : Stage) :
    State :=
  { state with calls := Function.update state.calls id (some ⟨createUserDto, stage⟩) }

inductive Event
  | create (id : ℕ) (createUserDto : CreateUserDto)
  | validate (id : ℕ) (reads : String → Option Value)
  | hash (id : ℕ) (salt : ℕ)
  | save (id : ℕ) (userId : String) (reply : Reply)

/-- The stage after a call, when the insert has been executed. -/
def settle (reply : Reply) (result : Except AppException Credentials.User) : Stage :=
  if reply = .ok then
    match result with
    | .ok user => .resolved user
    | .error error => .rejected error
  else .rejected userCreationError

/-- The identifiers are drawn anew for every document. -/
def step {Error : Type} (service : PasswordService Error) (regExp : RegExp)
    (state : State) : Event → Option State
  | .create id createUserDto =>
      if (state.calls id).isNone then some (state.put id createUserDto .validating)
      else none
  | .validate id reads =>
      match state.calls id with
      | some ⟨createUserDto, .validating⟩ =>
          match validateDto regExp reads createUserDto with
          | .ok () => some (state.put id createUserDto .hashing)
          | .error thrown => some (state.put id createUserDto (.rejected (rethrow thrown)))
      | _ => none
  | .hash id salt =>
      match state.calls id with
      | some ⟨createUserDto, .hashing⟩ =>
          match service.hash salt createUserDto.password with
          | .ok passwordHash => some (state.put id createUserDto (.saving passwordHash))
          | .error _ => some (state.put id createUserDto (.rejected userCreationError))
      | _ => none
  | .save id userId reply =>
      match state.calls id with
      | some ⟨createUserDto, .saving passwordHash⟩ =>
          let user := newUser userId createUserDto passwordHash
          if state.users.any fun other => other.id = userId then none
          else if reply.took = false then
            some (state.put id createUserDto (.rejected userCreationError))
          else if state.users.any fun other => other.username = user.username then
            some (state.put id createUserDto
              (settle reply (.error usernameAlreadyExists)))
          else
            some { state.put id createUserDto (settle reply (.ok user.toUser)) with
              users := state.users ++ [user] }
      | _ => none

/-! ## Logging in -/

def unauthorized : AppException :=
  domainException "UNAUTHORIZED" ErrorCodes.unauthorized 401

/-- `LocalAuthGuard.handleRequest`: every error and every null is unauthorized. -/
def handleRequest {Error : Type} :
    Except Error (Option Credentials.User) → Except AppException Credentials.User
  | .ok (some user) => .ok user
  | _ => .error unauthorized

/-- The guard of the login.  The strategy fails without a name or a password;
otherwise the user service is asked, whose answer may get lost. -/
def canActivate {Error : Type} (service : PasswordService Error) (users : List UserDocument)
    (reply : Reply) (username password : String) :
    Except AppException Credentials.User :=
  if username = "" ∨ password = "" ∨ reply ≠ .ok then .error unauthorized
  else handleRequest (validatePassword service.verify users username password)

/-! ## What a registration does -/

section Steps

variable {Error : Type} {service : PasswordService Error} {regExp : RegExp}
variable {state next : State} {event : Event} {history : List Event} {id other : ℕ}
variable {createUserDto : CreateUserDto} {stage : Stage}

@[simp]
theorem State.put_users : (state.put id createUserDto stage).users = state.users := rfl

@[simp]
theorem State.put_calls : (state.put id createUserDto stage).calls =
    Function.update state.calls id (some ⟨createUserDto, stage⟩) := rfl

/-- The validation has a code of its own for everything it rejects. -/
theorem throws_validateDto (reads : String → Option Value) :
    Throws (fun thrown => rethrow thrown ≠ usernameAlreadyExists)
      (validateDto regExp reads createUserDto) := by
  have hread : ∀ key, Throws (fun thrown => rethrow thrown ≠ usernameAlreadyExists)
      (getSettingValue reads key) := by
    intro key
    unfold getSettingValue
    split
    · exact Throws.ok _
    · exact Throws.error (by decide)
  have hcompile : ∀ value, Throws (fun thrown => rethrow thrown ≠ usernameAlreadyExists)
      (Registration.compile regExp value) := by
    intro value
    unfold Registration.compile
    split
    · split
      · exact Throws.ok _
      · exact Throws.error (by decide)
    · exact Throws.error (by decide)
  have hshort : domainException "USERNAME_TOO_SHORT" ErrorCodes.usernameTooShort 400 ≠
      usernameAlreadyExists := by decide
  have hlong : domainException "USERNAME_TOO_LONG" ErrorCodes.usernameTooLong 400 ≠
      usernameAlreadyExists := by decide
  unfold validateDto validateCreateUserDto
  iterate 8 refine Throws.bind (hread _) fun _ => ?_
  refine Throws.bind (Throws.reject hshort) fun _ => ?_
  refine Throws.bind (Throws.reject hlong) fun _ => ?_
  refine Throws.bind (hcompile _) fun _ => ?_
  iterate 5 refine Throws.bind (Throws.reject (by decide)) fun _ => ?_
  exact Throws.reject (by decide)

/-- The call has not come back yet. -/
def Stage.Pending : Stage → Prop
  | .resolved _ => False
  | .rejected _ => False
  | _ => True

/-- What an enabled event does. -/
inductive Effect (service : PasswordService Error) (regExp : RegExp) (state : State) :
    Event → State → Prop
  | create {id : ℕ} {createUserDto : CreateUserDto} (hnone : state.calls id = none) :
      Effect service regExp state (.create id createUserDto)
        (state.put id createUserDto .validating)
  | validated {id : ℕ} {reads : String → Option Value} {createUserDto : CreateUserDto}
      (hcall : state.calls id = some ⟨createUserDto, .validating⟩)
      (haccepts : validateDto regExp reads createUserDto = .ok ()) :
      Effect service regExp state (.validate id reads)
        (state.put id createUserDto .hashing)
  | hashed {id salt : ℕ} {createUserDto : CreateUserDto} {passwordHash : String}
      (hcall : state.calls id = some ⟨createUserDto, .hashing⟩)
      (hhash : service.hash salt createUserDto.password = .ok passwordHash) :
      Effect service regExp state (.hash id salt)
        (state.put id createUserDto (.saving passwordHash))
  | rejected {event : Event} {id : ℕ} {createUserDto : CreateUserDto} {stage : Stage}
      {error : AppException}
      (hcall : state.calls id = some ⟨createUserDto, stage⟩) (hpending : stage.Pending)
      (htaken : error = usernameAlreadyExists →
        ∃ user ∈ state.users, user.username = createUserDto.username) :
      Effect service regExp state event (state.put id createUserDto (.rejected error))
  | saved {id : ℕ} {userId : String} {reply : Reply} {createUserDto : CreateUserDto}
      {passwordHash : String} {stage : Stage}
      (hcall : state.calls id = some ⟨createUserDto, .saving passwordHash⟩)
      (hfree : ∀ user ∈ state.users, user.username ≠ createUserDto.username)
      (hstage : stage = .resolved (newUser userId createUserDto passwordHash).toUser ∨
        stage = .rejected userCreationError) :
      Effect service regExp state (.save id userId reply)
        { state.put id createUserDto stage with
          users := state.users ++ [newUser userId createUserDto passwordHash] }

theorem userCreationError_ne : userCreationError ≠ usernameAlreadyExists := by
  decide

theorem settle_ok (reply : Reply) (user : Credentials.User) :
    settle reply (.ok user) = .resolved user ∨
      settle reply (.ok user) = .rejected userCreationError := by
  unfold settle
  split
  · exact .inl rfl
  · exact .inr rfl

/-- A name that is taken rejects the call, whether or not it is told so. -/
theorem exists_settle_error (reply : Reply) (error : AppException) :
    ∃ thrown, settle reply (.error error) = .rejected thrown := by
  unfold settle
  split
  · exact ⟨_, rfl⟩
  · exact ⟨_, rfl⟩

theorem effect_of_step (hstep : step service regExp state event = some next) :
    Effect service regExp state event next := by
  cases event with
  | create id createUserDto =>
      obtain ⟨hnone, hnext⟩ := Option.ite_none_right_eq_some.mp hstep
      obtain rfl := Option.some.inj hnext
      exact .create (Option.isNone_iff_eq_none.mp hnone)
  | validate id reads =>
      simp only [step] at hstep
      split at hstep
      · rename_i createUserDto hcall
        split at hstep
        · rename_i haccepts
          obtain rfl := Option.some.inj hstep
          exact .validated hcall haccepts
        · rename_i thrown hthrown
          obtain rfl := Option.some.inj hstep
          exact .rejected hcall trivial
            fun hsame => absurd hsame (throws_validateDto reads thrown hthrown)
      · cases hstep
  | hash id salt =>
      simp only [step] at hstep
      split at hstep
      · rename_i createUserDto hcall
        split at hstep
        · rename_i passwordHash hhash
          obtain rfl := Option.some.inj hstep
          exact .hashed hcall hhash
        · obtain rfl := Option.some.inj hstep
          exact .rejected hcall trivial fun hsame => absurd hsame userCreationError_ne
      · cases hstep
  | save id userId reply =>
      simp only [step] at hstep
      split at hstep
      · rename_i createUserDto passwordHash hcall
        obtain ⟨-, hstep⟩ := Option.ite_none_left_eq_some.mp hstep
        split at hstep
        · obtain rfl := Option.some.inj hstep
          exact .rejected hcall trivial fun hsame => absurd hsame userCreationError_ne
        · split at hstep
          · rename_i htaken
            obtain rfl := Option.some.inj hstep
            obtain ⟨user, hmem, hname⟩ := List.any_eq_true.mp htaken
            obtain ⟨thrown, hthrown⟩ := exists_settle_error reply usernameAlreadyExists
            rw [hthrown]
            exact .rejected hcall trivial fun _ => ⟨user, hmem, of_decide_eq_true hname⟩
          · rename_i hfree
            obtain rfl := Option.some.inj hstep
            refine .saved hcall (fun user hmem hname => hfree ?_) (settle_ok reply _)
            exact List.any_eq_true.mpr ⟨user, hmem, decide_eq_true hname⟩
      · cases hstep

/-! ## Where the accounts come from -/

/-- The settings that the call has read accept its name and password. -/
def Validated (regExp : RegExp) (history : List Event) (id : ℕ)
    (createUserDto : CreateUserDto) : Prop :=
  ∃ reads, Event.validate id reads ∈ history ∧
    validateDto regExp reads createUserDto = .ok ()

/-- The call has been validated, and the text is a hash of its password. -/
def Hashed (service : PasswordService Error) (regExp : RegExp) (history : List Event)
    (id : ℕ) (createUserDto : CreateUserDto) (passwordHash : String) : Prop :=
  Validated regExp history id createUserDto ∧
    ∃ salt, service.hash salt createUserDto.password = .ok passwordHash

/-- The call has stored the user, and was told so or that the creation has failed. -/
def Stored (service : PasswordService Error) (regExp : RegExp) (history : List Event)
    (state : State) (user : UserDocument) : Prop :=
  ∃ id createUserDto passwordHash,
    Hashed service regExp history id createUserDto passwordHash ∧
      user = newUser user.id createUserDto passwordHash ∧
      (state.calls id = some ⟨createUserDto, .resolved user.toUser⟩ ∨
        state.calls id = some ⟨createUserDto, .rejected userCreationError⟩)

/-- What is behind the stage of a call. -/
def Justified (service : PasswordService Error) (regExp : RegExp) (history : List Event)
    (users : List UserDocument) (id : ℕ) (createUserDto : CreateUserDto) : Stage → Prop
  | .validating => True
  | .hashing => Validated regExp history id createUserDto
  | .saving passwordHash => Hashed service regExp history id createUserDto passwordHash
  | .resolved user => ∃ passwordHash,
      Hashed service regExp history id createUserDto passwordHash ∧
        newUser user.id createUserDto passwordHash ∈ users ∧
        user = (newUser user.id createUserDto passwordHash).toUser
  | .rejected error => error = usernameAlreadyExists →
      ∃ user ∈ users, user.username = createUserDto.username

theorem Validated.append (hvalidated : Validated regExp history id createUserDto)
    (later : List Event) : Validated regExp (history ++ later) id createUserDto := by
  obtain ⟨reads, hmem, haccepts⟩ := hvalidated
  exact ⟨reads, List.mem_append_left _ hmem, haccepts⟩

theorem Hashed.append {passwordHash : String}
    (hhashed : Hashed service regExp history id createUserDto passwordHash)
    (later : List Event) :
    Hashed service regExp (history ++ later) id createUserDto passwordHash :=
  ⟨hhashed.1.append later, hhashed.2⟩

theorem Justified.append {users : List UserDocument}
    (hjustified : Justified service regExp history users id createUserDto stage)
    (later : List Event) (more : List UserDocument) :
    Justified service regExp (history ++ later) (users ++ more) id createUserDto stage := by
  cases stage with
  | validating => trivial
  | hashing => exact Validated.append hjustified later
  | saving passwordHash => exact Hashed.append hjustified later
  | resolved user =>
      obtain ⟨passwordHash, hhashed, hmem, huser⟩ := hjustified
      exact ⟨passwordHash, hhashed.append later, List.mem_append_left _ hmem, huser⟩
  | rejected error =>
      intro herror
      obtain ⟨user, hmem, hname⟩ := hjustified herror
      exact ⟨user, List.mem_append_left _ hmem, hname⟩

/-- Names are taken once, every stage is justified, and all users but those at the
start are stored by calls. -/
structure Sound (service : PasswordService Error) (regExp : RegExp)
    (users : List UserDocument) (state : State) (history : List Event) : Prop where
  nodup : (state.users.map fun user => user.username).Nodup
  grown : users <+: state.users
  justified : ∀ id createUserDto stage, state.calls id = some ⟨createUserDto, stage⟩ →
    Justified service regExp history state.users id createUserDto stage
  winner : ∀ id other createUserDto otherDto user otherUser,
    state.calls id = some ⟨createUserDto, .resolved user⟩ →
      state.calls other = some ⟨otherDto, .resolved otherUser⟩ →
        createUserDto.username = otherDto.username → id = other
  stored : ∀ user ∈ state.users,
    user ∈ users ∨ Stored service regExp history state user

theorem Sound.initial {users : List UserDocument}
    (hnodup : (users.map fun user => user.username).Nodup) :
    Sound service regExp users (State.initial users) [] where
  nodup := hnodup
  grown := List.prefix_refl users
  justified := by simp [State.initial]
  winner := by simp [State.initial]
  stored _ hmem := .inl hmem

/-- Only a call that has not come back moves. -/
theorem calls_put_of_ne {found : Call}
    (hcall : ∀ call, state.calls id = some call → call.stage.Pending)
    (hfound : state.calls other = some found) (hsettled : ¬ found.stage.Pending) :
    (state.put id createUserDto stage).calls other = some found := by
  have hne : other ≠ id := by
    rintro rfl
    exact hsettled (hcall found hfound)
  rw [State.put_calls, Function.update_of_ne hne, hfound]

theorem Stored.put {user : UserDocument}
    (hstored : Stored service regExp history state user)
    (hcall : ∀ call, state.calls id = some call → call.stage.Pending)
    (later : List Event) :
    Stored service regExp (history ++ later) (state.put id createUserDto stage) user := by
  obtain ⟨other, otherDto, passwordHash, hhashed, huser, hother⟩ := hstored
  exact ⟨other, otherDto, passwordHash, hhashed.append later, huser, hother.imp
    (fun hfound => calls_put_of_ne hcall hfound not_false)
    (fun hfound => calls_put_of_ne hcall hfound not_false)⟩

/-- A call moves on, and the users that are added are its own. -/
theorem Sound.put {users more : List UserDocument}
    (hsound : Sound service regExp users state history)
    (hcall : ∀ call, state.calls id = some call → call.stage.Pending)
    (hnodup : ((state.users ++ more).map fun user => user.username).Nodup)
    (hjustified : Justified service regExp (history ++ [event]) (state.users ++ more) id
      createUserDto stage)
    (hwinner : ∀ user, stage = .resolved user →
      ∀ other ∈ state.users, other.username ≠ createUserDto.username)
    (hstored : ∀ user ∈ more, Stored service regExp (history ++ [event])
      (state.put id createUserDto stage) user) :
    Sound service regExp users
      { state.put id createUserDto stage with users := state.users ++ more }
      (history ++ [event]) where
  nodup := hnodup
  grown := hsound.grown.trans (List.prefix_append _ _)
  justified other otherDto otherStage hother := by
    rw [State.put_calls] at hother
    by_cases hsame : other = id
    · subst hsame
      rw [Function.update_self] at hother
      obtain ⟨rfl, rfl⟩ := Call.mk.inj (Option.some.inj hother)
      exact hjustified
    · rw [Function.update_of_ne hsame] at hother
      exact (hsound.justified other otherDto otherStage hother).append _ _
  winner left right leftDto rightDto leftUser rightUser hleft hright hname := by
    have hmoved : ∀ {one other : ℕ} {oneDto otherDto : CreateUserDto}
        {oneUser otherUser : Credentials.User}, one = id → other ≠ id →
        Function.update state.calls id (some ⟨createUserDto, stage⟩) one =
          some ⟨oneDto, .resolved oneUser⟩ →
        Function.update state.calls id (some ⟨createUserDto, stage⟩) other =
          some ⟨otherDto, .resolved otherUser⟩ → oneDto.username ≠ otherDto.username := by
      rintro one other oneDto otherDto oneUser otherUser rfl hother hone hfound
      rw [Function.update_self] at hone
      rw [Function.update_of_ne hother] at hfound
      obtain ⟨rfl, rfl⟩ := Call.mk.inj (Option.some.inj hone)
      obtain ⟨passwordHash, -, hmem, huser⟩ := hsound.justified _ _ _ hfound
      exact fun hsame => hwinner _ rfl _ hmem hsame.symm
    rw [State.put_calls] at hleft hright
    by_cases hl : left = id <;> by_cases hr : right = id
    · rw [hl, hr]
    · exact absurd hname (hmoved hl hr hleft hright)
    · exact absurd hname.symm (hmoved hr hl hright hleft)
    · rw [Function.update_of_ne hl] at hleft
      rw [Function.update_of_ne hr] at hright
      exact hsound.winner _ _ _ _ _ _ hleft hright hname
  stored user hmem := by
    obtain hmem | hmem := List.mem_append.mp hmem
    · exact (hsound.stored user hmem).imp_right fun hstored => hstored.put hcall _
    · exact .inr (hstored user hmem)

/-- A call that moves on without storing a user. -/
theorem Sound.move {users : List UserDocument}
    (hsound : Sound service regExp users state history)
    (hcall : ∀ call, state.calls id = some call → call.stage.Pending)
    (hjustified : Justified service regExp (history ++ [event]) state.users id
      createUserDto stage)
    (hstage : ∀ user, stage ≠ .resolved user) :
    Sound service regExp users (state.put id createUserDto stage)
      (history ++ [event]) := by
  have hnone : state.users ++ [] = state.users := List.append_nil _
  have hput : Sound service regExp users
      { state.put id createUserDto stage with users := state.users ++ [] }
      (history ++ [event]) :=
    hsound.put hcall (hnone.symm ▸ hsound.nodup) (hnone.symm ▸ hjustified)
      (fun user huser => absurd huser (hstage user)) (List.forall_mem_nil _)
  rwa [hnone] at hput

theorem pending_of_eq {call : Call} (hfound : state.calls id = some call)
    (hpending : call.stage.Pending) :
    ∀ other, state.calls id = some other → other.stage.Pending := by
  intro other hother
  exact Option.some.inj (hfound.symm.trans hother) ▸ hpending

theorem Sound.of_step {users : List UserDocument}
    (hsound : Sound service regExp users state history)
    (hstep : step service regExp state event = some next) :
    Sound service regExp users next (history ++ [event]) := by
  cases effect_of_step hstep with
  | create hnone =>
      exact hsound.move (fun call hcall => by simp [hnone] at hcall) trivial (by simp)
  | validated hcall haccepts =>
      exact hsound.move (pending_of_eq hcall trivial)
        ⟨_, List.mem_append_right _ List.mem_cons_self, haccepts⟩ (by simp)
  | hashed hcall hhash =>
      have hvalidated : Validated regExp history _ _ := hsound.justified _ _ _ hcall
      exact hsound.move (pending_of_eq hcall trivial)
        ⟨hvalidated.append _, _, hhash⟩ (by simp)
  | rejected hcall hpending htaken =>
      exact hsound.move (pending_of_eq hcall hpending) htaken (by simp)
  | @saved id userId reply createUserDto passwordHash stage hcall hfree hstage =>
      have hhashed : Hashed service regExp history id createUserDto passwordHash :=
        hsound.justified _ _ _ hcall
      have hfound : (state.put id createUserDto stage).calls id =
          some ⟨createUserDto, stage⟩ := Function.update_self ..
      refine hsound.put (pending_of_eq hcall trivial) ?_ ?_ (fun _ _ => hfree) ?_
      · rw [List.map_append, List.map_singleton]
        refine hsound.nodup.append (List.nodup_singleton _) ?_
        simpa [List.disjoint_singleton, newUser] using hfree
      · obtain rfl | rfl := hstage
        · exact ⟨passwordHash, hhashed.append _,
            List.mem_append_right _ List.mem_cons_self, rfl⟩
        · exact fun hsame => absurd hsame userCreationError_ne
      · simp only [List.mem_singleton, forall_eq]
        refine ⟨id, createUserDto, passwordHash, hhashed.append _, rfl, ?_⟩
        rw [hfound]
        exact hstage.imp (fun hresolved => by rw [hresolved])
          (fun hrejected => by rw [hrejected])

theorem Sound.of_run {users : List UserDocument} {events : List Event} {final : State}
    (hnodup : (users.map fun user => user.username).Nodup)
    (hrun : run (step service regExp) (State.initial users) events = some final) :
    Sound service regExp users final events := by
  induction events using List.reverseRecOn generalizing final with
  | nil =>
      obtain rfl : State.initial users = final := by simpa using hrun
      exact Sound.initial hnodup
  | append_singleton events event ih =>
      obtain ⟨middle, hmiddle, hlast⟩ := Runs.run_append_eq_some.mp hrun
      obtain ⟨next, hstep, hnext⟩ := Runs.run_cons_eq_some.mp hlast
      obtain rfl : next = final := by simpa using hnext
      exact (ih hmiddle).of_step hstep

/-! ## Who can log in -/

theorem hash_newUser (userId : String) {passwordHash : String} (hne : passwordHash ≠ "") :
    AuthProviders.hash ⟨.local, userId, some passwordHash⟩ = some passwordHash := by
  simp [AuthProviders.hash, hne]

/-- A registered user gets in with the passwords that fit the stored hash. -/
theorem validatePassword_newUser (service : PasswordService Error) (password : String)
    {users : List UserDocument} {userId passwordHash : String}
    (hnodup : (users.map fun user => user.username).Nodup)
    (hmem : newUser userId createUserDto passwordHash ∈ users) (hne : passwordHash ≠ "") :
    validatePassword service.verify users createUserDto.username password =
      (service.verify password passwordHash).map fun isValid =>
        if isValid then some (newUser userId createUserDto passwordHash).toUser
        else none := by
  have hhash := hash_newUser createUserDto.username hne
  have hlocal : LocalPassword.localProvider (newUser userId createUserDto passwordHash) =
      some ⟨.local, createUserDto.username, some passwordHash⟩ := by
    simp [LocalPassword.localProvider, newUser]
  have hanswer : LocalPassword.answer service.verify password
      (newUser userId createUserDto passwordHash).providers.head? =
        service.verify password passwordHash := by
    rw [LocalPassword.answer]
    simp [newUser, hhash]
  rw [← hanswer]
  exact LocalPassword.validatePassword_eq_answer hnodup hmem
    (by rw [hlocal, Option.bind_some, hhash]; rfl)

theorem mem_of_findOne {users : List UserDocument} {username : String}
    {provider : Credentials.AuthProvider} {found : UserDocument}
    (hfind : Credentials.findOneByUsernameAndProvider users username provider =
      some found) : found ∈ users ∧ found.username = username := by
  unfold Credentials.findOneByUsernameAndProvider at hfind
  obtain ⟨user, huser, hfind⟩ := Option.bind_eq_some_iff.mp hfind
  obtain ⟨entry, -, hfind⟩ := Option.bind_eq_some_iff.mp hfind
  obtain ⟨-, hsame⟩ := Option.ite_none_right_eq_some.mp hfind
  obtain rfl := Option.some.inj hsame
  have hname := List.find?_some huser
  exact ⟨List.mem_of_find?_eq_some huser, (of_decide_eq_true hname).1⟩

theorem canActivate_eq_ok {users : List UserDocument} {reply : Reply}
    {username password : String} {user : Credentials.User} :
    canActivate service users reply username password = .ok user ↔
      username ≠ "" ∧ password ≠ "" ∧ reply = .ok ∧
        validatePassword service.verify users username password = .ok (some user) := by
  unfold canActivate
  split
  · rename_i hrefused
    simp only [reduceCtorEq, false_iff]
    tauto
  · rename_i hasked
    push Not at hasked
    rw [handleRequest.eq_def]
    cases validatePassword service.verify users username password with
    | error error => simp
    | ok answer => cases answer <;> simp [hasked]

/-- Whoever is let in is in the collection under that name. -/
theorem mem_of_validatePassword {users : List UserDocument} {username password : String}
    {user : Credentials.User}
    (hvalid : validatePassword service.verify users username password =
      .ok (some user)) :
    ∃ found ∈ users, found.username = username ∧ found.toUser = user := by
  unfold validatePassword at hvalid
  split at hvalid
  · cases hvalid
  · rename_i found hfind
    obtain ⟨hmem, hname⟩ := mem_of_findOne hfind
    split at hvalid
    · cases hvalid
    · obtain ⟨isValid, -, hanswer⟩ := Checks.bind_eq_ok.mp hvalid
      cases isValid with
      | false => cases hanswer
      | true => exact ⟨found, hmem, hname, Option.some.inj (Except.ok.inj hanswer)⟩

/-- Users that are added under other names change no login. -/
theorem validatePassword_of_grown {users final : List UserDocument} {user : UserDocument}
    (hgrown : users <+: final) (hnodup : (final.map fun one => one.username).Nodup)
    (hmem : user ∈ users) (password : String) :
    validatePassword service.verify final user.username password =
      validatePassword service.verify users user.username password := by
  have hbefore : (users.map fun one => one.username).Nodup :=
    hnodup.sublist (hgrown.sublist.map _)
  unfold validatePassword
  rw [LocalPassword.findOneByUsernameAndProvider_of_nodup hnodup (hgrown.subset hmem),
    LocalPassword.findOneByUsernameAndProvider_of_nodup hbefore hmem]

theorem Sound.canActivate_resolved {users : List UserDocument} {user : Credentials.User}
    (hsound : Sound service regExp users state history)
    (hcall : state.calls id = some ⟨createUserDto, .resolved user⟩) :
    canActivate service state.users .ok createUserDto.username createUserDto.password =
      .ok user := by
  obtain ⟨passwordHash, ⟨-, salt, hhash⟩, hmem, huser⟩ := hsound.justified _ _ _ hcall
  have hanswer := validatePassword_newUser service createUserDto.password hsound.nodup hmem
    (service.ne_empty hhash)
  rw [service.verify_hash hhash] at hanswer
  exact canActivate_eq_ok.mpr ⟨createUserDto.username_ne, createUserDto.password_ne, rfl,
    huser ▸ hanswer⟩

/-- Whoever gets in could do so before, or is registered with a password whose hash the
given one fits. -/
theorem Sound.origin_of_canActivate {users : List UserDocument} {reply : Reply}
    {username password : String} {user : Credentials.User}
    (hsound : Sound service regExp users state history)
    (hin : canActivate service state.users reply username password = .ok user) :
    canActivate service users .ok username password = .ok user ∨
      ∃ id createUserDto passwordHash, createUserDto.username = username ∧
        Hashed service regExp history id createUserDto passwordHash ∧
        service.verify password passwordHash = .ok true ∧
        (state.calls id = some ⟨createUserDto, .resolved user⟩ ∨
          state.calls id = some ⟨createUserDto, .rejected userCreationError⟩) := by
  obtain ⟨husername, hpassword, -, hvalid⟩ := canActivate_eq_ok.mp hin
  obtain ⟨found, hmem, rfl, rfl⟩ := mem_of_validatePassword hvalid
  obtain hold | ⟨id, createUserDto, passwordHash, hhashed, hfound, hcall⟩ :=
    hsound.stored found hmem
  · left
    rw [validatePassword_of_grown hsound.grown hsound.nodup hold] at hvalid
    exact canActivate_eq_ok.mpr ⟨husername, hpassword, rfl, hvalid⟩
  · right
    obtain ⟨salt, hhash⟩ := hhashed.2
    have hname : createUserDto.username = found.username := by
      rw [hfound]
      rfl
    rw [hfound] at hmem
    have hanswer := validatePassword_newUser service password hsound.nodup hmem
      (service.ne_empty hhash)
    rw [hname, hvalid] at hanswer
    refine ⟨id, createUserDto, passwordHash, hname, hhashed, ?_, hcall⟩
    cases hverify : service.verify password passwordHash with
    | error error =>
        rw [hverify] at hanswer
        cases hanswer
    | ok isValid =>
        cases isValid with
        | true => rfl
        | false =>
            rw [hverify] at hanswer
            cases hanswer

end Steps

/-- However registrations are interleaved and their inserts fail, each name is taken
once.  A registration that resolves is the only one of its name, and its password
logs in; one that is told that the name exists is told so because it does; and
whoever gets in could do so before, or gives a password that fits the hash of one
that was registered under that name after its validation. -/
theorem registered_accounts {Error : Type} (service : PasswordService Error)
    (regExp : RegExp) (users : List UserDocument)
    (hnodup : (users.map fun user => user.username).Nodup) (events : List Event)
    (final : State)
    (hrun : run (step service regExp) (State.initial users) events = some final) :
    (final.users.map fun user => user.username).Nodup ∧ users <+: final.users ∧
    (∀ id createUserDto user,
      final.calls id = some ⟨createUserDto, .resolved user⟩ →
        canActivate service final.users .ok createUserDto.username
            createUserDto.password = .ok user ∧
          ∀ other otherDto otherUser,
            final.calls other = some ⟨otherDto, .resolved otherUser⟩ →
              otherDto.username = createUserDto.username → other = id) ∧
    (∀ id createUserDto,
      final.calls id = some ⟨createUserDto, .rejected usernameAlreadyExists⟩ →
        ∃ user ∈ final.users, user.username = createUserDto.username) ∧
    ∀ reply username password user,
      canActivate service final.users reply username password = .ok user →
        canActivate service users .ok username password = .ok user ∨
          ∃ id createUserDto passwordHash, createUserDto.username = username ∧
            Hashed service regExp events id createUserDto passwordHash ∧
            service.verify password passwordHash = .ok true ∧
            (final.calls id = some ⟨createUserDto, .resolved user⟩ ∨
              final.calls id = some ⟨createUserDto, .rejected userCreationError⟩) := by
  have hsound := Sound.of_run hnodup hrun
  refine ⟨hsound.nodup, hsound.grown, ?_, ?_, fun _ _ _ _ => hsound.origin_of_canActivate⟩
  · intro id createUserDto user hcall
    refine ⟨hsound.canActivate_resolved hcall, ?_⟩
    intro other otherDto otherUser hother hname
    exact hsound.winner _ _ _ _ _ _ hother hcall hname
  · intro id createUserDto hcall
    exact hsound.justified _ _ _ hcall rfl

/-! ## Two registrations of one name -/

def namedService : PasswordService Unit where
  hash _ plain := .ok ("$argon2id$" ++ plain)
  verify := LocalPassword.namedHash
  ne_empty := by
    rintro salt plain passwordHash ⟨⟩
    simp
  verify_hash := by
    rintro salt plain passwordHash ⟨⟩
    simp [LocalPassword.namedHash]

def defaultReads (key : String) : Option Value :=
  (Registration.Rule.all.find? fun rule => rule.key = key).map
    Registration.defaultPolicy.value

def raceEvents : List Event :=
  [.create 0 ⟨"alice", "Secret1!", by decide, by decide⟩,
    .create 1 ⟨"alice", "Other22!", by decide, by decide⟩,
    .validate 0 defaultReads, .validate 1 defaultReads, .hash 1 7, .hash 0 8,
    .save 1 "a" .ok, .save 0 "b" .ok]

theorem registered_accounts_race :
    ∃ final, run (step namedService Registration.defaultRegExp) (State.initial [])
        raceEvents = some final ∧
      canActivate namedService final.users .ok "alice" "Other22!" =
        .ok ⟨"a", "alice", true⟩ := by
  have hresolved : (run (step namedService Registration.defaultRegExp)
      (State.initial []) raceEvents).bind (fun final => final.calls 1) =
        some ⟨⟨"alice", "Other22!", by decide, by decide⟩,
          .resolved ⟨"a", "alice", true⟩⟩ := by rfl
  obtain ⟨final, hrun, hcall⟩ := Option.bind_eq_some_iff.mp hresolved
  obtain ⟨-, -, hwinner, -⟩ := registered_accounts namedService
    Registration.defaultRegExp [] List.nodup_nil raceEvents final hrun
  exact ⟨final, hrun, (hwinner 1 _ _ hcall).1⟩

end OceanChat.Accounts
