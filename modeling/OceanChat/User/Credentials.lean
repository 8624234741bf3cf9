import Mathlib.Data.List.Basic

/-!
# Looking a user up

The user service finds users by their identifier, or by their name together
with a provider.  The auth service takes a user for logged in when the password
fits the hash of the first provider.
-/

namespace OceanChat.Credentials

inductive AuthProvider
  | «local»
  | google
  | wechat
  | phone
  | email
  deriving DecidableEq

structure AuthProviders where
  provider : AuthProvider
  providerId : String
  passwordHash : Option String
  deriving DecidableEq

/-- `passwordHash`, if it is truthy. -/
def AuthProviders.hash (provider : AuthProviders) : Option String :=
  provider.passwordHash.filter (· ≠ "")

/-- What the user service answers: a document without its providers. -/
structure User where
  id : String
  username : String
  active : Bool
  deriving DecidableEq

structure UserDocument extends User where
  providers : List AuthProviders
  deriving DecidableEq

def findOneById (users : List UserDocument) (id : String) : Option User :=
  (users.find? fun user => user.id = id).map UserDocument.toUser

def findOneByUsernameAndProvider (users : List UserDocument)
    (username : String) (provider : AuthProvider) : Option UserDocument := do
  let user ← users.find? fun user => user.username = username ∧
    user.providers.any fun entry => entry.provider = provider
  let localProvider ← user.providers.find? fun entry =>
    entry.provider = provider
  if localProvider.hash.isSome then some user else none

/-- `verify` is that of argon2; the guard rejects a login alike when it throws. -/
def validatePassword (verify : String → String → Bool)
    (users : List UserDocument) (username password : String) : Option User := do
  let userWithPassword ←
    findOneByUsernameAndProvider users username .local
  let provider ← userWithPassword.providers.head?
  let passwordHash ← provider.hash
  if verify password passwordHash then some userWithPassword.toUser else none

/-- `LocalStrategy.validate`. -/
def validate (verify : String → String → Bool) (users : List UserDocument)
    (username password : String) : Option User :=
  validatePassword verify users username password

/-! ## The flag of a disabled user -/

/-- The flags are changed, everything else stays. -/
def UserDocument.setActive (active : String → Bool) (user : UserDocument) :
    UserDocument :=
  { user with active := active user.id }

def User.setActive (active : String → Bool) (user : User) : User :=
  { user with active := active user.id }

theorem find?_setActive (active : String → Bool) (found : UserDocument → Bool)
    (hfound : ∀ user, found (user.setActive active) = found user)
    (users : List UserDocument) :
    (users.map (UserDocument.setActive active)).find? found =
      (users.find? found).map (UserDocument.setActive active) := by
  rw [List.find?_map]
  congr 2
  funext user
  exact hfound user

/-- The flag decides nothing: users are found as if it was not there. -/
theorem findOneById_setActive (active : String → Bool)
    (users : List UserDocument) (id : String) :
    findOneById (users.map (UserDocument.setActive active)) id =
      (findOneById users id).map (User.setActive active) := by
  rw [findOneById, find?_setActive active _ fun _ => rfl, findOneById,
    Option.map_map, Option.map_map]
  rfl

theorem findOneByUsernameAndProvider_setActive (active : String → Bool)
    (users : List UserDocument) (username : String) (provider : AuthProvider) :
    findOneByUsernameAndProvider (users.map (UserDocument.setActive active))
        username provider =
      (findOneByUsernameAndProvider users username provider).map
        (UserDocument.setActive active) := by
  rw [findOneByUsernameAndProvider, find?_setActive active _ fun _ => rfl,
    findOneByUsernameAndProvider]
  cases users.find? _ with
  | none => rfl
  | some user =>
      simp only [Option.map_some, Option.bind_eq_bind, Option.bind_some,
        UserDocument.setActive]
      cases user.providers.find? _ with
      | none => rfl
      | some localProvider =>
          cases hhash : localProvider.hash <;>
            simp [hhash, UserDocument.setActive]

theorem validate_setActive (verify : String → String → Bool)
    (active : String → Bool) (users : List UserDocument)
    (username password : String) :
    validate verify (users.map (UserDocument.setActive active)) username
        password =
      (validate verify users username password).map (User.setActive active) := by
  rw [validate, validatePassword, findOneByUsernameAndProvider_setActive,
    validate, validatePassword]
  cases findOneByUsernameAndProvider users username .local with
  | none => rfl
  | some user =>
      simp only [Option.map_some, Option.bind_eq_bind, Option.bind_some,
        UserDocument.setActive]
      cases user.providers.head? with
      | none => rfl
      | some provider =>
          cases hhash : provider.hash with
          | none => simp [hhash]
          | some passwordHash =>
              by_cases hverify : verify password passwordHash <;>
                simp [hhash, hverify, User.setActive]

end OceanChat.Credentials
