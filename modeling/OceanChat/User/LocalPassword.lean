import OceanChat.User.Credentials

/-!
# Which entry a password is checked against

The repository looks for a user with a local entry and makes sure that the
first local entry has a hash; the service then verifies the password against
the entry at the head of the list, whichever provider it belongs to.
-/

namespace OceanChat.LocalPassword

open Credentials

variable {Error : Type}

/-- `verify` is that of argon2, which rejects a text that is no hash. -/
def validatePassword (verify : String → String → Except Error Bool)
    (users : List UserDocument) (username password : String) :
    Except Error (Option User) :=
  match findOneByUsernameAndProvider users username .local with
  | none => .ok none
  | some userWithPassword =>
      match userWithPassword.providers.head?.bind AuthProviders.hash with
      | none => .ok none
      | some passwordHash => do
          let isValid ← verify password passwordHash
          return if isValid then some userWithPassword.toUser else none

/-- The first local entry of the list. -/
def localProvider (user : UserDocument) : Option AuthProviders :=
  user.providers.find? fun entry => entry.provider = .local

/-- What the verification against an entry answers; an entry without a hash
accepts nothing. -/
def answer (verify : String → String → Except Error Bool) (password : String)
    (entry : Option AuthProviders) : Except Error Bool :=
  match entry.bind AuthProviders.hash with
  | none => .ok false
  | some passwordHash => verify password passwordHash

/-- The entry has a hash that the password fits. -/
def accepts (verify : String → String → Except Error Bool) (password : String)
    (entry : Option AuthProviders) : Bool :=
  match answer verify password entry with
  | .ok isValid => isValid
  | .error _ => false

/-- The user is returned if the first local entry accepts the password. -/
def ChecksLocal (verify : String → String → Except Error Bool)
    (users : List UserDocument) (user : UserDocument) (password : String) : Prop :=
  validatePassword verify users user.username password =
    .ok (if accepts verify password (localProvider user) then some user.toUser
      else none)

/-- The head of the list answers what the first local entry answers, and does
not reject. -/
def HeadAgrees (verify : String → String → Except Error Bool)
    (user : UserDocument) (password : String) : Prop :=
  answer verify password user.providers.head? =
    .ok (accepts verify password (localProvider user))

/-! ## The lookup -/

section Lookup

variable {users : List UserDocument} {user : UserDocument}

/-- With distinct names a lookup of a name finds its user or nothing. -/
theorem find?_of_nodup (found : UserDocument → Bool)
    (hnodup : (users.map fun one => one.username).Nodup) (hmem : user ∈ users) :
    (users.find? fun one => one.username = user.username ∧ found one) =
      if found user then some user else none := by
  induction users with
  | nil => cases hmem
  | cons first rest ih =>
      rw [List.map_cons, List.nodup_cons] at hnodup
      rcases List.mem_cons.mp hmem with rfl | hrest
      · by_cases hfound : found user
        · simp [hfound]
        · have hnone : ∀ one ∈ rest, one.username ≠ user.username :=
            fun one hone hname => hnodup.1 (hname ▸ List.mem_map_of_mem hone)
          simpa [hfound] using fun one hone hname => absurd hname (hnone one hone)
      · have hname : first.username ≠ user.username :=
          fun hsame => hnodup.1 (hsame ▸ List.mem_map_of_mem hrest)
        rw [List.find?_cons_of_neg (by simp [hname]), ih hnodup.2 hrest]

/-- A user is found if the first local entry has a hash. -/
theorem findOneByUsernameAndProvider_of_nodup
    (hnodup : (users.map fun one => one.username).Nodup) (hmem : user ∈ users) :
    findOneByUsernameAndProvider users user.username .local =
      if ((localProvider user).bind AuthProviders.hash).isSome then some user
      else none := by
  rw [findOneByUsernameAndProvider, find?_of_nodup _ hnodup hmem]
  unfold localProvider
  cases hfind : user.providers.find? fun entry => entry.provider = .local with
  | none =>
      have hany : (user.providers.any fun entry =>
          decide (entry.provider = .local)) = false := by
        simpa using hfind
      simp [hany]
  | some entry =>
      have hany : (user.providers.any fun entry =>
          decide (entry.provider = .local)) = true := by
        have hlocal : decide (entry.provider = .local) = true := by
          simpa using List.find?_some hfind
        exact List.any_eq_true.mpr
          ⟨entry, List.mem_of_find?_eq_some hfind, hlocal⟩
      simp [hany, hfind]

end Lookup

/-! ## The verification -/

section Verification

variable {verify : String → String → Except Error Bool}
variable {users : List UserDocument} {user : UserDocument} {password : String}

/-- A rejection is taken for null by the guard of the login. -/
theorem credentials_validatePassword (verify : String → String → Except Error Bool)
    (users : List UserDocument) (username password : String) :
    Credentials.validatePassword
        (fun plain hash => (verify plain hash).toOption.getD false) users username
        password =
      (validatePassword verify users username password).toOption.join := by
  unfold Credentials.validatePassword validatePassword
  cases findOneByUsernameAndProvider users username .local with
  | none => rfl
  | some found =>
      cases hhead : found.providers.head? with
      | none => simp [hhead, Except.toOption]
      | some entry =>
          cases hhash : entry.hash with
          | none => simp [hhead, hhash, Except.toOption]
          | some passwordHash =>
              cases hverify : verify password passwordHash with
              | error error =>
                  simp [hhead, hhash, hverify, Except.toOption, bind, Except.bind]
              | ok isValid =>
                  cases isValid <;>
                    simp [hhead, hhash, hverify, Except.toOption, bind,
                      Except.bind, pure, Except.pure]

theorem accepts_of_no_hash {entry : Option AuthProviders}
    (hnone : entry.bind AuthProviders.hash = none) :
    accepts verify password entry = false := by
  simp [accepts, answer, hnone]

/-- A user whose local entry has a hash gets the answer of the head. -/
theorem validatePassword_eq_answer
    (hnodup : (users.map fun one => one.username).Nodup) (hmem : user ∈ users)
    (hhash : ((localProvider user).bind AuthProviders.hash).isSome) :
    validatePassword verify users user.username password =
      (answer verify password user.providers.head?).map fun isValid =>
        if isValid then some user.toUser else none := by
  rw [validatePassword, findOneByUsernameAndProvider_of_nodup hnodup hmem,
    if_pos hhash]
  unfold answer
  cases hhead : user.providers.head?.bind AuthProviders.hash with
  | none => simp [hhead, Except.map]
  | some passwordHash =>
      cases hverify : verify password passwordHash with
      | error error => simp [hhead, hverify, bind, Except.bind, Except.map]
      | ok isValid =>
          simp [hhead, hverify, bind, Except.bind, pure, Except.pure, Except.map]

/-- The password is checked against the local entry exactly where the local
entry has no hash or the head of the list agrees with it. -/
theorem checksLocal_iff_headAgrees {Error : Type}
    (verify : String → String → Except Error Bool) (users : List UserDocument)
    (hnodup : (users.map fun one => one.username).Nodup) (user : UserDocument)
    (hmem : user ∈ users) (password : String) :
    ChecksLocal verify users user password ↔
      (localProvider user).bind AuthProviders.hash = none ∨
        HeadAgrees verify user password := by
  unfold ChecksLocal HeadAgrees
  cases hhash : (localProvider user).bind AuthProviders.hash with
  | none =>
      have hnull : validatePassword verify users user.username password =
          .ok none := by
        rw [validatePassword, findOneByUsernameAndProvider_of_nodup hnodup hmem,
          hhash]
        rfl
      simp [hnull, accepts_of_no_hash hhash]
  | some passwordHash =>
      rw [validatePassword_eq_answer hnodup hmem (by rw [hhash]; rfl)]
      cases answer verify password user.providers.head? with
      | error error => simp [Except.map]
      | ok isValid =>
          cases isValid <;>
            cases accepts verify password (localProvider user) <;>
              simp [Except.map]

end Verification

/-- Hashes that name their password. -/
def namedHash (plain hash : String) : Except Unit Bool :=
  .ok (hash = "$argon2id$" ++ plain)

/-- A user with an entry for electronic mail before the local one. -/
def twoProviders : UserDocument where
  id := "user-1"
  username := "alice"
  active := true
  providers := [⟨.email, "alice@mail", some "$argon2id$mail"⟩,
    ⟨.local, "alice", some "$argon2id$secret"⟩]

/-- The local password is refused, and the password of the other entry
accepted. -/
theorem not_checksLocal_twoProviders :
    validatePassword namedHash [twoProviders] "alice" "secret" = .ok none ∧
    validatePassword namedHash [twoProviders] "alice" "mail" =
      .ok (some twoProviders.toUser) ∧
    ¬ ChecksLocal namedHash [twoProviders] twoProviders "secret" ∧
    ¬ ChecksLocal namedHash [twoProviders] twoProviders "mail" := by
  have hrefused : validatePassword namedHash [twoProviders] "alice" "secret" =
      .ok none := by rfl
  have haccepted : validatePassword namedHash [twoProviders] "alice" "mail" =
      .ok (some twoProviders.toUser) := by rfl
  have hsecret : accepts namedHash "secret" (localProvider twoProviders) = true := by
    decide
  have hmail : accepts namedHash "mail" (localProvider twoProviders) = false := by
    decide
  refine ⟨hrefused, haccepted, fun hchecks => ?_, fun hchecks => ?_⟩
  · rw [ChecksLocal, hsecret] at hchecks
    cases hrefused.symm.trans hchecks
  · rw [ChecksLocal, hmail] at hchecks
    cases haccepted.symm.trans hchecks

/-- A user with an entry without a hash behind the local one. -/
def localFirst : UserDocument :=
  { twoProviders with
    providers := [⟨.local, "alice", some "$argon2id$secret"⟩,
      ⟨.google, "alice@mail", none⟩] }

theorem checksLocal_iff_headAgrees_localFirst :
    ChecksLocal namedHash [localFirst] localFirst "secret" ↔
      (localProvider localFirst).bind AuthProviders.hash = none ∨
        HeadAgrees namedHash localFirst "secret" :=
  checksLocal_iff_headAgrees namedHash [localFirst] (by decide) localFirst
    (by decide) "secret"

end OceanChat.LocalPassword
