import OceanChat.Common.AppException
import OceanChat.Core.Checks
import OceanChat.Settings.Codec

/-!
# The registration policy

Eight settings say which user names and passwords are accepted.  A setting
reads as null when the retries of its read are used up: the four checks that
test the type of their setting reject then, the four that test whether it is
truthy accept.
-/

namespace OceanChat.Registration

open Checks
open Settings (Value)
open Text (unit ofAscii)

/-- The checks, in the order in which they run. -/
inductive Rule
  | usernameMinLength
  | usernameMaxLength
  | usernameRegex
  | passwordMinLength
  | passwordRequireDigit
  | passwordRequireLowercase
  | passwordRequireUppercase
  | passwordRequireSpecialChar
  deriving DecidableEq

/-- The setting that the check reads. -/
def Rule.key : Rule → String
  | .usernameMinLength => "Accounts_Username_MinLength"
  | .usernameMaxLength => "Accounts_Username_MaxLength"
  | .usernameRegex => "Accounts_Username_Regex"
  | .passwordMinLength => "Accounts_Password_MinLength"
  | .passwordRequireDigit => "Accounts_Password_RequireDigit"
  | .passwordRequireLowercase => "Accounts_Password_RequireLowercase"
  | .passwordRequireUppercase => "Accounts_Password_RequireUppercase"
  | .passwordRequireSpecialChar => "Accounts_Password_RequireSpecialChar"

def Rule.all : List Rule :=
  [.usernameMinLength, .usernameMaxLength, .usernameRegex, .passwordMinLength,
    .passwordRequireDigit, .passwordRequireLowercase, .passwordRequireUppercase,
    .passwordRequireSpecialChar]

@[simp]
theorem Rule.mem_all (rule : Rule) : rule ∈ Rule.all := by
  cases rule <;> decide

/-! ## The validation -/

/-- `new RegExp`, which throws on a text that is no pattern, and `test`. -/
abbrev RegExp := Text → Option (Text → Bool)

/-- Why the promise rejects; `options` is what the message is filled in with,
`unread` the rejection of a read. -/
inductive Rejection
  | exception (error : AppException) (options : Option (String × Value))
  | syntaxError
  | unread

/-- `typeof value !== 'number' || text.length < value` -/
def isShorter (text : Text) : Value → Bool
  | .json (.number number) => decide ((text.length : ℚ) < number.value)
  | .json (.infinity negative) => !negative
  | _ => true

/-- `typeof value !== 'number' || text.length > value` -/
def isLonger (text : Text) : Value → Bool
  | .json (.number number) => decide (number.value < (text.length : ℚ))
  | .json (.infinity negative) => negative
  | _ => true

def isTruthy : Value → Bool
  | .json .null => false
  | .json (.boolean value) => value
  | .json (.number number) => decide (number.value ≠ 0)
  | .json (.string text) => !text.isEmpty
  | _ => true

/-- `/\d/` -/
def hasDigit (text : Text) : Bool :=
  text.any fun u => unit '0' ≤ u && u ≤ unit '9'

/-- `/[a-z]/` -/
def hasLowercase (text : Text) : Bool :=
  text.any fun u => unit 'a' ≤ u && u ≤ unit 'z'

/-- `/[A-Z]/` -/
def hasUppercase (text : Text) : Bool :=
  text.any fun u => unit 'A' ≤ u && u ≤ unit 'Z'

def specialChars : Text :=
  ofAscii ['!', '@', '#', '$', '%', '^', '&', '*', '(', ')', ',', '.', '?', '"',
    ':', '\x7b', '\x7d', '|', '<', '>']

/-- The class of the characters of `specialChars`. -/
def hasSpecialChar (text : Text) : Bool := text.any fun u => u ∈ specialChars

def badRequest (message : String) (errorCode : ℕ) : Rejection :=
  .exception (domainException message errorCode 400) none

def usernameTooShort (minLength : Value) : Rejection :=
  .exception (domainException "USERNAME_TOO_SHORT" ErrorCodes.usernameTooShort 400)
    (some ("minLength", minLength))

def usernameTooLong (maxLength : Value) : Rejection :=
  .exception (domainException "USERNAME_TOO_LONG" ErrorCodes.usernameTooLong 400)
    (some ("maxLength", maxLength))

def regexNotConfigured : Rejection :=
  .exception (domainException
    "USERNAME_VALIDATION_REGEX_NOT_CONFIGURED_SUCCESSFULLY"
    ErrorCodes.unexpectedError 500) none

/-- The pattern of user names, if the setting is a string and a pattern. -/
def compile (regExp : RegExp) : Value → Except Rejection (Text → Bool)
  | .json (.string usernameRegexString) =>
      match regExp usernameRegexString with
      | some usernameRegex => .ok usernameRegex
      | none => .error .syntaxError
  | _ => .error regexNotConfigured

def validateCreateUserDto (regExp : RegExp)
    (getSettingValue : String → Except Rejection Value)
    (username password : Text) : Except Rejection Unit := do
  let usernameMinLength ← getSettingValue "Accounts_Username_MinLength"
  let usernameMaxLength ← getSettingValue "Accounts_Username_MaxLength"
  let usernameRegexString ← getSettingValue "Accounts_Username_Regex"
  let passwordMinLength ← getSettingValue "Accounts_Password_MinLength"
  let passwordRequireDigit ← getSettingValue "Accounts_Password_RequireDigit"
  let passwordRequireLowercase ←
    getSettingValue "Accounts_Password_RequireLowercase"
  let passwordRequireUppercase ←
    getSettingValue "Accounts_Password_RequireUppercase"
  let passwordRequireSpecialChar ←
    getSettingValue "Accounts_Password_RequireSpecialChar"
  reject (isShorter username usernameMinLength)
    (usernameTooShort usernameMinLength)
  reject (isLonger username usernameMaxLength)
    (usernameTooLong usernameMaxLength)
  let usernameRegex ← compile regExp usernameRegexString
  reject (!usernameRegex username)
    (badRequest "USERNAME_INVALID_CHARACTERS" ErrorCodes.usernameInvalidCharacters)
  reject (isShorter password passwordMinLength)
    (badRequest "PASSWORD_TOO_SHORT" ErrorCodes.passwordTooShort)
  reject (isTruthy passwordRequireDigit && !hasDigit password)
    (badRequest "PASSWORD_NO_DIGIT" ErrorCodes.passwordNoDigit)
  reject (isTruthy passwordRequireLowercase && !hasLowercase password)
    (badRequest "PASSWORD_NO_LOWERCASE" ErrorCodes.passwordNoLowercase)
  reject (isTruthy passwordRequireUppercase && !hasUppercase password)
    (badRequest "PASSWORD_NO_UPPERCASE" ErrorCodes.passwordNoUppercase)
  reject (isTruthy passwordRequireSpecialChar && !hasSpecialChar password)
    (badRequest "PASSWORD_NO_SPECIAL_CHAR" ErrorCodes.passwordNoSpecialChar)

/-! ## The rules of a policy -/

/-- What the administrator has configured. -/
structure Policy where
  usernameMinLength : Double
  usernameMaxLength : Double
  usernameRegex : Text
  passwordMinLength : Double
  passwordRequireDigit : Bool
  passwordRequireLowercase : Bool
  passwordRequireUppercase : Bool
  passwordRequireSpecialChar : Bool

def Policy.value (policy : Policy) : Rule → Value
  | .usernameMinLength => .json (.number policy.usernameMinLength)
  | .usernameMaxLength => .json (.number policy.usernameMaxLength)
  | .usernameRegex => .json (.string policy.usernameRegex)
  | .passwordMinLength => .json (.number policy.passwordMinLength)
  | .passwordRequireDigit => .json (.boolean policy.passwordRequireDigit)
  | .passwordRequireLowercase => .json (.boolean policy.passwordRequireLowercase)
  | .passwordRequireUppercase => .json (.boolean policy.passwordRequireUppercase)
  | .passwordRequireSpecialChar =>
      .json (.boolean policy.passwordRequireSpecialChar)

/-- The user name and the password satisfy a rule of the policy. -/
def Policy.Meets (policy : Policy) (regExp : RegExp) (username password : Text) :
    Rule → Prop
  | .usernameMinLength => policy.usernameMinLength.value ≤ username.length
  | .usernameMaxLength => username.length ≤ policy.usernameMaxLength.value
  | .usernameRegex => ∃ usernameRegex,
      regExp policy.usernameRegex = some usernameRegex ∧
        usernameRegex username = true
  | .passwordMinLength => policy.passwordMinLength.value ≤ password.length
  | .passwordRequireDigit =>
      policy.passwordRequireDigit = true → hasDigit password = true
  | .passwordRequireLowercase =>
      policy.passwordRequireLowercase = true → hasLowercase password = true
  | .passwordRequireUppercase =>
      policy.passwordRequireUppercase = true → hasUppercase password = true
  | .passwordRequireSpecialChar =>
      policy.passwordRequireSpecialChar = true → hasSpecialChar password = true

/-- The read of the setting has used its retries up. -/
def Lost (getSettingValue : String → Except Rejection Value) (rule : Rule) : Prop :=
  getSettingValue rule.key = .ok (.json .null)

/-- Each read returns what is configured, or null. -/
def Reads (policy : Policy) (getSettingValue : String → Except Rejection Value) :
    Prop :=
  ∀ rule : Rule, Lost getSettingValue rule ∨
    getSettingValue rule.key = .ok (policy.value rule)

/-- The checks that test the type of their setting. -/
def Rule.TestsType : Rule → Prop
  | .usernameMinLength | .usernameMaxLength | .usernameRegex
  | .passwordMinLength => True
  | _ => False

/-! ## One check for each rule -/

/-- The check of one rule on what has been read. -/
def check (regExp : RegExp) (values : Rule → Value) (username password : Text) :
    Rule → Except Rejection Unit
  | .usernameMinLength =>
      reject (isShorter username (values .usernameMinLength))
        (usernameTooShort (values .usernameMinLength))
  | .usernameMaxLength =>
      reject (isLonger username (values .usernameMaxLength))
        (usernameTooLong (values .usernameMaxLength))
  | .usernameRegex => do
      let usernameRegex ← compile regExp (values .usernameRegex)
      reject (!usernameRegex username)
        (badRequest "USERNAME_INVALID_CHARACTERS"
          ErrorCodes.usernameInvalidCharacters)
  | .passwordMinLength =>
      reject (isShorter password (values .passwordMinLength))
        (badRequest "PASSWORD_TOO_SHORT" ErrorCodes.passwordTooShort)
  | .passwordRequireDigit =>
      reject (isTruthy (values .passwordRequireDigit) && !hasDigit password)
        (badRequest "PASSWORD_NO_DIGIT" ErrorCodes.passwordNoDigit)
  | .passwordRequireLowercase =>
      reject (isTruthy (values .passwordRequireLowercase) &&
          !hasLowercase password)
        (badRequest "PASSWORD_NO_LOWERCASE" ErrorCodes.passwordNoLowercase)
  | .passwordRequireUppercase =>
      reject (isTruthy (values .passwordRequireUppercase) &&
          !hasUppercase password)
        (badRequest "PASSWORD_NO_UPPERCASE" ErrorCodes.passwordNoUppercase)
  | .passwordRequireSpecialChar =>
      reject (isTruthy (values .passwordRequireSpecialChar) &&
          !hasSpecialChar password)
        (badRequest "PASSWORD_NO_SPECIAL_CHAR" ErrorCodes.passwordNoSpecialChar)

section Checks

variable {regExp : RegExp} {getSettingValue : String → Except Rejection Value}
variable {values : Rule → Value} {policy : Policy} {username password : Text}

/-- Once all settings are read, the validation is the sequence of the checks. -/
theorem validateCreateUserDto_eq_forM
    (hvalues : ∀ rule : Rule, getSettingValue rule.key = .ok (values rule)) :
    validateCreateUserDto regExp getSettingValue username password =
      Rule.all.forM (check regExp values username password) := by
  have husernameMinLength := hvalues .usernameMinLength
  have husernameMaxLength := hvalues .usernameMaxLength
  have husernameRegex := hvalues .usernameRegex
  have hpasswordMinLength := hvalues .passwordMinLength
  have hdigit := hvalues .passwordRequireDigit
  have hlowercase := hvalues .passwordRequireLowercase
  have huppercase := hvalues .passwordRequireUppercase
  have hspecialChar := hvalues .passwordRequireSpecialChar
  simp only [Rule.key] at *
  simp [validateCreateUserDto, husernameMinLength, husernameMaxLength,
    husernameRegex, hpasswordMinLength, hdigit, hlowercase, huppercase,
    hspecialChar, Rule.all, check]
  rfl

/-- What is thrown is what the first failing check throws. -/
theorem validateCreateUserDto_eq_error {thrown : Rejection}
    (hvalues : ∀ rule : Rule, getSettingValue rule.key = .ok (values rule)) :
    validateCreateUserDto regExp getSettingValue username password =
        .error thrown ↔
      ∃ before rule after, Rule.all = before ++ rule :: after ∧
        (∀ passed ∈ before,
          check regExp values username password passed = .ok ()) ∧
        check regExp values username password rule = .error thrown := by
  rw [validateCreateUserDto_eq_forM hvalues, forM_eq_error]

/-- A setting that is lost rejects if the check tests its type. -/
theorem check_eq_ok_of_null {rule : Rule} (hnull : values rule = .json .null) :
    check regExp values username password rule = .ok () ↔ ¬ rule.TestsType := by
  cases rule <;>
    simp [check, Rule.TestsType, hnull, isShorter, isLonger, isTruthy, compile,
      bind_eq_ok]

/-- A setting that is read enforces its rule. -/
theorem check_eq_ok_of_value {rule : Rule}
    (hvalue : values rule = policy.value rule) :
    check regExp values username password rule = .ok () ↔
      policy.Meets regExp username password rule := by
  cases rule with
  | usernameRegex =>
      simp only [check, hvalue, Policy.value, compile, Policy.Meets, bind_eq_ok,
        reject_eq_ok]
      cases regExp policy.usernameRegex <;> simp
  | usernameMinLength | usernameMaxLength | passwordMinLength =>
      simp [check, hvalue, Policy.value, Policy.Meets, isShorter, isLonger]
  | passwordRequireDigit | passwordRequireLowercase | passwordRequireUppercase
  | passwordRequireSpecialChar =>
      simp [check, hvalue, Policy.value, Policy.Meets, isTruthy]

theorem Policy.value_ne_null (policy : Policy) (rule : Rule) :
    policy.value rule ≠ .json .null := by
  cases rule <;> simp [Policy.value]

/-- The promise resolves if no setting with a type test is lost, and the rules
of all other settings that are not lost are met. -/
theorem validateCreateUserDto_eq_ok (hreads : Reads policy getSettingValue) :
    validateCreateUserDto regExp getSettingValue username password = .ok () ↔
      ∀ rule : Rule,
        (Lost getSettingValue rule → ¬ rule.TestsType) ∧
          (¬ Lost getSettingValue rule →
            policy.Meets regExp username password rule) := by
  have hread : ∀ rule : Rule, ∃ value, getSettingValue rule.key = .ok value ∧
      (value = .json .null ∨ value = policy.value rule) := by
    intro rule
    rcases hreads rule with hlost | hvalue
    · exact ⟨_, hlost, .inl rfl⟩
    · exact ⟨_, hvalue, .inr rfl⟩
  choose values hvalues hcases using hread
  rw [validateCreateUserDto_eq_forM hvalues, forM_eq_ok]
  simp only [Rule.mem_all, forall_true_left]
  refine forall_congr' fun rule => ?_
  rcases hcases rule with hnull | hvalue
  · have hlost : Lost getSettingValue rule := by
      rw [Lost, hvalues, hnull]
    rw [check_eq_ok_of_null hnull]
    simp [hlost]
  · have hfound : ¬ Lost getSettingValue rule := by
      rw [Lost, hvalues, hvalue]
      simp [policy.value_ne_null rule]
    rw [check_eq_ok_of_value hvalue]
    simp [hfound]

/-- Why the policy is enforced although reads are lost: the rules of lost
settings without a type test are met, or another check rejects. -/
def Enforced (policy : Policy) (regExp : RegExp)
    (getSettingValue : String → Except Rejection Value)
    (username password : Text) : Prop :=
  (∀ rule : Rule, ¬ rule.TestsType → Lost getSettingValue rule →
    policy.Meets regExp username password rule) ∨
  ∃ rule : Rule, (rule.TestsType ∧ Lost getSettingValue rule) ∨
    (¬ Lost getSettingValue rule ∧
      ¬ policy.Meets regExp username password rule)

/-- The policy fails closed exactly where no lost requirement is broken by a
password that every other check accepts. -/
theorem failsClosed_iff_enforced (policy : Policy) (regExp : RegExp)
    (getSettingValue : String → Except Rejection Value)
    (username password : Text) (hreads : Reads policy getSettingValue) :
    (validateCreateUserDto regExp getSettingValue username password = .ok () →
      ∀ rule, policy.Meets regExp username password rule) ↔
      Enforced policy regExp getSettingValue username password := by
  rw [validateCreateUserDto_eq_ok hreads]
  constructor
  · intro hcloses
    by_cases hresolves : ∀ rule : Rule,
        (Lost getSettingValue rule → ¬ rule.TestsType) ∧
          (¬ Lost getSettingValue rule →
            policy.Meets regExp username password rule)
    · exact .inl fun rule _ _ => hcloses hresolves rule
    · push Not at hresolves
      obtain ⟨rule, hrejects⟩ := hresolves
      by_cases hlost : Lost getSettingValue rule
      · by_cases htests : rule.TestsType
        · exact .inr ⟨rule, .inl ⟨htests, hlost⟩⟩
        · exact absurd hlost (hrejects fun _ => htests).1
      · exact .inr ⟨rule, .inr (hrejects fun h => absurd h hlost)⟩
  · rintro (hmet | ⟨rule, ⟨htests, hlost⟩ | ⟨hfound, hbroken⟩⟩) hresolves
    · intro rule
      by_cases hlost : Lost getSettingValue rule
      · exact hmet rule ((hresolves rule).1 hlost) hlost
      · exact (hresolves rule).2 hlost
    · exact absurd htests ((hresolves rule).1 hlost)
    · exact absurd ((hresolves rule).2 hfound) hbroken

end Checks

/-! ## Reading the settings of a database -/

theorem Rule.key_injective : Function.Injective Rule.key := by
  intro left right hkey
  cases left <;> cases right <;> first | rfl | exact absurd hkey (by decide)

def Policy.setting (policy : Policy) (rule : Rule) : Settings.SettingValue where
  value := policy.value rule
  isSetting := by
    cases rule <;> exact ⟨nofun, trivial⟩

/-- A database that holds the policy. -/
def Policy.database (policy : Policy) : Settings.Database :=
  Rule.all.foldr
    (fun rule database => database.insert rule.key (policy.setting rule)) ∅

theorem Policy.lookup_database (policy : Policy) (rule : Rule) :
    policy.database.lookup rule.key = some (policy.setting rule) := by
  have hlookup : ∀ rules : List Rule, rule ∈ rules →
      (rules.foldr (fun rule database =>
        database.insert rule.key (policy.setting rule))
          (∅ : Settings.Database)).lookup rule.key =
        some (policy.setting rule) := by
    intro rules hmem
    induction rules with
    | nil => cases hmem
    | cons first rest ih =>
        rw [List.foldr_cons]
        by_cases hsame : rule = first
        · subst hsame
          exact AList.lookup_insert _
        · rw [AList.lookup_insert_ne fun hkey => hsame (Rule.key_injective hkey)]
          exact ih ((List.mem_cons.mp hmem).resolve_left hsame)
  exact hlookup Rule.all rule.mem_all

/-- The reads of a validation, each with the attempts that are left to it while
the cache is empty. -/
def Policy.read (policy : Policy) (attempts : String → ℕ) (key : String) :
    Except Rejection Value :=
  .ok (Settings.getSettingValue policy.database key (attempts key)
    fun _ => none).1

theorem Policy.read_of_succ (policy : Policy)
    (hpattern : Json.parse policy.usernameRegex = none) {attempts : String → ℕ}
    {rule : Rule} {left : ℕ} (hleft : attempts rule.key = left + 1) :
    policy.read attempts rule.key = .ok (policy.value rule) := by
  have hreads : Settings.readResult (policy.value rule) = policy.value rule := by
    refine (Settings.readResult_eq_iff _).mpr fun text htext => ?_
    cases rule <;> simp only [Policy.value, Value.json.injEq, reduceCtorEq,
      Json.string.injEq] at htext
    exact htext ▸ hpattern
  rw [Policy.read, hleft,
    Settings.getSettingValue_of_miss left rfl (policy.lookup_database rule)]
  exact congrArg Except.ok hreads

/-- A read without attempts is lost, any other returns what is configured. -/
theorem Policy.reads_read (policy : Policy)
    (hpattern : Json.parse policy.usernameRegex = none) (attempts : String → ℕ) :
    Reads policy (policy.read attempts) := by
  intro rule
  cases hattempts : attempts rule.key with
  | zero =>
      left
      rw [Lost, Policy.read, hattempts]
      rfl
  | succ left => exact .inr (policy.read_of_succ hpattern hattempts)

/-- The policy of the default settings. -/
def defaultPolicy : Policy where
  usernameMinLength := ⟨3, by decide +kernel⟩
  usernameMaxLength := ⟨20, by decide +kernel⟩
  usernameRegex := ofAscii ['^', '[', 'a', '-', 'z', 'A', '-', 'Z', '0', '-', '9',
    '_', '.', '-', ']', '+', '$']
  passwordMinLength := ⟨6, by decide +kernel⟩
  passwordRequireDigit := true
  passwordRequireLowercase := true
  passwordRequireUppercase := true
  passwordRequireSpecialChar := true

theorem parse_defaultPolicy : Json.parse defaultPolicy.usernameRegex = none := by
  decide +kernel

/-- The default pattern of user names. -/
def defaultRegExp : RegExp := fun pattern =>
  if pattern = defaultPolicy.usernameRegex then
    some fun text => !text.isEmpty && text.all fun u =>
      (unit 'a' ≤ u && u ≤ unit 'z') || (unit 'A' ≤ u && u ≤ unit 'Z') ||
        (unit '0' ≤ u && u ≤ unit '9') || u = unit '_' || u = unit '.' ||
        u = unit '-'
  else none

def alice : Text := ofAscii ['a', 'l', 'i', 'c', 'e']

/-- A password without a digit. -/
def secret : Text := ofAscii ['S', 'e', 'c', 'r', 'e', 't', '!']

/-- The attempts of the read of one setting are used up. -/
def attemptsWithout (rule : Rule) (key : String) : ℕ :=
  if key = rule.key then 0 else Settings.retries

/-- While the read of a requirement is lost, a password that breaks it is
accepted. -/
theorem not_failsClosed_of_lostDigit :
    Reads defaultPolicy
      (defaultPolicy.read (attemptsWithout .passwordRequireDigit)) ∧
    validateCreateUserDto defaultRegExp
      (defaultPolicy.read (attemptsWithout .passwordRequireDigit)) alice secret =
        .ok () ∧
    ¬ ∀ rule, defaultPolicy.Meets defaultRegExp alice secret rule := by
  have hreads := defaultPolicy.reads_read parse_defaultPolicy
    (attemptsWithout .passwordRequireDigit)
  have hfound : ∀ rule ≠ Rule.passwordRequireDigit, ¬ Lost (defaultPolicy.read
      (attemptsWithout .passwordRequireDigit)) rule := by
    intro rule hne
    have hattempts : attemptsWithout .passwordRequireDigit rule.key = 2 + 1 :=
      if_neg fun hkey => hne (Rule.key_injective hkey)
    rw [Lost, defaultPolicy.read_of_succ parse_defaultPolicy hattempts]
    simp [defaultPolicy.value_ne_null rule]
  refine ⟨hreads, (validateCreateUserDto_eq_ok hreads).mpr fun rule => ?_,
    fun hmeets => ?_⟩
  · by_cases hdigit : rule = .passwordRequireDigit
    · subst hdigit
      exact ⟨fun _ => id, fun hread => absurd rfl hread⟩
    · refine ⟨fun hlost => absurd hlost (hfound rule hdigit), fun _ => ?_⟩
      cases rule with
      | usernameMinLength | usernameMaxLength | passwordMinLength =>
          unfold Policy.Meets
          decide +kernel
      | usernameRegex => exact ⟨_, if_pos rfl, by decide⟩
      | passwordRequireDigit => exact absurd rfl hdigit
      | passwordRequireLowercase | passwordRequireUppercase
      | passwordRequireSpecialChar => exact fun _ => by decide
  · exact absurd (hmeets .passwordRequireDigit rfl) (by decide)

theorem failsClosed_iff_enforced_of_lostPattern :
    (validateCreateUserDto defaultRegExp
      (defaultPolicy.read (attemptsWithout .usernameRegex)) alice secret =
        .ok () →
      ∀ rule, defaultPolicy.Meets defaultRegExp alice secret rule) ↔
      Enforced defaultPolicy defaultRegExp
        (defaultPolicy.read (attemptsWithout .usernameRegex)) alice secret :=
  failsClosed_iff_enforced defaultPolicy defaultRegExp _ alice secret
    (defaultPolicy.reads_read parse_defaultPolicy _)

end OceanChat.Registration
