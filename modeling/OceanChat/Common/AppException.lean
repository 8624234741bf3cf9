import OceanChat.Core.TtlStore

/-!
# Exceptions and command replies

The application exceptions carry the translation key of their message, a
business error code and a status code.  Every awaited command is answered in
one of three ways: it succeeds, it fails without effect, or it takes effect
although its caller sees an error.
-/

namespace OceanChat

inductive ExceptionType
  | domain
  | infrastructure
  deriving DecidableEq

structure AppException where
  message : String
  errorCode : ℕ
  statusCode : ℕ
  exceptionType : ExceptionType
  deriving DecidableEq

namespace ErrorCodes

def usernameAlreadyExists : ℕ := 10001
def usernameTooShort : ℕ := 10002
def usernameTooLong : ℕ := 10003
def usernameInvalidCharacters : ℕ := 10004
def passwordTooShort : ℕ := 10010
def passwordNoDigit : ℕ := 10011
def passwordNoLowercase : ℕ := 10012
def passwordNoUppercase : ℕ := 10013
def passwordNoSpecialChar : ℕ := 10014
def creationError : ℕ := 10022
def unauthorized : ℕ := 10030
def refreshTokenReusedOrRevoked : ℕ := 10031
def tokenRefreshError : ℕ := 10032
def idempotencyConflict : ℕ := 10050
def failedToFetchScopedRoles : ℕ := 20001
def tokenExpired : ℕ := 20002
def invalidSequenceKey : ℕ := 40000
def serviceError : ℕ := 50300
def serviceUnavailable : ℕ := 50301
def unexpectedError : ℕ := 99999

end ErrorCodes

def domainException (message : String) (errorCode statusCode : ℕ) :
    AppException :=
  ⟨message, errorCode, statusCode, .domain⟩

def infrastructureException (message : String) (errorCode statusCode : ℕ) :
    AppException :=
  ⟨message, errorCode, statusCode, .infrastructure⟩

/-- How an awaited command ends for its caller; `lost` means that it took
effect although the caller sees an error. -/
inductive Reply
  | ok
  | failed
  | lost
  deriving DecidableEq

/-- A JWT payload; `exp` is the expiry time in seconds. -/
structure JwtPayload where
  sub : String
  username : String
  jti : String
  deviceId : String
  exp : ℤ
  deriving DecidableEq

/-- Whether the command took effect. -/
def Reply.took : Reply → Bool
  | .failed => false
  | _ => true

end OceanChat
