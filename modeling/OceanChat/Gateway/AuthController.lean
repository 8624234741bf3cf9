import OceanChat.Common.ExceptionFilter

/-!
# Errors on their way through the gateway

A failed call of a service comes back to the gateway as the response that the
filter of the service made of it.  The controller wraps it in a domain
exception, whose message its own filter passes on to the client.
-/

namespace OceanChat.Gateway

open ExceptionFilter

/-- What the client of a service hands to `catchError`.  A field is `none` if it
is missing or has another type. -/
structure Received where
  message : Option Text
  errorCode : Option ℤ
  statusCode : Option ℤ
  value : Json

/-- The three fields that `isErrorResponseDto` asks for. -/
def isErrorResponseDto (err : Received) : Option (Text × ℤ × ℤ) :=
  match err.message, err.errorCode, err.statusCode with
  | some message, some errorCode, some statusCode =>
      some (message, errorCode, statusCode)
  | _, _, _ => none

/-- The details of an exception that another one has caused. -/
def Received.cause (err : Received) : Json :=
  .object [(Text.ofAscii ['c', 'a', 'u', 's', 'e'], err.value)]

/-- The `catchError` of a call: what is no error response becomes an
infrastructure exception with a message and a code of the controller.  Both
carry the error as their cause. -/
def catchError (service : Service) (key : String) (errorCode : ℤ) (stack : Text)
    (err : Received) : Exception :=
  match isErrorResponseDto err with
  | some (message, errorCode, statusCode) =>
      .domain message errorCode statusCode (some err.cause) stack
  | none =>
      .infrastructure (service.translate key) errorCode 500
        (some err.cause) stack

def loginError (service : Service) : Text → Received → Exception :=
  catchError service "INTERNAL_SERVER_ERROR" ErrorCodes.unexpectedError

def registerError (service : Service) : Text → Received → Exception :=
  catchError service "REGISTRATION_FAILED" ErrorCodes.creationError

def refreshError (service : Service) : Text → Received → Exception :=
  catchError service "REFRESHTOKEN_ERROR" ErrorCodes.tokenRefreshError

def logoutError (service : Service) : Text → Received → Exception :=
  catchError service "INTERNAL_SERVER_ERROR" ErrorCodes.unexpectedError

/-- The transport delivers message, error code and status code unchanged. -/
def Delivers (deliver : ErrorResponseDto → Received) : Prop :=
  ∀ dto text, dto.message = .string text →
    (deliver dto).message = some text ∧
      (deliver dto).errorCode = some dto.errorCode ∧
      (deliver dto).statusCode = some dto.statusCode

/-- The answer to a client whose call failed in a service: over the filter of
the service, the transport, the controller and the filter of the gateway. -/
def relay (service gateway : Service) (now later url stack : Text) (key : String)
    (errorCode : ℤ) (deliver : ErrorResponseDto → Received)
    (exception : Exception) : ℤ × ClientResponse :=
  handleHttpException gateway later url (catchError gateway key errorCode stack
    (deliver (handleRpcException service now exception)))

section Relay

variable {service service' gateway : Service} {now now' later later' : Text}
variable {url stack stack' text : Text} {key : String} {errorCode : ℤ}
variable {deliver deliver' : ErrorResponseDto → Received}
variable {left right exception : Exception}

/-! ## Error responses travel -/

theorem catchError_of_delivers (hdelivers : Delivers deliver) {dto : ErrorResponseDto}
    (hmessage : dto.message = .string text) :
    catchError gateway key errorCode stack (deliver dto) =
      .domain text dto.errorCode dto.statusCode (some (deliver dto).cause)
        stack := by
  obtain ⟨htext, herror, hstatus⟩ := hdelivers dto text hmessage
  simp only [catchError, isErrorResponseDto, htext, herror, hstatus]

/-- A domain exception is shown as it is, with a message of the filter if it has
none. -/
theorem handleHttpException_domain (statusCode : ℤ) (details : Option Json) :
    handleHttpException service now url
        (.domain text errorCode statusCode details stack) =
      (statusCode,
        { statusCode := statusCode
          message := .string (if text = [] then
              service.translate "INTERNAL_SERVER_ERROR"
            else text)
          path := some url
          errorCode := errorCode }) := rfl

/-- What a service answers comes through the gateway. -/
theorem relay_of_message (hdelivers : Delivers deliver)
    (hmessage : (createErrorResponse service now exception none).message =
      .string text) :
    relay service gateway now later url stack key errorCode deliver exception =
      let dto := createErrorResponse service now exception none
      (dto.statusCode,
        { statusCode := dto.statusCode
          message := .string (if text = [] then
              gateway.translate "INTERNAL_SERVER_ERROR"
            else text)
          path := some url
          errorCode := dto.errorCode }) := by
  have hrpc : (handleRpcException service now exception).message =
      .string text := by
    simp only [handleRpcException, hmessage, textOf]
  rw [relay, catchError_of_delivers hdelivers hrpc, handleHttpException_domain]
  rfl

/-! ## Infrastructure failures do not leak -/

/-- Two failures of one kind and with one status code get the same answer,
whether they happen in the gateway or in a service behind it. -/
theorem failures_do_not_leak (halike : Alike left right)
    (htranslate : service.translate = service'.translate)
    (hdelivers : Delivers deliver) (hdelivers' : Delivers deliver') :
    handleHttpException gateway now url left =
        handleHttpException gateway now' url right ∧
      relay service gateway now later url stack key errorCode deliver left =
        relay service' gateway now' later' url stack' key errorCode deliver'
          right := by
  refine ⟨handleHttpException_of_outcome
    (outcome_of_alike halike rfl (some url) (some url)), ?_⟩
  have houtcome : (createErrorResponse service now left none).outcome =
      (createErrorResponse service' now' right none).outcome :=
    outcome_of_alike halike htranslate none none
  obtain ⟨text, hleft⟩ := exists_message_of_alike halike service now
  simp only [ErrorResponseDto.outcome, Prod.mk.injEq] at houtcome
  obtain ⟨hstatus, hcode, hmessage⟩ := houtcome
  rw [relay_of_message hdelivers hleft,
    relay_of_message hdelivers' (hmessage ▸ hleft)]
  simp only [hstatus, hcode]

end Relay

/-- Two failed connections to a database, one of which says where it is. -/
theorem failures_do_not_leak_of_connections :
    let translate : String → Text := fun key => Text.ofAscii key.toList
    let service : Service := ⟨Text.ofAscii ['a'], Text.ofAscii ['1'], translate⟩
    let gateway : Service := ⟨Text.ofAscii ['g'], Text.ofAscii ['2'], translate⟩
    let deliver : ErrorResponseDto → Received := fun dto =>
      { message := match dto.message with
          | .string text => some text
          | _ => none
        errorCode := some dto.errorCode
        statusCode := some dto.statusCode
        value := .null }
    let left := Exception.infrastructure (Text.ofAscii ['r', 'o', 'o', 't', '@', 'd', 'b'])
      ErrorCodes.unexpectedError 503 none []
    let right := Exception.infrastructure [] ErrorCodes.serviceError 503
      (some .null) []
    relay service gateway [] [] [] [] "INTERNAL_SERVER_ERROR"
        ErrorCodes.unexpectedError deliver left =
      relay service gateway [] [] [] [] "INTERNAL_SERVER_ERROR"
        ErrorCodes.unexpectedError deliver right := by
  intro translate service gateway deliver left right
  have hdelivers : Delivers deliver := by
    intro dto text hmessage
    simp [deliver, hmessage]
  exact (failures_do_not_leak (.infrastructure _ _ _ _ _ _ _ _ _) rfl hdelivers
    hdelivers).2

end OceanChat.Gateway
