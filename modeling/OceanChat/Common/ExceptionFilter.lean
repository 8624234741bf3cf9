import OceanChat.Common.AppException
import OceanChat.Core.Json

/-!
# The exception filter

Whatever a handler throws becomes an `ErrorResponseDto`.  Only the message of a
domain exception and of the exceptions of the framework is passed on; every
other failure gets a message of its own.  Over HTTP the client sees four fields
of the response, over RPC the caller gets all of it.
-/

namespace OceanChat.ExceptionFilter

/-! ## Exceptions -/

/-- A value that implements `IAppException`. -/
structure AppError where
  message : Text
  errorCode : ℤ
  statusCode : ℤ
  exceptionType : ExceptionType
  details : Option Json
  stack : Text

/-- What `HttpException.getResponse` answers: a string, an object whose
`message` is an array of strings or something else, or another object. -/
inductive HttpResponse
  | text (response : Text)
  | messages (messages : List Text)
  | message (message : Json)
  | object (response : Json)

/-- An `Error` of no other kind; `statusCode` is there if it is a number. -/
structure NativeError where
  message : Text
  stack : Text
  cause : Option Json
  statusCode : Option ℤ

/-- What can be thrown, by the first test of the filter that it passes. -/
inductive Exception
  | app (error : AppError)
  | http (status : ℤ) (response : HttpResponse)
  | rpc (error : Json)
  | ws (error : Json)
  | native (error : NativeError)
  | value (value : Json)

/-- `new DomainException(message, errorCode, statusCode, details)`. -/
def Exception.domain (message : Text) (errorCode statusCode : ℤ)
    (details : Option Json) (stack : Text) : Exception :=
  .app ⟨message, errorCode, statusCode, .domain, details, stack⟩

/-- `new InfrastructureException(message, errorCode, statusCode, false,
details)`. -/
def Exception.infrastructure (message : Text) (errorCode statusCode : ℤ)
    (details : Option Json) (stack : Text) : Exception :=
  .app ⟨message, errorCode, statusCode, .infrastructure, details, stack⟩

/-! ## Responses -/

structure ErrorResponseDto where
  message : Json
  errorCode : ℤ
  details : Option Json
  statusCode : ℤ
  serviceName : Text
  serviceInstanceId : Text
  path : Option Text
  timestamp : Text

/-- One running instance of a service. -/
structure Service where
  serviceName : Text
  serviceInstanceId : Text
  translate : String → Text

/-- A string as it is, anything else as JSON. -/
def textOf : Json → Text
  | .string text => text
  | value => value.stringify

/-- `messages.join(', ')`. -/
def join : List Text → Text
  | [] => []
  | [message] => message
  | message :: messages => message ++ (Text.ofAscii [',', ' '] ++ join messages)

def HttpResponse.content : HttpResponse → Json
  | .text response => .string response
  | .messages texts => .string (join texts)
  | .message content => content
  | .object response => .string response.stringify

/-- Status code, error code, message and details of the response. -/
def describe (service : Service) : Exception → ℤ × ℤ × Json × Option Json
  | .app error =>
      match error.exceptionType with
      | .domain =>
          (error.statusCode, error.errorCode,
            .string (if error.message = [] then
                service.translate "INTERNAL_SERVER_ERROR"
              else error.message), error.details)
      | .infrastructure =>
          (if error.statusCode < 500 then 500 else error.statusCode,
            ErrorCodes.serviceError,
            .string (service.translate "SYSTEM_UNAVAILABLE"), error.details)
  | .http status response => (status, status, response.content, none)
  | .rpc error => (500, ErrorCodes.unexpectedError, .string (textOf error), none)
  | .ws error => (500, ErrorCodes.unexpectedError, .string (textOf error), none)
  | .native error =>
      (error.statusCode.getD 500, ErrorCodes.unexpectedError,
        .string (service.translate "SYSTEM_UNAVAILABLE"), none)
  | .value _ =>
      (500, ErrorCodes.unexpectedError,
        .string (service.translate "SYSTEM_UNAVAILABLE"), none)

def createErrorResponse (service : Service) (now : Text) (exception : Exception)
    (path : Option Text) : ErrorResponseDto :=
  let (statusCode, errorCode, message, details) := describe service exception
  { message := message
    errorCode := errorCode
    details := details
    statusCode := statusCode
    serviceName := service.serviceName
    serviceInstanceId := service.serviceInstanceId
    path := path
    timestamp := now }

/-- The body that is sent as JSON. -/
structure ClientResponse where
  statusCode : ℤ
  message : Json
  path : Option Text
  errorCode : ℤ

/-- The status of the HTTP response and its body. -/
def handleHttpException (service : Service) (now url : Text)
    (exception : Exception) : ℤ × ClientResponse :=
  let dto := createErrorResponse service now exception (some url)
  (dto.statusCode,
    { statusCode := dto.statusCode
      message := dto.message
      path := dto.path
      errorCode := dto.errorCode })

/-- What the RPC caller gets; a message that is no string is sent as JSON. -/
def handleRpcException (service : Service) (now : Text) (exception : Exception) :
    ErrorResponseDto :=
  let dto := createErrorResponse service now exception none
  { dto with message := .string (textOf dto.message) }

/-! ## What a response tells -/

/-- The part of a response that reaches a client. -/
def ErrorResponseDto.outcome (dto : ErrorResponseDto) : ℤ × ℤ × Json :=
  (dto.statusCode, dto.errorCode, dto.message)

/-- Two failures that a client must not be able to tell apart: they are of one
kind and have the same status code, whatever else they say. -/
inductive Alike : Exception → Exception → Prop
  | infrastructure (statusCode : ℤ) (message message' : Text)
      (errorCode errorCode' : ℤ) (details details' : Option Json)
      (stack stack' : Text) :
      Alike (.infrastructure message errorCode statusCode details stack)
        (.infrastructure message' errorCode' statusCode details' stack')
  | native (statusCode : Option ℤ) (message message' stack stack' : Text)
      (cause cause' : Option Json) :
      Alike (.native ⟨message, stack, cause, statusCode⟩)
        (.native ⟨message', stack', cause', statusCode⟩)
  | value (value value' : Json) : Alike (.value value) (.value value')

section Responses

variable {service service' : Service} {now now' url : Text}
variable {left right exception : Exception}

/-- A failure that is not to be told apart from another is described by its
status code alone. -/
theorem outcome_of_alike (halike : Alike left right)
    (htranslate : service.translate = service'.translate)
    (path path' : Option Text) :
    (createErrorResponse service now left path).outcome =
      (createErrorResponse service' now' right path').outcome := by
  cases halike <;>
  simp [createErrorResponse, describe, Exception.infrastructure,
    ErrorResponseDto.outcome, htranslate]

/-- The client sees no more than the outcome. -/
theorem handleHttpException_of_outcome
    (houtcome : (createErrorResponse service now left (some url)).outcome =
      (createErrorResponse service' now' right (some url)).outcome) :
    handleHttpException service now url left =
      handleHttpException service' now' url right := by
  simp only [ErrorResponseDto.outcome, Prod.mk.injEq] at houtcome
  obtain ⟨hstatus, hcode, hmessage⟩ := houtcome
  have hpath : (createErrorResponse service now left (some url)).path =
      (createErrorResponse service' now' right (some url)).path := rfl
  simp only [handleHttpException, hstatus, hcode, hmessage, hpath]

/-- Such a failure has a text for its message. -/
theorem exists_message_of_alike (halike : Alike left right) (service : Service)
    (now : Text) : ∃ text, (createErrorResponse service now left none).message =
      .string text := by
  cases halike <;> exact ⟨_, rfl⟩

end Responses

end OceanChat.ExceptionFilter
