import OceanChat.Core.JsonBytes
import OceanChat.Gateway.AuthController

/-!
# Errors through any number of services

A service answers a failed call with the JSON text of its error response.  The caller
reads it, wraps it in an exception of its own and may itself be called by another
service, until the gateway answers the client.
-/

namespace OceanChat.Gateway.ErrorRelay

open ByteBuffer (Buffer)
open ExceptionFilter
open Text (ofAscii)

/-! ## Error responses on the wire -/

def messageKey : Text := ofAscii ['m', 'e', 's', 's', 'a', 'g', 'e']

def errorCodeKey : Text := ofAscii ['e', 'r', 'r', 'o', 'r', 'C', 'o', 'd', 'e']

def detailsKey : Text := ofAscii ['d', 'e', 't', 'a', 'i', 'l', 's']

def statusCodeKey : Text := ofAscii ['s', 't', 'a', 't', 'u', 's', 'C', 'o', 'd', 'e']

def serviceNameKey : Text :=
  ofAscii ['s', 'e', 'r', 'v', 'i', 'c', 'e', 'N', 'a', 'm', 'e']

def serviceInstanceIdKey : Text :=
  ofAscii ['s', 'e', 'r', 'v', 'i', 'c', 'e', 'I', 'n', 's', 't', 'a', 'n', 'c', 'e',
    'I', 'd']

def pathKey : Text := ofAscii ['p', 'a', 't', 'h']

def timestampKey : Text := ofAscii ['t', 'i', 'm', 'e', 's', 't', 'a', 'm', 'p']

/-- The number of JavaScript for an integer. -/
def numberOf (value : ℤ) : Json :=
  match hnearest : Double.nearest (value : ℚ) with
  | some rounded => .number ⟨rounded, Double.nearest_nearest hnearest⟩
  | none => .infinity (decide (value < 0))

def optional (key : Text) : Option Json → List (Text × Json)
  | some value => [(key, value)]
  | none => []

/-- A property that is undefined is not written. -/
def toJson (dto : ErrorResponseDto) : Json :=
  .object ((messageKey, dto.message) :: (errorCodeKey, numberOf dto.errorCode) ::
    (optional detailsKey dto.details ++
      ((statusCodeKey, numberOf dto.statusCode) ::
        (serviceNameKey, .string dto.serviceName) ::
        (serviceInstanceIdKey, .string dto.serviceInstanceId) ::
        (optional pathKey (dto.path.map .string) ++
          [(timestampKey, .string dto.timestamp)]))))

def send (dto : ErrorResponseDto) : Buffer := Utf8.encode (toJson dto).stringify

def member (key : Text) : Json → Option Json
  | .object members => members.lookup key
  | _ => none

def stringOf : Json → Option Text
  | .string text => some text
  | _ => none

/-- An integer, if the value is a number that is one. -/
def integerOf : Json → Option ℤ
  | .number value => if value.value.den = 1 then some value.value.num else none
  | _ => none

/-- What the caller gets hold of; a text that is no JSON is an error of its own. -/
def receive (bytes : Buffer) : Received :=
  match Json.parse (Utf8.decode bytes) with
  | some value =>
      { message := (member messageKey value).bind stringOf
        errorCode := (member errorCodeKey value).bind integerOf
        statusCode := (member statusCodeKey value).bind integerOf
        value := value }
  | none => ⟨none, none, none, .null⟩

/-! ## A response is read as it was written -/

theorem numberOf_of_lt {value : ℤ} (hvalue : |value| < 2 ^ 53) :
    numberOf value = .number (.ofInt value hvalue) := by
  unfold numberOf
  split
  · rename_i rounded hnearest
    rw [Double.nearest_intCast hvalue] at hnearest
    obtain rfl := Option.some.inj hnearest
    rfl
  · rename_i hnearest
    rw [Double.nearest_intCast hvalue] at hnearest
    cases hnearest

theorem integerOf_numberOf {value : ℤ} (hvalue : |value| < 2 ^ 53) :
    integerOf (numberOf value) = some value := by
  rw [numberOf_of_lt hvalue]
  simp [integerOf, Double.ofInt]

theorem plain_numberOf {value : ℤ} (hvalue : |value| < 2 ^ 53) :
    (numberOf value).Plain := by
  rw [numberOf_of_lt hvalue]
  trivial

/-- A response that JSON carries: a text, safe integers, and details of plain JSON. -/
structure Sendable (dto : ErrorResponseDto) (text : Text) : Prop where
  message : dto.message = .string text
  errorCode : |dto.errorCode| < 2 ^ 53
  statusCode : |dto.statusCode| < 2 ^ 53
  details : ∀ details, dto.details = some details → details.Plain

/-- The keys are distinct, whether or not the optional ones are there. -/
theorem nodup_keys : ∀ details path : Bool,
    (messageKey :: errorCodeKey :: ((bif details then [detailsKey] else []) ++
      (statusCodeKey :: serviceNameKey :: serviceInstanceIdKey ::
        ((bif path then [pathKey] else []) ++ [timestampKey])))).Nodup := by
  decide

theorem plain_toJson {dto : ErrorResponseDto} {text : Text} (hdto : Sendable dto text) :
    (toJson dto).Plain := by
  have herror := plain_numberOf hdto.errorCode
  have hstatus := plain_numberOf hdto.statusCode
  rw [toJson, hdto.message]
  cases hdetails : dto.details with
  | none =>
      cases dto.path with
      | none =>
          exact ⟨nodup_keys false false, trivial, herror, hstatus, trivial, trivial,
            trivial, trivial⟩
      | some path =>
          exact ⟨nodup_keys false true, trivial, herror, hstatus, trivial, trivial,
            trivial, trivial, trivial⟩
  | some details =>
      have hplain := hdto.details details hdetails
      cases dto.path with
      | none =>
          exact ⟨nodup_keys true false, trivial, herror, hplain, hstatus, trivial,
            trivial, trivial, trivial⟩
      | some path =>
          exact ⟨nodup_keys true true, trivial, herror, hplain, hstatus, trivial,
            trivial, trivial, trivial, trivial⟩

theorem member_message (dto : ErrorResponseDto) :
    member messageKey (toJson dto) = some dto.message := rfl

theorem member_errorCode (dto : ErrorResponseDto) :
    member errorCodeKey (toJson dto) = some (numberOf dto.errorCode) := rfl

theorem member_statusCode (dto : ErrorResponseDto) :
    member statusCodeKey (toJson dto) = some (numberOf dto.statusCode) := by
  rw [toJson]
  cases dto.details <;> rfl

/-- The caller gets the message and the codes of the response, and all of it as the
cause. -/
theorem receive_send {dto : ErrorResponseDto} {text : Text} (hdto : Sendable dto text) :
    receive (send dto) =
      ⟨some text, some dto.errorCode, some dto.statusCode, toJson dto⟩ := by
  rw [receive, send, Utf8.parse_decode_encode_stringify (plain_toJson hdto)]
  simp only [member_message, member_errorCode, member_statusCode, Option.bind_some,
    hdto.message, stringOf, integerOf_numberOf hdto.errorCode,
    integerOf_numberOf hdto.statusCode]

/-! ## The services between an error and the client -/

/-- How a call of another service ends for its caller: with the answer of the other
filter, with an error of the transport, or with an error that the caller raises
itself, whatever the other service has done. -/
inductive Ending
  | answered (now : Text)
  | broken (err : Received)
  | breakerOpen
  | timedOut (error : NativeError)
  | refused (cause : Json)

/-- A service that has called the one before it; `key` and `errorCode` are those of its
`catchError`. -/
structure Hop where
  caller : Service
  key : String
  errorCode : ℤ
  stack : Text
  ending : Ending

/-- `UsersService.handleRpcError` and `RpcRoleDataSource.handleRpcError`. -/
def handleRpcError (caller : Service) (stack : Text) (ending : Ending) : Hop :=
  ⟨caller, "INTERNAL_SERVER_ERROR", ErrorCodes.unexpectedError, stack, ending⟩

/-- What `CircuitBreakerService.fire` makes of an open breaker. -/
def serviceUnavailable (service : Service) (stack : Text) : Exception :=
  .infrastructure (service.translate "Service_Unavailable")
    ErrorCodes.serviceUnavailable 503 none stack

/-- What `LocalAuthGuard.handleRequest` makes of every error. -/
def unauthorized (service : Service) (stack : Text) (cause : Json) : Exception :=
  .domain (service.translate "UNAUTHORIZED") ErrorCodes.unauthorized 401
    (some (.object [(ofAscii ['c', 'a', 'u', 's', 'e'], cause)])) stack

/-- What the caller throws without an answer of the other service. -/
def Hop.raised (hop : Hop) : Option Exception :=
  match hop.ending with
  | .answered _ => none
  | .broken err => some (catchError hop.caller hop.key hop.errorCode hop.stack err)
  | .breakerOpen => some (serviceUnavailable hop.caller hop.stack)
  | .timedOut error => some (.native error)
  | .refused cause => some (unauthorized hop.caller hop.stack cause)

/-- What the caller throws after an exception of the service that it has called. -/
def Hop.throws (hop : Hop) (callee : Service) (exception : Exception) : Exception :=
  match hop.ending with
  | .answered now => catchError hop.caller hop.key hop.errorCode hop.stack
      (receive (send (handleRpcException callee now exception)))
  | _ => hop.raised.getD exception

/-- The service at the end of the calls, and what is thrown in it. -/
def climb (callee : Service) (exception : Exception) : List Hop → Service × Exception
  | [] => (callee, exception)
  | hop :: hops => climb hop.caller (hop.throws callee exception) hops

/-- What the gateway answers the client. -/
def answer (callee : Service) (exception : Exception) (hops : List Hop)
    (now url : Text) : ℤ × ClientResponse :=
  handleHttpException (climb callee exception hops).1 now url
    (climb callee exception hops).2

/-! ## What the client is told -/

/-- Status code, error code and message of the response of a service. -/
def outcome (service : Service) (exception : Exception) : ℤ × ℤ × Json :=
  (createErrorResponse service [] exception none).outcome

/-- The outcome at the last service that has raised the error itself. -/
def origin (callee : Service) (exception : Exception) : List Hop → ℤ × ℤ × Json
  | [] => outcome callee exception
  | hop :: hops =>
      match hop.raised with
      | some raised => origin hop.caller raised hops
      | none => origin callee exception hops

/-- The response has a message and can be sent as JSON. -/
def Presentable (service : Service) (exception : Exception) : Prop :=
  ∃ text, text ≠ [] ∧ Sendable (createErrorResponse service [] exception none) text

section Relay

variable {callee caller : Service} {exception : Exception} {text stack : Text}

/-- The filter of the called service has sent the same response. -/
theorem sendable_handleRpcException (now : Text)
    (hsend : Sendable (createErrorResponse callee [] exception none) text) :
    Sendable (handleRpcException callee now exception) text where
  message := by
    have hmessage := hsend.message
    simp only [createErrorResponse] at hmessage
    simp only [handleRpcException, createErrorResponse, hmessage, textOf]
  errorCode := hsend.errorCode
  statusCode := hsend.statusCode
  details := hsend.details

/-- An answer that arrives is thrown again with its message and its codes, and the
response as its cause. -/
theorem throws_of_sendable {hop : Hop} {now : Text} (hending : hop.ending = .answered now)
    (hsend : Sendable (handleRpcException callee now exception) text) :
    hop.throws callee exception =
      .domain text (createErrorResponse callee [] exception none).errorCode
        (createErrorResponse callee [] exception none).statusCode
        (some (.object [(ofAscii ['c', 'a', 'u', 's', 'e'],
          toJson (handleRpcException callee now exception))])) hop.stack := by
  rw [Hop.throws, hending]
  simp only [receive_send hsend]
  rfl

theorem throws_answered {hop : Hop} {now : Text} (hending : hop.ending = .answered now)
    (hsend : Sendable (createErrorResponse callee [] exception none) text) :
    hop.throws callee exception =
      .domain text (createErrorResponse callee [] exception none).errorCode
        (createErrorResponse callee [] exception none).statusCode
        (some (.object [(ofAscii ['c', 'a', 'u', 's', 'e'],
          toJson (handleRpcException callee now exception))])) hop.stack :=
  throws_of_sendable hending (sendable_handleRpcException now hsend)

theorem outcome_domain (hne : text ≠ []) (errorCode statusCode : ℤ)
    (details : Option Json) :
    outcome caller (.domain text errorCode statusCode details stack) =
      (statusCode, errorCode, .string text) := by
  simp [outcome, createErrorResponse, describe, Exception.domain,
    ErrorResponseDto.outcome, hne]

theorem outcome_of_sendable
    (hsend : Sendable (createErrorResponse callee [] exception none) text) :
    outcome callee exception =
      ((createErrorResponse callee [] exception none).statusCode,
        (createErrorResponse callee [] exception none).errorCode, .string text) := by
  rw [outcome, ErrorResponseDto.outcome, hsend.message]

theorem presentable_domain (hne : text ≠ []) {errorCode statusCode : ℤ}
    (herror : |errorCode| < 2 ^ 53) (hstatus : |statusCode| < 2 ^ 53)
    {details : Option Json} (hdetails : ∀ json, details = some json → json.Plain) :
    Presentable caller (.domain text errorCode statusCode details stack) := by
  refine ⟨text, hne, ?_, herror, hstatus, hdetails⟩
  simp [createErrorResponse, describe, Exception.domain, hne]

theorem presentable_infrastructure (hne : caller.translate "SYSTEM_UNAVAILABLE" ≠ [])
    (errorCode : ℤ) {statusCode : ℤ} (hstatus : |statusCode| < 2 ^ 53)
    {details : Option Json} (hdetails : ∀ json, details = some json → json.Plain) :
    Presentable caller
      (.infrastructure text errorCode statusCode details stack) := by
  have herror : |(ErrorCodes.serviceError : ℤ)| < 2 ^ 53 := by decide
  refine ⟨_, hne, rfl, herror, ?_, hdetails⟩
  simp only [createErrorResponse, describe, Exception.infrastructure]
  split
  · norm_num
  · exact hstatus

/-- The next service gives the same outcome, and can send it again. -/
theorem presentable_throws {hop : Hop} {now : Text}
    (hending : hop.ending = .answered now) (hpresent : Presentable callee exception) :
    Presentable hop.caller (hop.throws callee exception) ∧
      outcome hop.caller (hop.throws callee exception) = outcome callee exception := by
  obtain ⟨text, hne, hsend⟩ := hpresent
  rw [throws_answered hending hsend]
  constructor
  · refine presentable_domain hne hsend.errorCode hsend.statusCode ?_
    rintro details ⟨⟩
    exact ⟨List.nodup_singleton _,
      plain_toJson (sendable_handleRpcException now hsend), trivial⟩
  · rw [outcome_domain hne, outcome_of_sendable hsend]

theorem throws_of_raised {hop : Hop} {raised : Exception}
    (hraised : hop.raised = some raised) : hop.throws callee exception = raised := by
  unfold Hop.throws
  split
  · rename_i now hending
    simp [Hop.raised, hending] at hraised
  · rw [hraised, Option.getD_some]

theorem answered_of_not_raised {hop : Hop} (hraised : hop.raised = none) :
    ∃ now, hop.ending = .answered now := by
  unfold Hop.raised at hraised
  split at hraised
  · rename_i now hending
    exact ⟨now, hending⟩
  · cases hraised
  · cases hraised
  · cases hraised
  · cases hraised

theorem origin_of_outcome {other : Service} {otherException : Exception}
    (hsame : outcome callee exception = outcome other otherException) (hops : List Hop) :
    origin callee exception hops = origin other otherException hops := by
  induction hops with
  | nil => exact hsame
  | cons hop hops ih =>
      rw [origin, origin]
      cases hop.raised with
      | none => exact ih
      | some raised => rfl

/-- The last service has the outcome of the origin. -/
theorem outcome_climb (hops : List Hop) (hpresent : Presentable callee exception)
    (hraised : ∀ hop ∈ hops, ∀ raised, hop.raised = some raised →
      Presentable hop.caller raised) :
    outcome (climb callee exception hops).1 (climb callee exception hops).2 =
      origin callee exception hops := by
  induction hops generalizing callee exception with
  | nil => rfl
  | cons hop hops ih =>
      obtain ⟨hfirst, hrest⟩ := List.forall_mem_cons.mp hraised
      rw [climb, origin]
      cases hending : hop.raised with
      | none =>
          obtain ⟨now, hanswered⟩ := answered_of_not_raised hending
          obtain ⟨hnext, hsame⟩ := presentable_throws hanswered hpresent
          rw [ih hnext hrest, origin_of_outcome hsame]
      | some raised =>
          rw [throws_of_raised hending, ih (hfirst raised hending) hrest]

end Relay

/-- However many services an error comes through, as JSON text between any two of them,
the client is told the status code, the error code and the message of the last service
that has raised it itself: the one where it was thrown, or the last one whose call
broke, timed out, met an open breaker or was refused by the guard of the login. -/
theorem client_is_told_origin (callee : Service) (exception : Exception)
    (hops : List Hop) (now url : Text) (hpresent : Presentable callee exception)
    (hraised : ∀ hop ∈ hops, ∀ raised, hop.raised = some raised →
      Presentable hop.caller raised) :
    answer callee exception hops now url =
      ((origin callee exception hops).1,
        { statusCode := (origin callee exception hops).1
          message := (origin callee exception hops).2.2
          path := some url
          errorCode := (origin callee exception hops).2.1 }) := by
  rw [← outcome_climb hops hpresent hraised]
  rfl

/-- The user service has lost its database during a login: its caller is answered with
a system error, which the guard of the login turns into a refusal. -/
theorem client_is_told_origin_of_login :
    let translate : String → Text := fun _ => ofAscii ['e']
    let user : Service := ⟨ofAscii ['u'], ofAscii ['1'], translate⟩
    let auth : Service := ⟨ofAscii ['a'], ofAscii ['2'], translate⟩
    let gateway : Service := ⟨ofAscii ['g'], ofAscii ['3'], translate⟩
    let lost := Exception.infrastructure [] ErrorCodes.unexpectedError 500 none []
    answer user lost
        [handleRpcError auth [] (.answered []), handleRpcError auth [] (.refused .null),
          handleRpcError gateway [] (.answered [])] [] [] =
      (401, ⟨401, .string (ofAscii ['e']), some [], ErrorCodes.unauthorized⟩) := by
  intro translate user auth gateway lost
  have hlost : Presentable user lost :=
    presentable_infrastructure (by decide) _ (by norm_num) (by simp)
  rw [client_is_told_origin user lost _ [] [] hlost]
  · rfl
  · intro hop hmem raised hraised
    simp only [List.mem_cons, List.not_mem_nil, or_false] at hmem
    obtain rfl | rfl | rfl := hmem
    · cases hraised
    · obtain rfl := Option.some.inj hraised
      refine presentable_domain (by decide) (by decide) (by norm_num) ?_
      rintro details ⟨⟩
      exact ⟨List.nodup_singleton _, trivial, trivial⟩
    · cases hraised

end OceanChat.Gateway.ErrorRelay
