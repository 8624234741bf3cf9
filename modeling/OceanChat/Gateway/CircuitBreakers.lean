import OceanChat.Core.InsertionMap
import OceanChat.Core.Runs
import OceanChat.Gateway.ErrorRelay

/-!
# The circuit breakers of the gateway

Every action of the gateway has a breaker of its own, which is created with its first
call.  An error of the client counts as a success, so that nobody can make an action
unavailable to others by sending wrong requests.
-/

namespace OceanChat.Gateway.CircuitBreakers

open ErrorRelay
open ExceptionFilter
open Runs (Guarded run)
open Text (ofAscii)

/-! ## Breakers -/

/-- The options of a breaker; times are milliseconds. -/
structure Options where
  timeout : ℕ
  errorThresholdPercentage : ℕ
  resetTimeout : ℕ

/-- `CircuitBreaker.Options`, as far as a caller sets them. -/
structure GivenOptions where
  timeout : Option ℕ
  errorThresholdPercentage : Option ℕ
  resetTimeout : Option ℕ

def GivenOptions.merged (options : GivenOptions) : Options where
  timeout := options.timeout.getD 5000
  errorThresholdPercentage := options.errorThresholdPercentage.getD 50
  resetTimeout := options.resetTimeout.getD 10000

/-- What the library does: a breaker lets a call through or not, and learns how the calls
that it has let through end.  All of it may depend on the time. -/
structure Opossum (Breaker : Type) where
  create : Options → Breaker
  admits : Breaker → ℕ → Bool
  start : Breaker → ℕ → Breaker
  success : Breaker → ℕ → Breaker
  failure : Breaker → ℕ → Breaker

/-- A breaker is closed at first, a closed one lets every call through, and only a failure
opens it. -/
structure Opossum.Lawful {Breaker : Type} (opossum : Opossum Breaker)
    (Closed : Breaker → Prop) : Prop where
  create : ∀ options, Closed (opossum.create options)
  admits : ∀ breaker now, Closed breaker → opossum.admits breaker now = true
  start : ∀ breaker now, Closed breaker → Closed (opossum.start breaker now)
  success : ∀ breaker now, Closed breaker → Closed (opossum.success breaker now)

/-! ## Errors -/

def statusKey : Text := ofAscii ['s', 't', 'a', 't', 'u', 's']

def truthy : Json → Bool
  | .null => false
  | .boolean value => value
  | .number value => decide (value.value ≠ 0)
  | .string text => decide (text ≠ [])
  | _ => true

/-- `error?.statusCode || error?.status`, if it is a number. -/
def statusOf : Exception → Option ℚ
  | .app error => if error.statusCode = 0 then none else some error.statusCode
  | .http status _ => some status
  | .rpc _ | .ws _ => none
  | .native error => error.statusCode.map (↑)
  | .value json =>
      match ((member statusCodeKey json).filter truthy).or (member statusKey json) with
      | some (.number status) => some status.value
      | _ => none

/-- An error of the client does not count. -/
def errorFilter (err : Exception) : Bool :=
  (statusOf err).any fun status => decide (400 ≤ status ∧ status < 500)

/-- JSON carries the codes and the details of the response. -/
structure Carried (service : Service) (exception : Exception) : Prop where
  errorCode : |(createErrorResponse service [] exception none).errorCode| < 2 ^ 53
  statusCode : |(createErrorResponse service [] exception none).statusCode| < 2 ^ 53
  details : ∀ details, (createErrorResponse service [] exception none).details =
    some details → details.Plain

theorem Carried.sendable {service : Service} {exception : Exception}
    (hcarried : Carried service exception) (now : Text) :
    Sendable (handleRpcException service now exception)
      (textOf (createErrorResponse service [] exception none).message) :=
  ⟨rfl, hcarried.errorCode, hcarried.statusCode, hcarried.details⟩

/-- An error with a status code from 400 to 499, which the called service has answered,
whatever its message, or the gateway has raised itself, such as a profile that does not
exist. -/
inductive ClientError : Exception → Prop
  | answered {hop : Hop} {callee : Service} {exception : Exception} {now : Text}
      (ending : hop.ending = .answered now) (carried : Carried callee exception)
      (low : 400 ≤ (outcome callee exception).1) (high : (outcome callee exception).1 < 500) :
      ClientError (hop.throws callee exception)
  | raised (message : Text) (errorCode : ℤ) {statusCode : ℤ} (details : Option Json)
      (stack : Text) (low : 400 ≤ statusCode) (high : statusCode < 500) :
      ClientError (.domain message errorCode statusCode details stack)

theorem errorFilter_domain {message stack : Text} {errorCode statusCode : ℤ}
    {details : Option Json} :
    errorFilter (.domain message errorCode statusCode details stack) = true ↔
      400 ≤ statusCode ∧ statusCode < 500 := by
  by_cases hzero : statusCode = 0
  · subst hzero
    simp [errorFilter, statusOf, Exception.domain]
  · simp only [errorFilter, statusOf, Exception.domain, if_neg hzero, Option.any_some,
      decide_eq_true_eq]
    norm_cast

/-- The status code passes through the gateway's own exception. -/
theorem errorFilter_of_clientError {err : Exception} (herr : ClientError err) :
    errorFilter err = true := by
  cases herr with
  | answered hending hcarried hlow hhigh =>
      rw [throws_of_sendable hending (hcarried.sendable _)]
      exact errorFilter_domain.mpr ⟨hlow, hhigh⟩
  | raised message errorCode details stack hlow hhigh =>
      exact errorFilter_domain.mpr ⟨hlow, hhigh⟩

/-! ## Calls -/

/-- `refused` is a call that has met an open breaker. -/
inductive Phase
  | running
  | resolved
  | rejected (err : Exception)
  | refused (err : Exception)

structure Call where
  name : String
  phase : Phase

structure State (Breaker : Type) where
  now : ℕ
  breakers : InsertionMap String Breaker
  calls : ℕ → Option Call

def State.initial {Breaker : Type} (now : ℕ) : State Breaker :=
  ⟨now, InsertionMap.empty, fun _ => none⟩

inductive Event
  | fire (id : ℕ) (name : String) (options : GivenOptions) (stack : Text)
  | settle (id : ℕ) (result : Except Exception Unit)
  | timeOut (id : ℕ) (message stack : Text)
  | tick (ms : ℕ)

section System

variable {Breaker : Type}

def State.put (state : State Breaker) (id : ℕ) (name : String) (phase : Phase)
    (breaker : Breaker) : State Breaker :=
  { state with
    breakers := state.breakers.set name breaker
    calls := Function.update state.calls id (some ⟨name, phase⟩) }

/-- What the breaker is told of a call that has been rejected. -/
def Opossum.reject (opossum : Opossum Breaker) (breaker : Breaker) (now : ℕ)
    (err : Exception) : Breaker :=
  if errorFilter err then opossum.success breaker now else opossum.failure breaker now

/-- A call that has timed out is over for the breaker, whatever becomes of its action. -/
def step (opossum : Opossum Breaker) (service : Service) (state : State Breaker) :
    Event → Option (State Breaker)
  | .fire id name options stack =>
      match state.calls id with
      | some _ => none
      | none =>
          let breaker := (state.breakers.get name).getD (opossum.create options.merged)
          if opossum.admits breaker state.now then
            some (state.put id name .running (opossum.start breaker state.now))
          else some (state.put id name (.refused (serviceUnavailable service stack)) breaker)
  | .settle id result =>
      match state.calls id with
      | some ⟨name, .running⟩ =>
          (state.breakers.get name).map fun breaker =>
            match result with
            | .ok _ => state.put id name .resolved (opossum.success breaker state.now)
            | .error err =>
                state.put id name (.rejected err) (opossum.reject breaker state.now err)
      | _ => none
  | .timeOut id message stack =>
      match state.calls id with
      | some ⟨name, .running⟩ =>
          (state.breakers.get name).map fun breaker =>
            let err := Exception.native ⟨message, stack, none, none⟩
            state.put id name (.rejected err) (opossum.reject breaker state.now err)
      | _ => none
  | .tick ms => some { state with now := state.now + ms }

/-! ## An action without failures -/

/-- The call of this name is not timed out, and rejected by such an error at most. -/
def RejectedOnly (Allowed : Exception → Prop) (name : String) (state : State Breaker) :
    Event → Prop
  | .settle id result => state.calls id = some ⟨name, .running⟩ →
      ∀ err, result = .error err → Allowed err
  | .timeOut id _ _ => state.calls id ≠ some ⟨name, .running⟩
  | _ => True

structure Available (Closed : Breaker → Prop) (name : String) (state : State Breaker) :
    Prop where
  closed : ∀ breaker, state.breakers.get name = some breaker → Closed breaker
  admitted : ∀ id err, state.calls id ≠ some ⟨name, .refused err⟩

variable {opossum : Opossum Breaker} {Closed : Breaker → Prop} {name other : String}
variable {state next : State Breaker} {id : ℕ} {phase : Phase} {breaker : Breaker}

theorem RejectedOnly.imp {Allowed Others : Exception → Prop} {event : Event}
    (himp : ∀ err, Allowed err → Others err)
    (hguard : RejectedOnly Allowed name state event) :
    RejectedOnly Others name state event := by
  cases event with
  | settle id result => exact fun hcall err herr => himp err (hguard hcall err herr)
  | timeOut id message stack => exact hguard
  | fire id called options stack => trivial
  | tick ms => trivial

theorem available_initial (now : ℕ) :
    Available Closed name (.initial now : State Breaker) where
  closed _ hget := by cases hget
  admitted _ _ hcall := by cases hcall

/-- What happens under one name. -/
theorem Available.put_same (havailable : Available Closed name state)
    (hclosed : Closed breaker) (hphase : ∀ err, phase ≠ .refused err) :
    Available Closed name (state.put id name phase breaker) where
  closed stored hget := by
    simp only [State.put] at hget
    rw [InsertionMap.get_set_same] at hget
    obtain rfl := Option.some.inj hget
    exact hclosed
  admitted call err hcall := by
    simp only [State.put] at hcall
    by_cases hne : call = id
    · subst hne
      rw [Function.update_self] at hcall
      exact hphase err (congrArg Call.phase (Option.some.inj hcall))
    · rw [Function.update_of_ne hne] at hcall
      exact havailable.admitted call err hcall

/-- Nothing under another name matters. -/
theorem Available.put_other (havailable : Available Closed name state)
    (hother : other ≠ name) : Available Closed name (state.put id other phase breaker) where
  closed stored hget := by
    simp only [State.put] at hget
    rw [InsertionMap.get_set_of_ne (Ne.symm hother)] at hget
    exact havailable.closed stored hget
  admitted call err hcall := by
    simp only [State.put] at hcall
    by_cases hne : call = id
    · subst hne
      rw [Function.update_self] at hcall
      exact hother (congrArg Call.name (Option.some.inj hcall))
    · rw [Function.update_of_ne hne] at hcall
      exact havailable.admitted call err hcall

/-- The breaker that a call of the name meets. -/
theorem Available.closed_getD (havailable : Available Closed name state)
    (hlawful : opossum.Lawful Closed) (options : Options) :
    Closed ((state.breakers.get name).getD (opossum.create options)) := by
  cases hget : state.breakers.get name with
  | none => exact hlawful.create options
  | some breaker => exact havailable.closed breaker hget

/-- The ways in which a step can end. -/
theorem step_cases {service : Service} {event : Event}
    (hstep : step opossum service state event = some next) :
    (∃ id called options stack, event = .fire id called options stack ∧
      ((opossum.admits ((state.breakers.get called).getD (opossum.create options.merged))
          state.now = true ∧
        next = state.put id called .running (opossum.start
          ((state.breakers.get called).getD (opossum.create options.merged)) state.now)) ∨
      (opossum.admits ((state.breakers.get called).getD (opossum.create options.merged))
          state.now = false ∧
        next = state.put id called (.refused (serviceUnavailable service stack))
          ((state.breakers.get called).getD (opossum.create options.merged))))) ∨
    (∃ id called breaker, state.calls id = some ⟨called, .running⟩ ∧
      state.breakers.get called = some breaker ∧
      ((event = .settle id (.ok ()) ∧
        next = state.put id called .resolved (opossum.success breaker state.now)) ∨
      (∃ err, event = .settle id (.error err) ∧
        next = state.put id called (.rejected err) (opossum.reject breaker state.now err)) ∨
      (∃ message stack, event = .timeOut id message stack ∧
        next = state.put id called (.rejected (.native ⟨message, stack, none, none⟩))
          (opossum.reject breaker state.now (.native ⟨message, stack, none, none⟩))))) ∨
    (∃ ms, event = .tick ms ∧ next = { state with now := state.now + ms }) := by
  cases event with
  | fire id called options stack =>
      refine Or.inl ⟨id, called, options, stack, rfl, ?_⟩
      simp only [step] at hstep
      split at hstep
      · cases hstep
      · split at hstep
        · next hadmits => exact Or.inl ⟨hadmits, (Option.some.inj hstep).symm⟩
        · next hadmits =>
            exact Or.inr ⟨Bool.eq_false_of_not_eq_true hadmits,
              (Option.some.inj hstep).symm⟩
  | settle id result =>
      refine Or.inr (Or.inl ?_)
      simp only [step] at hstep
      split at hstep
      · next called hcall =>
          obtain ⟨breaker, hget, hnext⟩ := Option.map_eq_some_iff.mp hstep
          refine ⟨id, called, breaker, hcall, hget, ?_⟩
          cases result with
          | ok value => exact Or.inl ⟨rfl, hnext.symm⟩
          | error err => exact Or.inr (Or.inl ⟨err, rfl, hnext.symm⟩)
      · cases hstep
  | timeOut id message stack =>
      refine Or.inr (Or.inl ?_)
      simp only [step] at hstep
      split at hstep
      · next called hcall =>
          obtain ⟨breaker, hget, hnext⟩ := Option.map_eq_some_iff.mp hstep
          exact ⟨id, called, breaker, hcall, hget,
            Or.inr (Or.inr ⟨message, stack, rfl, hnext.symm⟩)⟩
      · cases hstep
  | tick ms => exact Or.inr (Or.inr ⟨ms, rfl, (Option.some.inj hstep).symm⟩)

theorem Available.step {service : Service} {event : Event}
    (hlawful : opossum.Lawful Closed) (havailable : Available Closed name state)
    (hguard : RejectedOnly (errorFilter · = true) name state event)
    (hstep : step opossum service state event = some next) :
    Available Closed name next := by
  obtain ⟨id, called, options, stack, rfl, hfire⟩ |
    ⟨id, called, breaker, hcall, hget, hend⟩ | ⟨ms, rfl, rfl⟩ := step_cases hstep
  · by_cases hname : called = name
    · subst hname
      have hclosed := havailable.closed_getD hlawful options.merged
      obtain ⟨-, rfl⟩ | ⟨hadmits, -⟩ := hfire
      · exact havailable.put_same (hlawful.start _ _ hclosed) (by simp)
      · -- a closed breaker refuses nothing
        rw [hlawful.admits _ _ hclosed] at hadmits
        cases hadmits
    · obtain ⟨-, rfl⟩ | ⟨-, rfl⟩ := hfire <;> exact havailable.put_other hname
  · by_cases hname : called = name
    · subst hname
      have hsuccess := hlawful.success _ state.now (havailable.closed breaker hget)
      obtain ⟨rfl, rfl⟩ | ⟨err, rfl, rfl⟩ | ⟨message, stack, rfl, rfl⟩ := hend
      · exact havailable.put_same hsuccess (by simp)
      · have hclient : errorFilter err = true := hguard hcall err rfl
        rw [Opossum.reject, if_pos hclient]
        exact havailable.put_same hsuccess (by simp)
      · exact absurd hcall hguard
    · obtain ⟨-, rfl⟩ | ⟨err, -, rfl⟩ | ⟨message, stack, -, rfl⟩ := hend <;>
        exact havailable.put_other hname
  · exact ⟨havailable.closed, havailable.admitted⟩

/-- As long as the calls of an action end with results and errors of the client only, none
of them is refused, whatever becomes of the calls of the other actions. -/
theorem client_errors_keep_available (hlawful : opossum.Lawful Closed) (service : Service)
    (name : String) (now : ℕ) {events : List Event} {final : State Breaker}
    (hguarded : Guarded (step opossum service) (RejectedOnly ClientError name)
      (.initial now : State Breaker) events)
    (hrun : run (step opossum service) (.initial now) events = some final)
    (id : ℕ) (err : Exception) : final.calls id ≠ some ⟨name, .refused err⟩ := by
  have hfiltered := hguarded.mono fun _ _ hguard =>
    hguard.imp fun _ => errorFilter_of_clientError
  exact (Runs.run_invariant_of_guarded (Available Closed name)
    (fun _ _ _ havailable hguard hstep => havailable.step hlawful hguard hstep)
    (available_initial now) hfiltered hrun).admitted id err

end System

/-- A wrong password does not count against the logins, while the registrations are refused
after a failure. -/
theorem client_errors_keep_available_of_wrongPassword :
    let opossum : Opossum Bool :=
      ⟨fun _ => false, fun isOpen _ => !isOpen, fun isOpen _ => isOpen, fun _ _ => false,
        fun _ _ => true⟩
    let gateway : Service := ⟨ofAscii ['g'], ofAscii ['1'], fun _ => ofAscii ['e']⟩
    let auth : Service := ⟨ofAscii ['a'], ofAscii ['2'], fun _ => ofAscii ['e']⟩
    let wrong := unauthorized auth [] .null
    let relayed := Exception.domain (ofAscii ['e']) ErrorCodes.unauthorized 401
      (some (.object [(ofAscii ['c', 'a', 'u', 's', 'e'],
        toJson (handleRpcException auth [] wrong))])) []
    let broken := Exception.infrastructure [] ErrorCodes.creationError 500 none []
    let options : GivenOptions := ⟨some 6000, none, none⟩
    let events := [.fire 0 "auth.login" options [], .fire 1 "user.create" options [],
      .settle 0 (.error relayed), .settle 1 (.error broken),
      .fire 2 "user.create" options [], .fire 3 "auth.login" options []]
    ∃ final, run (step opossum gateway) (.initial 0) events = some final ∧
      final.calls 2 = some ⟨"user.create", .refused (serviceUnavailable gateway [])⟩ ∧
      ∀ id err, final.calls id ≠ some ⟨"auth.login", .refused err⟩ := by
  intro opossum gateway auth wrong relayed broken options events
  have hlawful : opossum.Lawful (· = false) :=
    ⟨fun _ => rfl, fun _ _ hclosed => by simp [opossum, hclosed],
      fun _ _ hclosed => hclosed, fun _ _ _ => rfl⟩
  have hwrong : Carried auth wrong := by
    refine ⟨by decide, by decide, ?_⟩
    rintro details ⟨⟩
    exact ⟨List.nodup_singleton _, trivial, trivial⟩
  have hthrows : (handleRpcError gateway [] (.answered [])).throws auth wrong = relayed :=
    throws_of_sendable rfl (hwrong.sendable [])
  have hclient : ClientError relayed :=
    hthrows ▸ .answered rfl hwrong (by decide) (by decide)
  have hruns : ∃ final, run (step opossum gateway) (.initial 0) events = some final ∧
      final.calls 2 = some ⟨"user.create", .refused (serviceUnavailable gateway [])⟩ :=
    ⟨_, rfl, rfl⟩
  obtain ⟨final, hrun, hrefused⟩ := hruns
  refine ⟨final, hrun, hrefused,
    client_errors_keep_available hlawful gateway "auth.login" 0 ?_ hrun⟩
  refine ⟨trivial, fun first hfirst => ⟨trivial, fun second hsecond =>
    ⟨fun _ err herr => ?_, fun third hthird => ⟨fun hcall => ?_, fun _ _ =>
      ⟨trivial, fun _ _ => ⟨trivial, fun _ _ => trivial⟩⟩⟩⟩⟩⟩
  · obtain rfl := Except.error.inj herr
    exact hclient
  · obtain rfl := Option.some.inj hfirst
    obtain rfl := Option.some.inj hsecond
    obtain rfl := Option.some.inj hthird
    have hname := congrArg (Option.map Call.name) hcall
    exact absurd hname (by decide)

end OceanChat.Gateway.CircuitBreakers
