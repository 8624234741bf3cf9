import OceanChat.Auth.Footprint
import OceanChat.User.Credentials

/-!
# Disabled users

A login and a refresh each look their user up once: a login when the password is
checked, a refresh when it has found its token stored.  The database may change
at any moment in between.  What the user service answers carries the flag of a
disabled user, and neither of the two reads it.
-/

namespace OceanChat.DisabledUsers

open Runs
open Auth (Call TokenPair UserAnswer Config)
open Credentials (AuthProviders User UserDocument findOneByUsernameAndProvider validate)

/-- `lookups` is the user that each call has been given. -/
structure State where
  users : List UserDocument
  auth : Auth.State
  lookups : ℕ → Option User

def State.initial (users : List UserDocument) : State where
  users := users
  auth := .initial
  lookups := fun _ => none

/-- `update` is any write to the database.  The lookup of a refresh may throw
instead of answering.  `auth` is every step that looks up nobody. -/
inductive Event
  | update (users : List UserDocument)
  | login (id : ℕ) (username password deviceId : String)
  | findOneById (id : ℕ) (failure : Option AppException)
  | auth (event : Auth.Event)

def looksUp : Auth.Event → Bool
  | .login _ _ | .findOneById _ _ => true
  | _ => false

def toAnswer : Option User → UserAnswer
  | some user => .found user.username
  | none => .notFound

/-- The call goes on with the user that it has been given. -/
def State.given (state : State) (id : ℕ) (user : Option User)
    (auth : Auth.State) : State :=
  { state with auth := auth, lookups := Function.update state.lookups id user }

/-- The guard rejects a login whose credentials do not fit, and no call comes
of it. -/
def step (verify : String → String → Bool) (config : Config) (state : State) :
    Event → Option State
  | .update users => some { state with users := users }
  | .login id username password deviceId =>
      match validate verify state.users username password with
      | some user =>
          (Auth.step config state.auth
            (.login id ⟨user.id, user.username, deviceId⟩)).map
              (state.given id (some user))
      | none => some state
  | .findOneById id failure =>
      match state.auth.calls id with
      | some (.refresh payload _ (.lookup _)) =>
          match failure with
          | some error =>
              (Auth.step config state.auth (.findOneById id (.threw error))).map
                (state.given id none)
          | none =>
              let user := Credentials.findOneById state.users payload.sub
              (Auth.step config state.auth
                (.findOneById id (toAnswer user))).map (state.given id user)
      | _ => none
  | .auth event =>
      if looksUp event then none
      else (Auth.step config state.auth event).map fun auth =>
        { state with auth := auth }

variable {verify : String → String → Bool} {config : Config}
variable {state next : State} {event : Event} {id : ℕ}

/-! ## The flag is never read -/

def State.setActive (active : String → Bool) (state : State) : State where
  users := state.users.map (UserDocument.setActive active)
  auth := state.auth
  lookups := fun id => (state.lookups id).map (User.setActive active)

def Event.setActive (active : String → Bool) : Event → Event
  | .update users => .update (users.map (UserDocument.setActive active))
  | event => event

theorem toAnswer_setActive (active : String → Bool) (user : Option User) :
    toAnswer (user.map (User.setActive active)) = toAnswer user := by
  cases user <;> rfl

theorem given_setActive (active : String → Bool) (state : State) (id : ℕ)
    (user : Option User) (auth : Auth.State) :
    (state.setActive active).given id (user.map (User.setActive active)) auth =
      (state.given id user auth).setActive active := by
  simp only [State.given, State.setActive, State.mk.injEq, true_and]
  funext other
  by_cases hid : other = id
  · subst hid
    simp
  · simp [hid]

/-- With other flags every step does the same. -/
theorem step_setActive (active : String → Bool) (state : State) (event : Event) :
    step verify config (state.setActive active) (event.setActive active) =
      (step verify config state event).map (State.setActive active) := by
  cases event with
  | update users => rfl
  | login id username password deviceId =>
      simp only [step, Event.setActive, State.setActive,
        Credentials.validate_setActive]
      cases validate verify state.users username password with
      | none => rfl
      | some user =>
          simp only [Option.map_some, Option.map_map]
          congr 1
          funext auth
          exact given_setActive active state id (some user) auth
  | findOneById id failure =>
      simp only [step, Event.setActive, State.setActive,
        Credentials.findOneById_setActive, toAnswer_setActive]
      split
      · cases failure with
        | some error =>
            simp only [Option.map_map]
            congr 1
            funext auth
            exact given_setActive active state id none auth
        | none =>
            simp only [Option.map_map]
            congr 1
            funext auth
            exact given_setActive active state id _ auth
      · rfl
  | auth event =>
      simp only [step, Event.setActive, State.setActive]
      split
      · rfl
      · simp only [Option.map_map]
        rfl

/-- Runs from databases that differ in their flags differ in nothing else: every
call ends in the same way. -/
theorem run_setActive (active : String → Bool) (state : State)
    (events : List Event) :
    run (step verify config) (state.setActive active)
        (events.map (Event.setActive active)) =
      (run (step verify config) state events).map (State.setActive active) :=
  run_map (step_setActive active) state events

/-! ## Tokens -/

/-- The tokens that a call has answered with. -/
def answered : Call → Option TokenPair
  | .login _ (.finished (.ok pair)) => some pair
  | .refresh _ _ (.finished (.ok pair)) => some pair
  | _ => none

/-- No call that was given a disabled user has answered with tokens. -/
def NoTokens (state : State) : Prop :=
  ∀ id pair user, (state.auth.calls id).bind answered = some pair →
    state.lookups id = some user → user.active = true

def FoundDisabled (state : State) (id : ℕ) : Prop :=
  ∃ user, state.lookups id = some user ∧ user.active = false

/-! ## What decides about a call from outside -/

/-- The database holds a disabled user where the call looks its user up; the call is
a refresh; Redis takes the session of the call; the release of its lock is
answered. -/
inductive Mark
  | disabled (id : ℕ)
  | refreshes (id : ℕ)
  | acknowledged (id : ℕ)
  | released (id : ℕ)
  deriving DecidableEq

def Mark.call : Mark → ℕ
  | .disabled id | .refreshes id | .acknowledged id | .released id => id

/-- The password is the one of the document. -/
def fits (verify : String → String → Bool) (password : String)
    (document : UserDocument) : Bool :=
  (document.providers.head?.bind AuthProviders.hash).any (verify password)

def marks (verify : String → String → Bool) (state : State) : Event → List Mark
  | .update _ => []
  | .login id username password _ =>
      if ((findOneByUsernameAndProvider state.users username .local).filter
          (fits verify password)).any (!·.active) then [.disabled id] else []
  | .findOneById id none =>
      match state.auth.calls id with
      | some (.refresh payload _ _) =>
          if (state.users.find? fun user => user.id = payload.sub).any
            (!·.active) then [.disabled id] else []
      | _ => []
  | .findOneById _ (some _) => []
  | .auth (.refresh id _ _) => [.refreshes id]
  | .auth (.exec id _ .ok) => [.acknowledged id]
  | .auth (.release id _) => [.released id]
  | .auth _ => []

theorem validate_eq (users : List UserDocument) (username password : String) :
    validate verify users username password =
      ((findOneByUsernameAndProvider users username .local).filter
        (fits verify password)).map UserDocument.toUser := by
  rw [validate, Credentials.validatePassword]
  cases findOneByUsernameAndProvider users username .local with
  | none => rfl
  | some document =>
      simp only [Option.bind_eq_bind, Option.bind_some, Option.filter_some, fits]
      obtain hprovider | ⟨provider, hprovider⟩ :=
        document.providers.head?.eq_none_or_eq_some
      · simp [hprovider]
      · cases hhash : provider.hash with
        | none => simp [hprovider, hhash]
        | some passwordHash =>
            by_cases hverify : verify password passwordHash <;>
              simp [hprovider, hhash, hverify]

/-- A login looks up the user that the guard lets through. -/
theorem mem_marks_login {username password deviceId : String} {mark : Mark} :
    mark ∈ marks verify state (.login id username password deviceId) ↔
      mark = .disabled id ∧ ∃ user,
        validate verify state.users username password = some user ∧
          user.active = false := by
  rw [validate_eq]
  cases hdocument : (findOneByUsernameAndProvider state.users username .local).filter
    (fits verify password) with
  | none => simp [marks, hdocument]
  | some document => cases hactive : document.active <;> simp [marks, hdocument, hactive]

/-- A refresh looks up the user of its token. -/
theorem mem_marks_findOneById {payload : JwtPayload} {lockValue : String}
    {phase : Auth.RefreshPhase} {mark : Mark}
    (hcall : state.auth.calls id = some (.refresh payload lockValue phase)) :
    mark ∈ marks verify state (.findOneById id none) ↔
      mark = .disabled id ∧ ∃ user,
        Credentials.findOneById state.users payload.sub = some user ∧
          user.active = false := by
  simp only [marks, hcall, Credentials.findOneById]
  cases hdocument : state.users.find? (fun user => user.id = payload.sub) with
  | none => simp
  | some document => cases hactive : document.active <;> simp [hactive]

/-- The call looks up no disabled user, or Redis does not take its session, or it
is a refresh that never gets to the end of its lock. -/
def Spared (history : List Mark) (id : ℕ) : Prop :=
  .disabled id ∈ history → .acknowledged id ∉ history ∨
    (.refreshes id ∈ history ∧ .released id ∉ history)

/-! ## Steps of other calls -/

def Event.call : Event → Option ℕ
  | .update _ => none
  | .login id _ _ _ | .findOneById id _ => some id
  | .auth event => event.call

theorem call_of_mem_marks {mark : Mark} (hmem : mark ∈ marks verify state event) :
    event.call = some mark.call := by
  cases event with
  | update users => cases hmem
  | login id username password deviceId =>
      simp only [marks] at hmem
      split at hmem
      · rw [List.mem_singleton.mp hmem]
        rfl
      · cases hmem
  | findOneById id failure =>
      cases failure with
      | some error => cases hmem
      | none =>
          simp only [marks] at hmem
          split at hmem
          · split at hmem
            · rw [List.mem_singleton.mp hmem]
              rfl
            · cases hmem
          · cases hmem
  | auth event =>
      cases event with
      | refresh id text lockValue =>
          rw [List.mem_singleton.mp hmem]
          rfl
      | release id reply =>
          rw [List.mem_singleton.mp hmem]
          rfl
      | exec id jitter reply =>
          cases reply with
          | ok =>
              rw [List.mem_singleton.mp hmem]
              rfl
          | failed => cases hmem
          | lost => cases hmem
      | _ => cases hmem

theorem mem_marks_of_call_ne {mark : Mark} {history : List Mark}
    (hne : event.call ≠ some mark.call) :
    mark ∈ history ++ marks verify state event ↔ mark ∈ history := by
  rw [List.mem_append]
  exact or_iff_left fun hmem => hne (call_of_mem_marks hmem)

/-- A step leaves the other calls alone, and the users that they have been given. -/
theorem step_of_call_ne (hstep : step verify config state event = some next)
    (hne : event.call ≠ some id) :
    next.auth.calls id = state.auth.calls id ∧ next.lookups id = state.lookups id := by
  have hgiven : ∀ {other : ℕ} {user : Option User} {authEvent : Auth.Event}
      {auth : Auth.State}, some other ≠ some id → authEvent.call = some other →
        Auth.step config state.auth authEvent = some auth →
          (state.given other user auth).auth.calls id = state.auth.calls id ∧
            (state.given other user auth).lookups id = state.lookups id := by
    intro other user authEvent auth hother hcall hauth
    refine ⟨Auth.calls_of_call_ne hauth (hcall ▸ hother), ?_⟩
    exact Function.update_of_ne (fun heq => hother (congrArg some heq.symm)) _ _
  cases event with
  | update users =>
      obtain rfl : _ = next := by simpa [step] using hstep
      exact ⟨rfl, rfl⟩
  | login other username password deviceId =>
      simp only [step] at hstep
      split at hstep
      · obtain ⟨auth, hauth, rfl⟩ := Option.map_eq_some_iff.mp hstep
        exact hgiven hne rfl hauth
      · obtain rfl : state = next := by simpa using hstep
        exact ⟨rfl, rfl⟩
  | findOneById other failure =>
      simp only [step] at hstep
      split at hstep
      · cases failure with
        | some error =>
            obtain ⟨auth, hauth, rfl⟩ := Option.map_eq_some_iff.mp hstep
            exact hgiven hne rfl hauth
        | none =>
            obtain ⟨auth, hauth, rfl⟩ := Option.map_eq_some_iff.mp hstep
            exact hgiven hne rfl hauth
      · cases hstep
  | auth event =>
      obtain ⟨-, auth, hauth, rfl⟩ : looksUp event = false ∧ ∃ auth,
          Auth.step config state.auth event = some auth ∧
            { state with auth := auth } = next := by
        simpa [step] using hstep
      exact ⟨Auth.calls_of_call_ne hauth hne, rfl⟩

/-! ## What the marks of a call tell -/

/-- What has been marked of a call that stands here. -/
def Tale (refreshes acknowledged released : Prop) : Option Call → Prop
  | some (.login _ (.finished (.ok _))) => ¬ refreshes ∧ acknowledged
  | some (.login _ _) => ¬ refreshes ∧ ¬ acknowledged
  | some (.refresh _ _ (.release (.ok _))) =>
      refreshes ∧ acknowledged ∧ ¬ released
  | some (.refresh _ _ (.finished (.ok _))) => acknowledged ∧ released
  | some (.refresh _ _ (.finished (.error _))) => ¬ acknowledged
  | some (.refresh _ _ .crashed) => refreshes ∧ ¬ released
  | some (.refresh _ _ _) => refreshes ∧ ¬ acknowledged ∧ ¬ released
  | some (.refused _) | some (.logout _ _ _) => ¬ acknowledged
  | none => ¬ refreshes ∧ ¬ acknowledged ∧ ¬ released

/-- The calls that have not looked their user up yet. -/
def Unlooked : Option Call → Prop
  | none => True
  | some (.refresh _ _ .acquire) | some (.refresh _ _ .read)
  | some (.refresh _ _ (.lookup _)) => True
  | _ => False

structure Told (history : List Mark) (state : State) (id : ℕ) : Prop where
  disabled : .disabled id ∈ history ↔ FoundDisabled state id
  unlooked : Unlooked (state.auth.calls id) → state.lookups id = none
  tale : Tale (.refreshes id ∈ history) (.acknowledged id ∈ history)
    (.released id ∈ history) (state.auth.calls id)

/-- A call has answered with tokens exactly if Redis has taken its session and, for a
refresh, its lock has been released. -/
theorem Tale.answered_iff {refreshes acknowledged released : Prop} {call : Option Call}
    (htale : Tale refreshes acknowledged released call) :
    (call.bind answered).isSome ↔ acknowledged ∧ (refreshes → released) := by
  unfold Tale at htale
  split at htale <;> simp_all [answered]

theorem tale_afterSetnx {refreshes acknowledged released : Prop} {payload : JwtPayload}
    {lockValue : String} (reply : Reply) (isLockAcquired : Bool)
    (htale : refreshes ∧ ¬ acknowledged ∧ ¬ released) :
    Tale refreshes acknowledged released
      (some (.refresh payload lockValue (Auth.afterSetnx reply isLockAcquired))) := by
  unfold Auth.afterSetnx
  split
  · split
    · exact htale
    · exact htale.2.1
  · exact htale.2.1

theorem tale_afterHget {refreshes acknowledged released : Prop}
    (payload : JwtPayload) (lockValue : String) (text : Option Auth.SessionText)
    (htale : refreshes ∧ ¬ acknowledged ∧ ¬ released) :
    Tale refreshes acknowledged released
      (some (.refresh payload lockValue (Auth.afterHget payload text))) := by
  unfold Auth.afterHget
  split
  · exact htale
  · exact htale
  · exact htale
  · split <;> exact htale

theorem tale_afterLookup {refreshes acknowledged released : Prop}
    (payload : JwtPayload) (lockValue : String) (storage : Auth.TokenStorage)
    (answer : UserAnswer) (htale : refreshes ∧ ¬ acknowledged ∧ ¬ released) :
    Tale refreshes acknowledged released
      (some (.refresh payload lockValue (Auth.afterLookup storage answer))) := by
  cases answer <;> exact htale

theorem tale_crash {refreshes acknowledged released : Prop} {call : Call}
    (hpending : call.pending = true)
    (htale : Tale refreshes acknowledged released (some call)) :
    Tale refreshes acknowledged released (some call.crash) := by
  cases call with
  | login user phase =>
      cases phase with
      | finished result => cases hpending
      | _ => exact htale
  | refresh payload lockValue phase =>
      cases phase with
      | finished result => cases hpending
      | release result => cases result <;> simp_all [Tale, Call.crash]
      | crashed => cases hpending
      | _ => exact ⟨htale.1, htale.2.2⟩
  | refused error => exact htale
  | logout userId deviceId phase => exact htale

namespace Told

variable {history : List Mark}

theorem initial (users : List UserDocument) (id : ℕ) : Told [] (.initial users) id where
  disabled := by simp [FoundDisabled, State.initial]
  unlooked _ := rfl
  tale := by simp [State.initial, Auth.State.initial, Tale]

theorem of_call_ne (htold : Told history state id)
    (hstep : step verify config state event = some next)
    (hne : event.call ≠ some id) :
    Told (history ++ marks verify state event) next id := by
  obtain ⟨hcalls, hlookups⟩ := step_of_call_ne hstep hne
  have hmark : ∀ mark : Mark, mark.call = id →
      (mark ∈ history ++ marks verify state event ↔ mark ∈ history) :=
    fun mark hcall => mem_marks_of_call_ne (hcall ▸ hne)
  refine ⟨?_, ?_, ?_⟩
  · rw [hmark _ rfl, htold.disabled, FoundDisabled, FoundDisabled, hlookups]
  · rw [hcalls, hlookups]
    exact htold.unlooked
  · rw [hmark _ rfl, hmark _ rfl, hmark _ rfl, hcalls]
    exact htold.tale

theorem disabled_not_mem_marks_auth {authEvent : Auth.Event} {id : ℕ} :
    .disabled id ∉ marks verify state (.auth authEvent) := by
  cases authEvent with
  | exec id jitter reply => cases reply <;> simp [marks]
  | _ => simp [marks]

/-- The call has moved on without a lookup. -/
theorem of_move (htold : Told history state id) {auth : Auth.State} {added : List Mark}
    {call : Call} (hcall : auth.calls id = some call)
    (hdisabled : .disabled id ∉ added)
    (hunlooked : Unlooked (some call) → Unlooked (state.auth.calls id))
    (htale : Tale (.refreshes id ∈ history ++ added) (.acknowledged id ∈ history ++ added)
      (.released id ∈ history ++ added) (some call)) :
    Told (history ++ added) { state with auth := auth } id := by
  refine ⟨?_, fun hlater => ?_, by rwa [hcall]⟩
  · rw [List.mem_append, or_iff_left hdisabled]
    exact htold.disabled
  · rw [hcall] at hlater
    exact htold.unlooked (hunlooked hlater)

/-- A step of the call that looks up nobody. -/
theorem of_auth (htold : Told history state id) {authEvent : Auth.Event}
    {auth : Auth.State} (hlooks : looksUp authEvent = false)
    (hauth : Auth.step config state.auth authEvent = some auth)
    (hcall : authEvent.call = some id) :
    Told (history ++ marks verify state (.auth authEvent))
      { state with auth := auth } id := by
  have htale := htold.tale
  have hdisabled : .disabled id ∉ marks verify state (.auth authEvent) :=
    disabled_not_mem_marks_auth
  cases Auth.step_effect hauth with
  | tick ms => cases hcall
  | login id user hnone => cases hlooks
  | lookup id answer payload lockValue storage hold => cases hlooks
  | refresh id' text lockValue payload hnone hverify =>
      obtain rfl : id' = id := Option.some.inj hcall
      rw [hnone] at htale
      refine htold.of_move (Auth.calls_setCall_self _ _ _) hdisabled
        (fun _ => hnone ▸ trivial) ?_
      simp_all [marks, Tale]
  | refuse id' text lockValue hnone =>
      obtain rfl : id' = id := Option.some.inj hcall
      rw [hnone] at htale
      refine htold.of_move (Auth.calls_setCall_self _ _ _) hdisabled
        (fun _ => hnone ▸ trivial) ?_
      simp_all [marks, Tale]
  | setnx id' reply payload lockValue hold =>
      obtain rfl : id' = id := Option.some.inj hcall
      rw [hold] at htale
      refine htold.of_move (Auth.calls_setCall_self _ _ _) hdisabled
        (fun _ => hold ▸ trivial) ?_
      simp only [marks, List.append_nil]
      exact tale_afterSetnx _ _ htale
  | read id' reply payload lockValue hold =>
      obtain rfl : id' = id := Option.some.inj hcall
      rw [hold] at htale
      refine htold.of_move (Auth.calls_setCall_self _ _ _) hdisabled
        (fun _ => hold ▸ trivial) ?_
      simp only [marks, List.append_nil]
      split
      · exact tale_afterHget _ _ _ htale
      · exact htale
  | storeLogin id' jitter reply user pair lastActive hold =>
      obtain rfl : id' = id := Option.some.inj hcall
      rw [hold] at htale
      refine htold.of_move (Auth.calls_setCall_self _ _ _) hdisabled
        (fun hlater => hlater.elim) ?_
      cases reply <;> simp_all [marks, Tale]
  | store id' jitter reply payload lockValue storage pair lastActive hold =>
      obtain rfl : id' = id := Option.some.inj hcall
      rw [hold] at htale
      refine htold.of_move (Auth.calls_setCall_self _ _ _) hdisabled
        (fun hlater => hlater.elim) ?_
      cases reply <;> simp_all [marks, Tale]
  | release id' reply payload lockValue result hold =>
      obtain rfl : id' = id := Option.some.inj hcall
      rw [hold] at htale
      refine htold.of_move (Auth.calls_setCall_self _ _ _) hdisabled
        (fun hlater => hlater.elim) ?_
      cases result <;> simp_all [marks, Tale]
  | crash id' call hold hpending =>
      obtain rfl : id' = id := Option.some.inj hcall
      rw [hold] at htale
      refine htold.of_move (Auth.calls_setCall_self _ _ _) hdisabled
        (fun hlater => ?_) ?_
      · cases call <;> exact hlater.elim
      · simp only [marks, List.append_nil]
        exact tale_crash hpending htale
  | _ =>
      obtain rfl := Option.some.inj hcall
      refine htold.of_move (Auth.calls_setCall_self _ _ _) hdisabled
        (fun hlater => hlater.elim) ?_
      simp_all [marks, Tale]

/-- The call is given the user that its lookup has found. -/
theorem of_given (htold : Told history state id) {user : Option User} {auth : Auth.State}
    {added : List Mark} {call : Call} (hbefore : Unlooked (state.auth.calls id))
    (hcall : auth.calls id = some call)
    (hlooked : Unlooked (some call) → user = none)
    (hfound : .disabled id ∈ added ↔ ∃ found, user = some found ∧ found.active = false)
    (htale : Tale (.refreshes id ∈ history) (.acknowledged id ∈ history)
      (.released id ∈ history) (some call))
    (hothers : ∀ mark ∈ added, mark = .disabled id) :
    Told (history ++ added) (state.given id user auth) id := by
  have hlookup : (state.given id user auth).lookups id = user := Function.update_self _ _ _
  have hnothing : .disabled id ∉ history := by
    rw [htold.disabled, FoundDisabled, htold.unlooked hbefore]
    simp
  have hmark : ∀ mark : Mark, mark ≠ .disabled id →
      (mark ∈ history ++ added ↔ mark ∈ history) := fun mark hne => by
    rw [List.mem_append]
    exact or_iff_left fun hmem => hne (hothers mark hmem)
  refine ⟨?_, fun hlater => ?_, ?_⟩
  · rw [List.mem_append, or_iff_right hnothing, hfound, FoundDisabled, hlookup]
  · rw [hlookup]
    exact hlooked (hcall ▸ hlater)
  · rw [hmark _ (by simp), hmark _ (by simp), hmark _ (by simp)]
    exact hcall ▸ htale

/-- A refresh is answered by the user service. -/
theorem of_lookup (htold : Told history state id) {payload : JwtPayload}
    {lockValue : String} {storage : Auth.TokenStorage} {answer : UserAnswer}
    {user : Option User} {auth : Auth.State} {added : List Mark}
    (hcall : state.auth.calls id = some (.refresh payload lockValue (.lookup storage)))
    (hauth : Auth.step config state.auth (.findOneById id answer) = some auth)
    (hanswer : ∀ found, user = some found → answer = .found found.username)
    (hfound : .disabled id ∈ added ↔ ∃ found, user = some found ∧ found.active = false)
    (hothers : ∀ mark ∈ added, mark = .disabled id) :
    Told (history ++ added) (state.given id user auth) id := by
  have htale := htold.tale
  rw [hcall] at htale
  cases Auth.step_effect hauth with
  | lookup id answer payload lockValue storage hold =>
      refine htold.of_given (hcall ▸ trivial) (Auth.calls_setCall_self _ _ _)
        (fun hlater => ?_) hfound (tale_afterLookup _ _ _ _ htale) hothers
      cases user with
      | none => rfl
      | some found =>
          rw [hanswer found rfl] at hlater
          exact hlater.elim

theorem of_step (htold : Told history state id)
    (hstep : step verify config state event = some next) :
    Told (history ++ marks verify state event) next id := by
  by_cases hown : event.call = some id
  swap
  · exact htold.of_call_ne hstep hown
  cases event with
  | update users => cases hown
  | login id' username password deviceId =>
      obtain rfl : id' = id := Option.some.inj hown
      simp only [step] at hstep
      split at hstep
      · rename_i user huser
        obtain ⟨auth, hauth, rfl⟩ := Option.map_eq_some_iff.mp hstep
        cases Auth.step_effect hauth with
        | login id'' user' hnone =>
            have htale := htold.tale
            rw [hnone] at htale
            refine htold.of_given (by rw [hnone]; trivial) (Auth.calls_setCall_self _ _ _)
              (fun hlater => hlater.elim) ?_ ⟨htale.1, htale.2.1⟩
              fun mark hmem => (mem_marks_login.mp hmem).1
            simp [mem_marks_login, huser]
      · rename_i huser
        obtain rfl : state = next := by simpa using hstep
        have hnothing : marks verify state (.login id' username password deviceId) = [] :=
          List.eq_nil_iff_forall_not_mem.mpr fun mark hmem => by
            simp [mem_marks_login, huser] at hmem
        rw [hnothing, List.append_nil]
        exact htold
  | findOneById id' failure =>
      obtain rfl : id' = id := Option.some.inj hown
      simp only [step] at hstep
      split at hstep
      · rename_i payload lockValue storage hcall
        cases failure with
        | some error =>
            obtain ⟨auth, hauth, rfl⟩ := Option.map_eq_some_iff.mp hstep
            exact htold.of_lookup hcall hauth (by simp) (by simp [marks]) (by simp [marks])
        | none =>
            obtain ⟨auth, hauth, rfl⟩ := Option.map_eq_some_iff.mp hstep
            refine htold.of_lookup hcall hauth ?_ ?_ ?_
            · rintro found hfound
              rw [hfound]
              rfl
            · simp [mem_marks_findOneById hcall]
            · exact fun mark hmem => ((mem_marks_findOneById hcall).mp hmem).1
      · cases hstep
  | auth authEvent =>
      obtain ⟨hlooks, auth, hauth, rfl⟩ : looksUp authEvent = false ∧ ∃ auth,
          Auth.step config state.auth authEvent = some auth ∧
            { state with auth := auth } = next := by
        simpa [step] using hstep
      exact htold.of_auth hlooks hauth hown

end Told

/-! ## Tokens that have been handed out stay so -/

theorem not_pending_of_answered {call : Call} {pair : TokenPair}
    (hpair : answered call = some pair) : call.pending = false := by
  unfold answered at hpair
  split at hpair
  · rfl
  · rfl
  · cases hpair

theorem answered_of_step {pair : TokenPair}
    (hstep : step verify config state event = some next)
    (hpair : (state.auth.calls id).bind answered = some pair) :
    (next.auth.calls id).bind answered = some pair ∧
      next.lookups id = state.lookups id := by
  by_cases hown : event.call = some id
  swap
  · obtain ⟨hcalls, hlookups⟩ := step_of_call_ne hstep hown
    exact ⟨by rw [hcalls, hpair], hlookups⟩
  cases event with
  | update users => cases hown
  | login id' username password deviceId =>
      obtain rfl : id' = id := Option.some.inj hown
      simp only [step] at hstep
      split at hstep
      · obtain ⟨auth, hauth, rfl⟩ := Option.map_eq_some_iff.mp hstep
        cases Auth.step_effect hauth with
        | login id'' user hnone => simp [hnone] at hpair
      · obtain rfl : state = next := by simpa using hstep
        exact ⟨hpair, rfl⟩
  | findOneById id' failure =>
      obtain rfl : id' = id := Option.some.inj hown
      simp only [step] at hstep
      split at hstep
      · rename_i payload lockValue storage hcall
        simp [hcall, answered] at hpair
      · cases hstep
  | auth authEvent =>
      obtain ⟨-, auth, hauth, rfl⟩ : looksUp authEvent = false ∧ ∃ auth,
          Auth.step config state.auth authEvent = some auth ∧
            { state with auth := auth } = next := by
        simpa [step] using hstep
      refine ⟨?_, rfl⟩
      cases Auth.step_effect hauth with
      | tick ms => cases hown
      | crash id' call hcall hpending =>
          obtain rfl : id' = id := Option.some.inj hown
          rw [hcall] at hpair
          exact absurd hpending (by simp [not_pending_of_answered hpair])
      | _ =>
          obtain rfl := Option.some.inj hown
          simp_all [answered]

theorem NoTokens.of_next (hstep : step verify config state event = some next)
    (hnone : NoTokens next) : NoTokens state := by
  intro id pair user hpair huser
  obtain ⟨hnext, hlookup⟩ := answered_of_step hstep hpair
  exact hnone id pair user hnext (hlookup.trans huser)

theorem noTokens_iff_spared {history : List Mark} (htold : ∀ id, Told history state id) :
    NoTokens state ↔ ∀ id, Spared history id := by
  constructor
  · intro hnone id hdisabled
    obtain ⟨user, huser, hactive⟩ := (htold id).disabled.mp hdisabled
    by_contra hends
    have hanswered : ((state.auth.calls id).bind answered).isSome := by
      rw [(htold id).tale.answered_iff]
      tauto
    obtain ⟨pair, hpair⟩ := Option.isSome_iff_exists.mp hanswered
    rw [hnone id pair user hpair huser] at hactive
    cases hactive
  · intro hspared id pair user hpair huser
    obtain ⟨hacknowledged, hreleased⟩ :=
      (htold id).tale.answered_iff.mp (Option.isSome_iff_exists.mpr ⟨pair, hpair⟩)
    by_contra hactive
    have hdisabled := (htold id).disabled.mpr ⟨user, huser, by simpa using hactive⟩
    obtain hnot | ⟨hrefreshes, hnot⟩ := hspared id hdisabled
    · exact hnot hacknowledged
    · exact hnot (hreleased hrefreshes)

/-- Disabled users get no tokens exactly as long as no call looks a disabled user up and
then has its session taken by Redis, and a refresh also its lock released. -/
theorem noTokens_iff (users : List UserDocument) {events : List Event}
    {final : State}
    (hrun : run (step verify config) (.initial users) events = some final) :
    (∀ first, first <+: events → ∀ middle,
        run (step verify config) (.initial users) first = some middle →
          NoTokens middle) ↔
      ∀ id, Spared (trace (step verify config) (marks verify) (.initial users) events)
        id := by
  have htold := trace_invariant (fun state history => ∀ id, Told history state id)
    (fun _ _ _ _ htold _ hstep id => (htold id).of_step hstep)
    (Told.initial users) (guarded_true _ _) hrun
  rw [always_iff_final NoTokens (fun _ _ _ hstep hnone => hnone.of_next hstep) hrun]
  exact noTokens_iff_spared htold

/-- A stand-in for argon2 that knows one password. -/
def verifySecret (plain hash : String) : Bool :=
  plain == "secret" && hash == "argon2id:secret"

def alice (active : Bool) : UserDocument where
  id := "u1"
  username := "alice"
  active := active
  providers := [⟨.local, "alice", some "argon2id:secret"⟩]

def loginAlice (id : ℕ) (accessJti refreshJti : String) : List Event :=
  [.login id "alice" "secret" "phone",
    .auth (.sign id (some (accessJti, refreshJti))), .auth (.exec id 0 .ok)]

/-- Alice logs in, is disabled, refreshes her tokens and logs in again. -/
def disableAlice : List Event :=
  loginAlice 0 "a1" "r1" ++ [.update [alice false]] ++
    (Auth.checkEvents 1 Auth.firstToken "lock").map .auth ++
    [.findOneById 1 none, .auth (.sign 1 (some ("a2", "r2"))),
      .auth (.exec 1 0 .ok), .auth (.release 1 .ok)] ++
    loginAlice 2 "a3" "r3"

/-- Both the refresh and the second login are given the disabled user, and both
answer with tokens. -/
theorem not_noTokens_of_disableAlice :
    ∃ final, run (step verifySecret .default) (.initial [alice true])
        disableAlice = some final ∧
      (∀ id ∈ [1, 2], FoundDisabled final id ∧
        ((final.auth.calls id).bind answered).isSome) ∧
      ¬ NoTokens final := by
  obtain ⟨final, hrun, hfacts⟩ := Option.map_eq_some_iff.mp
    (show (run (step verifySecret .default) (.initial [alice true])
        disableAlice).map (fun state => [1, 2].map fun id =>
          (state.lookups id, ((state.auth.calls id).bind answered).isSome)) =
      some [(some (alice false).toUser, true), (some (alice false).toUser, true)]
      by decide)
  simp only [List.map_cons, List.map_nil, List.cons.injEq, Prod.mk.injEq,
    and_true] at hfacts
  obtain ⟨⟨hrefresh, hpair⟩, hlogin, hpair'⟩ := hfacts
  refine ⟨final, hrun, ?_, fun hnone => ?_⟩
  · simp only [List.mem_cons, List.not_mem_nil, or_false]
    rintro id (rfl | rfl)
    · exact ⟨⟨_, hrefresh, rfl⟩, hpair⟩
    · exact ⟨⟨_, hlogin, rfl⟩, hpair'⟩
  · obtain ⟨pair, hpair⟩ := Option.isSome_iff_exists.mp hpair
    exact absurd (hnone 1 pair _ hpair hrefresh) (by decide)

theorem noTokens_iff_of_disableAlice :
    ∃ final, run (step verifySecret .default) (.initial [alice true])
        disableAlice = some final ∧
      ((∀ first, first <+: disableAlice → ∀ middle,
          run (step verifySecret .default) (.initial [alice true]) first =
            some middle → NoTokens middle) ↔
        ∀ id, Spared (trace (step verifySecret .default) (marks verifySecret)
          (.initial [alice true]) disableAlice) id) := by
  obtain ⟨final, hrun⟩ := Option.isSome_iff_exists.mp
    (show (run (step verifySecret .default) (.initial [alice true])
      disableAlice).isSome by decide)
  exact ⟨final, hrun, noTokens_iff [alice true] hrun⟩

end OceanChat.DisabledUsers
