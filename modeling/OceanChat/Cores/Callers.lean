import OceanChat.Cores.Idempotency

/-!
# Callers that share a key

The entry of a request is found by the header that its client has chosen,
whoever sends it and whichever handler it goes to.  This module compares the
answer to a request with the answer that it gets when an earlier request has
not been made.
-/

namespace OceanChat.Idempotency

open Runs

/-- A request of a client with the user it is authenticated as and the handler
it goes to.  The interceptor reads neither. -/
structure Incoming extends Request where
  user : Option String
  handler : String
  body : String
  deriving DecidableEq

/-- What a request meets while it is handled: the time before each of its steps
and the reply to each of its commands. -/
structure Environment where
  delay : Phase → ℕ
  reply : Phase → Reply
  jitter : Fin defaultJitter

/-- The event that ends a phase of a request whose handler gives `result`. -/
def awaited (environment : Environment) (result : HandlerResult) (id : ℕ)
    (phase : Phase) : Option Event :=
  match phase with
  | .passing | .handling => some (.handle id result)
  | .acquiring => some (.setnx id (environment.reply phase))
  | .reading => some (.get id (environment.reply phase))
  | .caching _ _ =>
      some (.set id environment.jitter (environment.reply phase))
  | .clearing _ _ | .recovering _ => some (.del id (environment.reply phase))
  | .finished _ | .crashed => none

/-- Handle a request for a number of steps and read its answer. -/
def serve (environment : Environment) (result : HandlerResult) (id : ℕ) :
    ℕ → State → Option Answer
  | 0, state =>
      match state.requests id with
      | some ⟨_, .finished answer⟩ => some answer
      | _ => none
  | steps + 1, state =>
      match state.requests id with
      | some ⟨_, .finished answer⟩ => some answer
      | some ⟨_, phase⟩ =>
          (awaited environment result id phase).bind fun event =>
            (run step state [.tick (environment.delay phase), event]).bind
              (serve environment result id steps)
      | none => none

/-- The answer to a request that comes now; a request has at most four steps. -/
def respond (environment : Environment) (result : HandlerResult) (id : ℕ)
    (request : Request) (state : State) : Option Answer :=
  (step state (.request id request)).bind (serve environment result id 4)

/-- The answer that a handler gives. -/
def HandlerResult.answer : HandlerResult → Answer
  | .responded statusCode body => .responded statusCode body
  | .threw => .handlerThrew

/-- The answer to a request that has run its handler under an entry of its own. -/
def settled (environment : Environment) (result : HandlerResult) : Answer :=
  if environment.reply (afterHandler result) = .ok then result.answer
  else .commandThrew

section Serve

variable {environment : Environment} {result : HandlerResult} {id steps : ℕ}
variable {state : State} {request : Request} {key : String}

theorem serve_finished {answer : Answer}
    (hrequest : state.requests id = some ⟨request, .finished answer⟩) :
    serve environment result id steps state = some answer := by
  cases steps <;> simp [serve, hrequest]

theorem serve_recovering {answer : Answer} (hkey : request.redisKey = some key)
    (hrequest : state.requests id = some ⟨request, .recovering answer⟩) :
    serve environment result id (steps + 1) state =
      some (if environment.reply (.recovering answer) = .ok then answer
        else .commandThrew) := by
  rw [serve]
  simp only [hrequest, awaited, Option.bind_some, run, step, hkey,
    Option.map_some]
  exact serve_finished (State.requests_setPhase_same ..)

/-- An error is answered even if the cleanup fails as well. -/
theorem serve_recovering_commandThrew (hkey : request.redisKey = some key)
    (hrequest : state.requests id = some ⟨request, .recovering .commandThrew⟩) :
    serve environment result id (steps + 1) state = some .commandThrew := by
  rw [serve_recovering hkey hrequest, ite_self]

theorem serve_clearing {statusCode : ℕ} {body : String}
    (hkey : request.redisKey = some key)
    (hrequest : state.requests id =
      some ⟨request, .clearing statusCode body⟩) :
    serve environment result id (steps + 2) state =
      some (if environment.reply (.clearing statusCode body) = .ok then
        .responded statusCode body else .commandThrew) := by
  by_cases hreply : environment.reply (.clearing statusCode body) = .ok
  · rw [serve]
    simp only [hrequest, awaited, Option.bind_some, run, step, hkey,
      Option.map_some, hreply, if_true]
    exact serve_finished (State.requests_setPhase_same ..)
  · rw [serve]
    simp only [hrequest, awaited, Option.bind_some, run, step, hkey,
      Option.map_some, hreply, if_false]
    exact serve_recovering_commandThrew hkey (State.requests_setPhase_same ..)

theorem serve_caching {statusCode : ℕ} {body : String}
    (hkey : request.redisKey = some key)
    (hrequest : state.requests id = some ⟨request, .caching statusCode body⟩) :
    serve environment result id (steps + 2) state =
      some (if environment.reply (.caching statusCode body) = .ok then
        .responded statusCode body else .commandThrew) := by
  by_cases hreply : environment.reply (.caching statusCode body) = .ok
  · rw [serve]
    simp only [hrequest, awaited, Option.bind_some, run, step, hkey,
      Option.map_some, environment.jitter.isLt, hreply, if_true]
    exact serve_finished (State.requests_setPhase_same ..)
  · rw [serve]
    simp only [hrequest, awaited, Option.bind_some, run, step, hkey,
      Option.map_some, environment.jitter.isLt, hreply, if_true, if_false]
    exact serve_recovering_commandThrew hkey (State.requests_setPhase_same ..)

theorem serve_handling (hkey : request.redisKey = some key)
    (hrequest : state.requests id = some ⟨request, .handling⟩) :
    serve environment result id (steps + 3) state =
      some (settled environment result) := by
  rw [serve]
  simp only [hrequest, awaited, Option.bind_some, run, step]
  cases result with
  | threw => exact serve_recovering hkey (State.requests_setPhase_same ..)
  | responded statusCode body =>
      simp only [afterHandler, settled, HandlerResult.answer]
      split
      · exact serve_caching hkey (State.requests_setPhase_same ..)
      · exact serve_clearing hkey (State.requests_setPhase_same ..)

theorem serve_reading (hkey : request.redisKey = some key)
    (hrequest : state.requests id = some ⟨request, .reading⟩) :
    serve environment result id (steps + 1) state =
      some (if environment.reply .reading = .ok then
        answerFromCache (TtlStore.get (TtlStore.sweep state.redis
          (state.now + environment.delay .reading)) key)
      else .commandThrew) := by
  rw [serve]
  simp only [hrequest, awaited, Option.bind_some, run, step, hkey,
    Option.map_some]
  exact serve_finished (State.requests_setPhase_same ..)

end Serve

/-- The answer to a request that comes now, by what it finds when it tries to
create its entry. -/
theorem respond_eq {environment : Environment} {result : HandlerResult}
    {id : ℕ} {state : State} {request : Request} {key : String}
    (hnone : state.requests id = none) (hkey : request.redisKey = some key) :
    respond environment result id request state =
      some (if environment.reply .acquiring = .ok then
        match TtlStore.sweep state.redis
            (state.now + environment.delay .acquiring) key with
        | none => settled environment result
        | some _ =>
            if environment.reply .reading = .ok then
              answerFromCache (TtlStore.get (TtlStore.sweep state.redis
                (state.now + environment.delay .acquiring +
                  environment.delay .reading)) key)
            else .commandThrew
      else .commandThrew) := by
  simp only [respond, step, hnone, hkey, Option.isSome_some, if_true,
    Option.bind_some]
  rw [serve]
  simp only [State.requests_setPhase_same, awaited, Option.bind_some, run, step,
    hkey, Option.map_some]
  by_cases hreply : environment.reply .acquiring = .ok
  · simp only [hreply, if_true]
    cases hentry : TtlStore.sweep state.redis
        (state.now + environment.delay .acquiring) key with
    | none =>
        have hentry' : TtlStore.sweep (state.setPhase id request .acquiring).redis
            ((state.setPhase id request .acquiring).now +
              environment.delay .acquiring) key = none := hentry
        simp only [TtlStore.setnx_of_none hentry', if_true]
        exact serve_handling hkey (State.requests_setPhase_same ..)
    | some entry =>
        have hentry' : TtlStore.sweep (state.setPhase id request .acquiring).redis
            ((state.setPhase id request .acquiring).now +
              environment.delay .acquiring) key = some entry := hentry
        simp only [TtlStore.setnx_of_some hentry', Bool.false_eq_true, if_false]
        rw [serve_reading hkey (State.requests_setPhase_same ..)]
        simp only [State.setPhase, Reply.took, if_true]
        rw [TtlStore.sweep_sweep (by omega)]
  · simp only [hreply, if_false]
    exact serve_finished (State.requests_setPhase_same ..)

/-- Without a key of its own a request gets what its handler gives. -/
theorem respond_eq_of_passing {environment : Environment}
    {result : HandlerResult} {id : ℕ} {state : State} {request : Request}
    (hnone : state.requests id = none) (hkey : request.redisKey = none) :
    respond environment result id request state =
      some result.answer := by
  simp only [respond, step, hnone, hkey, Option.isSome_none, Bool.false_eq_true,
    if_false, Option.bind_some]
  rw [serve]
  simp only [State.requests_setPhase_same, awaited, Option.bind_some, run, step]
  exact serve_finished (State.requests_setPhase_same ..)

/-! ## What earlier requests leave -/

/-- Earlier requests leave the entry that would be there without them, or put
one where none would be, with which other requests are answered. -/
structure Leaves (baseline : Option (TtlStore.Entry Stored)) (view : View) :
    Prop where
  entry : view.entry = baseline ∨ baseline = none ∧
    ∃ entry, view.entry = some entry ∧ (entry.value = .processing ∨
      ∃ statusCode body, entry.value = .completed statusCode body ∧
        200 ≤ statusCode ∧ statusCode < 300)
  entered : ∀ id phase, view.phases id = some phase → phase.entered = true →
    baseline = none
  caching : ∀ id statusCode body,
    view.phases id = some (.caching statusCode body) →
      200 ≤ statusCode ∧ statusCode < 300

/-- What becomes of an entry when no request touches it. -/
def untouched (now : ℕ) (entry : Option (TtlStore.Entry Stored)) :
    Event → Option (TtlStore.Entry Stored)
  | .tick ms => entry.filter fun entry => !entry.due (now + ms)
  | _ => entry

namespace Leaves

variable {baseline : Option (TtlStore.Entry Stored)} {view next : View}
variable {now id : ℕ} {phase : Phase} {event : Event}

theorem move (hleaves : Leaves baseline view)
    {entry : Option (TtlStore.Entry Stored)}
    (hentry : entry = baseline ∨ baseline = none ∧
      ∃ stored, entry = some stored ∧ (stored.value = .processing ∨
        ∃ statusCode body, stored.value = .completed statusCode body ∧
          200 ≤ statusCode ∧ statusCode < 300))
    (hentered : phase.entered = true → baseline = none)
    (hcaching : ∀ statusCode body, phase = .caching statusCode body →
      200 ≤ statusCode ∧ statusCode < 300) :
    Leaves baseline (View.move { view with entry := entry } id phase) where
  entry := hentry
  entered other phase' hphase hin := by
    rcases phases_move hphase with ⟨-, rfl⟩ | ⟨-, hother⟩
    · exact hentered hin
    · exact hleaves.entered other phase' hother hin
  caching other statusCode body hphase := by
    rcases phases_move hphase with ⟨-, heq⟩ | ⟨-, hother⟩
    · exact hcaching statusCode body heq
    · exact hleaves.caching other statusCode body hother

theorem of_effect (hleaves : Leaves baseline view)
    (heffect : View.Effect now view event next) :
    Leaves (untouched now baseline event) next := by
  cases heffect with
  | unrelated event id htarget hnone =>
      have hsame : untouched now baseline event = baseline := by
        cases event with
        | tick => cases htarget
        | _ => rfl
      rw [hsame]
      exact hleaves
  | requested id request hnone =>
      exact hleaves.move hleaves.entry (by simp [Phase.entered]) (by simp)
  | acquired id reply hphase =>
      have hfree : view.entry = none → baseline = none := by
        intro hnone
        rcases hleaves.entry with hsame | ⟨hbaseline, -⟩
        · rw [← hsame, hnone]
        · exact hbaseline
      refine hleaves.move ?_ ?_ ?_
      · split
        · rename_i hwritten
          exact .inr ⟨hfree hwritten.2, _, rfl, .inl rfl⟩
        · exact hleaves.entry
      · split
        · split
          · rename_i hnone
            exact fun _ => hfree hnone
          · simp [Phase.entered]
        · simp [Phase.entered]
      · split
        · split <;> simp
        · simp
  | read id reply hphase =>
      exact hleaves.move hleaves.entry (by simp [Phase.entered]) (by simp)
  | passed id result answer hphase =>
      exact hleaves.move hleaves.entry (by simp [Phase.entered]) (by simp)
  | handled id result hphase =>
      refine hleaves.move hleaves.entry
        (fun _ => hleaves.entered id _ hphase rfl) fun statusCode body hcaching => ?_
      cases result with
      | threw => cases hcaching
      | responded statusCode' body' =>
          simp only [afterHandler] at hcaching
          split at hcaching
          · rename_i hcompleted
            cases hcaching
            exact hcompleted
          · cases hcaching
  | stored id jitter reply request statusCode body hphase =>
      have hbaseline := hleaves.entered id _ hphase rfl
      refine hleaves.move ?_ (fun _ => hbaseline) ?_
      · split
        · exact .inr ⟨hbaseline, _, rfl,
            .inr ⟨statusCode, body, rfl, hleaves.caching id _ _ hphase⟩⟩
        · exact hleaves.entry
      · split <;> simp
  | removed id reply before after hphase hcleanup =>
      obtain ⟨hentered, -, hcaching⟩ := phases_of_cleanup hcleanup
      have hbaseline : baseline = none := hleaves.entered id before hphase hentered
      refine hleaves.move ?_ (fun _ => hbaseline) fun statusCode body hafter =>
        absurd hafter (hcaching statusCode body)
      split
      · exact .inl hbaseline.symm
      · exact hleaves.entry
  | crashed id phase hphase =>
      exact hleaves.move hleaves.entry (by simp [Phase.entered]) (by simp)
  | ticked ms =>
      refine ⟨?_, fun id phase hphase hin => ?_, hleaves.caching⟩
      · rcases hleaves.entry with hsame | ⟨hbaseline, entry, hstored, hanswers⟩
        · left
          rw [← hsame]
          rfl
        · rw [untouched, hbaseline]
          cases hdue : entry.due (now + ms) with
          | true => exact .inl (by simp [hstored, hdue])
          | false => exact .inr ⟨rfl, entry, by simp [hstored, hdue], hanswers⟩
      · rw [untouched, hleaves.entered id phase hphase hin]
        rfl

end Leaves

section Baseline

variable {redis : Redis} {key : String} {state next final : State}
variable {events : List Event} {now : ℕ}

/-- The entry that would be there if no request had been made. -/
def State.baseline (state : State) (redis : Redis) (key : String) :
    Option (TtlStore.Entry Stored) :=
  TtlStore.sweep redis state.now key

theorem baseline_of_step {event : Event} (hstep : step state event = some next) :
    next.baseline redis key =
      untouched state.now (state.baseline redis key) event := by
  simp only [State.baseline, now_of_step hstep]
  cases event with
  | tick ms =>
      have hsweep : TtlStore.sweep redis (state.now + ms) key =
          TtlStore.sweep (TtlStore.sweep redis state.now) (state.now + ms) key := by
        rw [TtlStore.sweep_sweep (Nat.le_add_right _ _)]
      exact hsweep
  | _ => rfl

theorem leaves_of_run (key : String)
    (hrun : run step (State.initial now redis) events = some final) :
    Leaves (final.baseline redis key) (final.view key) := by
  refine run_invariant
    (fun state => Leaves (state.baseline redis key) (state.view key)) ?_ ?_ hrun
  · intro state event next hleaves hstep
    rw [baseline_of_step hstep]
    exact hleaves.of_effect (view_effect hstep)
  · exact ⟨.inl rfl, by simp [State.view, State.initial],
      by simp [State.view, State.initial]⟩

/-- The first request is the only one, and it has come. -/
structure Alone (first : Request) (state : State) : Prop where
  first : ∃ phase, state.requests 0 = some ⟨first, phase⟩
  others : ∀ id, id ≠ 0 → state.requests id = none

theorem Alone.of_step {first : Request} {event : Event}
    (halone : Alone first state)
    (hfirst : event.target = none ∨ event.target = some 0)
    (hstep : step state event = some next) : Alone first next where
  first := by
    obtain ⟨phase, hrequest⟩ := halone.first
    exact request_of_step hstep hrequest
  others id hid := by
    have hother : event.target ≠ some id := by
      rcases hfirst with hnone | hzero
      · simp [hnone]
      · simpa [hzero] using hid.symm
    rw [requests_of_step hstep hother]
    exact halone.others id hid

theorem Alone.phases_eq_none {first : Request} (halone : Alone first state)
    (hne : first.redisKey ≠ some key) (id : ℕ) :
    (state.view key).phases id = none := by
  by_cases hid : id = 0
  · obtain ⟨phase, hrequest⟩ := halone.first
    exact phases_of_ne (hid ▸ hrequest) hne
  · simp [State.view, halone.others id hid]

/-- Where no request has this key, its entry is untouched. -/
theorem View.Effect.entry_eq {view next : View} {now : ℕ} {event : Event}
    (heffect : View.Effect now view event next)
    (hnone : ∀ id, next.phases id = none) :
    next.entry = untouched now view.entry event := by
  have hmoved : ∀ {middle : View} {id : ℕ} {phase : Phase},
      (middle.move id phase).phases id ≠ none := by simp [View.move]
  cases heffect with
  | unrelated _ id htarget =>
      cases event with
      | tick => cases htarget
      | _ => rfl
  | ticked => rfl
  | requested => exact absurd (hnone _) hmoved
  | acquired => exact absurd (hnone _) hmoved
  | read => exact absurd (hnone _) hmoved
  | passed => exact absurd (hnone _) hmoved
  | handled => exact absurd (hnone _) hmoved
  | stored => exact absurd (hnone _) hmoved
  | removed => exact absurd (hnone _) hmoved
  | crashed => exact absurd (hnone _) hmoved

/-- After the first request the entry of every other key is untouched. -/
theorem alone_of_run {first : Request} (key : String)
    (hfirst : ∀ event ∈ events, event.target = none ∨ event.target = some 0)
    (hrun : run step (State.initial now redis) (.request 0 first :: events) =
      some final) :
    Alone first final ∧ (first.redisKey ≠ some key →
      final.redis key = final.baseline redis key) := by
  obtain ⟨arrived, harrived, hrun⟩ := run_cons_eq_some.mp hrun
  obtain rfl : (State.initial now redis).setPhase 0 first
      (if first.redisKey.isSome then .acquiring else .passing) = arrived := by
    simpa [step, State.initial] using harrived
  refine run_invariant_of_guarded (fun state => Alone first state ∧
    (first.redisKey ≠ some key → state.redis key = state.baseline redis key))
    ?_ ?_ (guarded_of_forall fun event hevent _ => hfirst event hevent) hrun
  · rintro state event next ⟨halone, hentry⟩ hguard hstep
    have halone' := halone.of_step hguard hstep
    refine ⟨halone', fun hne => ?_⟩
    rw [baseline_of_step hstep, ← hentry hne]
    exact (view_effect hstep).entry_eq (halone'.phases_eq_none hne)
  · refine ⟨⟨⟨_, State.requests_setPhase_same ..⟩, fun id hid => ?_⟩, fun _ => rfl⟩
    simp [State.setPhase, State.initial, hid]

end Baseline

/-! ## Two requests -/

/-- A request whose handler would give `result` finds no entry that would not
be there otherwise when it tries to create its own; or its first command fails;
or it reads the response that its own handler would give and that it could
cache; or its read fails, and so would its command after the handler. -/
def Unaffected (environment : Environment) (result : HandlerResult)
    (key : String) (state : State) (redis : Redis) : Prop :=
  ∀ entry,
    TtlStore.sweep state.redis (state.now + environment.delay .acquiring) key =
        some entry →
      TtlStore.sweep redis (state.now + environment.delay .acquiring) key =
          none →
        environment.reply .acquiring = .ok →
          (environment.reply .reading = .ok ↔
            environment.reply (afterHandler result) = .ok) ∧
          (environment.reply .reading = .ok →
            entry.due (state.now + environment.delay .acquiring +
                environment.delay .reading) = false ∧
              ∃ statusCode body, entry.value = .completed statusCode body ∧
                result = .responded statusCode body)

/-- An entry that would be there otherwise affects nobody. -/
theorem unaffected_of_same {environment : Environment} {result : HandlerResult}
    {key : String} {state : State} {redis : Redis}
    (hsame : state.redis key = redis key) :
    Unaffected environment result key state redis := by
  intro entry hstored hfree
  simp only [TtlStore.sweep, hsame] at hstored
  simp only [TtlStore.sweep, hstored] at hfree
  cases hfree

theorem settled_eq_answerFromCache_iff {environment : Environment}
    {result : HandlerResult} {entry : TtlStore.Entry Stored}
    (hanswers : entry.value = .processing ∨ ∃ statusCode body,
      entry.value = .completed statusCode body) (live : Bool) :
    settled environment result =
        answerFromCache (if live then some entry.value else none) ↔
      environment.reply (afterHandler result) = .ok ∧ live = true ∧
        ∃ statusCode body, entry.value = .completed statusCode body ∧
          result = .responded statusCode body := by
  have hconflict : settled environment result ≠ .conflict conflictException := by
    unfold settled
    cases result <;> split <;> simp [HandlerResult.answer]
  cases live with
  | false => simpa [answerFromCache] using hconflict
  | true =>
      rcases hanswers with hprocessing | ⟨statusCode, body, hcompleted⟩
      · simpa [hprocessing, answerFromCache] using hconflict
      · have hanswer : result.answer = .responded statusCode body ↔
            result = .responded statusCode body := by
          cases result <;> simp [HandlerResult.answer]
        by_cases hreply : environment.reply (afterHandler result) = .ok
        · simp only [settled, hreply, hcompleted, answerFromCache, if_true,
            hanswer, true_and]
          constructor
          · intro hresult
            exact ⟨statusCode, body, rfl, hresult⟩
          · rintro ⟨_, _, heq, hresult⟩
            cases heq
            exact hresult
        · simp [settled, hreply, hcompleted, answerFromCache]

/-- A request finds an entry where it would find none, or the same one. -/
theorem respond_same_iff {environment : Environment} {result : HandlerResult}
    {id : ℕ} {state baseline : State} {request : Request} {key : String}
    (hnone : state.requests id = none) (hnone' : baseline.requests id = none)
    (hkey : request.redisKey = some key) (hnow : baseline.now = state.now)
    (hleaves : (state.view key).entry = baseline.redis key ∨
      baseline.redis key = none ∧ ∃ entry, state.redis key = some entry ∧
        (entry.value = .processing ∨ ∃ statusCode body,
          entry.value = .completed statusCode body)) :
    respond environment result id request state =
        respond environment result id request baseline ↔
      Unaffected environment result key state baseline.redis := by
  rw [respond_eq hnone hkey, respond_eq hnone' hkey, hnow]
  rcases hleaves with hsame | ⟨hfree, entry, hstored, hanswers⟩
  · have hentry : state.redis key = baseline.redis key := hsame
    refine iff_of_true ?_ (unaffected_of_same hentry)
    simp only [TtlStore.get, TtlStore.sweep, hentry]
  · have hfree' : ∀ later, TtlStore.sweep baseline.redis later key = none :=
      fun later => TtlStore.sweep_of_none hfree
    have hsweep : ∀ later, TtlStore.sweep state.redis later key =
        if (!entry.due later) = true then some entry else none := by
      intro later
      simp only [TtlStore.sweep, hstored, Option.filter_some]
    simp only [TtlStore.get, Unaffected, hfree', hsweep, Option.some.injEq]
    cases hdue : entry.due (state.now + environment.delay .acquiring) with
    | true => simp
    | false =>
        by_cases hacquired : environment.reply .acquiring = .ok
        · simp only [hacquired, Bool.not_false, if_true, Option.some.injEq,
            forall_eq', true_imp_iff]
          by_cases hread : environment.reply .reading = .ok
          · have hmap : ∀ live : Bool,
                Option.map TtlStore.Entry.value
                    (if live = true then some entry else none) =
                  if live = true then some entry.value else none := by
              intro live
              cases live <;> rfl
            rw [if_pos hread, hmap, eq_comm,
              settled_eq_answerFromCache_iff hanswers]
            simp [hread]
          · have hanswer : result.answer ≠ .commandThrew := by
              cases result <;> simp [HandlerResult.answer]
            rw [if_neg hread, eq_comm]
            simp [hread, settled, hanswer]
        · simp [hacquired]

/-- What the first request leaves under a key: what was there, or a processing
entry or a response where nothing was. -/
theorem leftover_of_run {first : Request} {now : ℕ} {redis : Redis}
    {events : List Event} {final : State} (key : String)
    (hrun : run step (State.initial now redis) (.request 0 first :: events) =
      some final) :
    (final.view key).entry = (State.initial final.now redis).redis key ∨
      (State.initial final.now redis).redis key = none ∧
        ∃ entry, final.redis key = some entry ∧
          (entry.value = .processing ∨ ∃ statusCode body,
            entry.value = .completed statusCode body) := by
  rcases (leaves_of_run key hrun).entry with
    hsame | ⟨hfree, entry, hstored, hprocessing | ⟨statusCode, body, hcompleted, -⟩⟩
  · exact .inl hsame
  · exact .inr ⟨hfree, entry, hstored, .inl hprocessing⟩
  · exact .inr ⟨hfree, entry, hstored, .inr ⟨statusCode, body, hcompleted⟩⟩

/-- The answer to a request is the same whether or not another request has been
made before it exactly when they do not share a key, or the later one is not
affected by what the earlier one has left there. -/
theorem respond_same_iff_unaffected {backend : Incoming → HandlerResult}
    {first second : Incoming} {now : ℕ} {redis : Redis} {events : List Event}
    {final : State}
    (hfirst : ∀ event ∈ events, event.target = none ∨ event.target = some 0)
    (hrun : run step (State.initial now redis)
      (.request 0 first.toRequest :: events) = some final)
    (environment : Environment) :
    respond environment (backend second) 1 second.toRequest final =
        respond environment (backend second) 1 second.toRequest
          (State.initial final.now redis) ↔
      ∀ key, first.redisKey = some key → second.redisKey = some key →
        Unaffected environment (backend second) key final
          (State.initial final.now redis).redis := by
  have hnone : final.requests 1 = none :=
    (alone_of_run "" hfirst hrun).1.others 1 (by decide)
  cases hkey : second.redisKey with
  | none =>
      rw [respond_eq_of_passing hnone hkey, respond_eq_of_passing rfl hkey]
      simp
  | some key =>
      have hbaseline : (State.initial final.now redis).requests 1 = none := rfl
      have hnow : (State.initial final.now redis).now = final.now := rfl
      rw [respond_same_iff hnone hbaseline hkey hnow (leftover_of_run key hrun)]
      constructor
      · intro hunaffected key' _ hkey'
        obtain rfl := Option.some.inj hkey'
        exact hunaffected
      · intro hunaffected
        by_cases hshared : first.redisKey = some key
        · exact hunaffected key hshared rfl
        · exact unaffected_of_same ((alone_of_run key hfirst hrun).2 hshared)

/-- The login of a user. -/
def loginOfAlice : Incoming :=
  { method := "POST", idempotencyKey := some "key-1", cacheTtl := none
    user := none, handler := "AuthController.login", body := "alice" }

/-- The logout of another user with the same header. -/
def logoutOfBob : Incoming :=
  { method := "POST", idempotencyKey := some "key-1", cacheTtl := none
    user := some "bob", handler := "AuthController.logout", body := "" }

def answersByHandler (incoming : Incoming) : HandlerResult :=
  if incoming.handler = "AuthController.login" then
    .responded 200 "tokens of alice"
  else .responded 200 "logged out"

def loginRun : List Event :=
  [.request 0 loginOfAlice.toRequest, .setnx 0 .ok,
    .handle 0 (answersByHandler loginOfAlice), .set 0 0 .ok]

def healthy : Environment where
  delay _ := 0
  reply _ := .ok
  jitter := ⟨0, by decide⟩

theorem response_leaks :
    loginOfAlice.user ≠ logoutOfBob.user ∧
    loginOfAlice.handler ≠ logoutOfBob.handler ∧
    ∃ final, run step (State.initial 0 TtlStore.empty) loginRun = some final ∧
      respond healthy (answersByHandler logoutOfBob) 1 logoutOfBob.toRequest
          final = some (.responded 200 "tokens of alice") ∧
      respond healthy (answersByHandler logoutOfBob) 1 logoutOfBob.toRequest
          (State.initial final.now TtlStore.empty) =
        some (.responded 200 "logged out") := by
  obtain ⟨final, hrun, hanswers⟩ := Option.map_eq_some_iff.mp
    (show (run step (State.initial 0 TtlStore.empty) loginRun).map
        (fun final => (respond healthy (answersByHandler logoutOfBob) 1
            logoutOfBob.toRequest final,
          respond healthy (answersByHandler logoutOfBob) 1
            logoutOfBob.toRequest (State.initial final.now TtlStore.empty))) =
      some (some (.responded 200 "tokens of alice"),
        some (.responded 200 "logged out")) by decide +kernel)
  obtain ⟨hleaked, halone⟩ := Prod.mk.inj hanswers
  exact ⟨by decide, by decide, final, hrun, hleaked, halone⟩

theorem respond_same_iff_unaffected_of_login :
    ∃ final, run step (State.initial 0 TtlStore.empty) loginRun = some final ∧
      (respond healthy (answersByHandler logoutOfBob) 1 logoutOfBob.toRequest
          final =
        respond healthy (answersByHandler logoutOfBob) 1 logoutOfBob.toRequest
          (State.initial final.now TtlStore.empty) ↔
        ∀ key, loginOfAlice.redisKey = some key →
          logoutOfBob.redisKey = some key →
            Unaffected healthy (answersByHandler logoutOfBob) key final
              (State.initial final.now TtlStore.empty).redis) := by
  have henabled : (run step (State.initial 0 TtlStore.empty)
      loginRun).isSome = true := by decide +kernel
  obtain ⟨final, hrun⟩ := Option.isSome_iff_exists.mp henabled
  have hfirst : ∀ event ∈ loginRun.tail,
      event.target = none ∨ event.target = some 0 := by
    simp [loginRun, Event.target]
  exact ⟨final, hrun, respond_same_iff_unaffected hfirst hrun healthy⟩

end OceanChat.Idempotency
