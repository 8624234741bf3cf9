import OceanChat.Cores.Idempotency

/-!
# Replay of an idempotent request

While no command fails and no processing entry expires under its owner, the
entry of a key belongs to the one request that is executing its handler, or
holds the response of an execution that has completed.
-/

namespace OceanChat.Idempotency

open Runs

/-- What a run leaves in the history of a key: a request has created the
processing entry and starts its handler, a handler has completed with a `2xx`
status, a request has created the entry of its cached response. -/
inductive Record
  | acquired (id : ℕ)
  | completed (id statusCode : ℕ) (body : String)
  | cached (id : ℕ)
  deriving DecidableEq

def View.record (view : View) : Event → List Record
  | .setnx id reply =>
      if view.phases id = some .acquiring ∧ reply.took ∧ view.entry = none then
        [.acquired id]
      else []
  | .handle id (.responded statusCode body) =>
      if view.phases id = some .handling ∧ 200 ≤ statusCode ∧
          statusCode < 300 then
        [.completed id statusCode body]
      else []
  | .set id _ reply =>
      match view.phases id with
      | some (.caching _ _) => if reply.took then [.cached id] else []
      | _ => []
  | _ => []

/-- The request that has created the current entry. -/
def creator (history : List Record) : Option ℕ :=
  (history.filterMap fun
    | .acquired id | .cached id => some id
    | .completed _ _ _ => none).getLast?

/-- The event is not a command that fails. -/
def Event.Answered : Event → Prop
  | .setnx _ reply | .get _ reply | .set _ _ reply | .del _ reply => reply = .ok
  | _ => True

/-- No processing entry expires while its owner runs. -/
def View.KeepsEntry (now : ℕ) (view : View) : Event → Prop
  | .tick ms => ∀ id phase, view.phases id = some phase →
      phase.entered = true → ∀ entry, view.entry = some entry →
        entry.due (now + ms) = false
  | _ => True

/-- The answer is the conflict error or the response of a handler run that has
completed with a `2xx` status. -/
def Replayed (history : List Record) (answer : Answer) : Prop :=
  answer = .conflict conflictException ∨
    ∃ id statusCode body, .completed id statusCode body ∈ history ∧
      200 ≤ statusCode ∧ statusCode < 300 ∧
      answer = .responded statusCode body

/-- What holds for a key along a run without failures. -/
structure Replays (view : View) (history : List Record) : Prop where
  owned : ∀ id phase, view.phases id = some phase → phase.entered = true →
    (∃ deadline, view.entry = some ⟨.processing, deadline⟩) ∧
      creator history = some id ∧ .acquired id ∈ history
  entry : ∀ entry, view.entry = some entry → entry.value = .processing ∨
    ∃ id statusCode body, entry.value = .completed statusCode body ∧
      .completed id statusCode body ∈ history
  completed : ∀ id statusCode body, .completed id statusCode body ∈ history →
    200 ≤ statusCode ∧ statusCode < 300
  caching : ∀ id statusCode body,
    view.phases id = some (.caching statusCode body) →
      .completed id statusCode body ∈ history
  passing : ∀ id, view.phases id ≠ some .passing
  finished : ∀ id answer, view.phases id = some (.finished answer) →
    .acquired id ∈ history ∨ Replayed history answer

section Creator

variable (history : List Record) (id statusCode : ℕ) (body : String)

@[simp]
theorem creator_acquired : creator (history ++ [.acquired id]) = some id := by
  simp [creator]

@[simp]
theorem creator_cached : creator (history ++ [.cached id]) = some id := by
  simp [creator]

@[simp]
theorem creator_completed :
    creator (history ++ [.completed id statusCode body]) = creator history := by
  simp [creator]

end Creator

theorem Replayed.mono {history more : List Record} {answer : Answer}
    (hreplayed : Replayed history answer) : Replayed (history ++ more) answer := by
  rcases hreplayed with hconflict | ⟨id, statusCode, body, hmem, hrest⟩
  · exact .inl hconflict
  · exact .inr ⟨id, statusCode, body, List.mem_append_left more hmem, hrest⟩

namespace Replays

variable {now : ℕ} {view next : View} {history : List Record} {id : ℕ}
variable {phase : Phase} {event : Event}

theorem exclusive (hreplays : Replays view history) {left right : ℕ}
    {phase phase' : Phase} (hleft : view.phases left = some phase)
    (hentered : phase.entered = true) (hright : view.phases right = some phase')
    (hentered' : phase'.entered = true) : left = right := by
  obtain ⟨-, hcreator, -⟩ := hreplays.owned left phase hleft hentered
  obtain ⟨-, hcreator', -⟩ := hreplays.owned right phase' hright hentered'
  exact Option.some.inj (hcreator.symm.trans hcreator')

theorem initial : Replays ⟨none, fun _ => none⟩ [] := by
  constructor <;> simp

/-- A request moves on without an entry of its own. -/
theorem quiet (hreplays : Replays view history) (hentered : phase.entered = false)
    (hpassing : phase ≠ .passing)
    (hfinished : ∀ answer, phase = .finished answer →
      .acquired id ∈ history ∨ Replayed history answer) :
    Replays (view.move id phase) history where
  owned other phase' hphase hin := by
    rcases phases_move hphase with ⟨rfl, rfl⟩ | ⟨-, hold⟩
    · rw [hentered] at hin
      cases hin
    · exact hreplays.owned other phase' hold hin
  entry := hreplays.entry
  completed := hreplays.completed
  caching other statusCode body hphase := by
    rcases phases_move hphase with ⟨rfl, rfl⟩ | ⟨-, hold⟩
    · cases hentered
    · exact hreplays.caching other statusCode body hold
  passing other hphase := by
    rcases phases_move hphase with ⟨rfl, rfl⟩ | ⟨-, hold⟩
    · exact hpassing rfl
    · exact hreplays.passing other hold
  finished other answer hphase := by
    rcases phases_move hphase with ⟨rfl, rfl⟩ | ⟨-, hold⟩
    · exact hfinished answer rfl
    · exact hreplays.finished other answer hold

/-- A request takes the free key. -/
theorem acquire (hreplays : Replays view history) (hentry : view.entry = none)
    (deadline : Option ℕ) :
    Replays (View.move { view with entry := some ⟨.processing, deadline⟩ } id
      .handling) (history ++ [.acquired id]) where
  owned other phase' hphase hin := by
    rcases phases_move hphase with ⟨rfl, rfl⟩ | ⟨-, hold⟩
    · exact ⟨⟨deadline, rfl⟩, by simp, by simp⟩
    · obtain ⟨⟨deadline', hentry'⟩, -⟩ := hreplays.owned other phase' hold hin
      rw [hentry] at hentry'
      cases hentry'
  entry other hother := by
    obtain rfl := Option.some.inj hother
    exact .inl rfl
  completed other statusCode body hmem := by
    apply hreplays.completed other statusCode body
    simpa using hmem
  caching other statusCode body hphase := by
    rcases phases_move hphase with ⟨-, hhandling⟩ | ⟨-, hold⟩
    · cases hhandling
    · exact List.mem_append_left _ (hreplays.caching other statusCode body hold)
  passing other hphase := by
    rcases phases_move hphase with ⟨-, hhandling⟩ | ⟨-, hold⟩
    · cases hhandling
    · exact hreplays.passing other hold
  finished other answer hphase := by
    rcases phases_move hphase with ⟨-, hhandling⟩ | ⟨-, hold⟩
    · cases hhandling
    · exact (hreplays.finished other answer hold).imp
        (List.mem_append_left _) Replayed.mono

/-- The owner moves on and keeps its entry. -/
theorem keep (hreplays : Replays view history) {before : Phase}
    (hphase : view.phases id = some before) (hentered : before.entered = true)
    (hin : phase.entered = true) {more : List Record}
    (hcreator : creator (history ++ more) = creator history)
    (hcompleted : ∀ other statusCode body,
      .completed other statusCode body ∈ more →
        200 ≤ statusCode ∧ statusCode < 300)
    (hcaching : ∀ statusCode body, phase = .caching statusCode body →
      .completed id statusCode body ∈ history ++ more) :
    Replays (view.move id phase) (history ++ more) where
  owned other phase' hother hin' := by
    rw [hcreator]
    rcases phases_move hother with ⟨rfl, rfl⟩ | ⟨-, hold⟩
    · obtain ⟨hentry, howner, hacquired⟩ :=
        hreplays.owned other before hphase hentered
      exact ⟨hentry, howner, List.mem_append_left _ hacquired⟩
    · obtain ⟨hentry, howner, hacquired⟩ :=
        hreplays.owned other phase' hold hin'
      exact ⟨hentry, howner, List.mem_append_left _ hacquired⟩
  entry stored hstored := by
    rcases hreplays.entry stored hstored with hvalue |
      ⟨other, statusCode, body, hvalue, hmem⟩
    · exact .inl hvalue
    · exact .inr ⟨other, statusCode, body, hvalue, List.mem_append_left _ hmem⟩
  completed other statusCode body hmem := by
    rcases List.mem_append.mp hmem with hold | hnew
    · exact hreplays.completed other statusCode body hold
    · exact hcompleted other statusCode body hnew
  caching other statusCode body hother := by
    rcases phases_move hother with ⟨rfl, hsame⟩ | ⟨-, hold⟩
    · exact hcaching statusCode body hsame
    · exact List.mem_append_left _ (hreplays.caching other statusCode body hold)
  passing other hother := by
    rcases phases_move hother with ⟨-, rfl⟩ | ⟨-, hold⟩
    · cases hin
    · exact hreplays.passing other hold
  finished other answer hother := by
    rcases phases_move hother with ⟨-, rfl⟩ | ⟨-, hold⟩
    · cases hin
    · exact (hreplays.finished other answer hold).imp
        (List.mem_append_left _) Replayed.mono

/-- The owner gives up the key: it leaves its response or nothing there. -/
theorem release (hreplays : Replays view history) {before : Phase}
    (hphase : view.phases id = some before) (hentered : before.entered = true)
    (stored : Option (TtlStore.Entry Stored)) {more : List Record}
    (answer : Answer)
    (hstored : ∀ entry, stored = some entry → ∃ statusCode body,
      entry.value = .completed statusCode body ∧
        .completed id statusCode body ∈ history)
    (hmore : ∀ other statusCode body,
      .completed other statusCode body ∉ more) :
    Replays (View.move { view with entry := stored } id (.finished answer))
      (history ++ more) where
  owned other phase' hother hin := by
    rcases phases_move hother with ⟨-, rfl⟩ | ⟨hne, hold⟩
    · cases hin
    · exact absurd (hreplays.exclusive hold hin hphase hentered) hne
  entry entry hentry := by
    obtain ⟨statusCode, body, hvalue, hmem⟩ := hstored entry hentry
    exact .inr ⟨id, statusCode, body, hvalue, List.mem_append_left _ hmem⟩
  completed other statusCode body hmem := by
    rcases List.mem_append.mp hmem with hold | hnew
    · exact hreplays.completed other statusCode body hold
    · exact absurd hnew (hmore other statusCode body)
  caching other statusCode body hother := by
    rcases phases_move hother with ⟨-, hfinished⟩ | ⟨-, hold⟩
    · cases hfinished
    · exact List.mem_append_left _ (hreplays.caching other statusCode body hold)
  passing other hother := by
    rcases phases_move hother with ⟨-, hfinished⟩ | ⟨-, hold⟩
    · cases hfinished
    · exact hreplays.passing other hold
  finished other answer' hother := by
    rcases phases_move hother with ⟨rfl, -⟩ | ⟨-, hold⟩
    · obtain ⟨-, -, hacquired⟩ := hreplays.owned other before hphase hentered
      exact .inl (List.mem_append_left _ hacquired)
    · exact (hreplays.finished other answer' hold).imp
        (List.mem_append_left _) Replayed.mono

/-- The handler of the owner ends. -/
theorem handle (hreplays : Replays view history) (result : HandlerResult)
    (hphase : view.phases id = some .handling) :
    Replays (view.move id (afterHandler result))
      (history ++ view.record (.handle id result)) := by
  cases result with
  | threw =>
      exact hreplays.keep hphase rfl rfl (by simp [View.record])
        (by simp [View.record]) (by simp [afterHandler])
  | responded statusCode body =>
      by_cases hsuccess : 200 ≤ statusCode ∧ statusCode < 300
      · have hrecord : view.record (.handle id (.responded statusCode body)) =
            [.completed id statusCode body] := by
          simp [View.record, hphase, hsuccess]
        rw [hrecord, afterHandler, if_pos hsuccess]
        apply hreplays.keep hphase rfl rfl (by simp)
        · intro other statusCode' body' hmem
          obtain ⟨-, rfl, -⟩ : other = id ∧ statusCode' = statusCode ∧
            body' = body := by simpa using hmem
          exact hsuccess
        · rintro statusCode' body' ⟨⟩
          simp
      · have hrecord : view.record (.handle id (.responded statusCode body)) =
            [] := by
          simp only [View.record]
          exact if_neg fun hrecorded => hsuccess hrecorded.2
        rw [hrecord, afterHandler, if_neg hsuccess]
        exact hreplays.keep hphase rfl rfl (by simp) (by simp) (by simp)

/-- A request that is answered from the entry gets a stored response or the
conflict error. -/
theorem replayed (hreplays : Replays view history) :
    Replayed history
      (answerFromCache (view.entry.map TtlStore.Entry.value)) := by
  cases hentry : view.entry with
  | none => exact .inl rfl
  | some entry =>
      rcases hreplays.entry entry hentry with hvalue |
        ⟨other, statusCode, body, hvalue, hmem⟩
      · exact .inl (by simp [hvalue, answerFromCache])
      · obtain ⟨hlow, hhigh⟩ := hreplays.completed other statusCode body hmem
        exact .inr ⟨other, statusCode, body, hmem, hlow, hhigh,
          by simp [hvalue, answerFromCache]⟩

theorem tick (hreplays : Replays view history) {ms : ℕ}
    (hkeeps : view.KeepsEntry now (.tick ms)) :
    Replays { view with
      entry := view.entry.filter fun entry => !entry.due (now + ms) } history where
  owned id phase hphase hin := by
    obtain ⟨⟨deadline, hentry⟩, hrest⟩ := hreplays.owned id phase hphase hin
    have hlive := hkeeps id phase hphase hin _ hentry
    exact ⟨⟨deadline, by simp [hentry, hlive]⟩, hrest⟩
  entry entry hentry :=
    hreplays.entry entry (Option.filter_eq_some_iff.mp hentry).1
  completed := hreplays.completed
  caching := hreplays.caching
  passing := hreplays.passing
  finished := hreplays.finished

theorem record_unrelated (htarget : event.target = some id)
    (hnone : view.phases id = none) : view.record event = [] := by
  cases event with
  | handle id' result =>
      obtain rfl := Option.some.inj htarget
      cases result <;> simp [View.record, hnone]
  | tick ms => rfl
  | _ =>
      obtain rfl := Option.some.inj htarget
      simp [View.record, hnone]

theorem of_effect (hreplays : Replays view history)
    (hanswered : event.Answered) (hkeeps : view.KeepsEntry now event)
    (heffect : View.Effect now view event next) :
    Replays next (history ++ view.record event) := by
  cases heffect with
  | unrelated event id htarget hnone =>
      rwa [record_unrelated htarget hnone, List.append_nil]
  | requested id request hnone =>
      rw [show view.record (.request id request) = [] from rfl, List.append_nil]
      exact hreplays.quiet rfl (by simp) (by simp)
  | acquired id reply hphase =>
      obtain rfl : reply = .ok := hanswered
      by_cases hentry : view.entry = none
      · simpa [View.record, hphase, hentry, Reply.took] using
          hreplays.acquire hentry (some (now + processingTtl * 1000))
      · have hrecord : view.record (.setnx id .ok) = [] := by
          simp [View.record, hentry]
        rw [hrecord, List.append_nil]
        simp only [hentry, and_false, if_false, if_true]
        exact hreplays.quiet rfl (by simp) (by simp)
  | read id reply hphase =>
      obtain rfl : reply = .ok := hanswered
      rw [show view.record (.get id .ok) = [] from rfl, List.append_nil]
      apply hreplays.quiet rfl (by simp)
      rintro answer ⟨⟩
      exact .inr hreplays.replayed
  | passed id result answer hphase => exact absurd hphase (hreplays.passing id)
  | handled id result hphase => exact hreplays.handle result hphase
  | stored id jitter reply request statusCode body hphase =>
      obtain rfl : reply = .ok := hanswered
      have htook : Reply.ok.took = true := rfl
      simp only [htook, if_true]
      apply hreplays.release hphase rfl
      · rintro entry ⟨⟩
        exact ⟨statusCode, body, rfl,
          hreplays.caching id statusCode body hphase⟩
      · simp [View.record, hphase, Reply.took]
  | removed id reply before after hphase hcleanup =>
      obtain rfl : reply = .ok := hanswered
      have htook : Reply.ok.took = true := rfl
      rw [show view.record (.del id .ok) = [] from rfl, if_pos htook]
      rcases hcleanup with ⟨statusCode, body, rfl, rfl⟩ | ⟨answer, rfl, rfl⟩
      · rw [if_pos rfl]
        exact hreplays.release hphase rfl none _ (by simp) (by simp)
      · rw [if_pos rfl]
        exact hreplays.release hphase rfl none _ (by simp) (by simp)
  | crashed id phase hphase =>
      rw [show view.record (.crash id) = [] from rfl, List.append_nil]
      exact hreplays.quiet rfl (by simp) (by simp)
  | ticked ms =>
      rw [show view.record (.tick ms) = [] from rfl, List.append_nil]
      exact hreplays.tick hkeeps

end Replays

/-- The history of a key in a run. -/
def records (key : String) (state : State) (event : Event) : List Record :=
  (state.view key).record event

/-- What holds at the end of a run in which no command fails and no processing
entry expires under its owner. -/
theorem Replays.of_run {key : String} {now : ℕ} {redis : Redis}
    {events : List Event} {final : State}
    (hfree : TtlStore.sweep redis now key = none)
    (hanswered : ∀ event ∈ events, event.Answered)
    (hkeeps : Guarded step
      (fun state event => (state.view key).KeepsEntry state.now event)
      (State.initial now redis) events)
    (hrun : run step (State.initial now redis) events = some final) :
    Replays (final.view key)
      (trace step (records key) (State.initial now redis) events) := by
  have hguard : Guarded step (fun state event => event.Answered ∧
      (state.view key).KeepsEntry state.now event)
      (State.initial now redis) events :=
    guarded_and.mpr
      ⟨guarded_of_forall fun event hevent _ => hanswered event hevent, hkeeps⟩
  have hinitial : Replays ((State.initial now redis).view key) [] := by
    have hview : (State.initial now redis).view key = ⟨none, fun _ => none⟩ := by
      simp [State.view, State.initial, hfree]
    rw [hview]
    exact Replays.initial
  exact trace_invariant (fun state history => Replays (state.view key) history)
    (fun state _ event next hreplays hguard hstep =>
      hreplays.of_effect hguard.1 hguard.2 (view_effect hstep))
    hinitial hguard hrun

/-- A cleanup finds the entry that its own request has created. -/
theorem Replays.of_cleanup {key : String} {state next : State}
    {history : List Record} {id : ℕ} {phase : Phase}
    (hreplays : Replays (state.view key) history)
    (hphase : (state.view key).phases id = some phase)
    (hstep : step state (.del id .ok) = some next) :
    (∃ entry, state.redis key = some entry) ∧ creator history = some id ∧
      next.redis key = none := by
  have hentry : next.redis key = (next.view key).entry := rfl
  have heffect : View.Effect state.now (state.view key) (.del id .ok)
      (next.view key) := view_effect hstep
  rw [hentry]
  generalize next.view key = view at heffect ⊢
  cases heffect with
  | unrelated _ id' htarget hnone =>
      obtain rfl : id = id' := Option.some.inj htarget
      rw [hnone] at hphase
      cases hphase
  | removed _ _ before after hbefore hcleanup =>
      obtain ⟨⟨deadline, hstored⟩, hcreator, -⟩ :=
        hreplays.owned id before hbefore (phases_of_cleanup hcleanup).1
      exact ⟨⟨_, hstored⟩, hcreator, rfl⟩

/-- While no command fails and no processing entry expires under its owner, at
most one handler runs at a time, every other request gets the conflict error or
the response of a completed execution, and a cleanup removes the entry that its
own request has created. -/
theorem replay_exclusive_faithful {key : String} {now : ℕ} {redis : Redis}
    {events : List Event} {final : State}
    (hfree : TtlStore.sweep redis now key = none)
    (hanswered : ∀ event ∈ events, event.Answered)
    (hkeeps : Guarded step
      (fun state event => (state.view key).KeepsEntry state.now event)
      (State.initial now redis) events)
    (hrun : run step (State.initial now redis) events = some final) :
    let history := trace step (records key) (State.initial now redis) events
    (∀ left right, (final.view key).phases left = some .handling →
      (final.view key).phases right = some .handling → left = right) ∧
    (∀ id answer, (final.view key).phases id = some (.finished answer) →
      .acquired id ∉ history → Replayed history answer) ∧
    (∀ id phase next, (final.view key).phases id = some phase →
      step final (.del id .ok) = some next →
        (∃ entry, final.redis key = some entry) ∧ creator history = some id ∧
          next.redis key = none) := by
  intro history
  have hreplays : Replays (final.view key) history :=
    Replays.of_run hfree hanswered hkeeps hrun
  refine ⟨?_, ?_, ?_⟩
  · intro left right hleft hright
    exact hreplays.exclusive hleft rfl hright rfl
  · intro id answer hphase hnotAcquired
    exact (hreplays.finished id answer hphase).resolve_left hnotAcquired
  · intro id phase next hphase hstep
    exact hreplays.of_cleanup hphase hstep

/-- The second request comes while the first one runs, the third one after it
has completed, and the fourth one has another key. -/
def replayRun : List Event :=
  [.request 0 ⟨"POST", some "key-1", none⟩, .setnx 0 .ok,
    .request 1 ⟨"POST", some "key-1", none⟩, .setnx 1 .ok, .get 1 .ok,
    .handle 0 (.responded 200 "created"), .set 0 7 .ok,
    .request 2 ⟨"POST", some "key-1", none⟩, .setnx 2 .ok, .get 2 .ok,
    .request 3 ⟨"POST", some "key-2", none⟩, .setnx 3 .ok]

theorem replay_exclusive_faithful_of_replayRun :
    ∃ final, run step (State.initial 0 TtlStore.empty) replayRun = some final ∧
      final.requests 1 = some ⟨⟨"POST", some "key-1", none⟩,
        .finished (.conflict conflictException)⟩ ∧
      final.requests 2 = some ⟨⟨"POST", some "key-1", none⟩,
        .finished (.responded 200 "created")⟩ ∧
      ∀ id answer, (final.view (getIdempotencyRedisKey "key-1")).phases id =
          some (.finished answer) →
        .acquired id ∉ trace step (records (getIdempotencyRedisKey "key-1"))
          (State.initial 0 TtlStore.empty) replayRun →
        Replayed (trace step (records (getIdempotencyRedisKey "key-1"))
          (State.initial 0 TtlStore.empty) replayRun) answer := by
  obtain ⟨final, hrun, hrequests⟩ := Option.map_eq_some_iff.mp
    (show (run step (State.initial 0 TtlStore.empty) replayRun).map
        (fun state => (state.requests 1, state.requests 2)) =
      some (some ⟨⟨"POST", some "key-1", none⟩,
          .finished (.conflict conflictException)⟩,
        some ⟨⟨"POST", some "key-1", none⟩,
          .finished (.responded 200 "created")⟩) by decide +kernel)
  obtain ⟨hsecond, hthird⟩ := Prod.mk.inj hrequests
  have hanswered : ∀ event ∈ replayRun, event.Answered := by
    simp [replayRun, Event.Answered]
  have hkeeps : Guarded step (fun state event =>
      (state.view (getIdempotencyRedisKey "key-1")).KeepsEntry state.now event)
      (State.initial 0 TtlStore.empty) replayRun := by
    apply guarded_of_forall
    intro event hevent middle
    simp only [replayRun, List.mem_cons, List.not_mem_nil, or_false] at hevent
    rcases hevent with rfl | rfl | rfl | rfl | rfl | rfl | rfl | rfl | rfl | rfl |
      rfl | rfl <;> trivial
  exact ⟨final, hrun, hsecond, hthird,
    (replay_exclusive_faithful (TtlStore.sweep_of_none rfl) hanswered hkeeps
      hrun).2.1⟩

end OceanChat.Idempotency
