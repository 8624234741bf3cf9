import OceanChat.Cores.Replay

/-!
# Execution at most once

After a handler has completed with a `2xx` status, the entry of its key keeps
the handler from being executed again.  A request is never executed again
during the lifetime of the response exactly when no step of the run gives the
key up early.
-/

namespace OceanChat.Idempotency

open Runs

/-- The end of the lifetime of a response that a step completes or caches: from
its completion on at least the cache lifetime of the route, and from its caching
on the lifetime of its entry. -/
def lifetimes (key : String) (state : State) : Event → List (Option ℕ)
  | .handle id (.responded statusCode _) =>
      match state.requests id with
      | some ⟨request, .handling⟩ =>
          if request.redisKey = some key ∧ 200 ≤ statusCode ∧
              statusCode < 300 then
            [some (state.now + request.cacheTtl.getD defaultCacheTtl * 1000)]
          else []
      | _ => []
  | .set id jitter reply =>
      match state.requests id with
      | some ⟨request, .caching _ _⟩ =>
          if request.redisKey = some key ∧ reply.took then
            [cacheDeadline state.now request jitter]
          else []
      | _ => []
  | _ => []

def Lapsed (now : ℕ) : Option ℕ → Prop
  | none => False
  | some deadline => deadline ≤ now

/-- While the lifetime of a response lasts, no handler of the key is running and
a request that comes now does not run one. -/
def ExecutedOnce (key : String) (current : State × List (Option ℕ)) : Prop :=
  (∃ lifetime ∈ current.2, ¬ Lapsed current.1.now lifetime) →
    (∀ id, (current.1.view key).phases id ≠ some .handling) ∧
    ∀ id request next, current.1.requests id = none →
      request.redisKey = some key →
      run step current.1 [.request id request, .setnx id .ok] = some next →
        (next.view key).phases id ≠ some .handling

/-- The step does not give the key up during the lifetime of a response: the
entry neither expires nor is deleted, and when a handler completes with a `2xx`
status, or its response is cached, the entry is there and no other handler is
running. -/
def KeepsResponse (key : String) (current : State × List (Option ℕ)) :
    Event → Prop
  | .tick ms =>
      (∃ entry, current.1.redis key = some entry ∧
        entry.due (current.1.now + ms) = true) →
        ∀ lifetime ∈ current.2, Lapsed (current.1.now + ms) lifetime
  | .del id reply =>
      (current.1.view key).phases id ≠ none → reply.took = true →
        ∀ lifetime ∈ current.2, Lapsed current.1.now lifetime
  | .handle id result =>
      (∃ lifetime ∈ lifetimes key current.1 (.handle id result),
        ¬ Lapsed current.1.now lifetime) →
        current.1.redis key ≠ none ∧ ∀ other, other ≠ id →
          (current.1.view key).phases other ≠ some .handling
  | .set id jitter reply =>
      lifetimes key current.1 (.set id jitter reply) ≠ [] → ∀ other,
        (current.1.view key).phases other ≠ some .handling
  | _ => True

theorem Lapsed.mono {now later : ℕ} {lifetime : Option ℕ} (hle : now ≤ later)
    (hlapsed : Lapsed now lifetime) : Lapsed later lifetime := by
  cases lifetime with
  | none => exact hlapsed
  | some deadline => exact le_trans hlapsed hle

theorem not_lapsed_cacheDeadline (now : ℕ) (request : Request) (jitter : ℕ) :
    ¬ Lapsed now (cacheDeadline now request jitter) := by
  simp only [cacheDeadline]
  split
  · exact id
  · simp only [Lapsed]
    omega

/-! ## Requests that have not come yet -/

/-- All but finitely many requests are still to come. -/
def Unbounded (state : State) : Prop :=
  ∃ bound, ∀ id, bound ≤ id → state.requests id = none

theorem Unbounded.of_step {state next : State} {event : Event}
    (hunbounded : Unbounded state) (hstep : step state event = some next) :
    Unbounded next :=
  exists_bound_of_step (fun _ hother => requests_of_step hstep hother) hunbounded

/-- A request that finds its key free runs its handler. -/
theorem run_request_of_free {state : State} {key : String} {id : ℕ}
    {request : Request} (hnone : state.requests id = none)
    (hkey : request.redisKey = some key) (hfree : state.redis key = none) :
    ∃ next, run step state [.request id request, .setnx id .ok] = some next ∧
      (next.view key).phases id = some .handling := by
  refine ⟨State.setPhase { state.setPhase id request .acquiring with
    redis := TtlStore.put state.redis key .processing
      (some (state.now + processingTtl * 1000)) } id request .handling, ?_, ?_⟩
  · simp [run, step, hnone, hkey, State.setPhase, Reply.took,
      TtlStore.setnx_of_none hfree]
  · exact phases_of_key (by simp [State.setPhase]) hkey

/-! ## What a step keeps -/

/-- While a lifetime lasts no handler of the key is running and the entry is
there. -/
structure Executed (key : String) (current : State × List (Option ℕ)) :
    Prop where
  held : (∃ lifetime ∈ current.2, ¬ Lapsed current.1.now lifetime) →
    (∀ id, (current.1.view key).phases id ≠ some .handling) ∧
      (current.1.view key).entry ≠ none
  unbounded : Unbounded current.1

section Steps

variable {key : String} {state next : State} {history : List (Option ℕ)}
variable {event : Event}

theorem handling_of_mem_lifetimes {id : ℕ} {result : HandlerResult}
    {lifetime : Option ℕ}
    (hmem : lifetime ∈ lifetimes key state (.handle id result)) :
    (state.view key).phases id = some .handling ∧
      ∃ statusCode body, result = .responded statusCode body ∧
        200 ≤ statusCode ∧ statusCode < 300 := by
  cases result with
  | threw => simp [lifetimes] at hmem
  | responded statusCode body =>
      simp only [lifetimes] at hmem
      split at hmem
      · rename_i request hrequest
        split at hmem
        · rename_i hcompleted
          exact ⟨phases_of_key hrequest hcompleted.1, statusCode, body, rfl,
            hcompleted.2⟩
        · simp at hmem
      · simp at hmem

theorem caching_of_mem_lifetimes {id jitter : ℕ} {reply : Reply}
    {lifetime : Option ℕ}
    (hmem : lifetime ∈ lifetimes key state (.set id jitter reply)) :
    (∃ statusCode body,
        (state.view key).phases id = some (.caching statusCode body)) ∧
      reply.took = true ∧
        ∃ request, lifetime = cacheDeadline state.now request jitter := by
  simp only [lifetimes] at hmem
  split at hmem
  · rename_i request statusCode body hrequest
    split at hmem
    · rename_i hcached
      exact ⟨⟨statusCode, body, phases_of_key hrequest hcached.1⟩, hcached.2,
        request, by simpa using hmem⟩
    · simp at hmem
  · simp at hmem

/-- Caching a response always starts a lifetime. -/
theorem exists_mem_lifetimes_set {id jitter statusCode : ℕ} {body : String}
    {reply : Reply} (htook : reply.took = true)
    (hphase : (state.view key).phases id = some (.caching statusCode body)) :
    ∃ lifetime ∈ lifetimes key state (.set id jitter reply),
      ¬ Lapsed state.now lifetime := by
  obtain ⟨request, hrequest, hkey⟩ := request_of_phases hphase
  refine ⟨cacheDeadline state.now request jitter, ?_,
    not_lapsed_cacheDeadline state.now request jitter⟩
  simp [lifetimes, hrequest, hkey, htook]

/-- Only a request with this key starts a lifetime. -/
theorem lifetimes_of_unrelated {id : ℕ} (htarget : event.target = some id)
    (hnone : (state.view key).phases id = none) :
    lifetimes key state event = [] := by
  rw [List.eq_nil_iff_forall_not_mem]
  intro lifetime hmem
  cases event with
  | handle id' result =>
      obtain rfl : id' = id := Option.some.inj htarget
      obtain ⟨hphase, -⟩ := handling_of_mem_lifetimes hmem
      rw [hnone] at hphase
      cases hphase
  | set id' jitter reply =>
      obtain rfl : id' = id := Option.some.inj htarget
      obtain ⟨⟨statusCode, body, hphase⟩, -⟩ := caching_of_mem_lifetimes hmem
      rw [hnone] at hphase
      cases hphase
  | _ => cases hmem

theorem phases_move_ne_handling {view : View} {id : ℕ} {phase : Phase}
    (hphase : phase ≠ .handling)
    (hothers : ∀ other, other ≠ id → view.phases other ≠ some .handling) :
    ∀ other, (view.move id phase).phases other ≠ some .handling := by
  intro other hhandling
  rcases phases_move hhandling with ⟨-, rfl⟩ | ⟨hne, hother⟩
  · exact hphase rfl
  · exact hothers other hne hother

/-- No handler of the key is running and the key is taken. -/
def Held (view : View) : Prop :=
  (∀ id, view.phases id ≠ some .handling) ∧ view.entry ≠ none

theorem Held.move {view : View} (hheld : Held view) (id : ℕ) {phase : Phase}
    (hphase : phase ≠ .handling) : Held (view.move id phase) :=
  ⟨phases_move_ne_handling hphase fun other _ => hheld.1 other, hheld.2⟩

theorem Executed.of_step (hexecuted : Executed key (state, history))
    (hkeeps : KeepsResponse key (state, history) event)
    (hstep : step state event = some next) :
    Executed key (next, history ++ lifetimes key state event) := by
  refine ⟨?_, hexecuted.unbounded.of_step hstep⟩
  rintro ⟨lifetime, hmem, hlive⟩
  have hnow := now_of_step hstep
  have hle : state.now ≤ next.now := by
    rw [hnow]
    cases event <;> simp
  have hheld : lifetime ∈ history → Held (state.view key) := fun hold =>
    hexecuted.held ⟨lifetime, hold, fun hlapsed => hlive (hlapsed.mono hle)⟩
  have heffect : View.Effect state.now (state.view key) event (next.view key) :=
    view_effect hstep
  simp only at hlive ⊢
  generalize next.view key = view at heffect ⊢
  cases heffect with
  | unrelated _ id htarget hnone =>
      rw [lifetimes_of_unrelated htarget hnone, List.append_nil] at hmem
      exact hheld hmem
  | requested id request hnone =>
      exact (hheld (by simpa [lifetimes] using hmem)).move id (by simp)
  | acquired id reply hphase =>
      obtain ⟨hhandling, hentry⟩ := hheld (by simpa [lifetimes] using hmem)
      refine ⟨phases_move_ne_handling ?_ fun other _ => hhandling other, ?_⟩
      · rw [if_neg hentry]
        split <;> simp
      · simp [View.move, hentry]
  | read id reply hphase =>
      exact (hheld (by simpa [lifetimes] using hmem)).move id (by simp)
  | passed id result answer hphase =>
      have hold : lifetime ∈ history := by
        refine (List.mem_append.mp hmem).resolve_right fun hnew => ?_
        rw [(handling_of_mem_lifetimes hnew).1] at hphase
        cases hphase
      exact (hheld hold).move id (by simp)
  | handled id result hphase =>
      -- The handler that ends here was the only one, or a lifetime starts here.
      rcases List.mem_append.mp hmem with hold | hnew
      · exact absurd hphase ((hheld hold).1 id)
      · obtain ⟨hentry, hothers⟩ := hkeeps ⟨lifetime, hnew, by
          simpa only [hnow] using hlive⟩
        refine ⟨phases_move_ne_handling ?_ hothers, hentry⟩
        cases result with
        | threw => simp [afterHandler]
        | responded statusCode body =>
            simp only [afterHandler]
            split <;> simp
  | stored id jitter reply request statusCode body hphase =>
      cases htook : reply.took with
      | true =>
          obtain ⟨lifetime', hmem', -⟩ := exists_mem_lifetimes_set htook hphase
          have hothers := hkeeps (List.ne_nil_of_mem hmem')
          refine ⟨phases_move_ne_handling ?_ fun other _ => hothers other, ?_⟩
          · split <;> simp
          · simp [View.move]
      | false =>
          have hold : lifetime ∈ history := by
            refine (List.mem_append.mp hmem).resolve_right fun hnew => ?_
            rw [(caching_of_mem_lifetimes hnew).2.1] at htook
            cases htook
          obtain ⟨hhandling, hentry⟩ := hheld hold
          refine ⟨phases_move_ne_handling ?_ fun other _ => hhandling other, ?_⟩
          · split <;> simp
          · simpa [View.move] using hentry
  | removed id reply before after hphase hcleanup =>
      have hold : lifetime ∈ history := by simpa [lifetimes] using hmem
      obtain ⟨hhandling, hentry⟩ := hheld hold
      have htook : reply.took ≠ true := fun htook => hlive
        (hnow ▸ hkeeps (by rw [hphase]; simp) htook lifetime hold)
      refine ⟨phases_move_ne_handling (phases_of_cleanup hcleanup).2.1
        fun other _ => hhandling other, ?_⟩
      simpa [View.move, htook] using hentry
  | crashed id phase hphase =>
      exact (hheld (by simpa [lifetimes] using hmem)).move id (by simp)
  | ticked ms =>
      have hold : lifetime ∈ history := by simpa [lifetimes] using hmem
      obtain ⟨hhandling, hentry⟩ := hheld hold
      refine ⟨hhandling, ?_⟩
      obtain ⟨entry, hstored⟩ := Option.ne_none_iff_exists'.mp hentry
      have hdue : entry.due (state.now + ms) ≠ true := fun hdue => hlive
        (hnow ▸ hkeeps ⟨entry, hstored, hdue⟩ lifetime hold)
      simp [hstored, hdue]

theorem ExecutedOnce.of_executed {current : State × List (Option ℕ)}
    (hexecuted : Executed key current) : ExecutedOnce key current := by
  intro hlive
  obtain ⟨hhandling, hentry⟩ := hexecuted.held hlive
  refine ⟨hhandling, fun id request final hnone hkey hrun => ?_⟩
  obtain ⟨middle, hrequest, hrun⟩ := run_cons_eq_some.mp hrun
  obtain ⟨final', hsetnx, hrun⟩ := run_cons_eq_some.mp hrun
  obtain rfl : final' = final := by simpa using hrun
  obtain rfl : current.1.setPhase id request .acquiring = middle := by
    simpa [step, hnone, hkey] using hrequest
  have hphase : ((current.1.setPhase id request .acquiring).view key).phases id =
      some .acquiring :=
    phases_of_key (by simp [State.setPhase]) hkey
  have heffect : View.Effect _ ((current.1.setPhase id request .acquiring).view key)
      (.setnx id .ok) (final'.view key) := view_effect hsetnx
  generalize final'.view key = view at heffect ⊢
  cases heffect with
  | unrelated _ id' htarget hnone' =>
      obtain rfl : id = id' := Option.some.inj htarget
      rw [hnone'] at hphase
      cases hphase
  | acquired =>
      have hentry' :
          ((current.1.setPhase id request .acquiring).view key).entry ≠ none :=
        hentry
      simp [View.move, hentry']

/-- Once the key is free a request runs the handler again. -/
theorem not_executedOnce_of_free {request : Request}
    (hkey : request.redisKey = some key) (hunbounded : Unbounded state)
    {lifetime : Option ℕ} (hmem : lifetime ∈ history)
    (hlive : ¬ Lapsed state.now lifetime)
    (hfree : (state.view key).entry = none) :
    ¬ ExecutedOnce key (state, history) := by
  intro honce
  obtain ⟨bound, hbound⟩ := hunbounded
  obtain ⟨final, hrun, hhandling⟩ :=
    run_request_of_free (hbound bound le_rfl) hkey hfree
  exact (honce ⟨lifetime, hmem, hlive⟩).2 bound request final
    (hbound bound le_rfl) hkey hrun hhandling

theorem not_executedOnce_of_handling {id : ℕ} {lifetime : Option ℕ}
    (hmem : lifetime ∈ history) (hlive : ¬ Lapsed state.now lifetime)
    (hhandling : (state.view key).phases id = some .handling) :
    ¬ ExecutedOnce key (state, history) := fun honce =>
  (honce ⟨lifetime, hmem, hlive⟩).1 id hhandling

/-- Outside the guard the handler runs again, or can at once be run again. -/
theorem not_executedOnce_of_not_keepsResponse {request : Request}
    (hkey : request.redisKey = some key) (hunbounded : Unbounded state)
    (hbad : ¬ KeepsResponse key (state, history) event)
    (hstep : step state event = some next) :
    ¬ ExecutedOnce key (next, history ++ lifetimes key state event) := by
  have hunboundedNext := hunbounded.of_step hstep
  have hnow := now_of_step hstep
  have heffect : View.Effect state.now (state.view key) event (next.view key) :=
    view_effect hstep
  cases event with
  | request | setnx | get | crash => exact absurd trivial hbad
  | tick ms =>
      simp only [KeepsResponse, not_forall] at hbad
      obtain ⟨⟨entry, hstored, hdue⟩, lifetime, hmem, hlive⟩ := hbad
      refine not_executedOnce_of_free hkey hunboundedNext
        (List.mem_append_left _ hmem) (hnow ▸ hlive) ?_
      have hentry : (state.view key).entry = some entry := hstored
      generalize next.view key = view at heffect ⊢
      cases heffect with
      | unrelated _ _ htarget => cases htarget
      | ticked => simp [hentry, hdue]
  | del id reply =>
      simp only [KeepsResponse, not_forall] at hbad
      obtain ⟨hphases, htook, lifetime, hmem, hlive⟩ := hbad
      refine not_executedOnce_of_free hkey hunboundedNext
        (List.mem_append_left _ hmem) (hnow ▸ hlive) ?_
      generalize next.view key = view at heffect ⊢
      cases heffect with
      | unrelated _ id' htarget hnone =>
          obtain rfl : id = id' := Option.some.inj htarget
          exact absurd hnone hphases
      | removed => simp [View.move, htook]
  | handle id result =>
      simp only [KeepsResponse, not_forall] at hbad
      obtain ⟨⟨lifetime, hmem, hlive⟩, hbad⟩ := hbad
      have hmem' := List.mem_append_right history hmem
      have hlive' : ¬ Lapsed next.now lifetime := hnow ▸ hlive
      obtain ⟨hphase, -⟩ := handling_of_mem_lifetimes hmem
      by_cases hfree : state.redis key = none
      · refine not_executedOnce_of_free hkey hunboundedNext hmem' hlive' ?_
        have hentry : (state.view key).entry = none := hfree
        generalize next.view key = view at heffect ⊢
        cases heffect <;> exact hentry
      · obtain ⟨other, hne, hother⟩ : ∃ other, other ≠ id ∧
            (state.view key).phases other = some .handling := by
          simpa [hfree] using hbad
        have hhandling : (next.view key).phases other = some .handling := by
          generalize next.view key = view at heffect ⊢
          cases heffect <;> simp [View.move, hne, hother]
        exact not_executedOnce_of_handling hmem' hlive' hhandling
  | set id jitter reply =>
      simp only [KeepsResponse, not_forall, not_not] at hbad
      obtain ⟨hnil, other, hother⟩ := hbad
      obtain ⟨lifetime, hmem⟩ := List.exists_mem_of_ne_nil _ hnil
      obtain ⟨⟨statusCode, body, hphase⟩, -, request', hlifetime⟩ :=
        caching_of_mem_lifetimes hmem
      have hne : other ≠ id := by
        rintro rfl
        rw [hother] at hphase
        cases hphase
      have hlive : ¬ Lapsed next.now lifetime := by
        rw [hnow, hlifetime]
        exact not_lapsed_cacheDeadline state.now request' jitter
      have hhandling : (next.view key).phases other = some .handling := by
        generalize next.view key = view at heffect ⊢
        cases heffect <;> simp [View.move, hne, hother]
      exact not_executedOnce_of_handling (List.mem_append_right history hmem)
        hlive hhandling

end Steps

/-- After a handler of a key has completed with a `2xx` status, it is never
executed again during the lifetime of the response exactly when no step gives
the key up early. -/
theorem executed_once_iff {key : String} {request : Request}
    (hkey : request.redisKey = some key) {now : ℕ} {redis : Redis}
    {events : List Event} {final : State}
    (hrun : run step (State.initial now redis) events = some final) :
    (∀ first, first <+: events → ∀ current,
        run (withHistory step (lifetimes key)) (State.initial now redis, [])
          first = some current → ExecutedOnce key current) ↔
      Guarded (withHistory step (lifetimes key)) (KeepsResponse key)
        (State.initial now redis, []) events := by
  have hinitial : Executed key (State.initial now redis, []) :=
    ⟨by simp, 0, fun _ _ => rfl⟩
  refine always_iff_guarded (fun _ _ => True) (Executed key) (ExecutedOnce key)
    (fun _ hexecuted => .of_executed hexecuted) ?_ ?_ hinitial
    (guarded_true _ events) (run_withHistory hrun)
  · rintro ⟨state, history⟩ event ⟨next, later⟩ hexecuted - hkeeps hstep
    obtain ⟨hstep, rfl⟩ := withHistory_eq_some.mp hstep
    exact hexecuted.of_step hkeeps hstep
  · rintro ⟨state, history⟩ event ⟨next, later⟩ hexecuted - hbad hstep
    obtain ⟨hstep, rfl⟩ := withHistory_eq_some.mp hstep
    exact not_executedOnce_of_not_keepsResponse hkey hexecuted.unbounded hbad
      hstep

/-- The response of the first request cannot be cached; its cleanup removes the
processing entry, and the second request runs the handler again. -/
def failedSetRun : List Event :=
  [.request 0 ⟨"POST", some "key-1", none⟩, .setnx 0 .ok,
    .handle 0 (.responded 200 "created"), .set 0 0 .failed, .del 0 .ok,
    .request 1 ⟨"POST", some "key-1", none⟩, .setnx 1 .ok]

theorem executed_twice_of_failed_set :
    ∃ final, run (withHistory step (lifetimes (getIdempotencyRedisKey "key-1")))
        (State.initial 0 TtlStore.empty, []) failedSetRun = some final ∧
      Guarded step (fun state event =>
          (state.view (getIdempotencyRedisKey "key-1")).KeepsEntry state.now event)
        (State.initial 0 TtlStore.empty) failedSetRun ∧
      final.2 = [some 1800000] ∧ final.1.now = 0 ∧
      (final.1.view (getIdempotencyRedisKey "key-1")).phases 1 = some .handling ∧
      ¬ ExecutedOnce (getIdempotencyRedisKey "key-1") final := by
  obtain ⟨final, hrun, hfinal⟩ := Option.map_eq_some_iff.mp
    (show (run (withHistory step (lifetimes (getIdempotencyRedisKey "key-1")))
        (State.initial 0 TtlStore.empty, []) failedSetRun).map
        (fun current => (current.2, current.1.now,
          (current.1.view (getIdempotencyRedisKey "key-1")).phases 1)) =
      some ([some 1800000], 0, some .handling) by decide +kernel)
  simp only [Prod.mk.injEq] at hfinal
  obtain ⟨hlifetimes, hnow, hhandling⟩ := hfinal
  refine ⟨final, hrun, ?_, hlifetimes, hnow, hhandling, fun honce => ?_⟩
  · apply guarded_of_forall
    intro event hevent middle
    simp only [failedSetRun, List.mem_cons, List.not_mem_nil, or_false] at hevent
    rcases hevent with rfl | rfl | rfl | rfl | rfl | rfl | rfl <;> trivial
  · refine (honce ⟨some 1800000, by simp [hlifetimes], ?_⟩).1 1 hhandling
    simp [Lapsed, hnow]

theorem executed_once_iff_of_failed_set :
    ∃ final, run step (State.initial 0 TtlStore.empty) failedSetRun =
        some final ∧
      ((∀ first, first <+: failedSetRun → ∀ current,
          run (withHistory step (lifetimes (getIdempotencyRedisKey "key-1")))
            (State.initial 0 TtlStore.empty, []) first = some current →
              ExecutedOnce (getIdempotencyRedisKey "key-1") current) ↔
        Guarded (withHistory step (lifetimes (getIdempotencyRedisKey "key-1")))
          (KeepsResponse (getIdempotencyRedisKey "key-1"))
          (State.initial 0 TtlStore.empty, []) failedSetRun) := by
  have henabled : (run step (State.initial 0 TtlStore.empty)
      failedSetRun).isSome = true := by decide +kernel
  obtain ⟨final, hrun⟩ := Option.isSome_iff_exists.mp henabled
  have hkey : (⟨"POST", some "key-1", none⟩ : Request).redisKey =
      some (getIdempotencyRedisKey "key-1") := by decide +kernel
  exact ⟨final, hrun, executed_once_iff hkey hrun⟩

end OceanChat.Idempotency
