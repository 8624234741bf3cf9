import OceanChat.Auth.Sessions

/-!
# Deleted sessions

A logout deletes the session of one device and a detected replay all sessions
of a user, without the locks of the refreshes that are under way.  Both are
final exactly as long as no call that had already passed its check at the
deletion stores its session afterwards.
-/

namespace OceanChat.Auth

open Runs

variable {config : Config} {state start next : State} {event : Event}
variable {id : ℕ} {call : Call} {scope : String × String → Prop}

/-- A call that will store a session without looking at the stored one again:
a login, or a refresh that has found its token stored. -/
def Call.writing : Call → Bool
  | .login _ .sign => true
  | .login _ (.store _ _) => true
  | .refresh _ _ (.lookup _) => true
  | .refresh _ _ (.sign _ _) => true
  | .refresh _ _ (.store _ _ _) => true
  | _ => false

/-- No login of the scope begins. -/
def NoLogin (scope : String × String → Prop) : Event → Prop
  | .login _ user => ¬ scope (user.userId, user.deviceId)
  | _ => True

/-- A transaction takes effect in the scope and its call was already past its
check in the state `start`. -/
def LateStore (scope : String × String → Prop) (start state : State) :
    Event → Prop
  | .exec id _ reply => reply.took = true ∧
      (∃ place, (state.calls id).bind Call.place = some place ∧ scope place) ∧
        (start.calls id).any Call.writing = true
  | _ => False

/-- No device of the scope has a session, and no refresh token of the scope has
been exchanged since `start`. -/
structure Purged (scope : String × String → Prop) (start state : State) :
    Prop where
  session : ∀ userId deviceId, scope (userId, deviceId) →
    state.session userId deviceId = none
  exchanged : ∀ id payload, scope (payload.sub, payload.deviceId) →
    (state.calls id).bind Call.exchanged = some payload →
      (start.calls id).bind Call.exchanged = some payload

/-- Besides, whatever is about to store a session was so at the start. -/
structure Settled (scope : String × String → Prop) (start state : State) :
    Prop extends Purged scope start state where
  writing : ∀ id call place, state.calls id = some call →
    call.place = some place → scope place → call.writing = true →
      (start.calls id).any Call.writing = true

namespace Settled

theorem refl (hsession : ∀ userId deviceId, scope (userId, deviceId) →
    start.session userId deviceId = none) : Settled scope start start where
  session := hsession
  exchanged _ _ _ hexchanged := hexchanged
  writing id call place hcall _ _ hwriting := by simp [hcall, hwriting]

/-- A call moves on, and nothing is stored in the scope. -/
theorem setCall (hsettled : Settled scope start state)
    (hcalls : next.calls = state.calls)
    (hsession : ∀ userId deviceId text, scope (userId, deviceId) →
      next.session userId deviceId = some text →
        state.session userId deviceId = some text)
    (hexchanged : ∀ payload, call.exchanged = some payload →
      scope (payload.sub, payload.deviceId) →
        (state.calls id).bind Call.exchanged = some payload)
    (hwriting : ∀ place, call.place = some place → scope place →
      call.writing = true → (start.calls id).any Call.writing = true) :
    Settled scope start (next.setCall id call) where
  session userId deviceId hscope := by
    by_contra hfound
    obtain ⟨text, htext⟩ := Option.ne_none_iff_exists'.mp hfound
    have hold := hsession userId deviceId text hscope htext
    simp [hsettled.session userId deviceId hscope] at hold
  exchanged other payload hscope hother := by
    by_cases hid : other = id
    · subst hid
      have hnew : call.exchanged = some payload := by
        simpa [State.setCall] using hother
      exact hsettled.exchanged other payload hscope
        (hexchanged payload hnew hscope)
    · exact hsettled.exchanged other payload hscope
        (by simpa [State.setCall, hid, hcalls] using hother)
  writing other old place hother hplace hscope hold := by
    by_cases hid : other = id
    · subst hid
      obtain rfl : call = old := by simpa [State.setCall] using hother
      exact hwriting place hplace hscope hold
    · exact hsettled.writing other old place
        (by simpa [State.setCall, hid, hcalls] using hother) hplace hscope hold

/-- A call that does not store in the scope without having been about to. -/
theorem quiet (hsettled : Settled scope start state)
    (hcalls : next.calls = state.calls)
    (hsession : ∀ userId deviceId text, scope (userId, deviceId) →
      next.session userId deviceId = some text →
        state.session userId deviceId = some text)
    (hexchanged : call.exchanged = none ∨
      (state.calls id).bind Call.exchanged = call.exchanged)
    (hwriting : call.writing = false ∨ ∃ old, state.calls id = some old ∧
      old.writing = true ∧ old.place = call.place) :
    Settled scope start (next.setCall id call) := by
  apply hsettled.setCall hcalls hsession
  · intro payload hpayload _
    rw [hpayload] at hexchanged
    exact hexchanged.resolve_left (by simp)
  · intro place hplace hscope hnew
    rcases hwriting with hdone | ⟨old, hcall, hold, hsame⟩
    · simp [hdone] at hnew
    · exact hsettled.writing id old place hcall (hsame.trans hplace) hscope hold

/-- A refresh of the scope finds no session. -/
theorem read (hsettled : Settled scope start state) (reply : Reply)
    {payload : JwtPayload} {lockValue : String} :
    Settled scope start (state.setCall id (.refresh payload lockValue
      (if reply = .ok then
        afterHget payload (state.session payload.sub payload.deviceId)
      else .release (.error (rethrow .other))))) := by
  have hkept : ∀ userId deviceId text, scope (userId, deviceId) →
      state.session userId deviceId = some text →
        state.session userId deviceId = some text := fun _ _ _ _ h => h
  by_cases hreply : reply = .ok
  · rw [if_pos hreply]
    rcases afterHget_cases payload (state.session payload.sub payload.deviceId)
      with ⟨storage, hphase, hparse, -⟩ | hphase | ⟨error, hphase⟩
    · rw [hphase]
      refine hsettled.setCall rfl hkept (by simp [Call.exchanged]) ?_
      intro place hplace hscope _
      obtain rfl := Option.some.inj hplace
      simp [hsettled.session _ _ hscope] at hparse
    · rw [hphase]
      exact hsettled.quiet rfl hkept (.inl rfl) (.inl rfl)
    · rw [hphase]
      exact hsettled.quiet rfl hkept (.inl rfl) (.inl rfl)
  · rw [if_neg hreply]
    exact hsettled.quiet rfl hkept (.inl rfl) (.inl rfl)

theorem tick (hsettled : Settled scope start state) (ms : ℕ) :
    Settled scope start { state with
      now := state.now + ms
      sessions := HashStore.sweep state.sessions (state.now + ms)
      locks := TtlStore.sweep state.locks (state.now + ms) } where
  session userId deviceId hscope := by
    by_contra hfound
    obtain ⟨text, htext⟩ := Option.ne_none_iff_exists'.mp hfound
    have hold : state.session userId deviceId = some text :=
      HashStore.hget_sweep htext
    simp [hsettled.session userId deviceId hscope] at hold
  exchanged := hsettled.exchanged
  writing := hsettled.writing

theorem store (hsettled : Settled scope start state)
    (place : String × String) (storage : TokenStorage) (jitter : ℕ)
    (reply : Reply) (published : List Message) {old : Call}
    (hlate : ¬ LateStore scope start state (.exec id jitter reply))
    (hcall : state.calls id = some old) (hplace : old.place = some place)
    (hold : old.writing = true) (hsame : call.place = some place)
    (hdone : call.writing = false)
    (hexchanged : call.exchanged = none ∨ reply = .ok) :
    Settled scope start (State.setCall
      { state with
        sessions := if reply.took then
            storeSession config state.sessions state.now jitter place.1 place.2
              storage
          else state.sessions
        published := published } id call) := by
  cases htook : reply.took with
  | false =>
      have hnone : call.exchanged = none := by
        rcases hexchanged with hnone | rfl
        · exact hnone
        · cases htook
      exact hsettled.quiet rfl (fun _ _ _ _ h => h) (.inl hnone) (.inl hdone)
  | true =>
      have houtside : ¬ scope place := by
        intro hscope
        refine hlate ⟨htook, ⟨place, ?_, hscope⟩,
          hsettled.writing id old place hcall hplace hscope hold⟩
        simp [hcall, hplace]
      refine hsettled.setCall rfl ?_ ?_ ?_
      · intro userId deviceId text hscope htext
        have hne : ¬ (userId = place.1 ∧ deviceId = place.2) := by
          rintro ⟨rfl, rfl⟩
          exact houtside hscope
        simpa [State.session, hget_storeSession_of_ne hne] using htext
      · intro payload hpayload hscope
        obtain rfl : place = (payload.sub, payload.deviceId) :=
          Option.some.inj (hsame.symm.trans (place_of_exchanged hpayload))
        exact absurd hscope houtside
      · simp [hdone]

theorem of_step (hsettled : Settled scope start state)
    (hnoLogin : NoLogin scope event)
    (hlate : ¬ LateStore scope start state event)
    (hstep : step config state event = some next) :
    Settled scope start next := by
  have hkept : ∀ userId deviceId text, scope (userId, deviceId) →
      state.session userId deviceId = some text →
        state.session userId deviceId = some text := fun _ _ _ _ h => h
  cases step_effect hstep with
  | login id user hnone =>
      refine hsettled.setCall rfl hkept (by simp [Call.exchanged]) ?_
      rintro place hplace hscope -
      obtain rfl := Option.some.inj hplace
      exact absurd hscope hnoLogin
  | setnx id reply payload lockValue hcall =>
      rcases afterSetnx_cases reply (TtlStore.setnx state.locks
        (lockKey payload.sub payload.deviceId) lockValue
        (some (state.now + lockTtl * 1000))).2 with hphase | ⟨error, hphase⟩ <;>
      · rw [hphase]
        exact hsettled.quiet rfl hkept (.inl rfl) (.inl rfl)
  | read id reply payload lockValue hcall =>
      exact hsettled.read reply
  | revokeAll id reply payload lockValue hcall =>
      refine hsettled.quiet rfl ?_ (.inl rfl) (.inl rfl)
      intro userId deviceId text _ htext
      exact hget_of_took hget_of_del htext
  | lookup id answer payload lockValue storage hcall =>
      rcases afterLookup_cases storage answer with ⟨username, hphase⟩ |
        ⟨error, hphase⟩
      · rw [hphase]
        exact hsettled.quiet rfl hkept (.inl rfl) (.inr ⟨_, hcall, rfl, rfl⟩)
      · rw [hphase]
        exact hsettled.quiet rfl hkept (.inl rfl) (.inl rfl)
  | signLogin id accessJti refreshJti user pair hfresh hpair hcall =>
      exact hsettled.quiet rfl hkept (.inl rfl) (.inr ⟨_, hcall, rfl, rfl⟩)
  | sign id accessJti refreshJti payload lockValue storage username pair hfresh
      hpair hcall =>
      exact hsettled.quiet rfl hkept (.inl rfl) (.inr ⟨_, hcall, rfl, rfl⟩)
  | storeLogin id jitter reply user pair lastActive hcall =>
      exact hsettled.store (user.userId, user.deviceId) _ jitter reply _ hlate
        hcall rfl rfl rfl rfl (.inl rfl)
  | store id jitter reply payload lockValue storage pair lastActive hcall =>
      refine hsettled.store (payload.sub, payload.deviceId) _ jitter reply _
        hlate hcall rfl rfl rfl rfl ?_
      by_cases hreply : reply = .ok
      · exact .inr hreply
      · exact .inl (by simp [hreply, Call.exchanged])
  | release id reply payload lockValue result hcall =>
      refine hsettled.quiet rfl hkept (.inr ?_) (.inl rfl)
      cases result <;> simp [Call.exchanged, hcall]
  | hdel id reply userId deviceId hcall =>
      refine hsettled.quiet rfl ?_ (.inl rfl) (.inl rfl)
      intro userId' deviceId' text _ htext
      exact hget_of_took hget_of_hdel htext
  | crash id call hcall hpending =>
      refine hsettled.quiet rfl hkept (.inl call.exchanged_crash) (.inl ?_)
      cases call <;> rfl
  | tick ms => exact hsettled.tick ms
  | _ => exact hsettled.quiet rfl hkept (.inl rfl) (.inl rfl)

end Settled

/-- A late transaction brings a session back. -/
theorem not_purged_of_lateStore (hlate : LateStore scope start state event)
    (hstep : step config state event = some next) :
    ¬ Purged scope start next := by
  intro hpurged
  cases step_effect hstep with
  | storeLogin id jitter reply user pair lastActive hcall =>
      obtain ⟨htook, ⟨place, hplace, hscope⟩, -⟩ := hlate
      obtain rfl : (user.userId, user.deviceId) = place := by
        simpa [hcall, Call.place] using hplace
      have hnone := hpurged.session user.userId user.deviceId hscope
      simp [State.session, State.setCall, htook] at hnone
  | store id jitter reply payload lockValue storage pair lastActive hcall =>
      obtain ⟨htook, ⟨place, hplace, hscope⟩, -⟩ := hlate
      obtain rfl : (payload.sub, payload.deviceId) = place := by
        simpa [hcall, Call.place] using hplace
      have hnone := hpurged.session payload.sub payload.deviceId hscope
      simp [State.session, State.setCall, htook] at hnone
  | _ => exact hlate

/-- Deleted sessions stay deleted, and none of their refresh tokens is exchanged,
exactly as long as there is no late transaction. -/
theorem purged_iff {events : List Event} {final : State}
    (hdeleted : ∀ userId deviceId, scope (userId, deviceId) →
      start.session userId deviceId = none)
    (hnoLogin : ∀ event ∈ events, NoLogin scope event)
    (hrun : run (step config) start events = some final) :
    (∀ first, first <+: events → ∀ later,
        run (step config) start first = some later →
          Purged scope start later) ↔
      Guarded (step config)
        (fun state event => ¬ LateStore scope start state event) start events := by
  refine always_iff_guarded (fun _ event => NoLogin scope event)
    (Settled scope start) (Purged scope start) ?_ ?_ ?_
    (Settled.refl hdeleted) ?_ hrun
  · exact fun state hsettled => hsettled.toPurged
  · exact fun state event next hsettled hassume hlate hstep =>
      hsettled.of_step hassume hlate hstep
  · exact fun state event next _ _ hlate hstep =>
      not_purged_of_lateStore (not_not.mp hlate) hstep
  · exact guarded_of_forall fun event hevent _ => hnoLogin event hevent

/-! ## Logout -/

section Logout

variable {userId deviceId : String}

/-- Logout of a device is final as long as no call that was past its check when
the logout deleted the session stores one afterwards. -/
theorem logout_final_iff {reply : Reply} {events : List Event} {final : State}
    (hlogout : state.calls id = some (.logout userId deviceId .delete))
    (hdelete : step config state (.hdel id reply) = some start)
    (htook : reply.took = true)
    (hnoLogin : ∀ event ∈ events, NoLogin (· = (userId, deviceId)) event)
    (hrun : run (step config) start events = some final) :
    (∀ first, first <+: events → ∀ later,
        run (step config) start first = some later →
          Purged (· = (userId, deviceId)) start later) ↔
      Guarded (step config) (fun state event =>
        ¬ LateStore (· = (userId, deviceId)) start state event)
        start events := by
  refine purged_iff ?_ hnoLogin hrun
  rintro userId' deviceId' ⟨⟩
  simp only [step, hlogout, htook, if_true, Option.some.injEq] at hdelete
  subst hdelete
  exact HashStore.hget_hdel_same

end Logout

/-- A refresh has found its token stored and a logout has read the session. -/
def logoutRace : List Event :=
  loginEvents 0 ⟨"u1", "alice", "phone"⟩ "a1" "r1" ++
    checkEvents 1 firstToken "lock-1" ++
    [.logout 2 "u1" "phone", .hget 2 .ok]

theorem exists_run_of_logoutRace :
    ∃ state start final, run (step .default) State.initial logoutRace =
        some state ∧
      state.calls 2 = some (.logout "u1" "phone" .delete) ∧
      step .default state (.hdel 2 .ok) = some start ∧
      run (step .default) start (rotateEvents 1 "alice" "a2" "r2") =
        some final ∧
      final.Idle ∧ (final.session "u1" "phone").isSome := by
  obtain ⟨state, hbefore, hlogout⟩ := Option.map_eq_some_iff.mp
    (show (run (step .default) State.initial logoutRace).map
        (fun state => state.calls 2) =
      some (some (.logout "u1" "phone" .delete)) by decide)
  obtain ⟨final, hrun, hfacts⟩ := Option.map_eq_some_iff.mp
    (show (run (step .default) State.initial (logoutRace ++ .hdel 2 .ok ::
        rotateEvents 1 "alice" "a2" "r2")).map (fun state =>
          (state.allFinished [0, 1, 2],
            (state.session "u1" "phone").isSome)) =
      some (true, true) by decide)
  obtain ⟨hfinished, hsession⟩ := Prod.mk.inj hfacts
  have hidle := idle_of_run hrun hfinished
  rw [run_append, hbefore, Option.bind_some, run_cons_eq_some] at hrun
  obtain ⟨start, hdelete, hafter⟩ := hrun
  exact ⟨state, start, final, hbefore, hlogout, hdelete, hafter, hidle,
    hsession⟩

theorem noLogin_rotateEvents (id : ℕ) (username accessJti refreshJti : String) :
    ∀ event ∈ rotateEvents id username accessJti refreshJti,
      NoLogin scope event := by
  simp [rotateEvents, NoLogin]

/-- The refresh stores its successor session after the logout. -/
theorem logout_not_always_final :
    ¬ ∀ (before after : List Event) (state start final : State) (id : ℕ)
      (userId deviceId : String),
      run (step .default) State.initial before = some state →
      state.calls id = some (.logout userId deviceId .delete) →
      step .default state (.hdel id .ok) = some start →
      (∀ event ∈ after, NoLogin (· = (userId, deviceId)) event) →
      run (step .default) start after = some final → final.Idle →
      final.session userId deviceId = none := by
  intro hclaim
  obtain ⟨state, start, final, hbefore, hlogout, hdelete, hafter, hidle,
    hsession⟩ := exists_run_of_logoutRace
  have hnone := hclaim logoutRace (rotateEvents 1 "alice" "a2" "r2") state start
    final 2 "u1" "phone" hbefore hlogout hdelete
    (noLogin_rotateEvents 1 "alice" "a2" "r2") hafter hidle
  simp [hnone] at hsession

theorem logout_final_iff_of_race :
    ∃ start final, run (step .default) start
        (rotateEvents 1 "alice" "a2" "r2") = some final ∧
      ((∀ first, first <+: rotateEvents 1 "alice" "a2" "r2" → ∀ later,
          run (step .default) start first = some later →
            Purged (· = ("u1", "phone")) start later) ↔
        Guarded (step .default) (fun state event =>
          ¬ LateStore (· = ("u1", "phone")) start state event) start
            (rotateEvents 1 "alice" "a2" "r2")) := by
  obtain ⟨state, start, final, -, hlogout, hdelete, hafter, -, -⟩ :=
    exists_run_of_logoutRace
  exact ⟨start, final, hafter, logout_final_iff hlogout hdelete rfl
    (noLogin_rotateEvents 1 "alice" "a2" "r2") hafter⟩

/-! ## Family revocation -/

section Family

variable {payload : JwtPayload} {lockValue : String}

/-- The deletion after a detected replay is final for all devices of the user as
long as no call that was past its check then stores a session afterwards. -/
theorem revocation_final_iff {reply : Reply} {events : List Event}
    {final : State}
    (hdetected : state.calls id =
      some (.refresh payload lockValue .revokeAll))
    (hdelete : step config state (.del id reply) = some start)
    (htook : reply.took = true)
    (hnoLogin : ∀ event ∈ events, NoLogin (·.1 = payload.sub) event)
    (hrun : run (step config) start events = some final) :
    (∀ first, first <+: events → ∀ later,
        run (step config) start first = some later →
          Purged (·.1 = payload.sub) start later) ↔
      Guarded (step config) (fun state event =>
        ¬ LateStore (·.1 = payload.sub) start state event) start events := by
  refine purged_iff ?_ hnoLogin hrun
  rintro userId deviceId rfl
  simp only [step, hdetected, htook, if_true, Option.some.injEq] at hdelete
  subst hdelete
  exact HashStore.hget_del_same

end Family

/-- The refresh token of a first login on the tablet. -/
def tabletToken : Token :=
  (signTokens .default 0 ⟨"u1", "alice", "tablet"⟩ "a2" "r2").refreshToken

/-- The phone's token is rotated and replayed; meanwhile a refresh of the tablet
has found its token stored. -/
def replayRace : List Event :=
  loginEvents 0 ⟨"u1", "alice", "phone"⟩ "a1" "r1" ++
    loginEvents 1 ⟨"u1", "alice", "tablet"⟩ "a2" "r2" ++
    checkEvents 2 firstToken "lock-2" ++ rotateEvents 2 "alice" "a3" "r3" ++
    checkEvents 3 tabletToken "lock-3" ++
    checkEvents 4 firstToken "lock-4" ++ [.hgetall 4 .ok]

/-- The tablet's refresh stores its successor session after the revocation. -/
def replayRaceEnd : List Event :=
  .release 4 .ok :: rotateEvents 3 "alice" "a4" "r4"

theorem exists_run_of_replayRace :
    ∃ state start final, run (step .default) State.initial replayRace =
        some state ∧
      state.calls 4 =
        some (.refresh firstToken.payload "lock-4" .revokeAll) ∧
      step .default state (.del 4 .ok) = some start ∧
      run (step .default) start replayRaceEnd = some final ∧
      final.Idle ∧ (final.session "u1" "tablet").isSome := by
  obtain ⟨state, hbefore, hdetected⟩ := Option.map_eq_some_iff.mp
    (show (run (step .default) State.initial replayRace).map
        (fun state => state.calls 4) =
      some (some (.refresh firstToken.payload "lock-4" .revokeAll)) by decide)
  obtain ⟨final, hrun, hfacts⟩ := Option.map_eq_some_iff.mp
    (show (run (step .default) State.initial
        (replayRace ++ .del 4 .ok :: replayRaceEnd)).map (fun state =>
          (state.allFinished [0, 1, 2, 3, 4],
            (state.session "u1" "tablet").isSome)) =
      some (true, true) by decide)
  obtain ⟨hfinished, hsession⟩ := Prod.mk.inj hfacts
  have hidle := idle_of_run hrun hfinished
  rw [run_append, hbefore, Option.bind_some, run_cons_eq_some] at hrun
  obtain ⟨start, hdelete, hafter⟩ := hrun
  exact ⟨state, start, final, hbefore, hdetected, hdelete, hafter, hidle,
    hsession⟩

theorem noLogin_replayRaceEnd :
    ∀ event ∈ replayRaceEnd, NoLogin scope event := by
  simp [replayRaceEnd, rotateEvents, NoLogin]

theorem revocation_not_always_final :
    ¬ ∀ (before after : List Event) (state start final : State) (id : ℕ)
      (payload : JwtPayload) (lockValue : String),
      run (step .default) State.initial before = some state →
      state.calls id = some (.refresh payload lockValue .revokeAll) →
      step .default state (.del id .ok) = some start →
      (∀ event ∈ after, NoLogin (·.1 = payload.sub) event) →
      run (step .default) start after = some final → final.Idle →
      ∀ deviceId, final.session payload.sub deviceId = none := by
  intro hclaim
  obtain ⟨state, start, final, hbefore, hdetected, hdelete, hafter, hidle,
    hsession⟩ := exists_run_of_replayRace
  have hnone := hclaim replayRace replayRaceEnd state start final 4
    firstToken.payload "lock-4" hbefore hdetected hdelete noLogin_replayRaceEnd
    hafter hidle "tablet"
  have hphone : firstToken.payload.sub = "u1" := rfl
  rw [hphone] at hnone
  simp [hnone] at hsession

theorem revocation_final_iff_of_race :
    ∃ start final, run (step .default) start replayRaceEnd = some final ∧
      ((∀ first, first <+: replayRaceEnd → ∀ later,
          run (step .default) start first = some later →
            Purged (·.1 = "u1") start later) ↔
        Guarded (step .default) (fun state event =>
          ¬ LateStore (·.1 = "u1") start state event) start
            replayRaceEnd) := by
  obtain ⟨state, start, final, -, hdetected, hdelete, hafter, -, -⟩ :=
    exists_run_of_replayRace
  exact ⟨start, final, hafter, revocation_final_iff hdetected hdelete rfl
    noLogin_replayRaceEnd hafter⟩

end OceanChat.Auth
