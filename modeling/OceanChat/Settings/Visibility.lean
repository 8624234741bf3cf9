import OceanChat.Core.Runs
import OceanChat.Settings.Service

/-!
# Visibility of settings writes

After the deletion of a write, reads return values that the database held at or
after the write exactly when nothing brings an older value back into the cache
and no read runs out of attempts.
-/

namespace OceanChat.Settings

open Runs

/-- The value that a step puts into the database under the key. -/
def written (key : String) (state : State) : Event → List Value
  | .upsert key' value reply =>
      if key' = key ∧ reply.took = true then [value.value] else []
  | .createIfNotExists key' value =>
      if key' = key ∧ state.database.lookup key = none then [value.value] else []
  | _ => []

/-- The text that a step writes into the cache under the key: a fill, a
pre-warming, or a lock of another key that has the same name. -/
def writes (key : String) (state : State) : Event → Option Text
  | .read id action =>
      match state.calls id with
      | some ⟨key', _, _, .reading _ phase⟩ =>
          GetOrSet.writes encode (getCacheKey key') (getCacheKey key) state.redis
            phase action
      | _ => none
  | .mset id reply =>
      match state.warmings id with
      | some (.found allSettings) =>
          if reply.took then
            (allSettings.lookup key).map fun setting => valueToCache setting.value
          else none
      | _ => none
  | _ => none

/-- The step ends a call that has come after `old` with null: all of its attempts
came back with null. -/
def GivesUp (key : String) (old state : State) : Event → Prop
  | .call _ key' retries _ => key' = key ∧ retries = 0
  | .wake id =>
      ∃ retries delay attempt wakesAt, old.calls id = none ∧
        state.calls id = some ⟨key, retries, delay, .waiting attempt wakesAt⟩ ∧
        retries ≤ attempt + 1
  | _ => False

/-- Every call that has come after `old` and has returned, has returned a value
of the list, and so does a call that comes now and finds an entry. -/
structure Visible (key : String) (old : State) (current : State × List Value) :
    Prop where
  returned : ∀ id retries delay value, old.calls id = none →
    current.1.calls id = some ⟨key, retries, delay, .returned value⟩ →
      value ∈ current.2
  next : ∀ id retries delay value next, current.1.calls id = none →
    run step current.1 [.call id key retries delay, .read id (.get .ok)] =
      some next →
    next.calls id = some ⟨key, retries, delay, .returned value⟩ →
      value ∈ current.2

/-- What the step writes under the key reads back as a value of the list, and
null is one of them when the step ends a call with null. -/
def KeepsVisible (key : String) (old : State) (current : State × List Value)
    (event : Event) : Prop :=
  (∀ raw, writes key current.1 event = some raw →
    readResult (.json (.string raw)) ∈ current.2) ∧
  (GivesUp key old current.1 event → .json .null ∈ current.2)

/-! ## What a step does -/

/-- The call that a step belongs to. -/
def Event.target : Event → Option ℕ
  | .call id .. | .read id _ | .wake id => some id
  | _ => none

section Steps

variable {key : String} {state next : State} {event : Event}

theorem calls_of_step (hstep : step state event = some next) {id : ℕ}
    (hother : event.target ≠ some id) : next.calls id = state.calls id := by
  cases effect_of_step hstep with
  | call | read | wake =>
      refine State.advance_calls_of_ne _ _ _ _ ?_
      rintro rfl
      exact hother rfl
  | _ => rfl

theorem calls_ne_none_of_step (hstep : step state event = some next) {id : ℕ}
    (hcall : state.calls id ≠ none) : next.calls id ≠ none := by
  by_cases htarget : event.target = some id
  · cases effect_of_step hstep with
    | call | read | wake =>
        obtain rfl := Option.some.inj htarget
        simp
    | _ => cases htarget
  · rwa [calls_of_step hstep htarget]

theorem lookup_insert (database : Database) (key key' : String)
    (setting : SettingValue) :
    (database.insert key' setting).lookup key =
      if key' = key then some setting else database.lookup key := by
  split
  · rename_i heq
    rw [← heq, AList.lookup_insert]
  · rename_i hne
    exact AList.lookup_insert_ne fun heq => hne heq.symm

/-- A step writes the setting and says so, or leaves it alone. -/
theorem lookup_of_step (hstep : step state event = some next) (key : String) :
    (written key state event = [] ∧
        next.database.lookup key = state.database.lookup key) ∨
      ∃ setting, written key state event = [setting.value] ∧
        next.database.lookup key = some setting := by
  cases effect_of_step hstep with
  | @upsert key' value reply =>
      by_cases hkey : key' = key ∧ reply.took = true
      · exact .inr ⟨value, by simp [written, hkey], by simp [hkey]⟩
      · refine .inl ⟨by simp [written, hkey], ?_⟩
        cases htook : reply.took with
        | false => rfl
        | true =>
            have hne : key' ≠ key := fun heq => hkey ⟨heq, htook⟩
            simp [lookup_insert, hne]
  | @createIfNotExists key' value =>
      by_cases hkey : key' = key
      · subst hkey
        cases hlookup : state.database.lookup key' with
        | none =>
            exact .inr ⟨value, by simp [written, hlookup], by simp⟩
        | some setting => exact .inl ⟨by simp [written, hlookup], by simp [hlookup]⟩
      · refine .inl ⟨by simp [written, hkey], ?_⟩
        simp only
        split
        · simp [lookup_insert, hkey]
        · rfl
  | _ => exact .inl ⟨rfl, rfl⟩

/-- A step writes the entry and says so, or writes nothing new. -/
theorem entry_of_step (hstep : step state event = some next) (key : String) :
    (writes key state event = none ∧
        ∀ raw, TtlStore.get next.redis (getCacheKey key) = some raw →
          TtlStore.get state.redis (getCacheKey key) = some raw) ∨
      ∃ raw, writes key state event = some raw ∧
        TtlStore.get next.redis (getCacheKey key) = some raw := by
  cases effect_of_step hstep with
  | @read id action key' retries delay attempt phase redis phase' hcall hread =>
      simp only [writes, hcall, State.advance_redis]
      rcases GetOrSet.entry_of_step hread (getCacheKey key) with
        ⟨hwrites, hsame | hnone⟩ | hwritten
      · exact .inl ⟨hwrites, fun raw hraw => by rwa [TtlStore.get, hsame] at hraw⟩
      · refine .inl ⟨hwrites, fun raw hraw => ?_⟩
        simp [TtlStore.get, hnone] at hraw
      · exact .inr hwritten
  | @del key' reply =>
      refine .inl ⟨rfl, fun raw hraw => ?_⟩
      cases htook : reply.took with
      | false => simpa [htook] using hraw
      | true =>
          by_cases hkey : getCacheKey key = getCacheKey key'
          · simp [htook, hkey] at hraw
          · simpa [htook, TtlStore.get_del_of_ne hkey] using hraw
  | @mset id reply allSettings hwarming =>
      simp only [writes, hwarming]
      cases htook : reply.took with
      | false => exact .inl ⟨rfl, fun raw hraw => hraw⟩
      | true =>
          simp only [if_true, get_mset_msetPayload]
          cases allSettings.lookup key with
          | none => exact .inl ⟨rfl, fun raw hraw => hraw⟩
          | some setting => exact .inr ⟨_, rfl, rfl⟩
  | @expire id key' jitter reply =>
      refine .inl ⟨rfl, fun raw hraw => ?_⟩
      cases htook : reply.took <;> simpa [htook] using hraw
  | tick => exact .inl ⟨rfl, fun raw hraw => TtlStore.get_of_get_sweep hraw⟩
  | _ => exact .inl ⟨rfl, fun raw hraw => hraw⟩

end Steps

/-! ## What a call holds -/

section Holds

variable {held held' : List Value}

def Reads (held : List Value) (raw : Text) : Prop :=
  readResult (.json (.string raw)) ∈ held

def Fetches (held : List Value) (value : Option Value) : Prop :=
  ∃ setting : SettingValue, value = some setting.value ∧ setting.value ∈ held

def Stores (held : List Value) (value : Option Value) : Prop :=
  ∃ result, value = some result ∧ readResult result ∈ held

/-- Whatever the call can still return comes from the list. -/
def Progress.Holds (held : List Value) : Progress → Prop
  | .reading _ phase => phase.Holds (Reads held) (Fetches held) (Stores held)
  | .returned value => value ∈ held
  | _ => True

/-- A value that is fetched from the list and stored so that it reads back as a
value of the list is returned as one. -/
theorem stores_of_fetches {value : Option Value} (hfetches : Fetches held value)
    (hreads : Reads held (encode value)) : Stores held value := by
  obtain ⟨setting, rfl, hmem⟩ := hfetches
  refine ⟨setting.value, rfl, ?_⟩
  have hread : readResult (.json (.string (valueToStore setting.value))) ∈ held :=
    hreads
  rw [readResult_valueToStore] at hread
  cases hvalue : setting.value with
  | json value => simpa [hvalue] using hread
  | date value => simpa [hvalue, readResult] using hmem

theorem Progress.Holds.mono {progress : Progress}
    (hsub : ∀ value ∈ held, value ∈ held') (hholds : progress.Holds held) :
    progress.Holds held' := by
  cases progress with
  | reading attempt phase =>
      refine GetOrSet.Phase.Holds.mono (fun raw hraw => hsub _ hraw) ?_ ?_ hholds
      · rintro value ⟨setting, rfl, hmem⟩
        exact ⟨setting, rfl, hsub _ hmem⟩
      · rintro value ⟨result, rfl, hmem⟩
        exact ⟨result, rfl, hsub _ hmem⟩
  | returned value => exact hsub _ hholds
  | _ => trivial

theorem holds_startAttempt {retries attempt : ℕ}
    (hnull : retries ≤ attempt → .json .null ∈ held) :
    (startAttempt retries attempt).Holds held := by
  unfold startAttempt
  split
  · trivial
  · rename_i hattempt
    exact hnull (not_lt.mp hattempt)

theorem holds_continueAttempt {delay now attempt : ℕ}
    {phase : GetOrSet.Phase Text Value}
    (hholds : phase.Holds (Reads held) (Fetches held) (Stores held)) :
    (continueAttempt delay now attempt phase).Holds held := by
  cases phase with
  | returned outcome =>
      cases outcome with
      | cached raw => exact hholds
      | fetched value =>
          obtain ⟨result, rfl, hmem⟩ := hholds
          exact hmem
      | gaveUp | threw => trivial
  | _ => exact hholds

end Holds

/-! ## What a step keeps -/

/-- All but finitely many calls are still to come. -/
def Unbounded (state : State) : Prop :=
  ∃ bound, ∀ id, bound ≤ id → state.calls id = none

theorem Unbounded.of_step {state next : State} {event : Event}
    (hunbounded : Unbounded state) (hstep : step state event = some next) :
    Unbounded next :=
  exists_bound_of_step (fun _ hother => calls_of_step hstep hother) hunbounded

/-- The entry reads back as a value of the list, the database holds one, and the
calls that have come after `old` can only return such values. -/
structure Served (key : String) (old : State) (current : State × List Value) :
    Prop where
  entry : ∀ raw, TtlStore.get current.1.redis (getCacheKey key) = some raw →
    Reads current.2 raw
  database : ∃ setting, current.1.database.lookup key = some setting ∧
    setting.value ∈ current.2
  calls : ∀ id retries delay progress, old.calls id = none →
    current.1.calls id = some ⟨key, retries, delay, progress⟩ →
      progress.Holds current.2
  kept : ∀ id, old.calls id ≠ none → current.1.calls id ≠ none
  unbounded : Unbounded current.1

section Keeps

variable {key : String} {old state next : State} {held : List Value}
variable {event : Event}

theorem Served.calls_of_step (hserved : Served key old (state, held))
    (hkeeps : KeepsVisible key old (state, held) event)
    (hstep : step state event = some next) {id retries delay : ℕ}
    {progress : Progress} (hnew : old.calls id = none)
    (hcall : next.calls id = some ⟨key, retries, delay, progress⟩) :
    progress.Holds (held ++ written key state event) := by
  have hsub : ∀ value ∈ held, value ∈ held ++ written key state event :=
    fun value hmem => List.mem_append_left _ hmem
  by_cases htarget : event.target = some id
  · cases effect_of_step hstep with
    | @call id' key' retries' delay' hnone =>
        obtain rfl := Option.some.inj htarget
        simp only [State.advance_calls_same, Option.some.injEq,
          Call.mk.injEq] at hcall
        obtain ⟨rfl, rfl, rfl, rfl⟩ := hcall
        refine (holds_startAttempt fun hle => ?_).mono hsub
        exact hkeeps.2 ⟨rfl, Nat.le_zero.mp hle⟩
    | @read id' action key' retries' delay' attempt phase redis phase' hread hphase =>
        obtain rfl := Option.some.inj htarget
        simp only [State.advance_calls_same, Option.some.injEq,
          Call.mk.injEq] at hcall
        obtain ⟨rfl, rfl, rfl, rfl⟩ := hcall
        obtain ⟨setting, hlookup, hmem⟩ := hserved.database
        have hholds : phase.Holds (Reads held) (Fetches held) (Stores held) :=
          hserved.calls id' _ _ _ hnew hread
        have hwrites : ∀ raw, GetOrSet.writes encode (getCacheKey key')
            (getCacheKey key') state.redis phase action = some raw →
              Reads held raw :=
          fun raw hraw => hkeeps.1 raw (by simpa only [writes, hread] using hraw)
        refine (holds_continueAttempt ?_).mono hsub
        exact hholds.of_step hphase (by decide) (by decide) hserved.entry
          ⟨setting, by simp [hlookup], hmem⟩ hwrites fun _ => stores_of_fetches
    | @wake id' key' retries' delay' attempt wakesAt hwaiting =>
        obtain rfl := Option.some.inj htarget
        simp only [State.advance_calls_same, Option.some.injEq,
          Call.mk.injEq] at hcall
        obtain ⟨rfl, rfl, rfl, rfl⟩ := hcall
        refine (holds_startAttempt fun hle => ?_).mono hsub
        exact hkeeps.2 ⟨retries', delay', attempt, wakesAt, hnew, hwaiting, hle⟩
    | _ => cases htarget
  · rw [OceanChat.Settings.calls_of_step hstep htarget] at hcall
    exact (hserved.calls id retries delay progress hnew hcall).mono hsub

theorem Served.of_step (hserved : Served key old (state, held))
    (hkeeps : KeepsVisible key old (state, held) event)
    (hstep : step state event = some next) :
    Served key old (next, held ++ written key state event) := by
  have hsub : ∀ value ∈ held, value ∈ held ++ written key state event :=
    fun value hmem => List.mem_append_left _ hmem
  refine ⟨fun raw hraw => ?_, ?_, fun id retries delay progress hnew hcall =>
    hserved.calls_of_step hkeeps hstep hnew hcall, fun id hold =>
      calls_ne_none_of_step hstep (hserved.kept id hold),
    hserved.unbounded.of_step hstep⟩
  · rcases entry_of_step hstep key with ⟨-, hsame⟩ | ⟨text, hwrites, htext⟩
    · exact hsub _ (hserved.entry raw (hsame raw hraw))
    · obtain rfl := Option.some.inj (htext.symm.trans hraw)
      exact hsub _ (hkeeps.1 text hwrites)
  · rcases lookup_of_step hstep key with ⟨-, hsame⟩ | ⟨setting, hwritten, hlookup⟩
    · obtain ⟨setting, hlookup, hmem⟩ := hserved.database
      exact ⟨setting, hsame.trans hlookup, hsub _ hmem⟩
    · exact ⟨setting, hlookup, by simp [hwritten]⟩

/-- A call that comes now and returns at once has found an entry. -/
theorem exists_entry_of_run_hit {id retries delay : ℕ} {value : Value} {final : State}
    (hrun : run step state [.call id key retries delay, .read id (.get .ok)] =
      some final)
    (hcall : final.calls id = some ⟨key, retries, delay, .returned value⟩) :
    ∃ raw, TtlStore.get state.redis (getCacheKey key) = some raw ∧
      readResult (.json (.string raw)) = value := by
  obtain ⟨middle, hcalled, hrun⟩ := run_cons_eq_some.mp hrun
  obtain ⟨final', hread, hrun⟩ := run_cons_eq_some.mp hrun
  obtain rfl : final' = final := by simpa using hrun
  cases effect_of_step hcalled with
  | call hnone =>
      cases effect_of_step hread with
      | @read _ _ key' retries' delay' attempt phase redis phase' hreading hphase =>
          simp only [State.advance_calls_same, Option.some.injEq,
            Call.mk.injEq] at hreading hcall
          obtain ⟨rfl, rfl, rfl, hstart⟩ := hreading
          obtain ⟨-, -, -, hreturned⟩ := hcall
          unfold startAttempt at hstart
          split at hstart
          · obtain ⟨rfl, rfl⟩ := Progress.reading.inj hstart
            obtain ⟨-, rfl⟩ := Prod.mk.inj (Option.some.inj hphase)
            simp only [State.advance_redis] at hreturned
            cases hentry : TtlStore.get state.redis (getCacheKey key) with
            | none => simp [hentry, continueAttempt] at hreturned
            | some raw =>
                refine ⟨raw, rfl, ?_⟩
                simpa [hentry, continueAttempt] using hreturned
          · cases hstart

/-- A call that comes while the key has an entry can return at once. -/
theorem exists_run_hit (hunbounded : Unbounded state) {raw : Text}
    (hentry : TtlStore.get state.redis (getCacheKey key) = some raw) :
    ∃ id final, state.calls id = none ∧
      run step state [.call id key 3 150, .read id (.get .ok)] = some final ∧
      final.calls id = some ⟨key, 3, 150,
        .returned (readResult (.json (.string raw)))⟩ := by
  obtain ⟨id, hbound⟩ := hunbounded
  have hnone := hbound id le_rfl
  refine ⟨id, state.advance id state.redis
    ⟨key, 3, 150, .returned (readResult (.json (.string raw)))⟩, hnone, ?_,
    State.advance_calls_same _ _ _ _⟩
  simp [run, step, hnone, startAttempt, GetOrSet.step, hentry, continueAttempt]

theorem Served.visible {current : State × List Value}
    (hserved : Served key old current) : Visible key old current where
  returned id retries delay value hnew hcall :=
    hserved.calls id retries delay _ hnew hcall
  next id retries delay value final hnone hrun hcall := by
    obtain ⟨raw, hentry, rfl⟩ := exists_entry_of_run_hit hrun hcall
    exact hserved.entry raw hentry

theorem written_of_writes {raw : Text} (hwrites : writes key state event = some raw) :
    written key state event = [] := by
  cases event with
  | upsert | createIfNotExists => cases hwrites
  | _ => rfl

theorem exists_returned_of_givesUp (hkept : ∀ id, old.calls id ≠ none →
      state.calls id ≠ none)
    (hgivesUp : GivesUp key old state event)
    (hstep : step state event = some next) :
    written key state event = [] ∧ ∃ id retries delay, old.calls id = none ∧
      next.calls id = some ⟨key, retries, delay, .returned (.json .null)⟩ := by
  cases effect_of_step hstep with
  | @call id key' retries delay hnone =>
      obtain ⟨rfl, rfl⟩ := hgivesUp
      refine ⟨rfl, id, 0, delay, ?_, by simp [startAttempt]⟩
      by_contra hold
      exact hkept id hold hnone
  | @wake id key' retries delay attempt wakesAt hwaiting =>
      obtain ⟨retries', delay', attempt', wakesAt', hnew, hcall, hle⟩ := hgivesUp
      rw [hwaiting] at hcall
      simp only [Option.some.injEq, Call.mk.injEq, Progress.waiting.injEq] at hcall
      obtain ⟨rfl, rfl, rfl, rfl, rfl⟩ := hcall
      exact ⟨rfl, id, retries, delay, hnew, by simp [startAttempt, hle]⟩
  | _ => cases hgivesUp

/-- Outside the guard a call returns another value, or can at once return one. -/
theorem not_visible_of_not_keepsVisible (hserved : Served key old (state, held))
    (hbad : ¬ KeepsVisible key old (state, held) event)
    (hstep : step state event = some next) :
    ¬ Visible key old (next, held ++ written key state event) := by
  intro hvisible
  apply hbad
  constructor
  · intro raw hwrites
    obtain ⟨raw', hwrites', hentry⟩ :=
      (entry_of_step hstep key).resolve_left fun hnone => by
        rw [hnone.1] at hwrites
        cases hwrites
    obtain rfl := Option.some.inj (hwrites.symm.trans hwrites')
    obtain ⟨id, final, hnone, hrun, hcall⟩ :=
      exists_run_hit (hserved.unbounded.of_step hstep) hentry
    have hmem := hvisible.next id 3 150 _ final hnone hrun hcall
    rwa [written_of_writes hwrites, List.append_nil] at hmem
  · intro hgivesUp
    obtain ⟨hwritten, id, retries, delay, hnew, hcall⟩ :=
      exists_returned_of_givesUp hserved.kept hgivesUp hstep
    have hmem := hvisible.returned id retries delay _ hnew hcall
    rwa [hwritten, List.append_nil] at hmem

end Keeps

/-! ## Runs -/

/-- The values of the key from its write on. -/
def heldSince (key : String) (value : SettingValue) (stored : State)
    (events : List Event) : List Value :=
  [value.value] ++ trace step (written key) stored events

section Run

variable {key : String} {value : SettingValue} {now : ℕ}
variable {redis : TtlStore.Store String Text} {database : Database}
variable {before between after : List Event}
variable {ready stored pending deleted final : State}

theorem exists_lookup_mem_heldSince
    (hwrite : step ready (.upsert key value .ok) = some stored)
    (hbetween : run step stored between = some pending) :
    ∃ setting, pending.database.lookup key = some setting ∧
      setting.value ∈ heldSince key value stored between := by
  refine trace_invariant (fun state history =>
    ∃ setting, state.database.lookup key = some setting ∧ setting.value ∈ history)
    ?_ ?_ (guarded_true _ _) hbetween
  · rintro state history event next ⟨setting, hlookup, hmem⟩ - hstep
    rcases lookup_of_step hstep key with ⟨-, hsame⟩ | ⟨setting', hwritten, hlookup'⟩
    · exact ⟨setting, hsame.trans hlookup, List.mem_append_left _ hmem⟩
    · exact ⟨setting', hlookup', by simp [hwritten]⟩
  · obtain rfl := Option.some.inj hwrite
    exact ⟨value, by simp [Reply.took], by simp⟩

theorem served_of_runs
    (hbefore : run step (State.initial now redis database) before = some ready)
    (hwrite : step ready (.upsert key value .ok) = some stored)
    (hbetween : run step stored between = some pending)
    (hdel : step pending (.del key .ok) = some deleted) :
    Served key deleted (deleted, heldSince key value stored between) := by
  have hunbounded : Unbounded ready :=
    run_invariant Unbounded (fun _ _ _ hunbounded hstep => hunbounded.of_step hstep)
      ⟨0, fun _ _ => rfl⟩ hbefore
  have hpending : Unbounded pending :=
    run_invariant Unbounded (fun _ _ _ hunbounded hstep => hunbounded.of_step hstep)
      (hunbounded.of_step hwrite) hbetween
  have hlookup := exists_lookup_mem_heldSince hwrite hbetween
  refine ⟨fun raw hraw => ?_, ?_, ?_, fun id hold => hold, hpending.of_step hdel⟩
  · cases effect_of_step hdel with
    | del => simp [Reply.took] at hraw
  · cases effect_of_step hdel with
    | del => exact hlookup
  · intro id retries delay progress hnew hcall
    rw [hnew] at hcall
    cases hcall

/-- After the deletion of a write has taken effect, every read that comes
returns a value that the database held since the write, exactly when every text
that is written under the key reads back as one and no read gives up. -/
theorem visible_iff
    (hbefore : run step (State.initial now redis database) before = some ready)
    (hwrite : step ready (.upsert key value .ok) = some stored)
    (hbetween : run step stored between = some pending)
    (hdel : step pending (.del key .ok) = some deleted)
    (hafter : run step deleted after = some final) :
    (∀ first, first <+: after → ∀ current,
        run (withHistory step (written key))
          (deleted, heldSince key value stored between) first = some current →
            Visible key deleted current) ↔
      Guarded (withHistory step (written key)) (KeepsVisible key deleted)
        (deleted, heldSince key value stored between) after := by
  refine always_iff_guarded (fun _ _ => True) (Served key deleted)
    (Visible key deleted) (fun _ hserved => hserved.visible) ?_ ?_
    (served_of_runs hbefore hwrite hbetween hdel) (guarded_true _ after)
    (run_withHistory hafter)
  · rintro ⟨state, history⟩ event ⟨next, later⟩ hserved - hkeeps hstep
    obtain ⟨hstep, rfl⟩ := withHistory_eq_some.mp hstep
    exact hserved.of_step hkeeps hstep
  · rintro ⟨state, history⟩ event ⟨next, later⟩ hserved - hbad hstep
    obtain ⟨hstep, rfl⟩ := withHistory_eq_some.mp hstep
    exact not_visible_of_not_keepsVisible hserved hbad hstep

end Run

/-! ## A stale fill -/

def digitKey : String := "Accounts_Password_RequireDigit"

def booleanSetting (value : Bool) : SettingValue where
  value := .json (.boolean value)
  isSetting := ⟨by simp, trivial⟩

/-- Call 0 misses and fetches the old value. -/
def missRun : List Event :=
  [.call 0 digitKey 3 150, .read 0 (.get .ok), .read 0 (.setnx [49] .ok),
    .read 0 (.fetch 0 .ok)]

/-- Call 0 stores the old value after the deletion, and call 1 finds it. -/
def staleFillRun : List Event :=
  [.read 0 (.set .ok), .call 1 digitKey 3 150, .read 1 (.get .ok)]

/-- The key of a call and the boolean that it has returned. -/
def returnedBoolean (state : State) (id : ℕ) : Option (String × Bool) :=
  match state.calls id with
  | some ⟨key, _, _, .returned (.json (.boolean value))⟩ => some (key, value)
  | _ => none

theorem exists_call_of_returnedBoolean {state : State} {id : ℕ} {key : String}
    {value : Bool} (hreturned : returnedBoolean state id = some (key, value)) :
    ∃ retries delay, state.calls id =
      some ⟨key, retries, delay, .returned (.json (.boolean value))⟩ := by
  unfold returnedBoolean at hreturned
  split at hreturned
  · rename_i key' retries delay value' hcall
    obtain ⟨rfl, rfl⟩ := Prod.mk.inj (Option.some.inj hreturned)
    exact ⟨retries, delay, hcall⟩
  · cases hreturned

theorem exists_staleFillRun : ∃ ready stored deleted final,
    run step (State.initial 0 TtlStore.empty
      (AList.singleton digitKey (booleanSetting true))) missRun = some ready ∧
    step ready (.upsert digitKey (booleanSetting false) .ok) = some stored ∧
    step stored (.del digitKey .ok) = some deleted ∧
    run step deleted staleFillRun = some final ∧
    deleted.calls 1 = none ∧ ∃ retries delay, final.calls 1 =
      some ⟨digitKey, retries, delay, .returned (.json (.boolean true))⟩ := by
  have hrun : ((run step (State.initial 0 TtlStore.empty
      (AList.singleton digitKey (booleanSetting true))) missRun).bind fun ready =>
      (step ready (.upsert digitKey (booleanSetting false) .ok)).bind fun stored =>
        (step stored (.del digitKey .ok)).bind fun deleted =>
          (run step deleted staleFillRun).map fun final =>
            ((deleted.calls 1).isNone, returnedBoolean final 1)) =
      some (true, some (digitKey, true)) := by decide +kernel
  obtain ⟨ready, hbefore, hrun⟩ := Option.bind_eq_some_iff.mp hrun
  obtain ⟨stored, hwrite, hrun⟩ := Option.bind_eq_some_iff.mp hrun
  obtain ⟨deleted, hdel, hrun⟩ := Option.bind_eq_some_iff.mp hrun
  obtain ⟨final, hafter, hfinal⟩ := Option.map_eq_some_iff.mp hrun
  obtain ⟨hnew, hreturned⟩ := Prod.mk.inj hfinal
  exact ⟨ready, stored, deleted, final, hbefore, hwrite, hdel, hafter,
    Option.isNone_iff_eq_none.mp hnew, exists_call_of_returnedBoolean hreturned⟩

/-- The database has held `false` since the write, and the call returns `true`. -/
theorem not_visible_of_staleFillRun : ∃ ready stored deleted final,
    run step (State.initial 0 TtlStore.empty
      (AList.singleton digitKey (booleanSetting true))) missRun = some ready ∧
    step ready (.upsert digitKey (booleanSetting false) .ok) = some stored ∧
    step stored (.del digitKey .ok) = some deleted ∧
    run step deleted staleFillRun = some final ∧
    heldSince digitKey (booleanSetting false) stored [] =
      [.json (.boolean false)] ∧
    ¬ Visible digitKey deleted
      (final, heldSince digitKey (booleanSetting false) stored []) := by
  obtain ⟨ready, stored, deleted, final, hbefore, hwrite, hdel, hafter, hnew,
    retries, delay, hcall⟩ := exists_staleFillRun
  refine ⟨ready, stored, deleted, final, hbefore, hwrite, hdel, hafter, rfl,
    fun hvisible => ?_⟩
  have hmem := hvisible.returned 1 retries delay _ hnew hcall
  simp [heldSince, booleanSetting] at hmem

theorem visible_iff_of_staleFillRun : ∃ stored deleted final,
    run step deleted staleFillRun = some final ∧
    ((∀ first, first <+: staleFillRun → ∀ current,
        run (withHistory step (written digitKey))
          (deleted, heldSince digitKey (booleanSetting false) stored []) first =
            some current → Visible digitKey deleted current) ↔
      Guarded (withHistory step (written digitKey)) (KeepsVisible digitKey deleted)
        (deleted, heldSince digitKey (booleanSetting false) stored [])
        staleFillRun) := by
  obtain ⟨ready, stored, deleted, final, hbefore, hwrite, hdel, hafter, -⟩ :=
    exists_staleFillRun
  exact ⟨stored, deleted, final, hafter,
    visible_iff hbefore hwrite (run_nil stored) hdel hafter⟩

end OceanChat.Settings
