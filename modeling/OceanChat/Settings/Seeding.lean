import OceanChat.Settings.Service

/-!
# Seeding the default settings

Every instance that owns the seeds creates the default settings one after the
other when it starts, and then fills the cache.  Any number of instances start
at any time, next to each other and to all calls of the service, and any of their
commands may fail, which ends the start of the instance.
-/

namespace OceanChat.Settings.Seeding

open Runs (run)
open Text (ofAscii)

structure DefaultSetting where
  key : String
  value : SettingValue

theorem isSetting_number (value : ℤ) (hvalue : |value| < 2 ^ 53) :
    (Value.json (.number (.ofInt value hvalue))).IsSetting :=
  ⟨by simp, trivial⟩

theorem isSetting_string (value : Text) : (Value.json (.string value)).IsSetting :=
  ⟨by simp, trivial⟩

theorem isSetting_boolean (value : Bool) : (Value.json (.boolean value)).IsSetting :=
  ⟨by simp, trivial⟩

def int (value : ℤ) (hvalue : |value| < 2 ^ 53) : SettingValue where
  value := .json (.number (.ofInt value hvalue))
  isSetting := isSetting_number value hvalue

def text (value : String) : SettingValue where
  value := .json (.string (ofAscii value.toList))
  isSetting := isSetting_string _

def boolean (value : Bool) : SettingValue where
  value := .json (.boolean value)
  isSetting := isSetting_boolean value

def defaultSettings : List DefaultSetting :=
  [⟨"Accounts_Username_MinLength", int 3 (by decide)⟩,
    ⟨"Accounts_Username_MaxLength", int 20 (by decide)⟩,
    ⟨"Accounts_Username_Regex", text "^[a-zA-Z0-9_.-]+$"⟩,
    ⟨"Accounts_Password_MinLength", int 6 (by decide)⟩,
    ⟨"Accounts_Password_RequireDigit", boolean true⟩,
    ⟨"Accounts_Password_RequireLowercase", boolean true⟩,
    ⟨"Accounts_Password_RequireUppercase", boolean true⟩,
    ⟨"Accounts_Password_RequireSpecialChar", boolean true⟩]

/-- Where an `onModuleInit` is: it still has to create `remaining`, has read the
settings, awaits the lifetimes, or is over. -/
inductive Seeder
  | creating (remaining : List DefaultSetting)
  | warming
  | expiring
  | initialized
  | skipped
  | failed

structure State where
  service : Settings.State
  seeders : ℕ → Option Seeder

def State.initial (service : Settings.State) : State := ⟨service, fun _ => none⟩

def State.put (state : State) (id : ℕ) (service : Settings.State) (seeder : Seeder) :
    State :=
  ⟨service, Function.update state.seeders id (some seeder)⟩

/-- An event of a call or of the clock, as opposed to one of a seeding. -/
def IsCall : Settings.Event → Bool
  | .createIfNotExists .. | .find .. | .mset .. | .expire .. => false
  | _ => true

/-- A command of the pre-warming. -/
def IsWarming : Settings.Event → Bool
  | .find .. | .mset .. | .expire .. => true
  | _ => false

inductive Event
  | service (event : Settings.Event)
  | onModuleInit (id : ℕ) (runSeeds : Bool)
  | create (id : ℕ) (reply : Reply)
  | find (id : ℕ) (reply : Reply)
  | mset (id : ℕ) (reply : Reply)
  | expire (id : ℕ) (key : String) (jitter : ℕ) (reply : Reply)
  | finish (id : ℕ)

/-- The next stage, unless the command has been rejected. -/
def Seeder.after (reply : Reply) (seeder : Seeder) : Seeder :=
  if reply = .ok then seeder else .failed

def step (state : State) : Event → Option State
  | .service event =>
      if IsCall event then
        (Settings.step state.service event).map fun service => { state with service }
      else none
  | .onModuleInit id runSeeds =>
      if (state.seeders id).isNone then
        some (state.put id state.service
          (if runSeeds then .creating defaultSettings else .skipped))
      else none
  | .create id reply =>
      match state.seeders id with
      | some (.creating (setting :: remaining)) =>
          if reply.took then
            (Settings.step state.service
              (.createIfNotExists setting.key setting.value)).map fun service =>
                state.put id service (Seeder.after reply (.creating remaining))
          else some (state.put id state.service .failed)
      | _ => none
  | .find id reply =>
      match state.seeders id with
      | some (.creating []) =>
          if reply = .ok then
            (Settings.step state.service (.find id)).map fun service =>
              state.put id service .warming
          else some (state.put id state.service .failed)
      | _ => none
  | .mset id reply =>
      match state.seeders id with
      | some .warming =>
          (Settings.step state.service (.mset id reply)).map fun service =>
            state.put id service (Seeder.after reply .expiring)
      | _ => none
  | .expire id key jitter reply =>
      match state.seeders id with
      | some .expiring =>
          (Settings.step state.service (.expire id key jitter reply)).map fun service =>
            state.put id service (Seeder.after reply .expiring)
      | some .failed =>
          (Settings.step state.service (.expire id key jitter reply)).map fun service =>
            { state with service }
      | _ => none
  | .finish id =>
      match state.seeders id, state.service.warmings id with
      | some .warming, some (.expiring []) | some .expiring, some (.expiring []) =>
          some (state.put id state.service .initialized)
      | _, _ => none

/-! ## What a step does to the database -/

/-- The default is stored where there is nothing. -/
def createDefault (database : Database) (setting : DefaultSetting) : Database :=
  if (database.lookup setting.key).isNone then
    database.insert setting.key setting.value
  else database

theorem lookup_createDefault (database : Database) (setting : DefaultSetting)
    (key : String) :
    (createDefault database setting).lookup key =
      (database.lookup key).or
        (if setting.key = key then some setting.value else none) := by
  rw [createDefault]
  by_cases hkey : setting.key = key
  · subst hkey
    cases hlookup : database.lookup setting.key with
    | none => simp
    | some value => simp [hlookup]
  · split
    · rw [AList.lookup_insert_ne (Ne.symm hkey)]
      simp
    · simp

/-- The value that the event writes to the key. -/
def writtenBy (key : String) : Event → Option SettingValue
  | .service (.upsert other value reply) =>
      if other = key ∧ reply.took = true then some value else none
  | _ => none

/-- The last value that was written to the key. -/
def lastWrite (key : String) : List Event → Option SettingValue
  | [] => none
  | event :: events => (lastWrite key events).or (writtenBy key event)

/-- The value that the event creates for the key where there is none. -/
def createdBy (state : State) (key : String) : Event → Option SettingValue
  | .create id reply =>
      match state.seeders id with
      | some (.creating (setting :: _)) =>
          if setting.key = key ∧ reply.took = true then some setting.value else none
      | _ => none
  | _ => none

section Steps

variable {state next : State} {event : Event}

/-- The database commands of the calls are the upserts. -/
theorem lookup_of_call {service service' : Settings.State} {event : Settings.Event}
    (hcall : IsCall event = true) (hstep : Settings.step service event = some service')
    (key : String) :
    service'.database.lookup key =
      (writtenBy key (.service event)).or (service.database.lookup key) := by
  cases effect_of_step hstep with
  | @upsert other value reply =>
      rw [writtenBy]
      cases htook : reply.took with
      | false => simp
      | true =>
          by_cases hkey : other = key
          · subst hkey
            simp
          · simp [hkey, AList.lookup_insert_ne (Ne.symm hkey)]
  | createIfNotExists | find | mset | expire => cases hcall
  | call | read | wake | del | tick => rfl

theorem database_of_warming {service service' : Settings.State} {event : Settings.Event}
    (hstep : Settings.step service event = some service')
    (hwarming : IsWarming event = true) : service'.database = service.database := by
  cases effect_of_step hstep with
  | find | mset | expire => rfl
  | call | read | wake | upsert | del | tick | createIfNotExists => cases hwarming

theorem database_of_create {service service' : Settings.State} {setting : DefaultSetting}
    (hstep : Settings.step service (.createIfNotExists setting.key setting.value) =
      some service') :
    service'.database = createDefault service.database setting := by
  cases effect_of_step hstep
  rfl

/-- The seeding that is at this point leaves the setting to be created. -/
def Seeder.Awaits (setting : DefaultSetting) : Seeder → Prop
  | .creating remaining => setting ∈ remaining
  | .failed => True
  | .skipped => True
  | _ => False

/-- What an enabled event does to the database and to the seedings. -/
inductive Effect (state : State) : Event → State → Prop
  | service {event service} (hcall : IsCall event = true)
      (hservice : Settings.step state.service event = some service) :
      Effect state (.service event) { state with service }
  | onModuleInit {id runSeeds} (hnone : state.seeders id = none) :
      Effect state (.onModuleInit id runSeeds) (state.put id state.service
        (if runSeeds then .creating defaultSettings else .skipped))
  | create {id reply setting remaining service}
      (hseeder : state.seeders id = some (.creating (setting :: remaining)))
      (hdatabase : service.database =
        if reply.took then createDefault state.service.database setting
        else state.service.database) :
      Effect state (.create id reply)
        (state.put id service (Seeder.after reply (.creating remaining)))
  | advance {event id service current seeder}
      (hquiet : ∀ key, writtenBy key event = none ∧ createdBy state key event = none)
      (hseeder : state.seeders id = some current)
      (hcurrent : ∀ setting, ¬ current.Awaits setting)
      (hnext : ∀ remaining, seeder ≠ .creating remaining)
      (hdatabase : service.database = state.service.database) :
      Effect state event (state.put id service seeder)
  | expire {id key jitter reply service}
      (hdatabase : service.database = state.service.database) :
      Effect state (.expire id key jitter reply) { state with service }

theorem Seeder.after_ne_creating {reply : Reply} {seeder : Seeder}
    (hseeder : ∀ remaining, seeder ≠ .creating remaining) :
    ∀ remaining, Seeder.after reply seeder ≠ .creating remaining := by
  intro remaining
  rw [Seeder.after]
  split
  · exact hseeder remaining
  · simp

theorem effect_of_step (hstep : step state event = some next) :
    Effect state event next := by
  unfold step at hstep
  split at hstep
  case h_1 event =>
    obtain ⟨hcall, hstep⟩ := Option.ite_none_right_eq_some.mp hstep
    obtain ⟨service, hservice, rfl⟩ := Option.map_eq_some_iff.mp hstep
    exact .service hcall hservice
  case h_2 id runSeeds =>
    obtain ⟨hnone, hstep⟩ := Option.ite_none_right_eq_some.mp hstep
    obtain rfl := Option.some.inj hstep
    exact .onModuleInit (Option.isNone_iff_eq_none.mp hnone)
  case h_3 id reply =>
    split at hstep
    · rename_i setting remaining hseeder
      split at hstep
      · rename_i htook
        obtain ⟨service, hservice, rfl⟩ := Option.map_eq_some_iff.mp hstep
        exact .create hseeder (by rw [if_pos htook, database_of_create hservice])
      · rename_i htook
        obtain rfl := Option.some.inj hstep
        obtain rfl : reply = .failed := by cases reply <;> simp_all [Reply.took]
        exact .create hseeder (by rw [if_neg htook])
    · cases hstep
  case h_4 id reply =>
    split at hstep
    · rename_i hseeder
      have hcurrent : ∀ setting, ¬ Seeder.Awaits setting (.creating []) :=
        fun _ => List.not_mem_nil
      split at hstep
      · obtain ⟨service, hservice, rfl⟩ := Option.map_eq_some_iff.mp hstep
        exact .advance (fun _ => ⟨rfl, rfl⟩) hseeder hcurrent (by simp)
          (database_of_warming hservice rfl)
      · obtain rfl := Option.some.inj hstep
        exact .advance (fun _ => ⟨rfl, rfl⟩) hseeder hcurrent (by simp) rfl
    · cases hstep
  case h_5 id reply =>
    split at hstep
    · rename_i hseeder
      obtain ⟨service, hservice, rfl⟩ := Option.map_eq_some_iff.mp hstep
      exact .advance (fun _ => ⟨rfl, rfl⟩) hseeder (fun _ => not_false)
        (Seeder.after_ne_creating (by simp)) (database_of_warming hservice rfl)
    · cases hstep
  case h_6 id key jitter reply =>
    split at hstep
    · rename_i hseeder
      obtain ⟨service, hservice, rfl⟩ := Option.map_eq_some_iff.mp hstep
      exact .advance (fun _ => ⟨rfl, rfl⟩) hseeder (fun _ => not_false)
        (Seeder.after_ne_creating (by simp)) (database_of_warming hservice rfl)
    · obtain ⟨service, hservice, rfl⟩ := Option.map_eq_some_iff.mp hstep
      exact .expire (database_of_warming hservice rfl)
    · cases hstep
  case h_7 id =>
    split at hstep
    · rename_i hseeder hwarming
      obtain rfl := Option.some.inj hstep
      exact .advance (fun _ => ⟨rfl, rfl⟩) hseeder (fun _ => not_false) (by simp) rfl
    · rename_i hseeder hwarming
      obtain rfl := Option.some.inj hstep
      exact .advance (fun _ => ⟨rfl, rfl⟩) hseeder (fun _ => not_false) (by simp) rfl
    · cases hstep

/-- A step writes a value, creates one where there is none, or leaves the key
alone. -/
theorem lookup_of_step (hstep : step state event = some next) (key : String) :
    next.service.database.lookup key =
      (writtenBy key event).or
        ((state.service.database.lookup key).or (createdBy state key event)) := by
  cases effect_of_step hstep with
  | @service event service hcall hservice =>
      have hcreated : createdBy state key (.service event) = none := rfl
      rw [hcreated, Option.or_none]
      exact lookup_of_call hcall hservice key
  | onModuleInit hnone =>
      simp [writtenBy, createdBy, State.put]
  | @create id reply setting remaining service hseeder hdatabase =>
      have hlookup : service.database.lookup key =
          (state.service.database.lookup key).or
            (createdBy state key (.create id reply)) := by
        rw [hdatabase]
        cases htook : reply.took with
        | false => simp [createdBy, hseeder, htook]
        | true => simp [createdBy, hseeder, htook, lookup_createDefault]
      exact hlookup
  | advance hquiet hseeder hcurrent hnext hdatabase =>
      obtain ⟨hwritten, hcreated⟩ := hquiet key
      simp [hwritten, hcreated, State.put, hdatabase]
  | expire hdatabase =>
      simp [writtenBy, createdBy, hdatabase]

/-- The seedings that go on have only default settings before them, and what a
seeding has passed is in the database. -/
structure Tracks (state : State) : Prop where
  remaining : ∀ id remaining, state.seeders id = some (.creating remaining) →
    remaining ⊆ defaultSettings
  present : ∀ id seeder, state.seeders id = some seeder →
    ∀ setting ∈ defaultSettings, seeder.Awaits setting ∨
      (state.service.database.lookup setting.key).isSome

theorem Tracks.initial (service : Settings.State) : Tracks (State.initial service) where
  remaining := by simp [State.initial]
  present := by simp [State.initial]

/-- Settings are never deleted. -/
theorem isSome_of_step (hstep : step state event = some next) {key : String}
    (hsome : (state.service.database.lookup key).isSome) :
    (next.service.database.lookup key).isSome := by
  rw [lookup_of_step hstep key, Option.isSome_or, Option.isSome_or, hsome]
  simp

theorem seeders_put (state : State) (id other : ℕ) (service : Settings.State)
    (seeder : Seeder) :
    (state.put id service seeder).seeders other =
      if other = id then some seeder else state.seeders other := by
  simp [State.put, Function.update_apply]

/-- The seeding that moves on is the only one that changes. -/
theorem Tracks.put {id : ℕ} {service : Settings.State} {seeder : Seeder}
    (htracks : Tracks state)
    (hgrows : ∀ key, (state.service.database.lookup key).isSome →
      (service.database.lookup key).isSome)
    (hremaining : ∀ remaining, seeder = .creating remaining →
      remaining ⊆ defaultSettings)
    (hpresent : ∀ setting ∈ defaultSettings, seeder.Awaits setting ∨
      (service.database.lookup setting.key).isSome) :
    Tracks (state.put id service seeder) where
  remaining other remaining hother := by
    rw [seeders_put] at hother
    split at hother
    · exact hremaining remaining (Option.some.inj hother)
    · exact htracks.remaining other remaining hother
  present other current hother setting hmem := by
    rw [seeders_put] at hother
    split at hother
    · obtain rfl := Option.some.inj hother
      exact hpresent setting hmem
    · exact (htracks.present other current hother setting hmem).imp_right
        (hgrows setting.key)

theorem Tracks.of_step (htracks : Tracks state) (hstep : step state event = some next) :
    Tracks next := by
  have hgrows : ∀ key, (state.service.database.lookup key).isSome →
      (next.service.database.lookup key).isSome := fun _ => isSome_of_step hstep
  cases effect_of_step hstep with
  | service hcall hservice =>
      exact ⟨htracks.remaining, fun id seeder hseeder setting hmem =>
        (htracks.present id seeder hseeder setting hmem).imp_right (hgrows setting.key)⟩
  | @onModuleInit id runSeeds hnone =>
      refine htracks.put hgrows ?_ ?_
      · intro remaining hremaining
        cases runSeeds with
        | false => cases hremaining
        | true => exact (Seeder.creating.inj hremaining) ▸ List.Subset.refl _
      · intro setting hmem
        cases runSeeds with
        | false => exact .inl trivial
        | true => exact .inl hmem
  | @create id reply setting remaining service hseeder hdatabase =>
      obtain ⟨hsetting, hsub⟩ := List.cons_subset.mp (htracks.remaining id _ hseeder)
      refine htracks.put hgrows ?_ ?_
      · intro others hothers
        rw [Seeder.after] at hothers
        split at hothers
        · exact (Seeder.creating.inj hothers) ▸ hsub
        · cases hothers
      · intro other hother
        rw [Seeder.after]
        split
        · rename_i hok
          have hpresent := htracks.present id _ hseeder other hother
          obtain hhead | hawaits : other = setting ∨
              (other ∈ remaining ∨ (state.service.database.lookup other.key).isSome) := by
            obtain hawaits | hsome := hpresent
            · exact (List.mem_cons.mp hawaits).imp_right .inl
            · exact .inr (.inr hsome)
          · right
            have hstored : (createDefault state.service.database setting).lookup
                setting.key = (state.service.database.lookup setting.key).or
                  (some setting.value) := by
              rw [lookup_createDefault, if_pos rfl]
            have htook : reply.took = true := by
              rw [hok]
              rfl
            have hlookup : (service.database.lookup setting.key).isSome = true := by
              rw [hdatabase, if_pos htook, hstored, Option.isSome_or]
              simp
            rwa [hhead]
          · exact hawaits.imp_right (hgrows other.key)
        · exact .inl trivial
  | @advance _ id service current seeder hquiet hseeder hcurrent hnext hdatabase =>
      refine htracks.put hgrows (fun remaining hremaining => absurd hremaining
        (hnext remaining)) ?_
      intro setting hmem
      exact .inr (hgrows _ ((htracks.present id current hseeder setting hmem).resolve_left
        (hcurrent setting)))
  | expire hdatabase =>
      exact ⟨htracks.remaining, fun id seeder hseeder setting hmem =>
        (htracks.present id seeder hseeder setting hmem).imp_right (hgrows setting.key)⟩

theorem Tracks.of_run {events : List Event} {final : State} (htracks : Tracks state)
    (hrun : run step state events = some final) : Tracks final :=
  Runs.run_invariant Tracks (fun _ _ _ htracks hstep => htracks.of_step hstep)
    htracks hrun

/-- Nothing, or the default of the key. -/
def IsDefault (key : String) (value : Option SettingValue) : Prop :=
  ∀ found, value = some found →
    ∃ setting ∈ defaultSettings, setting.key = key ∧ setting.value = found

theorem isDefault_createdBy (htracks : Tracks state) (key : String) (event : Event) :
    IsDefault key (createdBy state key event) := by
  intro found hfound
  unfold createdBy at hfound
  split at hfound
  · rename_i id reply
    split at hfound
    · rename_i setting remaining hseeder
      obtain ⟨⟨hkey, -⟩, hvalue⟩ := Option.ite_none_right_eq_some.mp hfound
      have hmem := htracks.remaining id _ hseeder List.mem_cons_self
      exact ⟨setting, hmem, hkey, Option.some.inj hvalue⟩
    · cases hfound
  · cases hfound

end Steps

section Runs

variable {state final : State} {events : List Event}

/-- The value of a key is the last one written, or the one at the start, or a
default. -/
theorem lookup_of_run (htracks : Tracks state) (hrun : run step state events = some final)
    (key : String) :
    ∃ fallback, IsDefault key fallback ∧ final.service.database.lookup key =
      ((lastWrite key events).or (state.service.database.lookup key)).or fallback := by
  induction events generalizing state with
  | nil =>
      obtain rfl : state = final := by simpa using hrun
      exact ⟨none, fun _ hfound => (Option.some_ne_none _ hfound.symm).elim,
        by simp [lastWrite]⟩
  | cons event events ih =>
      obtain ⟨next, hstep, hrest⟩ := Runs.run_cons_eq_some.mp hrun
      obtain ⟨fallback, hfallback, hlookup⟩ := ih (htracks.of_step hstep) hrest
      refine ⟨(createdBy state key event).or fallback, ?_, ?_⟩
      · intro found hfound
        obtain hcreated | ⟨-, hfound⟩ := Option.or_eq_some_iff.mp hfound
        · exact isDefault_createdBy htracks key event found hcreated
        · exact hfallback found hfound
      · rw [hlookup, lookup_of_step hstep key, lastWrite]
        simp only [Option.or_assoc]

theorem nodup_keys : (defaultSettings.map DefaultSetting.key).Nodup := by
  simp only [defaultSettings, List.map_cons, List.map_nil]
  simp

theorem eq_of_key {left right : DefaultSetting} (hleft : left ∈ defaultSettings)
    (hright : right ∈ defaultSettings) (hkey : left.key = right.key) : left = right :=
  List.inj_on_of_nodup_map nodup_keys hleft hright hkey

/-- However many instances seed, fail and are interleaved with writes, a
configured value is never replaced; and once a seeding is over, every default
setting has the last value written to it, or else the one it had, or else its
default. -/
theorem seeding_keeps_values (service : Settings.State) (events : List Event)
    (final : State) (hrun : run step (State.initial service) events = some final) :
    (∀ key value, (lastWrite key events).or (service.database.lookup key) = some value →
      final.service.database.lookup key = some value) ∧
    ∀ id, final.seeders id = some .initialized → ∀ setting ∈ defaultSettings,
      final.service.database.lookup setting.key =
        some (((lastWrite setting.key events).or
          (service.database.lookup setting.key)).getD setting.value) := by
  have hinitial := Tracks.initial service
  constructor
  · intro key value hvalue
    obtain ⟨fallback, -, hlookup⟩ := lookup_of_run hinitial hrun key
    have hstart : (State.initial service).service = service := rfl
    rw [hlookup, hstart, hvalue, Option.some_or]
  · intro id hdone setting hmem
    obtain ⟨fallback, hfallback, hlookup⟩ := lookup_of_run hinitial hrun setting.key
    have hpresent := ((hinitial.of_run hrun).present id _ hdone setting hmem).resolve_left
      not_false
    have hstart : (State.initial service).service = service := rfl
    rw [hstart] at hlookup
    cases hconfigured : (lastWrite setting.key events).or
        (service.database.lookup setting.key) with
    | some value => rw [hlookup, hconfigured, Option.some_or, Option.getD_some]
    | none =>
        rw [hlookup, hconfigured, Option.none_or] at hpresent ⊢
        obtain ⟨found, rfl⟩ := Option.isSome_iff_exists.mp hpresent
        obtain ⟨other, hother, hkey, hvalue⟩ := hfallback found rfl
        rw [← hvalue, eq_of_key hother hmem hkey, Option.getD_none]

end Runs

/-! ## A start with a write in between -/

/-- The administrator asks for longer passwords while the settings are created. -/
def startEvents : List Event :=
  [.onModuleInit 0 true, .create 0 .ok,
    .service (.upsert "Accounts_Password_MinLength" (int 12 (by decide)) .ok)] ++
    List.replicate 7 (.create 0 .ok) ++ [.find 0 .ok, .mset 0 .ok] ++
    defaultSettings.map (fun setting => .expire 0 (getCacheKey setting.key) 0 .ok) ++
    [.finish 0]

theorem seeding_keeps_values_of_startEvents :
    ∃ final, run step (State.initial (Settings.State.initial 0 TtlStore.empty ∅))
        startEvents = some final ∧
      final.service.database.lookup "Accounts_Password_MinLength" =
        some (int 12 (by decide)) ∧
      final.service.database.lookup "Accounts_Username_Regex" =
        some (text "^[a-zA-Z0-9_.-]+$") := by
  have hdone : (run step (State.initial (Settings.State.initial 0 TtlStore.empty ∅))
      startEvents).bind (fun final => final.seeders 0) = some .initialized := by rfl
  obtain ⟨final, hrun, hdone⟩ := Option.bind_eq_some_iff.mp hdone
  obtain ⟨hkeeps, hdefaults⟩ := seeding_keeps_values _ startEvents final hrun
  have hmem : ⟨"Accounts_Username_Regex", text "^[a-zA-Z0-9_.-]+$"⟩ ∈ defaultSettings := by
    simp [defaultSettings]
  exact ⟨final, hrun, hkeeps _ _ rfl, hdefaults 0 hdone _ hmem⟩

end OceanChat.Settings.Seeding
