import OceanChat.User.Devices
import OceanChat.User.NatsEvents

/-!
# Login times

`addDevice` stores the time of the login it is applied for, whatever time is
there.  The times that are left are those of the last applied events, which are
the latest ones only if no older event is applied after them.
-/

namespace OceanChat.Devices

open Aggregation
open Runs (run)
open Upsert (lastCall upserts)
open User (UserLoggedInEvent)

/-! ## The greatest time of a list -/

section Greatest

variable {Time : Type*} [LinearOrder Time] {times : List Time}

/-- The last one is the greatest. -/
def EndsGreatest (times : List Time) : Prop :=
  ∀ last, times.getLast? = some last → ∀ time ∈ times, time ≤ last

theorem exists_isGreatest (hne : times ≠ []) :
    ∃ greatest, IsGreatest {time | time ∈ times} greatest := by
  obtain ⟨greatest, hmem, hmax⟩ :=
    times.toFinset.exists_max_image id (List.toFinset_nonempty_iff _ |>.mpr hne)
  refine ⟨greatest, List.mem_toFinset.mp hmem, fun time htime => ?_⟩
  exact hmax time (List.mem_toFinset.mpr htime)

theorem endsGreatest_iff : EndsGreatest times ↔
    ∀ greatest, IsGreatest {time | time ∈ times} greatest →
      times.getLast? = some greatest := by
  constructor
  · intro hends greatest hgreatest
    have hne : times ≠ [] := List.ne_nil_of_mem hgreatest.1
    have hlast : times.getLast? = some (times.getLast hne) :=
      List.getLast?_eq_some_getLast hne
    have hle := hends _ hlast greatest hgreatest.1
    have hge := hgreatest.2 (List.getLast_mem hne)
    rw [hlast, le_antisymm hge hle]
  · intro hlatest last hlast time htime
    obtain ⟨greatest, hgreatest⟩ := exists_isGreatest (List.ne_nil_of_mem htime)
    obtain rfl := Option.some.inj (hlast.symm.trans (hlatest greatest hgreatest))
    exact hgreatest.2 htime

theorem endsGreatest_of_length_le_one (hshort : times.length ≤ 1) :
    EndsGreatest times := by
  intro last hlast time htime
  match times, hshort with
  | [], _ => cases htime
  | [one], _ =>
      obtain rfl := List.mem_singleton.mp htime
      exact (Option.some.inj hlast).le

/-- Only a list with at most one element ends with the greatest in any order. -/
theorem forall_perm_endsGreatest {Item : Type*} (time : Item → Time)
    {items : List Item} (hnodup : (items.map time).Nodup) :
    (∀ order : List Item, order.Perm items → EndsGreatest (order.map time)) ↔
      items.length ≤ 1 := by
  constructor
  · intro hall
    by_contra hlong
    match items, hnodup with
    | [], _ | [_], _ => exact hlong (by simp)
    | first :: second :: rest, hnodup =>
        have hperm : (first :: rest ++ [second]).Perm (first :: second :: rest) :=
          (List.perm_append_singleton second (first :: rest)).trans
            (List.Perm.swap first second rest)
        have hend : ((first :: rest ++ [second]).map time).getLast? =
            some (time second) := by
          rw [List.map_append]
          exact List.getLast?_concat
        have hle : time first ≤ time second :=
          hall _ hperm (time second) hend (time first) (by simp)
        have hge : time second ≤ time first :=
          hall _ (List.reverse_perm _) (time first) (by simp) (time second) (by simp)
        rw [List.map_cons, List.map_cons, le_antisymm hle hge] at hnodup
        simp at hnodup
  · intro hshort order hperm
    refine endsGreatest_of_length_le_one ?_
    rwa [List.length_map, hperm.length_eq]

end Greatest

/-! ## What is left of a list of events -/

section Events

variable {Scalar : Type} [DecidableEq Scalar]

/-- The call for an event; `clock` is the time at which it is applied. -/
def callOf (clock : ℤ) (event : UserLoggedInEvent) : Call :=
  ⟨event.userId, event.deviceId, some event.loginTime, clock⟩

def applyEvents (clock : ℤ) (users : Users Scalar)
    (events : List UserLoggedInEvent) : Users Scalar :=
  addDevices users (events.map (callOf clock))

/-- The `lastLogin` of the entry of a device. -/
def deviceLogin (user : Fields Scalar) (deviceId : String) : Option (Value Scalar) :=
  match user.lookup "devices" with
  | some (.array elements) =>
      (elements.find? fun element =>
        fieldOf "deviceId" element = some (.string deviceId)).bind
          (fieldOf "lastLogin")
  | _ => none

def times (events : List UserLoggedInEvent) : List ℤ :=
  events.map UserLoggedInEvent.loginTime

def timesOf (deviceId : String) (events : List UserLoggedInEvent) : List ℤ :=
  times (events.filter fun event => event.deviceId = deviceId)

/-- The user and each device have the latest of their login times. -/
structure ShowsLatest (events : List UserLoggedInEvent) (user : Fields Scalar) :
    Prop where
  lastLogin : ∀ latest, IsGreatest {time | time ∈ times events} latest →
    user.lookup "lastLogin" = some (.date latest)
  devices : ∀ deviceId latest,
    IsGreatest {time | time ∈ timesOf deviceId events} latest →
      deviceLogin user deviceId = some (.date latest)

/-- The last applied event, and the last applied one of each device, is the latest
of them. -/
structure EndsLatest (events : List UserLoggedInEvent) : Prop where
  user : EndsGreatest (times events)
  devices : ∀ deviceId, EndsGreatest (timesOf deviceId events)

variable {clock : ℤ} {events : List UserLoggedInEvent} {user : Fields Scalar}
variable {entries : List (Fields Scalar)} {deviceId : String}

/-- The user after the events, as calls of the table. -/
theorem applyEvents_user {users : Users Scalar} {userId : String}
    (huser : users userId = some user)
    (hown : ∀ event ∈ events, event.userId = userId) :
    applyEvents clock users events userId =
      some ((events.map (callOf clock)).foldl updateUser user) := by
  have hall : (events.map (callOf clock)).filter
      (fun call => call.userId = userId) = events.map (callOf clock) := by
    refine List.filter_eq_self.mpr fun call hcall => ?_
    obtain ⟨event, hevent, rfl⟩ := List.mem_map.mp hcall
    exact decide_eq_true (hown event hevent)
  rw [applyEvents, addDevices_user, huser, hall]
  rfl

theorem lastCall_events (deviceId : String) (events : List UserLoggedInEvent) :
    lastCall (some (Value.string deviceId))
        ((events.map (callOf clock)).map (Call.entry Scalar)) =
      (timesOf deviceId events).getLast? := by
  have hsame : ((fun call : Option (Value Scalar) × ℤ =>
      decide (call.1 = some (.string deviceId))) ∘ Call.entry Scalar) ∘ callOf clock =
        fun event => decide (event.deviceId = deviceId) := by
    funext event
    simp [Call.entry, callOf]
  rw [lastCall, List.filter_map, List.filter_map, hsame, List.map_map,
    ← List.getLast?_map, List.map_map]
  rfl

/-- A called device has the time of its last event. -/
theorem deviceLogin_of_lastCall {calls : List (Option (Value Scalar) × ℤ)} {time : ℤ}
    (hdevices : HasDevices user
      ((upserts (table Scalar) entries calls).map .document))
    (hlast : lastCall (some (.string deviceId)) calls = some time) :
    deviceLogin user deviceId = some (.date time) := by
  have hcalled : some (.string deviceId) ∈ calls.map Prod.fst := by
    by_contra hnone
    rw [Upsert.lastCall_eq_none.mpr hnone] at hlast
    cases hlast
  obtain ⟨device, hdevice, hid⟩ :=
    List.mem_map.mp ((mem_ids_upserts entries calls _).mpr (.inr hcalled))
  have harray : user.lookup "devices" = some (.array
      ((upserts (table Scalar) entries calls).map .document)) := by
    refine hdevices.resolve_right fun hmissing => ?_
    rw [List.map_eq_nil_iff.mp hmissing.2] at hdevice
    cases hdevice
  have hfind : (((upserts (table Scalar) entries calls).map
      Value.document).find? fun element =>
        fieldOf "deviceId" element = some (.string deviceId)).isSome := by
    rw [List.find?_isSome]
    exact ⟨.document device, List.mem_map_of_mem hdevice, decide_eq_true hid⟩
  obtain ⟨element, helement⟩ := Option.isSome_iff_exists.mp hfind
  obtain ⟨found, hfound, rfl⟩ := List.mem_map.mp (List.mem_of_find?_eq_some helement)
  have hsame := List.find?_some helement
  rw [decide_eq_true_iff] at hsame
  have hrenewed : found.lookup "lastLogin" = some (.date time) :=
    lastLogin_of_mem_upserts hfound ((congrArg (lastCall · calls) hsame).trans hlast)
  simp only [deviceLogin, harray, helement]
  exact hrenewed

/-- After some events the times are those of the last ones. -/
theorem exists_after (clock : ℤ) {users : Users Scalar} {userId : String}
    (huser : users userId = some user)
    (hdevices : HasDevices user (entries.map .document))
    (hown : ∀ event ∈ events, event.userId = userId)
    (hliteral : ∀ event ∈ events, IsLiteral event.deviceId) :
    ∃ user', applyEvents clock users events userId = some user' ∧
      (∀ last, (times events).getLast? = some last →
        user'.lookup "lastLogin" = some (.date last)) ∧
      ∀ deviceId last, (timesOf deviceId events).getLast? = some last →
        deviceLogin user' deviceId = some (.date last) := by
  have hcalls : ∀ call ∈ events.map (callOf clock), IsLiteral call.deviceId := by
    intro call hcall
    obtain ⟨event, hevent, rfl⟩ := List.mem_map.mp hcall
    exact hliteral event hevent
  refine ⟨_, applyEvents_user huser hown, ?_, ?_⟩
  · intro last hlast
    rw [times, List.getLast?_map, Option.map_eq_some_iff] at hlast
    obtain ⟨event, hevent, rfl⟩ := hlast
    have hcall : (events.map (callOf clock)).getLast? = some (callOf clock event) := by
      rw [List.getLast?_map, hevent]
      rfl
    exact lastLogin_foldl hcalls hdevices hcall
  · intro deviceId last hlast
    exact deviceLogin_of_lastCall (hasDevices_foldl hcalls hdevices)
      ((lastCall_events deviceId events).trans hlast)


omit [DecidableEq Scalar] in
/-- A field that shows the last time shows the latest one exactly if that is the
last. -/
theorem shows_iff_endsGreatest {times : List ℤ} {shown : Option (Value Scalar)}
    (hlast : ∀ last, times.getLast? = some last → shown = some (.date last)) :
    (∀ latest, IsGreatest {time | time ∈ times} latest →
      shown = some (.date latest)) ↔ EndsGreatest times := by
  rw [endsGreatest_iff]
  refine forall_congr' fun latest => forall_congr' fun hlatest => ?_
  constructor
  · intro hshown
    have hne : times ≠ [] := List.ne_nil_of_mem hlatest.1
    have hend := List.getLast?_eq_some_getLast hne
    have hsame := (hlast _ hend).symm.trans hshown
    rw [hend, Value.date.inj (Option.some.inj hsame)]
  · exact hlast latest

/-- The latest times are left after some events exactly if the last events are
the latest. -/
theorem showsLatest_iff_endsLatest {users : Users Scalar} {userId : String}
    (huser : users userId = some user)
    (hdevices : HasDevices user (entries.map .document))
    (hown : ∀ event ∈ events, event.userId = userId)
    (hliteral : ∀ event ∈ events, IsLiteral event.deviceId) :
    (∃ user', applyEvents clock users events userId = some user' ∧
      ShowsLatest events user') ↔ EndsLatest events := by
  obtain ⟨after, hafter, hlastLogin, hlogins⟩ :=
    exists_after clock huser hdevices hown hliteral
  constructor
  · rintro ⟨user', huser', hshows⟩
    obtain rfl := Option.some.inj (hafter.symm.trans huser')
    exact ⟨(shows_iff_endsGreatest hlastLogin).mp hshows.lastLogin, fun deviceId =>
      (shows_iff_endsGreatest (hlogins deviceId)).mp (hshows.devices deviceId)⟩
  · intro hends
    exact ⟨after, hafter, (shows_iff_endsGreatest hlastLogin).mpr hends.user,
      fun deviceId =>
        (shows_iff_endsGreatest (hlogins deviceId)).mpr (hends.devices deviceId)⟩

/-- What is latest does not depend on the order. -/
theorem showsLatest_of_perm {order : List UserLoggedInEvent}
    (hperm : order.Perm events) :
    ShowsLatest order user ↔ ShowsLatest events user := by
  have htimes : ∀ time, time ∈ times order ↔ time ∈ times events :=
    fun time => (hperm.map _).mem_iff
  have htimesOf : ∀ deviceId time,
      time ∈ timesOf deviceId order ↔ time ∈ timesOf deviceId events :=
    fun deviceId time => ((hperm.filter _).map _).mem_iff
  constructor
  · rintro ⟨hlastLogin, hlogins⟩
    refine ⟨?_, ?_⟩
    · simpa only [htimes] using hlastLogin
    · simpa only [htimesOf] using hlogins
  · rintro ⟨hlastLogin, hlogins⟩
    refine ⟨?_, ?_⟩
    · simpa only [htimes] using hlastLogin
    · simpa only [htimesOf] using hlogins

end Events

/-! ## Orders of application -/

/-- The latest times are left after the events in any order. -/
def Commutes {Scalar : Type} [DecidableEq Scalar] (clock : ℤ)
    (users : Users Scalar) (userId : String) (events : List UserLoggedInEvent) :
    Prop :=
  ∀ order : List UserLoggedInEvent, order.Perm events → ∃ user',
    applyEvents clock users order userId = some user' ∧ ShowsLatest events user'

/-- Events with different times commute only if there is at most one of them; an
order leaves the latest times exactly if it ends with the latest event, and the
latest one of each device. -/
theorem commutes_iff_le_one {Scalar : Type} [DecidableEq Scalar] (clock : ℤ)
    (users : Users Scalar) (userId : String) (user : Fields Scalar)
    (entries : List (Fields Scalar)) (events : List UserLoggedInEvent)
    (huser : users userId = some user)
    (hdevices : HasDevices user (entries.map .document))
    (hown : ∀ event ∈ events, event.userId = userId)
    (hliteral : ∀ event ∈ events, IsLiteral event.deviceId)
    (hdistinct : (times events).Nodup) :
    (Commutes clock users userId events ↔ events.length ≤ 1) ∧
      ∀ order : List UserLoggedInEvent, order.Perm events →
        ((∃ user', applyEvents clock users order userId = some user' ∧
          ShowsLatest events user') ↔ EndsLatest order) := by
  have hiff : ∀ order : List UserLoggedInEvent, order.Perm events →
      ((∃ user', applyEvents clock users order userId = some user' ∧
        ShowsLatest events user') ↔ EndsLatest order) := by
    intro order hperm
    have howned : ∀ event ∈ order, event.userId = userId :=
      fun event hevent => hown event (hperm.mem_iff.mp hevent)
    have hliterals : ∀ event ∈ order, IsLiteral event.deviceId :=
      fun event hevent => hliteral event (hperm.mem_iff.mp hevent)
    simp only [← showsLatest_of_perm hperm]
    exact showsLatest_iff_endsLatest huser hdevices howned hliterals
  refine ⟨?_, hiff⟩
  constructor
  · intro hcommutes
    exact (forall_perm_endsGreatest UserLoggedInEvent.loginTime hdistinct).mp
      fun order hperm => ((hiff order hperm).mp (hcommutes order hperm)).user
  · intro hshort order hperm
    rw [← hperm.length_eq] at hshort
    refine (hiff order hperm).mpr ⟨?_, fun deviceId => ?_⟩
    · refine endsGreatest_of_length_le_one ?_
      rwa [times, List.length_map]
    · refine endsGreatest_of_length_le_one ?_
      rw [timesOf, times, List.length_map]
      exact (List.length_filter_le _ _).trans hshort

def firstLogin : UserLoggedInEvent := ⟨"user-1", "phone", 1700000000000⟩

def secondLogin : UserLoggedInEvent := ⟨"user-1", "phone", 1700000010000⟩

/-- The update for the first event fails and is tried again after the second
event has been handled by another instance. -/
def reorderRun : List User.Event :=
  [.publish 0 (.event firstLogin), .deliver 0 0, .receive 0 true,
    .setnx 0 .ok true, .tick 10000, .publish 1 (.event secondLogin), .deliver 1 1,
    .receive 1 true, .add 0 .failed true, .setnx 1 .ok true, .add 1 .ok true,
    .del 0 .ok, .deliver 0 0, .receive 0 true, .setnx 0 .ok true, .add 0 .ok true]

/-- The time of the second login is overwritten by that of the first. -/
theorem not_commutes_of_reorderRun :
    (∃ final, run (User.step 30000) User.State.initial reorderRun = some final ∧
      final.added.reverse = [secondLogin, firstLogin]) ∧
    (∃ user', applyEvents 0 onlyAlice [secondLogin, firstLogin] "user-1" =
        some user' ∧
      user'.lookup "lastLogin" = some (.date 1700000000000) ∧
      deviceLogin user' "phone" = some (.date 1700000000000)) ∧
    ¬ Commutes 0 onlyAlice "user-1" [firstLogin, secondLogin] := by
  have hrun : (run (User.step 30000) User.State.initial reorderRun).map
      (fun state => state.added.reverse) = some [secondLogin, firstLogin] := by
    decide +kernel
  have hafter : ∃ user', applyEvents 0 onlyAlice [secondLogin, firstLogin] "user-1" =
        some user' ∧
      user'.lookup "lastLogin" = some (.date 1700000000000) ∧
      deviceLogin user' "phone" = some (.date 1700000000000) :=
    ⟨_, rfl, by decide +kernel, by decide +kernel⟩
  refine ⟨Option.map_eq_some_iff.mp hrun, hafter, fun hcommutes => ?_⟩
  obtain ⟨user', huser', hlastLogin, -⟩ := hafter
  obtain ⟨other, hother, hshows⟩ :=
    hcommutes [secondLogin, firstLogin] (List.Perm.swap _ _ _)
  obtain rfl := Option.some.inj (huser'.symm.trans hother)
  have hbound : ∀ time ∈ times [firstLogin, secondLogin], time ≤ 1700000010000 := by
    decide
  have hlatest := hshows.lastLogin 1700000010000 ⟨by decide, hbound⟩
  rw [hlastLogin] at hlatest
  cases hlatest

theorem commutes_iff_le_one_of_twoLogins :
    (Commutes 0 onlyAlice "user-1" [firstLogin, secondLogin] ↔
      [firstLogin, secondLogin].length ≤ 1) ∧
      ∀ order : List UserLoggedInEvent, order.Perm [firstLogin, secondLogin] →
        ((∃ user', applyEvents 0 onlyAlice order "user-1" = some user' ∧
          ShowsLatest [firstLogin, secondLogin] user') ↔ EndsLatest order) :=
  commutes_iff_le_one 0 onlyAlice "user-1" alice
    [[("deviceId", .string "phone"), ("lastLogin", .date 1)],
      [("deviceId", .string "tablet"), ("lastLogin", .date 2)]]
    [firstLogin, secondLogin] rfl (.inl rfl) (by decide) (by decide) (by decide)

end OceanChat.Devices
