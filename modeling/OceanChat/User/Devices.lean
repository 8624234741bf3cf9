import OceanChat.Core.Aggregation
import OceanChat.Core.Upsert

/-!
# The devices of a user

`addDevice` is one update of one document, which the server applies at once.
Its expression is an upsert into the array of devices: the entry of the device
gets a new login time, or an entry is appended.
-/

namespace OceanChat.Devices

open Aggregation
open Upsert (Stamped upsert upserts lastCall newKeys)

/-! ## The update -/

section Update

variable {Scalar : Type} [DecidableEq Scalar]

/-- The field `devices` of the `$set` stage. -/
def devicesExpr (deviceId : String) (now : ℤ) : Expr Scalar :=
  .cond
    (.isIn (operand deviceId) (.ifNull (operand "$devices.deviceId") (.array [])))
    (.map (operand "$devices") "d"
      (.cond
        (.eq (operand "$$d.deviceId") (operand deviceId))
        (.mergeObjects (operand "$$d")
          (.object [("lastLogin", .literal (.date now))]))
        (operand "$$d")))
    (.concatArrays
      (.ifNull (operand "$devices") (.array []))
      (.array [.object [("deviceId", operand deviceId),
        ("lastLogin", .literal (.date now))]]))

def setStage (deviceId : String) (now : ℤ) : List (String × Expr Scalar) :=
  [("lastLogin", .literal (.date now)), ("devices", devicesExpr deviceId now)]

/-- A call of `addDevice`; `clock` is the time at which it is applied. -/
structure Call where
  userId : String
  deviceId : String
  loginTime : Option ℤ
  clock : ℤ

def Call.now (call : Call) : ℤ := call.loginTime.getD call.clock

/-- The collection, with one document for each identifier. -/
abbrev Users (Scalar : Type) := String → Option (Fields Scalar)

def addDevice (users : Users Scalar) (call : Call) :
    Except Failure (Users Scalar) :=
  match users call.userId with
  | none => .ok users
  | some user => do
      let user ← setFields call.clock (setStage call.deviceId call.now) user
      return Function.update users call.userId (some user)

/-- A rejected update changes nothing. -/
def addDevices (users : Users Scalar) (calls : List Call) : Users Scalar :=
  calls.foldl (fun users call => (addDevice users call).toOption.getD users) users

end Update

/-! ## What the expression computes -/

section Expression

variable {Scalar : Type} [DecidableEq Scalar] {deviceId : String} {now clock : ℤ}
variable {user : Fields Scalar} {elements : List (Value Scalar)}

/-- The elements of the array of devices, which may be missing. -/
def HasDevices (user : Fields Scalar) (elements : List (Value Scalar)) : Prop :=
  user.lookup "devices" = some (.array elements) ∨
    (user.lookup "devices" = none ∨ user.lookup "devices" = some .null) ∧
      elements = []

/-- An element of the array, with a new login time if it is the entry of the
device. -/
def touchElement (deviceId : String) (now : ℤ) : Value Scalar → Value Scalar
  | .document device =>
      if device.lookup "deviceId" = some (.string deviceId) then
        .document (setField "lastLogin" (.date now) device)
      else .document device
  | element => element

/-- The array of devices after a call. -/
def upsertElements (deviceId : String) (now : ℤ) (elements : List (Value Scalar)) :
    List (Value Scalar) :=
  if some (.string deviceId) ∈ elements.map (fieldOf "deviceId") then
    elements.map (touchElement deviceId now)
  else elements ++ [.document [("deviceId", .string deviceId),
    ("lastLogin", .date now)]]

/-- The body of the `$map`. -/
theorem eval_body (hliteral : IsLiteral deviceId) (env : Env Scalar)
    (element : Value Scalar) :
    eval (bindVariable env "d" (some element))
        (.cond
          (.eq (operand "$$d.deviceId") (operand deviceId))
          (.mergeObjects (operand "$$d")
            (.object [("lastLogin", .literal (.date now))]))
          (operand "$$d")) =
      .ok (some (touchElement deviceId now element)) := by
  have hpath : (operand "$$d.deviceId" : Expr Scalar) = .path "d" ["deviceId"] :=
    rfl
  have hvariable : (operand "$$d" : Expr Scalar) = .path "d" [] := rfl
  rw [hpath, hvariable, operand_of_isLiteral hliteral]
  cases element with
  | document device =>
      by_cases hsame : device.lookup "deviceId" = some (.string deviceId)
      · simp [eval, bindVariable, getPath, hsame, truthy, touchElement, fieldsOf,
          evalFields, bind, Except.bind, pure, Except.pure]
      · simp [eval, bindVariable, getPath, hsame, truthy, touchElement, bind,
          Except.bind]
  | _ =>
      simp [eval, bindVariable, getPath, truthy, touchElement, bind, Except.bind]

/-- The array of devices, empty if it is missing. -/
theorem eval_devices (hdevices : HasDevices user elements) :
    eval (rootEnv clock user) (.ifNull (operand "$devices") (.array [])) =
      .ok (some (.array elements)) := by
  have hpath : eval (rootEnv clock user) (operand "$devices") =
      .ok (user.lookup "devices") := by
    change eval _ (.path "CURRENT" ["devices"]) = _
    rw [eval_path rfl, getPath_document]
    rfl
  rcases hdevices with harray | ⟨hmissing, rfl⟩
  · rw [harray] at hpath
    exact eval_ifNull hpath (by simp)
  · rw [eval_ifNull_of_null hpath hmissing]
    rfl

/-- The identifiers in the array of devices. -/
theorem eval_deviceIds (hdevices : HasDevices user elements) :
    eval (rootEnv clock user)
        (.ifNull (operand "$devices.deviceId") (.array [])) =
      .ok (some (.array (elements.filterMap (fieldOf "deviceId")))) := by
  have hpath : eval (rootEnv clock user) (operand "$devices.deviceId") =
      .ok (getPath ["deviceId"] (user.lookup "devices")) := by
    change eval _ (.path "CURRENT" ["devices", "deviceId"]) = _
    rw [eval_path rfl, getPath_document]
  rcases hdevices with harray | ⟨hmissing, rfl⟩
  · rw [harray, getPath_array] at hpath
    exact eval_ifNull hpath (by simp)
  · have hnone : getPath ["deviceId"] (user.lookup "devices") = none := by
      rcases hmissing with hmissing | hnull
      · rw [hmissing]
        rfl
      · rw [hnull]
        rfl
    rw [eval_ifNull_of_null hpath (.inl hnone)]
    rfl

/-- The condition: whether the device has an entry. -/
theorem eval_test (hliteral : IsLiteral deviceId)
    (hdevices : HasDevices user elements) :
    eval (rootEnv clock user)
        (.isIn (operand deviceId)
          (.ifNull (operand "$devices.deviceId") (.array []))) =
      .ok (some (.boolean (decide
        (some (.string deviceId) ∈ elements.map (fieldOf "deviceId"))))) := by
  have hany : (elements.filterMap (fieldOf "deviceId")).any
      (fun element => decide (some element = some (.string deviceId))) =
        decide (some (.string deviceId) ∈ elements.map (fieldOf "deviceId")) := by
    rw [Bool.eq_iff_iff, List.any_eq_true, decide_eq_true_iff, List.mem_map]
    constructor
    · rintro ⟨id, hid, hsame⟩
      obtain ⟨element, helement, hfield⟩ := List.mem_filterMap.mp hid
      exact ⟨element, helement, hfield.trans (of_decide_eq_true hsame)⟩
    · rintro ⟨element, helement, hfield⟩
      exact ⟨_, List.mem_filterMap.mpr ⟨element, helement, hfield⟩, by simp⟩
  have hinput : eval (rootEnv clock user) (operand deviceId) =
      .ok (some (.string deviceId)) := by
    rw [operand_of_isLiteral hliteral, eval]
  rw [eval_isIn hinput (eval_deviceIds hdevices), hany]

/-- The expression is an upsert. -/
theorem eval_devicesExpr (hliteral : IsLiteral deviceId)
    (hdevices : HasDevices user elements) :
    eval (rootEnv clock user) (devicesExpr deviceId now) =
      .ok (some (.array (upsertElements deviceId now elements))) := by
  rw [devicesExpr, eval_cond (eval_test hliteral hdevices), upsertElements]
  by_cases hmem : some (.string deviceId) ∈ elements.map (fieldOf "deviceId")
  · have harray : user.lookup "devices" = some (.array elements) := by
      refine hdevices.resolve_right ?_
      rintro ⟨-, rfl⟩
      simp at hmem
    have hinput : eval (rootEnv clock user) (operand "$devices") =
        .ok (some (.array elements)) := by
      change eval _ (.path "CURRENT" ["devices"]) = _
      rw [eval_path rfl, getPath_document, harray]
      rfl
    rw [if_pos hmem, decide_eq_true hmem]
    exact eval_map hinput fun element => eval_body hliteral _ element
  · have happended : eval (rootEnv clock user)
        (.array [.object [("deviceId", operand deviceId),
          ("lastLogin", .literal (.date now))]]) =
        .ok (some (.array [.document [("deviceId", .string deviceId),
          ("lastLogin", .date now)]])) := by
      rw [operand_of_isLiteral hliteral]
      rfl
    rw [if_neg hmem, decide_eq_false hmem]
    exact eval_concatArrays (eval_devices hdevices) happended

end Expression

/-! ## One call -/

section OneCall

variable {Scalar : Type} [DecidableEq Scalar]
variable {user : Fields Scalar} {elements : List (Value Scalar)} {call : Call}

/-- The document of the user after a call. -/
def updateUser (user : Fields Scalar) (call : Call) : Fields Scalar :=
  (setFields call.clock (setStage call.deviceId call.now) user).toOption.getD user

theorem setFields_setStage (hliteral : IsLiteral call.deviceId)
    (hdevices : HasDevices user elements) :
    setFields call.clock (setStage call.deviceId call.now) user =
      .ok (setField "devices"
        (.array (upsertElements call.deviceId call.now elements))
        (setField "lastLogin" (.date call.now) user)) := by
  rw [setFields, setStage, evalAssignments, evalAssignments, evalAssignments,
    eval_devicesExpr hliteral hdevices]
  rfl

theorem updateUser_eq (hliteral : IsLiteral call.deviceId)
    (hdevices : HasDevices user elements) :
    updateUser user call =
      setField "devices" (.array (upsertElements call.deviceId call.now elements))
        (setField "lastLogin" (.date call.now) user) := by
  rw [updateUser, setFields_setStage hliteral hdevices]
  rfl

theorem hasDevices_updateUser (hliteral : IsLiteral call.deviceId)
    (hdevices : HasDevices user elements) :
    HasDevices (updateUser user call)
      (upsertElements call.deviceId call.now elements) := by
  left
  rw [updateUser_eq hliteral hdevices, lookup_setField_self]

theorem lastLogin_updateUser (hliteral : IsLiteral call.deviceId)
    (hdevices : HasDevices user elements) :
    (updateUser user call).lookup "lastLogin" = some (.date call.now) := by
  rw [updateUser_eq hliteral hdevices, lookup_setField_of_ne (by decide),
    lookup_setField_self]

/-- A call touches the document of its user only. -/
theorem addDevice_user (users : Users Scalar) (call : Call) (userId : String) :
    ((addDevice users call).toOption.getD users) userId =
      if call.userId = userId then
        (users userId).map fun user => updateUser user call
      else users userId := by
  unfold addDevice
  by_cases huserId : call.userId = userId
  · subst huserId
    cases huser : users call.userId with
    | none => simp [huser, Except.toOption]
    | some user =>
        unfold updateUser
        cases hset : setFields call.clock (setStage call.deviceId call.now) user with
        | error failure => simp [huser, hset, Except.toOption, bind, Except.bind]
        | ok next => simp [hset, Except.toOption, bind, Except.bind, pure, Except.pure]
  · cases huser : users call.userId with
    | none => simp [huserId, Except.toOption]
    | some user =>
        cases hset : setFields call.clock (setStage call.deviceId call.now) user with
        | error failure =>
            simp [hset, huserId, Except.toOption, bind, Except.bind]
        | ok next =>
            simp [hset, huserId, Except.toOption, bind, Except.bind, pure,
              Except.pure, Function.update_of_ne (Ne.symm huserId)]

/-- The document of a user after any calls. -/
theorem addDevices_user (users : Users Scalar) (calls : List Call)
    (userId : String) :
    addDevices users calls userId =
      (users userId).map fun user =>
        (calls.filter fun call => call.userId = userId).foldl updateUser user := by
  induction calls generalizing users with
  | nil => simp [addDevices]
  | cons call calls ih =>
      rw [addDevices, List.foldl_cons, ← addDevices, ih, addDevice_user]
      by_cases huserId : call.userId = userId
      · cases users userId <;> simp [huserId]
      · simp [huserId]

end OneCall

/-! ## The table of devices -/

section Table

variable {Scalar : Type} [DecidableEq Scalar]

def idOf (device : Fields Scalar) : Option (Value Scalar) :=
  device.lookup "deviceId"

/-- The entries of the array, by their identifiers. -/
def table (Scalar : Type) : Stamped (Fields Scalar) (Option (Value Scalar)) ℤ where
  key := idOf
  touch := fun now device => setField "lastLogin" (.date now) device
  fresh := fun id now =>
    (id.toList.map fun value => ("deviceId", value)) ++ [("lastLogin", .date now)]
  key_touch := fun _ _ => lookup_setField_of_ne (by decide)
  key_fresh := by rintro (_ | id) now <;> rfl
  touch_touch := fun _ _ _ => setField_setField
  touch_fresh := by rintro (_ | id) now now' <;> rfl

variable {user : Fields Scalar} {entries : List (Fields Scalar)} {calls : List Call}

/-- A call as a call of the table. -/
def Call.entry (Scalar : Type) (call : Call) : Option (Value Scalar) × ℤ :=
  (some (.string call.deviceId), call.now)

theorem upsertElements_document (call : Call) :
    upsertElements call.deviceId call.now (entries.map Value.document) =
      (upsert (table Scalar) entries (call.entry Scalar)).map .document := by
  have hids : (entries.map Value.document).map (fieldOf "deviceId") =
      entries.map (table Scalar).key := by
    rw [List.map_map]
    rfl
  unfold upsertElements upsert
  rw [hids]
  by_cases hmem : some (.string call.deviceId) ∈ entries.map (table Scalar).key
  · rw [if_pos hmem, if_pos (show (call.entry Scalar).1 ∈ _ from hmem), List.map_map,
      List.map_map]
    refine List.map_congr_left fun device _ => ?_
    have hrenew : Upsert.renew (table Scalar) (call.entry Scalar) device =
        if device.lookup "deviceId" = some (.string call.deviceId) then
          setField "lastLogin" (.date call.now) device
        else device := rfl
    simp only [Function.comp_apply, touchElement, hrenew]
    split <;> rfl
  · rw [if_neg hmem, if_neg (show (call.entry Scalar).1 ∉ _ from hmem),
      List.map_append]
    rfl

/-- After any calls the array holds what the upserts make of its entries. -/
theorem hasDevices_foldl (hliteral : ∀ call ∈ calls, IsLiteral call.deviceId)
    (hdevices : HasDevices user (entries.map .document)) :
    HasDevices (calls.foldl updateUser user)
      ((upserts (table Scalar) entries
        (calls.map (Call.entry Scalar))).map .document) := by
  induction calls generalizing user entries with
  | nil => exact hdevices
  | cons call calls ih =>
      have hstep := hasDevices_updateUser (hliteral call List.mem_cons_self) hdevices
      rw [upsertElements_document] at hstep
      exact ih (fun one hone => hliteral one (List.mem_cons_of_mem _ hone)) hstep

/-- The time of the last call is left with the user. -/
theorem lastLogin_foldl (hliteral : ∀ call ∈ calls, IsLiteral call.deviceId)
    (hdevices : HasDevices user (entries.map .document)) {last : Call}
    (hlast : calls.getLast? = some last) :
    (calls.foldl updateUser user).lookup "lastLogin" = some (.date last.now) := by
  obtain ⟨before, rfl⟩ := List.getLast?_eq_some_iff.mp hlast
  have hbefore := hasDevices_foldl
    (fun call hcall => hliteral call (List.mem_append_left _ hcall)) hdevices
  rw [List.foldl_append]
  exact lastLogin_updateUser
    (hliteral last (List.mem_append_right _ (List.mem_singleton_self last))) hbefore

/-- What calls make of the entries: the identifiers stay distinct and are those
there were and those called; every entry keeps its place and its other fields,
and an entry that is not called keeps everything; new entries follow in the order
of their first calls; a called entry has the time of the last call. -/
structure Upserted (entries : List (Fields Scalar))
    (calls : List (Option (Value Scalar) × ℤ)) (entries' : List (Fields Scalar)) :
    Prop where
  nodup : (entries'.map idOf).Nodup
  ids : ∀ id, id ∈ entries'.map idOf ↔
    id ∈ entries.map idOf ∨ id ∈ calls.map Prod.fst
  kept : ∀ (i : ℕ) (device : Fields Scalar), entries[i]? = some device →
    ∃ device', entries'[i]? = some device' ∧
      (∀ name ≠ "lastLogin", device'.lookup name = device.lookup name) ∧
      (idOf device ∉ calls.map Prod.fst → device' = device)
  appended : (entries'.drop entries.length).map idOf =
    newKeys (entries.map idOf) calls
  renewed : ∀ device ∈ entries', ∀ time, lastCall (idOf device) calls = some time →
    device.lookup "lastLogin" = some (.date time)

theorem mem_ids_upserts (entries : List (Fields Scalar))
    (calls : List (Option (Value Scalar) × ℤ)) (id : Option (Value Scalar)) :
    id ∈ (upserts (table Scalar) entries calls).map idOf ↔
      id ∈ entries.map idOf ∨ id ∈ calls.map Prod.fst := by
  have hids : (upserts (table Scalar) entries calls).map idOf =
      entries.map idOf ++ newKeys (entries.map idOf) calls :=
    Upsert.map_key_upserts (table Scalar) entries calls
  rw [hids, List.mem_append, Upsert.mem_newKeys]
  tauto

theorem lastLogin_of_mem_upserts {calls : List (Option (Value Scalar) × ℤ)}
    {device : Fields Scalar} {time : ℤ}
    (hdevice : device ∈ upserts (table Scalar) entries calls)
    (hlast : lastCall (idOf device) calls = some time) :
    device.lookup "lastLogin" = some (.date time) := by
  rw [← Upsert.touch_eq_self_of_mem hdevice hlast]
  exact lookup_setField_self

theorem upserted_upserts (hnodup : (entries.map idOf).Nodup)
    (calls : List (Option (Value Scalar) × ℤ)) :
    Upserted entries calls (upserts (table Scalar) entries calls) where
  nodup := @Upsert.nodup_upserts _ _ _ _ (table Scalar) _ calls hnodup
  ids := mem_ids_upserts entries calls
  kept := by
    intro i device hdevice
    obtain ⟨hi, hsame⟩ := List.getElem?_eq_some_iff.mp hdevice
    refine ⟨Upsert.stamp (table Scalar) calls device, ?_, ?_, ?_⟩
    · rw [Upsert.upserts_eq, List.getElem?_append_left (by simpa using hi),
        List.getElem?_map, hdevice]
      rfl
    · intro name hname
      unfold Upsert.stamp
      split
      · exact lookup_setField_of_ne hname
      · rfl
    · exact @Upsert.stamp_of_not_mem _ _ _ _ (table Scalar) calls device
  appended := by
    rw [Upsert.upserts_eq, List.drop_append_of_le_length (by simp),
      List.drop_of_length_le (by simp), List.nil_append]
    exact Upsert.map_key_newEntries (table Scalar) _ calls
  renewed := fun _ hdevice _ hlast => lastLogin_of_mem_upserts hdevice hlast

/-- The calls for a user, as calls of the table. -/
def callsOf (Scalar : Type) (userId : String) (calls : List Call) :
    List (Option (Value Scalar) × ℤ) :=
  (calls.filter fun call => call.userId = userId).map (Call.entry Scalar)

/-- `addDevice` is a lossless upsert, whatever calls there are and in whatever
order they are applied. -/
theorem addDevices_upserted {Scalar : Type} [DecidableEq Scalar]
    (users : Users Scalar) (userId : String) (user : Fields Scalar)
    (entries : List (Fields Scalar)) (calls : List Call)
    (huser : users userId = some user)
    (hdevices : HasDevices user (entries.map .document))
    (hnodup : (entries.map idOf).Nodup)
    (hliteral : ∀ call ∈ calls, call.userId = userId → IsLiteral call.deviceId) :
    ∃ user' entries', addDevices users calls userId = some user' ∧
      HasDevices user' (entries'.map .document) ∧
      Upserted entries (callsOf Scalar userId calls) entries' := by
  have hown : ∀ call ∈ calls.filter fun call => call.userId = userId,
      IsLiteral call.deviceId := by
    intro call hcall
    rw [List.mem_filter] at hcall
    exact hliteral call hcall.1 (of_decide_eq_true hcall.2)
  have hafter : addDevices users calls userId =
      some ((calls.filter fun call => call.userId = userId).foldl updateUser user) := by
    rw [addDevices_user, huser]
    rfl
  exact ⟨_, _, hafter, hasDevices_foldl hown hdevices,
    upserted_upserts hnodup (callsOf Scalar userId calls)⟩

/-- A user with two devices. -/
def alice : Fields Unit :=
  [("_id", .string "user-1"), ("username", .string "alice"),
    ("devices", .array [
      .document [("deviceId", .string "phone"), ("lastLogin", .date 1)],
      .document [("deviceId", .string "tablet"), ("lastLogin", .date 2)]])]

def onlyAlice : Users Unit := Function.update (fun _ => none) "user-1" (some alice)

theorem addDevices_upserted_alice : ∃ user' entries',
    addDevices onlyAlice [⟨"user-1", "phone", some 5, 5⟩,
      ⟨"user-1", "laptop", none, 6⟩, ⟨"user-1", "phone", some 4, 7⟩] "user-1" =
        some user' ∧
      HasDevices user' (entries'.map .document) ∧
      Upserted
        [[("deviceId", .string "phone"), ("lastLogin", .date 1)],
          [("deviceId", .string "tablet"), ("lastLogin", .date 2)]]
        (callsOf Unit "user-1" [⟨"user-1", "phone", some 5, 5⟩,
          ⟨"user-1", "laptop", none, 6⟩, ⟨"user-1", "phone", some 4, 7⟩])
        entries' :=
  addDevices_upserted onlyAlice "user-1" alice _ _ rfl (.inl rfl) (by decide)
    (by decide)

end Table

end OceanChat.Devices
