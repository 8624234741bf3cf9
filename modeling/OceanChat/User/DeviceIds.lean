import OceanChat.User.Devices

/-!
# Device identifiers as data

The identifier that a client has sent stands in three places of the expression
of `addDevice`.  A text that begins with `$` is evaluated there as a path into
the document of the user; every other text is stored as it is, and nothing but
the array of devices decides what becomes of the array.
-/

namespace OceanChat.Devices

open Aggregation

section Data

variable {Scalar : Type} [DecidableEq Scalar] {deviceId : String}

/-- The array of devices after a call holds the elements. -/
def Leaves (clock now : ℤ) (deviceId : String) (user : Fields Scalar)
    (elements : List (Value Scalar)) : Prop :=
  ∃ user', setFields clock (setStage deviceId now) user = .ok user' ∧
    user'.lookup "devices" = some (.array elements)

/-- Users with the same devices are left with the same devices, and one of them
has exactly the identifier. -/
def IsData (Scalar : Type) [DecidableEq Scalar] (deviceId : String) : Prop :=
  ∀ (clock now : ℤ) (left right : Fields Scalar) (elements : List (Value Scalar)),
    HasDevices left elements → left.lookup "devices" = right.lookup "devices" →
      ∃ devices, Leaves clock now deviceId left devices ∧
        Leaves clock now deviceId right devices ∧
        ∃ device ∈ devices, fieldOf "deviceId" device = some (.string deviceId)

/-! ## Literals -/

theorem leaves_of_isLiteral {clock now : ℤ} {user : Fields Scalar}
    {elements : List (Value Scalar)} (hliteral : IsLiteral deviceId)
    (hdevices : HasDevices user elements) :
    Leaves clock now deviceId user (upsertElements deviceId now elements) := by
  have hset := @setFields_setStage Scalar _ user elements
    ⟨"", deviceId, some now, clock⟩ hliteral hdevices
  exact ⟨_, hset, lookup_setField_self⟩

/-- A renewed entry keeps its identifier. -/
theorem fieldOf_touchElement (now : ℤ) (element : Value Scalar) :
    fieldOf "deviceId" (touchElement deviceId now element) =
      fieldOf "deviceId" element := by
  unfold touchElement
  split
  · split
    · exact lookup_setField_of_ne (by decide)
    · rfl
  · rfl

theorem exists_mem_upsertElements (now : ℤ) (elements : List (Value Scalar)) :
    ∃ device ∈ upsertElements deviceId now elements,
      fieldOf "deviceId" device = some (.string deviceId) := by
  unfold upsertElements
  split
  · rename_i hmem
    obtain ⟨element, helement, hid⟩ := List.mem_map.mp hmem
    refine ⟨touchElement deviceId now element, List.mem_map_of_mem helement, ?_⟩
    rw [fieldOf_touchElement, hid]
  · exact ⟨_, List.mem_append_right _ (List.mem_singleton_self _), rfl⟩

/-! ## Paths -/

/-- A user without devices. -/
def newcomer (username : String) : Fields Scalar :=
  [("_id", .string "user-1"), ("username", .string username)]

omit [DecidableEq Scalar] in
theorem hasDevices_newcomer (username : String) :
    HasDevices (newcomer username : Fields Scalar) [] :=
  .inr ⟨.inl rfl, rfl⟩

omit [DecidableEq Scalar] in
/-- The texts that a path into the document of a newcomer can end at. -/
theorem text_of_getPath {clock : ℤ} {username name text : String}
    {path : List String} {value : Option (Value Scalar)}
    (hname : rootEnv clock (newcomer username) name = some value)
    (hpath : getPath path value = some (.string text)) :
    text = "user-1" ∨ text = username := by
  have hdocument : ∀ path : List String,
      getPath path (some (.document (newcomer username : Fields Scalar))) =
        some (.string text) → text = "user-1" ∨ text = username := by
    intro path hend
    cases path with
    | nil => simp [getPath] at hend
    | cons field rest =>
        rw [getPath_document, newcomer, lookup_cons, lookup_cons] at hend
        cases rest with
        | nil =>
            simp only [getPath] at hend
            split at hend
            · exact .inl (by simpa using hend.symm)
            · split at hend
              · exact .inr (by simpa using hend.symm)
              · cases hend
        | cons next rest =>
            split at hend
            · simp [getPath] at hend
            · split at hend <;> simp [getPath] at hend
  unfold rootEnv at hname
  split at hname
  · obtain rfl := Option.some.inj hname
    exact hdocument path hpath
  · obtain rfl := Option.some.inj hname
    exact hdocument path hpath
  · obtain rfl := Option.some.inj hname
    cases path <;> simp [getPath] at hpath
  · obtain rfl := Option.some.inj hname
    cases path <;> simp [getPath] at hpath
  · cases hname

theorem text_of_eval_pathOf {clock : ℤ} {username name text : String}
    {names : List (List Char)}
    (heval : eval (rootEnv clock (newcomer username : Fields Scalar))
      (pathOf name names) = .ok (some (.string text))) :
    text = "user-1" ∨ text = username := by
  unfold pathOf at heval
  split at heval
  · rw [eval] at heval
    split at heval
    · rename_i value hname
      exact text_of_getPath hname (Except.ok.inj heval)
    · cases heval
  · rw [eval] at heval
    cases heval

/-- A path never ends at itself while the fields hold literals. -/
theorem eval_operand_ne {clock : ℤ} {username : String}
    (husername : IsLiteral username) (hpath : ¬ IsLiteral deviceId) :
    eval (rootEnv clock (newcomer username : Fields Scalar)) (operand deviceId) ≠
      .ok (some (.string deviceId)) := by
  have hne : ¬ (deviceId = "user-1" ∨ deviceId = username) := by
    rintro (rfl | rfl)
    · exact hpath (by decide)
    · exact hpath husername
  intro heval
  unfold operand at heval
  split at heval
  · split at heval
    · exact hne (text_of_eval_pathOf heval)
    · rw [eval] at heval
      cases heval
  · exact hne (text_of_eval_pathOf heval)
  · rename_i hdollars hdollar
    refine hpath ?_
    intro hhead
    obtain ⟨rest, hrest⟩ := List.head?_eq_some_iff.mp hhead
    exact hdollar rest hrest

theorem setFields_of_error {clock now : ℤ} {user : Fields Scalar} {failure : Failure}
    (heval : eval (rootEnv clock user) (operand deviceId) = .error failure) :
    setFields clock (setStage deviceId now) user = .error failure := by
  have htest : eval (rootEnv clock user)
      (.isIn (operand deviceId) (.ifNull (operand "$devices.deviceId") (.array []))) =
        .error failure := by
    rw [eval, heval]
    rfl
  have hexpr : eval (rootEnv clock user) (devicesExpr deviceId now) =
      .error failure := by
    rw [devicesExpr, eval, htest]
    rfl
  rw [setFields, setStage, evalAssignments, evalAssignments, hexpr]
  rfl

/-- A user without devices gets one, with what the operand is evaluated to. -/
theorem setFields_of_ok {clock now : ℤ} {user : Fields Scalar}
    {value : Option (Value Scalar)} (hdevices : HasDevices user [])
    (heval : eval (rootEnv clock user) (operand deviceId) = .ok value) :
    setFields clock (setStage deviceId now) user =
      .ok (setField "devices" (.array [.document ((table Scalar).fresh value now)])
        (setField "lastLogin" (.date now) user)) := by
  have htest : eval (rootEnv clock user)
      (.isIn (operand deviceId) (.ifNull (operand "$devices.deviceId") (.array []))) =
        .ok (some (.boolean false)) :=
    eval_isIn heval (eval_deviceIds hdevices)
  have happended : eval (rootEnv clock user)
      (.array [.object [("deviceId", operand deviceId),
        ("lastLogin", .literal (.date now))]]) =
      .ok (some (.array [.document ((table Scalar).fresh value now)])) := by
    rw [eval, evalElements, eval, evalFields, heval]
    cases value <;> rfl
  have hexpr : eval (rootEnv clock user) (devicesExpr deviceId now) =
      .ok (some (.array [.document ((table Scalar).fresh value now)])) := by
    rw [devicesExpr, eval_cond htest]
    exact eval_concatArrays (eval_devices hdevices) happended
  rw [setFields, setStage, evalAssignments, evalAssignments, evalAssignments, hexpr]
  rfl

/-- The identifier of the device that a newcomer gets. -/
theorem eval_operand_of_leaves {clock now : ℤ} {username : String}
    {elements : List (Value Scalar)} {device : Value Scalar}
    (hleaves : Leaves clock now deviceId (newcomer username) elements)
    (hmem : device ∈ elements) :
    eval (rootEnv clock (newcomer username : Fields Scalar)) (operand deviceId) =
      .ok (fieldOf "deviceId" device) := by
  obtain ⟨user', hset, hlookup⟩ := hleaves
  cases heval : eval (rootEnv clock (newcomer username : Fields Scalar))
      (operand deviceId) with
  | error failure =>
      rw [setFields_of_error heval] at hset
      cases hset
  | ok value =>
      rw [setFields_of_ok (hasDevices_newcomer username) heval] at hset
      obtain rfl := Except.ok.inj hset
      rw [lookup_setField_self, Option.some.injEq, Value.array.injEq] at hlookup
      subst hlookup
      obtain rfl := List.mem_singleton.mp hmem
      exact congrArg Except.ok ((table Scalar).key_fresh value now).symm

/-- The identifiers that are data are those that do not begin with `$`. -/
theorem isData_iff_isLiteral (Scalar : Type) [DecidableEq Scalar]
    (deviceId : String) : IsData Scalar deviceId ↔ IsLiteral deviceId := by
  constructor
  · intro hdata
    by_contra hpath
    obtain ⟨devices, hleft, -, device, hmem, hid⟩ :=
      hdata 0 0 (newcomer "alice") (newcomer "alice") []
        (hasDevices_newcomer "alice") rfl
    have heval := eval_operand_of_leaves hleft hmem
    rw [hid] at heval
    exact eval_operand_ne (by decide) hpath heval
  · intro hliteral clock now left right elements hleft hsame
    have hright : HasDevices right elements := by
      rwa [HasDevices, ← hsame]
    exact ⟨_, leaves_of_isLiteral hliteral hleft,
      leaves_of_isLiteral hliteral hright, exists_mem_upsertElements now elements⟩

/-- The name of the user is read and stored in the place of the identifier. -/
theorem not_isData_username :
    ((setFields 0 (setStage "$username" 1) (newcomer "alice" : Fields Unit)).map
        fun user => user.lookup "devices") =
      .ok (some (.array [.document [("deviceId", .string "alice"),
        ("lastLogin", .date 1)]])) ∧
    ((setFields 0 (setStage "$username" 1) (newcomer "bob" : Fields Unit)).map
        fun user => user.lookup "devices") =
      .ok (some (.array [.document [("deviceId", .string "bob"),
        ("lastLogin", .date 1)]])) ∧
    ¬ IsData Unit "$username" := by
  refine ⟨rfl, rfl, fun hdata => ?_⟩
  obtain ⟨devices, hleft, -, device, hmem, hid⟩ :=
    hdata 0 1 (newcomer "alice") (newcomer "alice") []
      (hasDevices_newcomer "alice") rfl
  have heval := eval_operand_of_leaves hleft hmem
  rw [hid] at heval
  exact eval_operand_ne (by decide) (by decide) heval

end Data

end OceanChat.Devices
