import Mathlib.Data.List.Basic
import Mathlib.Data.Rat.Defs

/-!
# Aggregation expressions

Documents, the expressions that a pipeline computes new fields with, and a
`$set` stage.  A text that begins with `$` is a path wherever an expression is
expected, every other text is a literal.
-/

namespace Aggregation

/-! ## Values -/

/-- A stored value; the values of `Scalar` are only ever compared. -/
inductive Value (Scalar : Type)
  | null
  | boolean (value : Bool)
  | number (value : ℚ)
  | string (value : String)
  | date (time : ℤ)
  | scalar (value : Scalar)
  | array (elements : List (Value Scalar))
  | document (fields : List (String × Value Scalar))

/-- The fields of a document, in their order. -/
abbrev Fields (Scalar : Type) := List (String × Value Scalar)

section Equality

variable {Scalar : Type} [DecidableEq Scalar]

mutual

def Value.same : Value Scalar → Value Scalar → Bool
  | .null, .null => true
  | .boolean left, .boolean right => left = right
  | .number left, .number right => left = right
  | .string left, .string right => left = right
  | .date left, .date right => left = right
  | .scalar left, .scalar right => left = right
  | .array left, .array right => sameElements left right
  | .document left, .document right => sameFields left right
  | _, _ => false

def sameElements : List (Value Scalar) → List (Value Scalar) → Bool
  | [], [] => true
  | left :: lefts, right :: rights => left.same right && sameElements lefts rights
  | _, _ => false

def sameFields : Fields Scalar → Fields Scalar → Bool
  | [], [] => true
  | (name, left) :: lefts, (name', right) :: rights =>
      name = name' && left.same right && sameFields lefts rights
  | _, _ => false

end

mutual

theorem Value.same_iff : (left right : Value Scalar) →
    (left.same right = true ↔ left = right)
  | .array left, right => by
      cases right <;> simp [Value.same, sameElements_iff left]
  | .document left, right => by
      cases right <;> simp [Value.same, sameFields_iff left]
  | .null, right | .boolean _, right | .number _, right | .string _, right
  | .date _, right | .scalar _, right => by
      cases right <;> simp [Value.same]

theorem sameElements_iff : (left right : List (Value Scalar)) →
    (sameElements left right = true ↔ left = right)
  | [], right => by
      cases right <;> simp [sameElements]
  | left :: lefts, right => by
      cases right <;>
        simp [sameElements, Value.same_iff left, sameElements_iff lefts]

theorem sameFields_iff : (left right : Fields Scalar) →
    (sameFields left right = true ↔ left = right)
  | [], right => by
      cases right <;> simp [sameFields]
  | (name, left) :: lefts, right => by
      rcases right with _ | ⟨⟨name', right⟩, rights⟩ <;>
        simp [sameFields, Value.same_iff left, sameFields_iff lefts]

end

instance : DecidableEq (Value Scalar) := fun left right =>
  decidable_of_iff _ (Value.same_iff left right)

end Equality

/-! ## Paths -/

section Paths

variable {Scalar : Type}

/-- The field of a document; other values have none. -/
def fieldOf (name : String) : Value Scalar → Option (Value Scalar)
  | .document fields => fields.lookup name
  | _ => none

/-- The value at the end of a path, `none` where it is missing.  A path goes
through an array into the documents among its elements. -/
def getPath : List String → Option (Value Scalar) → Option (Value Scalar)
  | [], value => value
  | name :: path, some (.document fields) => getPath path (fields.lookup name)
  | name :: path, some (.array elements) =>
      some (.array (elements.filterMap fun element =>
        getPath path (fieldOf name element)))
  | _ :: _, _ => none

theorem getPath_document (name : String) (path : List String)
    (fields : Fields Scalar) :
    getPath (name :: path) (some (.document fields)) =
      getPath path (fields.lookup name) := by
  simp only [getPath]

theorem getPath_array (name : String) (elements : List (Value Scalar)) :
    getPath [name] (some (.array elements)) =
      some (.array (elements.filterMap (fieldOf name))) := by
  simp only [getPath]

/-- Set a field: in its place if it is there, behind the others if not. -/
def setField (name : String) (value : Value Scalar) :
    Fields Scalar → Fields Scalar
  | [] => [(name, value)]
  | field :: fields =>
      if field.1 = name then (name, value) :: fields
      else field :: setField name value fields

def eraseField (name : String) (fields : Fields Scalar) : Fields Scalar :=
  fields.filter fun field => field.1 ≠ name

/-- A missing value removes the field. -/
def assign (fields : Fields Scalar) (name : String) :
    Option (Value Scalar) → Fields Scalar
  | some value => setField name value fields
  | none => eraseField name fields

variable {name name' : String} {value value' : Value Scalar}
variable {fields : Fields Scalar}

theorem lookup_cons (field : String × Value Scalar) :
    List.lookup name (field :: fields) =
      if field.1 = name then some field.2 else fields.lookup name := by
  rw [List.lookup_cons]
  by_cases hname : field.1 = name
  · simp [hname]
  · rw [beq_eq_false_iff_ne.mpr (Ne.symm hname), if_neg hname]

@[simp]
theorem lookup_setField_self : (setField name value fields).lookup name =
    some value := by
  induction fields with
  | nil => simp [setField]
  | cons field fields ih =>
      by_cases hname : field.1 = name <;> simp [setField, lookup_cons, hname, ih]

theorem lookup_setField_of_ne (hne : name' ≠ name) :
    (setField name value fields).lookup name' = fields.lookup name' := by
  induction fields with
  | nil => simp [setField, lookup_cons, Ne.symm hne]
  | cons field fields ih =>
      by_cases hname : field.1 = name
      · simp [setField, lookup_cons, hname, Ne.symm hne]
      · simp [setField, lookup_cons, hname, ih]

theorem setField_setField :
    setField name value' (setField name value fields) =
      setField name value' fields := by
  induction fields with
  | nil => simp [setField]
  | cons field fields ih =>
      by_cases hname : field.1 = name <;> simp [setField, hname, ih]

end Paths

/-! ## Expressions -/

/-- `path` starts at a variable; `invalid` is a text that is no path. -/
inductive Expr (Scalar : Type)
  | literal (value : Value Scalar)
  | path (name : String) (fields : List String)
  | invalid
  | ifNull (input replacement : Expr Scalar)
  | cond (test yes no : Expr Scalar)
  | isIn (input elements : Expr Scalar)
  | eq (left right : Expr Scalar)
  | map (input : Expr Scalar) (as : String) (body : Expr Scalar)
  | mergeObjects (left right : Expr Scalar)
  | concatArrays (left right : Expr Scalar)
  | array (elements : List (Expr Scalar))
  | object (fields : List (String × Expr Scalar))

/-- A name that may stand in a path. -/
def isFieldName (name : List Char) : Bool :=
  match name with
  | [] => false
  | '$' :: _ => decide (String.ofList name ∈ ["$ref", "$id", "$db"])
  | _ => !name.contains '\x00'

/-- The path that starts at a variable, if all names are names. -/
def pathOf {Scalar : Type} (name : String) (names : List (List Char)) :
    Expr Scalar :=
  if names.all isFieldName then .path name (names.map String.ofList) else .invalid

/-- What a text stands for where an expression is expected. -/
def operand {Scalar : Type} (text : String) : Expr Scalar :=
  match text.toList with
  | '$' :: '$' :: rest =>
      match rest.splitOn '.' with
      | name :: names => pathOf (String.ofList name) names
      | [] => .invalid
  | '$' :: rest => pathOf "CURRENT" (rest.splitOn '.')
  | _ => .literal (.string text)

/-- A text that is a literal wherever an expression is expected. -/
def IsLiteral (text : String) : Prop := text.toList.head? ≠ some '$'

instance (text : String) : Decidable (IsLiteral text) :=
  inferInstanceAs (Decidable (_ ≠ _))

theorem operand_of_isLiteral {Scalar : Type} {text : String}
    (hliteral : IsLiteral text) :
    (operand text : Expr Scalar) = .literal (.string text) := by
  unfold operand
  split
  · rename_i htext
    exact absurd (by rw [htext]; rfl) hliteral
  · rename_i htext
    exact absurd (by rw [htext]; rfl) hliteral
  · rfl

inductive Failure
  | undefinedVariable
  | invalidPath
  | notArray
  | notDocument
  deriving DecidableEq

/-- The variables in scope, each with its value, which may be missing. -/
abbrev Env (Scalar : Type) := String → Option (Option (Value Scalar))

section Evaluation

variable {Scalar : Type} [DecidableEq Scalar]

def bindVariable (env : Env Scalar) (name : String)
    (value : Option (Value Scalar)) : Env Scalar :=
  Function.update env name (some value)

def truthy : Option (Value Scalar) → Bool
  | none | some .null | some (.boolean false) => false
  | some (.number value) => decide (value ≠ 0)
  | some _ => true

/-- `$mergeObjects` takes null and missing values for empty documents. -/
def fieldsOf : Option (Value Scalar) → Except Failure (Fields Scalar)
  | none | some .null => .ok []
  | some (.document fields) => .ok fields
  | some _ => .error .notDocument

/-- The elements of an argument of `$concatArrays`, `none` for null. -/
def elementsOf : Option (Value Scalar) →
    Except Failure (Option (List (Value Scalar)))
  | none | some .null => .ok none
  | some (.array elements) => .ok (some elements)
  | some _ => .error .notArray

mutual

def eval (env : Env Scalar) : Expr Scalar →
    Except Failure (Option (Value Scalar))
  | .literal value => .ok (some value)
  | .path name fields =>
      match env name with
      | some value => .ok (getPath fields value)
      | none => .error .undefinedVariable
  | .invalid => .error .invalidPath
  | .ifNull input replacement => do
      match ← eval env input with
      | none | some .null => eval env replacement
      | some value => .ok (some value)
  | .cond test yes no => do
      if truthy (← eval env test) then eval env yes else eval env no
  | .isIn input elements => do
      let value ← eval env input
      match ← eval env elements with
      | some (.array elements) =>
          .ok (some (.boolean (elements.any fun element => some element = value)))
      | _ => .error .notArray
  | .eq left right => do
      let left ← eval env left
      let right ← eval env right
      .ok (some (.boolean (left = right)))
  | .map input as body => do
      match ← eval env input with
      | none | some .null => .ok (some .null)
      | some (.array elements) => do
          let results ← elements.mapM fun element =>
            eval (bindVariable env as (some element)) body
          .ok (some (.array (results.map fun result => result.getD .null)))
      | some _ => .error .notArray
  | .mergeObjects left right => do
      let left ← fieldsOf (← eval env left)
      let right ← fieldsOf (← eval env right)
      .ok (some (.document
        (right.foldl (fun fields field => setField field.1 field.2 fields) left)))
  | .concatArrays left right => do
      match ← elementsOf (← eval env left) with
      | none => .ok (some .null)
      | some left => do
          match ← elementsOf (← eval env right) with
          | none => .ok (some .null)
          | some right => .ok (some (.array (left ++ right)))
  | .array elements => do
      .ok (some (.array (← evalElements env elements)))
  | .object fields => do
      .ok (some (.document (← evalFields env fields)))

/-- A missing element of an array is null. -/
def evalElements (env : Env Scalar) : List (Expr Scalar) →
    Except Failure (List (Value Scalar))
  | [] => .ok []
  | element :: elements => do
      let value ← eval env element
      return value.getD .null :: (← evalElements env elements)

/-- A missing field of a document is left out. -/
def evalFields (env : Env Scalar) : List (String × Expr Scalar) →
    Except Failure (Fields Scalar)
  | [] => .ok []
  | (name, field) :: fields => do
      let value ← eval env field
      let rest ← evalFields env fields
      return match value with
        | some value => (name, value) :: rest
        | none => rest

end

/-! ## Rules -/

section Rules

variable {env : Env Scalar} {input test yes no replacement left right body : Expr Scalar}
variable {name : String} {path : List String} {elements lefts rights : List (Value Scalar)}

theorem eval_path {value : Option (Value Scalar)} (hname : env name = some value) :
    eval env (.path name path) = .ok (getPath path value) := by
  rw [eval, hname]

theorem eval_ifNull {value : Value Scalar} (hinput : eval env input = .ok (some value))
    (hvalue : value ≠ .null) :
    eval env (.ifNull input replacement) = .ok (some value) := by
  rw [eval, hinput]
  cases value with
  | null => exact absurd rfl hvalue
  | _ => rfl

theorem eval_ifNull_of_null {value : Option (Value Scalar)}
    (hinput : eval env input = .ok value) (hnull : value = none ∨ value = some .null) :
    eval env (.ifNull input replacement) = eval env replacement := by
  rw [eval, hinput]
  rcases hnull with rfl | rfl <;> rfl

theorem eval_cond {holds : Bool}
    (htest : eval env test = .ok (some (.boolean holds))) :
    eval env (.cond test yes no) = if holds then eval env yes else eval env no := by
  rw [eval, htest]
  cases holds <;> rfl

theorem eval_isIn {value : Option (Value Scalar)} {array : Expr Scalar}
    (hinput : eval env input = .ok value)
    (harray : eval env array = .ok (some (.array elements))) :
    eval env (.isIn input array) =
      .ok (some (.boolean (elements.any fun element => some element = value))) := by
  rw [eval, hinput, harray]
  rfl

theorem eval_concatArrays (hleft : eval env left = .ok (some (.array lefts)))
    (hright : eval env right = .ok (some (.array rights))) :
    eval env (.concatArrays left right) = .ok (some (.array (lefts ++ rights))) := by
  rw [eval, hleft, hright]
  rfl

/-- `$map` over an array whose elements are all mapped to values. -/
theorem eval_map {image : Value Scalar → Value Scalar}
    (hinput : eval env input = .ok (some (.array elements)))
    (hbody : ∀ element, eval (bindVariable env name (some element)) body =
      .ok (some (image element))) :
    eval env (.map input name body) =
      .ok (some (.array (elements.map image))) := by
  have hresults : (elements.mapM fun element =>
      eval (bindVariable env name (some element)) body) =
        .ok (elements.map fun element => some (image element)) := by
    rw [funext hbody]
    exact List.mapM_pure
  rw [eval, hinput]
  change ((elements.mapM fun element =>
    eval (bindVariable env name (some element)) body) >>= _) = _
  rw [hresults]
  change Except.ok _ = _
  rw [List.map_map]
  rfl

end Rules

/-- The variables of a stage that reads a document at a time of the server. -/
def rootEnv (clock : ℤ) (document : Fields Scalar) : Env Scalar
  | "ROOT" | "CURRENT" => some (some (.document document))
  | "NOW" => some (some (.date clock))
  | "REMOVE" => some none
  | _ => none

/-- Evaluate the new fields of a stage, each on the same document. -/
def evalAssignments (env : Env Scalar) : List (String × Expr Scalar) →
    Except Failure (List (String × Option (Value Scalar)))
  | [] => .ok []
  | (name, field) :: fields => do
      let value ← eval env field
      return (name, value) :: (← evalAssignments env fields)

/-- The `$set` stage. -/
def setFields (clock : ℤ) (assignments : List (String × Expr Scalar))
    (document : Fields Scalar) : Except Failure (Fields Scalar) := do
  let values ← evalAssignments (rootEnv clock document) assignments
  return values.foldl (fun fields value => assign fields value.1 value.2) document

end Evaluation

end Aggregation
