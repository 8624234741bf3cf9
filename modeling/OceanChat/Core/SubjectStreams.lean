import OceanChat.Core.InsertionMap

/-!
# Streams of subjects

A subject is a list of tokens, and a pattern matches some of them: `*` stands for one
token, `>` at the end for one or more.  A table of named streams keeps the patterns of
any two streams apart, so that no subject belongs to two of them.
-/

namespace SubjectStreams

/-! ## Patterns -/

inductive Pattern (Token : Type*)
  | finish
  | rest
  | token (expected : Token) (pattern : Pattern Token)
  | star (pattern : Pattern Token)

namespace Pattern

variable {Token : Type*} [DecidableEq Token]

def covers : Pattern Token → List Token → Bool
  | finish, [] => true
  | rest, _ :: _ => true
  | token expected pattern, other :: subject =>
      decide (expected = other) && covers pattern subject
  | star pattern, _ :: subject => covers pattern subject
  | _, _ => false

/-- Some subject belongs to both. -/
def overlap : Pattern Token → Pattern Token → Bool
  | finish, finish => true
  | finish, _ | _, finish => false
  | rest, _ | _, rest => true
  | token left pattern, token right other =>
      decide (left = right) && overlap pattern other
  | token _ pattern, star other | star pattern, token _ other
  | star pattern, star other => overlap pattern other

theorem overlap_of_covers (left right : Pattern Token) {subject : List Token}
    (hleft : left.covers subject = true) (hright : right.covers subject = true) :
    left.overlap right = true := by
  induction left generalizing right subject with
  | finish =>
      cases subject with
      | nil => cases right <;> simp_all [covers, overlap]
      | cons other subject => simp [covers] at hleft
  | rest =>
      cases subject with
      | nil => simp [covers] at hleft
      | cons other subject => cases right <;> simp_all [covers, overlap]
  | token expected pattern ih =>
      cases subject with
      | nil => simp [covers] at hleft
      | cons other subject =>
          simp only [covers, Bool.and_eq_true, decide_eq_true_eq] at hleft
          obtain ⟨rfl, hleft⟩ := hleft
          cases right with
          | finish => simp [covers] at hright
          | rest => rfl
          | token right rightPattern =>
              simp only [covers, Bool.and_eq_true, decide_eq_true_eq] at hright
              simp [overlap, hright.1, ih rightPattern hleft hright.2]
          | star rightPattern => exact ih rightPattern hleft hright
  | star pattern ih =>
      cases subject with
      | nil => simp [covers] at hleft
      | cons other subject =>
          cases right with
          | finish => simp [covers] at hright
          | rest => rfl
          | token right rightPattern =>
              simp only [covers, Bool.and_eq_true, decide_eq_true_eq] at hright
              exact ih rightPattern hleft hright.2
          | star rightPattern => exact ih rightPattern hleft hright

end Pattern

/-! ## The table of streams -/

abbrev Table (Name Config : Type*) := InsertionMap Name Config

section Table

variable {Name Config Token : Type*} [DecidableEq Name] [DecidableEq Token]
variable (patterns : Config → List (Pattern Token))

/-- A stream of another name has a pattern in common with the new one. -/
def collides (table : Table Name Config) (name : Name) (config : Config) : Bool :=
  table.entries.any fun other =>
    decide (other.1 ≠ name) && (patterns config).any fun left =>
      (patterns other.2).any left.overlap

/-- A stream that exists is added once more only as it is. -/
def add [DecidableEq Config] (table : Table Name Config) (name : Name)
    (config : Config) : Option (Table Name Config) :=
  match table.get name with
  | some stored => if stored = config then some table else none
  | none => if collides patterns table name config then none
      else some (table.set name config)

def update (table : Table Name Config) (name : Name) (config : Config) :
    Option (Table Name Config) :=
  match table.get name with
  | some _ => if collides patterns table name config then none
      else some (table.set name config)
  | none => none

/-- The stream of this name gets the messages of the subject. -/
def Keeps (table : Table Name Config) (subject : List Token) (name : Name) : Prop :=
  ∃ config, table.get name = some config ∧
    ∃ pattern ∈ patterns config, pattern.covers subject = true

/-- No subject belongs to two streams. -/
def Separate (table : Table Name Config) : Prop :=
  ∀ subject name other, Keeps patterns table subject name →
    Keeps patterns table subject other → name = other

/-- What a successful request leaves. -/
structure Written (table : Table Name Config) (name : Name) (config : Config)
    (next : Table Name Config) : Prop where
  same : next.get name = some config
  of_ne : ∀ other, other ≠ name → next.get other = table.get other
  separate : Separate patterns table → Separate patterns next

variable {patterns}
variable {table next : Table Name Config} {name other : Name} {config : Config}
variable {subject : List Token}

theorem separate_empty :
    Separate patterns (InsertionMap.empty : Table Name Config) := by
  rintro subject name other ⟨config, hget, _⟩
  simp at hget

theorem not_keeps_of_not_collides (hfree : collides patterns table name config = false)
    {pattern : Pattern Token} (hpattern : pattern ∈ patterns config)
    (hcovers : pattern.covers subject = true) (hne : other ≠ name) :
    ¬ Keeps patterns table subject other := by
  rintro ⟨stored, hget, right, hright, hcovers'⟩
  have hcollides : collides patterns table name config = true := by
    apply List.any_eq_true.mpr
    refine ⟨_, InsertionMap.get_eq_some_iff.mp hget, ?_⟩
    rw [Bool.and_eq_true, decide_eq_true_eq]
    refine ⟨hne, List.any_eq_true.mpr ⟨pattern, hpattern, ?_⟩⟩
    exact List.any_eq_true.mpr
      ⟨right, hright, Pattern.overlap_of_covers pattern right hcovers hcovers'⟩
  rw [hcollides] at hfree
  cases hfree

theorem keeps_set_of_ne (hne : other ≠ name) :
    Keeps patterns (table.set name config) subject other ↔
      Keeps patterns table subject other := by
  simp only [Keeps, InsertionMap.get_set_of_ne hne]

theorem keeps_set_same :
    Keeps patterns (table.set name config) subject name ↔
      ∃ pattern ∈ patterns config, pattern.covers subject = true := by
  simp [Keeps]

theorem separate_set (hfree : collides patterns table name config = false)
    (hseparate : Separate patterns table) :
    Separate patterns (table.set name config) := by
  intro subject left right hleft hright
  by_cases hl : left = name <;> by_cases hr : right = name
  · rw [hl, hr]
  · subst hl
    obtain ⟨pattern, hpattern, hcovers⟩ := keeps_set_same.mp hleft
    exact absurd ((keeps_set_of_ne hr).mp hright)
      (not_keeps_of_not_collides hfree hpattern hcovers hr)
  · subst hr
    obtain ⟨pattern, hpattern, hcovers⟩ := keeps_set_same.mp hright
    exact absurd ((keeps_set_of_ne hl).mp hleft)
      (not_keeps_of_not_collides hfree hpattern hcovers hl)
  · exact hseparate subject left right ((keeps_set_of_ne hl).mp hleft)
      ((keeps_set_of_ne hr).mp hright)

theorem written_set (hfree : collides patterns table name config = false) :
    Written patterns table name config (table.set name config) where
  same := InsertionMap.get_set_same
  of_ne _ hne := InsertionMap.get_set_of_ne hne
  separate := separate_set hfree

theorem written_self (hget : table.get name = some config) :
    Written patterns table name config table where
  same := hget
  of_ne _ _ := rfl
  separate hseparate := hseparate

theorem written_of_add [DecidableEq Config]
    (hadd : add patterns table name config = some next) :
    Written patterns table name config next := by
  unfold add at hadd
  split at hadd
  · rename_i stored hget
    obtain ⟨rfl, rfl⟩ : stored = config ∧ table = next := by simpa using hadd
    exact written_self hget
  · obtain ⟨hfree, rfl⟩ : collides patterns table name config = false ∧
        table.set name config = next := by simpa using hadd
    exact written_set hfree

theorem written_of_update (hupdate : update patterns table name config = some next) :
    Written patterns table name config next := by
  unfold update at hupdate
  split at hupdate
  · obtain ⟨hfree, rfl⟩ : collides patterns table name config = false ∧
        table.set name config = next := by simpa using hupdate
    exact written_set hfree
  · cases hupdate

end Table

end SubjectStreams
