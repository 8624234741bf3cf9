import OceanChat.Core.InsertionMap
import OceanChat.Core.PendingWrites
import OceanChat.Core.Runs

/-!
# The watcher of the database

The watcher emits a record for every change of the collections that it watches.  The
database looks up the document of an update when it gets to it, which may be later than
the update.  A listener can keep a copy of the documents from the records in two ways:
by the fields that a record says have changed, or by the whole document in it.
-/

namespace OceanChat.ChangeStream

open PendingWrites (Store Untouched replay)
open Runs (run)

variable {Document Value : Type}

/-! ## Changes -/

/-- What an update has changed; no field is changed twice.  An array that has become
shorter is listed with its new size. -/
structure UpdateDescription (Value : Type) where
  updatedFields : List (String × Value)
  removedFields : List String
  truncatedArrays : List (String × ℕ)
  distinct : (updatedFields.map Prod.fst ++ removedFields).Nodup

inductive OperationType
  | insert
  | update
  | delete
  | replace
  | drop
  | rename
  | dropDatabase
  | invalidate
  deriving DecidableEq

/-- A change with its collection and the identifier of its document, as far as it has
them. -/
inductive ChangeStreamDocument (Document Value : Type)
  | insert (coll id : String) (fullDocument : Document)
  | update (coll id : String) (fullDocument : Option Document)
      (updateDescription : Option (UpdateDescription Value))
  | delete (coll id : String)
  | replace (coll id : String) (fullDocument : Document)
  | drop (coll : String)
  | rename (coll : String)
  | dropDatabase
  | invalidate

namespace ChangeStreamDocument

def operationType : ChangeStreamDocument Document Value → OperationType
  | insert .. => .insert
  | update .. => .update
  | delete .. => .delete
  | replace .. => .replace
  | drop _ => .drop
  | rename _ => .rename
  | dropDatabase => .dropDatabase
  | invalidate => .invalidate

/-- `ns.coll`. -/
def coll : ChangeStreamDocument Document Value → Option String
  | insert coll _ _ | update coll _ _ _ | delete coll _ | replace coll _ _ | drop coll
  | rename coll => some coll
  | dropDatabase | invalidate => none

end ChangeStreamDocument

/-! ## Records -/

inductive Action
  | insert
  | update
  | remove

inductive ClientAction
  | inserted
  | updated
  | removed

/-- A property of `diff` that is there but undefined is `some none`. -/
structure StreamData (Document Value : Type) where
  id : String
  action : Action
  clientAction : ClientAction
  data : Option Document
  diff : Option (InsertionMap String (Option Value))
  unset : Option (InsertionMap String ℕ)
  oplog : Bool

/-- The properties that `reduce` collects, all with one value. -/
def collect {Property : Type} (fields : List String) (value : Property) :
    InsertionMap String Property :=
  InsertionMap.empty.assign (fields.map (·, value))

def convertChangeStreamPlayload :
    ChangeStreamDocument Document Value → Except String (StreamData Document Value)
  | .insert _ id fullDocument =>
      .ok ⟨id, .insert, .inserted, some fullDocument, none, none, true⟩
  | .update _ id fullDocument updateDescription =>
      let updatedFields := (updateDescription.map (·.updatedFields)).getD []
      let removedFields := (updateDescription.map (·.removedFields)).getD []
      .ok
        { id := id
          action := .update
          clientAction := .updated
          data := fullDocument
          diff := some ((InsertionMap.empty.assign
            (updatedFields.map fun field => (field.1, some field.2))).assign
              (collect removedFields none).entries)
          unset := some (collect removedFields 1)
          oplog := true }
  | .delete _ id => .ok ⟨id, .remove, .removed, none, none, none, true⟩
  | _ => .error "Unknown operation type"

/-! ## The watcher -/

/-- What is injected as the collections to watch. -/
inductive CollectionsInput
  | missing
  | text (collection : String)
  | array (collections : List String)

/-- Without a collection the watcher does not start. -/
def collections : CollectionsInput → List String
  | .array collections => collections.eraseDups
  | _ => []

/-- The `$match` stage of the pipeline. -/
def selects (collectionNames : List String)
    (change : ChangeStreamDocument Document Value) : Bool :=
  [OperationType.insert, .update, .delete].contains change.operationType &&
    change.coll.any collectionNames.contains

/-- The event that is emitted for a change; one that cannot be converted throws. -/
def onChange (change : ChangeStreamDocument Document Value) :
    Option (String × StreamData Document Value) :=
  match change.coll, convertChangeStreamPlayload change with
  | some coll, .ok data => some (coll, data)
  | _, _ => none

/-! ## The database -/

inductive Operation (Document Value : Type)
  | insert (document : Document)
  | update (description : UpdateDescription Value)
  | delete
  | replace (document : Document)

structure Write (Document Value : Type) where
  coll : String
  id : String
  operation : Operation Document Value

/-- A document is found by its collection and its identifier. -/
abbrev Database (Document : Type) := Store (String × String) Document

/-- How fields are set and removed in a document, and arrays cut to a size. -/
abbrev Patch (Document Value : Type) :=
  List (String × Value) → List String → List (String × ℕ) → Document → Document

def Operation.change (patch : Patch Document Value) :
    Operation Document Value → Option Document → Option Document
  | .insert document, _ => some document
  | .update description, stored =>
      stored.map (patch description.updatedFields description.removedFields
        description.truncatedArrays)
  | .delete, _ => none
  | .replace document, _ => some document

/-- Only a write that finds or does not find its document makes a change. -/
def Operation.applies : Operation Document Value → Option Document → Bool
  | .insert _, stored => stored.isNone
  | _, stored => stored.isSome

def Write.pending (patch : Patch Document Value) (write : Write Document Value) :
    PendingWrites.Write (String × String) Document :=
  ⟨(write.coll, write.id), write.operation.change patch⟩

/-- The change as it is read, with the document that is stored at that time. -/
def Write.changeOf (write : Write Document Value) (stored : Option Document) :
    ChangeStreamDocument Document Value :=
  match write.operation with
  | .insert document => .insert write.coll write.id document
  | .update description => .update write.coll write.id stored (some description)
  | .delete => .delete write.coll write.id
  | .replace document => .replace write.coll write.id document

/-! ## A listener -/

/-- The copies that a listener keeps by the changed fields and by the documents. -/
structure Copies (Document : Type) where
  byDiff : Database Document
  byData : Database Document

/-- The properties of `diff` that are defined. -/
def StreamData.setFields (data : StreamData Document Value) : List (String × Value) :=
  ((data.diff.map (·.entries)).getD []).filterMap fun entry =>
    entry.2.map fun value => (entry.1, value)

def StreamData.unsetFields (data : StreamData Document Value) : List String :=
  (data.unset.map (·.keys)).getD []

def Copies.on (copies : Copies Document) (patch : Patch Document Value) (coll : String)
    (data : StreamData Document Value) : Copies Document :=
  let key := (coll, data.id)
  match data.action with
  | .insert =>
      ⟨Function.update copies.byDiff key data.data,
        Function.update copies.byData key data.data⟩
  | .update =>
      ⟨Function.update copies.byDiff key
          ((copies.byDiff key).map (patch data.setFields data.unsetFields [])),
        Function.update copies.byData key data.data⟩
  | .remove =>
      ⟨Function.update copies.byDiff key none, Function.update copies.byData key none⟩

def Copies.receive (patch : Patch Document Value) (copies : Copies Document)
    (change : ChangeStreamDocument Document Value) : Copies Document :=
  match onChange change with
  | some (coll, data) => copies.on patch coll data
  | none => copies

/-! ## The system -/

/-- `pending` are the writes that the stream has not come to, `batch` the changes that
it has selected and that have not reached the watcher. -/
structure State (Document Value : Type) where
  database : Database Document
  pending : List (Write Document Value)
  batch : List (ChangeStreamDocument Document Value)
  copies : Copies Document

/-- The listener starts with the documents as they are. -/
def State.initial (database : Database Document) : State Document Value :=
  ⟨database, [], [], ⟨database, database⟩⟩

inductive Event (Document Value : Type)
  | write (write : Write Document Value)
  | fetch
  | deliver

def step (patch : Patch Document Value) (collectionNames : List String)
    (state : State Document Value) :
    Event Document Value → Option (State Document Value)
  | .write write =>
      if write.operation.applies (state.database (write.coll, write.id)) then
        some { state with
          database := (write.pending patch).apply state.database
          pending := state.pending ++ [write] }
      else none
  | .fetch =>
      match state.pending with
      | write :: pending =>
          let change := write.changeOf (state.database (write.coll, write.id))
          some { state with
            pending := pending
            batch := if selects collectionNames change then state.batch ++ [change]
              else state.batch }
      | [] => none
  | .deliver =>
      match state.batch with
      | change :: batch =>
          some { state with
            batch := batch
            copies := state.copies.receive patch change }
      | [] => none

/-! ## What a listener learns -/

section Listener

variable {patch : Patch Document Value} {copies : Copies Document}
variable {change : ChangeStreamDocument Document Value} {write : Write Document Value}
variable {collectionNames : List String} {stored : Option Document}

theorem map_fst_pair {Property : Type} (fields : List String) (value : Property) :
    (fields.map (·, value)).map Prod.fst = fields := by
  rw [List.map_map]
  exact List.map_id fields

theorem entries_collect {Property : Type} {fields : List String} (hnodup : fields.Nodup)
    (value : Property) : (collect fields value).entries = fields.map (·, value) := by
  refine (InsertionMap.entries_assign ?_).trans (List.nil_append _)
  rw [map_fst_pair]
  exact hnodup

/-- `diff` has the updated fields with their values and the removed ones without. -/
theorem entries_diff (description : UpdateDescription Value) :
    ((InsertionMap.empty.assign
      (description.updatedFields.map fun field => (field.1, some field.2))).assign
        (collect description.removedFields none).entries).entries =
      description.updatedFields.map (fun field => (field.1, some field.2)) ++
        description.removedFields.map (·, none) := by
  obtain ⟨hfirst, hsecond, _⟩ := List.nodup_append.mp description.distinct
  have hkeys : (description.updatedFields.map fun field =>
      (field.1, some field.2)).map Prod.fst = description.updatedFields.map Prod.fst := by
    simp
  have hupdated : (InsertionMap.empty.assign
      (description.updatedFields.map fun field => (field.1, some field.2))).entries =
      description.updatedFields.map fun field => (field.1, some field.2) := by
    refine (InsertionMap.entries_assign ?_).trans (List.nil_append _)
    rw [hkeys]
    exact hfirst
  rw [entries_collect hsecond, InsertionMap.entries_assign, hupdated]
  rw [InsertionMap.keys, hupdated, hkeys, map_fst_pair]
  exact description.distinct

/-- A record says which fields an update has set and which it has removed. -/
theorem fields_of_update (coll id : String) (found : Option Document)
    (description : UpdateDescription Value) :
    ∃ data, convertChangeStreamPlayload (.update coll id found (some description)) =
        .ok data ∧
      data.id = id ∧ data.action = .update ∧ data.data = found ∧
      data.setFields = description.updatedFields ∧
      data.unsetFields = description.removedFields := by
  refine ⟨_, rfl, rfl, rfl, rfl, ?_, ?_⟩
  · simp only [StreamData.setFields, Option.map_some, Option.getD_some]
    rw [entries_diff, List.filterMap_append]
    simp [List.filterMap_map]
  · have hremoved := (List.nodup_append.mp description.distinct).2.1
    simp only [StreamData.unsetFields, Option.map_some, Option.getD_some,
      InsertionMap.keys]
    rw [entries_collect hremoved, map_fst_pair]

/-- The document in the record of a write. -/
def Operation.found (stored : Option Document) :
    Operation Document Value → Option Document
  | .insert document => some document
  | .update _ => stored
  | .delete => none
  | .replace document => some document

/-- The stream passes every change of a document on but a replacement. -/
def Operation.IsEmitted : Operation Document Value → Prop
  | .replace _ => False
  | _ => True

/-- What a record tells of an operation: the sizes of arrays are left out. -/
def Operation.told : Operation Document Value → Operation Document Value
  | .update description => .update { description with truncatedArrays := [] }
  | operation => operation

/-- No array becomes shorter. -/
def Operation.KeepsArrays : Operation Document Value → Prop
  | .update description => description.truncatedArrays = []
  | _ => True

theorem Operation.told_of_keepsArrays {operation : Operation Document Value}
    (hkeeps : operation.KeepsArrays) : operation.told = operation := by
  cases operation with
  | update description =>
      obtain ⟨updatedFields, removedFields, truncatedArrays, distinct⟩ := description
      obtain rfl : truncatedArrays = [] := hkeeps
      rfl
  | insert document | delete | replace document => rfl

/-- A record makes the write, as it tells it, in one copy and puts its document into the
other. -/
theorem receive_changeOf (hemitted : write.operation.IsEmitted) (copies : Copies Document)
    (stored : Option Document) :
    copies.receive patch (write.changeOf stored) =
      ⟨PendingWrites.Write.apply copies.byDiff
          ⟨(write.coll, write.id), write.operation.told.change patch⟩,
        Function.update copies.byData (write.coll, write.id)
          (write.operation.found stored)⟩ := by
  obtain ⟨coll, id, operation⟩ := write
  cases operation with
  | insert document => rfl
  | update description =>
      obtain ⟨data, hdata, rfl, haction, hfound, hset, hunset⟩ :=
        fields_of_update coll id stored description
      simp only [Copies.receive, Write.changeOf, onChange, hdata,
        ChangeStreamDocument.coll, Copies.on, haction, hfound, hset, hunset]
      rfl
  | delete => rfl
  | replace document => cases hemitted

theorem selects_changeOf (hemitted : write.operation.IsEmitted)
    (stored : Option Document) :
    selects collectionNames (write.changeOf stored) = true ↔
      write.coll ∈ collectionNames := by
  obtain ⟨coll, id, operation⟩ := write
  cases operation with
  | insert document =>
      simp [selects, Write.changeOf, ChangeStreamDocument.operationType,
        ChangeStreamDocument.coll]
  | update description =>
      simp [selects, Write.changeOf, ChangeStreamDocument.operationType,
        ChangeStreamDocument.coll]
  | delete =>
      simp [selects, Write.changeOf, ChangeStreamDocument.operationType,
        ChangeStreamDocument.coll]
  | replace document => cases hemitted

/-- A replacement is never selected. -/
theorem mem_of_selects (hselects : selects collectionNames (write.changeOf stored) = true) :
    write.coll ∈ collectionNames ∧ write.operation.IsEmitted := by
  by_cases hemitted : write.operation.IsEmitted
  · exact ⟨(selects_changeOf hemitted stored).mp hselects, hemitted⟩
  · cases hoperation : write.operation with
    | replace document =>
        simp [selects, Write.changeOf, hoperation, ChangeStreamDocument.operationType]
          at hselects
    | insert document | update description | delete =>
        rw [hoperation] at hemitted
        exact absurd trivial hemitted

end Listener

/-! ## Runs -/

/-- A listener that has received a batch as well. -/
def Copies.after (patch : Patch Document Value) (copies : Copies Document)
    (batch : List (ChangeStreamDocument Document Value)) : Copies Document :=
  batch.foldl (Copies.receive patch) copies

/-- `reached` are the documents as the writes that the stream has come to have made them.
Once the batch has been received, the first copy is the same wherever no array has become
shorter, and the other one is right wherever nothing is pending. -/
structure Tracks (patch : Patch Document Value) (collectionNames : List String)
    (KeepsArrays : String × String → Prop) (reached : Database Document)
    (state : State Document Value) : Prop where
  emitted : ∀ write ∈ state.pending, write.coll ∈ collectionNames →
    write.operation.IsEmitted
  kept : ∀ write ∈ state.pending, KeepsArrays (write.coll, write.id) →
    write.operation.KeepsArrays
  replayed : ∀ key : String × String, key.1 ∈ collectionNames →
    replay reached (state.pending.map (Write.pending patch)) key = state.database key
  byDiff : ∀ key : String × String, key.1 ∈ collectionNames → KeepsArrays key →
    (state.copies.after patch state.batch).byDiff key = reached key
  byData : ∀ key : String × String, key.1 ∈ collectionNames →
    Untouched (state.pending.map (Write.pending patch)) key →
      (state.copies.after patch state.batch).byData key = state.database key

/-- No document of a watched collection is replaced. -/
def Event.IsEmitted (collectionNames : List String) : Event Document Value → Prop
  | .write change => change.coll ∈ collectionNames → change.operation.IsEmitted
  | _ => True

/-- No array of the document becomes shorter. -/
def Event.KeepsArrays (key : String × String) : Event Document Value → Prop
  | .write change => (change.coll, change.id) = key → change.operation.KeepsArrays
  | _ => True

/-- The document that a change is about. -/
def ChangeStreamDocument.key : ChangeStreamDocument Document Value →
    Option (String × String)
  | .insert coll id _ | .update coll id _ _ | .delete coll id | .replace coll id _ =>
      some (coll, id)
  | _ => none

/-- Neither the stream nor the watcher holds a change of the document. -/
def State.Delivered (state : State Document Value) (key : String × String) : Prop :=
  (∀ write ∈ state.pending, (write.coll, write.id) ≠ key) ∧
    ∀ change ∈ state.batch, change.key ≠ some key

section Runs

variable {patch : Patch Document Value} {collectionNames : List String}
variable {state next : State Document Value} {write : Write Document Value}
variable {pending : List (Write Document Value)} {key : String × String}
variable {KeepsArrays : String × String → Prop} {reached : Database Document}

theorem tracks_initial (database : Database Document) :
    Tracks patch collectionNames KeepsArrays database
      (.initial database : State Document Value) where
  emitted := List.forall_mem_nil _
  kept := List.forall_mem_nil _
  replayed _ _ := rfl
  byDiff _ _ _ := rfl
  byData _ _ _ := rfl

theorem Tracks.of_write (htracks : Tracks patch collectionNames KeepsArrays reached state)
    (hemitted : write.coll ∈ collectionNames → write.operation.IsEmitted)
    (hkept : KeepsArrays (write.coll, write.id) → write.operation.KeepsArrays) :
    Tracks patch collectionNames KeepsArrays reached
      { state with
        database := (write.pending patch).apply state.database
        pending := state.pending ++ [write] } where
  emitted other hother := by
    obtain hother | rfl := List.mem_append.mp hother |>.imp_right List.mem_singleton.mp
    · exact htracks.emitted other hother
    · exact hemitted
  kept other hother := by
    obtain hother | rfl := List.mem_append.mp hother |>.imp_right List.mem_singleton.mp
    · exact htracks.kept other hother
    · exact hkept
  replayed key hkey := by
    simp only [List.map_append, List.map_cons, List.map_nil]
    rw [PendingWrites.replay_concat]
    exact PendingWrites.apply_congr (htracks.replayed key hkey)
  byDiff := htracks.byDiff
  byData key hkey huntouched := by
    simp only [List.map_append, List.map_cons, List.map_nil] at huntouched
    have hne := huntouched (write.pending patch) (by simp)
    have hsame : (write.pending patch).apply state.database key = state.database key :=
      PendingWrites.apply_of_ne (Ne.symm hne)
    refine (htracks.byData key hkey fun other hother => ?_).trans hsame.symm
    exact huntouched other (List.mem_append_left _ hother)

/-- The record of a write comes after everything that the listener has received. -/
theorem after_concat (hemitted : write.operation.IsEmitted) (patch : Patch Document Value)
    (copies : Copies Document) (batch : List (ChangeStreamDocument Document Value))
    (stored : Option Document) :
    copies.after patch (batch ++ [write.changeOf stored]) =
      ⟨PendingWrites.Write.apply (copies.after patch batch).byDiff
          ⟨(write.coll, write.id), write.operation.told.change patch⟩,
        Function.update (copies.after patch batch).byData (write.coll, write.id)
          (write.operation.found stored)⟩ := by
  rw [Copies.after, List.foldl_concat, ← Copies.after]
  exact receive_changeOf hemitted _ _

/-- A selected change takes its write out of what is pending. -/
theorem Tracks.fetch_selected
    (htracks : Tracks patch collectionNames KeepsArrays reached state)
    (hpending : state.pending = write :: pending) (hemitted : write.operation.IsEmitted) :
    Tracks patch collectionNames KeepsArrays ((write.pending patch).apply reached)
      { state with
        pending := pending
        batch := state.batch ++
          [write.changeOf (state.database (write.coll, write.id))] } := by
  have hafter := after_concat hemitted patch state.copies state.batch
    (state.database (write.coll, write.id))
  have hreplayed : ∀ key : String × String, key.1 ∈ collectionNames →
      replay ((write.pending patch).apply reached)
        (pending.map (Write.pending patch)) key = state.database key := by
    intro key hkey
    have hbefore := htracks.replayed key hkey
    rw [hpending] at hbefore
    exact hbefore
  refine ⟨fun other hother => htracks.emitted other ?_,
    fun other hother => htracks.kept other ?_, hreplayed, ?_, ?_⟩
  · rw [hpending]
    exact List.mem_cons_of_mem _ hother
  · rw [hpending]
    exact List.mem_cons_of_mem _ hother
  · intro key hkey hkeeps
    simp only [hafter]
    have hbefore := htracks.byDiff key hkey hkeeps
    by_cases hne : key = (write.coll, write.id)
    · subst hne
      rw [Operation.told_of_keepsArrays (htracks.kept write (by simp [hpending]) hkeeps)]
      exact PendingWrites.apply_congr hbefore
    · rw [PendingWrites.apply_of_ne hne, hbefore]
      exact (PendingWrites.apply_of_ne hne).symm
  · intro key hkey huntouched
    simp only [hafter]
    by_cases hne : key = (write.coll, write.id)
    · subst hne
      -- The last write of the document: what was found is what it has made of it.
      have hdone := hreplayed _ hkey
      rw [PendingWrites.replay_of_untouched huntouched] at hdone
      have hsame : (write.pending patch).apply reached (write.coll, write.id) =
          write.operation.change patch (reached (write.coll, write.id)) :=
        PendingWrites.apply_same
      rw [hsame] at hdone
      rw [Function.update_self]
      cases hoperation : write.operation with
      | update description => rfl
      | insert document | delete | replace document =>
          rw [hoperation] at hdone
          exact hdone
    · rw [Function.update_of_ne hne]
      refine htracks.byData key hkey ?_
      rw [hpending, List.map_cons]
      exact List.forall_mem_cons.mpr ⟨Ne.symm hne, huntouched⟩

/-- A change of another collection is left out. -/
theorem Tracks.fetch_other
    (htracks : Tracks patch collectionNames KeepsArrays reached state)
    (hpending : state.pending = write :: pending) (hother : write.coll ∉ collectionNames) :
    Tracks patch collectionNames KeepsArrays reached
      { state with pending := pending } := by
  have hne : ∀ key : String × String, key.1 ∈ collectionNames →
      (write.pending patch).key ≠ key := by
    rintro key hkey rfl
    exact hother hkey
  refine ⟨fun other hmem => htracks.emitted other ?_,
    fun other hmem => htracks.kept other ?_, ?_, htracks.byDiff, ?_⟩
  · rw [hpending]
    exact List.mem_cons_of_mem _ hmem
  · rw [hpending]
    exact List.mem_cons_of_mem _ hmem
  · intro key hkey
    have hbefore := htracks.replayed key hkey
    rw [hpending] at hbefore
    rw [← hbefore]
    exact PendingWrites.replay_congr
      (PendingWrites.apply_of_ne (Ne.symm (hne key hkey))).symm
  · intro key hkey huntouched
    refine htracks.byData key hkey ?_
    rw [hpending, List.map_cons]
    exact List.forall_mem_cons.mpr ⟨hne key hkey, huntouched⟩

theorem Tracks.of_step {event : Event Document Value}
    (htracks : Tracks patch collectionNames KeepsArrays reached state)
    (hemitted : event.IsEmitted collectionNames)
    (hkept : ∀ key, KeepsArrays key → event.KeepsArrays key)
    (hstep : step patch collectionNames state event = some next) :
    ∃ later, Tracks patch collectionNames KeepsArrays later next := by
  cases event with
  | write write =>
      simp only [step, Option.ite_none_right_eq_some, Option.some.injEq] at hstep
      obtain ⟨_, rfl⟩ := hstep
      exact ⟨reached, htracks.of_write hemitted fun hkeeps => hkept _ hkeeps rfl⟩
  | fetch =>
      simp only [step] at hstep
      split at hstep
      · rename_i write pending hpending
        obtain rfl := Option.some.inj hstep
        by_cases hselects : selects collectionNames
            (write.changeOf (state.database (write.coll, write.id))) = true
        · simp only [hselects, if_true]
          exact ⟨_, htracks.fetch_selected hpending (mem_of_selects hselects).2⟩
        · simp only [hselects]
          refine ⟨reached, htracks.fetch_other hpending fun hmem => hselects ?_⟩
          have hwrite := htracks.emitted write (by simp [hpending]) hmem
          exact (selects_changeOf hwrite _).mpr hmem
      · cases hstep
  | deliver =>
      simp only [step] at hstep
      split at hstep
      · rename_i change batch hbatch
        obtain rfl := Option.some.inj hstep
        have hafter : state.copies.after patch state.batch =
            (state.copies.receive patch change).after patch batch := by
          rw [hbatch]
          rfl
        refine ⟨reached, htracks.emitted, htracks.kept, htracks.replayed, ?_, ?_⟩
        · rw [← hafter]
          exact htracks.byDiff
        · rw [← hafter]
          exact htracks.byData
      · cases hstep

theorem receive_of_ne {change : ChangeStreamDocument Document Value}
    (hne : change.key ≠ some key) (copies : Copies Document) :
    (copies.receive patch change).byDiff key = copies.byDiff key ∧
      (copies.receive patch change).byData key = copies.byData key := by
  cases change with
  | insert coll id document | update coll id document description | delete coll id =>
      have hkey : key ≠ (coll, id) := fun heq => hne (congrArg some heq.symm)
      exact ⟨Function.update_of_ne hkey .., Function.update_of_ne hkey ..⟩
  | replace coll id document => exact ⟨rfl, rfl⟩
  | drop coll | rename coll => exact ⟨rfl, rfl⟩
  | dropDatabase | invalidate => exact ⟨rfl, rfl⟩

theorem after_of_ne {batch : List (ChangeStreamDocument Document Value)}
    (hne : ∀ change ∈ batch, change.key ≠ some key) (copies : Copies Document) :
    (copies.after patch batch).byDiff key = copies.byDiff key ∧
      (copies.after patch batch).byData key = copies.byData key := by
  induction batch generalizing copies with
  | nil => exact ⟨rfl, rfl⟩
  | cons change batch ih =>
      obtain ⟨hfirst, hrest⟩ := List.forall_mem_cons.mp hne
      obtain ⟨hdiff, hdata⟩ := ih hrest (copies.receive patch change)
      obtain ⟨hdiff', hdata'⟩ := receive_of_ne hfirst copies
      exact ⟨hdiff.trans hdiff', hdata.trans hdata'⟩

theorem Tracks.current (htracks : Tracks patch collectionNames KeepsArrays reached state)
    (hkey : key.1 ∈ collectionNames) (hdelivered : state.Delivered key) :
    state.copies.byData key = state.database key ∧
      (KeepsArrays key → state.copies.byDiff key = state.database key) := by
  obtain ⟨hpending, hbatch⟩ := hdelivered
  have huntouched : Untouched (state.pending.map (Write.pending patch)) key :=
    List.forall_mem_map.mpr hpending
  have hcopies : (state.copies.after patch state.batch).byDiff key =
      state.copies.byDiff key ∧
      (state.copies.after patch state.batch).byData key = state.copies.byData key :=
    after_of_ne hbatch state.copies
  obtain ⟨hdiff, hdata⟩ := hcopies
  refine ⟨hdata.symm.trans (htracks.byData key hkey huntouched), fun hkeeps => ?_⟩
  have hreplayed := htracks.replayed key hkey
  rw [PendingWrites.replay_of_untouched huntouched] at hreplayed
  exact hdiff.symm.trans ((htracks.byDiff key hkey hkeeps).trans hreplayed)

end Runs

/-- However writes, reads of the change stream and deliveries are interleaved, a document
that a listener keeps of a watched collection is the stored one as soon as no change of it
is on its way: always if the listener takes over the documents of the records, which may
be newer than the change, and if it applies their changed fields, as long as no update
makes an array of the document shorter.  Documents of a watched collection must not be
replaced as a whole, since the pipeline leaves that out. -/
theorem copies_are_current (patch : Patch Document Value) (input : CollectionsInput)
    (database : Database Document) (events : List (Event Document Value))
    (hemitted : ∀ event ∈ events, event.IsEmitted (collections input))
    (final : State Document Value)
    (hrun : run (step patch (collections input)) (.initial database) events = some final)
    (coll id : String) (hcoll : coll ∈ collections input)
    (hdelivered : final.Delivered (coll, id)) :
    final.copies.byData (coll, id) = final.database (coll, id) ∧
      ((∀ event ∈ events, event.KeepsArrays (coll, id)) →
        final.copies.byDiff (coll, id) = final.database (coll, id)) := by
  let KeepsArrays := fun key => ∀ event ∈ events, event.KeepsArrays key
  have hguarded : Runs.Guarded (step patch (collections input))
      (fun _ event => event.IsEmitted (collections input) ∧
        ∀ key, KeepsArrays key → event.KeepsArrays key) (.initial database) events :=
    Runs.guarded_of_forall fun event hevent _ =>
      ⟨hemitted event hevent, fun _ hkeeps => hkeeps event hevent⟩
  obtain ⟨reached, htracks⟩ := Runs.run_invariant_of_guarded
    (fun state => ∃ reached, Tracks patch (collections input) KeepsArrays reached state)
    (fun _ _ _ ⟨_, htracks⟩ hguard hstep => htracks.of_step hguard.1 hguard.2 hstep)
    ⟨database, tracks_initial database⟩ hguarded hrun
  exact htracks.current hcoll hdelivered

/-- A document that is a list of numbers, which an update can replace or cut. -/
def numbers : Patch (List ℕ) (List ℕ) := fun updatedFields _ truncatedArrays document =>
  truncatedArrays.foldl (fun list field => list.take field.2)
    (updatedFields.foldl (fun _ field => field.2) document)

/-- One user is updated before the stream has come to the insertion, and the list of
another one is cut. -/
def updateRun : List (Event (List ℕ) (List ℕ)) :=
  [.write ⟨"users", "u1", .insert [1]⟩,
    .write ⟨"users", "u1", .update ⟨[("list", [5])], [], [], by decide⟩⟩,
    .write ⟨"users", "u2", .insert [1, 2, 3]⟩, .fetch, .fetch, .deliver, .fetch,
    .write ⟨"users", "u2", .update ⟨[], [], [("list", 1)], by decide⟩⟩,
    .deliver, .fetch, .deliver, .deliver]

/-- The records tell a listener nothing about the list that has been cut. -/
theorem copies_are_current_of_update :
    ∃ final, run (step numbers (collections (.array ["users"])))
        (.initial fun _ => none) updateRun = some final ∧
      final.copies.byData ("users", "u1") = final.database ("users", "u1") ∧
      final.copies.byDiff ("users", "u1") = final.database ("users", "u1") ∧
      final.copies.byData ("users", "u2") = some [1] ∧
      final.copies.byDiff ("users", "u2") = some [1, 2, 3] := by
  have hemitted : ∀ event ∈ updateRun,
      event.IsEmitted (collections (.array ["users"])) := by
    simp [updateRun, Event.IsEmitted, Operation.IsEmitted]
  have hkeeps : ∀ event ∈ updateRun, event.KeepsArrays ("users", "u1") := by
    simp [updateRun, Event.KeepsArrays, Operation.KeepsArrays]
  have hcurrent := copies_are_current numbers (.array ["users"]) (fun _ => none) updateRun
    hemitted _ rfl "users"
  have hfirst := hcurrent "u1" (by decide) ⟨List.forall_mem_nil _, List.forall_mem_nil _⟩
  have hsecond := hcurrent "u2" (by decide) ⟨List.forall_mem_nil _, List.forall_mem_nil _⟩
  exact ⟨_, rfl, hfirst.1, hfirst.2 hkeeps, hsecond.1, rfl⟩

end OceanChat.ChangeStream
