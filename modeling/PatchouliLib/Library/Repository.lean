import PatchouliLib.Foundation.Json
import PatchouliLib.Foundation.Table
import PatchouliLib.Storage.AuthStatements

/-!
# Libraries, Sections and Books

The hierarchy has three levels.  A Library belongs to nothing, a Section to a Library and
a Book to a Section; their records differ in what they belong to and in the name of one
field.  Here the rows have all their columns, of which the authority keeps the names.

## Main definitions

* `Level`, `Level.Parent` — the levels, and what an item of a level belongs to.
* `StructureRecord level` — a row; `LibraryRecord`, `SectionRecord`, `BookRecord`.
* `LibraryDb` — the authority with the rows of the hierarchy.
* `getItem`, `findByName`, `addItem`, `updateRow` — the repository.

## Main results

* `addItem_ok`, `updateRow_ok` — what the statements write.
-/

namespace PatchouliLib

open Foundation

/-! ### Records -/

inductive Level where
  | library
  | librarySection
  | book
deriving DecidableEq

/-- What an item of a level belongs to: `(library_id, section_id)` for a Book. -/
def Level.Parent : Level → Type
  | library => PUnit
  | librarySection => Id
  | book => Id × Id

instance Level.decidableEqParent : (level : Level) → DecidableEq level.Parent
  | library => inferInstanceAs (DecidableEq PUnit)
  | librarySection => inferInstanceAs (DecidableEq Id)
  | book => inferInstanceAs (DecidableEq (Id × Id))

/-- A row of the hierarchy; the description of a Book is its summary. -/
structure StructureRecord (level : Level) where
  id : Id
  parent : level.Parent
  name : Text
  description : Text
  readme : Text
  createdAt : ℤ
  updatedAt : ℤ
deriving DecidableEq

abbrev LibraryRecord := StructureRecord .library
abbrev SectionRecord := StructureRecord .librarySection
abbrev BookRecord := StructureRecord .book

/-- The Library of a Section. -/
def SectionRecord.libraryId (r : SectionRecord) : Id := r.parent

/-- The Library of an item. -/
def Level.libraryId : (level : Level) → level.Parent → Id → Id
  | library, _, id => id
  | librarySection, libraryId, _ => libraryId
  | book, parent, _ => parent.1

/-- The word for a level in the audit. -/
def Level.kind : Level → Text
  | library => "library"
  | librarySection => "section"
  | book => "book"

/-- The fields of a record that say what it belongs to. -/
def Level.parentFields : (level : Level) → level.Parent → List (Text × Json)
  | library, _ => []
  | librarySection, libraryId => [("library_id", .str libraryId)]
  | book, parent => [("library_id", .str parent.1), ("section_id", .str parent.2)]

/-- The name of the field with the description. -/
def Level.descriptionField : Level → Text
  | library => "description"
  | librarySection => "description"
  | book => "summary"

namespace StructureRecord

variable {level : Level}

/-- The fields behind the identifiers. -/
def metadataFields (r : StructureRecord level) : List (Text × Json) :=
  [("name", .str r.name), (level.descriptionField, .str r.description), ("readme", .str r.readme),
    ("created_at", .num r.createdAt), ("updated_at", .num r.updatedAt)]

/-- The fields of a record, in their order. -/
def fields (r : StructureRecord level) : List (Text × Json) :=
  ("id", .str r.id) :: (level.parentFields r.parent ++ r.metadataFields)

/-- `record.model_dump_json()`. -/
def modelDumpJson (r : StructureRecord level) : Text := Json.dumps false (.obj r.fields)

/-- The name within the siblings. -/
def label (r : StructureRecord level) : level.Parent × Text := (r.parent, r.name)

/-- The largest integer of a column. -/
def maxInteger : ℤ := 2 ^ 63 - 1

/-- The CHECK constraints of a row, and the range of its integers. -/
structure Checks (r : StructureRecord level) : Prop where
  id : IsOpaqueId r.id
  name : IsResourceName r.name
  description : r.description.length ≤ 4000
  created : 0 ≤ r.createdAt ∧ r.createdAt ≤ r.updatedAt
  updated : r.updatedAt ≤ maxInteger

instance decidableChecks (r : StructureRecord level) : Decidable r.Checks :=
  decidable_of_iff (IsOpaqueId r.id ∧ IsResourceName r.name ∧ r.description.length ≤ 4000 ∧
      (0 ≤ r.createdAt ∧ r.createdAt ≤ r.updatedAt) ∧ r.updatedAt ≤ maxInteger)
    ⟨fun ⟨h1, h2, h3, h4, h5⟩ => ⟨h1, h2, h3, h4, h5⟩, fun h => ⟨h.1, h.2, h.3, h.4, h.5⟩⟩

end StructureRecord

/-! ### Tables -/

structure StructureTables where
  libraries : List LibraryRecord := []
  sections : List SectionRecord := []
  books : List BookRecord := []

namespace StructureTables

/-- The rows of a level. -/
def rows (t : StructureTables) : (level : Level) → List (StructureRecord level)
  | .library => t.libraries
  | .librarySection => t.sections
  | .book => t.books

/-- The tables with other rows of a level. -/
def withRows (t : StructureTables) :
    (level : Level) → List (StructureRecord level) → StructureTables
  | .library, rows => { t with libraries := rows }
  | .librarySection, rows => { t with sections := rows }
  | .book, rows => { t with books := rows }

@[simp] theorem rows_withRows (t : StructureTables) (level : Level)
    (rows : List (StructureRecord level)) : (t.withRows level rows).rows level = rows := by
  cases level <;> rfl

theorem rows_withRows_of_ne (t : StructureTables) {level level' : Level} (h : level' ≠ level)
    (rows : List (StructureRecord level)) :
    (t.withRows level rows).rows level' = t.rows level' := by
  cases level <;> cases level' <;> first | rfl | exact absurd rfl h

/-- What the authority keeps of the hierarchy. -/
def names (t : StructureTables) : LibraryTables where
  libraries := t.libraries.map fun r => ⟨r.id, r.name, r.createdAt⟩
  sections := t.sections.map fun r => ⟨r.id, r.parent, r.name⟩
  books := t.books.map fun r => ⟨r.id, r.parent.1, r.parent.2, r.name⟩

end StructureTables

/-- The authority with the rows of the hierarchy, whose names it keeps. -/
structure LibraryDb where
  store : Store
  tables : StructureTables
  agree : store.library = tables.names

/-- The errors of the hierarchy; `refused` is one of the rest of the application. -/
inductive StructureErr where
  | structureNotFound
  | structureVersionConflict
  | seedConflict
  | integrity
  | apiError (status : ℕ) (code : Text)
  | problem (status : ℕ) (code : Text)
  | refused (e : Err)
deriving DecidableEq

/-- A body on the hierarchy. -/
abbrev Edit (α : Type) := Tx LibraryDb StructureErr α

/-- The authority with other rows of the hierarchy. -/
def LibraryDb.withTables (db : LibraryDb) (tables : StructureTables) : LibraryDb :=
  ⟨{ db.store with library := tables.names }, tables, rfl⟩

/-- Run a body on the authority, which does not write the hierarchy. -/
def onStore {α : Type} (x : Write α) : Edit α := fun db =>
  match x ⟨db.store, []⟩ with
  | .ok (a, c) => .ok (a, ⟨{ c.store with library := db.tables.names }, db.tables, rfl⟩)
  | .error e => .error (.refused e)

/-! ### The repository -/

section

variable {level : Level}

def getItem (level : Level) (parent : level.Parent) (id : Id) (t : StructureTables) :
    Option (StructureRecord level) :=
  (t.rows level).find? fun r => r.parent = parent ∧ r.id = id

def findByName (level : Level) (parent : level.Parent) (name : Text) (t : StructureTables) :
    Option (StructureRecord level) :=
  (t.rows level).find? fun r => r.parent = parent ∧ r.name = name

def hasLibrary (libraryId : Id) (t : StructureTables) : Bool :=
  t.libraries.any fun r => r.id = libraryId

def hasSection (libraryId sectionId : Id) (t : StructureTables) : Bool :=
  t.sections.any fun r => SectionRecord.libraryId r = libraryId ∧ r.id = sectionId

/-- The item that a new item belongs to is there. -/
def hasParent : (level : Level) → level.Parent → StructureTables → Bool
  | .library, _, _ => true
  | .librarySection, libraryId, t => hasLibrary libraryId t
  | .book, parent, t => hasSection parent.1 parent.2 t

/-- `INSERT INTO libraries`, `sections` or `books`. -/
def addItem (r : StructureRecord level) : Edit PUnit := do
  demand (fun db => r.Checks ∧ hasParent level r.parent db.tables = true ∧
    ∀ r' ∈ db.tables.rows level, r'.id ≠ r.id ∧ r'.label ≠ r.label) .integrity
  writes fun db => db.withTables (db.tables.withRows level (db.tables.rows level ++ [r]))

/-- The row of an UPDATE that expects a version. -/
def rowToUpdate (level : Level) (parent : level.Parent) (id : Id) (expectedUpdatedAt : ℤ)
    (t : StructureTables) : Option (StructureRecord level) :=
  (t.rows level).find? fun r => r.parent = parent ∧ r.id = id ∧ r.updatedAt = expectedUpdatedAt

/-- The statement behind the row that an UPDATE has found. -/
def updateFound (set : StructureRecord level → StructureRecord level) :
    Option (StructureRecord level) → Edit Bool
  | none => pure false
  | some row => do
    demand (fun db => (set row).Checks ∧
      ∀ r ∈ db.tables.rows level, r.id ≠ row.id → r.label ≠ (set row).label) .integrity
    writes fun db => db.withTables (db.tables.withRows level
      ((db.tables.rows level).map fun r => if r.id = row.id then set row else r))
    pure true

/-- `UPDATE … WHERE id = ? AND updated_at = ?`: whether a row was matched. -/
def updateRow (level : Level) (parent : level.Parent) (id : Id) (expectedUpdatedAt : ℤ)
    (set : StructureRecord level → StructureRecord level) : Edit Bool := do
  let row ← reads fun db => rowToUpdate level parent id expectedUpdatedAt db.tables
  updateFound set row

/-! ### What the statements write -/

variable {db db' : LibraryDb}

theorem getItem_some {parent : level.Parent} {id : Id} {t : StructureTables}
    {r : StructureRecord level} (h : getItem level parent id t = some r) :
    r ∈ t.rows level ∧ r.parent = parent ∧ r.id = id := by
  obtain ⟨hparent, hid⟩ : r.parent = parent ∧ r.id = id := by simpa using List.find?_some h
  exact ⟨List.mem_of_find?_eq_some h, hparent, hid⟩

theorem addItem_ok {r : StructureRecord level} {w : PUnit} :
    addItem r db = .ok (w, db') ↔ (r.Checks ∧ hasParent level r.parent db.tables = true ∧
      ∀ r' ∈ db.tables.rows level, r'.id ≠ r.id ∧ r'.label ≠ r.label) ∧
      db.withTables (db.tables.withRows level (db.tables.rows level ++ [r])) = db' := by
  simp only [addItem, bind_ok, demand_ok, writes_ok, exists_and_left, exists_eq_left', and_assoc,
    exists_const]

/-- An UPDATE matched no row, or it changed the row it matched. -/
theorem updateRow_ok {parent : level.Parent} {id : Id} {expected : ℤ}
    {set : StructureRecord level → StructureRecord level} {matched : Bool} :
    updateRow level parent id expected set db = .ok (matched, db') ↔
      matched = false ∧ rowToUpdate level parent id expected db.tables = none ∧ db = db' ∨
      matched = true ∧ ∃ row, rowToUpdate level parent id expected db.tables = some row ∧
        ((set row).Checks ∧ ∀ r ∈ db.tables.rows level, r.id ≠ row.id → r.label ≠ (set row).label) ∧
        db.withTables (db.tables.withRows level
          ((db.tables.rows level).map fun r => if r.id = row.id then set row else r)) = db' := by
  simp only [updateRow, bind_ok, reads_ok, exists_and_left, exists_eq_left', and_assoc]
  cases rowToUpdate level parent id expected db.tables with
  | none =>
    simp only [updateFound, pure_ok]
    constructor
    · rintro ⟨rfl, rfl⟩
      exact .inl ⟨rfl, trivial, rfl⟩
    · rintro (⟨rfl, -, rfl⟩ | ⟨-, row, hrow, -⟩)
      · exact ⟨rfl, rfl⟩
      · cases hrow
  | some row =>
    simp only [updateFound, bind_ok, demand_ok, writes_ok, pure_ok, exists_and_left,
      exists_eq_left', and_assoc, exists_const]
    constructor
    · rintro ⟨hchecks, hlabels, rfl, rfl⟩
      exact .inr ⟨rfl, row, rfl, hchecks, hlabels, rfl⟩
    · rintro (⟨-, hrow, -⟩ | ⟨rfl, row', hrow, hchecks, hlabels, rfl⟩)
      · cases hrow
      · obtain rfl := Option.some.inj hrow
        exact ⟨hchecks, hlabels, rfl, rfl⟩

end

end PatchouliLib
