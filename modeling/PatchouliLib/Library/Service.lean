import PatchouliLib.Foundation.JsonReading
import PatchouliLib.Foundation.Versions
import PatchouliLib.Library.Repository

/-!
# The structure service and the guides

A change of an item is a compare-and-set on its `updated_at`.  The metadata and the
README of an item are changed on their own; both raise the same `updated_at`, so that each
change is seen by the other.  An Agent names the item it has read by the digest of the
whole record.

## Main definitions

* `createItem`, `seedItem`, `updateItem` — the structure service.
* `guideEtag`, `updateReadme` — the guides.
* `LibraryDb.Sound` — identifiers are unique, and so are names among siblings.
* `Edited` — what the bodies on the hierarchy do to it.

## Main results

* `updateItem_ok`, `updateReadme_ok` — a row is kept, or is replaced by a later one.
* `guideEtag_inj` — the tag tells the version.
-/

namespace PatchouliLib

open Foundation

variable {level : Level}

/-! ### Requests -/

structure CreateItemInput where
  name : Text
  description : Text
  readme : Text

structure UpdateItemInput where
  name : Text
  description : Text
  expectedUpdatedAt : ℤ

namespace StructureRecord

/-- `NewLibrary`, `NewSection` or `NewBook`. -/
def new (parent : level.Parent) (request : CreateItemInput) (id : Id) (now : ℤ) :
    StructureRecord level :=
  ⟨id, parent, request.name, request.description, request.readme, now, now⟩

def withMetadata (r : StructureRecord level) (request : UpdateItemInput) (updatedAt : ℤ) :
    StructureRecord level :=
  { r with name := request.name, description := request.description, updatedAt := updatedAt }

def withReadme (r : StructureRecord level) (readme : Text) (updatedAt : ℤ) :
    StructureRecord level :=
  { r with readme := readme, updatedAt := updatedAt }

/-- The item that a row is of. -/
def key (r : StructureRecord level) : Id × level.Parent := (r.id, r.parent)

/-- The time of a change: the clock, or just after the last change. -/
def nextUpdatedAt (r : StructureRecord level) (clock : ℤ) : ℤ := max clock (r.updatedAt + 1)

theorem lt_nextUpdatedAt (r : StructureRecord level) (clock : ℤ) :
    r.updatedAt < r.nextUpdatedAt clock :=
  lt_of_lt_of_le (lt_add_one r.updatedAt) (le_max_right _ _)

end StructureRecord

/-! ### The structure service -/

/-- `create_library`, `create_section` or `create_book`. -/
def createItem (level : Level) (parent : level.Parent) (request : CreateItemInput) (id : Id)
    (now : ℤ) : Edit (StructureRecord level) := do
  demand (fun db => hasParent level parent db.tables = true) .structureNotFound
  demand (fun db => findByName level parent request.name db.tables = none) .seedConflict
  addItem (.new parent request id now)
  pure (.new parent request id now)

/-- The item behind its name, if it is there. -/
def seedFound (level : Level) (parent : level.Parent) (request : CreateItemInput) (id : Id)
    (now : ℤ) : Option (StructureRecord level) → Edit (StructureRecord level)
  | some existing => do
    require (existing.description = request.description) .seedConflict
    pure existing
  | none => do
    addItem (.new parent request id now)
    pure (.new parent request id now)

/-- `_seed_library`, `_seed_section` or `_seed_book`. -/
def seedItem (level : Level) (parent : level.Parent) (request : CreateItemInput) (id : Id)
    (now : ℤ) : Edit (StructureRecord level) := do
  let existing ← reads fun db => findByName level parent request.name db.tables
  seedFound level parent request id now existing

/-- A compare-and-set that raises when it has matched no row. -/
def changeRow (level : Level) (parent : level.Parent) (id : Id) (expectedUpdatedAt : ℤ)
    (set : StructureRecord level → StructureRecord level) : Edit PUnit := do
  let matched ← updateRow level parent id expectedUpdatedAt set
  require (matched = true) .structureVersionConflict

/-- `update_library`, `update_section` or `update_book`: the item, and whether it was
changed. -/
def updateItem (level : Level) (parent : level.Parent) (id : Id) (request : UpdateItemInput)
    (clock : ℤ) : Edit (StructureRecord level × Bool) := do
  let current ← lookup (fun db => getItem level parent id db.tables) .structureNotFound
  require (current.updatedAt = request.expectedUpdatedAt) .structureVersionConflict
  if current.name = request.name ∧ current.description = request.description then
    pure (current, false)
  else do
    demand (fun db => ∀ same ∈ findByName level parent request.name db.tables, same.id = id)
      .seedConflict
    changeRow level parent id request.expectedUpdatedAt fun r =>
      r.withMetadata request (current.nextUpdatedAt clock)
    pure (current.withMetadata request (current.nextUpdatedAt clock), true)

/-! ### The guides -/

/-- Hash every exposed field, including identity and README bytes. -/
def guideEtag [Platform] (record : StructureRecord level) : Text :=
  '"' :: (hex (Platform.sha256 (utf8Encode record.modelDumpJson)) ++ ['"'])

/-- Update only the Markdown; never alter ancestry. -/
def updateReadme (level : Level) (parent : level.Parent) (id : Id) (readme : Text)
    (expectedUpdatedAt now : ℤ) : Edit (StructureRecord level) := do
  let current ← lookup (fun db => getItem level parent id db.tables) .structureNotFound
  require (current.updatedAt = expectedUpdatedAt) .structureVersionConflict
  if current.readme = readme then pure current
  else do
    changeRow level parent id expectedUpdatedAt fun r =>
      r.withReadme readme (current.nextUpdatedAt now)
    pure (current.withReadme readme (current.nextUpdatedAt now))

/-- **The tag of a guide tells its version**, when the digest tells the two records. -/
theorem guideEtag_inj [Platform] {a b : StructureRecord level}
    (hsha : Set.InjOn Platform.sha256 {utf8Encode a.modelDumpJson, utf8Encode b.modelDumpJson})
    (h : guideEtag a = guideEtag b) : a.updatedAt = b.updatedAt := by
  obtain ⟨-, h⟩ := List.cons.inj h
  have hdigest := hex_injective (List.append_left_injective ['"'] h)
  have hdump := utf8Encode_injective (hsha (.inl rfl) (.inr rfl) hdigest)
  have hobj : Json.obj a.fields = Json.obj b.fields := Json.dumps_injective false hdump
  have hfields : a.fields = b.fields := by simpa only [Json.obj.injEq] using hobj
  -- The version stands in the last field, whatever fields name the ancestors.
  have hlast := congrArg List.getLast? hfields
  simpa [StructureRecord.fields, StructureRecord.metadataFields, List.getLast?_cons,
    List.getLast?_append] using hlast

/-! ### Rows are replaced by later versions -/

/-- The identifiers of a level are unique, and so are the names of siblings. -/
structure LibraryDb.Sound (db : LibraryDb) : Prop where
  ids : ∀ level, Keyed (fun r : StructureRecord level => r.id) (db.tables.rows level)
  labels : ∀ level, Keyed (fun r : StructureRecord level => r.label) (db.tables.rows level)

/-- Sound states stay so, and their rows are kept or replaced by later versions. -/
def Edited (db db' : LibraryDb) : Prop :=
  db.Sound → db'.Sound ∧ ∀ level, Grows
    (Revised (fun r : StructureRecord level => r.key) fun r => r.updatedAt)
    (db.tables.rows level) (db'.tables.rows level)

theorem Edited.isFrame : IsFrame Edited where
  refl db hsound := ⟨hsound, fun _ => .refl (Revised.refl _ _) _⟩
  trans h h' hsound := by
    obtain ⟨hmid, hfirst⟩ := h hsound
    obtain ⟨hlast, hsecond⟩ := h' hmid
    exact ⟨hlast, fun level => (hfirst level).trans Revised.trans (hsecond level)⟩

/-- A body that leaves the hierarchy as it is. -/
theorem Edited.of_tables_eq {db db' : LibraryDb} (h : db'.tables = db.tables) : Edited db db' := by
  intro hsound
  refine ⟨⟨fun level => ?_, fun level => ?_⟩, fun level => ?_⟩
  · rw [h]
    exact hsound.ids level
  · rw [h]
    exact hsound.labels level
  · rw [h]
    exact .refl (Revised.refl _ _) _

/-- Tables with other rows of one level are sound when these rows are. -/
theorem LibraryDb.Sound.withRows {db : LibraryDb} (hsound : db.Sound)
    {rows : List (StructureRecord level)} (hids : Keyed (fun r => r.id) rows)
    (hlabels : Keyed (fun r => r.label) rows) :
    (db.withTables (db.tables.withRows level rows)).Sound := by
  constructor
  all_goals
    intro level'
    by_cases hlevel : level' = level
    · subst hlevel
      simpa only [LibraryDb.withTables, StructureTables.rows_withRows]
    · simp only [LibraryDb.withTables, StructureTables.rows_withRows_of_ne _ hlevel]
      first | exact hsound.ids level' | exact hsound.labels level'

/-- Other rows of one level, kept or replaced by later versions. -/
theorem Edited.withRows {db : LibraryDb} {rows : List (StructureRecord level)}
    (hids : db.Sound → Keyed (fun r => r.id) rows)
    (hlabels : db.Sound → Keyed (fun r => r.label) rows)
    (hrows : db.Sound → Grows (Revised (fun r => r.key) fun r => r.updatedAt)
      (db.tables.rows level) rows) :
    Edited db (db.withTables (db.tables.withRows level rows)) := by
  intro hsound
  refine ⟨hsound.withRows (hids hsound) (hlabels hsound), fun level' => ?_⟩
  by_cases hlevel : level' = level
  · subst hlevel
    simpa only [LibraryDb.withTables, StructureTables.rows_withRows] using hrows hsound
  · simp only [LibraryDb.withTables, StructureTables.rows_withRows_of_ne _ hlevel]
    exact .refl (Revised.refl _ _) _

/-- `r` takes the place of `current`, whose later version it is. -/
structure Replaced (current r : StructureRecord level) (db db' : LibraryDb) : Prop where
  mem : current ∈ db.tables.rows level
  key : r.key = current.key
  later : current.updatedAt < r.updatedAt
  free : ∀ r' ∈ db.tables.rows level, r'.id ≠ current.id → r'.label ≠ r.label
  eq : db' = db.withTables (db.tables.withRows level
    ((db.tables.rows level).map fun r' => if r'.id = current.id then r else r'))

namespace Replaced

variable {current r : StructureRecord level} {db db' : LibraryDb}

theorem id (h : Replaced current r db db') : r.id = current.id := congrArg Prod.fst h.key

theorem edited (h : Replaced current r db db') : Edited db db' := by
  rw [h.eq]
  refine .withRows (fun hsound => ?_) (fun hsound => ?_) fun hsound => ?_
  · refine (hsound.ids level).map fun r' _ => ?_
    split
    · next hid => exact h.id.trans hid.symm
    · rfl
  · refine (hsound.labels level).replace r _ (fun a ha b hb hida hidb => ?_) h.free
    exact (hsound.ids level).eq_of_key ha hb (hida.trans hidb.symm)
  · refine .map fun r' hr' => ?_
    split
    · next hid =>
      obtain rfl : r' = current := (hsound.ids level).eq_of_key hr' h.mem hid
      exact .inr ⟨h.key, h.later⟩
    · exact .refl _ _ r'

/-- The new row is there. -/
theorem mem' (h : Replaced current r db db') : r ∈ db'.tables.rows level := by
  rw [h.eq]
  simp only [LibraryDb.withTables, StructureTables.rows_withRows]
  exact List.mem_map.mpr ⟨current, h.mem, if_pos rfl⟩

end Replaced

/-! ### What the bodies do -/

variable {db db' : LibraryDb} {parent : level.Parent} {id : Id}

/-- The row that is found under its identifier is the one that the UPDATE finds. -/
theorem rowToUpdate_of_getItem {t : StructureTables} {current : StructureRecord level}
    (h : getItem level parent id t = some current) :
    rowToUpdate level parent id current.updatedAt t = some current := by
  obtain ⟨hcurrent, before, after, hrows, hbefore⟩ := List.find?_eq_some_iff_append.mp h
  refine List.find?_eq_some_iff_append.mpr ⟨?_, before, after, hrows, fun r hr => ?_⟩
  · simpa using hcurrent
  · have hnot := hbefore r hr
    simp only [Bool.not_eq_eq_eq_not, Bool.not_true, decide_eq_false_iff_not] at hnot ⊢
    exact fun hr => hnot ⟨hr.1, hr.2.1⟩

/-- **A compare-and-set on the version just read replaces the row.** -/
theorem replaced_of_changeRow {current : StructureRecord level} {w : PUnit}
    {set : StructureRecord level → StructureRecord level}
    (hcurrent : getItem level parent id db.tables = some current)
    (hkey : (set current).key = current.key) (hlater : current.updatedAt < (set current).updatedAt)
    (h : changeRow level parent id current.updatedAt set db = .ok (w, db')) :
    Replaced current (set current) db db' := by
  obtain ⟨matched, mid, hupdate, hrequire⟩ := bind_ok.mp h
  obtain ⟨rfl, rfl⟩ := require_ok.mp hrequire
  rcases updateRow_ok.mp hupdate with ⟨hfalse, -⟩ | ⟨-, row, hrow, ⟨-, hfree⟩, hdb⟩
  · cases hfalse
  · rw [rowToUpdate_of_getItem hcurrent] at hrow
    obtain rfl := Option.some.inj hrow
    exact ⟨(getItem_some hcurrent).1, hkey, hlater, hfree, hdb.symm⟩

/-- **An edit of the metadata**: the version that was expected is the current one, and the
row is kept or replaced. -/
theorem updateItem_ok {request : UpdateItemInput} {clock : ℤ} {r : StructureRecord level}
    {changed : Bool} (h : updateItem level parent id request clock db = .ok ((r, changed), db')) :
    ∃ current, getItem level parent id db.tables = some current ∧
      current.updatedAt = request.expectedUpdatedAt ∧
      r.name = request.name ∧ r.description = request.description ∧ r.readme = current.readme ∧
      (changed = false ∧ r = current ∧ db' = db ∨ changed = true ∧ Replaced current r db db') := by
  simp only [updateItem, bind_ok, lookup_ok, require_ok, and_assoc, exists_and_left,
    exists_eq_left', exists_const] at h
  obtain ⟨current, hcurrent, hexpected, h⟩ := h
  refine ⟨current, hcurrent, hexpected, ?_⟩
  by_cases hsame : current.name = request.name ∧ current.description = request.description
  · rw [if_pos hsame] at h
    obtain ⟨hr, rfl⟩ := pure_ok.mp h
    obtain ⟨rfl, rfl⟩ := Prod.mk.inj hr
    exact ⟨hsame.1, hsame.2, rfl, .inl ⟨rfl, rfl, rfl⟩⟩
  · rw [if_neg hsame] at h
    simp only [bind_ok, demand_ok, pure_ok, Prod.mk.injEq, and_assoc, exists_and_left,
      exists_eq_left', exists_const, ← hexpected] at h
    obtain ⟨-, w, mid, hchange, rfl, rfl, rfl⟩ := h
    exact ⟨rfl, rfl, rfl, .inr ⟨rfl, replaced_of_changeRow hcurrent rfl
      (current.lt_nextUpdatedAt clock) hchange⟩⟩

/-- **An edit of the README**, likewise. -/
theorem updateReadme_ok {readme : Text} {expected now : ℤ} {r : StructureRecord level}
    (h : updateReadme level parent id readme expected now db = .ok (r, db')) :
    ∃ current, getItem level parent id db.tables = some current ∧
      current.updatedAt = expected ∧
      r.name = current.name ∧ r.description = current.description ∧ r.readme = readme ∧
      (r = current ∧ db' = db ∨ current.readme ≠ readme ∧ Replaced current r db db') := by
  simp only [updateReadme, bind_ok, lookup_ok, require_ok, and_assoc, exists_and_left,
    exists_eq_left', exists_const] at h
  obtain ⟨current, hcurrent, hexpected, h⟩ := h
  refine ⟨current, hcurrent, hexpected, ?_⟩
  by_cases hsame : current.readme = readme
  · rw [if_pos hsame] at h
    obtain ⟨rfl, rfl⟩ := pure_ok.mp h
    exact ⟨rfl, rfl, hsame, .inl ⟨rfl, rfl⟩⟩
  · rw [if_neg hsame, ← hexpected] at h
    obtain ⟨w, mid, hchange, hr⟩ := bind_ok.mp h
    obtain ⟨rfl, rfl⟩ := pure_ok.mp hr
    exact ⟨rfl, rfl, rfl, .inr ⟨hsame, replaced_of_changeRow hcurrent rfl
      (current.lt_nextUpdatedAt now) hchange⟩⟩

theorem edited_updateItem (parent : level.Parent) (id : Id) (request : UpdateItemInput)
    (clock : ℤ) : Keeps Edited (updateItem level parent id request clock) := by
  intro db a db' h
  obtain ⟨current, -, -, -, -, -, ⟨-, -, rfl⟩ | ⟨-, hreplaced⟩⟩ := updateItem_ok h
  · exact Edited.isFrame.refl _
  · exact hreplaced.edited

theorem edited_updateReadme (parent : level.Parent) (id : Id) (readme : Text) (expected now : ℤ) :
    Keeps Edited (updateReadme level parent id readme expected now) := by
  intro db a db' h
  obtain ⟨current, -, -, -, -, -, ⟨-, rfl⟩ | ⟨-, hreplaced⟩⟩ := updateReadme_ok h
  · exact Edited.isFrame.refl _
  · exact hreplaced.edited

theorem edited_addItem (r : StructureRecord level) : Keeps Edited (addItem r) := by
  intro db w db' h
  obtain ⟨⟨-, -, hfree⟩, rfl⟩ := addItem_ok.mp h
  refine .withRows (fun hsound => ?_) (fun hsound => ?_) fun _ => .append (Revised.refl _ _) _ _
  · exact (hsound.ids level).concat fun r' hr' => (hfree r' hr').1
  · exact (hsound.labels level).concat fun r' hr' => (hfree r' hr').2

theorem edited_createItem (parent : level.Parent) (request : CreateItemInput) (id : Id) (now : ℤ) :
    Keeps Edited (createItem level parent request id now) :=
  .bind Edited.isFrame (.demand Edited.isFrame _ _) fun _ =>
    .bind Edited.isFrame (.demand Edited.isFrame _ _) fun _ =>
    .bind Edited.isFrame (edited_addItem _) fun _ => .pure Edited.isFrame _

theorem edited_seedItem (parent : level.Parent) (request : CreateItemInput) (id : Id) (now : ℤ) :
    Keeps Edited (seedItem level parent request id now) := by
  refine .bind Edited.isFrame (.reads Edited.isFrame _) fun existing => ?_
  cases existing with
  | none => exact .bind Edited.isFrame (edited_addItem _) fun _ => .pure Edited.isFrame _
  | some existing =>
    exact .bind Edited.isFrame (.require Edited.isFrame _ _) fun _ => .pure Edited.isFrame _

/-- The rest of the application leaves the hierarchy as it is. -/
theorem edited_onStore {α : Type} (x : Write α) : Keeps Edited (onStore x) := by
  intro db a db' h
  unfold onStore at h
  split at h
  · obtain ⟨-, rfl⟩ := Prod.mk.inj (Except.ok.inj h)
    exact .of_tables_eq rfl
  · cases h

end PatchouliLib
