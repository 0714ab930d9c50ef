import PatchouliLib.Admin.Service
import PatchouliLib.Auth.Service
import PatchouliLib.Library.Service

/-!
# Edits of the hierarchy

The administrator edits the name and the description of an item, its README, or both in
one transaction; an Agent edits the README of the item whose guide it has read.  The two
go through one version of the row, so whichever commits second is refused.

## Main definitions

* `editStructure` — the edit of the administrator.
* `authorizeStructure`, `putItem` — the README update of an Agent.
* `createStructure`, `createStructureItem`, `seed` — where the items come from.
* `StructureEvent`, `StructureRun` — every interleaving of them, and of the rest of the
  application.

## Main results

* `structureRun_sound` — siblings have different names in every reachable state.
* `structureRun_later` — an item changed in between has a later version.
* `structureEdits_exact` — **stale edits are refused, combined edits are whole.**
-/

namespace PatchouliLib

open Foundation

/-! ### The administrator -/

/-- `section_location` and `book_location`: where an item is. -/
def structureLocation : (level : Level) → Id → StructureTables → Option level.Parent
  | .library, _, _ => some ⟨⟩
  | .librarySection, id, t => (t.sections.find? fun r => r.id = id).map fun r => r.parent
  | .book, id, t => (t.books.find? fun r => r.id = id).map fun r => r.parent

/-- The readings of the clock in an edit. -/
structure EditClock where
  time : ℤ
  metadata : ℤ
  readme : ℤ
  audit : ℤ

/-- A request of the administrator. -/
structure StructureEdit (level : Level) where
  session : MasterAdminSession
  itemId : Id
  form : UpdateItemInput
  readme : Option Text
  clock : EditClock
  eventId : Id

section

variable {level : Level}

/-- The README of a combined edit, on the version that the metadata have left. -/
def editReadme (level : Level) (parent : level.Parent) (id : Id) (now : ℤ)
    (result : StructureRecord level × Bool) : Option Text → Edit (StructureRecord level × Bool)
  | none => pure result
  | some readme => do
    let updated ← updateReadme level parent id readme result.1.updatedAt now
    pure (updated, result.2 || result.1.readme ≠ readme)

/-- The audit event of an edit. -/
def StructureEdit.audit (edit : StructureEdit level) (changed : Bool) : Edit PUnit :=
  if changed then
    onStore (addMasterSuccess edit.session edit.eventId (level.kind ++ ".update") level.kind
      edit.itemId (max edit.clock.audit 0))
  else pure ⟨⟩

/-- `edit_structure`. -/
def editStructure (edit : StructureEdit level) : Edit (StructureRecord level) := do
  onStore (requireMasterSession edit.session edit.clock.time)
  let parent ← lookup (fun db => structureLocation level edit.itemId db.tables)
    (.apiError 404 (level.kind ++ "_not_found"))
  let result ← updateItem level parent edit.itemId edit.form edit.clock.metadata
  let result ← editReadme level parent edit.itemId edit.clock.readme result edit.readme
  edit.audit result.2
  pure result.1

/-- A new item of the administrator. -/
structure StructureCreate (level : Level) where
  session : MasterAdminSession
  time : ℤ
  parent : level.Parent
  form : CreateItemInput
  id : Id
  now : ℤ
  eventId : Id

/-- `AdminActionService.create_library`, `create_section` or `create_book`. -/
def createStructure (new : StructureCreate level) : Edit (StructureRecord level) := do
  onStore (requireMasterSession new.session new.time)
  let result ← createItem level new.parent new.form new.id new.now
  onStore (addMasterSuccess new.session new.eventId (level.kind ++ ".create") level.kind result.id
    new.now)
  pure result

end

/-- `LibrarySeedService.seed`, on behalf of the operator. -/
def seedStructure (library librarySection book : CreateItemInput) (ids : Id × Id × Id) (now : ℤ) :
    Edit PUnit := do
  let library ← seedItem .library ⟨⟩ library ids.1 now
  let librarySection ← seedItem .librarySection library.id librarySection ids.2.1 now
  let _ ← seedItem .book (library.id, librarySection.id) book ids.2.2 now
  pure ⟨⟩

section

/-! ### Agents -/

variable [Platform]

/-- The policy lets an Agent write. -/
def grantsWrite : Option LibraryPolicy → Bool
  | some (.libraryGrants _ write) => write
  | _ => false

/-- The Agent of a token, which may write the Library. -/
def authorizeStructure (token : Text) (libraryId : Id) (now : ℤ) : Write AuthenticatedCaller := do
  let a ← authenticate token now
  query fun s => Fallible.check (a.caller.kind = .agent ∧ (libraryGrantPolicy a.key s).isSome)
    .authorization
  let policy ← query (resolveLibraryPolicy a.key libraryId now)
  require (grantsWrite policy = true) .authorization
  pure a

section

variable {level : Level}

omit [Platform] in
/-- The audit event of an Agent. -/
def structureAudit (a : AuthenticatedCaller) (record : StructureRecord level) (action : Text)
    (id : Id) (requestId : Text) (now : ℤ) : Write PUnit :=
  insertAuditEvent
    { id, libraryId := level.libraryId record.parent record.id
      actorHomeLibraryId := a.caller.libraryId, actorCallerId := a.caller.id
      actorCredentialId := a.credential.id, sectionId := none, sectionAction := none
      action := "structure." ++ level.kind ++ "." ++ action, resourceType := level.kind
      resourceId := record.id, requestId, policyVersionBefore := none, policyVersionAfter := none
      occurredAt := now }

/-- A README with `If-Match`. -/
structure GuidePut (level : Level) where
  token : Text
  parent : level.Parent
  id : Id
  ifMatch : Text
  readme : Text
  now : ℤ
  eventId : Id
  requestId : Text

/-- The audit event of a README that has changed. -/
def GuidePut.audit (put : GuidePut level) (a : AuthenticatedCaller)
    (current updated : StructureRecord level) : Edit PUnit :=
  if updated.readme ≠ current.readme then
    onStore (structureAudit a updated "readme_update" put.eventId put.requestId updated.updatedAt)
  else pure ⟨⟩

/-- The transaction of `put_item`. -/
def putItem (put : GuidePut level) : Edit (StructureRecord level) := do
  let a ← onStore (authorizeStructure put.token (level.libraryId put.parent put.id) put.now)
  let current ← lookup (fun db => getItem level put.parent put.id db.tables) .structureNotFound
  require (guideEtag current = put.ifMatch) (.problem 412 "precondition_failed")
  let updated ← updateReadme level put.parent put.id put.readme current.updatedAt put.now
  put.audit a current updated
  pure updated

/-- A new item of an Agent. -/
structure GuideCreate (level : Level) where
  token : Text
  parent : level.Parent
  form : CreateItemInput
  id : Id
  now : ℤ
  eventId : Id
  requestId : Text

/-- The item behind its name, which a repeated request must describe. -/
def createUnlessThere (new : GuideCreate level) (a : AuthenticatedCaller) :
    Option (StructureRecord level) → Edit (StructureRecord level)
  | some existing => do
    require (existing.description = new.form.description ∧ existing.readme = new.form.readme)
      (.problem 409 "metadata_conflict")
    pure existing
  | none => do
    addItem (.new new.parent new.form new.id new.now)
    onStore (structureAudit a (.new new.parent new.form new.id new.now) "create" new.eventId
      new.requestId new.now)
    pure (.new new.parent new.form new.id new.now)

/-- The transaction of `create_item`, which makes Sections and Books. -/
def createStructureItem (new : GuideCreate level) : Edit (StructureRecord level) := do
  let a ← onStore (authorizeStructure new.token (level.libraryId new.parent new.id) new.now)
  demand (fun db => hasParent level new.parent db.tables = true) .structureNotFound
  let existing ← reads fun db => findByName level new.parent new.form.name db.tables
  createUnlessThere new a existing

end

/-! ### Runs -/

/-- A transaction of the application. -/
inductive StructureEvent where
  | edit {level : Level} (edit : StructureEdit level)
  | create {level : Level} (new : StructureCreate level)
  | put {level : Level} (put : GuidePut level)
  | createItem {level : Level} (hlevel : level ≠ .library) (new : GuideCreate level)
  | seed (library librarySection book : CreateItemInput) (ids : Id × Id × Id) (now : ℤ)
  | elsewhere (x : Write PUnit)

/-- The state behind a transaction, which is atomic. -/
def StructureEvent.apply (db : LibraryDb) : StructureEvent → LibraryDb
  | edit e => (commit (editStructure e) db).2
  | create new => (commit (createStructure new) db).2
  | put p => (commit (putItem p) db).2
  | createItem _ new => (commit (createStructureItem new) db).2
  | seed library librarySection book ids now =>
    (commit (seedStructure library librarySection book ids now) db).2
  | elsewhere x => (commit (onStore x) db).2

/-- A run of transactions in any order. -/
abbrev StructureRun := Trace fun (db : LibraryDb) (e : StructureEvent) db' => e.apply db = db'

/-- The authority before the first item. -/
def LibraryDb.empty : LibraryDb := ⟨{}, {}, rfl⟩

/-! ### Every transaction keeps rows or replaces them by later versions -/

section

variable {level : Level}

omit [Platform] in
theorem edited_editReadme (parent : level.Parent) (id : Id) (now : ℤ)
    (result : StructureRecord level × Bool) (readme : Option Text) :
    Keeps Edited (editReadme level parent id now result readme) := by
  cases readme with
  | none => exact .pure Edited.isFrame _
  | some readme =>
    exact .bind Edited.isFrame (edited_updateReadme _ _ _ _ _) fun _ => .pure Edited.isFrame _

omit [Platform] in
theorem edited_audit (edit : StructureEdit level) (changed : Bool) :
    Keeps Edited (edit.audit changed) := by
  unfold StructureEdit.audit
  split
  · exact edited_onStore _
  · exact .pure Edited.isFrame _

omit [Platform] in
theorem edited_editStructure (edit : StructureEdit level) : Keeps Edited (editStructure edit) :=
  .bind Edited.isFrame (edited_onStore _) fun _ =>
    .bind Edited.isFrame (.lookup Edited.isFrame _ _) fun _ =>
    .bind Edited.isFrame (edited_updateItem _ _ _ _) fun _ =>
    .bind Edited.isFrame (edited_editReadme _ _ _ _ _) fun _ =>
    .bind Edited.isFrame (edited_audit _ _) fun _ => .pure Edited.isFrame _

omit [Platform] in
theorem edited_createStructure (new : StructureCreate level) :
    Keeps Edited (createStructure new) :=
  .bind Edited.isFrame (edited_onStore _) fun _ =>
    .bind Edited.isFrame (edited_createItem _ _ _ _) fun _ =>
    .bind Edited.isFrame (edited_onStore _) fun _ => .pure Edited.isFrame _

omit [Platform] in
theorem edited_seedStructure (library librarySection book : CreateItemInput) (ids : Id × Id × Id)
    (now : ℤ) : Keeps Edited (seedStructure library librarySection book ids now) :=
  .bind Edited.isFrame (edited_seedItem _ _ _ _) fun _ =>
    .bind Edited.isFrame (edited_seedItem _ _ _ _) fun _ =>
    .bind Edited.isFrame (edited_seedItem _ _ _ _) fun _ => .pure Edited.isFrame _

omit [Platform] in
theorem edited_putAudit (put : GuidePut level) (a : AuthenticatedCaller)
    (current updated : StructureRecord level) : Keeps Edited (put.audit a current updated) := by
  unfold GuidePut.audit
  split
  · exact edited_onStore _
  · exact .pure Edited.isFrame _

theorem edited_putItem (put : GuidePut level) : Keeps Edited (putItem put) :=
  .bind Edited.isFrame (edited_onStore _) fun _ =>
    .bind Edited.isFrame (.lookup Edited.isFrame _ _) fun _ =>
    .bind Edited.isFrame (.require Edited.isFrame _ _) fun _ =>
    .bind Edited.isFrame (edited_updateReadme _ _ _ _ _) fun _ =>
    .bind Edited.isFrame (edited_putAudit _ _ _ _) fun _ => .pure Edited.isFrame _

omit [Platform] in
theorem edited_createUnlessThere (new : GuideCreate level) (a : AuthenticatedCaller)
    (existing : Option (StructureRecord level)) :
    Keeps Edited (createUnlessThere new a existing) := by
  cases existing with
  | some existing =>
    exact .bind Edited.isFrame (.require Edited.isFrame _ _) fun _ => .pure Edited.isFrame _
  | none =>
    exact .bind Edited.isFrame (edited_addItem _) fun _ =>
      .bind Edited.isFrame (edited_onStore _) fun _ => .pure Edited.isFrame _

theorem edited_createStructureItem (new : GuideCreate level) :
    Keeps Edited (createStructureItem new) :=
  .bind Edited.isFrame (edited_onStore _) fun _ =>
    .bind Edited.isFrame (.demand Edited.isFrame _ _) fun _ =>
    .bind Edited.isFrame (.reads Edited.isFrame _) fun _ => edited_createUnlessThere _ _ _

end

omit [Platform] in
/-- What a body does, its transaction does or leaves. -/
theorem edited_commit {α : Type} {x : Edit α} (hx : Keeps Edited x) (db : LibraryDb) :
    Edited db (commit x db).2 := by
  rcases commit_eq_or x db with hsame | ⟨a, hrun⟩
  · rw [hsame]
    exact Edited.isFrame.refl db
  · exact hx db a _ hrun

/-- **One transaction keeps every row or replaces it by a later version.** -/
theorem edited_apply (db : LibraryDb) (e : StructureEvent) : Edited db (e.apply db) := by
  cases e with
  | edit edit => exact edited_commit (edited_editStructure edit) db
  | create new => exact edited_commit (edited_createStructure new) db
  | put put => exact edited_commit (edited_putItem put) db
  | createItem hlevel new => exact edited_commit (edited_createStructureItem new) db
  | seed library librarySection book ids now =>
    exact edited_commit (edited_seedStructure library librarySection book ids now) db
  | elsewhere x => exact edited_commit (edited_onStore x) db

/-! ### Runs -/

omit [Platform] in
theorem LibraryDb.sound_empty : LibraryDb.empty.Sound := by
  constructor <;> intro level <;> cases level <;> exact List.nodup_nil

omit [Platform] in
/-- A row of a sound state is found under what it is a row of. -/
theorem LibraryDb.Sound.getItem_eq {level : Level} {db : LibraryDb} (hsound : db.Sound)
    {parent : level.Parent} {id : Id} {r : StructureRecord level} (hr : r ∈ db.tables.rows level)
    (hkey : r.key = (id, parent)) : getItem level parent id db.tables = some r := by
  obtain ⟨rfl, rfl⟩ := Prod.mk.inj hkey
  cases hfound : getItem level r.parent r.id db.tables with
  | none =>
    have hnot := List.find?_eq_none.mp hfound r hr
    exact absurd (decide_eq_true ⟨rfl, rfl⟩) hnot
  | some r' =>
    obtain ⟨hr', -, hid⟩ := getItem_some hfound
    rw [(hsound.ids level).eq_of_key hr' hr hid]

/-- The rows of a level get later versions along a run. -/
theorem structure_versioned (level : Level) :
    Versioned (fun (db : LibraryDb) (e : StructureEvent) db' => e.apply db = db') LibraryDb.Sound
      (fun db => db.tables.rows level) StructureRecord.key fun r => r.updatedAt where
  keyed db hsound := .of_comp Prod.fst (hsound.ids level)
  kept := by
    rintro db e db' hsound rfl
    exact (edited_apply db e hsound).1
  revises := by
    rintro db e db' hsound rfl
    exact (edited_apply db e hsound).2 level

variable {db db' : LibraryDb} {events events' : List StructureEvent}

/-- **Every reachable state is sound.** -/
theorem structureRun_sound (hrun : StructureRun .empty events db) : db.Sound :=
  hrun.invariant LibraryDb.sound_empty fun _ _ _ hsound hstep =>
    (structure_versioned .library).kept _ _ _ hsound hstep

/-- **An item that was changed in between has a later version**, wherever it is looked
for. -/
theorem structureRun_later {level : Level} {parent : level.Parent} {id : Id}
    {r : StructureRecord level} (hsound : db.Sound)
    (hread : getItem level parent id db.tables = some r) {changing : LibraryDb}
    (hbefore : StructureRun db events changing) {e : StructureEvent}
    (hchange : getItem level parent id (e.apply changing).tables ≠
      getItem level parent id changing.tables)
    (hafter : StructureRun (e.apply changing) events' db') {r' : StructureRecord level}
    (hr' : r' ∈ db'.tables.rows level) (hid : r'.id = id) : r.updatedAt < r'.updatedAt := by
  obtain ⟨hr, rfl, rfl⟩ := getItem_some hread
  have hv := structure_versioned level
  have hmid : changing.Sound := hv.holds hbefore hsound
  have hchanged : (e.apply changing).Sound := hv.kept _ e _ hmid rfl
  have hend : db'.Sound := hv.holds hafter hchanged
  -- The item is there in every state of the run.
  obtain ⟨b, hb, hab⟩ := (hv.grows hbefore hsound).exists_of_mem hr
  obtain ⟨c, hc, hbc⟩ := (hv.revises _ e _ hmid rfl).exists_of_mem hb
  obtain ⟨d, hd, hcd⟩ := (hv.grows hafter hchanged).exists_of_mem hc
  have hkb : b.key = r.key := hab.key_eq
  have hkc : c.key = r.key := hbc.key_eq.trans hkb
  have hkd : d.key = r.key := hcd.key_eq.trans hkc
  have hgb : getItem level r.parent r.id changing.tables = some b := hmid.getItem_eq hb hkb
  have hgc : getItem level r.parent r.id (e.apply changing).tables = some c :=
    hchanged.getItem_eq hc hkc
  have hne : c ≠ b := by
    rintro rfl
    exact hchange (hgc.trans hgb.symm)
  have hlt : r.updatedAt < d.updatedAt :=
    hv.lt_of_changed hsound hbefore rfl hafter hr hb hc hd hkb hkc hkd hne
  have hsame : d = r' :=
    (hend.ids level).eq_of_key hd hr' ((congrArg Prod.fst hkd).trans hid.symm)
  rwa [← hsame]

/-! ### What an edit does -/

omit [Platform] in
theorem onStore_tables {α : Type} {x : Write α} {a : α} (h : onStore x db = .ok (a, db')) :
    db'.tables = db.tables := by
  unfold onStore at h
  split at h
  · obtain ⟨-, rfl⟩ := Prod.mk.inj (Except.ok.inj h)
    rfl
  · cases h

section

variable {level : Level} {r : StructureRecord level}

omit [Platform] in
theorem getItem_key {parent : level.Parent} {id : Id} {t : StructureTables}
    (h : getItem level parent id t = some r) : r ∈ t.rows level ∧ r.key = (id, parent) := by
  obtain ⟨hr, rfl, rfl⟩ := getItem_some h
  exact ⟨hr, rfl⟩

omit [Platform] in
/-- The audit event of an edit leaves the hierarchy as it is. -/
theorem audit_tables {edit : StructureEdit level} {changed : Bool} {w : PUnit}
    (h : edit.audit changed db = .ok (w, db')) : db'.tables = db.tables := by
  unfold StructureEdit.audit at h
  split at h
  · exact onStore_tables h
  · rw [(pure_ok.mp h).2]

omit [Platform] in
theorem putAudit_tables {put : GuidePut level} {a : AuthenticatedCaller}
    {current updated : StructureRecord level} {w : PUnit}
    (h : put.audit a current updated db = .ok (w, db')) : db'.tables = db.tables := by
  unfold GuidePut.audit at h
  split at h
  · exact onStore_tables h
  · rw [(pure_ok.mp h).2]

omit [Platform] in
/-- The metadata are those of the request, and the rest of the row is as it was. -/
theorem updateItem_row {parent : level.Parent} {id : Id} {request : UpdateItemInput} {clock : ℤ}
    {changed : Bool} (h : updateItem level parent id request clock db = .ok ((r, changed), db')) :
    ∃ current, getItem level parent id db.tables = some current ∧
      current.updatedAt = request.expectedUpdatedAt ∧ r ∈ db'.tables.rows level ∧
      r.key = (id, parent) ∧ r.name = request.name ∧ r.description = request.description ∧
      r.readme = current.readme := by
  obtain ⟨current, hcurrent, hexpected, hname, hdescription, hreadme, hrow⟩ := updateItem_ok h
  obtain ⟨hmem, hkey⟩ := getItem_key hcurrent
  refine ⟨current, hcurrent, hexpected, ?_, ?_, hname, hdescription, hreadme⟩
  · rcases hrow with ⟨-, rfl, rfl⟩ | ⟨-, hreplaced⟩
    · exact hmem
    · exact hreplaced.mem'
  · rcases hrow with ⟨-, rfl, -⟩ | ⟨-, hreplaced⟩
    · exact hkey
    · exact hreplaced.key.trans hkey

omit [Platform] in
/-- The README is that of the request, and the rest of the row is as it was. -/
theorem updateReadme_row {parent : level.Parent} {id : Id} {readme : Text} {expected now : ℤ}
    (h : updateReadme level parent id readme expected now db = .ok (r, db')) :
    ∃ current, getItem level parent id db.tables = some current ∧
      current.updatedAt = expected ∧ r ∈ db'.tables.rows level ∧
      r.key = (id, parent) ∧ r.name = current.name ∧ r.description = current.description ∧
      r.readme = readme := by
  obtain ⟨current, hcurrent, hexpected, hname, hdescription, hreadme, hrow⟩ := updateReadme_ok h
  obtain ⟨hmem, hkey⟩ := getItem_key hcurrent
  refine ⟨current, hcurrent, hexpected, ?_, ?_, hname, hdescription, hreadme⟩
  · rcases hrow with ⟨rfl, rfl⟩ | ⟨-, hreplaced⟩
    · exact hmem
    · exact hreplaced.mem'
  · rcases hrow with ⟨rfl, -⟩ | ⟨-, hreplaced⟩
    · exact hkey
    · exact hreplaced.key.trans hkey

omit [Platform] in
/-- **A combined edit is whole**: the version it expects is the current one, and behind it
the row has every value of the request. -/
theorem editStructure_ok {edit : StructureEdit level} (hsound : db.Sound)
    (h : editStructure edit db = .ok (r, db')) :
    ∃ parent current, getItem level parent edit.itemId db.tables = some current ∧
      current.updatedAt = edit.form.expectedUpdatedAt ∧
      getItem level parent edit.itemId db'.tables = some r ∧ r.name = edit.form.name ∧
      r.description = edit.form.description ∧ r.readme = edit.readme.getD current.readme := by
  have hend : db'.Sound := (edited_editStructure edit db r db' h hsound).1
  simp only [editStructure, bind_ok, lookup_ok, pure_ok, and_assoc, exists_and_left,
    exists_eq_left'] at h
  obtain ⟨w, opened, hsession, parent, -, ⟨first, changed⟩, renamed, hupdate, result, written,
    hwrite, w', audited, haudit, hr, rfl⟩ := h
  have htables : opened.tables = db.tables := onStore_tables hsession
  obtain ⟨current, hcurrent, hexpected, hmem, hkey, hname, hdescription, hreadme⟩ :=
    updateItem_row hupdate
  rw [htables] at hcurrent
  refine ⟨parent, current, hcurrent, hexpected, ?_⟩
  cases hr' : edit.readme with
  | none =>
    rw [hr'] at hwrite
    obtain ⟨rfl, rfl⟩ := pure_ok.mp hwrite
    obtain rfl : first = r := hr
    rw [← audit_tables haudit] at hmem
    exact ⟨hend.getItem_eq hmem hkey, hname, hdescription, hreadme⟩
  | some readme =>
    rw [hr'] at hwrite
    obtain ⟨updated, last, hguide, hlast⟩ := bind_ok.mp hwrite
    obtain ⟨rfl, rfl⟩ := pure_ok.mp hlast
    obtain rfl : updated = r := hr
    obtain ⟨seen, hseen, -, hmem', hkey', hname', hdescription', hreadme'⟩ :=
      updateReadme_row hguide
    -- The README is written on the row that the metadata have left.
    have hrenamed : renamed.Sound :=
      (edited_updateItem _ _ _ _ _ _ _ hupdate (edited_onStore _ _ _ _ hsession hsound).1).1
    have hfirst := hrenamed.getItem_eq hmem hkey
    obtain rfl : first = seen := Option.some.inj (hfirst.symm.trans hseen)
    rw [← audit_tables haudit] at hmem'
    exact ⟨hend.getItem_eq hmem' hkey', hname'.trans hname, hdescription'.trans hdescription,
      hreadme'⟩

/-- **An Agent writes the README of the guide it has read.** -/
theorem putItem_ok {put : GuidePut level} (hsound : db.Sound)
    (h : putItem put db = .ok (r, db')) :
    ∃ current, getItem level put.parent put.id db.tables = some current ∧
      guideEtag current = put.ifMatch ∧ getItem level put.parent put.id db'.tables = some r ∧
      r.name = current.name ∧ r.description = current.description ∧ r.readme = put.readme := by
  have hend : db'.Sound := (edited_putItem put db r db' h hsound).1
  simp only [putItem, bind_ok, lookup_ok, require_ok, pure_ok, and_assoc, exists_and_left,
    exists_eq_left', exists_const] at h
  obtain ⟨a, opened, hopen, current, hcurrent, htag, updated, written, hwrite, w, audited, haudit,
    rfl, rfl⟩ := h
  obtain ⟨seen, hseen, -, hmem, hkey, hname, hdescription, hreadme⟩ := updateReadme_row hwrite
  obtain rfl : current = seen := Option.some.inj (hcurrent.symm.trans hseen)
  rw [onStore_tables hopen] at hcurrent
  rw [← putAudit_tables haudit] at hmem
  exact ⟨current, hcurrent, htag, hend.getItem_eq hmem hkey, hname, hdescription, hreadme⟩

end

/-! ### Any number of editors -/

/-- **Stale edits are refused and combined edits are whole.**  In every run, with any readings
of the clock, siblings have different names; every transaction keeps an item as it is or
raises its version; an edit that names the version of an item, or an Agent that names its
guide, from before another change of the item is refused with nothing changed; and an edit
of the administrator either changes nothing or leaves the item with every value of the
request. -/
theorem structureEdits_exact {events : List StructureEvent} {db : LibraryDb}
    (hrun : StructureRun .empty events db) (level : Level) :
    (db.tables.rows level).Pairwise (fun r r' => r.parent = r'.parent → r.name ≠ r'.name) ∧
    (∀ (e : StructureEvent) (parent : level.Parent) (id : Id) (r : StructureRecord level),
      getItem level parent id db.tables = some r →
      ∃ r', getItem level parent id (e.apply db).tables = some r' ∧
        (r' = r ∨ r.updatedAt < r'.updatedAt)) ∧
    (∀ (parent : level.Parent) (id : Id) (r : StructureRecord level),
      getItem level parent id db.tables = some r →
      ∀ before changing, StructureRun db before changing → ∀ e : StructureEvent,
      getItem level parent id (e.apply changing).tables ≠ getItem level parent id changing.tables →
      ∀ after last, StructureRun (e.apply changing) after last →
        (∀ edit : StructureEdit level, edit.itemId = id →
          edit.form.expectedUpdatedAt = r.updatedAt →
          ∃ err, commit (editStructure edit) last = (.error err, last)) ∧
        ∀ put : GuidePut level, put.id = id → put.ifMatch = guideEtag r →
          (∀ r' ∈ last.tables.rows level,
            Set.InjOn sha256 {utf8Encode r'.modelDumpJson, utf8Encode r.modelDumpJson}) →
          ∃ err, commit (putItem put) last = (.error err, last)) ∧
    ∀ edit : StructureEdit level,
      (∃ err, commit (editStructure edit) db = (.error err, db)) ∨
      ∃ r db' parent current, commit (editStructure edit) db = (.ok r, db') ∧
        getItem level parent edit.itemId db.tables = some current ∧
        current.updatedAt = edit.form.expectedUpdatedAt ∧
        getItem level parent edit.itemId db'.tables = some r ∧ r.name = edit.form.name ∧
        r.description = edit.form.description ∧
        r.readme = edit.readme.getD current.readme := by
  have hsound := structureRun_sound hrun
  refine ⟨?_, ?_, ?_, ?_⟩
  · have hlabels := hsound.labels level
    rw [Keyed, List.Nodup, List.pairwise_map] at hlabels
    exact hlabels.imp fun hne hparent hname => hne (Prod.ext hparent hname)
  · intro e parent id r hr
    obtain ⟨hmem, hkey⟩ := getItem_key hr
    obtain ⟨hsound', hrows⟩ := edited_apply db e hsound
    obtain ⟨r', hr', hrevised⟩ := (hrows level).exists_of_mem hmem
    refine ⟨r', hsound'.getItem_eq hr' (hrevised.key_eq.trans hkey), ?_⟩
    exact hrevised.imp_right And.right
  · intro parent id r hread before changing hbefore e hchange after last hafter
    have hlater (r' : StructureRecord level) (hr' : r' ∈ last.tables.rows level)
        (hid : r'.id = id) : r.updatedAt < r'.updatedAt :=
      structureRun_later hsound hread hbefore hchange hafter hr' hid
    have hv := structure_versioned level
    have hlast : last.Sound := hv.holds hafter (hv.kept _ e _ (hv.holds hbefore hsound) rfl)
    constructor
    · rintro edit rfl hexpected
      refine commit_refused fun r' db' hedit => ?_
      obtain ⟨parent', current, hcurrent, hversion, -⟩ := editStructure_ok hlast hedit
      obtain ⟨hmem, -, hid⟩ := getItem_some hcurrent
      exact absurd (hversion.trans hexpected) (hlater current hmem hid).ne'
    · rintro put rfl htag hsha
      refine commit_refused fun r' db' hput => ?_
      obtain ⟨current, hcurrent, hmatch, -⟩ := putItem_ok hlast hput
      obtain ⟨hmem, -, hid⟩ := getItem_some hcurrent
      have hversion := guideEtag_inj (hsha current hmem) (hmatch.trans htag)
      exact absurd hversion (hlater current hmem hid).ne'
  · intro edit
    cases hedit : editStructure edit db with
    | error err => exact .inl ⟨err, commit_of_error hedit⟩
    | ok p =>
      obtain ⟨parent, current, h⟩ := editStructure_ok hsound hedit
      exact .inr ⟨p.1, p.2, parent, current, commit_of_ok hedit, h⟩

end

section Sample

attribute [local instance] asciiPlatform

def sampleEditor : MasterAdminSession := ⟨"master", 1, 1000000, []⟩

def sampleShelf : Id := List.replicate 32 'a'

/-- A new Library. -/
def sampleNewShelf : StructureCreate .library where
  session := sampleEditor
  time := 0
  parent := ⟨⟩
  form := ⟨"Shelf", "Books", ""⟩
  id := sampleShelf
  now := 1000
  eventId := "event-1"

/-- The administrator is there, and makes the Library. -/
def sampleShelfEvents : List StructureEvent :=
  [.elsewhere (modifyStore fun s =>
      { s with auth := { s.auth with masterIdentity := some ⟨"master", [], 1, 0, 0⟩ } }),
    .create sampleNewShelf]

/-- A rename of the Library with a README, under a reading of the clock. -/
def sampleRename (name : Text) (expectedUpdatedAt clock : ℤ) (eventId : Id) :
    StructureEdit .library :=
  ⟨sampleEditor, sampleShelf, ⟨name, "Books", expectedUpdatedAt⟩, some "Read me",
    ⟨0, clock, clock, clock⟩, eventId⟩

def sampleShelfDb : LibraryDb :=
  sampleShelfEvents.foldl StructureEvent.apply .empty

/-- The name goes away and comes back while the clock stands still. -/
def sampleNamedOther : LibraryDb :=
  (StructureEvent.edit (sampleRename "Other" 1000 0 "event-2")).apply sampleShelfDb

def sampleNamedAgain : LibraryDb :=
  (StructureEvent.edit (sampleRename "Shelf" 1002 0 "event-3")).apply sampleNamedOther

/-- An edit of the Library as it was read before is refused, although it is named as it was. -/
theorem structureEdits_exact_sample :
    getItem .library ⟨⟩ sampleShelf sampleNamedAgain.tables =
      some ⟨sampleShelf, ⟨⟩, "Shelf", "Books", "Read me", 1000, 1003⟩ ∧
    ∃ err, commit (editStructure (sampleRename "Mine" 1000 5000 "event-4")) sampleNamedAgain =
      (.error err, sampleNamedAgain) := by
  have hrun : StructureRun .empty sampleShelfEvents sampleShelfDb := .next (.next .start rfl) rfl
  have hread : ∃ r, getItem .library ⟨⟩ sampleShelf sampleShelfDb.tables = some r ∧
      r.updatedAt = 1000 := by
    refine ⟨⟨sampleShelf, ⟨⟩, "Shelf", "Books", "", 1000, 1000⟩, ?_, rfl⟩
    decide +kernel
  obtain ⟨r, hr, hversion⟩ := hread
  refine ⟨by decide +kernel, ?_⟩
  have hstale := (structureEdits_exact hrun .library).2.2.1 ⟨⟩ sampleShelf r hr [] sampleShelfDb
    .start (.edit (sampleRename "Other" 1000 0 "event-2")) (by decide +kernel) _ sampleNamedAgain
    (.next .start rfl)
  exact hstale.1 (sampleRename "Mine" 1000 5000 "event-4") rfl hversion.symm

end Sample

end PatchouliLib
