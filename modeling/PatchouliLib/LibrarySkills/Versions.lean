import PatchouliLib.Foundation.Versions
import PatchouliLib.LibrarySkills.Repository

/-!
# The versions of a skill

A save makes a new version of a complete package, unless nothing has changed, and makes it
the current one.  No table says so: that the versions of a skill are numbered from one,
that the row mirrors the last of them and that a version holds the package it was made
from is what every operation of the service keeps.

## Main definitions

* `createSkill`, `reviseSkill` — the operations that write.
* `skillManifest`, `readSkillFile` — the operations that read.
* `SkillsSound` — the law of the tables.
* `SkillsGrow` — what a save may do to them.

## Main results

* `createSkill_ok`, `reviseSkill_ok` — a save changes nothing, or adds one version.
* `grows_createSkill`, `grows_reviseSkill` — **saves keep the law.**
-/

namespace PatchouliLib

open Foundation

variable [Platform]

/-! ### The service -/

inductive SkillAction where
  | metadata
  | read
  | write
deriving DecidableEq

/-- The gate that each operation goes through. -/
abbrev SkillAuthorization := Id → SkillAction → SkillTx PUnit

/-- `_current`. -/
def currentSkill (key : SkillKey) : SkillTx LibrarySkill :=
  lookup (fun db => db.skills.skills.find? (·.key = key)) .skillNotFound

/-- `_version`. -/
def skillVersion (key : SkillKey) (revisionId : Text) : SkillTx LibrarySkillRevision :=
  lookup (fun db => (db.skills.versionsOf key).find? (·.id = revisionId)) .skillNotFound

/-- `_etag`. -/
def LibrarySkill.etag (s : LibrarySkill) : Text :=
  "\"skill-v1-" ++ s.key.skillId ++ '-' :: (s.currentRevisionId ++ ['"'])

/-- `_summary`. -/
def skillSummary (s : LibrarySkill) : SkillTx SkillSummary := do
  let version ← skillVersion s.key s.currentRevisionId
  pure ⟨s, version.fileCount, version.totalSizeBytes, version.snapshotSha256, s.etag⟩

/-- `_metadata`. -/
def skillMetadata (name description : Text) : Except SkillErr (Text × Text) := do
  Fallible.check (IsSkillName name) .skillValidation
  Fallible.check (description.length ≤ maxSkillDescriptionLength ∧ Char.ofNat 0 ∉ description)
    .skillValidation
  pure (name, strip description)

def packageSnapshot (files : List (Text × Bytes)) : Except SkillErr SkillSnapshot :=
  (buildSkillSnapshot files).mapError fun _ => .skillValidation

/-- The package of a save, under the name and the description it gets. -/
structure SkillPackage where
  name : Text
  description : Text
  files : List (Text × Bytes)

/-- The identifiers of a save. -/
structure SkillFresh where
  skillId : Id
  revisionId : Text

/-- A new skill with its first version. -/
def createFreshSkill (libraryId : Id) (name description : Text) (snapshot : SkillSnapshot) (now : ℤ)
    (fresh : SkillFresh) : SkillTx SkillSaveResult := do
  let row := ⟨⟨libraryId, fresh.skillId⟩, name, description, fresh.revisionId, 1, now, now⟩
  insertSkill row
  insertVersion row snapshot
  let summary ← skillSummary row
  pure ⟨summary, true, true⟩

/-- The skill that has the name already, if the package is the one it holds. -/
def createNamedSkill (libraryId : Id) (name description : Text) (snapshot : SkillSnapshot) (now : ℤ)
    (fresh : SkillFresh) : Option LibrarySkill → SkillTx SkillSaveResult
  | none => createFreshSkill libraryId name description snapshot now fresh
  | some existing => do
    let current ← currentSkill existing.key
    let version ← skillVersion existing.key current.currentRevisionId
    require (current.description = description ∧ version.snapshotSha256 = snapshot.snapshotSha256)
      .skillConflict
    let summary ← skillSummary current
    pure ⟨summary, false, false⟩

def findSkillByName (libraryId : Id) (name : Text) (t : SkillTables) : Option LibrarySkill :=
  t.skills.find? fun s => s.key.libraryId = libraryId ∧ s.name = name

/-- `LibrarySkillService.create`. -/
def createSkill (authorize : SkillAuthorization) (libraryId : Id) (package : SkillPackage) (now : ℤ)
    (fresh : SkillFresh) : SkillTx SkillSaveResult := do
  authorize libraryId .write
  let metadata ← attempt (skillMetadata package.name package.description)
  let snapshot ← attempt (packageSnapshot package.files)
  let existing ← reads fun db => findSkillByName libraryId metadata.1 db.skills
  createNamedSkill libraryId metadata.1 metadata.2 snapshot now fresh existing

/-- The row of the next version. -/
def LibrarySkill.next (s : LibrarySkill) (name description : Text) (clock : ℤ) (revisionId : Text) :
    LibrarySkill :=
  { s with
    name := name
    description := description
    currentRevisionId := revisionId
    currentRevisionNumber := s.currentRevisionNumber + 1
    updatedAt := max clock (s.updatedAt + 1) }

/-- A further version of a skill. -/
def reviseCurrentSkill (current : LibrarySkill) (name description : Text) (snapshot : SkillSnapshot)
    (clock : ℤ) (revisionId : Text) : SkillTx SkillSaveResult := do
  demand (fun db => ∀ s ∈ db.skills.skills, s.key.libraryId = current.key.libraryId →
    s.name = name → s.key = current.key) .skillConflict
  insertVersion (current.next name description clock revisionId) snapshot
  updateSkill (current.next name description clock revisionId)
  let summary ← skillSummary (current.next name description clock revisionId)
  pure ⟨summary, true, false⟩

/-- The answer to a save that changes nothing. -/
def unchangedSkill (current : LibrarySkill) : SkillTx SkillSaveResult := do
  let summary ← skillSummary current
  pure ⟨summary, false, false⟩

/-- `LibrarySkillService.revise`. -/
def reviseSkill (authorize : SkillAuthorization) (key : SkillKey) (package : SkillPackage)
    (expectedEtag : Option Text) (clock : ℤ) (revisionId : Text) : SkillTx SkillSaveResult := do
  authorize key.libraryId .write
  let metadata ← attempt (skillMetadata package.name package.description)
  let snapshot ← attempt (packageSnapshot package.files)
  let current ← currentSkill key
  require (∀ etag ∈ expectedEtag, etag = current.etag) .skillPrecondition
  let version ← skillVersion key current.currentRevisionId
  if current.name = metadata.1 ∧ current.description = metadata.2 ∧
      version.snapshotSha256 = snapshot.snapshotSha256 then unchangedSkill current
  else reviseCurrentSkill current metadata.1 metadata.2 snapshot clock revisionId

/-- `revision_id or current_revision_id`. -/
def LibrarySkill.revisionOr (s : LibrarySkill) : Option Text → Text
  | some (c :: cs) => c :: cs
  | _ => s.currentRevisionId

/-- An entry of a manifest. -/
structure SkillManifestEntry where
  path : Text
  bytes : ℕ
  sha256 : Bytes
deriving DecidableEq

/-- The files of a version in the order of their paths. -/
def manifestEntries (files : List LibrarySkillFile) : List SkillManifestEntry :=
  (files.insertionSort fun a b => utf8Encode a.path ≤ utf8Encode b.path).map fun f =>
    ⟨f.path, f.sizeBytes, f.contentSha256⟩

/-- `LibrarySkillService.manifest`. -/
def skillManifest (authorize : SkillAuthorization) (key : SkillKey) (revisionId : Option Text) :
    SkillTx (LibrarySkillRevision × List SkillManifestEntry) := do
  authorize key.libraryId .read
  let current ← currentSkill key
  let version ← skillVersion key (current.revisionOr revisionId)
  let files ← reads fun db => db.skills.filesOf key (current.revisionOr revisionId)
  pure (version, manifestEntries files)

/-- `LibrarySkillService.read_file`. -/
def readSkillFile (authorize : SkillAuthorization) (key : SkillKey) (resourcePath : Text)
    (revisionId : Option Text) : SkillTx Bytes := do
  authorize key.libraryId .read
  let current ← currentSkill key
  let path ← attempt ((normalizeSkillPath resourcePath).mapError fun _ => .skillValidation)
  let row ← lookup (fun db =>
    (db.skills.filesOf key (current.revisionOr revisionId)).find? (·.path = path)) .skillNotFound
  require (row.content.length = row.sizeBytes ∧ Platform.sha256 row.content = row.contentSha256)
    .skillValidation
  pure row.content

/-! ### The law of the tables -/

/-- A version holds the package it was made from. -/
structure Packaged (t : SkillTables) (r : LibrarySkillRevision) : Prop where
  package : ∃ files snapshot, buildSkillSnapshot files = .ok snapshot ∧
    r.fileCount = snapshot.files.length ∧ r.totalSizeBytes = snapshot.totalSizeBytes ∧
    r.snapshotSha256 = snapshot.snapshotSha256 ∧
    t.filesOf r.key r.id = snapshot.files.map fun entry =>
      ⟨r.key, r.id, entry.1, entry.2, entry.2.length, sha256 entry.2⟩

omit [Platform] in
/-- A row mirrors a version. -/
structure Mirrors (s : LibrarySkill) (r : LibrarySkillRevision) : Prop where
  key : r.key = s.key
  id : r.id = s.currentRevisionId
  number : r.number = s.currentRevisionNumber
  name : r.name = s.name
  description : r.description = s.description
  createdAt : r.createdAt = s.updatedAt

omit [Platform] in
/-- The versions of a skill: numbered from one, each made after the one before it, and the
last of them is the one the row mirrors. -/
structure IsChain (s : LibrarySkill) (versions : List LibrarySkillRevision) : Prop where
  numbered : versions.map (·.number) = List.range' 1 s.currentRevisionNumber
  increasing : (versions.map (·.createdAt)).Pairwise (· < ·)
  ids : Keyed (·.id) versions
  last : ∃ r, versions.getLast? = some r ∧ Mirrors s r

omit [Platform] in
/-- `(library_id, name)`. -/
def LibrarySkill.label (s : LibrarySkill) : Id × Text := (s.key.libraryId, s.name)

/-- The law of the tables of the skills. -/
structure SkillsSound (t : SkillTables) : Prop where
  keys : Keyed (·.key) t.skills
  names : Keyed LibrarySkill.label t.skills
  chains : ∀ s ∈ t.skills, IsChain s (t.versionsOf s.key)
  owned : ∀ r ∈ t.revisions, ∃ s ∈ t.skills, s.key = r.key
  identified : ∀ r ∈ t.revisions, IsRevisionId r.id
  stripped : ∀ r ∈ t.revisions, strip r.description = r.description
  fileOwned : ∀ f ∈ t.files, ∃ r ∈ t.revisions, r.key = f.key ∧ r.id = f.revisionId
  packaged : ∀ r ∈ t.revisions, Packaged t r

/-- The law is kept, versions, files and kept answers are only added, and a row is kept or
goes on to a later version. -/
structure SkillsGrow (t t' : SkillTables) : Prop where
  sound : SkillsSound t'
  revisions : t.revisions <+: t'.revisions
  files : t.files <+: t'.files
  records : t.records <+: t'.records
  receipts : t.receipts <+: t'.receipts
  skills : Grows (Revised (·.key) (·.currentRevisionNumber)) t.skills t'.skills

namespace SkillsGrow

variable {t t' t'' : SkillTables}

theorem refl (h : SkillsSound t) : SkillsGrow t t :=
  ⟨h, List.prefix_rfl, List.prefix_rfl, List.prefix_rfl, List.prefix_rfl,
    .refl (Revised.refl _ _) _⟩

theorem trans (h : SkillsGrow t t') (h' : SkillsGrow t' t'') : SkillsGrow t t'' :=
  ⟨h'.sound, h.revisions.trans h'.revisions, h.files.trans h'.files,
    h.records.trans h'.records, h.receipts.trans h'.receipts,
    h.skills.trans Revised.trans h'.skills⟩

end SkillsGrow

/-! ### A further version -/

/-- A version with the package of a snapshot is added, which mirrors the row. -/
structure AddsVersion (t t' : SkillTables) (row : LibrarySkill) (snapshot : SkillSnapshot) :
    Prop where
  package : ∃ files, buildSkillSnapshot files = .ok snapshot
  identifier : IsRevisionId row.currentRevisionId
  description : strip row.description = row.description
  fresh : ∀ r ∈ t.revisions, r.key = row.key → r.id ≠ row.currentRevisionId
  revisions : t'.revisions = t.revisions ++ [versionOf row snapshot]
  files : t'.files = t.files ++ snapshot.files.map (fileOf row)
  records : t'.records = t.records
  receipts : t'.receipts = t.receipts

namespace AddsVersion

variable {t t' : SkillTables} {row : LibrarySkill} {snapshot : SkillSnapshot}

theorem versionsOf_of_ne (h : AddsVersion t t' row snapshot) {key : SkillKey}
    (hkey : key ≠ row.key) : t'.versionsOf key = t.versionsOf key := by
  unfold SkillTables.versionsOf
  rw [h.revisions]
  exact filter_concat_of_unselected (decide_eq_false (Ne.symm hkey))

theorem versionsOf_self (h : AddsVersion t t' row snapshot) :
    t'.versionsOf row.key = t.versionsOf row.key ++ [versionOf row snapshot] := by
  have hself : [versionOf row snapshot].filter (·.key = row.key) = [versionOf row snapshot] :=
    List.filter_cons_of_pos (decide_eq_true rfl)
  unfold SkillTables.versionsOf
  rw [h.revisions, List.filter_append, hself]

/-- The files of another version are as they were. -/
theorem filesOf_of_ne (h : AddsVersion t t' row snapshot) {key : SkillKey} {revisionId : Text}
    (hne : ¬(row.key = key ∧ row.currentRevisionId = revisionId)) :
    t'.filesOf key revisionId = t.filesOf key revisionId := by
  unfold SkillTables.filesOf
  rw [h.files, List.filter_append]
  refine List.append_right_eq_self.mpr (List.filter_eq_nil_iff.mpr fun f hf hselected => ?_)
  obtain ⟨entry, -, rfl⟩ := List.mem_map.mp hf
  exact hne (of_decide_eq_true hselected)

/-- The files of the new version are those of the package. -/
theorem filesOf_self (h : AddsVersion t t' row snapshot)
    (howned : ∀ f ∈ t.files, ∃ r ∈ t.revisions, r.key = f.key ∧ r.id = f.revisionId) :
    t'.filesOf row.key row.currentRevisionId = snapshot.files.map (fileOf row) := by
  have hnone : t.filesOf row.key row.currentRevisionId = [] := by
    refine List.filter_eq_nil_iff.mpr fun f hf hselected => ?_
    obtain ⟨hkey, hid⟩ : f.key = row.key ∧ f.revisionId = row.currentRevisionId := by
      simpa using hselected
    obtain ⟨r, hr, hrkey, hrid⟩ := howned f hf
    exact h.fresh r hr (hrkey.trans hkey) (hrid.trans hid)
  have hall : (snapshot.files.map (fileOf row)).filter
      (fun f => f.key = row.key ∧ f.revisionId = row.currentRevisionId) =
      snapshot.files.map (fileOf row) := by
    refine List.filter_eq_self.mpr fun f hf => ?_
    obtain ⟨entry, -, rfl⟩ := List.mem_map.mp hf
    exact decide_eq_true ⟨rfl, rfl⟩
  unfold SkillTables.filesOf at hnone ⊢
  rw [h.files, List.filter_append, hnone, hall, List.nil_append]

theorem identified (h : AddsVersion t t' row snapshot)
    (hidentified : ∀ r ∈ t.revisions, IsRevisionId r.id) :
    ∀ r ∈ t'.revisions, IsRevisionId r.id := by
  intro r hr
  rw [h.revisions] at hr
  rcases List.mem_append.mp hr with hr | hr
  · exact hidentified r hr
  · rw [List.mem_singleton.mp hr]
    exact h.identifier

theorem stripped (h : AddsVersion t t' row snapshot)
    (hstripped : ∀ r ∈ t.revisions, strip r.description = r.description) :
    ∀ r ∈ t'.revisions, strip r.description = r.description := by
  intro r hr
  rw [h.revisions] at hr
  rcases List.mem_append.mp hr with hr | hr
  · exact hstripped r hr
  · rw [List.mem_singleton.mp hr]
    exact h.description

theorem fileOwned (h : AddsVersion t t' row snapshot)
    (howned : ∀ f ∈ t.files, ∃ r ∈ t.revisions, r.key = f.key ∧ r.id = f.revisionId) :
    ∀ f ∈ t'.files, ∃ r ∈ t'.revisions, r.key = f.key ∧ r.id = f.revisionId := by
  intro f hf
  rw [h.files] at hf
  rw [h.revisions]
  rcases List.mem_append.mp hf with hf | hf
  · obtain ⟨r, hr, hf⟩ := howned f hf
    exact ⟨r, List.mem_append_left _ hr, hf⟩
  · obtain ⟨entry, -, rfl⟩ := List.mem_map.mp hf
    exact ⟨_, List.mem_append_right _ (List.mem_singleton.mpr rfl), rfl, rfl⟩

/-- Every version holds its package. -/
theorem packaged (h : AddsVersion t t' row snapshot)
    (howned : ∀ f ∈ t.files, ∃ r ∈ t.revisions, r.key = f.key ∧ r.id = f.revisionId)
    (hpackaged : ∀ r ∈ t.revisions, Packaged t r) : ∀ r ∈ t'.revisions, Packaged t' r := by
  intro r hr
  rw [h.revisions] at hr
  rcases List.mem_append.mp hr with hr | hr
  · obtain ⟨files, snapshot', hbuild, hcount, hsize, hdigest, hfiles⟩ := (hpackaged r hr).package
    have hne : ¬(row.key = r.key ∧ row.currentRevisionId = r.id) := fun hsame =>
      h.fresh r hr hsame.1.symm hsame.2.symm
    exact ⟨files, snapshot', hbuild, hcount, hsize, hdigest, (h.filesOf_of_ne hne).trans hfiles⟩
  · obtain rfl := List.mem_singleton.mp hr
    obtain ⟨files, hbuild⟩ := h.package
    exact ⟨files, snapshot, hbuild, rfl, rfl, rfl, h.filesOf_self howned⟩

end AddsVersion

/-- A skill is added with its first version. -/
structure Created (t t' : SkillTables) (row : LibrarySkill) (snapshot : SkillSnapshot) : Prop
    extends AddsVersion t t' row snapshot where
  first : row.currentRevisionNumber = 1
  newKey : ∀ s ∈ t.skills, s.key ≠ row.key
  newName : ∀ s ∈ t.skills, s.label ≠ row.label
  skills : t'.skills = t.skills ++ [row]

/-- A skill goes on to a further version. -/
structure Advanced (t t' : SkillTables) (previous row : LibrarySkill) (snapshot : SkillSnapshot) :
    Prop extends AddsVersion t t' row snapshot where
  mem : previous ∈ t.skills
  key : row.key = previous.key
  next : row.currentRevisionNumber = previous.currentRevisionNumber + 1
  later : previous.updatedAt < row.updatedAt
  free : ∀ s ∈ t.skills, s.key ≠ row.key → s.label ≠ row.label
  skills : t'.skills = t.skills.map fun s => if s.key = row.key then row else s

variable {t t' : SkillTables} {row previous : LibrarySkill} {snapshot : SkillSnapshot}

omit [Platform] in
/-- No version is younger than the last one. -/
theorem IsChain.createdAt_le {versions : List LibrarySkillRevision} (h : IsChain row versions)
    {r : LibrarySkillRevision} (hr : r ∈ versions) : r.createdAt ≤ row.updatedAt := by
  obtain ⟨last, hlast, hmirrors⟩ := h.last
  obtain ⟨before, rfl⟩ := List.getLast?_eq_some_iff.mp hlast
  have hincreasing := h.increasing
  rw [List.map_append, List.pairwise_append] at hincreasing
  rw [← hmirrors.createdAt]
  rcases List.mem_append.mp hr with hr | hr
  · exact (hincreasing.2.2 _ (List.mem_map_of_mem hr) _ (List.mem_singleton.mpr rfl)).le
  · rw [List.mem_singleton.mp hr]

omit [Platform] in
theorem mirrors_versionOf (row : LibrarySkill) (snapshot : SkillSnapshot) :
    Mirrors row (versionOf row snapshot) := ⟨rfl, rfl, rfl, rfl, rfl, rfl⟩

/-- **A new skill keeps the law.** -/
theorem Created.grows (hsound : SkillsSound t) (h : Created t t' row snapshot) :
    SkillsGrow t t' := by
  have hnone : t.versionsOf row.key = [] := by
    refine List.filter_eq_nil_iff.mpr fun r hr hkey => ?_
    obtain ⟨s, hs, hskey⟩ := hsound.owned r hr
    exact h.newKey s hs (hskey.trans (by simpa using hkey))
  refine ⟨⟨?_, ?_, ?_, ?_, h.identified hsound.identified, h.stripped hsound.stripped,
    h.fileOwned hsound.fileOwned, h.packaged hsound.fileOwned hsound.packaged⟩, ?_, ?_,
    by rw [h.records], by rw [h.receipts], ?_⟩
  · rw [h.skills]
    exact hsound.keys.concat h.newKey
  · rw [h.skills]
    exact hsound.names.concat h.newName
  · intro s hs
    rw [h.skills] at hs
    rcases List.mem_append.mp hs with hs | hs
    · rw [h.versionsOf_of_ne (h.newKey s hs)]
      exact hsound.chains s hs
    · obtain rfl := List.mem_singleton.mp hs
      rw [h.versionsOf_self, hnone, List.nil_append]
      refine ⟨?_, List.pairwise_singleton _ _, List.nodup_singleton _,
        ⟨versionOf s snapshot, rfl, mirrors_versionOf s snapshot⟩⟩
      rw [h.first, List.map_singleton, versionOf, h.first]
      rfl
  · intro r hr
    rw [h.revisions] at hr
    rw [h.skills]
    rcases List.mem_append.mp hr with hr | hr
    · obtain ⟨s, hs, hkey⟩ := hsound.owned r hr
      exact ⟨s, List.mem_append_left _ hs, hkey⟩
    · rw [List.mem_singleton.mp hr]
      exact ⟨row, List.mem_append_right _ (List.mem_singleton.mpr rfl), rfl⟩
  · rw [h.revisions]
    exact List.prefix_append _ _
  · rw [h.files]
    exact List.prefix_append _ _
  · rw [h.skills]
    exact .append (Revised.refl _ _) _ _

/-- The chain of a skill goes on. -/
theorem Advanced.chain (hsound : SkillsSound t) (h : Advanced t t' previous row snapshot) :
    IsChain row (t'.versionsOf row.key) := by
  have hchain : IsChain previous (t.versionsOf row.key) := by
    rw [h.key]
    exact hsound.chains previous h.mem
  rw [h.versionsOf_self]
  refine ⟨?_, ?_, ?_, ⟨versionOf row snapshot, ?_, mirrors_versionOf row snapshot⟩⟩
  · rw [List.map_append, hchain.numbered, h.next, List.range'_1_concat, List.map_singleton,
      versionOf, h.next, Nat.add_comm]
  · rw [List.map_append, List.pairwise_append]
    refine ⟨hchain.increasing, List.pairwise_singleton _ _, fun x hx y hy => ?_⟩
    obtain ⟨r, hr, rfl⟩ := List.mem_map.mp hx
    rw [List.map_singleton, List.mem_singleton] at hy
    rw [hy]
    exact (hchain.createdAt_le hr).trans_lt h.later
  · refine hchain.ids.concat fun r hr => ?_
    have hmem := List.mem_of_mem_filter hr
    have hkey : r.key = row.key := by simpa using List.of_mem_filter hr
    exact h.fresh r hmem hkey
  · exact List.getLast?_concat

/-- **A further version keeps the law.** -/
theorem Advanced.grows (hsound : SkillsSound t) (h : Advanced t t' previous row snapshot) :
    SkillsGrow t t' := by
  have hrow : ∀ s ∈ t'.skills, s = row ∨ s ∈ t.skills ∧ s.key ≠ row.key := by
    intro s hs
    rw [h.skills] at hs
    obtain ⟨s', hs', rfl⟩ := List.mem_map.mp hs
    by_cases hkey : s'.key = row.key
    · exact .inl (if_pos hkey)
    · rw [if_neg hkey]
      exact .inr ⟨hs', hkey⟩
  refine ⟨⟨?_, ?_, ?_, ?_, h.identified hsound.identified, h.stripped hsound.stripped,
    h.fileOwned hsound.fileOwned, h.packaged hsound.fileOwned hsound.packaged⟩, ?_, ?_,
    by rw [h.records], by rw [h.receipts], ?_⟩
  · rw [h.skills]
    refine hsound.keys.map fun s _ => ?_
    split
    · next hkey => exact hkey.symm
    · rfl
  · rw [h.skills]
    refine hsound.names.replace row _ (fun a ha b hb hka hkb => ?_) h.free
    exact hsound.keys.eq_of_key ha hb (hka.trans hkb.symm)
  · intro s hs
    rcases hrow s hs with rfl | ⟨hs, hkey⟩
    · exact h.chain hsound
    · rw [h.versionsOf_of_ne hkey]
      exact hsound.chains s hs
  · intro r hr
    rw [h.revisions] at hr
    have hskill : ∃ s ∈ t.skills, s.key = r.key := by
      rcases List.mem_append.mp hr with hr | hr
      · exact hsound.owned r hr
      · rw [List.mem_singleton.mp hr]
        exact ⟨previous, h.mem, h.key.symm⟩
    obtain ⟨s, hs, hkey⟩ := hskill
    rw [h.skills]
    refine ⟨_, List.mem_map_of_mem hs, ?_⟩
    split
    · next hsame => exact hsame.symm.trans hkey
    · exact hkey
  · rw [h.revisions]
    exact List.prefix_append _ _
  · rw [h.files]
    exact List.prefix_append _ _
  · rw [h.skills]
    refine .map fun s hs => ?_
    split
    · next hkey =>
      obtain rfl : s = previous := hsound.keys.eq_of_key hs h.mem (hkey.trans h.key)
      exact .inr ⟨h.key, by simp [h.next]⟩
    · exact .refl _ _ s

/-! ### What the operations do -/

/-- A gate that lets the tables of the skills be. -/
def LeavesSkills (authorize : SkillAuthorization) : Prop :=
  ∀ libraryId action db w db', authorize libraryId action db = .ok (w, db') →
    db'.skills = db.skills

variable {db db' : SkillDb} {authorize : SkillAuthorization} {result : SkillSaveResult}

omit [Platform] in
/-- A text that is stripped has no space at its ends. -/
theorem strip_strip (text : Text) : strip (strip text) = strip text := by
  have hhead : (strip text).dropWhile isSpace = strip text := by
    rw [strip]
    generalize hrest : text.dropWhile isSpace = rest
    cases rest with
    | nil => rfl
    | cons c cs =>
      have hc : isSpace c = false := by
        have hnot := List.head_dropWhile_not isSpace (l := text) (by simp [hrest])
        simpa [hrest] using hnot
      obtain ⟨cs', hcs'⟩ : ∃ cs', (c :: cs).rdropWhile isSpace = c :: cs' := by
        cases hdrop : (c :: cs).rdropWhile isSpace with
        | nil =>
          have hall := List.rdropWhile_eq_nil_iff.mp hdrop c List.mem_cons_self
          rw [hc] at hall
          cases hall
        | cons d ds =>
          have hfront := List.rdropWhile_prefix isSpace (c :: cs)
          rw [hdrop] at hfront
          obtain ⟨rfl, -⟩ := List.cons_prefix_cons.mp hfront
          exact ⟨ds, rfl⟩
      rw [hcs', List.dropWhile_cons_of_neg (by simp [hc])]
  rw [strip, hhead, strip, List.rdropWhile_idempotent]

omit [Platform] in
theorem skillSummary_ok {s : LibrarySkill} {summary : SkillSummary}
    (h : skillSummary s db = .ok (summary, db')) :
    summary.row = s ∧ summary.etag = s.etag ∧ db = db' := by
  simp only [skillSummary, skillVersion, bind_ok, lookup_ok, pure_ok, and_assoc, exists_and_left,
    exists_eq_left'] at h
  obtain ⟨version, -, rfl, rfl⟩ := h
  exact ⟨rfl, rfl, rfl⟩

omit [Platform] in
theorem currentSkill_ok {key : SkillKey} {s : LibrarySkill}
    (h : currentSkill key db = .ok (s, db')) : s ∈ db.skills.skills ∧ s.key = key ∧ db = db' := by
  obtain ⟨hfind, rfl⟩ := lookup_ok.mp h
  have hkey : s.key = key := by simpa using List.find?_some hfind
  exact ⟨List.mem_of_find?_eq_some hfind, hkey, rfl⟩

theorem packageSnapshot_ok {files : List (Text × Bytes)} :
    packageSnapshot files = .ok snapshot ↔ buildSkillSnapshot files = .ok snapshot :=
  Fallible.mapError_ok

theorem createFreshSkill_ok {libraryId : Id} {name description : Text} {now : ℤ}
    {fresh : SkillFresh} {files : List (Text × Bytes)}
    (hpackage : buildSkillSnapshot files = .ok snapshot)
    (hdescription : strip description = description)
    (h : createFreshSkill libraryId name description snapshot now fresh db = .ok (result, db')) :
    result.changed = true ∧ Created db.skills db'.skills
      ⟨⟨libraryId, fresh.skillId⟩, name, description, fresh.revisionId, 1, now, now⟩ snapshot ∧
      result.skill.row =
        ⟨⟨libraryId, fresh.skillId⟩, name, description, fresh.revisionId, 1, now, now⟩ := by
  obtain ⟨w, inserted, hinsert, h⟩ := bind_ok.mp h
  obtain ⟨⟨-, -, hnew⟩, rfl⟩ := insertSkill_ok.mp hinsert
  obtain ⟨w', versioned, hversion, h⟩ := bind_ok.mp h
  obtain ⟨hidentifier, hfresh, rfl⟩ := insertVersion_ok hversion
  obtain ⟨summary, mid, hsummary, h⟩ := bind_ok.mp h
  obtain ⟨hrow, -, rfl⟩ := skillSummary_ok hsummary
  obtain ⟨rfl, rfl⟩ := pure_ok.mp h
  refine ⟨rfl, ⟨⟨⟨files, hpackage⟩, hidentifier, hdescription,
    fun r hr hkey => (hfresh r hr hkey).1, rfl, rfl, rfl, rfl⟩, rfl, fun s hs => (hnew s hs).1,
    fun s hs hlabel => (hnew s hs).2 ?_, rfl⟩, hrow⟩
  exact Prod.mk.inj hlabel

theorem reviseCurrentSkill_ok {current : LibrarySkill} {name description : Text} {clock : ℤ}
    {revisionId : Text} {files : List (Text × Bytes)}
    (hpackage : buildSkillSnapshot files = .ok snapshot)
    (hdescription : strip description = description)
    (hcurrent : current ∈ db.skills.skills)
    (h : reviseCurrentSkill current name description snapshot clock revisionId db =
      .ok (result, db')) :
    result.changed = true ∧ Advanced db.skills db'.skills current
      (current.next name description clock revisionId) snapshot ∧
      result.skill.row = current.next name description clock revisionId := by
  obtain ⟨w, mid, hdemand, h⟩ := bind_ok.mp h
  obtain ⟨-, rfl⟩ := demand_ok.mp hdemand
  obtain ⟨w', versioned, hversion, h⟩ := bind_ok.mp h
  obtain ⟨hidentifier, hfresh, rfl⟩ := insertVersion_ok hversion
  obtain ⟨w'', updated, hupdate, h⟩ := bind_ok.mp h
  obtain ⟨⟨-, hfree⟩, rfl⟩ := updateSkill_ok.mp hupdate
  obtain ⟨summary, mid, hsummary, h⟩ := bind_ok.mp h
  obtain ⟨hrow, -, rfl⟩ := skillSummary_ok hsummary
  obtain ⟨rfl, rfl⟩ := pure_ok.mp h
  refine ⟨rfl, ⟨⟨⟨files, hpackage⟩, hidentifier, hdescription,
    fun r hr hkey => (hfresh r hr hkey).1, rfl, rfl, rfl, rfl⟩, hcurrent, rfl, rfl, ?_,
    fun s hs hkey hlabel => hfree s hs hkey (Prod.mk.inj hlabel), rfl⟩, hrow⟩
  exact lt_of_lt_of_le (lt_add_one current.updatedAt) (le_max_right _ _)

/-- A save under the name of a skill that is there changes nothing. -/
theorem createNamedSkill_some {libraryId : Id} {name description : Text} {now : ℤ}
    {fresh : SkillFresh} {existing : LibrarySkill}
    (h : createNamedSkill libraryId name description snapshot now fresh (some existing) db =
      .ok (result, db')) : result.changed = false ∧ db' = db := by
  simp only [createNamedSkill, bind_ok] at h
  obtain ⟨current, opened, hcurrent, version, read, hversion, w, checked, hrequire, summary, mid,
    hsummary, h⟩ := h
  obtain ⟨-, -, rfl⟩ := currentSkill_ok hcurrent
  obtain ⟨-, rfl⟩ := lookup_ok.mp hversion
  obtain ⟨-, rfl⟩ := require_ok.mp hrequire
  obtain ⟨-, -, rfl⟩ := skillSummary_ok hsummary
  obtain ⟨rfl, rfl⟩ := pure_ok.mp h
  exact ⟨rfl, rfl⟩

/-- **A new skill or nothing.** -/
theorem createSkill_ok (hauthorize : LeavesSkills authorize) {libraryId : Id}
    {package : SkillPackage} {now : ℤ} {fresh : SkillFresh}
    (h : createSkill authorize libraryId package now fresh db = .ok (result, db')) :
    result.changed = false ∧ db'.skills = db.skills ∧
      (∃ s ∈ db.skills.skills, s.label = (libraryId, package.name)) ∨
    result.changed = true ∧ ∃ snapshot, buildSkillSnapshot package.files = .ok snapshot ∧
      Created db.skills db'.skills result.skill.row snapshot ∧
      result.skill.row.label = (libraryId, package.name) ∧
      result.skill.row.description = strip package.description := by
  obtain ⟨w, opened, hopen, h⟩ := bind_ok.mp h
  have hsame := hauthorize _ _ _ _ _ hopen
  simp only [bind_ok, attempt_ok, reads_ok, and_assoc, exists_and_left, exists_eq_left'] at h
  obtain ⟨⟨name, description⟩, hmetadata, snapshot, hsnapshot, h⟩ := h
  simp only [skillMetadata, Fallible.bind_ok, Fallible.check_ok, Fallible.pure_ok, Prod.mk.injEq,
    exists_and_left, exists_const] at hmetadata
  obtain ⟨-, -, rfl, rfl⟩ := hmetadata
  rw [packageSnapshot_ok] at hsnapshot
  cases hfound : findSkillByName libraryId package.name opened.skills with
  | none =>
    rw [hfound] at h
    obtain ⟨hchanged, hcreated, hrow⟩ := createFreshSkill_ok hsnapshot (strip_strip _) h
    rw [hsame, ← hrow] at hcreated
    refine .inr ⟨hchanged, snapshot, hsnapshot, hcreated, ?_, ?_⟩
    · rw [hrow]
      rfl
    · rw [hrow]
  | some existing =>
    rw [hfound] at h
    obtain ⟨hchanged, rfl⟩ := createNamedSkill_some h
    obtain ⟨hlibrary, hname⟩ :
        existing.key.libraryId = libraryId ∧ existing.name = package.name := by
      simpa using List.find?_some hfound
    have hmem := List.mem_of_find?_eq_some hfound
    rw [hsame] at hmem
    exact .inl ⟨hchanged, hsame, existing, hmem, Prod.ext hlibrary hname⟩

/-- **A further version of the current one, or nothing.** -/
theorem reviseSkill_ok (hauthorize : LeavesSkills authorize) {key : SkillKey}
    {package : SkillPackage} {expectedEtag : Option Text} {clock : ℤ} {revisionId : Text}
    (h : reviseSkill authorize key package expectedEtag clock revisionId db = .ok (result, db')) :
    ∃ current ∈ db.skills.skills, current.key = key ∧ (∀ etag ∈ expectedEtag, etag = current.etag) ∧
      ∃ snapshot, buildSkillSnapshot package.files = .ok snapshot ∧
      (result.changed = false ∧ db'.skills = db.skills ∧ current.name = package.name ∧
          current.description = strip package.description ∧
          (∃ version ∈ db.skills.versionsOf key, version.id = current.currentRevisionId ∧
            version.snapshotSha256 = snapshot.snapshotSha256) ∧ result.skill.row = current ∨
        result.changed = true ∧ Advanced db.skills db'.skills current result.skill.row snapshot ∧
          result.skill.row.name = package.name ∧
          result.skill.row.description = strip package.description ∧
          result.skill.row.currentRevisionId = revisionId) := by
  obtain ⟨w, opened, hopen, h⟩ := bind_ok.mp h
  have hsame := hauthorize _ _ _ _ _ hopen
  simp only [bind_ok, attempt_ok, require_ok, and_assoc, exists_and_left, exists_eq_left',
    exists_const] at h
  obtain ⟨⟨name, description⟩, hmetadata, snapshot, hsnapshot, current, read, hcurrent, hetag,
    version, seen, hversion, h⟩ := h
  simp only [skillMetadata, Fallible.bind_ok, Fallible.check_ok, Fallible.pure_ok, Prod.mk.injEq,
    exists_and_left, exists_const] at hmetadata
  obtain ⟨-, -, rfl, rfl⟩ := hmetadata
  rw [packageSnapshot_ok] at hsnapshot
  obtain ⟨hmem, hkey, rfl⟩ := currentSkill_ok hcurrent
  obtain ⟨hfind, rfl⟩ := lookup_ok.mp hversion
  rw [← hsame]
  refine ⟨current, hmem, hkey, hetag, snapshot, hsnapshot, ?_⟩
  split at h
  · next hunchanged =>
    obtain ⟨summary, mid, hsummary, h⟩ := bind_ok.mp h
    obtain ⟨hrow, -, rfl⟩ := skillSummary_ok hsummary
    obtain ⟨rfl, rfl⟩ := pure_ok.mp h
    have hid : version.id = current.currentRevisionId := by simpa using List.find?_some hfind
    exact .inl ⟨rfl, rfl, hunchanged.1, hunchanged.2.1,
      ⟨version, List.mem_of_find?_eq_some hfind, hid, hunchanged.2.2⟩, hrow⟩
  · obtain ⟨hchanged, hadvanced, hrow⟩ := reviseCurrentSkill_ok hsnapshot (strip_strip _) hmem h
    rw [← hrow] at hadvanced
    refine .inr ⟨hchanged, hadvanced, ?_, ?_, ?_⟩
    all_goals
      rw [hrow]
      rfl

/-- **Saves keep the law.** -/
theorem grows_createSkill (hauthorize : LeavesSkills authorize) {libraryId : Id}
    {package : SkillPackage} {now : ℤ} {fresh : SkillFresh} (hsound : SkillsSound db.skills)
    (h : createSkill authorize libraryId package now fresh db = .ok (result, db')) :
    SkillsGrow db.skills db'.skills := by
  rcases createSkill_ok hauthorize h with ⟨-, hsame, -⟩ | ⟨-, snapshot, -, hcreated, -⟩
  · rw [hsame]
    exact .refl hsound
  · exact hcreated.grows hsound

theorem grows_reviseSkill (hauthorize : LeavesSkills authorize) {key : SkillKey}
    {package : SkillPackage} {expectedEtag : Option Text} {clock : ℤ} {revisionId : Text}
    (hsound : SkillsSound db.skills)
    (h : reviseSkill authorize key package expectedEtag clock revisionId db = .ok (result, db')) :
    SkillsGrow db.skills db'.skills := by
  obtain ⟨current, -, -, -, snapshot, -, ⟨-, hsame, -⟩ | ⟨-, hadvanced, -⟩⟩ :=
    reviseSkill_ok hauthorize h
  · rw [hsame]
    exact .refl hsound
  · exact hadvanced.grows hsound

end PatchouliLib
