import PatchouliLib.Foundation.Table
import PatchouliLib.Identifiers.PageIds
import PatchouliLib.Identifiers.RevisionIds
import PatchouliLib.LibrarySkills.Snapshots
import PatchouliLib.Storage.AuthStatements

/-!
# The tables of the skills

A skill is a row that says which of its versions is the current one.  Its versions and
their files are only ever inserted: triggers refuse an update or a delete, and a version
takes no more files than it says it has.

## Main definitions

* `LibrarySkill`, `LibrarySkillRevision`, `LibrarySkillFile` — the rows.
* `SkillDb` — the authority with the tables of the skills.
* `insertSkill`, `insertVersion`, `updateSkill` — the statements.

## Main results

* `insertVersion_ok` — a version is added with all its files.
* `currentVersions_ok` — what the commit demands.
-/

namespace PatchouliLib

open Foundation

/-! ### Rows -/

/-- `(library_id, skill_id)`. -/
structure SkillKey where
  libraryId : Id
  skillId : Id
deriving DecidableEq

structure LibrarySkill where
  key : SkillKey
  name : Text
  description : Text
  currentRevisionId : Text
  currentRevisionNumber : ℕ
  createdAt : ℤ
  updatedAt : ℤ
deriving DecidableEq

structure LibrarySkillRevision where
  key : SkillKey
  id : Text
  number : ℕ
  name : Text
  description : Text
  fileCount : ℕ
  totalSizeBytes : ℕ
  snapshotSha256 : Bytes
  createdAt : ℤ
deriving DecidableEq

structure LibrarySkillFile where
  key : SkillKey
  revisionId : Text
  path : Text
  content : Bytes
  sizeBytes : ℕ
  contentSha256 : Bytes
deriving DecidableEq

def maxSkillNameLength : ℕ := 64
def maxSkillDescriptionLength : ℕ := 4000

/-- The GLOB patterns of a name: `[a-z0-9]+(?:-[a-z0-9]+)*` of at most 64 characters. -/
def IsSkillName (name : Text) : Prop :=
  matchSlug false name = true ∧ name.length ≤ maxSkillNameLength

instance (name : Text) : Decidable (IsSkillName name) := by
  unfold IsSkillName
  infer_instance

/-- The largest integer of a column. -/
def maxSkillInteger : ℤ := 2 ^ 63 - 1

/-- The CHECK constraints of a skill. -/
def LibrarySkill.Checks (s : LibrarySkill) : Prop :=
  IsOpaqueId s.key.skillId ∧ IsSkillName s.name ∧ s.description.length ≤ maxSkillDescriptionLength ∧
    IsRevisionNumber s.currentRevisionNumber ∧ 0 ≤ s.createdAt ∧ s.createdAt ≤ s.updatedAt ∧
    s.updatedAt ≤ maxSkillInteger

instance LibrarySkill.decidableChecks (s : LibrarySkill) : Decidable s.Checks := by
  unfold LibrarySkill.Checks
  infer_instance

/-- The CHECK constraints of a version. -/
def LibrarySkillRevision.Checks (r : LibrarySkillRevision) : Prop :=
  IsRevisionId r.id ∧ IsRevisionNumber r.number ∧ 0 ≤ r.createdAt ∧
    1 ≤ r.name.length ∧ r.name.length ≤ maxSkillNameLength ∧
    r.description.length ≤ maxSkillDescriptionLength ∧ 1 ≤ r.fileCount ∧
    r.fileCount ≤ maxFilesPerPage ∧ r.totalSizeBytes ≤ maxPageBytes ∧ r.snapshotSha256.length = 32

instance LibrarySkillRevision.decidableChecks (r : LibrarySkillRevision) : Decidable r.Checks := by
  unfold LibrarySkillRevision.Checks
  infer_instance

/-- The CHECK constraints of a file. -/
def LibrarySkillFile.Checks (f : LibrarySkillFile) : Prop :=
  1 ≤ f.path.length ∧ f.path.length ≤ maxSkillPathBytes ∧ f.path.head? ≠ some '/' ∧ '\\' ∉ f.path ∧
    Char.ofNat 0 ∉ f.path ∧ f.sizeBytes ≤ maxFileBytes ∧ f.content.length = f.sizeBytes ∧
    f.contentSha256.length = 32

instance LibrarySkillFile.decidableChecks (f : LibrarySkillFile) : Decidable f.Checks := by
  unfold LibrarySkillFile.Checks
  infer_instance

/-! ### Answers that are kept -/

/-- `_summary`: a skill with what its current version holds. -/
structure SkillSummary where
  row : LibrarySkill
  fileCount : ℕ
  totalSizeBytes : ℕ
  snapshotSha256 : Bytes
  etag : Text
deriving DecidableEq

structure SkillSaveResult where
  skill : SkillSummary
  changed : Bool
  created : Bool
deriving DecidableEq

/-- What an Agent is answered. -/
structure SkillResponse where
  status : ℕ
  result : SkillSaveResult
  location : Text
  originalRequestId : Text
  originalRequestTimestamp : Text
deriving DecidableEq

/-- A row of `idempotency_records` under a route of the skills. -/
structure SkillIdempotencyRecord where
  caller : TransactionValidatedCaller
  request : IdempotencyRequest
  response : SkillResponse

/-- What the browser is answered. -/
structure SkillWorkspaceResponse where
  result : SkillSaveResult
  overwrittenNewerRevision : Bool
deriving DecidableEq

/-- A row of `workspace_save_receipts` of a skill. -/
structure SkillWorkspaceReceipt where
  identityId : Id
  keyDigest : Bytes
  requestFingerprint : Bytes
  response : SkillWorkspaceResponse
  createdAt : ℤ

/-! ### Tables -/

structure SkillTables where
  skills : List LibrarySkill := []
  revisions : List LibrarySkillRevision := []
  files : List LibrarySkillFile := []
  records : List SkillIdempotencyRecord := []
  receipts : List SkillWorkspaceReceipt := []

/-- The versions of a skill, oldest first. -/
def SkillTables.versionsOf (t : SkillTables) (key : SkillKey) : List LibrarySkillRevision :=
  t.revisions.filter (·.key = key)

/-- The files of a version. -/
def SkillTables.filesOf (t : SkillTables) (key : SkillKey) (revisionId : Text) :
    List LibrarySkillFile :=
  t.files.filter fun f => f.key = key ∧ f.revisionId = revisionId

/-- The authority with the tables of the skills. -/
structure SkillDb where
  store : Store := {}
  skills : SkillTables := {}

/-- The errors of the skills; `refused` is one of the rest of the application. -/
inductive SkillErr where
  | skillValidation
  | skillNotFound
  | skillConflict
  | skillPrecondition
  | idempotencyConflict
  | integrity
  | apiError (status : ℕ) (code : Text)
  | refused (e : Err)
deriving DecidableEq

/-- A body on the skills. -/
abbrev SkillTx (α : Type) := Tx SkillDb SkillErr α

def SkillDb.modifySkills (f : SkillTables → SkillTables) (db : SkillDb) : SkillDb :=
  { db with skills := f db.skills }

/-- Run a body on the rest of the authority. -/
def onAuthority {α : Type} (x : Write α) : SkillTx α := fun db =>
  match x ⟨db.store, []⟩ with
  | .ok (a, c) => .ok (a, { db with store := c.store })
  | .error e => .error (.refused e)

/-! ### Statements -/

/-- `INSERT INTO library_skills`. -/
def insertSkill (s : LibrarySkill) : SkillTx PUnit := do
  demand (fun db => s.Checks ∧ db.store.hasLibrary s.key.libraryId = true ∧
    ∀ s' ∈ db.skills.skills, s'.key ≠ s.key ∧
      ¬(s'.key.libraryId = s.key.libraryId ∧ s'.name = s.name)) .integrity
  writes (.modifySkills fun t => { t with skills := t.skills ++ [s] })

/-- `INSERT INTO library_skill_revisions`. -/
def insertSkillRevision (r : LibrarySkillRevision) : SkillTx PUnit := do
  demand (fun db => r.Checks ∧ (∃ s ∈ db.skills.skills, s.key = r.key) ∧
    ∀ r' ∈ db.skills.revisions, r'.key = r.key → r'.id ≠ r.id ∧ r'.number ≠ r.number) .integrity
  writes (.modifySkills fun t => { t with revisions := t.revisions ++ [r] })

/-- `INSERT INTO library_skill_files`, of which a version takes no more than it has. -/
def insertSkillFile (f : LibrarySkillFile) : SkillTx PUnit := do
  demand (fun db => f.Checks ∧
    (∃ r ∈ db.skills.revisions, r.key = f.key ∧ r.id = f.revisionId ∧
      (db.skills.filesOf f.key f.revisionId).length < r.fileCount) ∧
    ∀ f' ∈ db.skills.filesOf f.key f.revisionId, f'.path ≠ f.path) .integrity
  writes (.modifySkills fun t => { t with files := t.files ++ [f] })

/-- `UPDATE library_skills … WHERE library_id = ? AND id = ?`. -/
def updateSkill (row : LibrarySkill) : SkillTx PUnit := do
  demand (fun db => row.Checks ∧ ∀ s' ∈ db.skills.skills, s'.key ≠ row.key →
    ¬(s'.key.libraryId = row.key.libraryId ∧ s'.name = row.name)) .integrity
  writes (.modifySkills fun t =>
    { t with skills := t.skills.map fun s => if s.key = row.key then row else s })

/-- The current version of a skill is there, as the deferred foreign key demands. -/
def CurrentVersions (t : SkillTables) : Prop :=
  ∀ s ∈ t.skills, ∃ r ∈ t.revisions, r.key = s.key ∧ r.id = s.currentRevisionId ∧
    r.number = s.currentRevisionNumber

instance (t : SkillTables) : Decidable (CurrentVersions t) := by
  unfold CurrentVersions
  infer_instance

/-- A body with the check of the commit. -/
def skillTransaction {α : Type} (body : SkillTx α) : SkillTx α := do
  let result ← body
  demand (fun db => CurrentVersions db.skills) .integrity
  pure result

section

variable [Platform]

/-- The version that a row mirrors. -/
def versionOf (row : LibrarySkill) (snapshot : SkillSnapshot) : LibrarySkillRevision :=
  ⟨row.key, row.currentRevisionId, row.currentRevisionNumber, row.name, row.description,
    snapshot.files.length, snapshot.totalSizeBytes, snapshot.snapshotSha256, row.updatedAt⟩

/-- A file of the version that a row mirrors. -/
def fileOf (row : LibrarySkill) (entry : Text × Bytes) : LibrarySkillFile :=
  ⟨row.key, row.currentRevisionId, entry.1, entry.2, entry.2.length, sha256 entry.2⟩

/-- `_insert_version`. -/
def insertVersion (row : LibrarySkill) (snapshot : SkillSnapshot) : SkillTx PUnit := do
  insertSkillRevision (versionOf row snapshot)
  forEach (fun entry => insertSkillFile (fileOf row entry)) snapshot.files

end

/-! ### What the statements write -/

variable {db db' : SkillDb} {w : PUnit}

theorem onAuthority_skills {α : Type} {x : Write α} {a : α} (h : onAuthority x db = .ok (a, db')) :
    db'.skills = db.skills := by
  unfold onAuthority at h
  split at h
  · obtain ⟨-, rfl⟩ := Prod.mk.inj (Except.ok.inj h)
    rfl
  · cases h

theorem insertSkill_ok {s : LibrarySkill} : insertSkill s db = .ok (w, db') ↔
    (s.Checks ∧ db.store.hasLibrary s.key.libraryId = true ∧
      ∀ s' ∈ db.skills.skills, s'.key ≠ s.key ∧
        ¬(s'.key.libraryId = s.key.libraryId ∧ s'.name = s.name)) ∧
    db.modifySkills (fun t => { t with skills := t.skills ++ [s] }) = db' := by
  simp only [insertSkill, bind_ok, demand_ok, writes_ok, and_assoc, exists_and_left,
    exists_eq_left', exists_const]

theorem updateSkill_ok {row : LibrarySkill} : updateSkill row db = .ok (w, db') ↔
    (row.Checks ∧ ∀ s' ∈ db.skills.skills, s'.key ≠ row.key →
      ¬(s'.key.libraryId = row.key.libraryId ∧ s'.name = row.name)) ∧
    db.modifySkills (fun t =>
      { t with skills := t.skills.map fun s => if s.key = row.key then row else s }) = db' := by
  simp only [updateSkill, bind_ok, demand_ok, writes_ok, and_assoc, exists_and_left,
    exists_eq_left', exists_const]

/-- Files that are inserted one by one are all there. -/
theorem forEach_insertSkillFile {files : List LibrarySkillFile}
    (h : forEach insertSkillFile files db = .ok (w, db')) :
    db' = db.modifySkills fun t => { t with files := t.files ++ files } := by
  induction files generalizing db with
  | nil =>
    obtain ⟨-, rfl⟩ := pure_ok.mp h
    simp only [SkillDb.modifySkills, List.append_nil]
  | cons f files ih =>
    rw [forEach_cons] at h
    obtain ⟨w', mid, hfirst, hrest⟩ := bind_ok.mp h
    simp only [insertSkillFile, bind_ok, demand_ok, writes_ok, and_assoc, exists_and_left,
      exists_eq_left', exists_const] at hfirst
    obtain ⟨-, -, -, rfl⟩ := hfirst
    rw [ih hrest]
    simp only [SkillDb.modifySkills, List.append_assoc, List.singleton_append]

section

variable [Platform] {row : LibrarySkill} {snapshot : SkillSnapshot}

theorem forEach_fileOf (entries : List (Text × Bytes)) :
    forEach (fun entry => insertSkillFile (fileOf row entry)) entries =
      forEach insertSkillFile (entries.map (fileOf row)) := by
  induction entries with
  | nil => rfl
  | cons entry entries ih => rw [List.map_cons, forEach_cons, forEach_cons, ih]

/-- **A version is added with all its files**, under an identifier and a number of its own. -/
theorem insertVersion_ok (h : insertVersion row snapshot db = .ok (w, db')) :
    IsRevisionId row.currentRevisionId ∧
    (∀ r ∈ db.skills.revisions, r.key = row.key →
      r.id ≠ row.currentRevisionId ∧ r.number ≠ row.currentRevisionNumber) ∧
    db' = db.modifySkills fun t =>
      { t with
        revisions := t.revisions ++ [versionOf row snapshot]
        files := t.files ++ snapshot.files.map (fileOf row) } := by
  obtain ⟨w', mid, hrevision, hfiles⟩ := bind_ok.mp h
  simp only [insertSkillRevision, bind_ok, demand_ok, writes_ok, and_assoc, exists_and_left,
    exists_eq_left', exists_const] at hrevision
  obtain ⟨hchecks, -, hnew, rfl⟩ := hrevision
  rw [forEach_fileOf] at hfiles
  exact ⟨hchecks.1, hnew, forEach_insertSkillFile hfiles⟩

end

theorem skillTransaction_ok {α : Type} {body : SkillTx α} {a : α} :
    skillTransaction body db = .ok (a, db') ↔
      body db = .ok (a, db') ∧ CurrentVersions db'.skills := by
  simp only [skillTransaction, bind_ok, demand_ok, pure_ok, and_assoc]
  constructor
  · rintro ⟨a', mid, hbody, w, mid', hcurrent, rfl, rfl, rfl⟩
    exact ⟨hbody, hcurrent⟩
  · rintro ⟨hbody, hcurrent⟩
    exact ⟨a, db', hbody, ⟨⟩, db', hcurrent, rfl, rfl, rfl⟩

end PatchouliLib
