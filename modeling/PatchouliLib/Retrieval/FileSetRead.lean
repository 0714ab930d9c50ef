import PatchouliLib.Content.FileSetService

/-!
# Verified snapshots

The complete files of any stored Revision of a Page, read back and checked
against the metadata that was stored with them.

## Main definitions

* `readVerifiedRevisionSnapshot` — the snapshot of a Revision.
* `VerifiedRevisionSnapshot.manifestView` — its listing, as it goes over the wire.
-/

namespace PatchouliLib

open Foundation

variable [Platform]

/-- One complete stored Revision. -/
structure VerifiedRevisionSnapshot where
  pageId : Text
  revisionId : Text
  revisionNumber : ℕ
  manifest : FileManifest
  presentation : Presentation

def hasRevisionFileSeal (key : RevisionKey) (s : Store) : Bool :=
  s.content.revisionFileSeals.contains key && s.content.revisionFileSealGuards.contains key

/-- The files of a Revision in the order of their encoded names, within the
bounds of a snapshot. -/
def listRevisionFiles (key : RevisionKey) (s : Store) : Except Err (List RevisionFile) := do
  let stored := (s.filesOf key).insertionSort filenameLe
  Fallible.check (stored.length ≤ maxFilesPerPage ∧
    (∀ f ∈ stored, f.contentBytes.length ≤ maxFileBytes) ∧
    (stored.map (·.contentBytes.length)).sum ≤ maxPageBytes) .fileSetReadPersistence
  pure stored

/-- Verify one complete stored Revision without making an authorization
decision. -/
def readVerifiedRevisionSnapshot (page : Page) (revisionId : Text) (s : Store) :
    Except Err VerifiedRevisionSnapshot := do
  let revision ← Fallible.get (s.content.revisions.find? fun r =>
    r.key.page = page.key ∧ r.key.revisionId = revisionId) .fileSetReadNotFound
  Fallible.check (hasRevisionFileSeal revision.key s = true) .fileSetReadPersistence
  let stored ← listRevisionFiles revision.key s
  let fileSet ← Fallible.get (s.content.revisionFileSets.find? fun m => m.key = revision.key)
    .fileSetReadPersistence
  let manifest ← (buildFileManifest (stored.map fun f => (f.filename, f.contentBytes))).mapError
    fun _ => .fileSetReadPersistence
  Fallible.check (stored.length = manifest.files.length ∧
    manifest.files.length = fileSet.fileCount ∧
    manifest.totalSizeBytes = fileSet.totalSizeBytes ∧
    manifest.files.map (fun entry => (entry.name, entry.contentSizeBytes, entry.contentSha256)) =
      stored.map fun f => (f.filename, f.sizeBytes, f.contentSha256)) .fileSetReadPersistence
  Fallible.check (ManifestMatches revision fileSet manifest) .fileSetReadPersistence
  pure ⟨page.pageId, revisionId, revision.key.revisionNumber, manifest,
    readPresentation page.key revisionId s⟩

/-! ### Listings -/

/-- `^[0-9a-f]{64}$`. -/
def IsSha256Text (value : Text) : Prop := value.length = 64 ∧ ∀ c ∈ value, isLowerHex c = true

instance (value : Text) : Decidable (IsSha256Text value) := by
  unfold IsSha256Text
  infer_instance

/-- One fully verified Revision snapshot, shared by single and multi-file Pages. -/
structure FileSetRevisionManifestView where
  pageId : Text
  revisionId : Text
  revisionNumber : ℕ
  files : List FileSummary
  snapshotSha256 : Text
  primaryFile : Option Text
  displayTitle : Text
deriving DecidableEq

/-- The field checks of a listed file. -/
def FileSummary.Checks (f : FileSummary) : Prop :=
  1 ≤ f.filename.length ∧ f.filename.length ≤ 255 ∧ normalizeFileName f.filename = .ok f.filename ∧
    IsSha256Text f.contentSha256

instance (f : FileSummary) : Decidable f.Checks := by
  unfold FileSummary.Checks
  infer_instance

/-- The field checks of a listing. -/
structure FileSetRevisionManifestView.Checks (view : FileSetRevisionManifestView) : Prop where
  pageId : 1 ≤ view.pageId.length ∧ view.pageId.length ≤ 80 ∧
    ∀ c ∈ view.pageId, ('a' ≤ c ∧ c ≤ 'z') ∨ ('0' ≤ c ∧ c ≤ '9') ∨ c = '-'
  revisionId : IsRevisionId view.revisionId
  revisionNumber : IsRevisionNumber view.revisionNumber
  count : 1 ≤ view.files.length ∧ view.files.length ≤ maxFilesPerPage
  files : ∀ f ∈ view.files, f.Checks
  snapshotSha256 : IsSha256Text view.snapshotSha256

instance (view : FileSetRevisionManifestView) : Decidable view.Checks :=
  decidable_of_iff ((1 ≤ view.pageId.length ∧ view.pageId.length ≤ 80 ∧
      ∀ c ∈ view.pageId, ('a' ≤ c ∧ c ≤ 'z') ∨ ('0' ≤ c ∧ c ≤ '9') ∨ c = '-') ∧
      IsRevisionId view.revisionId ∧ IsRevisionNumber view.revisionNumber ∧
      (1 ≤ view.files.length ∧ view.files.length ≤ maxFilesPerPage) ∧
      (∀ f ∈ view.files, f.Checks) ∧ IsSha256Text view.snapshotSha256)
    ⟨fun ⟨h1, h2, h3, h4, h5, h6⟩ => ⟨h1, h2, h3, h4, h5, h6⟩,
      fun h => ⟨h.1, h.2, h.3, h.4, h.5, h.6⟩⟩

/-- The listing of a verified snapshot. -/
def VerifiedRevisionSnapshot.manifestView (snapshot : VerifiedRevisionSnapshot) :
    Except Err FileSetRevisionManifestView := do
  let view : FileSetRevisionManifestView :=
    { pageId := snapshot.pageId
      revisionId := snapshot.revisionId
      revisionNumber := snapshot.revisionNumber
      files := snapshot.manifest.summaries
      snapshotSha256 := hex snapshot.manifest.snapshotSha256
      primaryFile := snapshot.presentation.primaryFile
      displayTitle := snapshot.presentation.displayTitle }
  Fallible.check view.Checks .validation
  pure view

def FileSummary.modelDump (f : FileSummary) : List (Text × Json) :=
  [("filename", .str f.filename), ("size_bytes", .num f.sizeBytes),
    ("content_sha256", .str f.contentSha256)]

/-- `view.model_dump(mode="json")`. -/
def FileSetRevisionManifestView.modelDump (view : FileSetRevisionManifestView) :
    List (Text × Json) :=
  [("page_id", .str view.pageId), ("revision_id", .str view.revisionId),
    ("revision_number", .num view.revisionNumber),
    ("files", .arr (view.files.map fun f => .obj f.modelDump)),
    ("snapshot_sha256", .str view.snapshotSha256),
    ("primary_file", .ofOption .str view.primaryFile), ("display_title", .str view.displayTitle)]

end PatchouliLib
