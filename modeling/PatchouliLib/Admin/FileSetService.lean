import PatchouliLib.Admin.Service
import PatchouliLib.Retrieval.FileSetRead

/-!
# The administrator's file-set writes

The master creates and revises file-set Pages under operation keys of its own.
The receipt of a success is proved against the stored snapshot, the state of the
Page at the time, its Source and its audit row.  A restore is a revision whose
Source names the Revision it restores.

## Main definitions

* `validateMasterFileSetReceipt` — the proof of a receipt.
* `writeFileSetAsMaster` — create or revise.
* `restoreRevisionCommand` — the revision that restores an old snapshot.
-/

namespace PatchouliLib

open Foundation

variable [Platform]

/-- What the master asks for. -/
inductive MasterFileSetCommand where
  | create (command : FileSetCreateCommand)
  | revise (command : FileSetAppendCommand) (bookId : Id)

namespace MasterFileSetCommand

def operation : MasterFileSetCommand → MasterFileSetOperation
  | create _ => .create
  | revise _ _ => .revise

def files : MasterFileSetCommand → List (Text × Bytes)
  | create command => command.files
  | revise command _ => command.files

/-- The Library, the Section and the Book of the request. -/
def target : MasterFileSetCommand → Id × Id × Id
  | create command => (command.libraryId, command.sectionId, command.bookId)
  | revise command bookId => (command.libraryId, command.sectionId, bookId)

/-- The fields of the fingerprint, in the order of their names. -/
def metadata : MasterFileSetCommand → List (Text × Json)
  | create command =>
    [(("book_id" : Text), .str command.bookId), ("library_id", .str command.libraryId),
      ("occurred_at", .ofOption .num command.occurredAt), ("operation", .str "create")] ++
      jsonPrimaryFile command.primaryFile ++
      [(("section_id" : Text), .str command.sectionId), ("source", jsonSource command.source),
        ("title", .str command.title), ("version", .str "master-file-set-v1")]
  | revise command bookId =>
    [(("book_id" : Text), .str bookId),
      ("expected_etag", .ofOption .str command.expectedEtag),
      ("library_id", .str command.libraryId), ("operation", .str "revise"),
      ("page_id", .str command.pageId)] ++
      jsonPrimaryFile command.primaryFile ++
      [(("section_id" : Text), .str command.sectionId), ("source", jsonSource command.source),
        ("version", .str "master-file-set-v1")]

end MasterFileSetCommand

/-- The action of the audit row. -/
def MasterFileSetOperation.auditAction : MasterFileSetOperation → Text
  | .create => "content.page.file_set.create"
  | .revise => "content.page.file_set.revise"

/-! ### Receipts -/

def findMasterFileSetReceipt (identityId : Id) (operation : MasterFileSetOperation)
    (keyDigest : Bytes) (s : Store) : Option MasterFileSetReceipt :=
  s.receipts.masterFileSetReceipts.find? fun r =>
    r.identityId = identityId ∧ r.operation = operation ∧ r.keyDigest = keyDigest

def MasterFileSetReceipt.page (receipt : MasterFileSetReceipt) : PageKey :=
  ⟨receipt.libraryId, receipt.pageUid⟩

def MasterFileSetReceipt.revision (receipt : MasterFileSetReceipt) : RevisionKey :=
  ⟨receipt.page, receipt.revisionId, receipt.revisionNumber⟩

/-- The state of the Page that the receipt speaks of. -/
def MasterFileSetReceipt.StateAgrees (receipt : MasterFileSetReceipt) (state : PageState) : Prop :=
  state.deletedAt = none ∧ state.revisionId = receipt.revisionId ∧
    state.revisionNumber = receipt.revisionNumber ∧
    state.occurredAt = receipt.originalOccurredAt ∧ state.sectionId = receipt.sectionId ∧
    state.bookId = receipt.bookId

instance (receipt : MasterFileSetReceipt) (state : PageState) :
    Decidable (receipt.StateAgrees state) := by
  unfold MasterFileSetReceipt.StateAgrees
  infer_instance

/-- A changed receipt names its Source and its audit row. -/
def checkMasterFileSetChange (receipt : MasterFileSetReceipt) (revision : Revision)
    (fileSet : RevisionFileSet) (s : Store) : Except Err PUnit := do
  Fallible.check (fileSet.storageFormat = .fileSetV1 ∧
    receipt.originalPageUpdatedAt = revision.createdAt ∧
    receipt.operationAt ≤ revision.createdAt) .validation
  let source ← Fallible.get (s.content.pageSources.find? fun p =>
    p.libraryId = receipt.libraryId ∧ some p.sourceId = receipt.sourceId) .validation
  let audit ← Fallible.get (s.audit.masterAuditEvents.find? fun a =>
    some a.id = receipt.masterAuditEventId) .validation
  Fallible.check (source.revision = receipt.revision ∧ source.createdAt = receipt.operationAt ∧
    audit.identityId = receipt.identityId ∧
    audit.IsFor receipt.operation.auditAction receipt.page receipt.operationAt) .validation

/-- Verify complete snapshot, original active clock, Source and audit links. -/
def validateMasterFileSetReceipt (receipt : MasterFileSetReceipt) (s : Store) :
    Except Err FileManifest := do
  let page ← Fallible.get (s.page? receipt.page) .validation
  let rows := s.snapshotRows receipt.revision
  let revision ← Fallible.get rows.revision .validation
  let fileSet ← Fallible.get rows.fileSet .validation
  Fallible.check (page.pageId = receipt.pageId) .validation
  let timeline ← loadPageStateTimeline receipt.page s
  let state ← timeline.exactState receipt.originalPageUpdatedAt
  Fallible.check (receipt.StateAgrees state) .validation
  let manifest ← rows.manifest
  Fallible.check (manifest.snapshotSha256 = receipt.snapshotSha256) .validation
  let etag ← pageCurrentEtag receipt.pageUid receipt.revisionId receipt.revisionNumber
    receipt.originalOccurredAt receipt.originalPageUpdatedAt
  Fallible.check (receipt.responseEtag = etag) .validation
  Fallible.check (receipt.operation = .create → receipt.changed = true ∧
    receipt.revisionNumber = 1 ∧ page.createdAt = revision.createdAt ∧
    revision.createdAt = receipt.operationAt) .validation
  if receipt.changed then checkMasterFileSetChange receipt revision fileSet s
  else Fallible.check (receipt.operation = .revise ∧ receipt.sourceId = none ∧
    receipt.masterAuditEventId = none) .validation
  pure manifest

/-! ### Create and revise -/

/-- A fresh success, or an earlier one. -/
structure MasterFileSetResult where
  receipt : MasterFileSetReceipt
  replayed : Bool
  manifest : FileManifest

/-- The presentation that a restoring append carries over. -/
def restoredPresentation (page : Page) (source : ArchiveSourceInput) (manifest : FileManifest)
    (s : Store) : Except Err (Option Presentation) :=
  match source.locator.filter (· ≠ []) with
  | none => .ok none
  | some revisionId =>
    if source.kind = "revision_restore" then do
      let snapshot ← readVerifiedRevisionSnapshot page revisionId s
      Fallible.check (snapshot.manifest = manifest) .validation
      pure (some (readPresentation page.key snapshot.revisionId s))
    else .ok none

/-- The append of a revising master. -/
def masterAppend (page : Page) (command : FileSetAppendCommand) (expectedEtag : Text)
    (restored : Option Presentation) (now : ℤ) (fresh : Fresh) : FileSetAppend where
  libraryId := page.key.libraryId
  pageId := page.pageId
  expectedEtag := expectedEtag
  files := command.files
  revisionId := fresh.revisionId
  revisionAt := max now (page.updatedAt + 1)
  source := ⟨page.key.libraryId, fresh.sourceId,
    ⟨page.key, fresh.revisionId, page.currentRevisionNumber + 1⟩, command.source, now⟩
  primaryFile := command.primaryFile
  presentationOverride := restored

/-- Run the core of the command. -/
def runMasterFileSet (command : MasterFileSetCommand) (book : Book) (manifest : FileManifest)
    (now : ℤ) (fresh : Fresh) : Write (Bool × Page × FileManifest) :=
  match command with
  | .create command => do
    let page ← createFileSetPage book command.title (command.occurredAt.getD now) now manifest
      command.source command.primaryFile fresh
    pure (true, page, manifest)
  | .revise command bookId => do
    let page ← query (getPage command.libraryId command.pageId)
    let page ← orThrow page .masterFileSetNotFound
    require (page.deletedAt = none ∧ page.sectionId = command.sectionId ∧ page.bookId = bookId)
      .masterFileSetNotFound
    let expectedEtag ← orThrow command.expectedEtag .fileSetWritePreconditionRequired
    let restored ← query (restoredPresentation page command.source manifest)
    let appended ← appendExistingPage (masterAppend page command expectedEtag restored now fresh)
    pure (appended.changed, appended.page, appended.manifest)

/-- The Source and the audit row that a changed snapshot is associated with. -/
def associateMasterChange (session : MasterAdminSession) (operation : MasterFileSetOperation)
    (changed : Bool) (page : Page) (now : ℤ) (fresh : Fresh) :
    Write (Option Id × Option Id) :=
  if changed then do
    let sources ← query fun s => pure (s.content.pageSources.filter fun p =>
      p.libraryId = page.key.libraryId ∧ p.revision = page.currentRevision ∧ p.createdAt = now)
    match sources with
    | [source] => do
      addMasterSuccess session fresh.auditId operation.auditAction "page" page.key.target now
      pure (some source.sourceId, some fresh.auditId)
    | _ => raise .runtime
  else pure (none, none)

/-- The write that no receipt answers. -/
def writeFileSetFresh (session : MasterAdminSession) (command : MasterFileSetCommand)
    (keyDigest fingerprint : Bytes) (manifest : FileManifest) (now : ℤ) (fresh : Fresh) :
    Write MasterFileSetResult := do
  let _ ← attempt (operationTime now .validation)
  let (libraryId, sectionId, bookId) := command.target
  let book ← query fun s => Fallible.get (s.library.books.find? fun b =>
    b.libraryId = libraryId ∧ b.sectionId = sectionId ∧ b.id = bookId) .masterFileSetNotFound
  let (changed, page, manifest) ← runMasterFileSet command book manifest now fresh
  let (sourceId, auditId) ← associateMasterChange session command.operation changed page now fresh
  let etag ← attempt page.etag
  let receipt : MasterFileSetReceipt :=
    { identityId := session.identityId
      operation := command.operation
      keyDigest := keyDigest
      requestFingerprint := fingerprint
      libraryId := page.key.libraryId
      sectionId := page.sectionId
      bookId := page.bookId
      pageId := page.pageId
      pageUid := page.key.pageUid
      revisionId := page.currentRevisionId
      revisionNumber := page.currentRevisionNumber
      snapshotSha256 := manifest.snapshotSha256
      changed := changed
      originalOccurredAt := page.occurredAt
      originalPageUpdatedAt := page.updatedAt
      responseEtag := etag
      operationAt := now
      sourceId := sourceId
      masterAuditEventId := auditId }
  insertMasterFileSetReceipt receipt
  let verified ← query (validateMasterFileSetReceipt receipt)
  pure ⟨receipt, false, verified⟩

/-- Create or revise a Page as the master. -/
def writeFileSetAsMaster (session : MasterAdminSession) (time : ℤ)
    (command : MasterFileSetCommand) (keyDigest : Bytes) (now : ℤ) (fresh : Fresh) :
    Write MasterFileSetResult := do
  let manifest ← attempt (buildFileManifest command.files)
  let fingerprint := fileSetFingerprint command.metadata manifest
  requireMasterSession session time
  let previous ← query fun s => pure
    (findMasterFileSetReceipt session.identityId command.operation keyDigest s)
  match previous with
  | some previous => do
    require (previous.requestFingerprint = fingerprint) .masterFileSetConflict
    let verified ← query (validateMasterFileSetReceipt previous)
    pure ⟨previous, true, verified⟩
  | none => writeFileSetFresh session command keyDigest fingerprint manifest now fresh

/-! ### Restoring a Revision -/

structure MasterRevisionRestoreCommand where
  libraryId : Id
  sectionId : Id
  bookId : Id
  pageId : Text
  sourceRevisionNumber : ℕ
  expectedEtag : Text

/-- Read a verified source.  The revision that restores it is written by
`writeFileSetAsMaster` in a later transaction. -/
def restoreRevisionCommand (session : MasterAdminSession) (time : ℤ)
    (command : MasterRevisionRestoreCommand) (requestId : Text) (s : Store) :
    Except Err MasterFileSetCommand := do
  Fallible.check (time < session.expiresAt ∧ isSessionGenerationCurrent session s = true)
    .authentication
  Fallible.check (s.hasBook command.libraryId command.sectionId command.bookId = true)
    .masterFileSetNotFound
  let page ← Fallible.get (← getPage command.libraryId command.pageId s) .masterFileSetNotFound
  Fallible.check (command.sourceRevisionNumber ≤ page.currentRevisionNumber) .masterFileSetNotFound
  let revision ← Fallible.get (getRevision page.key command.sourceRevisionNumber s)
    .masterFileSetNotFound
  let snapshot ← readVerifiedRevisionSnapshot page revision.key.revisionId s
  Fallible.check (snapshot.revisionNumber = command.sourceRevisionNumber) .fileSetReadPersistence
  pure (.revise
    { libraryId := command.libraryId
      sectionId := command.sectionId
      pageId := command.pageId
      expectedEtag := some command.expectedEtag
      files := snapshot.manifest.files.map fun entry => (entry.name, entry.content)
      source := ⟨"revision_restore", some snapshot.revisionId, none⟩
      requestId := requestId
      primaryFile := snapshot.presentation.primaryFile } command.bookId)

end PatchouliLib
