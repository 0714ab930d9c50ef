import PatchouliLib.Storage.Statements

/-!
# The content repository

Reads of Pages, Revisions and file manifests, and the writes that the services
compose.  A read is a function of the authority; a write is a body over the open
transaction.

## Main definitions

* `pageCurrentEtag` — the strong validator of a Page state.
* `getPage`, `getCurrentRevisionStorageFormat`, `getCurrentFileManifest` — the
  reads.
* `addPage`, `addRevision`, `addFileSetRevision`, `advanceCurrentRevision`,
  `correctOccurrence`, `transitionPageLifecycle`, `updatePageTitle` — the
  writes.
-/

namespace PatchouliLib

open Foundation

variable [Platform]

/-! ### The current ETag -/

def pageEtagDomain : Bytes := utf8Encode "patchouli-lib/page-current-etag/v2" ++ [0]

/-- The digest input of a Page state. -/
def pageEtagInput (pageUid : Bytes) (revisionId : Text) (revisionNumber : ℕ)
    (occurredAt updatedAt : ℤ) : Bytes :=
  pageEtagDomain ++ pageUid ++ utf8Encode revisionId ++ bigEndian 8 revisionNumber ++
    signedBigEndian occurredAt ++ bigEndian 8 updatedAt.toNat

/-- Validate current content plus metadata and the strictly advancing Page clock. -/
def pageCurrentEtag (pageUid : Bytes) (revisionId : Text) (revisionNumber : ℕ)
    (occurredAt updatedAt : ℤ) : Except Err Text := do
  let pageUid ← validatePageUid pageUid
  let revisionId ← validateRevisionId revisionId
  Fallible.check (IsRevisionNumber revisionNumber) .validation
  Fallible.check (InUtcRange occurredAt ∧ 0 ≤ updatedAt ∧ updatedAt ≤ 2 ^ 63 - 1) .validation
  pure ('"' :: "page-v2-" ++
    hex (sha256 (pageEtagInput pageUid revisionId revisionNumber occurredAt updatedAt)) ++ ['"'])

/-- The ETag of a Page row. -/
def Page.etag (p : Page) : Except Err Text :=
  pageCurrentEtag p.key.pageUid p.currentRevisionId p.currentRevisionNumber p.occurredAt p.updatedAt

/-! ### Pages -/

/-- The identifier that the stable components of a Page row spell. -/
def Page.expectedPageId (p : Page) : Except Err Text := do
  let timestampPrefix ← pageIdTimestampPrefix p.idTimestampMicros
  pure (timestampPrefix ++ '-' :: p.baseSlug ++ ordinalSuffix p.collisionOrdinal)

/-- Validate a stored Page without recomputing identity after title changes. -/
def Page.validateRecord (p : Page) : Except Err Page := do
  let _ ← validatePageUid p.key.pageUid
  let _ ← validatePageId p.pageId
  let _ ← validateRevisionId p.currentRevisionId
  Fallible.check (IsRevisionNumber p.currentRevisionNumber ∧ p.Checks) .validation
  let expected ← p.expectedPageId
  Fallible.check (p.pageId = expected) .validation
  pure p

/-- Validate the initial Page row against its one-time creation title. -/
def Page.validateNew (p : Page) : Except Err Page := do
  let _ ← validatePageUid p.key.pageUid
  let _ ← validatePageId p.pageId
  let _ ← validateRevisionId p.currentRevisionId
  Fallible.check (p.currentRevisionNumber = 1 ∧ p.Checks) .validation
  Fallible.check (p.idTimestampMicros = p.occurredAt / 1000 * 1000) .validation
  let canonicalUtc ← canonicalUtcWire p.occurredAt
  let generated ← generatePageId ⟨p.occurredAt, canonicalUtc⟩ p.title p.collisionOrdinal
  Fallible.check (p.pageId = generated.value ∧ p.baseSlug = generated.baseSlug) .validation
  pure p

def getBook (libraryId bookId : Id) (s : Store) : Option Book :=
  s.library.books.find? fun b => b.libraryId = libraryId ∧ b.id = bookId

def pageUidExists (libraryId : Id) (pageUid : Bytes) (s : Store) : Bool :=
  s.content.pages.any fun p => p.key = ⟨libraryId, pageUid⟩

def revisionIdExists (libraryId : Id) (revisionId : Text) (s : Store) : Bool :=
  s.content.revisions.any fun r =>
    r.key.page.libraryId = libraryId ∧ r.key.revisionId = revisionId

def identifierExists (libraryId : Id) (identifierText : Text) (s : Store) : Except Err Bool := do
  let digest ← pageIdRegistryDigest identifierText
  pure (s.content.pageIdentifierRegistry.any fun i =>
    i.libraryId = libraryId ∧ i.identifierDigest = digest)

def Store.page? (s : Store) (key : PageKey) : Option Page :=
  s.content.pages.find? fun p => p.key = key

/-- The Page of a public identifier. -/
def getPage (libraryId : Id) (identifierText : Text) (s : Store) : Except Err (Option Page) := do
  let digest ← pageIdRegistryDigest identifierText
  let found := s.content.pageIdentifierRegistry.find? fun i =>
    i.libraryId = libraryId ∧ i.identifierDigest = digest ∧ i.identifierText = identifierText
  match found.bind fun i => s.page? ⟨i.libraryId, i.pageUid⟩ with
  | none => pure none
  | some p => do
    let p ← p.validateRecord
    pure (some p)

def addPage (p : Page) : Write Page := do
  let p ← attempt p.validateNew
  insertPage p
  pure p

/-! ### The five changes of a Page row -/

/-- The row with another declared time. -/
@[simps] def Page.corrected (p : Page) (occurredAt updatedAt : ℤ) : Page :=
  { p with occurredAt := occurredAt, updatedAt := updatedAt }

/-- The row on the other side of the trash. -/
@[simps] def Page.transitioned (p : Page) (deletedAt : Option ℤ) (updatedAt : ℤ) : Page :=
  { p with deletedAt := deletedAt, updatedAt := updatedAt }

/-- The row with another title. -/
@[simps] def Page.retitled (p : Page) (title : Text) (updatedAt : ℤ) : Page :=
  { p with title := title, updatedAt := updatedAt }

/-- The row in another Book. -/
@[simps] def Page.moved (p : Page) (sectionId bookId : Id) (updatedAt : ℤ) : Page :=
  { p with sectionId := sectionId, bookId := bookId, updatedAt := updatedAt }

/-- The row at another Revision. -/
@[simps] def Page.advanced (p : Page) (revisionId : Text) (revisionNumber : ℕ) (updatedAt : ℤ) :
    Page :=
  { p with
    currentRevisionId := revisionId
    currentRevisionNumber := revisionNumber
    updatedAt := updatedAt }

/-- The outcome of a conditional UPDATE that must match its row. -/
def requireRow (matched : Bool) : Write PUnit := require (matched = true) .runtime

/-- Conditionally update display metadata in the caller's write transaction. -/
def updatePageTitle (page : Page) (title : Text) (updatedAt : ℤ) : Write (Option Page) := do
  let matched ← updatePageWhere page.key
    (fun p => p.sectionId = page.sectionId ∧ p.bookId = page.bookId ∧ p.pageId = page.pageId ∧
      p.title = page.title ∧ p.updatedAt = page.updatedAt ∧
      p.currentRevision = page.currentRevision ∧ p.deletedAt = none)
    (·.retitled title updatedAt)
  pure (if matched then some (page.retitled title updatedAt) else none)

/-- Atomically change declared time and append its audit row. -/
def correctOccurrence (page : Page) (oldOccurredAt newOccurredAt : ℤ) (actor : Actor)
    (operationAt : ℤ) : Write (Page × PageOccurrenceCorrection) := do
  require (oldOccurredAt ≠ newOccurredAt ∧ InUtcRange newOccurredAt) .validation
  let _ ← attempt (canonicalUtcWire operationAt)
  require (page.occurredAt = oldOccurredAt) .validation
  -- the wall clock may stand still or lag behind the previous write
  let correctedAt := max operationAt (page.updatedAt + 1)
  let _ ← attempt (canonicalUtcWire correctedAt)
  let sequence ← query fun s => pure <| nextSequence
    ((s.history.occurrenceCorrections.filter (·.page = page.key)).map (·.sequence))
  require (IsRevisionNumber sequence) .validation
  insertOccurrenceCorrectionGuard
    ⟨page.key, sequence, oldOccurredAt, newOccurredAt, actor, correctedAt⟩
  let matched ← updatePageWhere page.key
    (fun p => p.occurredAt = page.occurredAt ∧ p.updatedAt = page.updatedAt ∧
      p.currentRevision = page.currentRevision)
    (·.corrected newOccurredAt correctedAt)
  requireRow matched
  let row ← query fun s => Fallible.get (s.history.occurrenceCorrections.find? fun c =>
    c.page = page.key ∧ c.sequence = sequence) .runtime
  pure (page.corrected newOccurredAt correctedAt, row)

/-- Apply one guarded tombstone transition within the caller's write transaction. -/
def transitionPageLifecycle (page : Page) (action : LifecycleAction) (actor : Actor)
    (requestId : Text) (changedAt : ℤ) : Write (Page × PageLifecycleEvent) := do
  require (page.pageType = "archive") .validation
  require (action = .delete ↔ page.deletedAt = none) .validation
  require (0 ≤ changedAt) .validation
  let transitionAt := max changedAt (page.updatedAt + 1)
  let _ ← attempt (canonicalUtcWire transitionAt)
  let sequence ← query fun s => pure <| nextSequence
    ((s.history.lifecycleEvents.filter (·.page = page.key)).map (·.sequence))
  require (IsRevisionNumber sequence) .validation
  insertLifecycleGuard
    ⟨page.key, sequence, action, page.sectionId, page.deletedAt, page.updatedAt, transitionAt,
      page.currentRevisionNumber, page.occurredAt, actor, requestId⟩
  let nextDeletedAt := if action = .delete then some transitionAt else none
  let matched ← updatePageWhere page.key
    (fun p => p.sectionId = page.sectionId ∧ p.pageType = "archive" ∧
      p.updatedAt = page.updatedAt ∧ p.deletedAt = page.deletedAt ∧
      p.currentRevision = page.currentRevision ∧ p.occurredAt = page.occurredAt)
    (·.transitioned nextDeletedAt transitionAt)
  requireRow matched
  let stored ← query fun s => Fallible.get (s.history.lifecycleEvents.find? fun e =>
    e.page = page.key ∧ e.sequence = sequence) .runtime
  pure (page.transitioned nextDeletedAt transitionAt, stored)

/-! ### Revisions -/

/-- Exact accepted Markdown bytes. -/
def validateMarkdown (content : Bytes) : Except Err Text := do
  Fallible.check (1 ≤ content.length ∧ content.length ≤ maxMarkdownBytes ∧ 0 ∉ content) .validation
  Fallible.get (utf8Decode content) .validation

/-- The Revision row of Markdown bytes. -/
def markdownRevision (key : RevisionKey) (content : Bytes) (createdAt : ℤ) : Revision :=
  ⟨key, some content, some content.length, some (sha256 content), createdAt⟩

def addRevision (r : Revision) : Write Revision := do
  let _ ← attempt (Fallible.get r.contentMd .validation >>= validateMarkdown)
  require (0 ≤ r.createdAt ∧ IsRevisionNumber r.key.revisionNumber) .validation
  insertRevision r
  pure r

def getRevision (page : PageKey) (revisionNumber : ℕ) (s : Store) : Option Revision :=
  s.content.revisions.find? fun r => r.key.page = page ∧ r.key.revisionNumber = revisionNumber

/-- The rows of a Revision that its manifest is read from. -/
structure SnapshotRows where
  revision : Option Revision
  fileSet : Option RevisionFileSet
  sealed : Bool
  files : List RevisionFile

def Store.snapshotRows (s : Store) (key : RevisionKey) : SnapshotRows where
  revision := s.content.revisions.find? fun r => r.key = key
  fileSet := s.content.revisionFileSets.find? fun m => m.key = key
  sealed := s.content.revisionFileSeals.contains key && s.content.revisionFileSealGuards.contains key
  files := s.filesOf key

/-- The format that the stored rows agree on. -/
def SnapshotRows.storageFormat (rows : SnapshotRows) : Except Err StorageFormat := do
  let revision ← Fallible.get rows.revision .runtime
  let fileSet ← Fallible.get rows.fileSet .runtime
  match fileSet.storageFormat, revision.contentMd with
  | .legacyMarkdown, some _ => pure .legacyMarkdown
  | .fileSetV1, none => pure .fileSetV1
  | _, _ => .error .runtime

/-- Read the exact current Revision format, failing closed on missing state. -/
def getCurrentRevisionStorageFormat (page : Page) (s : Store) : Except Err StorageFormat :=
  (s.snapshotRows page.currentRevision).storageFormat

/-- The order of the encoded file names. -/
def filenameLe (a b : RevisionFile) : Prop := utf8Encode a.filename ≤ utf8Encode b.filename

instance : DecidableRel filenameLe := fun a b => by
  unfold filenameLe
  infer_instance

/-- The manifest of a legacy Revision mirrors its Markdown column; that of a
file set has the digest its manifest row declares. -/
def ManifestMatches (revision : Revision) (fileSet : RevisionFileSet) (manifest : FileManifest) :
    Prop :=
  match fileSet.storageFormat with
  | .legacyMarkdown => fileSet.snapshotSha256 = none ∧
      manifest.files.map (fun entry => (entry.name, some entry.content,
        some entry.contentSizeBytes, some entry.contentSha256)) =
      [(("content.md" : Text), revision.contentMd, revision.contentSizeBytes, revision.contentSha256)]
  | .fileSetV1 => revision.contentMd = none ∧ revision.contentSizeBytes = none ∧
      revision.contentSha256 = none ∧ fileSet.snapshotSha256 = some manifest.snapshotSha256

instance (revision : Revision) (fileSet : RevisionFileSet) (manifest : FileManifest) :
    Decidable (ManifestMatches revision fileSet manifest) := by
  unfold ManifestMatches
  exact match fileSet.storageFormat with
    | .legacyMarkdown => instDecidableAnd
    | .fileSetV1 => instDecidableAnd

/-- The verified manifest of stored rows. -/
def SnapshotRows.manifest (rows : SnapshotRows) : Except Err FileManifest := do
  let revision ← Fallible.get rows.revision .runtime
  let fileSet ← Fallible.get rows.fileSet .runtime
  Fallible.check (rows.sealed = true) .runtime
  let stored := rows.files.insertionSort filenameLe
  Fallible.check (stored.length ≤ maxFilesPerPage ∧
    (stored.map (·.contentBytes.length)).sum ≤ maxPageBytes) .runtime
  let manifest ← buildFileManifest (stored.map fun f => (f.filename, f.contentBytes))
  Fallible.check (manifest.files.length = fileSet.fileCount ∧
    manifest.totalSizeBytes = fileSet.totalSizeBytes ∧
    manifest.files.map (fun entry => (entry.name, entry.contentSizeBytes, entry.contentSha256)) =
      stored.map fun f => (f.filename, f.sizeBytes, f.contentSha256)) .runtime
  Fallible.check (ManifestMatches revision fileSet manifest) .runtime
  pure manifest

/-- Read and verify the exact sealed current Revision, including legacy data. -/
def getCurrentFileManifest (page : Page) (s : Store) : Except Err FileManifest :=
  (s.snapshotRows page.currentRevision).manifest

/-- The manifest, the files and the seal of a new-format snapshot. -/
def insertSnapshotFiles (key : RevisionKey) (manifest : FileManifest) : Write PUnit := do
  insertRevisionFileSet ⟨key, .fileSetV1, manifest.files.length, manifest.totalSizeBytes,
    some manifest.snapshotSha256⟩
  forEach (fun entry => insertRevisionFile
    ⟨key, entry.name, entry.content, entry.contentSizeBytes, entry.contentSha256⟩) manifest.files
  insertRevisionFileSeal key

/-- The Revision row of a new-format snapshot. -/
def fileSetRevision (key : RevisionKey) (createdAt : ℤ) : Revision :=
  ⟨key, none, none, none, createdAt⟩

/-- The rows of a new-format snapshot. -/
def insertFileSet (key : RevisionKey) (createdAt : ℤ) (manifest : FileManifest) : Write PUnit := do
  insertRevision (fileSetRevision key createdAt)
  insertSnapshotFiles key manifest

/-- Append one new-format snapshot; the caller must advance the Page in the same
transaction. -/
def addFileSetRevision (page : Page) (revisionId : Text) (createdAt : ℤ)
    (manifest : FileManifest) : Write PUnit :=
  insertFileSet ⟨page.key, revisionId, page.currentRevisionNumber + 1⟩ createdAt manifest

/-- Advance an unchanged Page using its exact prior identity and clock. -/
def advanceFileSetCurrentRevision (page : Page) (revisionId : Text) (updatedAt : ℤ) :
    Write (Option Page) := do
  let advance := fun p : Page => p.advanced revisionId (page.currentRevisionNumber + 1) updatedAt
  let matched ← updatePageWhere page.key
    (fun p => p.currentRevision = page.currentRevision ∧ p.occurredAt = page.occurredAt ∧
      p.updatedAt = page.updatedAt ∧ p.deletedAt = none)
    advance
  pure (if matched then some (advance page) else none)

def advanceCurrentRevision (page : Page) (revision : Revision) (updatedAt : ℤ) :
    Write (Option Page) := do
  require (page.updatedAt < updatedAt ∧ updatedAt = revision.createdAt) .validation
  let advance := fun p : Page =>
    p.advanced revision.key.revisionId revision.key.revisionNumber updatedAt
  let matched ← updatePageWhere page.key
    (fun p => p.currentRevision = page.currentRevision ∧ p.occurredAt = page.occurredAt ∧
      p.updatedAt = page.updatedAt ∧ p.deletedAt = none)
    advance
  pure (if matched then some (advance page) else none)

/-- `NewPageIdentifier` of a canonical identifier. -/
def addIdentifier (libraryId : Id) (identifierText : Text) (pageUid : Bytes) (createdAt : ℤ) :
    Write PUnit := do
  let digest ← attempt (pageIdRegistryDigest identifierText)
  insertPageIdentifier ⟨libraryId, digest, identifierText, pageUid, createdAt⟩

/-- `_SOURCE_KIND_PATTERN` and the bounds of a source. -/
def ArchiveSourceInput.Checks (source : ArchiveSourceInput) : Prop :=
  1 ≤ source.kind.length ∧ source.kind.length ≤ 100 ∧ strip source.kind = source.kind ∧
    nul ∉ source.kind ∧ (∀ l ∈ source.locator, l ≠ [] ∧ nul ∉ l) ∧
    ∀ t ∈ source.capturedAt, InUtcRange t

instance (source : ArchiveSourceInput) : Decidable source.Checks := by
  unfold ArchiveSourceInput.Checks
  infer_instance

def addSource (source : PageSource) : Write PageSource := do
  require (source.source.Checks ∧ 0 ≤ source.createdAt) .validation
  insertPageSource source
  pure source

/-! ### Presentations -/

def readPresentation (page : PageKey) (revisionId : Text) (s : Store) : Presentation :=
  match s.content.revisionPresentations.find? fun r =>
      r.key.page = page ∧ r.key.revisionId = revisionId with
  | none => ⟨none, untitled⟩
  | some row => ⟨row.primaryFile, row.displayTitle⟩

def savePresentation (key : RevisionKey) (presentation : Presentation) : Write PUnit :=
  insertRevisionPresentation ⟨key, presentation.primaryFile, presentation.displayTitle⟩

end PatchouliLib
