import PatchouliLib.Content.Service

/-!
# File-set writes

A file-set Page is created from a complete snapshot and revised by another one.
A revision that changes neither the files nor the presentation is an exact
no-op.  The core of both operations writes content only; the services around it
authorize the caller, answer repeated requests and keep the response.

## Main definitions

* `createFileSetPage`, `appendExistingPage` — the cores.
* `appendFileSet`, `createFileSet` — the services of a caller.
-/

namespace PatchouliLib

open Foundation

variable [Platform]

/-! ### The cores -/

/-- The wire checks of the two times of a new Page. -/
def requireWireTimes (occurredAt operationAt : ℤ) : Write PUnit := do
  let _ ← attempt (canonicalUtcWire occurredAt)
  let _ ← attempt (canonicalUtcWire operationAt)
  pure ⟨⟩

/-- The persisted snapshot is the requested one. -/
def requireReadback (page : Page) (manifest : FileManifest) : Write PUnit := do
  let readback ← query (getCurrentFileManifest page)
  require (readback = manifest) .runtime

/-- Write Page, Revision 1, files, seal, identifier and Source. -/
def createFileSetPage (book : Book) (title : Text) (occurredAt operationAt : ℤ)
    (manifest : FileManifest) (source : ArchiveSourceInput) (primaryFile : Option Text)
    (fresh : Fresh) : Write Page := do
  let presentation ← attempt (presentationFor manifest primaryFile)
  requireWireTimes occurredAt operationAt
  let generated ← allocatePageId .fileSetCreateIdentifierExhausted
    .fileSetCreateIdentifierExhausted book.libraryId title occurredAt
  let pageUid ← query
    (allocatePageUid .fileSetCreateIdentifierExhausted book.libraryId fresh.pageUids)
  let revisionId ← query
    (allocateRevisionId .fileSetCreateIdentifierExhausted book.libraryId fresh.revisionIds)
  let page ← addPage (newPageRow book generated pageUid revisionId title occurredAt operationAt)
  insertFileSet page.currentRevision page.createdAt manifest
  savePresentation page.currentRevision presentation
  addIdentifier page.key.libraryId page.pageId page.key.pageUid operationAt
  let _ ← addSource ⟨page.key.libraryId, fresh.sourceId, page.currentRevision, source, operationAt⟩
  requireReadback page manifest
  pure page

/-- What an append leaves behind. -/
structure FileSetAppendResult where
  changed : Bool
  page : Page
  etag : Text
  manifest : FileManifest

/-- What an append asks for. -/
structure FileSetAppend where
  libraryId : Id
  pageId : Text
  expectedEtag : Text
  files : List (Text × Bytes)
  revisionId : Text
  revisionAt : ℤ
  source : PageSource
  primaryFile : Option Text
  presentationOverride : Option Presentation := none

/-- A restored presentation identifies the same entry file. -/
def Presentation.Restores (presentation : Presentation) (primaryFile : Option Text) : Prop :=
  presentation.primaryFile = primaryFile ∧ strip presentation.displayTitle ≠ [] ∧
    nul ∉ presentation.displayTitle

instance (presentation : Presentation) (primaryFile : Option Text) :
    Decidable (presentation.Restores primaryFile) := by
  unfold Presentation.Restores
  infer_instance

/-- The presentation of an append. -/
def FileSetAppend.presentation (command : FileSetAppend) (manifest : FileManifest) :
    Except Err Presentation := do
  let presentation ← presentationFor manifest command.primaryFile
  match command.presentationOverride with
  | none => pure presentation
  | some override => do
    Fallible.check (override.Restores command.primaryFile) .validation
    pure override

/-- Write the new snapshot and advance the Page to it. -/
def writeFileSetRevision (page : Page) (command : FileSetAppend) (manifest : FileManifest)
    (presentation : Presentation) : Write Page := do
  let key : RevisionKey := ⟨page.key, command.revisionId, page.currentRevisionNumber + 1⟩
  addFileSetRevision page command.revisionId command.revisionAt manifest
  let _ ← addSource command.source
  savePresentation key presentation
  let advanced ← advanceFileSetCurrentRevision page command.revisionId command.revisionAt
  let advanced ← orThrow advanced .fileSetPreconditionFailed
  requireReadback advanced manifest
  pure advanced

/-- Write one full flat snapshot or return an exact no-op. -/
def appendExistingPage (command : FileSetAppend) : Write FileSetAppendResult := do
  let manifest ← attempt (buildFileManifest command.files)
  let presentation ← attempt (command.presentation manifest)
  let page ← query (getPage command.libraryId command.pageId)
  let page ← orThrow page .fileSetPageNotFound
  require (page.deletedAt = none) .fileSetPageNotFound
  let currentEtag ← attempt page.etag
  require (command.expectedEtag = currentEtag) .fileSetPreconditionFailed
  let currentManifest ← query (getCurrentFileManifest page)
  let currentPresentation ← query fun s =>
    pure (readPresentation page.key page.currentRevisionId s)
  if manifest = currentManifest ∧ presentation = currentPresentation then
    pure ⟨false, page, currentEtag, currentManifest⟩
  else do
    let _ ← attempt (validateRevisionId command.revisionId)
    require (page.currentRevisionNumber < maxRevisionNumber) .validation
    require (page.updatedAt < command.revisionAt) .validation
    let _ ← attempt (canonicalUtcWire command.revisionAt)
    require (command.source.libraryId = page.key.libraryId ∧
      command.source.revision =
        ⟨page.key, command.revisionId, page.currentRevisionNumber + 1⟩) .validation
    let advanced ← writeFileSetRevision page command manifest presentation
    let etag ← attempt advanced.etag
    pure ⟨true, advanced, etag, manifest⟩

/-! ### Fingerprints and summaries -/

def fileSetAppendRouteTemplate : Text :=
  "/api/v1/sections/{section_id}/pages/{page_id}/file-revisions"
def fileSetCreateRouteTemplate : Text :=
  "/api/v1/sections/{section_id}/books/{book_id}/file-set-pages"

/-- The field of the primary file, which is present only when there is one. -/
def jsonPrimaryFile (primaryFile : Option Text) : List (Text × Json) :=
  (primaryFile.map fun name => (("primary_file" : Text), Json.str name)).toList

/-- The parts of a file-set fingerprint. -/
def fileSetFingerprint (metadata : List (Text × Json)) (manifest : FileManifest) : Bytes :=
  digestRequestFingerprint <|
    [utf8Encode (Json.dumps false (.obj metadata)), bigEndian 8 manifest.files.length] ++
      manifest.files.flatMap fun entry => [utf8Encode entry.name, entry.content]

/-- The files as a response lists them. -/
def FileManifest.summaries (manifest : FileManifest) : List FileSummary :=
  manifest.files.map fun entry => ⟨entry.name, entry.contentSizeBytes, hex entry.contentSha256⟩

/-! ### Append -/

/-- Validated internal semantic request, excluding bearer and raw key. -/
structure FileSetAppendCommand where
  libraryId : Id
  sectionId : Id
  pageId : Text
  expectedEtag : Option Text
  files : List (Text × Bytes)
  source : ArchiveSourceInput
  requestId : Text
  primaryFile : Option Text

def fileSetAppendFingerprint (command : FileSetAppendCommand) (manifest : FileManifest) : Bytes :=
  fileSetFingerprint ([(("expected_etag" : Text), .ofOption .str command.expectedEtag),
      ("library_id", .str command.libraryId), ("operation", .str "file-set-append-v1"),
      ("page_id", .str command.pageId)] ++ jsonPrimaryFile command.primaryFile ++
    [(("section_id" : Text), .str command.sectionId), ("source", jsonSource command.source)])
    manifest

/-- The body of a file-set append. -/
def OriginalResponse.writeBody (response : OriginalResponse) : Except Err WriteBody :=
  match response.responseBody with
  | .write body => .ok body
  | _ => .error .archiveReplayCorrupt

/-- Prove a kept file-set append. -/
def validateWriteReplay (page : Page) (replay : OriginalResponse) (command : FileSetAppendCommand)
    (manifest : FileManifest) (s : Store) : Except Err PUnit := do
  let body ← replay.writeBody
  let state ← requireReplayState page replay.responseEtag
    { sectionId := command.sectionId, revisionId := body.revisionId
      revisionNumber := body.revisionNumber } s
  let revision ← Fallible.get (getRevision page.key body.revisionNumber s) .archiveReplayCorrupt
  Fallible.check (body.sectionId = command.sectionId ∧ body.pageId = page.pageId ∧
    replay.responseStatus = 200 ∧ replay.responseLocation = none ∧
    (body.changed = true → state.updatedAt = revision.createdAt) ∧
    body.snapshotSha256 = hex manifest.snapshotSha256 ∧ body.files = manifest.summaries)
    .archiveReplayCorrupt

/-- The response of a file-set append. -/
def writeResponse (command : FileSetAppendCommand) (appended : FileSetAppendResult)
    (operationAt : ℤ) : Except Err OriginalResponse := do
  let timestamp ← canonicalUtcWire operationAt
  pure
    { responseStatus := 200
      responseBody := .write
        { changed := appended.changed
          sectionId := appended.page.sectionId
          pageId := appended.page.pageId
          revisionId := appended.page.currentRevisionId
          revisionNumber := appended.page.currentRevisionNumber
          snapshotSha256 := hex appended.manifest.snapshotSha256
          files := appended.manifest.summaries }
      responseLocation := none
      responseEtag := appended.etag
      originalRequestId := command.requestId
      originalRequestTimestamp := timestamp }

/-- The identifier that the Revision factory hands out. -/
def Fresh.revisionId (fresh : Fresh) : Text := fresh.revisionIds.headD []

/-- The append of a service to the Page it has read. -/
def FileSetAppendCommand.append (command : FileSetAppendCommand) (page : Page)
    (expectedEtag : Text) (operationAt : ℤ) (fresh : Fresh) : FileSetAppend where
  libraryId := command.libraryId
  pageId := command.pageId
  expectedEtag := expectedEtag
  files := command.files
  revisionId := fresh.revisionId
  revisionAt := max operationAt (page.updatedAt + 1)
  source := ⟨command.libraryId, fresh.sourceId,
    ⟨page.key, fresh.revisionId, page.currentRevisionNumber + 1⟩, command.source, operationAt⟩
  primaryFile := command.primaryFile

/-- A changed snapshot leaves an audit row. -/
def auditChanged (command : FileSetAppendCommand) (a : AuthenticatedCaller)
    (appended : FileSetAppendResult) (operationAt : ℤ) (fresh : Fresh) : Write PUnit :=
  if appended.changed then
    insertAuditEvent (auditOf fresh command.libraryId a "content.page.file_set.revise" "revision"
      appended.page.currentRevisionId command.requestId operationAt)
  else pure ⟨⟩

/-- The append of a changed snapshot, or the exact no-op. -/
def appendUnlessSame (page : Page) (command : FileSetAppendCommand) (expectedEtag : Text)
    (manifest : FileManifest) (presentation : Presentation) (operationAt : ℤ) (fresh : Fresh) :
    Write FileSetAppendResult := do
  let currentManifest ← query (getCurrentFileManifest page)
  let currentPresentation ← query fun s =>
    pure (readPresentation page.key page.currentRevisionId s)
  if manifest = currentManifest ∧ presentation = currentPresentation then
    pure ⟨false, page, expectedEtag, currentManifest⟩
  else do
    let revisionAt := max operationAt (page.updatedAt + 1)
    let _ ← attempt ((canonicalUtcWire revisionAt).mapError fun _ => .fileSetWritePersistence)
    appendExistingPage (command.append page expectedEtag operationAt fresh)

/-- The append that no kept response answers. -/
def appendFileSetFresh (tokenValue : Text) (page : Page) (a : AuthenticatedCaller)
    (caller : TransactionValidatedCaller) (request : IdempotencyRequest)
    (command : FileSetAppendCommand) (manifest : FileManifest) (operationAt : ℤ) (fresh : Fresh) :
    Write ServiceResult := do
  let presentation ← attempt (presentationFor manifest command.primaryFile)
  let _ ← authorizeContent tokenValue command.libraryId command.sectionId .archiveWrite operationAt
  require (page.sectionId = command.sectionId) .fileSetWriteNotFound
  require (page.deletedAt = none) .fileSetWriteNotFound
  let expectedEtag ← orThrow command.expectedEtag .fileSetWritePreconditionRequired
  requireCurrentEtag page expectedEtag .fileSetPreconditionFailed
  let appended ← appendUnlessSame page command expectedEtag manifest presentation operationAt fresh
  auditChanged command a appended operationAt fresh
  let response ← attempt (writeResponse command appended operationAt)
  let _ ← recordSuccess caller request response
  pure ⟨response, false⟩

/-- The Page of a file-set append.  A caller learns that there is none only in a
Section it may write. -/
def fileSetPage (tokenValue : Text) (command : FileSetAppendCommand) (operationAt : ℤ) :
    Write Page := do
  let page ← query (getPage command.libraryId command.pageId)
  match page.filter (·.pageType = ("archive" : Text)) with
  | some page => pure page
  | none => do
    let _ ← authorizeContent tokenValue command.libraryId command.sectionId .archiveWrite
      operationAt
    raise .fileSetWriteNotFound

/-- Append a changed full snapshot; exact identical content is a no-op. -/
def appendFileSet (tokenValue : Text) (command : FileSetAppendCommand) (keyDigest : Bytes)
    (clock : ℤ) (fresh : Fresh) : Write ServiceResult := do
  let manifest ← attempt (buildFileManifest command.files)
  let _ ← attempt (presentationFor manifest command.primaryFile)
  let operationAt ← attempt (operationTime clock .fileSetWritePersistence)
  let _ ← authenticate tokenValue operationAt
  let page ← fileSetPage tokenValue command operationAt
  let a ← authorizeContent tokenValue command.libraryId page.sectionId .archiveWrite operationAt
  let caller := validatedCaller command.libraryId a
  let request : IdempotencyRequest :=
    ⟨"POST", fileSetAppendRouteTemplate, keyDigest, fileSetAppendFingerprint command manifest⟩
  let replay ← query (lookupReplay caller request)
  match replay with
  | some replay => do
    let _ ← query (validateWriteReplay page replay command manifest)
    pure ⟨replay, true⟩
  | none => appendFileSetFresh tokenValue page a caller request command manifest operationAt fresh

/-! ### Create -/

/-- Validated internal semantic request, excluding bearer and raw key. -/
structure FileSetCreateCommand where
  libraryId : Id
  sectionId : Id
  bookId : Id
  title : Text
  occurredAt : Option ℤ
  files : List (Text × Bytes)
  source : ArchiveSourceInput
  requestId : Text
  primaryFile : Option Text

def fileSetCreateFingerprint (command : FileSetCreateCommand) (manifest : FileManifest) : Bytes :=
  fileSetFingerprint ([(("book_id" : Text), .str command.bookId),
      ("library_id", .str command.libraryId),
      ("occurred_at", .ofOption .num command.occurredAt),
      ("operation", .str "file-set-create-v1")] ++ jsonPrimaryFile command.primaryFile ++
    [(("section_id" : Text), .str command.sectionId), ("source", jsonSource command.source),
      ("title", .str command.title)])
    manifest

/-- The body of a file-set create. -/
def OriginalResponse.createBody (response : OriginalResponse) (e : Err) : Except Err CreateBody :=
  match response.responseBody with
  | .create body => .ok body
  | _ => .error e

/-- Prove a kept file-set create. -/
def validateCreateReplay (page : Page) (body : CreateBody) (replay : OriginalResponse)
    (command : FileSetCreateCommand) (manifest : FileManifest) (s : Store) : Except Err PUnit := do
  let createdAt ← corrupt (parseOccurrenceTime replay.originalRequestTimestamp)
  let state ← requireReplayState page replay.responseEtag
    { sectionId := command.sectionId, bookId := some command.bookId, revisionId := body.revisionId
      revisionNumber := 1, updatedAt := some createdAt.utcMicroseconds } s
  let occurredAt ← canonicalUtcWire state.occurredAt
  Fallible.check (replay.responseStatus = 201 ∧ replay.responseLocation = none ∧
    body.sectionId = command.sectionId ∧ body.bookId = command.bookId ∧
    body.occurredAt = occurredAt ∧ body.occurrenceDefaulted = command.occurredAt.isNone ∧
    state.title = command.title ∧ body.snapshotSha256 = hex manifest.snapshotSha256 ∧
    body.files = manifest.summaries) .archiveReplayCorrupt

/-- The response of a file-set create. -/
def createResponse (page : Page) (manifest : FileManifest) (command : FileSetCreateCommand)
    (operationAt : ℤ) : Except Err OriginalResponse := do
  let occurredAt ← canonicalUtcWire page.occurredAt
  let etag ← pageCurrentEtag page.key.pageUid page.currentRevisionId 1 page.occurredAt page.updatedAt
  let timestamp ← canonicalUtcWire operationAt
  pure
    { responseStatus := 201
      responseBody := .create
        { sectionId := page.sectionId
          bookId := page.bookId
          pageId := page.pageId
          revisionId := page.currentRevisionId
          revisionNumber := 1
          occurredAt := occurredAt
          occurrenceDefaulted := command.occurredAt.isNone
          snapshotSha256 := hex manifest.snapshotSha256
          files := manifest.summaries }
      responseLocation := none
      responseEtag := etag
      originalRequestId := command.requestId
      originalRequestTimestamp := timestamp }

/-- The answer to a create whose key already holds a response. -/
def replayFileSetCreate (tokenValue : Text) (caller : TransactionValidatedCaller)
    (request : IdempotencyRequest) (stored : IdempotencyRecord) (command : FileSetCreateCommand)
    (manifest : FileManifest) (operationAt : ℤ) : Write ServiceResult := do
  let body ← attempt (stored.response.createBody .authorization)
  let page ← query fun s =>
    (archivePage command.libraryId body.pageId s).mapError fun _ => .authorization
  let _ ← authorizeContent tokenValue command.libraryId page.sectionId .archiveWrite operationAt
  let replay ← query (lookupReplay caller request)
  let replay ← orThrow replay .archiveReplayCorrupt
  let _ ← query (validateCreateReplay page body replay command manifest)
  pure ⟨replay, true⟩

/-- The create that no kept response answers. -/
def createFileSetFresh (tokenValue : Text) (caller : TransactionValidatedCaller)
    (request : IdempotencyRequest) (command : FileSetCreateCommand) (manifest : FileManifest)
    (operationAt : ℤ) (fresh : Fresh) : Write ServiceResult := do
  let a ← authorizeContent tokenValue command.libraryId command.sectionId .archiveWrite operationAt
  let book ← query fun s => Fallible.get (getBook command.libraryId command.bookId s)
    .archiveNotFound
  require (book.sectionId = command.sectionId) .archiveNotFound
  let replay ← query (lookupReplay caller request)
  require (replay = none) .archiveReplayCorrupt
  let page ← createFileSetPage book command.title (command.occurredAt.getD operationAt) operationAt
    manifest command.source command.primaryFile fresh
  insertAuditEvent (auditOf fresh page.key.libraryId a "content.page.file_set.create" "page"
    page.pageId command.requestId operationAt)
  let response ← attempt (createResponse page manifest command operationAt)
  let _ ← recordSuccess caller request response
  pure ⟨response, false⟩

/-- Create directly from a complete snapshot, or replay an exact request. -/
def createFileSet (tokenValue : Text) (command : FileSetCreateCommand) (keyDigest : Bytes)
    (clock : ℤ) (fresh : Fresh) : Write ServiceResult := do
  let manifest ← attempt (buildFileManifest command.files)
  let _ ← attempt (presentationFor manifest command.primaryFile)
  let operationAt ← attempt (operationTime clock .validation)
  let a ← authenticate tokenValue operationAt
  let caller := validatedCaller command.libraryId a
  let request : IdempotencyRequest :=
    ⟨"POST", fileSetCreateRouteTemplate, keyDigest, fileSetCreateFingerprint command manifest⟩
  let stored ← query fun s => pure (getIdempotencyRecord caller request s)
  match stored with
  | some stored =>
    replayFileSetCreate tokenValue caller request stored command manifest operationAt
  | none => createFileSetFresh tokenValue caller request command manifest operationAt fresh

end PatchouliLib
