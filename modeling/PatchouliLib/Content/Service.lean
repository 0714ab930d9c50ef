import PatchouliLib.Auth.Service
import PatchouliLib.Content.PageMembershipHistory
import PatchouliLib.Idempotency.Service

/-!
# The Archive service

Authorized writes of Markdown Pages: create, append, correct the declared time,
delete and restore.  Each runs inside the caller's write transaction, keeps its
response under the idempotency key, and answers a repeated request with the kept
response after proving it against the state timeline of the Page.

## Main definitions

* `requireReplayState` — the historical state a kept response speaks about.
* `createArchive`, `appendRevision`, `correctArchiveOccurrence`,
  `transitionArchiveLifecycle`, `restorePageAsOperator` — the operations.
-/

namespace PatchouliLib

open Foundation

variable [Platform]

def createRouteTemplate : Text := "/api/v1/sections/{section_id}/books/{book_id}/pages"
def reviseRouteTemplate : Text := "/api/v1/sections/{section_id}/pages/{page_id}/revisions"
def correctOccurrenceRouteTemplate : Text :=
  "/api/v1/sections/{section_id}/pages/{page_id}/occurrence"
def deletePageRouteTemplate : Text := "/api/v1/sections/{section_id}/pages/{page_id}"
def restorePageRouteTemplate : Text := "/api/v1/sections/{section_id}/pages/{page_id}/restore"

/-- What the identifier factories hand out during one operation. -/
structure Fresh where
  sourceId : Id := []
  auditId : Id := []
  pageUids : List Bytes := []
  revisionIds : List Text := []

/-! ### Commands -/

structure CreateArchiveCommand where
  libraryId : Id
  sectionId : Id
  bookId : Id
  title : Text
  occurredAt : Option ℤ
  contentMd : Bytes
  source : ArchiveSourceInput
  requestId : Text

structure AppendArchiveRevisionCommand where
  libraryId : Id
  sectionId : Id
  pageId : Text
  expectedEtag : Option Text
  source : ArchiveSourceInput
  contentMd : Bytes
  requestId : Text

structure CorrectArchiveOccurrenceCommand where
  libraryId : Id
  sectionId : Id
  pageId : Text
  expectedEtag : Text
  occurredAt : ℤ
  requestId : Text

structure ArchiveLifecycleCommand where
  libraryId : Id
  sectionId : Id
  pageId : Text
  expectedEtag : Text
  requestId : Text

/-! ### Fingerprints -/

def jsonSource (source : ArchiveSourceInput) : Json :=
  .obj [("captured_at", .ofOption .num source.capturedAt), ("kind", .str source.kind),
    ("locator", .ofOption .str source.locator)]

def createFingerprint (command : CreateArchiveCommand) : Bytes :=
  digestRequestFingerprint [utf8Encode (Json.dumps false (.obj
    [("book_id", .str command.bookId), ("library_id", .str command.libraryId),
      ("occurred_at", .ofOption .num command.occurredAt), ("operation", .str "archive-create-v1"),
      ("section_id", .str command.sectionId), ("source", jsonSource command.source),
      ("title", .str command.title)])), command.contentMd]

def revisionFingerprint (command : AppendArchiveRevisionCommand) : Bytes :=
  digestRequestFingerprint [utf8Encode (Json.dumps false (.obj
    [("expected_etag", .ofOption .str command.expectedEtag),
      ("library_id", .str command.libraryId), ("operation", .str "archive-revise-v1"),
      ("page_id", .str command.pageId), ("section_id", .str command.sectionId),
      ("source", jsonSource command.source)])), command.contentMd]

def occurrenceFingerprint (command : CorrectArchiveOccurrenceCommand) : Bytes :=
  digestRequestFingerprint [utf8Encode (Json.dumps false (.obj
    [("expected_etag", .str command.expectedEtag), ("library_id", .str command.libraryId),
      ("occurred_at", .num command.occurredAt),
      ("operation", .str "archive-correct-occurrence-v1"), ("page_id", .str command.pageId),
      ("section_id", .str command.sectionId)]))]

def LifecycleAction.text : LifecycleAction → Text
  | .delete => "delete"
  | .restore => "restore"

def archiveLifecycleFingerprint (command : ArchiveLifecycleCommand) (action : LifecycleAction) :
    Bytes :=
  digestRequestFingerprint [utf8Encode (Json.dumps false (.obj
    [("expected_etag", .str command.expectedEtag), ("library_id", .str command.libraryId),
      ("operation", .str ("archive-" ++ action.text ++ "-v1")), ("page_id", .str command.pageId),
      ("section_id", .str command.sectionId)]))]

/-! ### Paths and responses -/

/-- One canonical, unescaped relative API v1 path. -/
def apiV1Path (segments : List Text) : Text := "/api/v1" ++ segments.flatMap ('/' :: ·)

def pagePath (sectionId : Id) (pageId : Text) : Text :=
  apiV1Path ["sections", sectionId, "pages", pageId]

def revisionPath (sectionId : Id) (pageId : Text) (revisionNumber : ℕ) : Text :=
  apiV1Path ["sections", sectionId, "pages", pageId, "revisions", Nat.toDigits 10 revisionNumber]

/-- The citation of a Revision of a Page. -/
def Page.citation (page : Page) (revisionId : Text) (revisionNumber : ℕ) : ArchiveCitation :=
  ⟨page.sectionId, page.pageId, revisionId, revisionNumber,
    revisionPath page.sectionId page.pageId revisionNumber⟩

/-- The response of an Archive create or append. -/
def freshResponse (page : Page) (revision : Revision) (requestId : Text) (revisionLocation : Bool)
    (occurrenceDefaulted : Bool) : Except Err OriginalResponse := do
  let key := revision.key
  let citation := page.citation key.revisionId key.revisionNumber
  let occurredAt ← canonicalUtcWire page.occurredAt
  let createdAt ← canonicalUtcWire revision.createdAt
  let content ← Fallible.get (revision.contentMd.bind utf8Decode) .validation
  let etag ← pageCurrentEtag page.key.pageUid key.revisionId key.revisionNumber page.occurredAt
    page.updatedAt
  pure
    { responseStatus := 201
      responseBody := .archive
        { page := ⟨page.sectionId, page.bookId, page.pageId, page.title, occurredAt,
            key.revisionId, key.revisionNumber⟩
          revision := ⟨page.pageId, key.revisionId, key.revisionNumber, createdAt,
            hex (revision.contentSha256.getD []), content⟩
          citation := citation
          occurrenceNotice := occurrenceDefaulted }
      responseLocation := some
        (if revisionLocation then citation.href else pagePath page.sectionId page.pageId)
      responseEtag := etag
      originalRequestId := requestId
      originalRequestTimestamp := createdAt }

/-! ### Replays -/

def legacyPageEtagDomain : Bytes := utf8Encode "patchouli-lib/page-current-etag/v1" ++ [0]

/-- The v1 validator of historical responses. -/
def legacyPageCurrentEtag (pageUid : Bytes) (revisionId : Text) (revisionNumber : ℕ) :
    Except Err Text := do
  let pageUid ← validatePageUid pageUid
  let revisionId ← validateRevisionId revisionId
  Fallible.check (IsRevisionNumber revisionNumber) .validation
  pure ('"' :: "page-v1-" ++ hex (sha256 (legacyPageEtagDomain ++ pageUid ++ utf8Encode revisionId ++
    bigEndian 8 revisionNumber)) ++ ['"'])

/-- Any failure to prove a replay. -/
def corrupt {α : Type} (x : Except Err α) : Except Err α := x.mapError fun _ => .archiveReplayCorrupt

/-- What a replay claims about the state it speaks of. -/
structure ReplayClaim where
  sectionId : Id
  revisionId : Text
  revisionNumber : ℕ
  updatedAt : Option ℤ := none
  bookId : Option Id := none
  active : Bool := true
  allowLegacyEtag : Bool := false

/-- Prove one complete historical state, not a path that merely once existed. -/
def requireReplayState (page : Page) (responseEtag : Text) (claim : ReplayClaim) (s : Store) :
    Except Err PageState := do
  let timeline ← corrupt (loadPageStateTimeline page.key s)
  match claim.updatedAt with
  | none => corrupt (timeline.matchActiveEtag claim.revisionId claim.revisionNumber responseEtag
      claim.sectionId claim.bookId)
  | some updatedAt => do
    let state ← corrupt (timeline.exactState updatedAt)
    let etag ← state.etag page.key.pageUid
    let legacy ← legacyPageCurrentEtag page.key.pageUid state.revisionId state.revisionNumber
    Fallible.check (state.sectionId = claim.sectionId ∧ (∀ b ∈ claim.bookId, state.bookId = b) ∧
      state.revisionId = claim.revisionId ∧ state.revisionNumber = claim.revisionNumber ∧
      (state.deletedAt = none ↔ claim.active = true) ∧
      (responseEtag = etag ∨ (claim.allowLegacyEtag = true ∧ responseEtag = legacy)))
      .archiveReplayCorrupt
    pure state

/-- The body of an Archive create or append. -/
def OriginalResponse.archiveBody (response : OriginalResponse) (e : Err) :
    Except Err ArchiveResponseBody :=
  match response.responseBody with
  | .archive body => .ok body
  | _ => .error e

/-- The body agrees with the state, the stored Revision and the route. -/
def ArchiveReplayAgrees (page : Page) (body : ArchiveResponseBody) (replay : OriginalResponse)
    (state : PageState) (revision : Revision) (sectionId : Id) (revisionLocation : Bool) : Prop :=
  let href := revisionPath sectionId page.pageId body.revision.revisionNumber
  body.page.pageId = page.pageId ∧ body.page.sectionId = sectionId ∧
    body.page.title = state.title ∧ canonicalUtcWire state.occurredAt = .ok body.page.occurredAt ∧
    body.revision.revisionId = revision.key.revisionId ∧
    some (utf8Encode body.revision.content) = revision.contentMd ∧
    body.revision.contentSha256 = hex (revision.contentSha256.getD []) ∧
    replay.responseStatus = 201 ∧ replay.originalRequestTimestamp = body.revision.createdAt ∧
    body.citation.href = href ∧
    replay.responseLocation =
      some (if revisionLocation then href else pagePath sectionId page.pageId)

instance (page : Page) (body : ArchiveResponseBody) (replay : OriginalResponse) (state : PageState)
    (revision : Revision) (sectionId : Id) (revisionLocation : Bool) :
    Decidable (ArchiveReplayAgrees page body replay state revision sectionId revisionLocation) := by
  have (u : ℤ) (t : Text) : Decidable (canonicalUtcWire u = .ok t) :=
    decidable_of_iff _ canonicalUtcWire_ok.symm
  unfold ArchiveReplayAgrees
  infer_instance

def validateArchiveReplay (page : Page) (body : ArchiveResponseBody) (replay : OriginalResponse)
    (sectionId : Id) (revisionLocation : Bool) (s : Store) : Except Err PUnit := do
  let createdAt ← parseOccurrenceTime body.revision.createdAt
  let state ← requireReplayState page replay.responseEtag
    { sectionId := sectionId, bookId := some body.page.bookId
      revisionId := body.revision.revisionId, revisionNumber := body.revision.revisionNumber
      updatedAt := some createdAt.utcMicroseconds, allowLegacyEtag := true } s
  let revision ← Fallible.get (getRevision page.key body.revision.revisionNumber s)
    .archiveReplayCorrupt
  Fallible.check
    (ArchiveReplayAgrees page body replay state revision sectionId revisionLocation)
    .archiveReplayCorrupt

/-- The status, location and citation of a metadata response. -/
def validateMetadataReplay (page : Page) (replay : OriginalResponse) (citation : ArchiveCitation)
    (sectionId : Id) : Except Err PUnit :=
  Fallible.check (replay.responseStatus = 200 ∧
    replay.responseLocation = some (pagePath sectionId page.pageId) ∧
    citation.href = revisionPath sectionId page.pageId citation.revisionNumber)
    .archiveReplayCorrupt

/-! ### Allocation -/

/-- A clock reading that can be spelled. -/
def operationTime (clock : ℤ) (e : Err) : Except Err ℤ := do
  Fallible.check (0 ≤ clock) e
  let _ ← (canonicalUtcWire clock).mapError fun _ => e
  pure clock

/-- The first of the ordinals whose identifier is free. -/
def firstFreeOrdinal (exhausted : Err) (libraryId : Id) (occurrence : OccurrenceTime)
    (title : Text) (s : Store) : List ℕ → Except Err GeneratedPageId
  | [] => .error exhausted
  | ordinal :: ordinals => do
    let candidate ← generatePageId occurrence title ordinal
    if ← identifierExists libraryId candidate.value s then
      firstFreeOrdinal exhausted libraryId occurrence title s ordinals
    else pure candidate

/-- Advance the counter until the identifier of its ordinal is free. -/
def advanceUntilFree (exhausted stale : Err) (libraryId : Id) (occurrence : OccurrenceTime)
    (title : Text) : ℕ → PageIdCollisionCounter → Write GeneratedPageId
  | 0, _ => raise exhausted
  | attempts + 1, counter => do
    require (counter.nextOrdinal ≤ maxCollisionOrdinal) exhausted
    let matched ← updatePageIdCollisionCounter counter (counter.nextOrdinal + 1)
    require (matched = true) stale
    let candidate ← attempt (generatePageId occurrence title counter.nextOrdinal)
    let taken ← query (identifierExists libraryId candidate.value)
    if taken then
      advanceUntilFree exhausted stale libraryId occurrence title attempts
        { counter with nextOrdinal := counter.nextOrdinal + 1 }
    else pure candidate

/-- Allocate a Page identifier and keep its collision counter.  The two services
that create Pages differ only in the errors they raise. -/
def allocatePageId (exhausted stale : Err) (libraryId : Id) (title : Text) (occurredAt : ℤ) :
    Write GeneratedPageId := do
  let canonicalUtc ← attempt (canonicalUtcWire occurredAt)
  let occurrence : OccurrenceTime := ⟨occurredAt, canonicalUtc⟩
  let base ← attempt (generatePageId occurrence title 1)
  let floor := occurredAt / 1000 * 1000
  let counter ← query fun s => pure (s.content.pageIdCollisionCounters.find? fun c =>
    c.libraryId = libraryId ∧ c.idTimestampMicros = floor ∧ c.baseSlug = base.baseSlug)
  match counter with
  | none => do
    let candidate ← query fun s => firstFreeOrdinal exhausted libraryId occurrence title s
      ((List.range defaultCollisionAttempts).map (· + 1))
    insertPageIdCollisionCounter
      ⟨libraryId, floor, base.baseSlug, candidate.collisionOrdinal + 1⟩
    pure candidate
  | some counter =>
    advanceUntilFree exhausted stale libraryId occurrence title defaultCollisionAttempts counter

def allocatePageUid (exhausted : Err) (libraryId : Id) (candidates : List Bytes) (s : Store) :
    Except Err Bytes :=
  (generateUnique (fun uid => (validatePageUid uid).toBool && !pageUidExists libraryId uid s)
    candidates).mapError fun _ => exhausted

def allocateRevisionId (exhausted : Err) (libraryId : Id) (candidates : List Text) (s : Store) :
    Except Err Text :=
  (generateUnique (fun id => (validateRevisionId id).toBool && !revisionIdExists libraryId id s)
    candidates).mapError fun _ => exhausted

/-- The first row of a Page. -/
def newPageRow (book : Book) (generated : GeneratedPageId) (pageUid : Bytes) (revisionId : Text)
    (title : Text) (occurredAt operationAt : ℤ) : Page where
  key := ⟨book.libraryId, pageUid⟩
  sectionId := book.sectionId
  bookId := book.id
  pageId := generated.value
  idTimestampMicros := occurredAt / 1000 * 1000
  baseSlug := generated.baseSlug
  collisionOrdinal := generated.collisionOrdinal
  title := title
  pageType := "archive"
  occurredAt := occurredAt
  currentRevisionId := revisionId
  currentRevisionNumber := 1
  createdAt := operationAt
  updatedAt := operationAt
  deletedAt := none

/-! ### The operations -/

/-- The live Archive Page of an identifier. -/
def archivePage (libraryId : Id) (pageId : Text) (s : Store) : Except Err Page := do
  let page ← Fallible.get (← getPage libraryId pageId s) .archiveNotFound
  Fallible.check (page.pageType = "archive") .archiveNotFound
  pure page

def validatedCaller (libraryId : Id) (a : AuthenticatedCaller) : TransactionValidatedCaller :=
  ⟨libraryId, a.caller.libraryId, a.caller.id⟩

/-- The audit row of a successful operation of a caller. -/
def auditOf (fresh : Fresh) (libraryId : Id) (a : AuthenticatedCaller)
    (action resourceType resourceId requestId : Text) (occurredAt : ℤ) : AuditEvent where
  id := fresh.auditId
  libraryId := libraryId
  actorHomeLibraryId := a.caller.libraryId
  actorCallerId := a.caller.id
  actorCredentialId := a.credential.id
  sectionId := none
  sectionAction := none
  action := action
  resourceType := resourceType
  resourceId := resourceId
  requestId := requestId
  policyVersionBefore := none
  policyVersionAfter := none
  occurredAt := occurredAt

/-- The rows of a new Markdown Page. -/
def createMarkdownPage (book : Book) (title : Text) (occurredAt operationAt : ℤ)
    (contentMd : Bytes) (source : ArchiveSourceInput) (fresh : Fresh) :
    Write (Page × Revision) := do
  let generated ← allocatePageId .archiveIdentifierExhausted .archivePersistence book.libraryId
    title occurredAt
  let pageUid ← query (allocatePageUid .identifierGeneration book.libraryId fresh.pageUids)
  let revisionId ← query
    (allocateRevisionId .identifierGeneration book.libraryId fresh.revisionIds)
  let page ← addPage (newPageRow book generated pageUid revisionId title occurredAt operationAt)
  let revision ← addRevision (markdownRevision page.currentRevision contentMd operationAt)
  addIdentifier book.libraryId page.pageId pageUid operationAt
  let _ ← addSource ⟨book.libraryId, fresh.sourceId, revision.key, source, operationAt⟩
  pure (page, revision)

/-- Create one Archive Page graph and its replay and audit state atomically. -/
def createArchive (tokenValue : Text) (command : CreateArchiveCommand) (keyDigest : Bytes)
    (clock : ℤ) (fresh : Fresh) : Write ServiceResult := do
  let operationAt ← attempt (operationTime clock .archivePersistence)
  let a ← authenticate tokenValue operationAt
  let caller := validatedCaller command.libraryId a
  let request : IdempotencyRequest :=
    ⟨"POST", createRouteTemplate, keyDigest, createFingerprint command⟩
  let stored ← query fun s => pure (getIdempotencyRecord caller request s)
  match stored with
  | some stored => do
    -- the body is lookup material only until the caller is authorized
    let storedBody ← attempt (stored.response.archiveBody .authorization)
    let page ← query fun s =>
      (archivePage command.libraryId storedBody.page.pageId s).mapError fun _ => .authorization
    let _ ← authorizeContent tokenValue command.libraryId page.sectionId .archiveWrite operationAt
    let replay ← query (lookupReplay caller request)
    let replay ← orThrow replay .archiveReplayCorrupt
    let body ← attempt (replay.archiveBody .archiveReplayCorrupt)
    let _ ← query (validateArchiveReplay page body replay command.sectionId false)
    require (body.page.bookId = command.bookId) .archiveReplayCorrupt
    pure ⟨replay, true⟩
  | none => do
    let book ← query fun s => Fallible.get (getBook command.libraryId command.bookId s)
      .archiveNotFound
    let a ← authorizeContent tokenValue command.libraryId book.sectionId .archiveWrite operationAt
    require (book.sectionId = command.sectionId) .archiveNotFound
    let replay ← query (lookupReplay caller request)
    require (replay = none) .archiveReplayCorrupt
    let (page, revision) ← createMarkdownPage book command.title
      (command.occurredAt.getD operationAt) operationAt command.contentMd command.source fresh
    let response ← attempt
      (freshResponse page revision command.requestId false command.occurredAt.isNone)
    insertAuditEvent (auditOf fresh command.libraryId a "content.archive.create" "page" page.pageId
      command.requestId operationAt)
    let _ ← recordSuccess caller request response
    pure ⟨response, false⟩

/-- The ETag a conditional write carries is the current one. -/
def requireCurrentEtag (page : Page) (expectedEtag : Text) (e : Err) : Write PUnit := do
  let currentEtag ← attempt page.etag
  require (expectedEtag = currentEtag) e

/-- Append one Markdown Revision and advance the Page to it. -/
def appendMarkdownRevision (page : Page) (contentMd : Bytes) (revisionAt : ℤ) (fresh : Fresh) :
    Write (Page × Revision) := do
  let revisionId ← query
    (allocateRevisionId .identifierGeneration page.key.libraryId fresh.revisionIds)
  let revision ← addRevision (markdownRevision
    ⟨page.key, revisionId, page.currentRevisionNumber + 1⟩ contentMd revisionAt)
  let advanced ← advanceCurrentRevision page revision revisionAt
  let advanced ← orThrow advanced .archivePreconditionFailed
  pure (advanced, revision)

/-- The append that no kept response answers. -/
def appendRevisionFresh (page : Page) (a : AuthenticatedCaller)
    (caller : TransactionValidatedCaller) (request : IdempotencyRequest)
    (command : AppendArchiveRevisionCommand) (operationAt : ℤ) (fresh : Fresh) :
    Write ServiceResult := do
  require (page.sectionId = command.sectionId) .archiveNotFound
  require (page.deletedAt = none) .archiveNotFound
  let expectedEtag ← orThrow command.expectedEtag .archivePreconditionRequired
  requireCurrentEtag page expectedEtag .archivePreconditionFailed
  let format ← query (getCurrentRevisionStorageFormat page)
  require (format = .legacyMarkdown) .archiveUnsupportedRevisionFormat
  require (page.currentRevisionNumber < maxRevisionNumber ∧ page.updatedAt < 2 ^ 63 - 1)
    .archivePersistence
  let revisionAt := max operationAt (page.updatedAt + 1)
  let _ ← attempt ((canonicalUtcWire revisionAt).mapError fun _ => .archivePersistence)
  let (advanced, revision) ← appendMarkdownRevision page command.contentMd revisionAt fresh
  let _ ← addSource ⟨command.libraryId, fresh.sourceId, revision.key, command.source, operationAt⟩
  let response ← attempt (freshResponse advanced revision command.requestId true false)
  insertAuditEvent (auditOf fresh command.libraryId a "content.archive.revise" "revision"
    revision.key.revisionId command.requestId operationAt)
  let _ ← recordSuccess caller request response
  pure ⟨response, false⟩

/-- Append exactly one immutable Revision and advance current atomically. -/
def appendRevision (tokenValue : Text) (command : AppendArchiveRevisionCommand)
    (keyDigest : Bytes) (clock : ℤ) (fresh : Fresh) : Write ServiceResult := do
  let page ← query (archivePage command.libraryId command.pageId)
  let operationAt ← attempt (operationTime clock .archivePersistence)
  let a ← authorizeContent tokenValue command.libraryId page.sectionId .archiveWrite operationAt
  let caller := validatedCaller command.libraryId a
  let request : IdempotencyRequest :=
    ⟨"POST", reviseRouteTemplate, keyDigest, revisionFingerprint command⟩
  let replay ← query (lookupReplay caller request)
  match replay with
  | some replay => do
    let body ← attempt (replay.archiveBody .archiveReplayCorrupt)
    let _ ← query (validateArchiveReplay page body replay command.sectionId true)
    pure ⟨replay, true⟩
  | none => appendRevisionFresh page a caller request command operationAt fresh

/-- The body of an occurrence correction. -/
def OriginalResponse.occurrenceBody (response : OriginalResponse) :
    Except Err OccurrenceCorrectionResponseBody :=
  match response.responseBody with
  | .occurrence body => .ok body
  | _ => .error .archiveReplayCorrupt

/-- Prove a kept occurrence correction. -/
def validateOccurrenceReplay (page : Page) (replay : OriginalResponse)
    (command : CorrectArchiveOccurrenceCommand) (s : Store) : Except Err PUnit := do
  let body ← replay.occurrenceBody
  let correctedAt ← corrupt (parseOccurrenceTime replay.originalRequestTimestamp)
  let state ← requireReplayState page replay.responseEtag
    { sectionId := command.sectionId, revisionId := body.currentRevisionId
      revisionNumber := body.currentRevisionNumber
      updatedAt := some correctedAt.utcMicroseconds } s
  let correction ← Fallible.get (s.history.occurrenceCorrections.find? fun c =>
    c.page = page.key ∧ c.correctedAt = correctedAt.utcMicroseconds) .archiveReplayCorrupt
  let previous ← canonicalUtcWire correction.oldOccurredAt
  let occurredAt ← canonicalUtcWire state.occurredAt
  Fallible.check (body.pageId = page.pageId ∧ body.sectionId = command.sectionId ∧
    body.previousOccurredAt = previous ∧ body.occurredAt = occurredAt ∧
    correction.newOccurredAt = command.occurredAt) .archiveReplayCorrupt
  validateMetadataReplay page replay body.citation command.sectionId

/-- The response of an occurrence correction. -/
def occurrenceResponse (page updated : Page) (correctedAt : ℤ) (requestId : Text) :
    Except Err OriginalResponse := do
  let previous ← canonicalUtcWire page.occurredAt
  let occurredAt ← canonicalUtcWire updated.occurredAt
  let etag ← updated.etag
  let timestamp ← canonicalUtcWire correctedAt
  pure
    { responseStatus := 200
      responseBody := .occurrence
        { sectionId := page.sectionId
          pageId := page.pageId
          previousOccurredAt := previous
          occurredAt := occurredAt
          currentRevisionId := page.currentRevisionId
          currentRevisionNumber := page.currentRevisionNumber
          citation := page.citation page.currentRevisionId page.currentRevisionNumber }
      responseLocation := some (pagePath page.sectionId page.pageId)
      responseEtag := etag
      originalRequestId := requestId
      originalRequestTimestamp := timestamp }

/-- The correction that no kept response answers. -/
def correctOccurrenceFresh (page : Page) (a : AuthenticatedCaller)
    (caller : TransactionValidatedCaller) (request : IdempotencyRequest)
    (command : CorrectArchiveOccurrenceCommand) (operationAt : ℤ) (fresh : Fresh) :
    Write ServiceResult := do
  require (page.sectionId = command.sectionId) .archiveNotFound
  require (page.deletedAt = none) .archiveNotFound
  requireCurrentEtag page command.expectedEtag .archivePreconditionFailed
  require (command.occurredAt ≠ page.occurredAt) .archiveOccurrenceUnchanged
  require (page.updatedAt < 2 ^ 63 - 1) .archivePersistence
  let (updated, correction) ← correctOccurrence page page.occurredAt command.occurredAt
    (.caller a.caller.id a.caller.libraryId) operationAt
  let response ← attempt
    (occurrenceResponse page updated correction.correctedAt command.requestId)
  insertAuditEvent (auditOf fresh page.key.libraryId a "content.archive.correct_occurrence" "page"
    page.pageId command.requestId correction.correctedAt)
  let _ ← recordSuccess caller request response
  pure ⟨response, false⟩

/-- Correct one live Archive Page's declared time without a new Revision. -/
def correctArchiveOccurrence (tokenValue : Text) (command : CorrectArchiveOccurrenceCommand)
    (keyDigest : Bytes) (clock : ℤ) (fresh : Fresh) : Write ServiceResult := do
  let page ← query (archivePage command.libraryId command.pageId)
  let operationAt ← attempt (operationTime clock .archivePersistence)
  let a ← authorizeContent tokenValue command.libraryId page.sectionId .archiveWrite operationAt
  let caller := validatedCaller command.libraryId a
  let request : IdempotencyRequest :=
    ⟨"PATCH", correctOccurrenceRouteTemplate, keyDigest, occurrenceFingerprint command⟩
  let replay ← query (lookupReplay caller request)
  match replay with
  | some replay => do
    let _ ← query (validateOccurrenceReplay page replay command)
    pure ⟨replay, true⟩
  | none => correctOccurrenceFresh page a caller request command operationAt fresh

/-- The body of an Archive delete or restore. -/
def OriginalResponse.lifecycleBody (response : OriginalResponse) :
    Except Err PageLifecycleResponseBody :=
  match response.responseBody with
  | .lifecycle body => .ok body
  | _ => .error .archiveReplayCorrupt

/-- Prove a kept delete or restore. -/
def validateLifecycleReplay (page : Page) (replay : OriginalResponse)
    (command : ArchiveLifecycleCommand) (action : LifecycleAction) (s : Store) :
    Except Err PUnit := do
  let body ← replay.lifecycleBody
  let changedAt ← corrupt (parseOccurrenceTime body.updatedAt)
  let state ← requireReplayState page replay.responseEtag
    { sectionId := command.sectionId, revisionId := body.currentRevisionId
      revisionNumber := body.currentRevisionNumber
      updatedAt := some changedAt.utcMicroseconds, active := action = .restore } s
  let event ← Fallible.get (s.history.lifecycleEvents.find? fun e =>
    e.page = page.key ∧ e.changedAt = changedAt.utcMicroseconds) .archiveReplayCorrupt
  let deletedAt ← state.deletedAt.mapM canonicalUtcWire
  Fallible.check (event.action = action ∧ body.pageId = page.pageId ∧
    body.sectionId = command.sectionId ∧ body.state = action.state ∧
    body.deletedAt = deletedAt ∧ replay.originalRequestTimestamp = body.updatedAt)
    .archiveReplayCorrupt
  validateMetadataReplay page replay body.citation command.sectionId

/-- The response of an Archive delete or restore. -/
def lifecycleResponse (page updated : Page) (action : LifecycleAction) (changedAt : ℤ)
    (requestId : Text) : Except Err OriginalResponse := do
  let deletedAt ← updated.deletedAt.mapM canonicalUtcWire
  let updatedAt ← canonicalUtcWire updated.updatedAt
  let etag ← updated.etag
  let timestamp ← canonicalUtcWire changedAt
  pure
    { responseStatus := 200
      responseBody := .lifecycle
        { sectionId := page.sectionId
          pageId := page.pageId
          state := action.state
          deletedAt := deletedAt
          updatedAt := updatedAt
          currentRevisionId := page.currentRevisionId
          currentRevisionNumber := page.currentRevisionNumber
          citation := page.citation page.currentRevisionId page.currentRevisionNumber }
      responseLocation := some (pagePath page.sectionId page.pageId)
      responseEtag := etag
      originalRequestId := requestId
      originalRequestTimestamp := timestamp }

def archiveLifecycleRoute : LifecycleAction → Text × Text
  | .delete => ("DELETE", deletePageRouteTemplate)
  | .restore => ("POST", restorePageRouteTemplate)

/-- The delete or restore that no kept response answers. -/
def transitionLifecycleFresh (page : Page) (a : AuthenticatedCaller)
    (caller : TransactionValidatedCaller) (request : IdempotencyRequest)
    (command : ArchiveLifecycleCommand) (action : LifecycleAction) (operationAt : ℤ)
    (fresh : Fresh) : Write ServiceResult := do
  require (page.sectionId = command.sectionId) .archiveNotFound
  requireCurrentEtag page command.expectedEtag .archivePreconditionFailed
  require (action = .delete ↔ page.deletedAt = none) .archiveLifecycleUnchanged
  require (page.updatedAt < 2 ^ 63 - 1) .archivePersistence
  let (updated, event) ← transitionPageLifecycle page action
    (.caller a.caller.id a.caller.libraryId) command.requestId operationAt
  let response ← attempt
    (lifecycleResponse page updated action event.changedAt command.requestId)
  insertAuditEvent (auditOf fresh page.key.libraryId a action.auditAction "page" page.pageId
    command.requestId event.changedAt)
  let _ ← recordSuccess caller request response
  pure ⟨response, false⟩

/-- `_transition_page_lifecycle_authorized`. -/
def transitionLifecycleAuthorized (page : Page) (a : AuthenticatedCaller)
    (command : ArchiveLifecycleCommand) (keyDigest : Bytes) (action : LifecycleAction)
    (operationAt : ℤ) (fresh : Fresh) : Write ServiceResult := do
  let caller := validatedCaller command.libraryId a
  let (method, route) := archiveLifecycleRoute action
  let request : IdempotencyRequest :=
    ⟨method, route, keyDigest, archiveLifecycleFingerprint command action⟩
  let replay ← query (lookupReplay caller request)
  match replay with
  | some replay => do
    let _ ← query (validateLifecycleReplay page replay command action)
    pure ⟨replay, true⟩
  | none => transitionLifecycleFresh page a caller request command action operationAt fresh

/-- Soft-delete or restore one Archive Page without changing its Revisions. -/
def transitionArchiveLifecycle (tokenValue : Text) (command : ArchiveLifecycleCommand)
    (keyDigest : Bytes) (action : LifecycleAction) (clock : ℤ) (fresh : Fresh) :
    Write ServiceResult := do
  let page ← query (archivePage command.libraryId command.pageId)
  let operationAt ← attempt (operationTime clock .archivePersistence)
  let a ← authorizeContent tokenValue command.libraryId page.sectionId .archiveWrite operationAt
  transitionLifecycleAuthorized page a command keyDigest action operationAt fresh

/-- Restore an Archive Page for the admin UI without broadening Agent API access. -/
def restorePageAsOperator (tokenValue : Text) (command : ArchiveLifecycleCommand)
    (keyDigest : Bytes) (clock : ℤ) (fresh : Fresh) : Write ServiceResult := do
  let operationAt ← attempt (operationTime clock .archivePersistence)
  let a ← requireOperator tokenValue command.libraryId operationAt
  let page ← query (archivePage command.libraryId command.pageId)
  transitionLifecycleAuthorized page a command keyDigest .restore operationAt fresh

end PatchouliLib
