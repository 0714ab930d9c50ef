import PatchouliLib.Content.FileSetService

/-!
# Moves of Pages

A Page moves to another Book of its Library without a new Revision.  The plan of
a move is prepared first; applying it inserts a guard and updates the Page row,
and the triggers turn the guard into the event.  A move to the Book the Page is
in already is an exact no-op.

## Main definitions

* `preparePageMove`, `applyPageMove` — the core.
* `validateCallerMoveReceipt` — the proof of a kept move.
* `movePage` — the service of a caller.
-/

namespace PatchouliLib

open Foundation

variable [Platform]

/-! ### The core -/

structure PageMovePlan where
  page : Page
  targetSectionId : Id
  targetBookId : Id
  updatedAt : ℤ
  sequence : Option ℕ

def PageMovePlan.changed (plan : PageMovePlan) : Bool := plan.sequence.isSome

/-- What a move asks for. -/
structure PageMoveCommand where
  libraryId : Id
  pageId : Text
  sourceSectionId : Id
  sourceBookId : Id
  targetSectionId : Id
  targetBookId : Id
  expectedEtag : Text
  requestId : Text

def preparePageMove (command : PageMoveCommand) (operationAt : ℤ) (s : Store) :
    Except Err PageMovePlan := do
  let page ← Fallible.get (← getPage command.libraryId command.pageId s) .pageMoveNotFound
  Fallible.check (page.pageId = command.pageId ∧ page.deletedAt = none ∧
    page.sectionId = command.sourceSectionId ∧ page.bookId = command.sourceBookId)
    .pageMoveNotFound
  let expected ← page.etag
  Fallible.check (expected = command.expectedEtag) .fileSetPreconditionFailed
  Fallible.check (s.hasBook command.libraryId command.targetSectionId command.targetBookId = true)
    .pageMoveNotFound
  Fallible.check (0 ≤ operationAt) .validation
  let _ ← canonicalUtcWire operationAt
  if command.sourceSectionId = command.targetSectionId ∧
      command.sourceBookId = command.targetBookId then do
    let _ ← canonicalUtcWire page.updatedAt
    pure ⟨page, command.targetSectionId, command.targetBookId, page.updatedAt, none⟩
  else do
    let updatedAt := max operationAt (page.updatedAt + 1)
    let _ ← canonicalUtcWire updatedAt
    pure ⟨page, command.targetSectionId, command.targetBookId, updatedAt,
      some (nextSequence ((s.history.moveEvents.filter (·.page = page.key)).map (·.sequence)))⟩

/-- The guard that a changed plan inserts. -/
def PageMovePlan.guard (plan : PageMovePlan) (sequence : ℕ) (audit : MoveAudit) : PageMoveEvent :=
  ⟨plan.page.key, sequence, plan.page.sectionId, plan.page.bookId, plan.targetSectionId,
    plan.targetBookId, plan.page.updatedAt, plan.updatedAt, plan.page.currentRevisionId,
    plan.page.currentRevisionNumber, plan.page.occurredAt, audit⟩

/-- Move the Page under the audit row that the plan needs. -/
def applyPageMove (plan : PageMovePlan) (audit : Option MoveAudit) : Write PUnit :=
  match plan.sequence, audit with
  | none, none => pure ⟨⟩
  | none, some _ => raise .validation
  | some _, none => raise .validation
  | some sequence, some audit => do
    insertMoveGuard (plan.guard sequence audit)
    let matched ← updatePageWhere plan.page.key
      (fun p => p.sectionId = plan.page.sectionId ∧ p.bookId = plan.page.bookId ∧
        p.updatedAt = plan.page.updatedAt ∧ p.deletedAt = none)
      (·.moved plan.targetSectionId plan.targetBookId plan.updatedAt)
    require (matched = true) .fileSetPreconditionFailed
    constraint fun s => ∀ g ∈ s.history.moveGuards, g.page ≠ plan.page.key

/-! ### Receipts -/

def pageMoveRouteTemplate : Text := "/api/v1/libraries/{library_id}/pages/{page_id}/move"

def moveFingerprint (command : PageMoveCommand) : Bytes :=
  digestRequestFingerprint [utf8Encode "caller-page-move-v1", utf8Encode (Json.dumps true (.obj
    [("expected_etag", .str command.expectedEtag), ("library_id", .str command.libraryId),
      ("page_id", .str command.pageId), ("source_book_id", .str command.sourceBookId),
      ("source_section_id", .str command.sourceSectionId),
      ("target_book_id", .str command.targetBookId),
      ("target_section_id", .str command.targetSectionId)]))]

/-- The key of a move, scoped by the home Library of the caller. -/
def callerMoveKeyDigest (keyDigest : Bytes) (homeLibraryId : Id) : Bytes :=
  digestRequestFingerprint [utf8Encode "caller-page-move-key-v1", keyDigest,
    utf8Encode homeLibraryId]

/-- The UID behind a public identifier. -/
def registeredPageUid (libraryId : Id) (pageId : Text) (s : Store) : Except Err Bytes := do
  let digest ← pageIdRegistryDigest pageId
  let row ← Fallible.get (s.content.pageIdentifierRegistry.find? fun i =>
    i.libraryId = libraryId ∧ i.identifierDigest = digest ∧ i.identifierText = pageId) .validation
  pure row.pageUid

/-- The body of a Page move. -/
def OriginalResponse.moveBody (response : OriginalResponse) : Except Err PageMoveBody :=
  match response.responseBody with
  | .move body => .ok body
  | _ => .error .validation

/-- The command that a kept move answers. -/
def PageMoveBody.command (body : PageMoveBody) (requestId : Text) : PageMoveCommand :=
  ⟨body.libraryId, body.pageId, body.sourceSectionId, body.sourceBookId, body.targetSectionId,
    body.targetBookId, body.requestEtag, requestId⟩

/-- The route, status and fingerprint of a kept move. -/
def MoveRecordAgrees (record : IdempotencyRecord) (body : PageMoveBody) : Prop :=
  record.request.method = "POST" ∧ record.request.routeTemplate = pageMoveRouteTemplate ∧
    record.response.responseStatus = 200 ∧ record.response.responseLocation = none ∧
    body.libraryId = record.caller.libraryId ∧
    moveFingerprint (body.command record.response.originalRequestId) =
      record.request.requestFingerprint

instance (record : IdempotencyRecord) (body : PageMoveBody) :
    Decidable (MoveRecordAgrees record body) := by
  unfold MoveRecordAgrees
  infer_instance

/-- The two states of a kept move. -/
def MoveStatesAgree (body : PageMoveBody) (occurredAt : ℤ) (source result : PageState) : Prop :=
  source.deletedAt = none ∧ result.deletedAt = none ∧
    source.sectionId = body.sourceSectionId ∧ source.bookId = body.sourceBookId ∧
    result.sectionId = body.targetSectionId ∧ result.bookId = body.targetBookId ∧
    source.revisionId = result.revisionId ∧ result.revisionId = body.revisionId ∧
    source.revisionNumber = result.revisionNumber ∧ result.revisionNumber = body.revisionNumber ∧
    source.occurredAt = result.occurredAt ∧ source.occurredAt = occurredAt ∧
    source.title = result.title

instance (body : PageMoveBody) (occurredAt : ℤ) (source result : PageState) :
    Decidable (MoveStatesAgree body occurredAt source result) := by
  unfold MoveStatesAgree
  infer_instance

/-- The event, and the audit row of the caller behind it. -/
def callerMoveEvents (page : PageKey) (changedAt : ℤ) (s : Store) :
    List (PageMoveEvent × AuditEvent) :=
  (s.history.moveEvents.filter fun e => e.page = page ∧ e.changedAt = changedAt).flatMap fun e =>
    match e.audit with
    | .master _ => []
    | .caller auditEventId =>
      (s.audit.authAuditEvents.filter (·.id = auditEventId)).map fun a => (e, a)

/-- The joined event and audit row are those of the kept move. -/
def MoveEventAgrees (record : IdempotencyRecord) (body : PageMoveBody) (source result : PageState)
    (row : PageMoveEvent × AuditEvent) : Prop :=
  let (e, a) := row
  e.oldSectionId = body.sourceSectionId ∧ e.oldBookId = body.sourceBookId ∧
    e.newSectionId = body.targetSectionId ∧ e.newBookId = body.targetBookId ∧
    e.oldUpdatedAt = source.updatedAt ∧ e.atRevisionId = body.revisionId ∧
    e.atRevisionNumber = body.revisionNumber ∧ e.occurredAtAtEvent = source.occurredAt ∧
    a.libraryId = record.caller.libraryId ∧
    a.actorHomeLibraryId = record.caller.actorHomeLibraryId ∧
    a.actorCallerId = record.caller.callerId ∧ a.action = "content.page.move" ∧
    a.resourceType = "page" ∧ a.resourceId = body.pageId ∧
    a.requestId = record.response.originalRequestId ∧ a.occurredAt = result.updatedAt

instance (record : IdempotencyRecord) (body : PageMoveBody) (source result : PageState)
    (row : PageMoveEvent × AuditEvent) :
    Decidable (MoveEventAgrees record body source result row) := by
  unfold MoveEventAgrees
  infer_instance

/-- Prove a kept move against the history of its Page. -/
def validateCallerMoveReceipt (record : IdempotencyRecord) (s : Store) :
    Except Err PageMoveBody := do
  let body ← record.response.moveBody
  let pageUid ← registeredPageUid record.caller.libraryId body.pageId s
  let timeline ← loadPageStateTimeline ⟨record.caller.libraryId, pageUid⟩ s
  let originalUpdatedAt ← parseOccurrenceTime body.originalUpdatedAt
  let source ← timeline.exactState originalUpdatedAt.utcMicroseconds
  let updatedAt ← parseOccurrenceTime body.updatedAt
  let result ← timeline.exactState updatedAt.utcMicroseconds
  let occurredAt ← parseOccurrenceTime body.occurredAt
  Fallible.check (MoveRecordAgrees record body ∧ timeline.pageId = body.pageId ∧
    MoveStatesAgree body occurredAt.utcMicroseconds source result) .validation
  let requestEtag ← source.etag pageUid
  let responseEtag ← result.etag pageUid
  Fallible.check (body.requestEtag = requestEtag ∧ record.response.responseEtag = responseEtag)
    .validation
  if body.changed then
    match callerMoveEvents ⟨record.caller.libraryId, pageUid⟩ result.updatedAt s with
    | [row] =>
      Fallible.check (MoveEventAgrees record body source result row ∧
        source.updatedAt < result.updatedAt) .validation
    | _ => .error .validation
  else Fallible.check (source = result) .validation
  pure body

/-- Any failure of a receipt. -/
def requireReceipt {α : Type} (validate : Store → Except Err α) : Write PUnit := do
  let _ ← query fun s => corrupt (validate s)
  pure ⟨⟩

/-! ### The service -/

/-- A reading of the clock in the time checks of the Library routes. -/
def libraryOperationTime (clock : ℤ) : Except Err ℤ := operationTime clock .validation

/-- The response of a move. -/
def moveResponse (command : PageMoveCommand) (plan : PageMovePlan) (now : ℤ) :
    Except Err OriginalResponse := do
  let page := plan.page
  let occurredAt ← canonicalUtcWire page.occurredAt
  let originalUpdatedAt ← canonicalUtcWire page.updatedAt
  let updatedAt ← canonicalUtcWire plan.updatedAt
  let etag ← pageCurrentEtag page.key.pageUid page.currentRevisionId page.currentRevisionNumber
    page.occurredAt plan.updatedAt
  let timestamp ← canonicalUtcWire now
  pure
    { responseStatus := 200
      responseBody := .move
        { changed := plan.changed
          libraryId := command.libraryId
          pageId := command.pageId
          sourceSectionId := command.sourceSectionId
          sourceBookId := command.sourceBookId
          targetSectionId := command.targetSectionId
          targetBookId := command.targetBookId
          revisionId := page.currentRevisionId
          revisionNumber := page.currentRevisionNumber
          occurredAt := occurredAt
          originalUpdatedAt := originalUpdatedAt
          updatedAt := updatedAt
          requestEtag := command.expectedEtag }
      responseLocation := none
      responseEtag := etag
      originalRequestId := command.requestId
      originalRequestTimestamp := timestamp }

/-- A changed plan leaves an audit row. -/
def auditMove (plan : PageMovePlan) (audit : AuditEvent) : Write (Option MoveAudit) :=
  if plan.changed then do
    insertAuditEvent audit
    pure (some (.caller audit.id))
  else pure none

/-- The move that no kept response answers. -/
def movePageFresh (a : AuthenticatedCaller) (caller : TransactionValidatedCaller)
    (request : IdempotencyRequest) (command : PageMoveCommand) (now : ℤ) (fresh : Fresh) :
    Write ServiceResult := do
  let plan ← query (preparePageMove command now)
  let audit ← auditMove plan (auditOf fresh command.libraryId a "content.page.move" "page"
    command.pageId command.requestId plan.updatedAt)
  applyPageMove plan audit
  let response ← attempt (moveResponse command plan now)
  let record ← recordSuccess caller request response
  requireReceipt (validateCallerMoveReceipt record)
  pure ⟨response, false⟩

/-- Move one Page of a Library the caller may write. -/
def movePage (tokenValue : Text) (command : PageMoveCommand) (keyDigest : Bytes) (clock : ℤ)
    (fresh : Fresh) : Write ServiceResult := do
  let now ← attempt (libraryOperationTime clock)
  let a ← authorizePageMove tokenValue command.libraryId now
  let caller := validatedCaller command.libraryId a
  let request : IdempotencyRequest :=
    ⟨"POST", pageMoveRouteTemplate, callerMoveKeyDigest keyDigest caller.actorHomeLibraryId,
      moveFingerprint command⟩
  let replay ← query (lookupReplay caller request)
  match replay with
  | some replay => do
    let record ← query fun s => Fallible.get (getIdempotencyRecord caller request s) .runtime
    requireReceipt (validateCallerMoveReceipt record)
    pure ⟨replay, true⟩
  | none => movePageFresh a caller request command now fresh

end PatchouliLib
