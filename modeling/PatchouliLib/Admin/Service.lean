import PatchouliLib.Content.PageMove

/-!
# The administrator's changes to a Page

The master identity deletes, restores, renames, redates and moves a Page.  Every
change is recorded under a master audit row, which is written before the change
so that the triggers can point at it.

## Main definitions

* `requireMasterSession` — the admission of every operation.
* `changePageLifecycleAsMaster`, `updatePageTitleAsMaster`,
  `correctPageOccurrenceAsMaster` — the changes of metadata.
* `movePageAsMaster`, `validateMasterMoveReceipt` — the move and its receipt.
-/

namespace PatchouliLib

open Foundation

variable [Platform]

/-! ### Sessions and audit rows -/

structure MasterAdminSession where
  identityId : Id
  sessionGeneration : ℕ
  expiresAt : ℤ
  auditFingerprint : Bytes

/-- `MasterTokenRepository.is_session_generation_current`. -/
def isGenerationCurrent (identityId : Id) (generation : ℕ) (s : Store) : Bool :=
  1 ≤ generation && s.auth.masterIdentity.any fun m =>
    m.identityId = identityId && m.sessionGeneration = generation

def isSessionGenerationCurrent (session : MasterAdminSession) (s : Store) : Bool :=
  isGenerationCurrent session.identityId session.sessionGeneration s

/-- The session has not expired and is of the current generation. -/
def requireMasterSession (session : MasterAdminSession) (time : ℤ) : Write PUnit := do
  let current ← query fun s => pure (isSessionGenerationCurrent session s)
  require (time < session.expiresAt ∧ current = true) .authentication

theorem requireMasterSession_ok {session : MasterAdminSession} {time : ℤ}
    {c c' : Connection} {w : PUnit} : requireMasterSession session time c = .ok (w, c') ↔
      (time < session.expiresAt ∧ isSessionGenerationCurrent session c.store = true) ∧ c = c' := by
  simp only [requireMasterSession, query_bind, require_ok]

omit [Platform] in
theorem requireMasterSession_error {session : MasterAdminSession} {time : ℤ} {c : Connection}
    (h : ¬(time < session.expiresAt ∧ isSessionGenerationCurrent session c.store = true)) :
    requireMasterSession session time c = .error .authentication := by
  rw [requireMasterSession, query_bind]
  exact require_error h _ _

/-- `MasterAuditRepository.add_success`. -/
def addMasterSuccess (session : MasterAdminSession) (eventId : Id)
    (action targetType targetId : Text) (occurredAt : ℤ) : Write PUnit :=
  insertMasterAuditEvent ⟨eventId, session.identityId, session.sessionGeneration,
    session.auditFingerprint, action, targetType, targetId, occurredAt⟩

/-- The time of a change: the clock, or just after the last change. -/
def changeTime (page : Page) (clock : ℤ) (e : Err) : Except Err ℤ := do
  let changedAt := max clock (page.updatedAt + 1)
  let _ ← (canonicalUtcWire changedAt).mapError fun _ => e
  pure changedAt

/-! ### Delete and restore -/

structure MasterLifecycleRequest where
  libraryId : Id
  sectionId : Id
  bookId : Option Id
  pageId : Text
  expectedEtag : Text
  requestId : Text

def changePageLifecycleAsMaster (session : MasterAdminSession) (time : ℤ)
    (request : MasterLifecycleRequest) (action : LifecycleAction) (clock : ℤ) (fresh : Fresh) :
    Write Text := do
  requireMasterSession session time
  let page ← query (archivePage request.libraryId request.pageId)
  require (page.sectionId = request.sectionId ∧ ∀ b ∈ request.bookId, page.bookId = b)
    .archiveNotFound
  requireCurrentEtag page request.expectedEtag .archivePreconditionFailed
  require (action = .delete ↔ page.deletedAt = none) .archiveLifecycleUnchanged
  require (page.updatedAt < 2 ^ 63 - 1) .archivePersistence
  let changedAt ← attempt (changeTime page clock .archivePersistence)
  addMasterSuccess session fresh.auditId action.auditAction "page" page.key.target changedAt
  let (updated, _) ← transitionPageLifecycle page action (.master fresh.auditId) request.requestId
    changedAt
  attempt updated.etag

/-! ### Title -/

structure MasterTitleRequest where
  libraryId : Id
  sectionId : Id
  bookId : Id
  pageId : Text
  title : Text
  expectedUpdatedAt : ℤ

/-- Audit before the guarded title update in one short master transaction. -/
def updatePageTitleAsMaster (session : MasterAdminSession) (time : ℤ)
    (request : MasterTitleRequest) (clock : ℤ) (fresh : Fresh) : Write PUnit := do
  requireMasterSession session time
  let page ← query (getPage request.libraryId request.pageId)
  let page ← orThrow page .pageTitleNotFound
  require (page.sectionId = request.sectionId ∧ page.bookId = request.bookId ∧
    page.deletedAt = none) .pageTitleNotFound
  require (page.updatedAt = request.expectedUpdatedAt) .pageTitleVersionConflict
  if page.title = request.title then pure ⟨⟩
  else do
    let changedAt ← attempt (changeTime page clock .pageTitlePersistence)
    addMasterSuccess session fresh.auditId "content.page.title.edit" "page" page.key.target
      changedAt
    let updated ← updatePageTitle page request.title changedAt
    let _ ← orThrow updated .pageTitleVersionConflict
    pure ⟨⟩

/-! ### Occurrence -/

structure MasterOccurrenceRequest where
  libraryId : Id
  sectionId : Id
  bookId : Id
  pageId : Text
  occurredAt : Text
  expectedEtag : Text

/-- Correct metadata only; preserve stable identity and every file Revision. -/
def correctPageOccurrenceAsMaster (session : MasterAdminSession) (time : ℤ)
    (request : MasterOccurrenceRequest) (clock : ℤ) (fresh : Fresh) : Write Bool := do
  let occurredAt ← attempt (parseOccurrenceTime request.occurredAt)
  requireMasterSession session time
  let page ← query (archivePage request.libraryId request.pageId)
  require (page.sectionId = request.sectionId ∧ page.bookId = request.bookId ∧
    page.deletedAt = none) .archiveNotFound
  requireCurrentEtag page request.expectedEtag .archivePreconditionFailed
  if occurredAt.utcMicroseconds = page.occurredAt then pure false
  else do
    let changedAt ← attempt (changeTime page clock .archivePersistence)
    addMasterSuccess session fresh.auditId "content.page.occurrence.correct" "page"
      page.key.target changedAt
    let _ ← correctOccurrence page page.occurredAt occurredAt.utcMicroseconds
      (.master fresh.auditId) changedAt
    pure true

/-! ### Move -/

def masterMoveFingerprint (command : PageMoveCommand) : Bytes :=
  digestRequestFingerprint [utf8Encode "master-page-move-v1", utf8Encode (Json.dumps true (.obj
    [("expected_etag", .str command.expectedEtag), ("library_id", .str command.libraryId),
      ("page_id", .str command.pageId), ("source_book_id", .str command.sourceBookId),
      ("source_section_id", .str command.sourceSectionId),
      ("target_book_id", .str command.targetBookId),
      ("target_section_id", .str command.targetSectionId)]))]

def findMasterMoveReceipt (identityId : Id) (keyDigest : Bytes) (s : Store) :
    Option MasterMoveReceipt :=
  s.receipts.masterMoveReceipts.find? fun r =>
    r.identityId = identityId ∧ r.keyDigest = keyDigest

/-- The two states of a move receipt. -/
def MasterMoveStatesAgree (receipt : MasterMoveReceipt) (source result : PageState) : Prop :=
  source.deletedAt = none ∧ result.deletedAt = none ∧
    source.sectionId = receipt.sourceSectionId ∧ source.bookId = receipt.sourceBookId ∧
    result.sectionId = receipt.targetSectionId ∧ result.bookId = receipt.targetBookId ∧
    source.revisionId = result.revisionId ∧ result.revisionId = receipt.revisionId ∧
    source.revisionNumber = result.revisionNumber ∧
    result.revisionNumber = receipt.revisionNumber ∧
    source.occurredAt = result.occurredAt ∧ result.occurredAt = receipt.originalOccurredAt ∧
    source.title = result.title

instance (receipt : MasterMoveReceipt) (source result : PageState) :
    Decidable (MasterMoveStatesAgree receipt source result) := by
  unfold MasterMoveStatesAgree
  infer_instance

/-- The event of a changed move receipt. -/
def MasterMoveEventAgrees (receipt : MasterMoveReceipt) (source result : PageState)
    (e : PageMoveEvent) : Prop :=
  e.oldSectionId = receipt.sourceSectionId ∧ e.oldBookId = receipt.sourceBookId ∧
    e.newSectionId = receipt.targetSectionId ∧ e.newBookId = receipt.targetBookId ∧
    e.oldUpdatedAt = source.updatedAt ∧ e.changedAt = result.updatedAt ∧
    e.atRevisionId = receipt.revisionId ∧ e.atRevisionNumber = receipt.revisionNumber ∧
    e.occurredAtAtEvent = receipt.originalOccurredAt ∧
    receipt.masterAuditEventId.map MoveAudit.master = some e.audit

instance (receipt : MasterMoveReceipt) (source result : PageState) (e : PageMoveEvent) :
    Decidable (MasterMoveEventAgrees receipt source result e) := by
  unfold MasterMoveEventAgrees
  infer_instance

/-- The event and the audit row of a changed move receipt. -/
def checkMasterMoveEvent (receipt : MasterMoveReceipt) (source result : PageState) (s : Store) :
    Except Err PUnit := do
  let key : PageKey := ⟨receipt.libraryId, receipt.pageUid⟩
  let event ← Fallible.get (s.history.moveEvents.find? fun e =>
    e.page = key ∧ some e.sequence = receipt.moveSequence) .pageMembershipHistory
  let audit ← Fallible.get (s.audit.masterAuditEvents.find? fun a =>
    some a.id = receipt.masterAuditEventId) .pageMembershipHistory
  Fallible.check (MasterMoveEventAgrees receipt source result event ∧
    audit.identityId = receipt.identityId ∧ audit.IsFor "content.page.move" key result.updatedAt)
    .pageMembershipHistory

/-- Prove a move receipt against the history of its Page. -/
def validateMasterMoveReceipt (receipt : MasterMoveReceipt) (s : Store) : Except Err PageState := do
  let timeline ← loadPageStateTimeline ⟨receipt.libraryId, receipt.pageUid⟩ s
  let source ← timeline.exactState receipt.originalPageUpdatedAt
  let result ← timeline.exactState receipt.resultUpdatedAt
  let requestEtag ← source.etag receipt.pageUid
  let responseEtag ← result.etag receipt.pageUid
  Fallible.check (timeline.pageId = receipt.pageId ∧ MasterMoveStatesAgree receipt source result ∧
    receipt.requestEtag = requestEtag ∧ receipt.responseEtag = responseEtag)
    .pageMembershipHistory
  if receipt.changed then checkMasterMoveEvent receipt source result s
  else Fallible.check (source = result ∧ receipt.moveSequence = none ∧
    receipt.masterAuditEventId = none) .pageMembershipHistory
  pure result

structure MasterPageMoveResult where
  receipt : MasterMoveReceipt
  replayed : Bool

/-- A changed plan leaves an audit row. -/
def auditMasterMove (session : MasterAdminSession) (plan : PageMovePlan) (fresh : Fresh) :
    Write (Option MoveAudit) :=
  if plan.changed then do
    addMasterSuccess session fresh.auditId "content.page.move" "page" plan.page.key.target
      plan.updatedAt
    pure (some (.master fresh.auditId))
  else pure none

/-- The receipt of a move. -/
def masterMoveReceipt (session : MasterAdminSession) (command : PageMoveCommand)
    (keyDigest : Bytes) (plan : PageMovePlan) (now : ℤ) (fresh : Fresh) (etag : Text) :
    MasterMoveReceipt where
  identityId := session.identityId
  keyDigest := keyDigest
  requestFingerprint := masterMoveFingerprint command
  libraryId := plan.page.key.libraryId
  pageUid := plan.page.key.pageUid
  pageId := plan.page.pageId
  sourceSectionId := plan.page.sectionId
  sourceBookId := plan.page.bookId
  targetSectionId := plan.targetSectionId
  targetBookId := plan.targetBookId
  revisionId := plan.page.currentRevisionId
  revisionNumber := plan.page.currentRevisionNumber
  originalOccurredAt := plan.page.occurredAt
  originalPageUpdatedAt := plan.page.updatedAt
  resultUpdatedAt := plan.updatedAt
  requestEtag := command.expectedEtag
  responseEtag := etag
  operationAt := now
  changed := plan.changed
  moveSequence := plan.sequence
  masterAuditEventId := if plan.changed then some fresh.auditId else none

/-- The move that no receipt answers. -/
def movePageAsMasterFresh (session : MasterAdminSession) (command : PageMoveCommand)
    (keyDigest : Bytes) (now : ℤ) (fresh : Fresh) : Write MasterPageMoveResult := do
  let plan ← query (preparePageMove command now)
  let page := plan.page
  let audit ← auditMasterMove session plan fresh
  applyPageMove plan audit
  let etag ← attempt (pageCurrentEtag page.key.pageUid page.currentRevisionId
    page.currentRevisionNumber page.occurredAt plan.updatedAt)
  let receipt := masterMoveReceipt session command keyDigest plan now fresh etag
  insertMasterMoveReceipt receipt
  let _ ← query (validateMasterMoveReceipt receipt)
  pure ⟨receipt, false⟩

/-- Authenticate and persist the complete movement in one write transaction. -/
def movePageAsMaster (session : MasterAdminSession) (time : ℤ) (command : PageMoveCommand)
    (keyDigest : Bytes) (now : ℤ) (fresh : Fresh) : Write MasterPageMoveResult := do
  requireMasterSession session time
  let previous ← query fun s => pure (findMasterMoveReceipt session.identityId keyDigest s)
  match previous with
  | some previous => do
    require (previous.requestFingerprint = masterMoveFingerprint command) .masterPageMoveConflict
    let _ ← query (validateMasterMoveReceipt previous)
    pure ⟨previous, true⟩
  | none => movePageAsMasterFresh session command keyDigest now fresh

end PatchouliLib
