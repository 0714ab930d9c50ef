import PatchouliLib.Content.PageMove

/-!
# Deletes and restores of Library callers

A caller with the write right over a Library deletes and restores its Pages
through routes of their own.  Their kept responses are proved against the two
states around the transition, the one event between them and the one audit row
behind it.

## Main definitions

* `validateLibraryLifecycleReceipt` — the proof of a kept transition.
* `transitionPage` — the service of a caller.
-/

namespace PatchouliLib

open Foundation

variable [Platform]

structure PageLifecycleCommand where
  libraryId : Id
  pageId : Text
  action : LifecycleAction
  expectedEtag : Text
  requestId : Text

def libraryDeletePageRoute : Text := "/api/v1/libraries/{library_id}/pages/{page_id}"
def libraryRestorePageRoute : Text := libraryDeletePageRoute ++ "/restore"

def lifecycleRoute : LifecycleAction → Text × Text
  | .delete => ("DELETE", libraryDeletePageRoute)
  | .restore => ("POST", libraryRestorePageRoute)

def lifecycleFingerprint (command : PageLifecycleCommand) : Bytes :=
  digestRequestFingerprint [utf8Encode "caller-library-page-lifecycle-v1",
    utf8Encode (Json.dumps true (.obj
      [("action", .str command.action.text), ("expected_etag", .str command.expectedEtag),
        ("library_id", .str command.libraryId), ("page_id", .str command.pageId)]))]

def lifecycleKeyDigest (keyDigest : Bytes) (homeLibraryId : Id) : Bytes :=
  digestRequestFingerprint [utf8Encode "caller-library-page-lifecycle-key-v1", keyDigest,
    utf8Encode homeLibraryId]

/-- The action of the audit row. -/
def LifecycleAction.libraryAuditAction : LifecycleAction → Text
  | .delete => "content.page.delete"
  | .restore => "content.page.restore"

/-! ### Receipts -/

/-- The body of a Library-level delete or restore. -/
def OriginalResponse.libraryLifecycleBody (response : OriginalResponse) :
    Except Err LibraryPageLifecycleBody :=
  match response.responseBody with
  | .libraryLifecycle body => .ok body
  | _ => .error .validation

def LifecycleState.action : LifecycleState → LifecycleAction
  | .trashed => .delete
  | .active => .restore

/-- The command that a kept transition answers. -/
def LibraryPageLifecycleBody.command (body : LibraryPageLifecycleBody) (requestId : Text) :
    PageLifecycleCommand :=
  ⟨body.libraryId, body.pageId, body.state.action, body.requestEtag, requestId⟩

/-- The route, status, times and fingerprint of a kept transition. -/
def LifecycleRecordAgrees (record : IdempotencyRecord) (body : LibraryPageLifecycleBody) : Prop :=
  (record.request.method, record.request.routeTemplate) = lifecycleRoute body.state.action ∧
    record.response.responseStatus = 200 ∧ record.response.responseLocation = none ∧
    body.libraryId = record.caller.libraryId ∧
    body.deletedAt = (if body.state.action = .delete then some body.updatedAt else none) ∧
    record.response.originalRequestTimestamp = body.updatedAt ∧
    lifecycleFingerprint (body.command record.response.originalRequestId) =
      record.request.requestFingerprint

instance (record : IdempotencyRecord) (body : LibraryPageLifecycleBody) :
    Decidable (LifecycleRecordAgrees record body) := by
  unfold LifecycleRecordAgrees
  infer_instance

/-- The two states of a kept transition. -/
def LifecycleStatesAgree (body : LibraryPageLifecycleBody) (before after : PageState) : Prop :=
  before.updatedAt < after.updatedAt ∧ before.sectionId = after.sectionId ∧
    after.sectionId = body.sectionId ∧ before.bookId = after.bookId ∧
    after.bookId = body.bookId ∧ before.title = after.title ∧
    before.revisionId = after.revisionId ∧ after.revisionId = body.revisionId ∧
    before.revisionNumber = after.revisionNumber ∧ after.revisionNumber = body.revisionNumber ∧
    before.occurredAt = after.occurredAt ∧
    (before.deletedAt = none ↔ body.state.action = .delete) ∧
    after.deletedAt = (if body.state.action = .delete then some after.updatedAt else none)

instance (body : LibraryPageLifecycleBody) (before after : PageState) :
    Decidable (LifecycleStatesAgree body before after) := by
  unfold LifecycleStatesAgree
  infer_instance

/-- The event is the one of the kept transition. -/
def LifecycleEventAgrees (record : IdempotencyRecord) (body : LibraryPageLifecycleBody)
    (before : PageState) (e : PageLifecycleEvent) : Prop :=
  e.action = body.state.action ∧ e.sectionId = body.sectionId ∧
    e.oldDeletedAt = before.deletedAt ∧ e.oldUpdatedAt = before.updatedAt ∧
    e.atRevisionNumber = body.revisionNumber ∧ e.occurredAtAtEvent = before.occurredAt ∧
    e.actor = .caller record.caller.callerId record.caller.actorHomeLibraryId ∧
    e.requestId = record.response.originalRequestId

instance (record : IdempotencyRecord) (body : LibraryPageLifecycleBody) (before : PageState)
    (e : PageLifecycleEvent) : Decidable (LifecycleEventAgrees record body before e) := by
  unfold LifecycleEventAgrees
  infer_instance

/-- The audit rows of a transition, with the credentials behind them. -/
def libraryLifecycleAudits (record : IdempotencyRecord) (body : LibraryPageLifecycleBody)
    (changedAt : ℤ) (s : Store) : List (AuditEvent × Credential) :=
  (s.audit.authAuditEvents.filter fun a =>
    a.libraryId = record.caller.libraryId ∧ a.action = body.state.action.libraryAuditAction ∧
      a.resourceId = body.pageId ∧ a.requestId = record.response.originalRequestId ∧
      a.occurredAt = changedAt).flatMap fun a =>
    (s.auth.credentials.filter (·.id = a.actorCredentialId)).map fun c => (a, c)

/-- The joined audit row and credential are those of the kept transition. -/
def LifecycleAuditAgrees (record : IdempotencyRecord) (row : AuditEvent × Credential) : Prop :=
  let (a, c) := row
  a.actorHomeLibraryId = record.caller.actorHomeLibraryId ∧
    a.actorCallerId = record.caller.callerId ∧ c.callerId = record.caller.callerId ∧
    c.libraryId = record.caller.actorHomeLibraryId ∧ a.resourceType = "page"

instance (record : IdempotencyRecord) (row : AuditEvent × Credential) :
    Decidable (LifecycleAuditAgrees record row) := by
  unfold LifecycleAuditAgrees
  infer_instance

/-- The only element of the list satisfies `p`. -/
def checkExactlyOne {α : Type} (p : α → Prop) [DecidablePred p] : List α → Except Err PUnit
  | [a] => Fallible.check (p a) .validation
  | _ => .error .validation

/-- Prove a kept transition against the history of its Page. -/
def validateLibraryLifecycleReceipt (record : IdempotencyRecord) (s : Store) :
    Except Err LibraryPageLifecycleBody := do
  let body ← record.response.libraryLifecycleBody
  let pageUid ← registeredPageUid record.caller.libraryId body.pageId s
  let timeline ← loadPageStateTimeline ⟨record.caller.libraryId, pageUid⟩ s
  let originalUpdatedAt ← parseOccurrenceTime body.originalUpdatedAt
  let before ← timeline.exactState originalUpdatedAt.utcMicroseconds
  let updatedAt ← parseOccurrenceTime body.updatedAt
  let after ← timeline.exactState updatedAt.utcMicroseconds
  Fallible.check (LifecycleRecordAgrees record body ∧ body.pageId = timeline.pageId ∧
    LifecycleStatesAgree body before after) .validation
  let occurredAt ← canonicalUtcWire after.occurredAt
  let requestEtag ← before.etag pageUid
  let responseEtag ← after.etag pageUid
  Fallible.check (occurredAt = body.occurredAt ∧ body.requestEtag = requestEtag ∧
    record.response.responseEtag = responseEtag) .validation
  checkExactlyOne (LifecycleEventAgrees record body before)
    (s.history.lifecycleEvents.filter fun e =>
      e.page = ⟨record.caller.libraryId, pageUid⟩ ∧ e.changedAt = after.updatedAt)
  checkExactlyOne (LifecycleAuditAgrees record)
    (libraryLifecycleAudits record body after.updatedAt s)
  pure body

/-! ### The service -/

/-- The response of a Library-level delete or restore. -/
def libraryLifecycleResponse (command : PageLifecycleCommand) (page updated : Page) :
    Except Err OriginalResponse := do
  let deletedAt ← updated.deletedAt.mapM canonicalUtcWire
  let occurredAt ← canonicalUtcWire page.occurredAt
  let originalUpdatedAt ← canonicalUtcWire page.updatedAt
  let updatedAt ← canonicalUtcWire updated.updatedAt
  let etag ← updated.etag
  pure
    { responseStatus := 200
      responseBody := .libraryLifecycle
        { libraryId := page.key.libraryId
          pageId := page.pageId
          sectionId := page.sectionId
          bookId := page.bookId
          state := if updated.deletedAt.isSome then .trashed else .active
          deletedAt := deletedAt
          revisionId := page.currentRevisionId
          revisionNumber := page.currentRevisionNumber
          occurredAt := occurredAt
          originalUpdatedAt := originalUpdatedAt
          updatedAt := updatedAt
          requestEtag := command.expectedEtag }
      responseLocation := none
      responseEtag := etag
      originalRequestId := command.requestId
      originalRequestTimestamp := updatedAt }

/-- The transition that no kept response answers. -/
def transitionPageFresh (a : AuthenticatedCaller) (caller : TransactionValidatedCaller)
    (request : IdempotencyRequest) (command : PageLifecycleCommand) (now : ℤ) (fresh : Fresh) :
    Write ServiceResult := do
  let page ← query fun s => (archivePage command.libraryId command.pageId s).mapError fun e =>
    if e = .archiveNotFound then .pageMoveNotFound else e
  let etag ← attempt page.etag
  require (etag = command.expectedEtag) .fileSetPreconditionFailed
  require (page.deletedAt = none ↔ command.action = .delete) .archiveLifecycleUnchanged
  let _ ← query (getCurrentFileManifest page)
  let (updated, event) ← transitionPageLifecycle page command.action
    (.caller caller.callerId caller.actorHomeLibraryId) command.requestId now
  insertAuditEvent (auditOf fresh command.libraryId a command.action.libraryAuditAction "page"
    page.pageId command.requestId event.changedAt)
  let response ← attempt (libraryLifecycleResponse command page updated)
  let record ← recordSuccess caller request response
  requireReceipt (validateLibraryLifecycleReceipt record)
  pure ⟨response, false⟩

/-- Delete or restore one Page of a Library the caller may write. -/
def transitionPage (tokenValue : Text) (command : PageLifecycleCommand) (keyDigest : Bytes)
    (clock : ℤ) (fresh : Fresh) : Write ServiceResult := do
  let now ← attempt (libraryOperationTime clock)
  let a ← authorizePageMove tokenValue command.libraryId now
  let caller := validatedCaller command.libraryId a
  let (method, route) := lifecycleRoute command.action
  let request : IdempotencyRequest :=
    ⟨method, route, lifecycleKeyDigest keyDigest caller.actorHomeLibraryId,
      lifecycleFingerprint command⟩
  let replay ← query (lookupReplay caller request)
  match replay with
  | some replay => do
    let record ← query fun s => Fallible.get (getIdempotencyRecord caller request s) .runtime
    requireReceipt (validateLibraryLifecycleReceipt record)
    pure ⟨replay, true⟩
  | none => transitionPageFresh a caller request command now fresh

end PatchouliLib
