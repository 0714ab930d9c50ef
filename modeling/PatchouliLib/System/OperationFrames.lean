import PatchouliLib.Admin.Workspace
import PatchouliLib.Content.PageIdAllocation
import PatchouliLib.Content.PageLifecycle
import PatchouliLib.Storage.Frames

/-!
# Frames of the operations

An operation authorizes its caller, looks up a kept response, runs one write of
the repository, and keeps the new response with its audit rows.  What holds of
the few statements around the write and of the eight writes holds of every
operation.

Two relations are followed at once: one for whatever surrounds the write, and a
possibly weaker one for the operation as a whole, which absorbs the first on
both sides.

## Main definitions

* `ServiceFrame Q` — the statements around a write keep `Q`.
* `ContentFrame R`, `StatementFrame R` — the statements inside a write keep `R`.
* `OperationFrame Q A` — the statements around a write keep `Q`, and the writes
  keep `A`.

## Main results

* `OperationFrame.keeps_createArchive`, … — every operation keeps `A`.
-/

namespace PatchouliLib

open Foundation

/-! ### Times -/

theorem operationTime_ok {clock t : ℤ} {e : Err} (h : operationTime clock e = .ok t) :
    t = clock ∧ 0 ≤ t ∧ InUtcRange t := by
  simp only [operationTime, Fallible.bind_ok, Fallible.check_ok, Fallible.mapError_ok,
    Fallible.pure_ok, canonicalUtcWire_ok, exists_and_left, exists_const] at h
  obtain ⟨hnonneg, _, ⟨hrange, -⟩, rfl⟩ := h
  exact ⟨rfl, hnonneg, hrange⟩

theorem changeTime_ok {page : Page} {clock t : ℤ} {e : Err} (h : changeTime page clock e = .ok t) :
    t = max clock (page.updatedAt + 1) ∧ InUtcRange t := by
  simp only [changeTime, Fallible.bind_ok, Fallible.mapError_ok, Fallible.pure_ok,
    canonicalUtcWire_ok] at h
  obtain ⟨_, ⟨hrange, -⟩, rfl⟩ := h
  exact ⟨rfl, hrange⟩

/-! ### Around a write -/

/-- The statements that a service runs around its write keep `Q`. -/
structure ServiceFrame (Q : Connection → Connection → Prop) : Prop extends IsFrame Q where
  authenticate : ∀ [Platform] (tokenValue : Text) (now : ℤ),
    Keeps Q (authenticate tokenValue now)
  insertPageSource : ∀ source, Keeps Q (insertPageSource source)
  insertAuditEvent : ∀ a, Keeps Q (insertAuditEvent a)
  insertMasterAuditEvent : ∀ a, Keeps Q (insertMasterAuditEvent a)
  insertIdempotencyRecord : ∀ r, Keeps Q (insertIdempotencyRecord r)
  insertMasterFileSetReceipt : ∀ r, Keeps Q (insertMasterFileSetReceipt r)
  insertMasterMoveReceipt : ∀ r, Keeps Q (insertMasterMoveReceipt r)
  insertWorkspaceSaveReceipt : ∀ r, Keeps Q (insertWorkspaceSaveReceipt r)

namespace ServiceFrame

variable {Q : Connection → Connection → Prop}

theorem keeps_requireMasterSession (hQ : ServiceFrame Q) (session : MasterAdminSession) (time : ℤ) :
    Keeps Q (requireMasterSession session time) :=
  hQ.bind (hQ.query _) fun _ => hQ.require _ _

theorem keeps_recordSuccess (hQ : ServiceFrame Q) (caller : TransactionValidatedCaller) (request : IdempotencyRequest)
    (response : OriginalResponse) : Keeps Q (recordSuccess caller request response) := by
  refine hQ.bind (hQ.query _) fun existing => ?_
  split
  · exact hQ.bind (hQ.require _ _) fun _ => hQ.pure _
  · exact hQ.bind (hQ.insertIdempotencyRecord _) fun _ => hQ.pure _

theorem keeps_requireReceipt (hQ : ServiceFrame Q) {α : Type} (validate : Store → Except Err α) :
    Keeps Q (requireReceipt validate) :=
  hQ.bind (hQ.query _) fun _ => hQ.pure _

theorem keeps_addSource (hQ : ServiceFrame Q) (source : PageSource) : Keeps Q (addSource source) := by
  refine hQ.bind (hQ.require _ _) fun _ => ?_
  exact hQ.bind (hQ.insertPageSource _) fun _ => hQ.pure _

theorem keeps_auditMove (hQ : ServiceFrame Q) (plan : PageMovePlan) (audit : AuditEvent) :
    Keeps Q (auditMove plan audit) := by
  unfold auditMove
  split
  · exact hQ.bind (hQ.insertAuditEvent _) fun _ => hQ.pure _
  · exact hQ.pure _

theorem keeps_addMasterSuccess (hQ : ServiceFrame Q) (session : MasterAdminSession) (eventId : Id)
    (action targetType targetId : Text) (occurredAt : ℤ) :
    Keeps Q (addMasterSuccess session eventId action targetType targetId occurredAt) :=
  hQ.insertMasterAuditEvent _

theorem keeps_auditMasterMove (hQ : ServiceFrame Q) (session : MasterAdminSession) (plan : PageMovePlan) (fresh : Fresh) :
    Keeps Q (auditMasterMove session plan fresh) := by
  unfold auditMasterMove
  split
  · exact hQ.bind (hQ.keeps_addMasterSuccess _ _ _ _ _ _) fun _ => hQ.pure _
  · exact hQ.pure _

theorem keeps_associateMasterChange (hQ : ServiceFrame Q) (session : MasterAdminSession)
    (operation : MasterFileSetOperation) (changed : Bool) (page : Page) (now : ℤ) (fresh : Fresh) :
    Keeps Q (associateMasterChange session operation changed page now fresh) := by
  unfold associateMasterChange
  split
  · refine hQ.bind (hQ.query _) fun sources => ?_
    split
    · exact hQ.bind (hQ.keeps_addMasterSuccess _ _ _ _ _ _) fun _ => hQ.pure _
    · exact .raise _
  · exact hQ.pure _

theorem keeps_auditWorkspace (hQ : ServiceFrame Q) (session : MasterAdminSession) (action : Text) (libraryId : Id)
    (pageId : Text) (changed : Bool) (page : Page) (clock : ℤ) (fresh : Fresh) :
    Keeps Q (auditWorkspace session action libraryId pageId changed page clock fresh) := by
  unfold auditWorkspace
  split
  · exact hQ.keeps_addMasterSuccess _ _ _ _ _ _
  · exact hQ.pure _

variable [Platform]

theorem keeps_authorizeContent (hQ : ServiceFrame Q) (tokenValue : Text) (libraryId sectionId : Id)
    (action : SectionAction) (now : ℤ) :
    Keeps Q (authorizeContent tokenValue libraryId sectionId action now) :=
  hQ.bind (hQ.authenticate _ _) fun _ => hQ.bind (hQ.query _) fun _ => hQ.pure _

theorem keeps_requireOperator (hQ : ServiceFrame Q) (tokenValue : Text) (libraryId : Id) (now : ℤ) :
    Keeps Q (requireOperator tokenValue libraryId now) :=
  hQ.bind (hQ.authenticate _ _) fun _ => hQ.bind (hQ.require _ _) fun _ => hQ.pure _

theorem keeps_authorizePageMove (hQ : ServiceFrame Q) (tokenValue : Text) (libraryId : Id) (now : ℤ) :
    Keeps Q (authorizePageMove tokenValue libraryId now) :=
  hQ.bind (hQ.authenticate _ _) fun _ => hQ.bind (hQ.query _) fun _ => hQ.pure _

theorem keeps_requireCurrentEtag (hQ : ServiceFrame Q) (page : Page) (expectedEtag : Text) (e : Err) :
    Keeps Q (requireCurrentEtag page expectedEtag e) :=
  hQ.bind (hQ.attempt _) fun _ => hQ.require _ _

theorem keeps_auditChanged (hQ : ServiceFrame Q) (command : FileSetAppendCommand) (a : AuthenticatedCaller)
    (appended : FileSetAppendResult) (operationAt : ℤ) (fresh : Fresh) :
    Keeps Q (auditChanged command a appended operationAt fresh) := by
  unfold auditChanged
  split
  · exact hQ.insertAuditEvent _
  · exact hQ.pure _

theorem keeps_fileSetPage (hQ : ServiceFrame Q) (tokenValue : Text) (command : FileSetAppendCommand) (operationAt : ℤ) :
    Keeps Q (fileSetPage tokenValue command operationAt) := by
  refine hQ.bind (hQ.query _) fun page => ?_
  split
  · exact hQ.pure _
  · exact hQ.bind (hQ.keeps_authorizeContent _ _ _ _ _) fun _ => .raise _

end ServiceFrame

/-! ### Inside a write -/

/-- The statements of a write that touch neither a Page row nor its history keep
`R`.  An identifier is stored under its own digest, and a new counter is past the
first ordinal. -/
structure ContentFrame [Platform] (R : Connection → Connection → Prop) : Prop
    extends ServiceFrame R where
  insertRevisionFileSet : ∀ m, Keeps R (insertRevisionFileSet m)
  insertRevisionFile : ∀ f, Keeps R (insertRevisionFile f)
  insertRevisionFileSeal : ∀ key, Keeps R (insertRevisionFileSeal key)
  insertRevisionPresentation : ∀ p, Keeps R (insertRevisionPresentation p)
  insertPageIdentifier : ∀ i, pageIdRegistryDigest i.identifierText = .ok i.identifierDigest →
    Keeps R (insertPageIdentifier i)
  insertPageIdCollisionCounter : ∀ counter, 1 < counter.nextOrdinal →
    Keeps R (insertPageIdCollisionCounter counter)
  updatePageIdCollisionCounter : ∀ counter nextOrdinal,
    Keeps R (updatePageIdCollisionCounter counter nextOrdinal)

/-- The other statements of a write keep `R` too. -/
structure StatementFrame [Platform] (R : Connection → Connection → Prop) : Prop
    extends ContentFrame R where
  insertPage : ∀ p, Keeps R (insertPage p)
  updatePageWhere : ∀ (key : PageKey) (p : Page → Prop) [DecidablePred p] (set : Page → Page),
    Keeps R (updatePageWhere key p set)
  insertRevision : ∀ r, Keeps R (insertRevision r)
  insertOccurrenceCorrectionGuard : ∀ g, Keeps R (insertOccurrenceCorrectionGuard g)
  insertLifecycleGuard : ∀ g, Keeps R (insertLifecycleGuard g)
  insertMoveGuard : ∀ g, Keeps R (insertMoveGuard g)

/-- What the files leave alone, the statements that only write these keep; the
statements on identifiers and counters come on top. -/
theorem FileFrame.contentFrame [Platform] {R : Connection → Connection → Prop} (hR : FileFrame R)
    (hauth : ∀ [Platform] (tokenValue : Text) (now : ℤ), Keeps R (authenticate tokenValue now))
    (hidentifier : ∀ i, pageIdRegistryDigest i.identifierText = .ok i.identifierDigest →
      Keeps R (insertPageIdentifier i))
    (hinsert : ∀ counter, 1 < counter.nextOrdinal → Keeps R (insertPageIdCollisionCounter counter))
    (hupdate : ∀ counter nextOrdinal,
      Keeps R (updatePageIdCollisionCounter counter nextOrdinal)) :
    ContentFrame R where
  toIsFrame := hR.toIsFrame
  authenticate := hauth
  insertPageSource := hR.keeps_insertPageSource
  insertAuditEvent := hR.insertAuditEvent
  insertMasterAuditEvent := hR.insertMasterAuditEvent
  insertIdempotencyRecord := hR.insertIdempotencyRecord
  insertMasterFileSetReceipt := hR.insertMasterFileSetReceipt
  insertMasterMoveReceipt := hR.insertMasterMoveReceipt
  insertWorkspaceSaveReceipt := hR.insertWorkspaceSaveReceipt
  insertRevisionFileSet := hR.keeps_insertRevisionFileSet
  insertRevisionFile := hR.keeps_insertRevisionFile
  insertRevisionFileSeal := hR.keeps_insertRevisionFileSeal
  insertRevisionPresentation := hR.keeps_insertRevisionPresentation
  insertPageIdentifier := hidentifier
  insertPageIdCollisionCounter := hinsert
  updatePageIdCollisionCounter := hupdate

/-- **What the tables outside the history leave alone, the statements that only
write these keep.** -/
theorem TableFrame.contentFrame [Platform] {R : Connection → Connection → Prop} (hR : TableFrame R)
    (hauth : ∀ [Platform] (tokenValue : Text) (now : ℤ), Keeps R (authenticate tokenValue now)) :
    ContentFrame R :=
  hR.toFileFrame.contentFrame hauth (fun i _ => hR.keeps_insertPageIdentifier i)
    (fun counter _ => hR.keeps_insertPageIdCollisionCounter counter)
    hR.keeps_updatePageIdCollisionCounter

namespace ContentFrame

variable [Platform] {R : Connection → Connection → Prop}

theorem keeps_requireWireTimes (hR : ContentFrame R) (occurredAt operationAt : ℤ) :
    Keeps R (requireWireTimes occurredAt operationAt) :=
  hR.bind (hR.attempt _) fun _ => hR.bind (hR.attempt _) fun _ => hR.pure _

theorem keeps_savePresentation (hR : ContentFrame R) (key : RevisionKey)
    (presentation : Presentation) :
    Keeps R (savePresentation key presentation) :=
  hR.insertRevisionPresentation _

theorem keeps_addIdentifier (hR : ContentFrame R) (libraryId : Id) (identifierText : Text)
    (pageUid : Bytes) (createdAt : ℤ) :
    Keeps R (addIdentifier libraryId identifierText pageUid createdAt) :=
  .attempt_bind fun _ hdigest => hR.insertPageIdentifier _ hdigest

theorem keeps_advanceUntilFree (hR : ContentFrame R) (exhausted stale : Err) (libraryId : Id)
    (occurrence : OccurrenceTime) (title : Text) (attempts : ℕ) (counter : PageIdCollisionCounter) :
    Keeps R (advanceUntilFree exhausted stale libraryId occurrence title attempts counter) := by
  induction attempts generalizing counter with
  | zero => exact .raise _
  | succ attempts ih =>
    refine hR.bind (hR.require _ _) fun _ => ?_
    refine hR.bind (hR.updatePageIdCollisionCounter _ _) fun _ => ?_
    refine hR.bind (hR.require _ _) fun _ => ?_
    refine hR.bind (hR.attempt _) fun _ => ?_
    refine hR.bind (hR.query _) fun taken => ?_
    split
    · exact ih _
    · exact hR.pure _

theorem keeps_allocatePageId (hR : ContentFrame R) (exhausted stale : Err) (libraryId : Id)
    (title : Text) (occurredAt : ℤ) :
    Keeps R (allocatePageId exhausted stale libraryId title occurredAt) := by
  refine hR.bind (hR.attempt _) fun _ => ?_
  refine hR.bind (hR.attempt _) fun _ => ?_
  refine hR.bind (hR.query _) fun counter => ?_
  split
  · refine .query_bind fun s candidate hfree => ?_
    have hordinal : 1 < candidate.collisionOrdinal + 1 :=
      Nat.lt_succ_of_le (firstFreeOrdinal_pos hfree)
    exact hR.bind (hR.insertPageIdCollisionCounter _ hordinal) fun _ => hR.pure _
  · exact hR.keeps_advanceUntilFree _ _ _ _ _ _ _

theorem keeps_requireReadback (hR : ContentFrame R) (page : Page) (manifest : FileManifest) :
    Keeps R (requireReadback page manifest) :=
  hR.bind (hR.query _) fun _ => hR.require _ _

theorem keeps_insertSnapshotFiles (hR : ContentFrame R) (key : RevisionKey)
    (manifest : FileManifest) : Keeps R (insertSnapshotFiles key manifest) := by
  refine hR.bind (hR.insertRevisionFileSet _) fun _ => ?_
  refine hR.bind (.forEach hR.toIsFrame (fun _ => hR.insertRevisionFile _) _) fun _ => ?_
  exact hR.insertRevisionFileSeal _

end ContentFrame

variable [Platform]

/-! ### Operations -/

/-- The statements around a write keep `Q`, the writes keep `A`, and `A` absorbs
`Q`. -/
structure OperationFrame (Q A : Connection → Connection → Prop) : Prop where
  service : ServiceFrame Q
  of_quiet : ∀ {c d}, Q c d → A c d
  left : ∀ {c d e}, Q c d → A d e → A c e
  right : ∀ {c d e}, A c d → Q d e → A c e
  createMarkdownPage : ∀ book title occurredAt {operationAt} contentMd source fresh,
    InUtcRange operationAt →
      Keeps A (createMarkdownPage book title occurredAt operationAt contentMd source fresh)
  createFileSetPage : ∀ book title occurredAt operationAt manifest source primaryFile fresh,
    Keeps A (createFileSetPage book title occurredAt operationAt manifest source primaryFile fresh)
  appendMarkdownRevision : ∀ page contentMd {revisionAt} fresh, InUtcRange revisionAt →
    ∀ c r c', getCurrentRevisionStorageFormat page c.store = .ok .legacyMarkdown →
      appendMarkdownRevision page contentMd revisionAt fresh c = .ok (r, c') → A c c'
  writeFileSetRevision : ∀ {page command} manifest presentation,
    page.updatedAt < command.revisionAt → InUtcRange command.revisionAt →
      Keeps A (writeFileSetRevision page command manifest presentation)
  correctOccurrence : ∀ page oldOccurredAt newOccurredAt actor operationAt,
    Keeps A (correctOccurrence page oldOccurredAt newOccurredAt actor operationAt)
  transitionPageLifecycle : ∀ page action actor requestId changedAt,
    Keeps A (transitionPageLifecycle page action actor requestId changedAt)
  updatePageTitle : ∀ {page title updatedAt}, page.title ≠ title → page.updatedAt < updatedAt →
    InUtcRange updatedAt → Keeps A (updatePageTitle page title updatedAt)
  applyPageMove : ∀ plan audit, Keeps A (applyPageMove plan audit)

namespace StatementFrame

variable {R : Connection → Connection → Prop}

theorem keeps_addRevision (hR : StatementFrame R) (r : Revision) : Keeps R (addRevision r) := by
  refine hR.bind (hR.attempt _) fun _ => hR.bind (hR.require _ _) fun _ => ?_
  exact hR.bind (hR.insertRevision _) fun _ => hR.pure _

theorem keeps_addPage (hR : StatementFrame R) (p : Page) : Keeps R (addPage p) :=
  hR.bind (hR.attempt _) fun _ => hR.bind (hR.insertPage _) fun _ => hR.pure _

theorem keeps_insertFileSet (hR : StatementFrame R) (key : RevisionKey) (createdAt : ℤ)
    (manifest : FileManifest) : Keeps R (insertFileSet key createdAt manifest) :=
  hR.bind (hR.insertRevision _) fun _ => hR.keeps_insertSnapshotFiles _ _

theorem keeps_requireRow (hR : StatementFrame R) (matched : Bool) : Keeps R (requireRow matched) :=
  hR.require _ _

theorem keeps_createMarkdownPage (hR : StatementFrame R) (book : Book) (title : Text)
    (occurredAt operationAt : ℤ) (contentMd : Bytes) (source : ArchiveSourceInput) (fresh : Fresh) :
    Keeps R (createMarkdownPage book title occurredAt operationAt contentMd source fresh) := by
  refine hR.bind (hR.keeps_allocatePageId _ _ _ _ _) fun _ => ?_
  refine hR.bind (hR.query _) fun _ => hR.bind (hR.query _) fun _ => ?_
  refine hR.bind (hR.keeps_addPage _) fun _ => hR.bind (hR.keeps_addRevision _) fun _ => ?_
  refine hR.bind (hR.keeps_addIdentifier _ _ _ _) fun _ => ?_
  exact hR.bind (hR.keeps_addSource _) fun _ => hR.pure _

theorem keeps_createFileSetPage (hR : StatementFrame R) (book : Book) (title : Text)
    (occurredAt operationAt : ℤ) (manifest : FileManifest) (source : ArchiveSourceInput)
    (primaryFile : Option Text) (fresh : Fresh) :
    Keeps R (createFileSetPage book title occurredAt operationAt manifest source primaryFile
      fresh) := by
  refine hR.bind (hR.attempt _) fun _ => hR.bind (hR.keeps_requireWireTimes _ _) fun _ => ?_
  refine hR.bind (hR.keeps_allocatePageId _ _ _ _ _) fun _ => ?_
  refine hR.bind (hR.query _) fun _ => hR.bind (hR.query _) fun _ => ?_
  refine hR.bind (hR.keeps_addPage _) fun _ => hR.bind (hR.keeps_insertFileSet _ _ _) fun _ => ?_
  refine hR.bind (hR.keeps_savePresentation _ _) fun _ => ?_
  refine hR.bind (hR.keeps_addIdentifier _ _ _ _) fun _ => ?_
  refine hR.bind (hR.keeps_addSource _) fun _ => ?_
  exact hR.bind (hR.keeps_requireReadback _ _) fun _ => hR.pure _

theorem keeps_appendMarkdownRevision (hR : StatementFrame R) (page : Page) (contentMd : Bytes)
    (revisionAt : ℤ) (fresh : Fresh) :
    Keeps R (appendMarkdownRevision page contentMd revisionAt fresh) := by
  refine hR.bind (hR.query _) fun _ => hR.bind (hR.keeps_addRevision _) fun _ => ?_
  refine hR.bind (hR.bind (hR.require _ _) fun _ => ?_) fun _ => ?_
  · exact hR.bind (hR.updatePageWhere _ _ _) fun _ => hR.pure _
  · exact hR.bind (hR.orThrow _ _) fun _ => hR.pure _

theorem keeps_writeFileSetRevision (hR : StatementFrame R) (page : Page) (command : FileSetAppend)
    (manifest : FileManifest) (presentation : Presentation) :
    Keeps R (writeFileSetRevision page command manifest presentation) := by
  refine hR.bind (hR.keeps_insertFileSet _ _ _) fun _ => hR.bind (hR.keeps_addSource _) fun _ => ?_
  refine hR.bind (hR.keeps_savePresentation _ _) fun _ => hR.bind (hR.bind ?_ fun _ => ?_) fun _ => ?_
  · exact hR.updatePageWhere _ _ _
  · exact hR.pure _
  · refine hR.bind (hR.orThrow _ _) fun _ => ?_
    exact hR.bind (hR.keeps_requireReadback _ _) fun _ => hR.pure _

theorem keeps_correctOccurrence (hR : StatementFrame R) (page : Page) (o n : ℤ) (actor : Actor)
    (t : ℤ) : Keeps R (correctOccurrence page o n actor t) := by
  refine hR.bind (hR.require _ _) fun _ => hR.bind (hR.attempt _) fun _ => ?_
  refine hR.bind (hR.require _ _) fun _ => hR.bind (hR.attempt _) fun _ => ?_
  refine hR.bind (hR.query _) fun _ => hR.bind (hR.require _ _) fun _ => ?_
  refine hR.bind (hR.insertOccurrenceCorrectionGuard _) fun _ => ?_
  refine hR.bind (hR.updatePageWhere _ _ _) fun _ => hR.bind (hR.keeps_requireRow _) fun _ => ?_
  exact hR.bind (hR.query _) fun _ => hR.pure _

theorem keeps_transitionPageLifecycle (hR : StatementFrame R) (page : Page)
    (action : LifecycleAction) (actor : Actor) (requestId : Text) (t : ℤ) :
    Keeps R (transitionPageLifecycle page action actor requestId t) := by
  refine hR.bind (hR.require _ _) fun _ => hR.bind (hR.require _ _) fun _ => ?_
  refine hR.bind (hR.require _ _) fun _ => hR.bind (hR.attempt _) fun _ => ?_
  refine hR.bind (hR.query _) fun _ => hR.bind (hR.require _ _) fun _ => ?_
  refine hR.bind (hR.insertLifecycleGuard _) fun _ => ?_
  refine hR.bind (hR.updatePageWhere _ _ _) fun _ => hR.bind (hR.keeps_requireRow _) fun _ => ?_
  exact hR.bind (hR.query _) fun _ => hR.pure _

theorem keeps_updatePageTitle (hR : StatementFrame R) (page : Page) (title : Text) (t : ℤ) :
    Keeps R (updatePageTitle page title t) :=
  hR.bind (hR.updatePageWhere _ _ _) fun _ => hR.pure _

theorem keeps_applyPageMove (hR : StatementFrame R) (plan : PageMovePlan)
    (audit : Option MoveAudit) : Keeps R (applyPageMove plan audit) := by
  unfold applyPageMove
  split
  · exact hR.pure _
  · exact .raise _
  · exact .raise _
  · refine hR.bind (hR.insertMoveGuard _) fun _ => hR.bind (hR.updatePageWhere _ _ _) fun _ => ?_
    exact hR.bind (hR.require _ _) fun _ => hR.query _

/-- **What every statement keeps, every operation keeps.** -/
theorem operationFrame (hR : StatementFrame R) : OperationFrame R R where
  service := hR.toServiceFrame
  of_quiet := id
  left := hR.trans
  right := hR.trans
  createMarkdownPage _ _ _ _ _ _ _ _ := hR.keeps_createMarkdownPage _ _ _ _ _ _ _
  createFileSetPage := hR.keeps_createFileSetPage
  appendMarkdownRevision _ _ _ _ _ _ _ _ _ h := hR.keeps_appendMarkdownRevision _ _ _ _ _ _ _ h
  writeFileSetRevision _ _ _ _ := hR.keeps_writeFileSetRevision _ _ _ _
  correctOccurrence := hR.keeps_correctOccurrence
  transitionPageLifecycle := hR.keeps_transitionPageLifecycle
  updatePageTitle _ _ _ := hR.keeps_updatePageTitle _ _ _
  applyPageMove := hR.keeps_applyPageMove

end StatementFrame

/-! ### Relations that look at no Page -/

/-- The changes of the content tables, of the history, of kept responses and of
the audit keep `R`. -/
structure BlindFrame (R : Connection → Connection → Prop) : Prop extends TableFrame R where
  pages : ∀ (c : Connection) (f : ContentTables → ContentTables),
    R c { c with store := c.store.modifyContent f }
  history : ∀ (c : Connection) (f : HistoryTables → HistoryTables),
    R c { c with store := c.store.modifyHistory f }

namespace BlindFrame

variable {R : Connection → Connection → Prop}

omit [Platform] in
theorem keeps_modifyPages (hR : BlindFrame R) (f : ContentTables → ContentTables) :
    Keeps R (modifyStore (.modifyContent f)) :=
  .writes fun c => hR.pages c f

omit [Platform] in
theorem keeps_modifyHistory (hR : BlindFrame R) (f : HistoryTables → HistoryTables) :
    Keeps R (modifyStore (.modifyHistory f)) :=
  .writes fun c => hR.history c f

omit [Platform] in
theorem keeps_markDirty (hR : BlindFrame R) (keys : List PageKey) : Keeps R (markDirty keys) :=
  .writes fun c => hR.marks c keys

omit [Platform] in
/-- The row of a Page and what the recording triggers add to it. -/
theorem afterPageUpdate (hR : BlindFrame R) (old new : Page) (c : Connection) :
    R c { c with store := c.store.afterPageUpdate old new } := by
  have hclear : ∀ c : Connection, R c { c with store := clearAppendGuard old new c.store } := by
    intro c
    unfold clearAppendGuard
    split
    · exact hR.refl c
    · exact hR.pages c _
  have hoccurrence : ∀ c : Connection, R c { c with store := recordOccurrence old new c.store } := by
    intro c
    unfold recordOccurrence
    split
    · exact hR.refl c
    · exact hR.history c _
  have hlifecycle : ∀ c : Connection, R c { c with store := recordLifecycle old new c.store } := by
    intro c
    unfold recordLifecycle
    split
    · exact hR.refl c
    · exact hR.history c _
  have htitle : ∀ c : Connection, R c { c with store := recordTitle old new c.store } := by
    intro c
    unfold recordTitle
    split
    · exact hR.refl c
    · exact hR.history c _
  have hmove : ∀ c : Connection, R c { c with store := recordMove old new c.store } := by
    intro c
    unfold recordMove
    split
    · exact hR.refl c
    · exact hR.history c _
  -- the row comes first, then one trigger after the other
  have hrow := hR.pages c fun t =>
    { t with pages := t.pages.map fun p => if p.key = old.key then new else p }
  exact hR.trans hrow (hR.trans (hclear _) (hR.trans (hoccurrence _) (hR.trans (hlifecycle _)
    (hR.trans (htitle _) (hmove _)))))

omit [Platform] in
theorem keeps_updatePageWhere (hR : BlindFrame R) (key : PageKey) (p : Page → Prop)
    [DecidablePred p] (set : Page → Page) : Keeps R (updatePageWhere key p set) := by
  refine hR.bind (hR.query _) fun row => ?_
  split
  · exact hR.pure _
  · refine hR.bind (hR.bind (hR.constraint _) fun _ => ?_) fun _ => hR.pure _
    exact hR.bind (.writes fun c => hR.afterPageUpdate _ _ c) fun _ => hR.keeps_markDirty _

omit [Platform] in
theorem keeps_insertRevision (hR : BlindFrame R) (r : Revision) : Keeps R (insertRevision r) := by
  refine hR.bind (hR.constraint _) fun _ => hR.bind (hR.constraint _) fun _ => ?_
  refine hR.bind (hR.keeps_modifyPages _) fun _ => hR.bind (hR.keeps_markIfCurrent _) fun _ => ?_
  split
  · refine hR.bind (hR.bind (hR.constraint _) fun _ => hR.keeps_modifyPages _) fun _ => ?_
    exact hR.keeps_mirrorContentFile _
  · exact hR.keeps_mirrorContentFile _

/-- **A relation that looks at no Page is kept by every statement on Pages.** -/
theorem statementFrame (hR : BlindFrame R)
    (hauth : ∀ [Platform] (tokenValue : Text) (now : ℤ), Keeps R (authenticate tokenValue now)) :
    StatementFrame R where
  toContentFrame := hR.contentFrame hauth
  insertPage p := by
    refine hR.bind (hR.constraint _) fun _ => hR.bind (hR.constraint _) fun _ => ?_
    refine hR.bind (hR.constraint _) fun _ => hR.bind (hR.constraint _) fun _ => ?_
    exact hR.bind (hR.keeps_modifyPages _) fun _ => hR.keeps_markDirty _
  updatePageWhere := hR.keeps_updatePageWhere
  insertRevision := hR.keeps_insertRevision
  insertOccurrenceCorrectionGuard g := by
    refine hR.bind (hR.constraint _) fun _ => hR.bind (hR.constraint _) fun _ => ?_
    refine hR.bind (hR.constraint _) fun _ => hR.bind (hR.constraint _) fun _ => ?_
    exact hR.keeps_modifyHistory _
  insertLifecycleGuard g := by
    refine hR.bind (hR.constraint _) fun _ => hR.bind (hR.constraint _) fun _ => ?_
    refine hR.bind (hR.constraint _) fun _ => hR.bind (hR.constraint _) fun _ => ?_
    exact hR.keeps_modifyHistory _
  insertMoveGuard g := by
    refine hR.bind (hR.constraint _) fun _ => hR.bind (hR.constraint _) fun _ => ?_
    refine hR.bind (hR.constraint _) fun _ => hR.bind (hR.constraint _) fun _ => ?_
    exact hR.bind (hR.constraint _) fun _ => hR.keeps_modifyHistory _

end BlindFrame

namespace OperationFrame

variable {Q A : Connection → Connection → Prop} {α β : Type} {x : Write α} {f : α → Write β}

theorem of_service (hF : OperationFrame Q A) (hx : Keeps Q x) : Keeps A x :=
  fun c a c' h => hF.of_quiet (hx c a c' h)

/-- A body that keeps `Q` may come first. -/
theorem bind_left (hF : OperationFrame Q A) (hx : Keeps Q x) (hf : ∀ a, Keeps A (f a)) :
    Keeps A (x >>= f) := by
  intro c b c' h
  obtain ⟨a, c₁, h₁, h₂⟩ := bind_ok.mp h
  exact hF.left (hx c a c₁ h₁) (hf a c₁ b c' h₂)

/-- A body that keeps `Q` may come last. -/
theorem bind_right (hF : OperationFrame Q A) (hx : Keeps A x) (hf : ∀ a, Keeps Q (f a)) :
    Keeps A (x >>= f) := by
  intro c b c' h
  obtain ⟨a, c₁, h₁, h₂⟩ := bind_ok.mp h
  exact hF.right (hx c a c₁ h₁) (hf a c₁ b c' h₂)

/-! ### The operations of callers -/

theorem keeps_createArchive (hF : OperationFrame Q A) (tokenValue : Text) (command : CreateArchiveCommand)
    (keyDigest : Bytes) (clock : ℤ) (fresh : Fresh) :
    Keeps A (createArchive tokenValue command keyDigest clock fresh) := by
  have hQ := hF.service
  refine .attempt_bind fun operationAt hclock => ?_
  obtain ⟨-, -, hwire⟩ := operationTime_ok hclock
  refine hF.bind_left (hQ.authenticate _ _) fun a => ?_
  refine hF.bind_left (hQ.query _) fun stored => ?_
  cases stored with
  | some stored =>
    refine hF.of_service ?_
    refine hQ.bind (hQ.attempt _) fun _ => ?_
    refine hQ.bind (hQ.query _) fun _ => ?_
    refine hQ.bind (hQ.keeps_authorizeContent _ _ _ _ _) fun _ => ?_
    refine hQ.bind (hQ.query _) fun _ => ?_
    refine hQ.bind (hQ.orThrow _ _) fun _ => ?_
    refine hQ.bind (hQ.attempt _) fun _ => ?_
    refine hQ.bind (hQ.query _) fun _ => ?_
    exact hQ.bind (hQ.require _ _) fun _ => hQ.pure _
  | none =>
    refine hF.bind_left (hQ.query _) fun _ => ?_
    refine hF.bind_left (hQ.keeps_authorizeContent _ _ _ _ _) fun _ => ?_
    refine hF.bind_left (hQ.require _ _) fun _ => ?_
    refine hF.bind_left (hQ.query _) fun _ => ?_
    refine hF.bind_left (hQ.require _ _) fun _ => ?_
    refine hF.bind_right (hF.createMarkdownPage _ _ _ _ _ _ hwire) fun _ => ?_
    refine hQ.bind (hQ.attempt _) fun _ => ?_
    refine hQ.bind (hQ.insertAuditEvent _) fun _ => ?_
    exact hQ.bind (hQ.keeps_recordSuccess _ _ _) fun _ => hQ.pure _

theorem keeps_appendRevision (hF : OperationFrame Q A) (tokenValue : Text) (command : AppendArchiveRevisionCommand)
    (keyDigest : Bytes) (clock : ℤ) (fresh : Fresh) :
    Keeps A (appendRevision tokenValue command keyDigest clock fresh) := by
  have hQ := hF.service
  refine hF.bind_left (hQ.query _) fun page => ?_
  refine hF.bind_left (hQ.attempt _) fun operationAt => ?_
  refine hF.bind_left (hQ.keeps_authorizeContent _ _ _ _ _) fun a => ?_
  refine hF.bind_left (hQ.query _) fun replay => ?_
  cases replay with
  | some replay =>
    refine hF.of_service (hQ.bind (hQ.attempt _) fun _ => ?_)
    exact hQ.bind (hQ.query _) fun _ => hQ.pure _
  | none =>
    refine hF.bind_left (hQ.require _ _) fun _ => ?_
    refine hF.bind_left (hQ.require _ _) fun _ => ?_
    refine hF.bind_left (hQ.orThrow _ _) fun _ => ?_
    refine hF.bind_left (hQ.keeps_requireCurrentEtag _ _ _) fun _ => ?_
    -- the format is read in the state that the Revision is appended to
    intro c b c' h
    obtain ⟨_, _, hquery, h⟩ := bind_ok.mp h
    obtain ⟨hformat, rfl⟩ := query_ok.mp hquery
    obtain ⟨_, _, hrequire, h⟩ := bind_ok.mp h
    obtain ⟨rfl, rfl⟩ := require_ok.mp hrequire
    obtain ⟨_, _, hrequire, h⟩ := bind_ok.mp h
    obtain ⟨-, rfl⟩ := require_ok.mp hrequire
    obtain ⟨_, _, hattempt, h⟩ := bind_ok.mp h
    obtain ⟨hwire, rfl⟩ := attempt_ok.mp hattempt
    obtain ⟨hrange, -⟩ := canonicalUtcWire_ok.mp (Fallible.mapError_ok.mp hwire)
    obtain ⟨_, _, happend, hrest⟩ := bind_ok.mp h
    refine hF.right (hF.appendMarkdownRevision _ _ _ hrange _ _ _ hformat happend) ?_
    refine hQ.bind (hQ.keeps_addSource _) (fun _ => ?_) _ _ _ hrest
    refine hQ.bind (hQ.attempt _) fun _ => ?_
    refine hQ.bind (hQ.insertAuditEvent _) fun _ => ?_
    exact hQ.bind (hQ.keeps_recordSuccess _ _ _) fun _ => hQ.pure _

theorem keeps_correctArchiveOccurrence (hF : OperationFrame Q A) (tokenValue : Text)
    (command : CorrectArchiveOccurrenceCommand) (keyDigest : Bytes) (clock : ℤ) (fresh : Fresh) :
    Keeps A (correctArchiveOccurrence tokenValue command keyDigest clock fresh) := by
  have hQ := hF.service
  refine hF.bind_left (hQ.query _) fun page => ?_
  refine hF.bind_left (hQ.attempt _) fun operationAt => ?_
  refine hF.bind_left (hQ.keeps_authorizeContent _ _ _ _ _) fun a => ?_
  refine hF.bind_left (hQ.query _) fun replay => ?_
  cases replay with
  | some replay => exact hF.of_service (hQ.bind (hQ.query _) fun _ => hQ.pure _)
  | none =>
    refine hF.bind_left (hQ.require _ _) fun _ => ?_
    refine hF.bind_left (hQ.require _ _) fun _ => ?_
    refine hF.bind_left (hQ.keeps_requireCurrentEtag _ _ _) fun _ => ?_
    refine hF.bind_left (hQ.require _ _) fun _ => ?_
    refine hF.bind_left (hQ.require _ _) fun _ => ?_
    refine hF.bind_right (hF.correctOccurrence _ _ _ _ _) fun _ => ?_
    refine hQ.bind (hQ.attempt _) fun _ => ?_
    refine hQ.bind (hQ.insertAuditEvent _) fun _ => ?_
    exact hQ.bind (hQ.keeps_recordSuccess _ _ _) fun _ => hQ.pure _

theorem keeps_transitionLifecycleAuthorized (hF : OperationFrame Q A) (page : Page) (a : AuthenticatedCaller)
    (command : ArchiveLifecycleCommand) (keyDigest : Bytes) (action : LifecycleAction)
    (operationAt : ℤ) (fresh : Fresh) :
    Keeps A
      (transitionLifecycleAuthorized page a command keyDigest action operationAt fresh) := by
  have hQ := hF.service
  refine hF.bind_left (hQ.query _) fun replay => ?_
  cases replay with
  | some replay => exact hF.of_service (hQ.bind (hQ.query _) fun _ => hQ.pure _)
  | none =>
    refine hF.bind_left (hQ.require _ _) fun _ => ?_
    refine hF.bind_left (hQ.keeps_requireCurrentEtag _ _ _) fun _ => ?_
    refine hF.bind_left (hQ.require _ _) fun _ => ?_
    refine hF.bind_left (hQ.require _ _) fun _ => ?_
    refine hF.bind_right (hF.transitionPageLifecycle _ _ _ _ _) fun _ => ?_
    refine hQ.bind (hQ.attempt _) fun _ => ?_
    refine hQ.bind (hQ.insertAuditEvent _) fun _ => ?_
    exact hQ.bind (hQ.keeps_recordSuccess _ _ _) fun _ => hQ.pure _

theorem keeps_transitionArchiveLifecycle (hF : OperationFrame Q A) (tokenValue : Text) (command : ArchiveLifecycleCommand)
    (keyDigest : Bytes) (action : LifecycleAction) (clock : ℤ) (fresh : Fresh) :
    Keeps A
      (transitionArchiveLifecycle tokenValue command keyDigest action clock fresh) := by
  have hQ := hF.service
  refine hF.bind_left (hQ.query _) fun page => ?_
  refine hF.bind_left (hQ.attempt _) fun operationAt => ?_
  refine hF.bind_left (hQ.keeps_authorizeContent _ _ _ _ _) fun a => ?_
  exact hF.keeps_transitionLifecycleAuthorized _ _ _ _ _ _ _

theorem keeps_restorePageAsOperator (hF : OperationFrame Q A) (tokenValue : Text) (command : ArchiveLifecycleCommand)
    (keyDigest : Bytes) (clock : ℤ) (fresh : Fresh) :
    Keeps A (restorePageAsOperator tokenValue command keyDigest clock fresh) := by
  have hQ := hF.service
  refine hF.bind_left (hQ.attempt _) fun operationAt => ?_
  refine hF.bind_left (hQ.keeps_requireOperator _ _ _) fun a => ?_
  refine hF.bind_left (hQ.query _) fun page => ?_
  exact hF.keeps_transitionLifecycleAuthorized _ _ _ _ _ _ _

theorem keeps_appendExistingPage (hF : OperationFrame Q A) (command : FileSetAppend) :
    Keeps A (appendExistingPage command) := by
  have hQ := hF.service
  refine hF.bind_left (hQ.attempt _) fun manifest => ?_
  refine hF.bind_left (hQ.attempt _) fun presentation => ?_
  refine hF.bind_left (hQ.query _) fun page => ?_
  refine hF.bind_left (hQ.orThrow _ _) fun page => ?_
  refine hF.bind_left (hQ.require _ _) fun _ => ?_
  refine hF.bind_left (hQ.attempt _) fun _ => ?_
  refine hF.bind_left (hQ.require _ _) fun _ => ?_
  refine hF.bind_left (hQ.query _) fun _ => ?_
  refine hF.bind_left (hQ.query _) fun _ => ?_
  split
  · exact hF.of_service (hQ.pure _)
  · refine hF.bind_left (hQ.attempt _) fun _ => ?_
    refine hF.bind_left (hQ.require _ _) fun _ => ?_
    refine .require_bind fun hlt => .attempt_bind fun _ hwire => ?_
    refine hF.bind_left (hQ.require _ _) fun _ => ?_
    refine hF.bind_right (hF.writeFileSetRevision _ _ hlt (canonicalUtcWire_ok.mp hwire).1)
      fun _ => ?_
    exact hQ.bind (hQ.attempt _) fun _ => hQ.pure _

theorem keeps_appendUnlessSame (hF : OperationFrame Q A) (page : Page) (command : FileSetAppendCommand)
    (expectedEtag : Text) (manifest : FileManifest) (presentation : Presentation) (operationAt : ℤ)
    (fresh : Fresh) :
    Keeps A
      (appendUnlessSame page command expectedEtag manifest presentation operationAt fresh) := by
  have hQ := hF.service
  refine hF.bind_left (hQ.query _) fun _ => ?_
  refine hF.bind_left (hQ.query _) fun _ => ?_
  split
  · exact hF.of_service (hQ.pure _)
  · exact hF.bind_left (hQ.attempt _) fun _ => hF.keeps_appendExistingPage _

theorem keeps_appendFileSet (hF : OperationFrame Q A) (tokenValue : Text) (command : FileSetAppendCommand)
    (keyDigest : Bytes) (clock : ℤ) (fresh : Fresh) :
    Keeps A (appendFileSet tokenValue command keyDigest clock fresh) := by
  have hQ := hF.service
  refine hF.bind_left (hQ.attempt _) fun manifest => ?_
  refine hF.bind_left (hQ.attempt _) fun _ => ?_
  refine hF.bind_left (hQ.attempt _) fun operationAt => ?_
  refine hF.bind_left (hQ.authenticate _ _) fun _ => ?_
  refine hF.bind_left (hQ.keeps_fileSetPage _ _ _) fun page => ?_
  refine hF.bind_left (hQ.keeps_authorizeContent _ _ _ _ _) fun a => ?_
  refine hF.bind_left (hQ.query _) fun replay => ?_
  cases replay with
  | some replay => exact hF.of_service (hQ.bind (hQ.query _) fun _ => hQ.pure _)
  | none =>
    refine hF.bind_left (hQ.attempt _) fun presentation => ?_
    refine hF.bind_left (hQ.keeps_authorizeContent _ _ _ _ _) fun _ => ?_
    refine hF.bind_left (hQ.require _ _) fun _ => ?_
    refine hF.bind_left (hQ.require _ _) fun _ => ?_
    refine hF.bind_left (hQ.orThrow _ _) fun _ => ?_
    refine hF.bind_left (hQ.keeps_requireCurrentEtag _ _ _) fun _ => ?_
    refine hF.bind_right (hF.keeps_appendUnlessSame _ _ _ _ _ _ _) fun _ => ?_
    refine hQ.bind (hQ.keeps_auditChanged _ _ _ _ _) fun _ => ?_
    refine hQ.bind (hQ.attempt _) fun _ => ?_
    exact hQ.bind (hQ.keeps_recordSuccess _ _ _) fun _ => hQ.pure _

theorem keeps_createFileSet (hF : OperationFrame Q A) (tokenValue : Text) (command : FileSetCreateCommand)
    (keyDigest : Bytes) (clock : ℤ) (fresh : Fresh) :
    Keeps A (createFileSet tokenValue command keyDigest clock fresh) := by
  have hQ := hF.service
  refine hF.bind_left (hQ.attempt _) fun manifest => ?_
  refine hF.bind_left (hQ.attempt _) fun _ => ?_
  refine hF.bind_left (hQ.attempt _) fun operationAt => ?_
  refine hF.bind_left (hQ.authenticate _ _) fun a => ?_
  refine hF.bind_left (hQ.query _) fun stored => ?_
  cases stored with
  | some stored =>
    refine hF.of_service ?_
    refine hQ.bind (hQ.attempt _) fun _ => ?_
    refine hQ.bind (hQ.query _) fun _ => ?_
    refine hQ.bind (hQ.keeps_authorizeContent _ _ _ _ _) fun _ => ?_
    refine hQ.bind (hQ.query _) fun _ => ?_
    refine hQ.bind (hQ.orThrow _ _) fun _ => ?_
    exact hQ.bind (hQ.query _) fun _ => hQ.pure _
  | none =>
    refine hF.bind_left (hQ.keeps_authorizeContent _ _ _ _ _) fun _ => ?_
    refine hF.bind_left (hQ.query _) fun _ => ?_
    refine hF.bind_left (hQ.require _ _) fun _ => ?_
    refine hF.bind_left (hQ.query _) fun _ => ?_
    refine hF.bind_left (hQ.require _ _) fun _ => ?_
    refine hF.bind_right (hF.createFileSetPage _ _ _ _ _ _ _ _) fun _ => ?_
    refine hQ.bind (hQ.insertAuditEvent _) fun _ => ?_
    refine hQ.bind (hQ.attempt _) fun _ => ?_
    exact hQ.bind (hQ.keeps_recordSuccess _ _ _) fun _ => hQ.pure _

theorem keeps_movePage (hF : OperationFrame Q A) (tokenValue : Text) (command : PageMoveCommand) (keyDigest : Bytes)
    (clock : ℤ) (fresh : Fresh) :
    Keeps A (movePage tokenValue command keyDigest clock fresh) := by
  have hQ := hF.service
  refine hF.bind_left (hQ.attempt _) fun now => ?_
  refine hF.bind_left (hQ.keeps_authorizePageMove _ _ _) fun a => ?_
  refine hF.bind_left (hQ.query _) fun replay => ?_
  cases replay with
  | some replay =>
    refine hF.of_service (hQ.bind (hQ.query _) fun _ => ?_)
    exact hQ.bind (hQ.keeps_requireReceipt _) fun _ => hQ.pure _
  | none =>
    refine hF.bind_left (hQ.query _) fun plan => ?_
    refine hF.bind_left (hQ.keeps_auditMove _ _) fun audit => ?_
    refine hF.bind_right (hF.applyPageMove _ _) fun _ => ?_
    refine hQ.bind (hQ.attempt _) fun _ => ?_
    refine hQ.bind (hQ.keeps_recordSuccess _ _ _) fun _ => ?_
    exact hQ.bind (hQ.keeps_requireReceipt _) fun _ => hQ.pure _

theorem keeps_transitionPage (hF : OperationFrame Q A) (tokenValue : Text) (command : PageLifecycleCommand)
    (keyDigest : Bytes) (clock : ℤ) (fresh : Fresh) :
    Keeps A (transitionPage tokenValue command keyDigest clock fresh) := by
  have hQ := hF.service
  refine hF.bind_left (hQ.attempt _) fun now => ?_
  refine hF.bind_left (hQ.keeps_authorizePageMove _ _ _) fun a => ?_
  refine hF.bind_left (hQ.query _) fun replay => ?_
  cases replay with
  | some replay =>
    refine hF.of_service (hQ.bind (hQ.query _) fun _ => ?_)
    exact hQ.bind (hQ.keeps_requireReceipt _) fun _ => hQ.pure _
  | none =>
    refine hF.bind_left (hQ.query _) fun page => ?_
    refine hF.bind_left (hQ.attempt _) fun _ => ?_
    refine hF.bind_left (hQ.require _ _) fun _ => ?_
    refine hF.bind_left (hQ.require _ _) fun _ => ?_
    refine hF.bind_left (hQ.query _) fun _ => ?_
    refine hF.bind_right (hF.transitionPageLifecycle _ _ _ _ _) fun _ => ?_
    refine hQ.bind (hQ.insertAuditEvent _) fun _ => ?_
    refine hQ.bind (hQ.attempt _) fun _ => ?_
    refine hQ.bind (hQ.keeps_recordSuccess _ _ _) fun _ => ?_
    exact hQ.bind (hQ.keeps_requireReceipt _) fun _ => hQ.pure _

/-! ### The operations of the administrator -/

theorem keeps_changePageLifecycleAsMaster (hF : OperationFrame Q A) (session : MasterAdminSession) (time : ℤ)
    (request : MasterLifecycleRequest) (action : LifecycleAction) (clock : ℤ) (fresh : Fresh) :
    Keeps A (changePageLifecycleAsMaster session time request action clock fresh) := by
  have hQ := hF.service
  refine hF.bind_left (hQ.keeps_requireMasterSession _ _) fun _ => ?_
  refine hF.bind_left (hQ.query _) fun page => ?_
  refine hF.bind_left (hQ.require _ _) fun _ => ?_
  refine hF.bind_left (hQ.keeps_requireCurrentEtag _ _ _) fun _ => ?_
  refine hF.bind_left (hQ.require _ _) fun _ => ?_
  refine hF.bind_left (hQ.require _ _) fun _ => ?_
  refine hF.bind_left (hQ.attempt _) fun changedAt => ?_
  refine hF.bind_left (hQ.keeps_addMasterSuccess _ _ _ _ _ _) fun _ => ?_
  refine hF.bind_right (hF.transitionPageLifecycle _ _ _ _ _) fun _ => ?_
  exact hQ.attempt _

theorem keeps_updatePageTitleAsMaster (hF : OperationFrame Q A) (session : MasterAdminSession) (time : ℤ)
    (request : MasterTitleRequest) (clock : ℤ) (fresh : Fresh) :
    Keeps A (updatePageTitleAsMaster session time request clock fresh) := by
  have hQ := hF.service
  refine hF.bind_left (hQ.keeps_requireMasterSession _ _) fun _ => ?_
  refine hF.bind_left (hQ.query _) fun _ => ?_
  refine hF.bind_left (hQ.orThrow _ _) fun page => ?_
  refine hF.bind_left (hQ.require _ _) fun _ => ?_
  refine hF.bind_left (hQ.require _ _) fun _ => ?_
  split
  · exact hF.of_service (hQ.pure _)
  · next htitle =>
    refine .attempt_bind fun changedAt hclock => ?_
    obtain ⟨hat, hwire⟩ := changeTime_ok hclock
    refine hF.bind_left (hQ.keeps_addMasterSuccess _ _ _ _ _ _) fun _ => ?_
    refine hF.bind_right (hF.updatePageTitle htitle (by omega) hwire) fun _ => ?_
    exact hQ.bind (hQ.orThrow _ _) fun _ => hQ.pure _

theorem keeps_correctPageOccurrenceAsMaster (hF : OperationFrame Q A) (session : MasterAdminSession) (time : ℤ)
    (request : MasterOccurrenceRequest) (clock : ℤ) (fresh : Fresh) :
    Keeps A (correctPageOccurrenceAsMaster session time request clock fresh) := by
  have hQ := hF.service
  refine hF.bind_left (hQ.attempt _) fun occurredAt => ?_
  refine hF.bind_left (hQ.keeps_requireMasterSession _ _) fun _ => ?_
  refine hF.bind_left (hQ.query _) fun page => ?_
  refine hF.bind_left (hQ.require _ _) fun _ => ?_
  refine hF.bind_left (hQ.keeps_requireCurrentEtag _ _ _) fun _ => ?_
  split
  · exact hF.of_service (hQ.pure _)
  · refine hF.bind_left (hQ.attempt _) fun changedAt => ?_
    refine hF.bind_left (hQ.keeps_addMasterSuccess _ _ _ _ _ _) fun _ => ?_
    exact hF.bind_right (hF.correctOccurrence _ _ _ _ _) fun _ => hQ.pure _

theorem keeps_movePageAsMaster (hF : OperationFrame Q A) (session : MasterAdminSession) (time : ℤ)
    (command : PageMoveCommand) (keyDigest : Bytes) (now : ℤ) (fresh : Fresh) :
    Keeps A (movePageAsMaster session time command keyDigest now fresh) := by
  have hQ := hF.service
  refine hF.bind_left (hQ.keeps_requireMasterSession _ _) fun _ => ?_
  refine hF.bind_left (hQ.query _) fun previous => ?_
  cases previous with
  | some previous =>
    refine hF.of_service (hQ.bind (hQ.require _ _) fun _ => ?_)
    exact hQ.bind (hQ.query _) fun _ => hQ.pure _
  | none =>
    refine hF.bind_left (hQ.query _) fun plan => ?_
    refine hF.bind_left (hQ.keeps_auditMasterMove _ _ _) fun audit => ?_
    refine hF.bind_right (hF.applyPageMove _ _) fun _ => ?_
    refine hQ.bind (hQ.attempt _) fun _ => ?_
    refine hQ.bind (hQ.insertMasterMoveReceipt _) fun _ => ?_
    exact hQ.bind (hQ.query _) fun _ => hQ.pure _

theorem keeps_runMasterFileSet (hF : OperationFrame Q A) (command : MasterFileSetCommand) (book : Book)
    (manifest : FileManifest) (now : ℤ) (fresh : Fresh) :
    Keeps A (runMasterFileSet command book manifest now fresh) := by
  have hQ := hF.service
  cases command with
  | create command =>
    exact hF.bind_right (hF.createFileSetPage _ _ _ _ _ _ _ _) fun _ => hQ.pure _
  | revise command bookId =>
    refine hF.bind_left (hQ.query _) fun _ => ?_
    refine hF.bind_left (hQ.orThrow _ _) fun page => ?_
    refine hF.bind_left (hQ.require _ _) fun _ => ?_
    refine hF.bind_left (hQ.orThrow _ _) fun _ => ?_
    refine hF.bind_left (hQ.query _) fun _ => ?_
    exact hF.bind_right (hF.keeps_appendExistingPage _) fun _ => hQ.pure _

theorem keeps_writeFileSetAsMaster (hF : OperationFrame Q A) (session : MasterAdminSession) (time : ℤ)
    (command : MasterFileSetCommand) (keyDigest : Bytes) (now : ℤ) (fresh : Fresh) :
    Keeps A (writeFileSetAsMaster session time command keyDigest now fresh) := by
  have hQ := hF.service
  refine hF.bind_left (hQ.attempt _) fun manifest => ?_
  refine hF.bind_left (hQ.keeps_requireMasterSession _ _) fun _ => ?_
  refine hF.bind_left (hQ.query _) fun previous => ?_
  cases previous with
  | some previous =>
    refine hF.of_service (hQ.bind (hQ.require _ _) fun _ => ?_)
    exact hQ.bind (hQ.query _) fun _ => hQ.pure _
  | none =>
    refine hF.bind_left (hQ.attempt _) fun _ => ?_
    refine hF.bind_left (hQ.query _) fun book => ?_
    refine hF.bind_right (hF.keeps_runMasterFileSet _ _ _ _ _) fun _ => ?_
    refine hQ.bind (hQ.keeps_associateMasterChange _ _ _ _ _ _) fun _ => ?_
    refine hQ.bind (hQ.attempt _) fun _ => ?_
    refine hQ.bind (hQ.insertMasterFileSetReceipt _) fun _ => ?_
    exact hQ.bind (hQ.query _) fun _ => hQ.pure _

/-! ### The operations of the browser -/

theorem keeps_saveNewPage (hF : OperationFrame Q A) (request : SaveRequest) (now : ℤ) (fresh : Fresh) :
    Keeps A (saveNewPage request now fresh) := by
  have hQ := hF.service
  refine hF.bind_left (hQ.query _) fun _ => ?_
  refine hF.bind_left (hQ.attempt _) fun _ => ?_
  refine hF.bind_left (hQ.attempt _) fun _ => ?_
  refine hF.bind_left (hQ.attempt _) fun _ => ?_
  refine hF.bind_left (hQ.attempt _) fun _ => ?_
  exact hF.bind_right (hF.createFileSetPage _ _ _ _ _ _ _ _) fun _ => hQ.pure _

theorem keeps_saveExistingPage (hF : OperationFrame Q A) (request : SaveRequest) (pageId : Text) (now : ℤ)
    (fresh : Fresh) : Keeps A (saveExistingPage request pageId now fresh) := by
  have hQ := hF.service
  refine hF.bind_left (hQ.query _) fun _ => ?_
  refine hF.bind_left (hQ.attempt _) fun _ => ?_
  refine hF.bind_left (hQ.query _) fun _ => ?_
  refine hF.bind_left (hQ.attempt _) fun _ => ?_
  exact hF.bind_right (hF.keeps_appendExistingPage _) fun _ => hQ.pure _

theorem keeps_saveFiles (hF : OperationFrame Q A) (request : SaveRequest) (now : ℤ) (fresh : Fresh) :
    Keeps A (saveFiles request now fresh) := by
  unfold saveFiles
  split
  · exact hF.keeps_saveNewPage _ _ _
  · exact hF.keeps_saveExistingPage _ _ _ _

theorem keeps_savePage (hF : OperationFrame Q A) (session : MasterAdminSession) (time : ℤ) (keyDigest : Bytes)
    (request : SaveRequest) (readings : Readings) (fresh : Fresh) :
    Keeps A (savePage session time keyDigest request readings fresh) := by
  have hQ := hF.service
  refine hF.bind_left (hQ.keeps_requireMasterSession _ _) fun _ => ?_
  refine hF.bind_left (hQ.query _) fun previous => ?_
  cases previous with
  | some previous => exact hF.of_service (hQ.pure _)
  | none =>
    refine hF.bind_right ?_ fun _ => hQ.pure _
    refine hF.bind_right (hF.keeps_saveFiles _ _ _) fun _ => ?_
    refine hQ.bind (hQ.keeps_auditWorkspace _ _ _ _ _ _ _ _) fun _ => ?_
    refine hQ.bind (hQ.attempt _) fun _ => ?_
    exact hQ.bind (hQ.insertWorkspaceSaveReceipt _) fun _ => hQ.pure _

theorem keeps_restoreRevision (hF : OperationFrame Q A) (session : MasterAdminSession) (time : ℤ) (keyDigest : Bytes)
    (request : RestoreRequest) (readings : Readings) (fresh : Fresh) :
    Keeps A (restoreRevision session time keyDigest request readings fresh) := by
  have hQ := hF.service
  refine hF.bind_left (hQ.keeps_requireMasterSession _ _) fun _ => ?_
  refine hF.bind_left (hQ.query _) fun previous => ?_
  cases previous with
  | some previous => exact hF.of_service (hQ.pure _)
  | none =>
    refine hF.bind_right ?_ fun _ => hQ.pure _
    refine hF.bind_left (hQ.query _) fun page => ?_
    refine hF.bind_left (hQ.query _) fun revision => ?_
    refine hF.bind_left (hQ.query _) fun snapshot => ?_
    refine hF.bind_left (hQ.query _) fun presentation => ?_
    refine hF.bind_right (hF.keeps_appendExistingPage _) fun _ => ?_
    refine hQ.bind (hQ.keeps_auditWorkspace _ _ _ _ _ _ _ _) fun _ => ?_
    exact hQ.bind (hQ.insertWorkspaceSaveReceipt _) fun _ => hQ.pure _

end OperationFrame

end PatchouliLib
