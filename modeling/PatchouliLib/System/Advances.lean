import PatchouliLib.Content.RepositoryChanges
import PatchouliLib.System.OperationFrames

/-!
# Every operation makes at most one change

The statements around a write are quiet, and each of the eight writes makes at
most one valid change.  So does every operation, by the frames of the operations.

## Main results

* `quietFrame` — the statements that touch neither a Page row nor its history are
  quiet.
* `advancesFrame` — every operation makes at most one valid change.
-/

namespace PatchouliLib

open Foundation

/-! ### The quiet statements -/

theorem quiet_authenticate [Platform] (tokenValue : Text) (now : ℤ) :
    Keeps QuietOn (authenticate tokenValue now) := by
  refine Quiet.tableFrame.bind (Quiet.tableFrame.query _) fun a => ?_
  split
  · refine Quiet.tableFrame.bind (.writes fun _ => ?_) fun _ => Quiet.tableFrame.pure _
    exact ⟨rfl, rfl, rfl, rfl, rfl, List.prefix_rfl, List.prefix_rfl⟩
  · exact Quiet.tableFrame.pure _

/-- **The statements that touch neither a Page row nor its history are quiet.** -/
theorem quietFrame [Platform] : ContentFrame QuietOn := Quiet.tableFrame.contentFrame quiet_authenticate

theorem addRevision_ok {r r' : Revision} {c c' : Connection} (h : addRevision r c = .ok (r', c')) :
    r' = r ∧ insertRevision r c = .ok (⟨⟩, c') := by
  simp only [addRevision, bind_ok, attempt_ok, require_ok, pure_ok, exists_and_left,
    exists_eq_left', and_assoc, exists_const] at h
  obtain ⟨_, -, -, -, _, _, hinsert, rfl, rfl⟩ := h
  exact ⟨rfl, hinsert⟩

variable [Platform]

/-! ### New Revisions and Pages -/

theorem advances_appendMarkdownRevision (page : Page) (contentMd : Bytes) {revisionAt : ℤ}
    (fresh : Fresh) (hwire : InUtcRange revisionAt) :
    Keeps AdvancesOn (appendMarkdownRevision page contentMd revisionAt fresh) := by
  intro c x c' h hsound
  simp only [appendMarkdownRevision, advanceCurrentRevision, bind_ok, require_ok, query_ok,
    pure_ok, orThrow_ok, exists_and_left, exists_eq_left', and_assoc, exists_const] at h
  obtain ⟨revisionId, -, r, c₁, hadd, hlt, hat, _, c₂, ⟨matched, _, hupdate, rfl, rfl⟩, page', hsome,
    rfl, rfl⟩ := h
  obtain ⟨rfl, hinsert⟩ := addRevision_ok hadd
  rcases updatePageWhere_ok hupdate with
    ⟨rfl, -⟩ | ⟨rfl, old, hold, -, ⟨hcurrent, -, hupdated, hactive⟩, hallowed, rfl⟩
  · cases hsome
  have hnext : (markdownRevision ⟨page.key, revisionId, page.currentRevisionNumber + 1⟩ contentMd
      revisionAt).Succeeds old := .of_matched rfl rfl hcurrent hupdated hactive hlt hwire
  obtain ⟨hvalid, hquiet⟩ := advanceRevision_ok hsound hinsert (Quiet.refl _) hold hnext hallowed
  exact Advances.of_update hvalid hquiet

theorem insertFileSet_ok {key : RevisionKey} {createdAt : ℤ} {manifest : FileManifest}
    {c c' : Connection} {w : PUnit} (h : insertFileSet key createdAt manifest c = .ok (w, c')) :
    ∃ w' c₁, insertRevision (fileSetRevision key createdAt) c = .ok (w', c₁) ∧
      Quiet c₁.store c'.store := by
  obtain ⟨w', c₁, hinsert, hrest⟩ := bind_ok.mp h
  refine ⟨w', c₁, hinsert, ?_⟩
  refine quietFrame.bind (quietFrame.insertRevisionFileSet _) (fun _ => ?_) _ _ _ hrest
  refine quietFrame.bind (.forEach quietFrame.toIsFrame (fun _ => quietFrame.insertRevisionFile _) _)
    fun _ => ?_
  exact quietFrame.insertRevisionFileSeal _

theorem advances_writeFileSetRevision {page : Page} {command : FileSetAppend}
    (manifest : FileManifest) (presentation : Presentation)
    (hlt : page.updatedAt < command.revisionAt) (hwire : InUtcRange command.revisionAt) :
    Keeps AdvancesOn (writeFileSetRevision page command manifest presentation) := by
  intro c x c' h hsound
  simp only [writeFileSetRevision, advanceFileSetCurrentRevision, bind_ok, pure_ok, orThrow_ok,
    exists_and_left, exists_eq_left', and_assoc] at h
  obtain ⟨_, c₁, hset, _, c₂, hsource, _, c₃, hpresent, _, c₄, ⟨matched, _, hupdate, rfl, rfl⟩, page',
    hsome, _, c₅, hreadback, rfl, rfl⟩ := h
  obtain ⟨_, c₀, hinsert, hrest⟩ := insertFileSet_ok hset
  have hquiet : Quiet c₀.store c₃.store :=
    (hrest.trans (quietFrame.keeps_addSource _ _ _ _ hsource)).trans (quietFrame.keeps_savePresentation _ _ _ _ _ hpresent)
  rcases updatePageWhere_ok hupdate with
    ⟨rfl, -⟩ | ⟨rfl, old, hold, -, ⟨hcurrent, -, hupdated, hactive⟩, hallowed, rfl⟩
  · cases hsome
  have hnext : (fileSetRevision ⟨page.key, command.revisionId, page.currentRevisionNumber + 1⟩
      command.revisionAt).Succeeds old := .of_matched rfl rfl hcurrent hupdated hactive hlt hwire
  obtain ⟨hvalid, hafter⟩ := advanceRevision_ok hsound hinsert hquiet hold hnext hallowed
  refine Advances.of_update hvalid (hafter.trans ?_)
  exact quietFrame.keeps_requireReadback _ _ _ _ _ hreadback

theorem Page.eq_of_validateNew {p q : Page} (h : p.validateNew = .ok q) : q = p := by
  simp only [Page.validateNew, Fallible.bind_ok, Fallible.pure_ok] at h
  obtain ⟨_, -, _, -, _, -, _, -, _, -, _, -, _, -, _, -, rfl⟩ := h
  rfl

theorem addPage_ok {p p' : Page} {c c' : Connection} (h : addPage p c = .ok (p', c')) :
    p' = p ∧ insertPage p c = .ok (⟨⟩, c') := by
  simp only [addPage, bind_ok, attempt_ok, pure_ok, and_assoc, exists_and_left,
    exists_eq_left'] at h
  obtain ⟨q, hvalid, _, _, hinsert, rfl, rfl⟩ := h
  obtain rfl := Page.eq_of_validateNew hvalid
  exact ⟨rfl, hinsert⟩

theorem advances_createMarkdownPage (book : Book) (title : Text) (occurredAt : ℤ) {operationAt : ℤ}
    (contentMd : Bytes) (source : ArchiveSourceInput) (fresh : Fresh)
    (hwire : InUtcRange operationAt) :
    Keeps AdvancesOn (createMarkdownPage book title occurredAt operationAt contentMd source fresh) := by
  refine .bind_left (quietFrame.keeps_allocatePageId _ _ _ _ _) fun generated => ?_
  refine .bind_left (quietFrame.query _) fun pageUid => ?_
  refine .bind_left (quietFrame.query _) fun revisionId => ?_
  intro c x c' h hsound
  simp only [bind_ok, pure_ok] at h
  obtain ⟨page, c₁, hpage, r, c₂, hadd, _, c₃, hidentifier, _, c₄, hsource, rfl, rfl⟩ := h
  obtain ⟨rfl, hinsert⟩ := addPage_ok hpage
  obtain ⟨rfl, hrevision⟩ := addRevision_ok hadd
  obtain ⟨hvalid, hafter⟩ := createPage_ok hinsert hrevision rfl rfl rfl hwire
  refine Advances.of_create hvalid (hafter.trans ?_)
  exact (quietFrame.keeps_addIdentifier _ _ _ _ _ _ _ hidentifier).trans (quietFrame.keeps_addSource _ _ _ _ hsource)

theorem advances_createFileSetPage (book : Book) (title : Text) (occurredAt operationAt : ℤ)
    (manifest : FileManifest) (source : ArchiveSourceInput) (primaryFile : Option Text)
    (fresh : Fresh) :
    Keeps AdvancesOn (createFileSetPage book title occurredAt operationAt manifest source primaryFile
      fresh) := by
  refine .bind_left (quietFrame.attempt _) fun presentation => ?_
  intro c x c' h hsound
  simp only [requireWireTimes, bind_ok, pure_ok, attempt_ok, query_ok, exists_and_left,
    exists_eq_left', and_assoc, exists_const, canonicalUtcWire_ok] at h
  obtain ⟨-, hwire, -, generated, c₀, hallocate, pageUid, -, revisionId, -, page, c₁, hpage, _, c₂, hset,
    _, c₃, hpresent, _, c₄, hidentifier, _, c₅, hsource, _, c₆, hreadback, rfl, rfl⟩ := h
  have hbefore : Quiet c.store c₀.store := quietFrame.keeps_allocatePageId _ _ _ _ _ _ _ _ hallocate
  obtain ⟨rfl, hinsert⟩ := addPage_ok hpage
  obtain ⟨_, c₇, hrevision, hrest⟩ := insertFileSet_ok hset
  obtain ⟨hvalid, hafter⟩ := createPage_ok hinsert hrevision rfl rfl rfl hwire
  refine Advances.quiet_left hbefore (Advances.of_create hvalid ?_)
  refine hafter.trans (hrest.trans ?_)
  refine (quietFrame.keeps_savePresentation _ _ _ _ _ hpresent).trans ?_
  refine (quietFrame.keeps_addIdentifier _ _ _ _ _ _ _ hidentifier).trans ?_
  exact (quietFrame.keeps_addSource _ _ _ _ hsource).trans (quietFrame.keeps_requireReadback _ _ _ _ _ hreadback)

/-- **Every operation makes at most one valid change.** -/
theorem advancesFrame : OperationFrame QuietOn AdvancesOn where
  service := quietFrame.toServiceFrame
  of_quiet h _ := .inl h
  left h h' hsound := Advances.quiet_left h (h' (h.pagesSound hsound))
  right h h' hsound := Advances.quiet_right (h hsound) h'
  createMarkdownPage _ _ _ _ _ _ _ := advances_createMarkdownPage _ _ _ _ _ _
  createFileSetPage := advances_createFileSetPage
  appendMarkdownRevision _ _ _ _ hwire _ _ _ _ h :=
    advances_appendMarkdownRevision _ _ _ hwire _ _ _ h
  writeFileSetRevision := advances_writeFileSetRevision
  correctOccurrence := advances_correctOccurrence
  transitionPageLifecycle := advances_transitionPageLifecycle
  updatePageTitle := advances_updatePageTitle
  applyPageMove := advances_applyPageMove

end PatchouliLib
