import PatchouliLib.System.PageIdentifiers
import PatchouliLib.System.Snapshots

/-!
# Restoring a Revision

A restore appends a Revision with the files and the presentation of an old one.  The
master's restore reads its source in one transaction and writes in another; whatever
happens in between, the write starts from the state it finds under its lock.  The
browser's restore reads and writes in one transaction.

## Main definitions

* `Store.appearance` — the files and the presentation of a Revision.
* `Restored p q source changed s t` — `t` is `s` after a restore of `source`.

## Main results

* `appendExistingPage_ok` — what an append leaves behind.
* `restoreRevision_of_run` — **a successful restore is exact, and it writes nothing
  exactly when the current Revision already looks like its source.**
-/

namespace PatchouliLib

open Foundation

section

variable [Platform]

/-! ### Appearances -/

/-- The files of a Revision and its presentation, as they are read back. -/
def Store.appearance (s : Store) (key : RevisionKey) : Except Err FileManifest × Presentation :=
  ((s.snapshotRows key).manifest, readPresentation key.page key.revisionId s)

theorem SnapshotsSame.appearance_eq {s t : Store} (h : SnapshotsSame s t) (key : RevisionKey) :
    t.appearance key = s.appearance key := by
  rw [Store.appearance, Store.appearance, h.snapshotRows_eq, h.readPresentation_eq]

theorem SnapshotsKept.appearance_eq {s t : Store} (h : SnapshotsKept s t) {r : Revision}
    (hr : r ∈ s.content.revisions) : t.appearance r.key = s.appearance r.key := by
  rw [Store.appearance, Store.appearance, h.rows r hr, h.presentations r hr]

/-! ### Pages that are looked up -/

omit [Platform] in
theorem Page.eq_of_validateRecord {p q : Page} (h : p.validateRecord = .ok q) : q = p := by
  simp only [Page.validateRecord, Fallible.bind_ok, Fallible.pure_ok, Fallible.check_ok] at h
  obtain ⟨_, -, _, -, _, -, _, -, _, -, _, -, rfl⟩ := h
  rfl

/-- A Page that is found is a row of the table, under a registered identifier. -/
theorem getPage_ok {libraryId : Id} {identifierText : Text} {s : Store} {page : Page}
    (h : getPage libraryId identifierText s = .ok (some page)) :
    ∃ digest i, pageIdRegistryDigest identifierText = .ok digest ∧
      s.content.pageIdentifierRegistry.find? (fun i => decide (i.libraryId = libraryId ∧
        i.identifierDigest = digest ∧ i.identifierText = identifierText)) = some i ∧
      s.page? page.key = some page ∧ page.key = ⟨i.libraryId, i.pageUid⟩ := by
  simp only [getPage, Fallible.bind_ok] at h
  obtain ⟨digest, hdigest, h⟩ := h
  split at h
  · cases h
  · next p hfound =>
    simp only [Fallible.bind_ok, Fallible.pure_ok, Option.some.injEq] at h
    obtain ⟨q, hvalid, rfl⟩ := h
    obtain ⟨i, hi, hrow⟩ := Option.bind_eq_some_iff.mp hfound
    obtain rfl := Page.eq_of_validateRecord hvalid
    have hkey : q.key = ⟨i.libraryId, i.pageUid⟩ := by simpa using List.find?_some hrow
    refine ⟨digest, i, hdigest, hi, ?_, hkey⟩
    rw [hkey]
    exact hrow

/-- **An identifier finds the same Page ever after.** -/
theorem getPage_key_eq {libraryId : Id} {identifierText : Text} {s t : Store} {page page' : Page}
    (hgrow : IdentifiersGrow s t) (h : getPage libraryId identifierText s = .ok (some page))
    (h' : getPage libraryId identifierText t = .ok (some page')) : page'.key = page.key := by
  obtain ⟨digest, i, hdigest, hi, -, hkey⟩ := getPage_ok h
  obtain ⟨digest', i', hdigest', hi', -, hkey'⟩ := getPage_ok h'
  obtain rfl : digest = digest' := Except.ok.inj (hdigest.symm.trans hdigest')
  obtain ⟨added, hadded⟩ := hgrow.registry
  rw [← hadded, List.find?_append, hi] at hi'
  rw [hkey', hkey, ← Option.some.inj hi']

/-- The Page that an identifier finds is the one that has it. -/
theorem identifier_of_getPage {libraryId : Id} {identifierText : Text} {s : Store} {page : Page}
    (hsound : IdentifiersSound s) (h : getPage libraryId identifierText s = .ok (some page)) :
    page.key.libraryId = libraryId ∧ page.pageId = identifierText := by
  obtain ⟨digest, i, -, hi, hrow, hkey⟩ := getPage_ok h
  obtain ⟨hlibrary, -, htext⟩ : i.libraryId = libraryId ∧ i.identifierDigest = digest ∧
      i.identifierText = identifierText := by simpa using List.find?_some hi
  obtain ⟨q, hq, hqkey, hqid⟩ := hsound.owners i (List.mem_of_find?_eq_some hi)
  obtain ⟨hmem, -⟩ := hsound.keys.find?_eq.mp hrow
  obtain rfl : page = q := hsound.keys.eq_of_key hmem hq (hkey.trans hqkey.symm)
  rw [hkey, hqid, hlibrary, htext]
  exact ⟨rfl, rfl⟩

omit [Platform] in
/-- The row of a key that only one row has. -/
theorem page?_eq_some {s : Store} (hkeys : Keyed Page.key s.content.pages) {key : PageKey}
    {page : Page} : s.page? key = some page ↔ page ∈ s.content.pages ∧ page.key = key :=
  hkeys.find?_eq

/-! ### Appending a snapshot -/

/-- **A new snapshot reads back as it was written**, and the Page is at it. -/
theorem writeFileSetRevision_ok {page q : Page} {command : FileSetAppend} {manifest : FileManifest}
    {presentation : Presentation} {c c' : Connection} (hsound : RevisionsSound c.store)
    (hkeys : Keyed Page.key c.store.content.pages) (hpage : c.store.page? page.key = some page)
    (h : writeFileSetRevision page command manifest presentation c = .ok (q, c')) :
    q = page.advanced command.revisionId (page.currentRevisionNumber + 1) command.revisionAt ∧
      c'.store.page? page.key = some q ∧
      c'.store.appearance q.currentRevision = (.ok manifest, presentation) ∧
      RevisionAdded (fileSetRevision q.currentRevision command.revisionAt)
        [⟨q.currentRevision, presentation.primaryFile, presentation.displayTitle⟩] c.store
        c'.store := by
  simp only [writeFileSetRevision, advanceFileSetCurrentRevision, bind_ok, pure_ok, orThrow_ok,
    exists_and_left, exists_eq_left', and_assoc] at h
  obtain ⟨_, c₁, hset, _, c₂, hsource, _, c₃, hpresent, _, c₄, ⟨matched, _, hupdate, rfl, rfl⟩, page',
    hsome, _, c₅, hreadback, rfl, rfl⟩ := h
  -- the Page rows are as they were until the row is advanced
  obtain ⟨_, c₀, hinsert, hrest⟩ := insertFileSet_ok hset
  obtain ⟨-, -, -, hquiet⟩ := insertRevision_ok hinsert
  have hpages : c₃.store.content.pages = c.store.content.pages :=
    ((hquiet.trans hrest).trans ((quietFrame.keeps_addSource _ _ _ _ hsource).trans
      (quietFrame.keeps_savePresentation _ _ _ _ _ hpresent))).pages
  rcases updatePageWhere_ok hupdate with ⟨rfl, -⟩ | ⟨rfl, old, hold, hkey, -, hallowed, rfl⟩
  · cases hsome
  obtain rfl : page.advanced command.revisionId (page.currentRevisionNumber + 1) command.revisionAt =
    page' := by simpa using hsome
  rw [hpages] at hold
  obtain ⟨hmem, -⟩ := (page?_eq_some hkeys).mp hpage
  obtain rfl : old = page := hkeys.eq_of_key hold hmem hkey
  set q := old.advanced command.revisionId (old.currentRevisionNumber + 1) command.revisionAt with hq
  set c₆ : Connection := ⟨c₃.store.afterPageUpdate old q, c₃.dirtied ++ pageUpdateMarks old q⟩ with hc₆
  have hsame : SnapshotsSame c₃.store c₆.store := SnapshotsSame.afterPageUpdate _ _ _
  have hadded := (savePresentation_added ((insertFileSet_added hset).same_right
    (SnapshotsSame.serviceFrame.keeps_addSource _ _ _ _ hsource)) hpresent).same_right hsame
  simp only [requireReadback, bind_ok, query_ok, require_ok, exists_and_left, exists_eq_left',
    and_assoc] at hreadback
  obtain ⟨readback, hmanifest, rfl, hc₅⟩ := hreadback
  rw [← hc₅]
  refine ⟨rfl, ?_, ?_, hadded⟩
  · have hrows : c₆.store.content.pages =
        c.store.content.pages.map fun p => if p.key = old.key then q else p := by
      rw [← hpages]
      exact (content_afterPageUpdate old q c₃.store).1
    have hq' : q ∈ c₆.store.content.pages := by
      rw [hrows]
      exact List.mem_map.mpr ⟨old, hold, if_pos rfl⟩
    refine (page?_eq_some ?_).mpr ⟨hq', rfl⟩
    rw [hrows]
    refine hkeys.map fun p hp => ?_
    split
    · next heq => exact heq.symm
    · rfl
  · have hshown := hadded.readPresentation_new fun p hp => by
      obtain ⟨r, hr, hkey, -⟩ := hsound.ofFiles p hp
      exact ⟨r, hr, hkey⟩
    exact Prod.ext hmanifest hshown

/-- `t` is `s` after an append of a snapshot to the Page `p`, which is then `q`. -/
structure Appended (p q : Page) (appearance : Except Err FileManifest × Presentation)
    (changed : Bool) (s t : Store) : Prop where
  before : s.page? p.key = some p
  after : t.page? p.key = some q
  live : p.deletedAt = none ∧ q.deletedAt = none
  title : q.title = p.title
  exact : t.appearance q.currentRevision = appearance
  changed_iff : changed = false ↔ s.appearance p.currentRevision = appearance
  noop : changed = false → t.content = s.content ∧ t.history = s.history
  next : changed = true → q.currentRevisionNumber = p.currentRevisionNumber + 1 ∧
    ∃ r, r.key = q.currentRevision ∧ r.contentMd = none ∧
      t.content.revisions = s.content.revisions ++ [r]
  kept : SnapshotsKept s t

/-- The two ways in which an append succeeds. -/
theorem appendExistingPage_cases {command : FileSetAppend} {result : FileSetAppendResult}
    {c c' : Connection} (h : appendExistingPage command c = .ok (result, c')) :
    ∃ manifest presentation page, buildFileManifest command.files = .ok manifest ∧
      command.presentation manifest = .ok presentation ∧
      getPage command.libraryId command.pageId c.store = .ok (some page) ∧
      page.deletedAt = none ∧ page.etag = .ok command.expectedEtag ∧
      (c.store.appearance page.currentRevision = (.ok manifest, presentation) ∧
          result = ⟨false, page, command.expectedEtag, manifest⟩ ∧ c' = c ∨
        c.store.appearance page.currentRevision ≠ (.ok manifest, presentation) ∧
          (∃ id, validateRevisionId command.revisionId = .ok id) ∧
          page.currentRevisionNumber < maxRevisionNumber ∧ page.updatedAt < command.revisionAt ∧
          InUtcRange command.revisionAt ∧ ∃ q etag, q.etag = .ok etag ∧
          writeFileSetRevision page command manifest presentation c = .ok (q, c') ∧
          result = ⟨true, q, etag, manifest⟩) := by
  simp only [appendExistingPage, bind_ok, attempt_ok, query_ok, orThrow_ok, require_ok,
    exists_and_left, exists_eq_left', and_assoc, exists_const] at h
  obtain ⟨manifest, hmanifest, presentation, hpresentation, _, hpage, page, rfl, hlive, etag, hetag,
    rfl, current, hcurrent, shown, hshown, h⟩ := h
  obtain rfl := Except.ok.inj hshown
  have happearance : c.store.appearance page.currentRevision =
      (.ok current, readPresentation page.key page.currentRevisionId c.store) := Prod.ext hcurrent rfl
  refine ⟨manifest, presentation, page, hmanifest, hpresentation, hpage, hlive, hetag, ?_⟩
  split at h
  · next hsame =>
    obtain ⟨rfl, rfl⟩ := hsame
    obtain ⟨rfl, rfl⟩ := pure_ok.mp h
    exact .inl ⟨happearance, rfl, rfl⟩
  · next hdiffers =>
    simp only [bind_ok, attempt_ok, require_ok, pure_ok, exists_and_left, exists_eq_left', and_assoc,
      exists_const] at h
    obtain ⟨id, hid, hnumber, hclock, wire, hwire, -, -, q, c₁, hwrite, etag', hetag', rfl, rfl⟩ := h
    refine .inr ⟨?_, ⟨id, hid⟩, hnumber, hclock, (canonicalUtcWire_ok.mp hwire).1, q, etag', hetag',
      hwrite, rfl⟩
    -- the append was made because the snapshots differ
    intro heq
    rw [happearance] at heq
    obtain ⟨hfiles, hpresent⟩ := Prod.mk.inj heq
    exact hdiffers ⟨(Except.ok.inj hfiles).symm, hpresent.symm⟩

/-- **What an append leaves behind.** -/
theorem appendExistingPage_ok {command : FileSetAppend} {result : FileSetAppendResult}
    {c c' : Connection} (hsound : RevisionsSound c.store)
    (hkeys : Keyed Page.key c.store.content.pages)
    (h : appendExistingPage command c = .ok (result, c')) :
    ∃ manifest presentation page, buildFileManifest command.files = .ok manifest ∧
      command.presentation manifest = .ok presentation ∧
      getPage command.libraryId command.pageId c.store = .ok (some page) ∧
      Appended page result.page (.ok manifest, presentation) result.changed c.store c'.store := by
  obtain ⟨manifest, presentation, page, hmanifest, hpresentation, hpage, hlive, -, h⟩ :=
    appendExistingPage_cases h
  obtain ⟨-, -, -, -, hrow, -⟩ := getPage_ok hpage
  refine ⟨manifest, presentation, page, hmanifest, hpresentation, hpage, ?_⟩
  rcases h with ⟨happearance, rfl, rfl⟩ | ⟨hdiffers, -, -, -, -, q, etag, -, hwrite, rfl⟩
  · exact
      { before := hrow
        after := hrow
        live := ⟨hlive, hlive⟩
        title := rfl
        exact := happearance
        changed_iff := ⟨fun _ => happearance, fun _ => rfl⟩
        noop := fun _ => ⟨rfl, rfl⟩
        next := fun hchanged => by cases hchanged
        kept := .of_same (.of_content rfl) }
  · obtain ⟨hq, hafter, hexact, hadded⟩ := writeFileSetRevision_ok hsound hkeys hrow hwrite
    exact
      { before := hrow
        after := hafter
        live := ⟨hlive, by rw [hq]; exact hlive⟩
        title := by rw [hq, Page.advanced_title]
        exact := hexact
        changed_iff := ⟨fun hchanged => (by cases hchanged), fun heq => absurd heq hdiffers⟩
        noop := fun hchanged => by cases hchanged
        next := fun _ => ⟨by rw [hq, Page.advanced_currentRevisionNumber], _, rfl, rfl,
          hadded.revisions⟩
        kept := .of_added hadded }

/-! ### Around an append -/

/-- `t` has the content and the history of `s`. -/
def ContentSame (s t : Store) : Prop := t.content = s.content ∧ t.history = s.history

/-- The frame on the authority of an open transaction. -/
def ContentSameOn (c c' : Connection) : Prop := ContentSame c.store c'.store

namespace ContentSame

omit [Platform]

theorem isFrame : IsFrame ContentSameOn :=
  ⟨fun _ => ⟨rfl, rfl⟩, fun h h' => ⟨h'.1.trans h.1, h'.2.trans h.2⟩⟩

theorem keeps_addMasterSuccess (session : MasterAdminSession) (eventId : Id)
    (action targetType targetId : Text) (occurredAt : ℤ) :
    Keeps ContentSameOn (addMasterSuccess session eventId action targetType targetId occurredAt) := by
  intro c _ c' h
  obtain ⟨-, rfl⟩ := insertMasterAuditEvent_ok.mp h
  exact ⟨rfl, rfl⟩

theorem keeps_insertMasterFileSetReceipt (receipt : MasterFileSetReceipt) :
    Keeps ContentSameOn (insertMasterFileSetReceipt receipt) := by
  refine isFrame.bind (isFrame.constraint _) fun _ => isFrame.bind (isFrame.constraint _) fun _ => ?_
  exact isFrame.bind (isFrame.constraint _) fun _ => .writes fun _ => ⟨rfl, rfl⟩

theorem keeps_insertWorkspaceSaveReceipt (receipt : WorkspaceSaveReceipt) :
    Keeps ContentSameOn (insertWorkspaceSaveReceipt receipt) :=
  isFrame.bind (isFrame.constraint _) fun _ => .writes fun _ => ⟨rfl, rfl⟩

theorem keeps_associateMasterChange (session : MasterAdminSession)
    (operation : MasterFileSetOperation) (changed : Bool) (page : Page) (now : ℤ) (fresh : Fresh) :
    Keeps ContentSameOn (associateMasterChange session operation changed page now fresh) := by
  unfold associateMasterChange
  split
  · refine isFrame.bind (isFrame.query _) fun sources => ?_
    split
    · exact isFrame.bind (keeps_addMasterSuccess _ _ _ _ _ _) fun _ => isFrame.pure _
    · exact .raise _
  · exact isFrame.pure _

theorem keeps_auditWorkspace (session : MasterAdminSession) (action : Text) (libraryId : Id)
    (pageId : Text) (changed : Bool) (page : Page) (clock : ℤ) (fresh : Fresh) :
    Keeps ContentSameOn
      (auditWorkspace session action libraryId pageId changed page clock fresh) := by
  unfold auditWorkspace
  split
  · exact keeps_addMasterSuccess _ _ _ _ _ _
  · exact isFrame.pure _

end ContentSame

/-- The rows around the append leave it alone. -/
theorem Appended.same_right {p q : Page} {appearance : Except Err FileManifest × Presentation}
    {changed : Bool} {s t u : Store} (h : Appended p q appearance changed s t)
    (hsame : ContentSame t u) : Appended p q appearance changed s u where
  before := h.before
  after := by
    rw [Store.page?, hsame.1]
    exact h.after
  live := h.live
  title := h.title
  exact := (SnapshotsSame.of_content hsame.1).appearance_eq _ ▸ h.exact
  changed_iff := h.changed_iff
  noop hchanged := ⟨hsame.1.trans (h.noop hchanged).1, hsame.2.trans (h.noop hchanged).2⟩
  next hchanged := by
    rw [hsame.1]
    exact h.next hchanged
  kept := h.kept.trans (.of_same (.of_content hsame.1))

/-- An append that overrides the presentation gets the one it asks for. -/
theorem presentation_of_override {command : FileSetAppend} {manifest : FileManifest}
    {presentation shown : Presentation} (hoverride : command.presentationOverride = some shown)
    (h : command.presentation manifest = .ok presentation) : presentation = shown := by
  simp only [FileSetAppend.presentation, hoverride, Fallible.bind_ok, Fallible.check_ok,
    Fallible.pure_ok] at h
  obtain ⟨_, -, _, -, rfl⟩ := h
  rfl

/-- A snapshot that is read by the name of a Revision is the appearance of this
Revision. -/
theorem appearance_of_readVerified {page : Page} {r : Revision} {s : Store}
    {snapshot : VerifiedRevisionSnapshot} (hsound : RevisionsSound s) (hr : r ∈ s.content.revisions)
    (hpage : r.key.page = page.key)
    (h : readVerifiedRevisionSnapshot page r.key.revisionId s = .ok snapshot) :
    s.appearance r.key = (.ok snapshot.manifest, snapshot.presentation) ∧
      snapshot.revisionId = r.key.revisionId ∧ snapshot.revisionNumber = r.key.revisionNumber ∧
      snapshot.presentation = readPresentation page.key r.key.revisionId s := by
  obtain ⟨r', hr', hpage', hid, hsnapshotId, hnumber, hpresentation, hmanifest⟩ :=
    readVerifiedRevisionSnapshot_ok hsound.keys h
  obtain rfl : r' = r := by
    refine hsound.names.eq_of_key hr' hr ?_
    rw [Revision.name, Revision.name, hid, hpage', hpage]
  refine ⟨Prod.ext hmanifest ?_, hsnapshotId, hnumber, hpresentation⟩
  rw [hpresentation, ← hpage]
  rfl

/-! ### The master's restore -/

/-- **What a revising master leaves behind**: a kept answer, or an append. -/
theorem writeFileSetAsMaster_revise_ok {session : MasterAdminSession} {time now : ℤ}
    {command : FileSetAppendCommand} {bookId : Id} {keyDigest : Bytes} {fresh : Fresh}
    {result : MasterFileSetResult} {c c' : Connection}
    (h : writeFileSetAsMaster session time (.revise command bookId) keyDigest now fresh c =
      .ok (result, c')) :
    result.replayed = true ∧ c' = c ∨
      result.replayed = false ∧ ∃ manifest page etag restored appended c₁,
        buildFileManifest command.files = .ok manifest ∧
        getPage command.libraryId command.pageId c.store = .ok (some page) ∧
        restoredPresentation page command.source manifest c.store = .ok restored ∧
        appendExistingPage (masterAppend page command etag restored now fresh) c =
          .ok (appended, c₁) ∧
        ContentSame c₁.store c'.store ∧ result.receipt.changed = appended.changed := by
  simp only [writeFileSetAsMaster, requireMasterSession, bind_ok, attempt_ok, query_ok, require_ok,
    exists_and_left, exists_eq_left', and_assoc, exists_const, Fallible.pure_ok] at h
  obtain ⟨manifest, hmanifest, -, -, h⟩ := h
  cases hprevious : findMasterFileSetReceipt session.identityId
      (MasterFileSetCommand.revise command bookId).operation keyDigest c.store with
  | some previous =>
    simp only [hprevious, bind_ok, require_ok, query_ok, pure_ok, exists_and_left, exists_eq_left',
      and_assoc, exists_const] at h
    obtain ⟨-, verified, -, rfl, rfl⟩ := h
    exact .inl ⟨rfl, rfl⟩
  | none =>
    refine .inr ?_
    simp only [hprevious, MasterFileSetCommand.target, writeFileSetFresh, runMasterFileSet, bind_ok, attempt_ok,
      query_ok, orThrow_ok, require_ok, pure_ok, exists_and_left, exists_eq_left', and_assoc,
      exists_const] at h
    obtain ⟨_, -, book, -, written, _, ⟨_, hpage, page, rfl, -, -, -, etag, -, restored, hrestored,
      appended, c₁, happend, rfl, rfl⟩, linked, c₂, hassociate, _, -, _, c₃, hreceipt, verified, -, rfl,
      rfl⟩ := h
    have haround : ContentSame c₁.store c₃.store :=
      ContentSame.isFrame.trans (ContentSame.keeps_associateMasterChange _ _ _ _ _ _ _ _ _ hassociate)
        (ContentSame.keeps_insertMasterFileSetReceipt _ _ _ _ hreceipt)
    exact ⟨rfl, manifest, page, etag, restored, appended, c₁, hmanifest, hpage, hrestored, happend,
      haround, rfl⟩

/-- The key names the Revision `n` of the Page that the identifier finds. -/
def IsRevisionOf (libraryId : Id) (pageId : Text) (n : ℕ) (s : Store) (key : RevisionKey) : Prop :=
  key.revisionNumber = n ∧ (∃ r ∈ s.content.revisions, r.key = key) ∧
    ∃ page, getPage libraryId pageId s = .ok (some page) ∧ page.key = key.page

omit [Platform] in
theorem getRevision_ok {page : PageKey} {n : ℕ} {s : Store} {r : Revision}
    (h : getRevision page n s = some r) :
    r ∈ s.content.revisions ∧ r.key.page = page ∧ r.key.revisionNumber = n := by
  obtain ⟨hpage, hnumber⟩ : r.key.page = page ∧ r.key.revisionNumber = n := by
    simpa using List.find?_some h
  exact ⟨List.mem_of_find?_eq_some h, hpage, hnumber⟩

/-- What the read phase of a master's restore hands to the write. -/
theorem restoreRevisionCommand_ok {session : MasterAdminSession} {time : ℤ}
    {command : MasterRevisionRestoreCommand} {requestId : Text} {s : Store}
    {write : MasterFileSetCommand} (hsound : RevisionsSound s)
    (h : restoreRevisionCommand session time command requestId s = .ok write) :
    ∃ r ∈ s.content.revisions, ∃ revise : FileSetAppendCommand,
      write = .revise revise command.bookId ∧
      IsRevisionOf command.libraryId command.pageId command.sourceRevisionNumber s r.key ∧
      revise.libraryId = command.libraryId ∧ revise.pageId = command.pageId ∧
      revise.source = ⟨"revision_restore", some r.key.revisionId, none⟩ := by
  simp only [restoreRevisionCommand, Fallible.bind_ok, Fallible.check_ok, Fallible.get_ok,
    Fallible.pure_ok, exists_and_left, and_assoc, exists_const] at h
  obtain ⟨-, -, -, _, hpage, page, rfl, -, r, hr, snapshot, hsnapshot, -, rfl⟩ := h
  obtain ⟨hmem, hrpage, hnumber⟩ := getRevision_ok hr
  obtain ⟨-, hid, -, -⟩ := appearance_of_readVerified hsound hmem hrpage hsnapshot
  refine ⟨r, hmem, _, rfl, ⟨hnumber, ⟨r, hmem, rfl⟩, page, hpage, hrpage.symm⟩, rfl, rfl, ?_⟩
  rw [hid]

/-- **A master's restore appends what its source looks like under the write lock.** -/
theorem appended_of_masterRestore {session : MasterAdminSession} {time now : ℤ}
    {command : FileSetAppendCommand} {bookId : Id} {keyDigest : Bytes} {fresh : Fresh}
    {result : MasterFileSetResult} {c c' : Connection} {r : Revision}
    (hsound : RevisionsSound c.store) (hids : IdentifiersSound c.store)
    (hr : r ∈ c.store.content.revisions)
    (hsource : command.source = ⟨"revision_restore", some r.key.revisionId, none⟩)
    (hpages : ∀ page, getPage command.libraryId command.pageId c.store = .ok (some page) →
      page.key = r.key.page)
    (h : writeFileSetAsMaster session time (.revise command bookId) keyDigest now fresh c =
      .ok (result, c')) :
    result.replayed = true ∧ c' = c ∨
      result.replayed = false ∧ ∃ p q manifest, p.key = r.key.page ∧
        (c.store.appearance r.key).1 = .ok manifest ∧
        Appended p q (c.store.appearance r.key) result.receipt.changed c.store c'.store := by
  refine (writeFileSetAsMaster_revise_ok h).imp_right ?_
  rintro ⟨hfresh, manifest, page, etag, restored, appended, c₁, hmanifest, hpage, hrestored, happend,
    haround, hchanged⟩
  have hkey := hpages page hpage
  -- the source is read again under the lock
  have hne : r.key.revisionId ≠ [] := by
    intro hnil
    have hlength := (hsound.checks r hr).1
    rw [hnil] at hlength
    exact absurd hlength (by decide)
  have hfilter : (some r.key.revisionId).filter (· ≠ ([] : Text)) = some r.key.revisionId := by
    simp [hne]
  simp only [restoredPresentation, hsource, hfilter, reduceIte, Fallible.bind_ok, Fallible.check_ok,
    Fallible.pure_ok, exists_and_left, exists_const] at hrestored
  obtain ⟨snapshot, hsnapshot, hsame, rfl⟩ := hrestored
  obtain ⟨happearance, hid, -, hpresentation⟩ :=
    appearance_of_readVerified hsound hr hkey.symm hsnapshot
  obtain ⟨manifest', presentation, p, hmanifest', hpresentation', hp, hdone⟩ :=
    appendExistingPage_ok hsound hids.keys happend
  obtain rfl : manifest = manifest' := Except.ok.inj (hmanifest.symm.trans hmanifest')
  have hoverride := presentation_of_override rfl hpresentation'
  have hexact : ((.ok manifest, presentation) : Except Err FileManifest × Presentation) =
      c.store.appearance r.key := by
    rw [happearance, hoverride, hid, ← hpresentation, hsame]
  rw [hexact] at hdone
  -- the Page of the append is the one that the command names
  obtain ⟨hlibrary, hid'⟩ := identifier_of_getPage hids hpage
  have hp' : getPage command.libraryId command.pageId c.store = .ok (some p) := by
    rw [← hlibrary, ← hid']
    exact hp
  refine ⟨hfresh, p, appended.page, manifest, hpages p hp', ?_, hchanged ▸ hdone.same_right haround⟩
  rw [← hexact]

/-! ### The browser's restore -/

/-- **A browser's restore appends what its source looks like.** -/
theorem restoreRevision_ok {session : MasterAdminSession} {time : ℤ} {keyDigest : Bytes}
    {request : RestoreRequest} {readings : Readings} {fresh : Fresh}
    {response : WorkspaceSaveResponse} {replayed : Bool} {c c' : Connection}
    (hsound : RevisionsSound c.store) (hids : IdentifiersSound c.store)
    (h : restoreRevision session time keyDigest request readings fresh c =
      .ok ((response, replayed), c')) :
    replayed = true ∧ c' = c ∨
      replayed = false ∧ ∃ r ∈ c.store.content.revisions,
        IsRevisionOf request.libraryId request.pageId request.revisionNumber c.store r.key ∧
        ∃ p q manifest, p.key = r.key.page ∧ (c.store.appearance r.key).1 = .ok manifest ∧
          Appended p q (c.store.appearance r.key) response.changed c.store c'.store := by
  simp only [restoreRevision, requireMasterSession, bind_ok, query_ok, require_ok, exists_and_left,
    exists_eq_left', and_assoc, exists_const, Fallible.pure_ok] at h
  obtain ⟨-, -, previous, -, h⟩ := h
  cases previous with
  | some previous =>
    obtain ⟨heq, rfl⟩ := pure_ok.mp h
    exact .inl ⟨(Prod.mk.inj heq).2.symm, rfl⟩
  | none =>
    refine .inr ?_
    simp only [restoreRevisionFresh, workspacePage, bind_ok, query_ok, pure_ok,
      Fallible.bind_ok, Fallible.get_ok, Fallible.check_ok, Fallible.pure_ok, exists_and_left,
      exists_eq_left', and_assoc, exists_const] at h
    obtain ⟨_, _, ⟨_, ⟨_, hpage, page, rfl, -, rfl⟩, r, hr, snapshot, hsnapshot, result, c₁, happend, _,
      c₂, haudit, _, c₃, hremember, rfl, rfl⟩, heq, rfl⟩ := h
    obtain ⟨rfl, rfl⟩ := Prod.mk.inj heq
    obtain ⟨hmem, hrpage, hnumber⟩ := getRevision_ok hr
    obtain ⟨happearance, -, -, hpresentation⟩ := appearance_of_readVerified hsound hmem hrpage hsnapshot
    obtain ⟨manifest, presentation, p, hmanifest, hpresentation', hp, hdone⟩ :=
      appendExistingPage_ok hsound hids.keys happend
    -- the files of the source are normal, so the snapshot is built as it was
    obtain rfl : snapshot.manifest = manifest :=
      Except.ok.inj ((buildFileManifest_files snapshot.manifest).symm.trans hmanifest)
    have hoverride := presentation_of_override rfl hpresentation'
    have hexact : ((.ok snapshot.manifest, presentation) : Except Err FileManifest × Presentation) =
        c.store.appearance r.key := by
      rw [happearance, hoverride, hpresentation]
    rw [hexact] at hdone
    have haround : ContentSame c₁.store c₃.store :=
      ContentSame.isFrame.trans (ContentSame.keeps_auditWorkspace _ _ _ _ _ _ _ _ _ _ _ haudit)
        (ContentSame.keeps_insertWorkspaceSaveReceipt _ _ _ _ hremember)
    obtain ⟨hlibrary, hid⟩ := identifier_of_getPage hids hpage
    have hp' : getPage request.libraryId request.pageId c.store = .ok (some p) := by
      rw [← hlibrary, ← hid]
      exact hp
    obtain rfl : p = page := Option.some.inj (Except.ok.inj (hp'.symm.trans hpage))
    refine ⟨rfl, r, hmem, ⟨hnumber, ⟨r, hmem, rfl⟩, p, hpage, hrpage.symm⟩, p, result.page,
      snapshot.manifest, hrpage.symm, ?_, hdone.same_right haround⟩
    rw [← hexact]

/-! ### Restores in a run -/

/-- Whether a restore is answered from a kept response, and whether it says that the
Page has changed. -/
def Answer.restore? : Answer → Option (Bool × Bool)
  | .fileSet result => some (result.replayed, result.receipt.changed)
  | .workspace response replayed => some (replayed, response.changed)
  | _ => none

/-- What becomes of the database in a restore.  It fails with nothing changed, it is
answered from a kept response, or the Page is at a Revision that looks like the
source. -/
inductive RestoreOutcome (IsSource : RevisionKey → Prop) (db : Db)
    (outcome : Except Err Answer × Db) : Prop
  | failed (e : Err) (h : outcome = (.error e, db))
  | kept (answer : Answer) (db' : Db) (changed : Bool) (h : outcome = (.ok answer, db'))
      (hanswer : answer.restore? = some (true, changed)) (hstore : db'.store = db.store)
  | restored (answer : Answer) (db' : Db) (changed : Bool) (h : outcome = (.ok answer, db'))
      (hanswer : answer.restore? = some (false, changed)) (source : RevisionKey) (p q : Page)
      (manifest : FileManifest) (hsource : IsSource source) (hpage : p.key = source.page)
      (hmanifest : (db.store.appearance source).1 = .ok manifest)
      (hdone : Appended p q (db.store.appearance source) changed db.store db'.store)

variable {visited : List Db} {db db₁ : Db}

/-- The master's restore, whatever happened since its source was read. -/
theorem restoreOutcome_of_master (h : PageRun visited db) (hvisited : db₁ ∈ visited)
    {session : MasterAdminSession} {time : ℤ} {command : MasterRevisionRestoreCommand}
    {requestId : Text} {write : MasterFileSetCommand}
    (hread : restoreRevisionCommand session time command requestId db₁.store = .ok write) :
    ∃ source, IsRevisionOf command.libraryId command.pageId command.sourceRevisionNumber db₁.store
        source ∧
      db.store.appearance source = db₁.store.appearance source ∧
      ∀ time' keyDigest now fresh, RestoreOutcome (· = source) db
        ((Operation.writeFileSetAsMaster session time' write keyDigest now fresh).commit db) := by
  have hsound := h.revisionsSound db h.mem_visited
  have hids := h.identifiersSound db h.mem_visited
  obtain ⟨r, hr, revise, rfl, hrevision, hlibrary, hpageId, hsource⟩ :=
    restoreRevisionCommand_ok (h.revisionsSound db₁ hvisited) hread
  have hkept := h.snapshotsKept db₁ hvisited
  refine ⟨r.key, hrevision, hkept.appearance_eq hr, fun time' keyDigest now fresh => ?_⟩
  obtain ⟨-, -, page, hpage, hkey⟩ := hrevision
  rcases immediateTransaction_eq_or (Operation.writeFileSetAsMaster session time'
    (.revise revise command.bookId) keyDigest now fresh).body db with
    ⟨e, hrun⟩ | ⟨answer, c, db', hbody, hstore, -, hrun⟩
  · exact .failed e hrun
  obtain ⟨result, c₁, hwrite, hanswer⟩ := bind_ok.mp hbody
  obtain ⟨rfl, rfl⟩ := pure_ok.mp hanswer
  -- the identifier finds the same Page as in the read phase
  have hpages : ∀ page', getPage revise.libraryId revise.pageId db.store = .ok (some page') →
      page'.key = r.key.page := by
    intro page' hpage'
    rw [hlibrary, hpageId] at hpage'
    rw [← hkey]
    exact getPage_key_eq (h.identifiersGrow db₁ hvisited) hpage hpage'
  rcases appended_of_masterRestore hsound hids (hkept.revisions.subset hr) hsource hpages hwrite with
    ⟨hreplayed, rfl⟩ | ⟨hfresh, p, q, manifest, hp, hmanifest, hdone⟩
  · exact .kept _ db' _ hrun (by rw [Answer.restore?, hreplayed]) hstore
  · rw [← hstore] at hdone
    exact .restored _ db' _ hrun (by rw [Answer.restore?, hfresh]) r.key p q manifest rfl hp hmanifest
      hdone

/-- The browser's restore. -/
theorem restoreOutcome_of_browser (h : PageRun visited db) (session : MasterAdminSession) (time : ℤ)
    (keyDigest : Bytes) (request : RestoreRequest) (readings : Readings) (fresh : Fresh) :
    RestoreOutcome
      (IsRevisionOf request.libraryId request.pageId request.revisionNumber db.store) db
      ((Operation.restoreRevision session time keyDigest request readings fresh).commit db) := by
  have hsound := h.revisionsSound db h.mem_visited
  have hids := h.identifiersSound db h.mem_visited
  rcases immediateTransaction_eq_or (Operation.restoreRevision session time keyDigest request
    readings fresh).body db with ⟨e, hrun⟩ | ⟨answer, c, db', hbody, hstore, -, hrun⟩
  · exact .failed e hrun
  obtain ⟨⟨response, replayed⟩, c₁, hrestore, hanswer⟩ := bind_ok.mp hbody
  obtain ⟨rfl, rfl⟩ := pure_ok.mp hanswer
  rcases restoreRevision_ok hsound hids hrestore with
    ⟨hreplayed, rfl⟩ | ⟨hfresh, r, hr, hrevision, p, q, manifest, hp, hmanifest, hdone⟩
  · exact .kept _ db' _ hrun (by rw [Answer.restore?, hreplayed]) hstore
  · rw [← hstore] at hdone
    exact .restored _ db' _ hrun (by rw [Answer.restore?, hfresh]) r.key p q manifest hrevision hp
      hmanifest hdone

/-- A restore of `source` by the master or in the browser that has succeeded just now. -/
inductive RestoreOf (visited : List Db) (db : Db) (source : RevisionKey) (changed : Bool)
    (db' : Db) : Prop
  | master (db₁ : Db) (session : MasterAdminSession) (time : ℤ)
      (command : MasterRevisionRestoreCommand) (requestId : Text) (write : MasterFileSetCommand)
      (time' : ℤ) (keyDigest : Bytes) (now : ℤ) (fresh : Fresh) (answer : Answer)
      (hvisited : db₁ ∈ visited)
      (hread : restoreRevisionCommand session time command requestId db₁.store = .ok write)
      (hsource : IsRevisionOf command.libraryId command.pageId command.sourceRevisionNumber
        db₁.store source)
      (hcommit : (Operation.writeFileSetAsMaster session time' write keyDigest now fresh).commit db =
        (.ok answer, db'))
      (hanswer : answer.restore? = some (false, changed))
  | browser (session : MasterAdminSession) (time : ℤ) (keyDigest : Bytes)
      (request : RestoreRequest) (readings : Readings) (fresh : Fresh) (answer : Answer)
      (hsource : IsRevisionOf request.libraryId request.pageId request.revisionNumber db.store source)
      (hcommit : (Operation.restoreRevision session time keyDigest request readings fresh).commit db =
        (.ok answer, db'))
      (hanswer : answer.restore? = some (false, changed))

/-- A number names one Revision of a Page. -/
theorem IsRevisionOf.unique {libraryId : Id} {pageId : Text} {n : ℕ} {s : Store}
    {key key' : RevisionKey} (hsound : RevisionsSound s)
    (h : IsRevisionOf libraryId pageId n s key) (h' : IsRevisionOf libraryId pageId n s key') :
    key = key' := by
  obtain ⟨hnumber, ⟨r, hr, rfl⟩, page, hpage, hkey⟩ := h
  obtain ⟨hnumber', ⟨r', hr', rfl⟩, page', hpage', hkey'⟩ := h'
  obtain rfl : page = page' := Option.some.inj (Except.ok.inj (hpage.symm.trans hpage'))
  have hplace : r.place = r'.place := by
    rw [Revision.place, Revision.place, hnumber, hnumber', ← hkey, hkey']
  rw [hsound.places.eq_of_key hr hr' hplace]

theorem RestoreOf.step {source : RevisionKey} {changed : Bool} {db' : Db}
    (h : RestoreOf visited db source changed db') : Step db db' := by
  cases h with
  | master _ session _ _ _ write time' keyDigest now fresh answer _ _ _ hcommit _ =>
    have hstep := Step.operation
      (.writeFileSetAsMaster session time' write keyDigest now fresh) db
    rwa [hcommit] at hstep
  | browser session time keyDigest request readings fresh answer _ hcommit _ =>
    have hstep := Step.operation (.restoreRevision session time keyDigest request readings fresh) db
    rwa [hcommit] at hstep

/-- What a restore that has succeeded just now leaves behind. -/
theorem RestoreOf.appended (h : PageRun visited db) {source : RevisionKey} {changed : Bool} {db' : Db}
    (hrestore : RestoreOf visited db source changed db') :
    ∃ p q, p.key = source.page ∧
      Appended p q (db.store.appearance source) changed db.store db'.store := by
  have hfresh : ∀ {IsSource : RevisionKey → Prop} {answer : Answer},
      (∀ key, IsSource key → key = source) → answer.restore? = some (false, changed) →
      RestoreOutcome IsSource db (.ok answer, db') →
      ∃ p q, p.key = source.page ∧
        Appended p q (db.store.appearance source) changed db.store db'.store := by
    intro IsSource answer hsource hanswer houtcome
    cases houtcome with
    | failed e h => cases h
    | kept answer' db'' changed' h hanswer' hstore =>
      cases h
      rw [hanswer] at hanswer'
      cases hanswer'
    | restored answer' db'' changed' h hanswer' source' p q manifest hsource' hpage hmanifest hdone =>
      cases h
      rw [hanswer] at hanswer'
      cases hanswer'
      obtain rfl := hsource _ hsource'
      exact ⟨p, q, hpage, hdone⟩
  cases hrestore with
  | master db₁ session time command requestId write time' keyDigest now fresh answer hvisited hread
      hsource hcommit hanswer =>
    obtain ⟨source', hsource', -, houtcome⟩ := restoreOutcome_of_master h hvisited hread
    have hcommitted := houtcome time' keyDigest now fresh
    rw [hcommit] at hcommitted
    obtain rfl := hsource'.unique (h.revisionsSound db₁ hvisited) hsource
    exact hfresh (fun _ h => h) hanswer hcommitted
  | browser session time keyDigest request readings fresh answer hsource hcommit hanswer =>
    have hcommitted := restoreOutcome_of_browser h session time keyDigest request readings fresh
    rw [hcommit] at hcommitted
    exact hfresh (fun _ hkey => hkey.unique (h.revisionsSound db h.mem_visited) hsource) hanswer
      hcommitted

/-- **A restore is exact or it changes nothing.**  The master's restore may have read
its source in any earlier state; whatever happened to the Page in between, the source is
what it was, and the write appends it to the Page it finds, or fails. -/
theorem restoreRevision_of_run (h : PageRun visited db) :
    (∀ db₁ ∈ visited, ∀ session time command requestId write,
      restoreRevisionCommand session time command requestId db₁.store = .ok write →
      ∃ source, IsRevisionOf command.libraryId command.pageId command.sourceRevisionNumber db₁.store
          source ∧
        db.store.appearance source = db₁.store.appearance source ∧
        ∀ time' keyDigest now fresh, RestoreOutcome (· = source) db
          ((Operation.writeFileSetAsMaster session time' write keyDigest now fresh).commit db)) ∧
    ∀ session time keyDigest request readings fresh,
      RestoreOutcome
        (IsRevisionOf request.libraryId request.pageId request.revisionNumber db.store) db
        ((Operation.restoreRevision session time keyDigest request readings fresh).commit db) := by
  constructor
  · intro db₁ hvisited session time command requestId write hread
    exact restoreOutcome_of_master h hvisited hread
  · exact restoreOutcome_of_browser h

end

section Sample

attribute [local instance] asciiPlatform

/-- The current validator of the Page. -/
def sampleEtag (db : Db) : Text :=
  (db.store.page? samplePageKey).elim [] fun page => page.etag.toOption.getD []

/-- The agent writes other Markdown. -/
def sampleRewrite : Operation :=
  .appendRevision sampleToken
    { libraryId := "lib", sectionId := "sec", pageId := samplePageId
      expectedEtag := some (sampleEtag sampleCreated), source := ⟨"chat", none, none⟩
      contentMd := utf8Encode "hello again", requestId := "append" }
    [3] 2000
    { sourceId := "source-2", auditId := "audit-3"
      revisionIds := ["rev_00000000000000000000000000000002"] }

def sampleRewritten : Db := (sampleRewrite.commit sampleCreated).2

theorem sampleRewrittenRun :
    PageRun [Db.migrated, sampleFounded, sampleCreated, sampleRewritten] sampleRewritten :=
  sampleRun.next (.operation sampleRewrite _)

/-- The browser restores the first Revision. -/
def sampleRestoreRequest : RestoreRequest :=
  ⟨"lib", samplePageId, 1, sampleEtag sampleRewritten, .null⟩

def sampleRestoreFresh : Fresh where
  sourceId := "source-3"
  auditId := "audit-4"
  revisionIds := ["rev_00000000000000000000000000000003"]

def sampleRestore : Operation :=
  .restoreRevision sampleSession 0 [4] sampleRestoreRequest ⟨3000, 3000, 3000⟩ sampleRestoreFresh

/-- The master reads the first Revision before the agent writes the second, and
restores it afterwards. -/
def sampleRestoreCommand : MasterRevisionRestoreCommand :=
  ⟨"lib", "sec", "one", samplePageId, 1, sampleEtag sampleRewritten⟩

theorem restoreRevision_of_sampleRun :
    (∃ write source, restoreRevisionCommand sampleSession 0 sampleRestoreCommand "restore"
        sampleCreated.store = .ok write ∧
      RestoreOutcome (· = source) sampleRewritten
        ((Operation.writeFileSetAsMaster sampleSession 0 write [5] 3000 sampleRestoreFresh).commit
          sampleRewritten) ∧
      ((Operation.writeFileSetAsMaster sampleSession 0 write [5] 3000 sampleRestoreFresh).commit
        sampleRewritten).1.toOption.bind Answer.restore? = some (false, true)) ∧
    RestoreOutcome (IsRevisionOf sampleRestoreRequest.libraryId sampleRestoreRequest.pageId
        sampleRestoreRequest.revisionNumber sampleRewritten.store) sampleRewritten
      (sampleRestore.commit sampleRewritten) ∧
    (sampleRestore.commit sampleRewritten).1.toOption.bind Answer.restore? = some (false, true) := by
  obtain ⟨hmaster, hbrowser⟩ := restoreRevision_of_run sampleRewrittenRun
  have hvisited : sampleCreated ∈ [Db.migrated, sampleFounded, sampleCreated, sampleRewritten] := by
    simp
  have hread : ((restoreRevisionCommand sampleSession 0 sampleRestoreCommand "restore"
      sampleCreated.store).toOption.bind fun write =>
        ((Operation.writeFileSetAsMaster sampleSession 0 write [5] 3000 sampleRestoreFresh).commit
          sampleRewritten).1.toOption.bind Answer.restore?) = some (false, true) := by
    decide +kernel
  cases hwrite : restoreRevisionCommand sampleSession 0 sampleRestoreCommand "restore"
      sampleCreated.store with
  | error e =>
    rw [hwrite] at hread
    cases hread
  | ok write =>
    rw [hwrite] at hread
    obtain ⟨source, -, -, houtcome⟩ := hmaster sampleCreated hvisited sampleSession 0
      sampleRestoreCommand "restore" write hwrite
    exact ⟨⟨write, source, rfl, houtcome 0 [5] 3000 sampleRestoreFresh, hread⟩,
      hbrowser sampleSession 0 [4] sampleRestoreRequest ⟨3000, 3000, 3000⟩ sampleRestoreFresh,
      by decide +kernel⟩

end Sample

end PatchouliLib
