import PatchouliLib.Content.Snapshots
import PatchouliLib.System.Timeline

/-!
# Snapshots over whole runs

Every operation adds at most one Revision, with all its rows, and no operation changes
a row of an older one.  A Revision of files comes with its presentation; a legacy
Revision has none, and it is only ever appended to legacy Revisions.

## Main definitions

* `SnapshotsAdvance s t` — what an operation does to the stored Revisions.
* `RevisionsSound s` — what holds of the stored Revisions in every reachable state.
* `SnapshotsKept s t` — the Revisions of `s` are in `t`, each with its snapshot.

## Main results

* `snapshotsFrame` — every operation advances the snapshots.
* `PageRun.revisionsSound` — **so the Revisions of every reachable state are sound.**
* `PageRun.snapshotsKept` — **no run changes a stored snapshot.**
-/

namespace PatchouliLib

open Foundation

/-- An operation leaves the snapshots as they are, or it adds one Revision: a legacy
Revision after legacy Revisions, or a Revision of files with its presentation. -/
inductive SnapshotsAdvance (s t : Store) : Prop
  | same (h : SnapshotsSame s t)
  | legacy (r : Revision) (h : RevisionAdded r [] s t) (hlegacy : r.contentMd.isSome)
      (hprevious : r.key.revisionNumber = 1 ∨ ∃ r' ∈ s.content.revisions,
        r'.key.page = r.key.page ∧ r'.key.revisionNumber + 1 = r.key.revisionNumber ∧
          r'.contentMd.isSome)
  | files (r : Revision) (p : RevisionPresentation) (h : RevisionAdded r [p] s t)
      (hfiles : r.contentMd = none)

/-- The frame on the authority of an open transaction. -/
def SnapshotsAdvanceOn (c c' : Connection) : Prop := SnapshotsAdvance c.store c'.store

theorem SnapshotsAdvance.same_left {s t u : Store} (h : SnapshotsSame s t)
    (h' : SnapshotsAdvance t u) : SnapshotsAdvance s u := by
  cases h' with
  | same h' => exact .same (h.trans h')
  | legacy r h' hlegacy hprevious =>
    rw [h.revisions] at hprevious
    exact .legacy r (h'.same_left h) hlegacy hprevious
  | files r p h' hfiles => exact .files r p (h'.same_left h) hfiles

theorem SnapshotsAdvance.same_right {s t u : Store} (h : SnapshotsAdvance s t)
    (h' : SnapshotsSame t u) : SnapshotsAdvance s u := by
  cases h with
  | same h => exact .same (h.trans h')
  | legacy r h hlegacy hprevious => exact .legacy r (h.same_right h') hlegacy hprevious
  | files r p h hfiles => exact .files r p (h.same_right h') hfiles

/-! ### The statements that leave snapshots alone -/

namespace SnapshotsSame

theorem keeps_modifyStore {f : Store → Store} (hf : ∀ s, SnapshotsSame s (f s)) :
    Keeps SnapshotsSameOn (modifyStore f) :=
  .writes fun c => hf c.store

theorem keeps_authenticate [Platform] (tokenValue : Text) (now : ℤ) :
    Keeps SnapshotsSameOn (authenticate tokenValue now) := by
  refine isFrame.bind (isFrame.query _) fun a => ?_
  split
  · exact isFrame.bind (.writes fun _ => .of_content rfl) fun _ => isFrame.pure _
  · exact isFrame.pure _

/-- **The statements around a write leave the snapshots alone.** -/
theorem serviceFrame : ServiceFrame SnapshotsSameOn where
  toIsFrame := isFrame
  authenticate := keeps_authenticate
  insertPageSource _ :=
    isFrame.bind (isFrame.constraint _) fun _ =>
      keeps_modifyStore fun _ => ⟨rfl, rfl, rfl, rfl, rfl, rfl⟩
  insertAuditEvent _ :=
    isFrame.bind (isFrame.constraint _) fun _ => keeps_modifyStore fun _ => .of_content rfl
  insertMasterAuditEvent _ :=
    isFrame.bind (isFrame.constraint _) fun _ => keeps_modifyStore fun _ => .of_content rfl
  insertIdempotencyRecord _ :=
    isFrame.bind (isFrame.constraint _) fun _ => keeps_modifyStore fun _ => .of_content rfl
  insertMasterFileSetReceipt _ :=
    isFrame.bind (isFrame.constraint _) fun _ => isFrame.bind (isFrame.constraint _) fun _ =>
      isFrame.bind (isFrame.constraint _) fun _ => keeps_modifyStore fun _ => .of_content rfl
  insertMasterMoveReceipt _ :=
    isFrame.bind (isFrame.constraint _) fun _ => isFrame.bind (isFrame.constraint _) fun _ =>
      isFrame.bind (isFrame.constraint _) fun _ => keeps_modifyStore fun _ => .of_content rfl
  insertWorkspaceSaveReceipt _ :=
    isFrame.bind (isFrame.constraint _) fun _ => keeps_modifyStore fun _ => .of_content rfl

theorem of_allocatePageId [Platform] {exhausted stale : Err} (creator : PageCreator)
    (heq : creator.allocatePageId defaultCollisionAttempts = allocatePageId exhausted stale)
    {libraryId : Id} {title : Text} {occurredAt : ℤ} {c c' : Connection} {generated : GeneratedPageId}
    (h : allocatePageId exhausted stale libraryId title occurredAt c = .ok (generated, c')) :
    SnapshotsSame c.store c'.store := by
  rw [← heq] at h
  obtain ⟨_, _, _, -, -, -, -, counters, rfl⟩ := PageCreator.allocatePageId_ok h
  exact ⟨rfl, rfl, rfl, rfl, rfl, rfl⟩

theorem keeps_addIdentifier [Platform] (libraryId : Id) (identifierText : Text) (pageUid : Bytes)
    (createdAt : ℤ) : Keeps SnapshotsSameOn (addIdentifier libraryId identifierText pageUid createdAt) := by
  refine isFrame.bind (isFrame.attempt _) fun _ => ?_
  refine isFrame.bind (isFrame.constraint _) fun _ => isFrame.bind (isFrame.constraint _) fun _ => ?_
  exact keeps_modifyStore fun _ => ⟨rfl, rfl, rfl, rfl, rfl, rfl⟩

theorem of_addPage [Platform] {p p' : Page} {c c' : Connection} (h : addPage p c = .ok (p', c')) :
    SnapshotsSame c.store c'.store := by
  obtain ⟨-, hinsert⟩ := addPage_ok h
  obtain ⟨-, -, -, -, -, -, rfl⟩ := insertPage_ok hinsert
  exact ⟨rfl, rfl, rfl, rfl, rfl, rfl⟩

theorem afterPageUpdate (old new : Page) (s : Store) : SnapshotsSame s (s.afterPageUpdate old new) := by
  unfold Store.afterPageUpdate recordMove recordTitle recordLifecycle recordOccurrence
    clearAppendGuard
  split_ifs <;> exact ⟨rfl, rfl, rfl, rfl, rfl, rfl⟩

theorem keeps_updatePageWhere (key : PageKey) (p : Page → Prop) [DecidablePred p]
    (set : Page → Page) : Keeps SnapshotsSameOn (updatePageWhere key p set) := by
  intro c matched c' h
  rcases updatePageWhere_ok h with ⟨-, rfl⟩ | ⟨-, old, -, -, -, -, rfl⟩
  · exact isFrame.refl c'
  · exact afterPageUpdate _ _ _

theorem keeps_correctOccurrence (page : Page) (o n : ℤ) (actor : Actor) (t : ℤ) :
    Keeps SnapshotsSameOn (correctOccurrence page o n actor t) := by
  intro c r c' h
  obtain ⟨old, -, -, -, -, -, -, -, -, -, hstore⟩ := correctOccurrence_ok h
  rw [SnapshotsSameOn, hstore]
  exact ⟨rfl, rfl, rfl, rfl, rfl, rfl⟩

theorem keeps_transitionPageLifecycle (page : Page) (action : LifecycleAction) (actor : Actor)
    (requestId : Text) (t : ℤ) :
    Keeps SnapshotsSameOn (transitionPageLifecycle page action actor requestId t) := by
  intro c r c' h
  obtain ⟨old, -, -, -, -, -, -, -, -, -, -, -, hstore⟩ := transitionPageLifecycle_ok h
  rw [SnapshotsSameOn, hstore]
  exact ⟨rfl, rfl, rfl, rfl, rfl, rfl⟩

theorem keeps_updatePageTitle (page : Page) (title : Text) (t : ℤ) :
    Keeps SnapshotsSameOn (updatePageTitle page title t) :=
  isFrame.bind (keeps_updatePageWhere _ _ _) fun _ => isFrame.pure _

theorem keeps_requireReadback [Platform] (page : Page) (manifest : FileManifest) :
    Keeps SnapshotsSameOn (requireReadback page manifest) :=
  isFrame.bind (isFrame.query _) fun _ => isFrame.require _ _

theorem keeps_applyPageMove (plan : PageMovePlan) (audit : Option MoveAudit) :
    Keeps SnapshotsSameOn (applyPageMove plan audit) := by
  unfold applyPageMove
  split
  · exact isFrame.pure _
  · exact .raise _
  · exact .raise _
  · refine isFrame.bind ?_ fun _ => isFrame.bind (keeps_updatePageWhere _ _ _) fun _ => ?_
    · intro c w c' h
      obtain ⟨-, -, -, -, -, -, rfl⟩ := insertMoveGuard_ok h
      exact .of_content rfl
    · exact isFrame.bind (isFrame.require _ _) fun _ => isFrame.query _

end SnapshotsSame

/-! ### The writes of a Revision -/

/-- The Revision of a row whose stored format is legacy is a legacy Revision. -/
theorem legacy_of_storageFormat {page : Page} {s : Store}
    (h : getCurrentRevisionStorageFormat page s = .ok .legacyMarkdown) :
    ∃ r ∈ s.content.revisions, r.key = page.currentRevision ∧ r.contentMd.isSome := by
  simp only [getCurrentRevisionStorageFormat, SnapshotRows.storageFormat, Fallible.bind_ok,
    Fallible.get_ok] at h
  obtain ⟨r, hrow, fileSet, -, hformat⟩ := h
  have hmem : r ∈ s.content.revisions := List.mem_of_find?_eq_some hrow
  have hkey : r.key = page.currentRevision := by simpa using List.find?_some hrow
  refine ⟨r, hmem, hkey, ?_⟩
  split at hformat
  · next hcontent => rw [hcontent, Option.isSome_some]
  · cases hformat
  · cases hformat

namespace SnapshotsAdvance

theorem of_appendMarkdownRevision [Platform] {page : Page} {contentMd : Bytes} {revisionAt : ℤ} {fresh : Fresh}
    {c c' : Connection} {result : Page × Revision}
    (hformat : getCurrentRevisionStorageFormat page c.store = .ok .legacyMarkdown)
    (h : appendMarkdownRevision page contentMd revisionAt fresh c = .ok (result, c')) :
    SnapshotsAdvanceOn c c' := by
  simp only [appendMarkdownRevision, advanceCurrentRevision, bind_ok, require_ok, query_ok, pure_ok,
    orThrow_ok, exists_and_left, exists_eq_left', and_assoc, exists_const] at h
  obtain ⟨revisionId, -, r, c₁, hadd, -, -, _, c₂, ⟨matched, _, hupdate, rfl, rfl⟩, page', -, rfl,
    rfl⟩ := h
  obtain ⟨rfl, hinsert⟩ := addRevision_ok hadd
  obtain ⟨r', hr', hkey, hlegacy⟩ := legacy_of_storageFormat hformat
  have hadded := (insertRevision_added hinsert).same_right
    (SnapshotsSame.keeps_updatePageWhere _ _ _ _ _ _ hupdate)
  refine .legacy _ hadded rfl (.inr ⟨r', hr', ?_, ?_, hlegacy⟩)
  · rw [hkey]
    rfl
  · rw [hkey]
    rfl

theorem keeps_writeFileSetRevision [Platform] (page : Page) (command : FileSetAppend)
    (manifest : FileManifest) (presentation : Presentation) :
    Keeps SnapshotsAdvanceOn (writeFileSetRevision page command manifest presentation) := by
  intro c x c' h
  simp only [writeFileSetRevision, advanceFileSetCurrentRevision, bind_ok, pure_ok, orThrow_ok,
    exists_and_left, exists_eq_left', and_assoc] at h
  obtain ⟨_, c₁, hset, _, c₂, hsource, _, c₃, hpresent, _, c₄, ⟨matched, _, hupdate, rfl, rfl⟩, page',
    -, _, c₅, hreadback, rfl, rfl⟩ := h
  have hadded := (insertFileSet_added hset).same_right
    (SnapshotsSame.serviceFrame.keeps_addSource _ _ _ _ hsource)
  have hshown := (savePresentation_added hadded hpresent).same_right
    (SnapshotsSame.keeps_updatePageWhere _ _ _ _ _ _ hupdate)
  have hread := SnapshotsSame.keeps_requireReadback _ _ _ _ _ hreadback
  exact .files _ _ (hshown.same_right hread) rfl

theorem keeps_createMarkdownPage [Platform] (book : Book) (title : Text) (occurredAt operationAt : ℤ)
    (contentMd : Bytes) (source : ArchiveSourceInput) (fresh : Fresh) :
    Keeps SnapshotsAdvanceOn
      (createMarkdownPage book title occurredAt operationAt contentMd source fresh) := by
  intro c x c' h
  simp only [createMarkdownPage, bind_ok, query_ok, pure_ok, exists_and_left, exists_eq_left',
    and_assoc] at h
  obtain ⟨generated, c₀, hallocate, pageUid, -, revisionId, -, page, c₁, hpage, r, c₂, hadd, _, c₃,
    hidentifier, _, c₄, hsource, rfl, rfl⟩ := h
  have hallocated := SnapshotsSame.of_allocatePageId .archiveService
    archiveService_allocatePageId_eq hallocate
  have hbefore := hallocated.trans (SnapshotsSame.of_addPage hpage)
  obtain ⟨rfl, -⟩ := addPage_ok hpage
  obtain ⟨rfl, hinsert⟩ := addRevision_ok hadd
  have hafter := (SnapshotsSame.keeps_addIdentifier _ _ _ _ _ _ _ hidentifier).trans
    (SnapshotsSame.serviceFrame.keeps_addSource _ _ _ _ hsource)
  exact .legacy _ (((insertRevision_added hinsert).same_left hbefore).same_right hafter) rfl
    (.inl rfl)

theorem keeps_createFileSetPage [Platform] (book : Book) (title : Text) (occurredAt operationAt : ℤ)
    (manifest : FileManifest) (source : ArchiveSourceInput) (primaryFile : Option Text)
    (fresh : Fresh) :
    Keeps SnapshotsAdvanceOn (createFileSetPage book title occurredAt operationAt manifest source
      primaryFile fresh) := by
  intro c x c' h
  simp only [createFileSetPage, requireWireTimes, bind_ok, pure_ok, attempt_ok, query_ok,
    exists_and_left, exists_eq_left', and_assoc, exists_const, canonicalUtcWire_ok] at h
  obtain ⟨presentation, -, -, -, -, generated, c₀, hallocate, pageUid, -, revisionId, -, page, c₁, hpage,
    _, c₂, hset, _, c₃, hpresent, _, c₄, hidentifier, _, c₅, hsource, _, c₆, hreadback, rfl, rfl⟩ := h
  have hallocated := SnapshotsSame.of_allocatePageId .fileSetPageCreateCore
    fileSetPageCreateCore_allocatePageId_eq hallocate
  have hbefore := hallocated.trans (SnapshotsSame.of_addPage hpage)
  have hadded := savePresentation_added ((insertFileSet_added hset).same_left hbefore) hpresent
  have hafter := (SnapshotsSame.keeps_addIdentifier _ _ _ _ _ _ _ hidentifier).trans
    (SnapshotsSame.serviceFrame.keeps_addSource _ _ _ _ hsource)
  have hread := SnapshotsSame.keeps_requireReadback _ _ _ _ _ hreadback
  exact .files _ _ (hadded.same_right (hafter.trans hread)) rfl

end SnapshotsAdvance

/-- **Every operation adds at most one Revision, and changes no row of another.** -/
theorem snapshotsFrame [Platform] : OperationFrame SnapshotsSameOn SnapshotsAdvanceOn where
  service := SnapshotsSame.serviceFrame
  of_quiet := .same
  left := .same_left
  right := .same_right
  createMarkdownPage _ _ _ _ _ _ _ _ := SnapshotsAdvance.keeps_createMarkdownPage _ _ _ _ _ _ _
  createFileSetPage := SnapshotsAdvance.keeps_createFileSetPage
  appendMarkdownRevision _ _ _ _ _ _ _ _ hformat h :=
    SnapshotsAdvance.of_appendMarkdownRevision hformat h
  writeFileSetRevision _ _ _ _ := SnapshotsAdvance.keeps_writeFileSetRevision _ _ _ _
  correctOccurrence _ _ _ _ _ c _ c' h :=
    .same (SnapshotsSame.keeps_correctOccurrence _ _ _ _ _ c _ c' h)
  transitionPageLifecycle _ _ _ _ _ c _ c' h :=
    .same (SnapshotsSame.keeps_transitionPageLifecycle _ _ _ _ _ c _ c' h)
  updatePageTitle _ _ _ c _ c' h := .same (SnapshotsSame.keeps_updatePageTitle _ _ _ c _ c' h)
  applyPageMove _ _ c _ c' h := .same (SnapshotsSame.keeps_applyPageMove _ _ c _ c' h)

/-! ### Sound Revisions -/

/-- The name of a Revision within the repository. -/
def Revision.name (r : Revision) : Id × Text := (r.key.page.libraryId, r.key.revisionId)

/-- The place of a Revision in the history of its Page. -/
def Revision.place (r : Revision) : PageKey × ℕ := (r.key.page, r.key.revisionNumber)

/-- Names and places are unique, exactly the Revisions of files have a presentation, and
a legacy Revision is the first of its Page or follows a legacy Revision. -/
structure RevisionsSound (s : Store) : Prop where
  names : Keyed Revision.name s.content.revisions
  places : Keyed Revision.place s.content.revisions
  checks : ∀ r ∈ s.content.revisions, r.Checks
  ofFiles : ∀ p ∈ s.content.revisionPresentations,
    ∃ r ∈ s.content.revisions, r.key = p.key ∧ r.contentMd = none
  presented : ∀ r ∈ s.content.revisions, r.contentMd = none →
    ∃ p ∈ s.content.revisionPresentations, p.key = r.key
  follows : ∀ r ∈ s.content.revisions, r.contentMd.isSome → r.key.revisionNumber = 1 ∨
    ∃ r' ∈ s.content.revisions, r'.key.page = r.key.page ∧
      r'.key.revisionNumber + 1 = r.key.revisionNumber ∧ r'.contentMd.isSome

namespace RevisionsSound

variable {s t : Store}

theorem keys (h : RevisionsSound s) : Keyed Revision.key s.content.revisions :=
  .of_comp (fun k => (k.page.libraryId, k.revisionId)) h.names

theorem migrated : RevisionsSound Db.migrated.store where
  names := .nil _
  places := .nil _
  checks _ h := absurd h List.not_mem_nil
  ofFiles _ h := absurd h List.not_mem_nil
  presented _ h := absurd h List.not_mem_nil
  follows _ h := absurd h List.not_mem_nil

theorem same (h : RevisionsSound s) (hsame : SnapshotsSame s t) : RevisionsSound t := by
  obtain ⟨hnames, hplaces, hchecks, hofFiles, hpresented, hfollows⟩ := h
  constructor
  · rwa [hsame.revisions]
  · rwa [hsame.revisions]
  · rwa [hsame.revisions]
  · rwa [hsame.revisions, hsame.presentations]
  · rwa [hsame.revisions, hsame.presentations]
  · rwa [hsame.revisions]

/-- **A new Revision keeps the others sound.** -/
theorem added {r : Revision} {shown : List RevisionPresentation} (h : RevisionsSound s)
    (hadded : RevisionAdded r shown s t) (hshown : shown ≠ [] ↔ r.contentMd = none)
    (hfollows : r.contentMd.isSome → r.key.revisionNumber = 1 ∨
      ∃ r' ∈ s.content.revisions, r'.key.page = r.key.page ∧
        r'.key.revisionNumber + 1 = r.key.revisionNumber ∧ r'.contentMd.isSome) :
    RevisionsSound t where
  names := by
    rw [hadded.revisions]
    refine h.names.concat fun r' hr' heq => hadded.newId r' hr' ?_
    exact Prod.mk.inj heq
  places := by
    rw [hadded.revisions]
    refine h.places.concat fun r' hr' heq => hadded.newNumber r' hr' ?_
    exact Prod.mk.inj heq
  checks := by
    rw [hadded.revisions]
    intro r' hr'
    rcases List.mem_append.mp hr' with hr' | hr'
    · exact h.checks r' hr'
    · rw [List.mem_singleton.mp hr']
      exact hadded.checks
  ofFiles := by
    rw [hadded.revisions, hadded.presentations]
    intro p hp
    rcases List.mem_append.mp hp with hp | hp
    · obtain ⟨r', hr', hkey⟩ := h.ofFiles p hp
      exact ⟨r', List.mem_append_left _ hr', hkey⟩
    · exact ⟨r, List.mem_append_right _ (List.mem_singleton_self r), (hadded.presented p hp).symm,
        hshown.mp (List.ne_nil_of_mem hp)⟩
  presented := by
    rw [hadded.revisions, hadded.presentations]
    intro r' hr' hfiles
    rcases List.mem_append.mp hr' with hr' | hr'
    · obtain ⟨p, hp, hkey⟩ := h.presented r' hr' hfiles
      exact ⟨p, List.mem_append_left _ hp, hkey⟩
    · rw [List.mem_singleton.mp hr'] at hfiles ⊢
      obtain ⟨p, hp⟩ := List.exists_mem_of_ne_nil _ (hshown.mpr hfiles)
      exact ⟨p, List.mem_append_right _ hp, hadded.presented p hp⟩
  follows := by
    rw [hadded.revisions]
    intro r' hr' hlegacy
    have hprevious : r'.key.revisionNumber = 1 ∨ ∃ r'' ∈ s.content.revisions,
        r''.key.page = r'.key.page ∧ r''.key.revisionNumber + 1 = r'.key.revisionNumber ∧
          r''.contentMd.isSome := by
      rcases List.mem_append.mp hr' with hr' | hr'
      · exact h.follows r' hr' hlegacy
      · rw [List.mem_singleton.mp hr'] at hlegacy ⊢
        exact hfollows hlegacy
    refine hprevious.imp_right ?_
    rintro ⟨r'', hr'', hrest⟩
    exact ⟨r'', List.mem_append_left _ hr'', hrest⟩

theorem advance (h : RevisionsSound s) (hadvance : SnapshotsAdvance s t) : RevisionsSound t := by
  cases hadvance with
  | same hsame => exact h.same hsame
  | legacy r hadded hlegacy hprevious =>
    refine h.added hadded ⟨fun hne => absurd rfl hne, fun hnone => ?_⟩ fun _ => hprevious
    rw [hnone] at hlegacy
    cases hlegacy
  | files r p hadded hfiles =>
    refine h.added hadded ⟨fun _ => hfiles, fun _ => List.cons_ne_nil p []⟩ fun hlegacy => ?_
    rw [hfiles] at hlegacy
    cases hlegacy

/-- **Legacy Revisions come first**: whatever precedes a legacy Revision of a Page is
legacy too. -/
theorem legacy_of_le (h : RevisionsSound s) {r r' : Revision} (hr : r ∈ s.content.revisions)
    (hr' : r' ∈ s.content.revisions) (hpage : r.key.page = r'.key.page)
    (hle : r.key.revisionNumber ≤ r'.key.revisionNumber) (hpos : 1 ≤ r.key.revisionNumber)
    (hlegacy : r'.contentMd.isSome) : r.contentMd.isSome := by
  -- down from the number of the legacy Revision, one Revision at a time
  induction hn : r'.key.revisionNumber generalizing r' with
  | zero =>
    rw [hn] at hle
    omega
  | succ n ih =>
    rcases hle.eq_or_lt with heq | hlt
    · rw [h.places.eq_of_key hr hr' (Prod.ext hpage heq)]
      exact hlegacy
    · rcases h.follows r' hr' hlegacy with hone | ⟨r'', hr'', hpage'', hnumber, hlegacy''⟩
      · omega
      · exact ih hr'' (hpage.trans hpage''.symm) (by omega) hlegacy'' (by omega)

/-- The presentation of a Revision is stored exactly when it is one of files. -/
theorem exists_presentation_iff (h : RevisionsSound s) {r : Revision}
    (hr : r ∈ s.content.revisions) :
    (∃ p ∈ s.content.revisionPresentations, p.key = r.key) ↔ r.contentMd = none := by
  constructor
  · rintro ⟨p, hp, hkey⟩
    obtain ⟨r', hr', hkey', hfiles⟩ := h.ofFiles p hp
    rwa [h.keys.eq_of_key hr hr' (hkey.symm.trans hkey'.symm)]
  · exact h.presented r hr

end RevisionsSound

/-! ### Runs -/

/-- The Revisions of `s` are in `t`, each with its files and its presentation. -/
structure SnapshotsKept (s t : Store) : Prop where
  revisions : s.content.revisions <+: t.content.revisions
  rows : ∀ r ∈ s.content.revisions, t.snapshotRows r.key = s.snapshotRows r.key
  presentations : ∀ r ∈ s.content.revisions,
    readPresentation r.key.page r.key.revisionId t = readPresentation r.key.page r.key.revisionId s

namespace SnapshotsKept

theorem of_same {s t : Store} (h : SnapshotsSame s t) : SnapshotsKept s t where
  revisions := by rw [h.revisions]
  rows _ _ := h.snapshotRows_eq _
  presentations _ _ := h.readPresentation_eq _ _

theorem of_added {r : Revision} {shown : List RevisionPresentation} {s t : Store}
    (h : RevisionAdded r shown s t) : SnapshotsKept s t where
  revisions := by
    rw [h.revisions]
    exact List.prefix_append _ _
  rows _ hr' := h.snapshotRows_eq (h.key_ne hr')
  presentations _ hr' := h.readPresentation_eq hr'

theorem of_advance {s t : Store} (h : SnapshotsAdvance s t) : SnapshotsKept s t := by
  cases h with
  | same h => exact of_same h
  | legacy _ h => exact of_added h
  | files _ _ h => exact of_added h

theorem trans {s t u : Store} (h : SnapshotsKept s t) (h' : SnapshotsKept t u) :
    SnapshotsKept s u where
  revisions := h.revisions.trans h'.revisions
  rows r hr := (h'.rows r (h.revisions.subset hr)).trans (h.rows r hr)
  presentations r hr :=
    (h'.presentations r (h.revisions.subset hr)).trans (h.presentations r hr)

end SnapshotsKept

section

variable [Platform]

/-- **Every step of a run advances the snapshots.** -/
theorem Step.snapshotsAdvance {db db' : Db} (hstep : Step db db') :
    SnapshotsAdvance db.store db'.store := by
  cases hstep with
  | operation op =>
    rcases immediateTransaction_eq_or op.body db with ⟨e, hrun⟩ | ⟨a, c, db', hbody, hstore, -, hrun⟩
    · rw [Operation.commit, hrun]
      exact .same (.of_content rfl)
    · rw [Operation.commit, hrun, hstore]
      exact snapshotsFrame.keeps_body op _ _ _ hbody
  | rebuild createdAt completedAt =>
    unfold rebuildDatabase
    split
    · exact .same (.of_content rfl)
    · exact .same (.of_content rfl)
  | elsewhere body hbody =>
    rcases immediateTransaction_eq_or body db with ⟨e, hrun⟩ | ⟨a, c, db', hbody', hstore, -, hrun⟩
    · rw [hrun]
      exact .same (.of_content rfl)
    · rw [hrun, hstore]
      exact .same (.of_content (hbody _ _ _ hbody').content)

variable {visited : List Db} {db : Db}

/-- **The Revisions of every visited state are sound.** -/
theorem PageRun.revisionsSound (h : PageRun visited db) :
    ∀ s ∈ visited, RevisionsSound s.store := by
  refine h.visited_invariant (P := fun s => RevisionsSound s.store) ?_ ?_
  · rintro s rfl
    exact .migrated
  · exact fun s t hs hstep => hs.advance hstep.snapshotsAdvance

/-- **No run changes a stored snapshot.** -/
theorem PageRun.snapshotsKept (h : PageRun visited db) :
    ∀ s ∈ visited, SnapshotsKept s.store db.store :=
  h.related (R := fun s t => SnapshotsKept s.store t.store) (fun _ => .of_same (.of_content rfl))
    .trans fun _ hstep => .of_advance hstep.snapshotsAdvance

end

end PatchouliLib
