import PatchouliLib.Content.Manifests
import PatchouliLib.Content.RepositoryChanges
import PatchouliLib.Foundation.Table
import PatchouliLib.Retrieval.FileSetRead

/-!
# Snapshots

A snapshot that is read back is the manifest of the stored rows of a Revision.  The
rows of a Revision, of its manifest, its files, its seal and its presentation are only
ever added, all under the key of the one Revision that a write inserts, so the snapshots
of the other Revisions stay as they are.

## Main definitions

* `SnapshotsSame s t` — no row of a snapshot has changed.
* `RowsAdded key s t` — files have been added under one key.
* `RevisionAdded r shown s t` — one Revision has been added with its rows.

## Main results

* `readVerifiedRevisionSnapshot_ok` — a verified snapshot is the manifest and the
  presentation of a stored Revision.
* `RevisionAdded.snapshotRows_eq`, `RevisionAdded.readPresentation_eq` — **a new Revision
  leaves the snapshots of the others alone.**
* `RowsAdded.keeps_insertSnapshotFiles`, `insertRevision_added`, `insertFileSet_added` — what an
  insert of a Revision adds.
-/

namespace PatchouliLib

open Foundation

/-! ### Verified snapshots -/

section

variable [Platform]

/-- A verified snapshot is the manifest and the presentation of a stored Revision. -/
theorem readVerifiedRevisionSnapshot_ok {page : Page} {revisionId : Text} {s : Store}
    {snapshot : VerifiedRevisionSnapshot} (hkeys : Keyed Revision.key s.content.revisions)
    (h : readVerifiedRevisionSnapshot page revisionId s = .ok snapshot) :
    ∃ r ∈ s.content.revisions, r.key.page = page.key ∧ r.key.revisionId = revisionId ∧
      snapshot.revisionId = revisionId ∧ snapshot.revisionNumber = r.key.revisionNumber ∧
      snapshot.presentation = readPresentation page.key revisionId s ∧
      (s.snapshotRows r.key).manifest = .ok snapshot.manifest := by
  simp only [readVerifiedRevisionSnapshot, listRevisionFiles, Fallible.bind_ok, Fallible.get_ok,
    Fallible.check_ok, Fallible.mapError_ok, Fallible.pure_ok, exists_and_left, exists_const,
    and_assoc, exists_eq_left'] at h
  obtain ⟨r, hfound, hseal, hcount, -, hsum, fileSet, hfileSet, manifest, hbuilt, -, hdeclared,
    hsize, hfiles, hmatches, rfl⟩ := h
  have hmem : r ∈ s.content.revisions := List.mem_of_find?_eq_some hfound
  obtain ⟨hpage, hid⟩ : r.key.page = page.key ∧ r.key.revisionId = revisionId := by
    simpa using List.find?_some hfound
  refine ⟨r, hmem, hpage, hid, rfl, rfl, rfl, ?_⟩
  have hrow : s.content.revisions.find? (fun r' => decide (r'.key = r.key)) = some r :=
    hkeys.find?_eq.mpr ⟨hmem, rfl⟩
  simp only [SnapshotRows.manifest, Store.snapshotRows, hrow, hfileSet, Fallible.bind_ok,
    Fallible.get_ok, Fallible.check_ok, Fallible.pure_ok, exists_and_left, exists_const, and_assoc,
    exists_eq_left', Option.some.injEq]
  exact ⟨hseal, hcount, hsum, manifest, hbuilt, hdeclared, hsize, hfiles, hmatches, rfl⟩

end

/-! ### Added rows -/

/-- No row of a snapshot has changed. -/
structure SnapshotsSame (s t : Store) : Prop where
  revisions : t.content.revisions = s.content.revisions
  fileSets : t.content.revisionFileSets = s.content.revisionFileSets
  files : t.content.revisionFiles = s.content.revisionFiles
  seals : t.content.revisionFileSeals = s.content.revisionFileSeals
  sealGuards : t.content.revisionFileSealGuards = s.content.revisionFileSealGuards
  presentations : t.content.revisionPresentations = s.content.revisionPresentations

/-- The frame on the authority of an open transaction. -/
def SnapshotsSameOn (c c' : Connection) : Prop := SnapshotsSame c.store c'.store

theorem SnapshotsSame.of_content {s t : Store} (h : t.content = s.content) : SnapshotsSame s t := by
  constructor <;> rw [h]

theorem SnapshotsSame.trans {s t u : Store} (h : SnapshotsSame s t) (h' : SnapshotsSame t u) :
    SnapshotsSame s u where
  revisions := h'.revisions.trans h.revisions
  fileSets := h'.fileSets.trans h.fileSets
  files := h'.files.trans h.files
  seals := h'.seals.trans h.seals
  sealGuards := h'.sealGuards.trans h.sealGuards
  presentations := h'.presentations.trans h.presentations

theorem SnapshotsSame.isFrame : IsFrame SnapshotsSameOn := ⟨fun _ => .of_content rfl, .trans⟩

theorem SnapshotsSame.snapshotRows_eq {s t : Store} (h : SnapshotsSame s t) (key : RevisionKey) :
    t.snapshotRows key = s.snapshotRows key := by
  simp only [Store.snapshotRows, Store.filesOf, h.revisions, h.fileSets, h.files, h.seals,
    h.sealGuards]

theorem SnapshotsSame.readPresentation_eq {s t : Store} (h : SnapshotsSame s t) (page : PageKey)
    (revisionId : Text) : readPresentation page revisionId t = readPresentation page revisionId s := by
  simp only [readPresentation, h.presentations]

/-- Files, their manifest and their seal have been added under one key. -/
structure RowsAdded (key : RevisionKey) (s t : Store) : Prop where
  revisions : t.content.revisions = s.content.revisions
  sealGuards : t.content.revisionFileSealGuards = s.content.revisionFileSealGuards
  presentations : t.content.revisionPresentations = s.content.revisionPresentations
  fileSets : AddedUnder RevisionFileSet.key key s.content.revisionFileSets
    t.content.revisionFileSets
  files : AddedUnder RevisionFile.key key s.content.revisionFiles t.content.revisionFiles
  seals : AddedUnder id key s.content.revisionFileSeals t.content.revisionFileSeals

def RowsAddedOn (key : RevisionKey) (c c' : Connection) : Prop := RowsAdded key c.store c'.store

namespace RowsAdded

variable {key : RevisionKey}

theorem of_same {s t : Store} (h : SnapshotsSame s t) : RowsAdded key s t where
  revisions := h.revisions
  sealGuards := h.sealGuards
  presentations := h.presentations
  fileSets := by
    rw [h.fileSets]
    exact .refl _ _ _
  files := by
    rw [h.files]
    exact .refl _ _ _
  seals := by
    rw [h.seals]
    exact .refl _ _ _

theorem trans {s t u : Store} (h : RowsAdded key s t) (h' : RowsAdded key t u) :
    RowsAdded key s u where
  revisions := h'.revisions.trans h.revisions
  sealGuards := h'.sealGuards.trans h.sealGuards
  presentations := h'.presentations.trans h.presentations
  fileSets := h.fileSets.trans h'.fileSets
  files := h.files.trans h'.files
  seals := h.seals.trans h'.seals

theorem isFrame (key : RevisionKey) : IsFrame (RowsAddedOn key) :=
  ⟨fun _ => of_same (.of_content rfl), trans⟩

theorem keeps_markIfCurrent (k : RevisionKey) : Keeps (RowsAddedOn key) (markIfCurrent k) := by
  have hF := isFrame key
  refine hF.bind (hF.query _) fun current => ?_
  split
  · exact .writes fun _ => of_same (.of_content rfl)
  · exact hF.pure _

theorem keeps_insertRevisionFileSet {m : RevisionFileSet} (hm : m.key = key) :
    Keeps (RowsAddedOn key) (insertRevisionFileSet m) := by
  have hF := isFrame key
  refine hF.bind (hF.constraint _) fun _ => hF.bind (hF.constraint _) fun _ => ?_
  refine hF.bind (.writes fun c => ?_) fun _ => keeps_markIfCurrent _
  exact ⟨rfl, rfl, rfl, .concat hm _, .refl _ _ _, .refl _ _ _⟩

theorem keeps_insertRevisionFileSeal (key : RevisionKey) :
    Keeps (RowsAddedOn key) (insertRevisionFileSeal key) := by
  have hF := isFrame key
  refine hF.bind (hF.constraint _) fun _ => ?_
  refine hF.bind (.writes fun c => ?_) fun _ => keeps_markIfCurrent _
  exact ⟨rfl, rfl, rfl, .refl _ _ _, .refl _ _ _, .concat rfl _⟩

theorem keeps_insertRevisionFile {f : RevisionFile} (hf : f.key = key) :
    Keeps (RowsAddedOn key) (insertRevisionFile f) := by
  have hF := isFrame key
  refine hF.bind (hF.constraint _) fun _ => hF.bind (hF.constraint _) fun _ => ?_
  refine hF.bind (.writes fun c => ?_) fun _ => hF.bind (keeps_markIfCurrent _) fun _ => ?_
  · exact ⟨rfl, rfl, rfl, .refl _ _ _, .concat hf _, .refl _ _ _⟩
  refine hF.bind (hF.query _) fun legacy => ?_
  split
  · rw [hf]
    exact keeps_insertRevisionFileSeal key
  · exact hF.pure _

theorem keeps_mirrorContentFile (r : Revision) : Keeps (RowsAddedOn r.key) (mirrorContentFile r) := by
  have hF := isFrame r.key
  unfold mirrorContentFile
  split
  · exact hF.bind (keeps_insertRevisionFileSet rfl) fun _ => keeps_insertRevisionFile rfl
  · exact hF.pure _

theorem keeps_insertSnapshotFiles [Platform] (key : RevisionKey) (manifest : FileManifest) :
    Keeps (RowsAddedOn key) (insertSnapshotFiles key manifest) := by
  have hF := isFrame key
  refine hF.bind (keeps_insertRevisionFileSet rfl) fun _ => ?_
  refine hF.bind (.forEach hF (fun _ => keeps_insertRevisionFile rfl) _) fun _ => ?_
  exact keeps_insertRevisionFileSeal key

end RowsAdded

/-! ### New Revisions -/

/-- One Revision has been added with its files and these presentations. -/
structure RevisionAdded (r : Revision) (shown : List RevisionPresentation) (s t : Store) : Prop where
  revisions : t.content.revisions = s.content.revisions ++ [r]
  sealGuards : t.content.revisionFileSealGuards = s.content.revisionFileSealGuards ++ [r.key]
  presentations : t.content.revisionPresentations = s.content.revisionPresentations ++ shown
  presented : ∀ p ∈ shown, p.key = r.key
  fileSets : AddedUnder RevisionFileSet.key r.key s.content.revisionFileSets
    t.content.revisionFileSets
  files : AddedUnder RevisionFile.key r.key s.content.revisionFiles t.content.revisionFiles
  seals : AddedUnder id r.key s.content.revisionFileSeals t.content.revisionFileSeals
  checks : r.Checks
  newId : ∀ r' ∈ s.content.revisions,
    ¬(r'.key.page.libraryId = r.key.page.libraryId ∧ r'.key.revisionId = r.key.revisionId)
  newNumber : ∀ r' ∈ s.content.revisions,
    ¬(r'.key.page = r.key.page ∧ r'.key.revisionNumber = r.key.revisionNumber)

namespace RevisionAdded

variable {r : Revision} {shown : List RevisionPresentation} {s t u : Store}

theorem same_left (h : SnapshotsSame s t) (h' : RevisionAdded r shown t u) :
    RevisionAdded r shown s u where
  revisions := by rw [h'.revisions, h.revisions]
  sealGuards := by rw [h'.sealGuards, h.sealGuards]
  presentations := by rw [h'.presentations, h.presentations]
  presented := h'.presented
  fileSets := h.fileSets ▸ h'.fileSets
  files := h.files ▸ h'.files
  seals := h.seals ▸ h'.seals
  checks := h'.checks
  newId := h.revisions ▸ h'.newId
  newNumber := h.revisions ▸ h'.newNumber

theorem rows_right (h : RevisionAdded r shown s t) (h' : RowsAdded r.key t u) :
    RevisionAdded r shown s u where
  revisions := h'.revisions.trans h.revisions
  sealGuards := h'.sealGuards.trans h.sealGuards
  presentations := h'.presentations.trans h.presentations
  presented := h.presented
  fileSets := h.fileSets.trans h'.fileSets
  files := h.files.trans h'.files
  seals := h.seals.trans h'.seals
  checks := h.checks
  newId := h.newId
  newNumber := h.newNumber

theorem same_right (h : RevisionAdded r shown s t) (h' : SnapshotsSame t u) :
    RevisionAdded r shown s u :=
  h.rows_right (.of_same h')

theorem key_ne (h : RevisionAdded r shown s t) {r' : Revision}
    (hr' : r' ∈ s.content.revisions) : r'.key ≠ r.key := by
  intro heq
  exact h.newId r' hr' ⟨by rw [heq], by rw [heq]⟩

/-- **The rows of every other Revision are the same.** -/
theorem snapshotRows_eq (h : RevisionAdded r shown s t) {key : RevisionKey}
    (hne : key ≠ r.key) : t.snapshotRows key = s.snapshotRows key := by
  have hother : ∀ k : RevisionKey, k = r.key → decide (k = key) = false := by
    rintro k rfl
    exact decide_eq_false hne.symm
  have hrevision : t.content.revisions.find? (fun r' => decide (r'.key = key)) =
      s.content.revisions.find? fun r' => decide (r'.key = key) := by
    rw [h.revisions, List.find?_append, List.find?_singleton, hother r.key rfl]
    exact Option.or_none
  have hfileSet := h.fileSets.find?_eq (p := fun m => decide (m.key = key)) fun m hm => hother _ hm
  have hfiles := h.files.filter_eq (p := fun f => decide (f.key = key)) fun f hf => hother _ hf
  have hseal := h.seals.contains_eq hne
  have hguard : t.content.revisionFileSealGuards.contains key =
      s.content.revisionFileSealGuards.contains key := by
    rw [h.sealGuards]
    have hadded : AddedUnder id r.key _ (s.content.revisionFileSealGuards ++ [r.key]) :=
      .concat rfl _
    exact hadded.contains_eq hne
  simp only [Store.snapshotRows, Store.filesOf, hrevision, hfileSet, hfiles, hseal, hguard]

/-- **The presentation of every other Revision is the same.** -/
theorem readPresentation_eq (h : RevisionAdded r shown s t) {r' : Revision}
    (hr' : r' ∈ s.content.revisions) :
    readPresentation r'.key.page r'.key.revisionId t =
      readPresentation r'.key.page r'.key.revisionId s := by
  have hnone : shown.find? (fun p =>
      decide (p.key.page = r'.key.page ∧ p.key.revisionId = r'.key.revisionId)) = none := by
    rw [List.find?_eq_none]
    intro p hp hmatch
    obtain ⟨hpage, hid⟩ := of_decide_eq_true hmatch
    rw [h.presented p hp] at hpage hid
    exact h.newId r' hr' ⟨by rw [hpage], hid.symm⟩
  simp only [readPresentation, h.presentations, List.find?_append, hnone, Option.or_none]

/-- The presentation of the new Revision is the one that has been added with it. -/
theorem readPresentation_new {p : RevisionPresentation} (h : RevisionAdded r [p] s t)
    (hs : ∀ p' ∈ s.content.revisionPresentations, ∃ r' ∈ s.content.revisions, r'.key = p'.key) :
    readPresentation r.key.page r.key.revisionId t = ⟨p.primaryFile, p.displayTitle⟩ := by
  have hnone : s.content.revisionPresentations.find? (fun p' =>
      decide (p'.key.page = r.key.page ∧ p'.key.revisionId = r.key.revisionId)) = none := by
    rw [List.find?_eq_none]
    intro p' hp' hmatch
    obtain ⟨hpage, hid⟩ := of_decide_eq_true hmatch
    obtain ⟨r', hr', hkey⟩ := hs p' hp'
    rw [← hkey] at hpage hid
    exact h.newId r' hr' ⟨by rw [hpage], hid⟩
  have hkey := h.presented p List.mem_cons_self
  have hfound : [p].find? (fun p' =>
      decide (p'.key.page = r.key.page ∧ p'.key.revisionId = r.key.revisionId)) = some p :=
    List.find?_cons_of_pos (by simp [hkey])
  simp only [readPresentation, h.presentations, List.find?_append, hnone, hfound, Option.none_or]

end RevisionAdded

/-- An insert of a Revision adds it, with the files that mirror it. -/
theorem insertRevision_added {r : Revision} {c c' : Connection} {w : PUnit}
    (h : insertRevision r c = .ok (w, c')) : RevisionAdded r [] c.store c'.store := by
  simp only [insertRevision, bind_ok, constraint_ok, modifyStore_ok, exists_and_left,
    exists_eq_left', and_assoc, exists_const] at h
  obtain ⟨-, hchecks, hnew, w₁, c₁, hmark, hrest⟩ := h
  have hinserted : RevisionAdded r [] c.store (c.store.modifyContent fun t =>
      { t with
        revisions := t.revisions ++ [r]
        revisionFileSealGuards := t.revisionFileSealGuards ++ [r.key] }) :=
    { revisions := rfl
      sealGuards := rfl
      presentations := (List.append_nil _).symm
      presented := fun _ hp => absurd hp List.not_mem_nil
      fileSets := .refl _ _ _
      files := .refl _ _ _
      seals := .refl _ _ _
      checks := hchecks
      newId := fun r' hr' => (hnew r' hr').1
      newNumber := fun r' hr' => (hnew r' hr').2 }
  have hmarked := hinserted.rows_right (RowsAdded.keeps_markIfCurrent _ _ _ _ hmark)
  split at hrest
  · simp only [insertPageRevisionAppendGuard, bind_ok, constraint_ok, modifyStore_ok,
      exists_and_left, exists_eq_left', and_assoc, exists_const] at hrest
    obtain ⟨-, hmirror⟩ := hrest
    have hguarded : SnapshotsSame c₁.store (c₁.store.modifyContent fun t =>
        { t with pageRevisionAppendGuards := t.pageRevisionAppendGuards ++ [r.key] }) :=
      ⟨rfl, rfl, rfl, rfl, rfl, rfl⟩
    exact (hmarked.same_right hguarded).rows_right
      (RowsAdded.keeps_mirrorContentFile r _ _ _ hmirror)
  · exact hmarked.rows_right (RowsAdded.keeps_mirrorContentFile r _ _ _ hrest)

theorem insertFileSet_added [Platform] {key : RevisionKey} {createdAt : ℤ} {manifest : FileManifest}
    {c c' : Connection} {w : PUnit} (h : insertFileSet key createdAt manifest c = .ok (w, c')) :
    RevisionAdded (fileSetRevision key createdAt) [] c.store c'.store := by
  obtain ⟨_, c₁, hinsert, hrest⟩ := bind_ok.mp h
  exact (insertRevision_added hinsert).rows_right
    (RowsAdded.keeps_insertSnapshotFiles key manifest _ _ _ hrest)

/-- A presentation of the new Revision is saved with it. -/
theorem savePresentation_added {r : Revision} {presentation : Presentation} {s : Store}
    {c c' : Connection} {w : PUnit} (hs : RevisionAdded r [] s c.store)
    (h : savePresentation r.key presentation c = .ok (w, c')) :
    RevisionAdded r [⟨r.key, presentation.primaryFile, presentation.displayTitle⟩] s c'.store := by
  simp only [savePresentation, insertRevisionPresentation, bind_ok, constraint_ok, modifyStore_ok,
    exists_and_left, exists_eq_left', and_assoc, exists_const] at h
  obtain ⟨-, -, -, rfl⟩ := h
  exact
    { hs with
      presentations := by
        show c.store.content.revisionPresentations ++ _ = _
        rw [hs.presentations, List.append_nil]
      presented := fun p hp => by rw [List.mem_singleton.mp hp] }

end PatchouliLib
