import PatchouliLib.Content.StoredFiles

/-!
# Verified snapshots of stored rows

The read service finds a Revision by its identity alone, takes its number from the row, and
lets the columns of a missing file set be NULL.  All the same it accepts the snapshots that
the content repository does.

## Main definitions

* `RawTables.readVerifiedRevisionSnapshot` — the verified snapshot of a stored Revision.
* `RawTables.currentSnapshot` — that of the current one, with the check of its number.

## Main results

* `readVerifiedRevisionSnapshot_of_describes` — a described Revision is accepted.
* `getCurrentFileManifest_iff_currentSnapshot` — **both readers accept the same current
  Revisions, with the same manifest.**
-/

namespace PatchouliLib

open Foundation

variable [Platform]

/-- One complete stored Revision, its number as the row has it. -/
structure StoredSnapshot where
  pageId : Text
  revisionId : Text
  revisionNumber : SqlValue
  manifest : FileManifest
  presentation : Presentation

namespace RawTables

def readPresentation (t : RawTables) (page : PageKey) (revisionId : Text) : Presentation :=
  match t.presentations.find? fun r => r.key.page = page ∧ r.key.revisionId = revisionId with
  | none => ⟨none, untitled⟩
  | some row => ⟨row.primaryFile, row.displayTitle⟩

/-- The files under a key, within the bounds of the read service. -/
def listRevisionFiles (t : RawTables) (key : RawKey) : Except Err (List (RawFile × Bytes)) :=
  collectFiles .validation (fun _ content => content.length ≤ maxFileBytes) (t.storedFiles key)

/-- The key under which the read service looks for the rows of a Revision. -/
def readKey (page : Page) (revisionId : Text) (revisionNumber : SqlValue) : RawKey :=
  ⟨.ofText page.key.libraryId, .blob page.key.pageUid, .ofText revisionId, revisionNumber⟩

/-- Verify one complete stored Revision without making an authorization decision. -/
def readVerifiedRevisionSnapshot (t : RawTables) (page : Page) (revisionId : Text) :
    Except Err StoredSnapshot := do
  let found ← oneOrNone ((outerJoin Joins t.revisions t.fileSets).filter fun row =>
    row.1.Identifies (.ofText page.key.libraryId) (.blob page.key.pageUid) (.ofText revisionId))
    .runtime
  let row ← Fallible.get found .fileSetReadNotFound
  let key := readKey page revisionId row.1.key.revisionNumber
  let sealed ← t.hasRevisionFileSeal key
  Fallible.check (sealed = true) .fileSetReadPersistence
  let stored ← (t.listRevisionFiles key).mapError fun _ => .fileSetReadPersistence
  let manifest ← (buildStored stored).mapError fun _ => .fileSetReadPersistence
  let declared := (row.2.map RawFileSet.declared).getD {}
  Fallible.check (stored.length = manifest.files.length ∧ CountsAgree declared manifest ∧
    MetadataAgrees manifest stored) .fileSetReadPersistence
  Fallible.check (FormatAgrees row.1 declared manifest) .fileSetReadPersistence
  pure ⟨page.pageId, revisionId, row.1.key.revisionNumber, manifest,
    t.readPresentation page.key revisionId⟩

/-- The current snapshot, as `current_files` reads it before it makes its view. -/
def currentSnapshot (t : RawTables) (page : Page) : Except Err StoredSnapshot := do
  let snapshot ← (t.readVerifiedRevisionSnapshot page page.currentRevisionId).mapError fun e =>
    if e = .fileSetReadNotFound then .fileSetReadPersistence else e
  Fallible.check (snapshot.revisionNumber.IsInt page.currentRevisionNumber) .fileSetReadPersistence
  pure snapshot

variable {t : RawTables} {page : Page} {revisionId : Text}

omit [Platform] in
/-- A Revision with a number stands under the key that the read service looks for. -/
theorem same_readKey {r : RawRevision} (h : r.Identifies (.ofText page.key.libraryId)
    (.blob page.key.pageUid) (.ofText revisionId))
    (hnumber : r.key.revisionNumber.comparand ≠ none) :
    r.key.Same (readKey page revisionId r.key.revisionNumber) :=
  ⟨h.1, h.2.1, h.2.2, hnumber, rfl⟩

/-- NULL columns declare no file set. -/
theorem not_formatAgrees_null (r : RawRevision) (m : FileManifest) :
    ¬FormatAgrees r {} m := by
  simp [FormatAgrees, SqlValue.ofText]

/-- **What the read service accepts** of the Revisions that have a number. -/
theorem readVerifiedRevisionSnapshot_ok {snapshot : StoredSnapshot} {r : RawRevision}
    (hr : r ∈ t.revisions) (hid : r.Identifies (.ofText page.key.libraryId)
      (.blob page.key.pageUid) (.ofText revisionId))
    (hnumber : r.key.revisionNumber.comparand ≠ none) :
    t.readVerifiedRevisionSnapshot page revisionId = .ok snapshot ↔
      t.Describes r snapshot.manifest ∧ snapshot = ⟨page.pageId, revisionId, r.key.revisionNumber,
        snapshot.manifest, t.readPresentation page.key revisionId⟩ := by
  have hkey := same_readKey hid hnumber
  have hproper := hkey.symm.trans hkey
  have hfound := (selectsOne_identifies t _ _ _).find?_eq.mpr ⟨hr, hid⟩
  have hfileSet {d : RawFileSet} := (selectsOne_joins t r).find?_eq (a := d)
  have hfiles {m : FileManifest} {rows : List RawFile} := @collectFiles_iff _ _ Err.validation
    (fun _ content => content.length ≤ maxFileBytes) _ (fun _ _ hvalid _ => hvalid.2.1) rows m
  rw [readVerifiedRevisionSnapshot,
    oneOrNone_outerJoin (selectsOne_identifies t _ _ _) (selectsOne_joins t), hfound]
  simp only [Fallible.bind_ok, Fallible.get_ok, Fallible.check_ok, Fallible.mapError_ok,
    Fallible.pure_ok, exists_and_left, exists_const, and_assoc, Except.ok.injEq, exists_eq_left',
    Option.map_some, Option.some.injEq, listRevisionFiles]
  constructor
  · rintro ⟨_, hmarks, rfl, stored, hstored, m, hbuilt, -, hcounts, hmetadata, hformat, rfl⟩
    obtain ⟨⟨k, hk, hksame⟩, g, hg, hgsame⟩ := (hasRevisionFileSeal_ok hproper).mp hmarks
    have hrows := hfiles.mp ⟨stored, hstored, hbuilt, hmetadata⟩
    rw [storedFiles_congr hkey.symm] at hrows
    cases hd : t.fileSets.find? fun d => decide (Joins r d) with
    | none =>
      rw [hd, Option.map_none, Option.getD_none] at hformat
      exact absurd hformat (not_formatAgrees_null _ _)
    | some d =>
      rw [hd, Option.map_some, Option.getD_some] at hcounts hformat
      exact ⟨⟨⟨d, (hfileSet.mp hd).1, (hfileSet.mp hd).2, hcounts, hformat⟩,
        ⟨k, hk, hksame.trans hkey.symm⟩, ⟨g, hg, hgsame.trans hkey.symm⟩, hrows⟩, rfl⟩
  · rintro ⟨⟨⟨d, hd, hjoins, hcounts, hformat⟩, ⟨k, hk, hksame⟩, ⟨g, hg, hgsame⟩, hrows⟩, heq⟩
    have hmarks := (hasRevisionFileSeal_ok hproper).mpr
      ⟨⟨k, hk, hksame.trans hkey⟩, g, hg, hgsame.trans hkey⟩
    rw [storedFiles_congr hkey] at hrows
    obtain ⟨stored, hstored, hbuilt, hmetadata⟩ := hfiles.mpr hrows
    refine ⟨true, hmarks, rfl, stored, hstored, snapshot.manifest, hbuilt, ?_, ?_, hmetadata, ?_,
      heq.symm⟩
    · exact hmetadata.length_eq.symm
    · rwa [hfileSet.mpr ⟨hd, hjoins⟩]
    · rwa [hfileSet.mpr ⟨hd, hjoins⟩]

/-- A described Revision is accepted. -/
theorem readVerifiedRevisionSnapshot_of_describes {r : RawRevision} (hr : r ∈ t.revisions)
    (hid : r.Identifies (.ofText page.key.libraryId) (.blob page.key.pageUid) (.ofText revisionId))
    (hnumber : r.key.revisionNumber.comparand ≠ none) {m : FileManifest} (h : t.Describes r m) :
    ∃ snapshot, t.readVerifiedRevisionSnapshot page revisionId = .ok snapshot ∧
      snapshot.manifest = m :=
  ⟨⟨page.pageId, revisionId, r.key.revisionNumber, m, t.readPresentation page.key revisionId⟩,
    (readVerifiedRevisionSnapshot_ok hr hid hnumber).mpr ⟨h, rfl⟩, rfl⟩

/-- The snapshot carries the number of a stored Revision. -/
theorem exists_of_readVerifiedRevisionSnapshot {snapshot : StoredSnapshot}
    (h : t.readVerifiedRevisionSnapshot page revisionId = .ok snapshot) :
    ∃ r ∈ t.revisions, r.Identifies (.ofText page.key.libraryId) (.blob page.key.pageUid)
      (.ofText revisionId) ∧ r.key.revisionNumber = snapshot.revisionNumber := by
  rw [readVerifiedRevisionSnapshot,
    oneOrNone_outerJoin (selectsOne_identifies t _ _ _) (selectsOne_joins t), Fallible.ok_bind] at h
  obtain ⟨row, hrow, h⟩ := Fallible.bind_ok.mp h
  obtain ⟨r, hr, rfl⟩ := Option.map_eq_some_iff.mp (Fallible.get_ok.mp hrow)
  obtain ⟨hmem, hid⟩ := (selectsOne_identifies t _ _ _).find?_eq.mp hr
  simp only [Fallible.bind_ok, Fallible.check_ok, Fallible.pure_ok, exists_and_left,
    exists_const] at h
  obtain ⟨_, -, -, _, -, _, -, -, -, rfl⟩ := h
  exact ⟨r, hmem, hid, rfl⟩

/-- **Both readers accept the same current Revisions**, with the same manifest. -/
theorem getCurrentFileManifest_iff_currentSnapshot {m : FileManifest} :
    t.getCurrentFileManifest page = .ok m ↔
      ∃ snapshot, t.currentSnapshot page = .ok snapshot ∧ snapshot.manifest = m := by
  have hraw : page.currentRevision.raw =
      readKey page page.currentRevisionId (.integer page.currentRevisionNumber) := rfl
  rw [getCurrentFileManifest_iff]
  simp only [currentSnapshot, Fallible.bind_ok, Fallible.mapError_ok, Fallible.check_ok,
    Fallible.pure_ok, exists_and_left, exists_const]
  constructor
  · rintro ⟨r, hr, hkey, hdescribes⟩
    rw [hraw] at hkey
    obtain ⟨snapshot, hsnapshot, hmanifest⟩ := readVerifiedRevisionSnapshot_of_describes hr
      ⟨hkey.1, hkey.2, hkey.3⟩ hkey.4.1 hdescribes
    have heq := ((readVerifiedRevisionSnapshot_ok hr ⟨hkey.1, hkey.2, hkey.3⟩ hkey.4.1).mp
      hsnapshot).2
    refine ⟨snapshot, ⟨snapshot, hsnapshot, ?_, rfl⟩, hmanifest⟩
    rw [heq]
    exact SqlValue.isInt_iff.mpr hkey.4.symm
  · rintro ⟨_, ⟨snapshot, hsnapshot, hcurrent, rfl⟩, rfl⟩
    obtain ⟨r, hr, hid, hnumber⟩ := exists_of_readVerifiedRevisionSnapshot hsnapshot
    have hequal := SqlValue.isInt_iff.mp hcurrent
    rw [← hnumber] at hequal
    have hdescribes := ((readVerifiedRevisionSnapshot_ok hr hid hequal.symm.1).mp hsnapshot).1
    exact ⟨r, hr, ⟨hid.1, hid.2.1, hid.2.2, hequal.symm⟩, hdescribes⟩

end RawTables

end PatchouliLib
