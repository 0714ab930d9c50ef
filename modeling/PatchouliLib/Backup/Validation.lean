import PatchouliLib.Retrieval.StoredSnapshots
import PatchouliLib.Storage.RevisionLaw

/-!
# Validation of a backup

The validator reads a database file without the program's own types: it checks the storage
class of every value it uses, that the stored names are canonical already, and that every
Revision has a file set, a seal and a guard.

## Main definitions

* `requireManifestedRevisionFiles` — the file sets, files and digests of every Revision.
* `requireRevisionSeals` — its seal and its guard.

## Main results

* `describes_of_required` — a database that passes describes a manifest for every Revision.
* `snapshotChecks_agree` — **the three verifiers of a stored snapshot draw one line.**
-/

namespace PatchouliLib

open Foundation

/-- The error of a database that does not pass. -/
inductive BackupDatabaseError where
  | mk
deriving DecidableEq

namespace RawTables

section

variable [Platform]

/-- The validator admits the file when its values have their classes and tell its content. -/
def BackupAdmits (f : RawFile) (content : Bytes) : Prop :=
  f.filename.text?.isSome ∧ f.sizeBytes.int?.isSome ∧ f.contentSha256.blob?.isSome ∧
    content.length ≤ maxFileBytes ∧ f.sizeBytes.IsInt content.length ∧
    f.contentSha256 = .blob (sha256 content)

instance (f : RawFile) (content : Bytes) : Decidable (BackupAdmits f content) := by
  unfold BackupAdmits
  infer_instance

/-- The columns of a Revision and its file set have their storage classes. -/
def HasClasses (key : RawKey) (declared : RawDeclaration) : Prop :=
  key.libraryId.text?.isSome ∧ key.pageUid.blob?.isSome ∧ key.revisionId.text?.isSome ∧
    key.revisionNumber.int?.isSome ∧
    (declared.storageFormat = .ofText "legacy_markdown" ∨
      declared.storageFormat = .ofText "file_set_v1") ∧
    declared.fileCount.int?.isSome ∧ declared.totalSizeBytes.int?.isSome

instance (key : RawKey) (declared : RawDeclaration) : Decidable (HasClasses key declared) := by
  unfold HasClasses
  infer_instance

/-- The format of the Revision, with the storage classes of its columns. -/
def BackupFormatAgrees (r : RawRevision) (d : RawDeclaration) (m : FileManifest) : Prop :=
  if d.storageFormat = .ofText "legacy_markdown" then
    r.contentMd.blob?.isSome ∧ r.contentSizeBytes.int?.isSome ∧ r.contentSha256.blob?.isSome ∧
      MirrorsMarkdown r d m.files
  else r.contentMd = .null ∧ r.contentSizeBytes = .null ∧ r.contentSha256 = .null ∧
    d.snapshotSha256.blob?.isSome ∧ d.snapshotSha256 = .blob m.snapshotSha256

instance (r : RawRevision) (d : RawDeclaration) (m : FileManifest) :
    Decidable (BackupFormatAgrees r d m) := by
  unfold BackupFormatAgrees
  infer_instance

/-- One round of the validator over the Revisions and their file sets. -/
def requireManifested (t : RawTables) (row : RawRevision × Option RawFileSet) :
    Except BackupDatabaseError PUnit.{1} := do
  let declared := (row.2.map RawFileSet.declared).getD {}
  Fallible.check (HasClasses row.1.key declared) .mk
  let files ← collectFiles .mk BackupAdmits (t.storedFiles row.1.key)
  let canonical ← (buildStored files).mapError fun _ => BackupDatabaseError.mk
  Fallible.check (canonical.files.map (fun entry => (SqlValue.ofText entry.name, entry.content)) =
    files.map fun x => (x.1.filename, x.2)) .mk
  Fallible.check (CountsAgree declared canonical) .mk
  Fallible.check (BackupFormatAgrees row.1 declared canonical) .mk

/-- Verify the exact file-set rows, bytes, hashes and complete digests. -/
def requireManifestedRevisionFiles (t : RawTables) : Except BackupDatabaseError PUnit.{1} := do
  Fallible.check (t.revisions.length = t.fileSets.length) .mk
  (outerJoin Joins t.revisions t.fileSets).forM t.requireManifested

omit [Platform] in
/-- Every Revision must have precisely its exact seal and guard. -/
def requireRevisionSeals (t : RawTables) : Except BackupDatabaseError PUnit.{1} := do
  let missing := t.revisions.filter fun r =>
    (¬∃ k ∈ t.seals, k.Same r.key) ∨ ¬∃ k ∈ t.sealGuards, k.Same r.key
  Fallible.check (missing.length = 0) .mk
  Fallible.check (t.seals.length = t.revisions.length ∧
    t.sealGuards.length = t.revisions.length) .mk

variable {t : RawTables}

/-- An admitted file is the one with this name. -/
theorem rowHolds_of_admits {entry : ManifestFile} {f : RawFile} (hvalid : entry.Valid)
    (hname : f.filename = .ofText entry.name) (hblob : f.contentBytes = .blob entry.content)
    (hadmits : BackupAdmits f entry.content) : RowHolds entry f := by
  obtain ⟨-, -, -, -, hsize, hdigest⟩ := hadmits
  obtain ⟨-, -, hlength, hsha⟩ := hvalid
  refine ⟨hname, hblob, ?_, ?_⟩
  · rwa [hlength]
  · rw [hdigest, hsha]

/-- **A Revision that passes the validator is described by its rows**, and its key has the
classes of its columns. -/
theorem describes_of_required {r : RawRevision} (hr : r ∈ t.revisions)
    (hfiles : t.requireManifestedRevisionFiles = .ok ⟨⟩) (hseals : t.requireRevisionSeals = .ok ⟨⟩) :
    (∃ libraryId pageUid revisionId number, r.key =
      ⟨.ofText libraryId, .blob pageUid, .ofText revisionId, .integer number⟩) ∧
    ∃ m, t.Describes r m := by
  have hmarks : (∃ k ∈ t.seals, k.Same r.key) ∧ ∃ k ∈ t.sealGuards, k.Same r.key := by
    obtain ⟨_, hmissing, -⟩ := Fallible.bind_ok.mp hseals
    have hnone := List.length_eq_zero_iff.mp (Fallible.check_ok.mp hmissing)
    have hboth := List.filter_eq_nil_iff.mp hnone r hr
    rw [decide_eq_true_eq, not_or, not_not, not_not] at hboth
    exact hboth
  simp only [requireManifestedRevisionFiles, Fallible.bind_ok, Fallible.check_ok, exists_and_left,
    exists_const, Fallible.forM_ok, outerJoin_eq_map (selectsOne_joins t), List.forall_mem_map]
    at hfiles
  have hrequired := hfiles.2 r hr
  simp only [requireManifested, Fallible.bind_ok, Fallible.check_ok, Fallible.mapError_ok,
    exists_and_left, exists_const] at hrequired
  obtain ⟨hclasses, files, hcollected, m, hbuilt, hcanonical, hcounts, hformat⟩ := hrequired
  obtain ⟨hlibrary, huid, hid, hnumber, hknown, -, -⟩ := hclasses
  obtain ⟨libraryId, hlibrary⟩ := Option.isSome_iff_exists.mp hlibrary
  obtain ⟨pageUid, huid⟩ := Option.isSome_iff_exists.mp huid
  obtain ⟨revisionId, hid⟩ := Option.isSome_iff_exists.mp hid
  obtain ⟨number, hnumber⟩ := Option.isSome_iff_exists.mp hnumber
  refine ⟨⟨libraryId, pageUid, revisionId, number, ?_⟩, m, ?_, hmarks.1, hmarks.2, ?_⟩
  · exact RawKey.ext (SqlValue.text?_eq_some.mp hlibrary) (SqlValue.blob?_eq_some.mp huid)
      (SqlValue.text?_eq_some.mp hid) (SqlValue.int?_eq_some.mp hnumber)
  · cases hd : t.fileSets.find? fun d => decide (Joins r d) with
    | none =>
      rw [hd, Option.map_none, Option.getD_none] at hknown
      simp [SqlValue.ofText] at hknown
    | some d =>
      rw [hd, Option.map_some, Option.getD_some] at hknown hcounts hformat
      obtain ⟨hmem, hjoins⟩ := (selectsOne_joins t r).find?_eq.mp hd
      refine ⟨d, hmem, hjoins, hcounts, ?_⟩
      unfold BackupFormatAgrees at hformat
      unfold FormatAgrees
      split_ifs at hformat ⊢ with hlegacy hfileSet
      · exact hformat.2.2.2
      · exact ⟨hformat.1, hformat.2.1, hformat.2.2.1, hformat.2.2.2.2⟩
      · exact hknown.elim hlegacy hfileSet
  · obtain ⟨hrows, hall, -, -⟩ := collectFiles_ok.mp hcollected
    rw [← hrows, List.forall₂_map_right_iff]
    have hpairs := forall₂_of_map_eq hcanonical
    refine List.forall₂_iff_zip.mpr ⟨hpairs.length_eq, fun {entry x} hmem => ?_⟩
    obtain ⟨hname, hcontent⟩ := Prod.ext_iff.mp (List.forall₂_zip hpairs hmem)
    obtain ⟨hblob, hadmits⟩ := hall x (List.of_mem_zip hmem).2
    dsimp only at hname hcontent
    rw [← hcontent] at hblob hadmits
    exact rowHolds_of_admits (m.valid.entries entry (List.of_mem_zip hmem).1) hname.symm hblob
      hadmits

/-- **The three verifiers of a stored snapshot draw one line**: the repository accepts the
current Revision of a Page exactly when the read service does, with the same manifest and
digest, and the read service accepts every Revision of a database that passes the
validator. -/
theorem snapshotChecks_agree (t : RawTables) :
    (∀ (page : Page) (m : FileManifest), t.getCurrentFileManifest page = .ok m ↔
      ∃ snapshot, t.currentSnapshot page = .ok snapshot ∧ snapshot.manifest = m) ∧
    (t.requireManifestedRevisionFiles = .ok ⟨⟩ → t.requireRevisionSeals = .ok ⟨⟩ →
      ∀ r ∈ t.revisions, ∃ libraryId pageUid revisionId number,
        r.key = ⟨.ofText libraryId, .blob pageUid, .ofText revisionId, .integer number⟩ ∧
        ∀ page : Page, page.key = ⟨libraryId, pageUid⟩ →
          ∃ snapshot, t.readVerifiedRevisionSnapshot page revisionId = .ok snapshot) := by
  refine ⟨fun page m => getCurrentFileManifest_iff_currentSnapshot, ?_⟩
  intro hfiles hseals r hr
  obtain ⟨⟨libraryId, pageUid, revisionId, number, hkey⟩, m, hdescribes⟩ :=
    describes_of_required hr hfiles hseals
  refine ⟨libraryId, pageUid, revisionId, number, hkey, fun page hpage => ?_⟩
  have hid : r.Identifies (.ofText page.key.libraryId) (.blob page.key.pageUid)
      (.ofText revisionId) := by
    rw [hpage, RawRevision.Identifies, hkey]
    simp [SqlValue.SqlEq, SqlValue.ofText, SqlValue.comparand]
  have hnumber : r.key.revisionNumber.comparand ≠ none := by
    rw [hkey]
    simp [SqlValue.comparand]
  obtain ⟨snapshot, hsnapshot, -⟩ :=
    readVerifiedRevisionSnapshot_of_describes hr hid hnumber hdescribes
  exact ⟨snapshot, hsnapshot⟩

end

end RawTables

section Sample

attribute [local instance] asciiPlatform

/-- The rows of one Page with one short note. -/
def sampleRows : RawTables where
  revisions := [⟨(sampleRevisionKey 1).raw, .null, .null, .null⟩]
  fileSets := [⟨(sampleRevisionKey 1).raw, .ofText "file_set_v1", .integer 1, .integer 1,
    .blob (snapshotDigest [⟨"a.md", [65], 1, [65]⟩])⟩]
  files := [⟨(sampleRevisionKey 1).raw, .ofText "a.md", .blob [65], .integer 1, .blob [65]⟩]
  seals := [(sampleRevisionKey 1).raw]
  sealGuards := [(sampleRevisionKey 1).raw]
  presentations := []
  revisionsKeyed := List.pairwise_singleton _ _
  fileSetsKeyed := List.pairwise_singleton _ _
  sealsKeyed := List.pairwise_singleton _ _
  sealGuardsKeyed := List.pairwise_singleton _ _

/-- The database passes, and the Revision is read. -/
theorem snapshotChecks_agree_sample :
    sampleRows.requireManifestedRevisionFiles = .ok ⟨⟩ ∧ sampleRows.requireRevisionSeals = .ok ⟨⟩ ∧
      ∃ snapshot, sampleRows.readVerifiedRevisionSnapshot (samplePageAt 1)
        (samplePageAt 1).currentRevisionId = .ok snapshot := by
  have hfiles : sampleRows.requireManifestedRevisionFiles = .ok ⟨⟩ := by decide +kernel
  have hseals : sampleRows.requireRevisionSeals = .ok ⟨⟩ := by decide +kernel
  obtain ⟨libraryId, pageUid, revisionId, number, hkey, hread⟩ :=
    (RawTables.snapshotChecks_agree sampleRows).2 hfiles hseals _ List.mem_cons_self
  have hkey := RawKey.mk.inj hkey
  obtain rfl := SqlValue.ofText_injective hkey.1
  obtain rfl := SqlValue.blob.inj hkey.2.1
  obtain rfl := SqlValue.ofText_injective hkey.2.2.1
  exact ⟨hfiles, hseals, hread (samplePageAt 1) rfl⟩

end Sample

end PatchouliLib
