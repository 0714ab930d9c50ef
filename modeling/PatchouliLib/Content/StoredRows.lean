import PatchouliLib.Content.StoredFiles

/-!
# The rows of a store

The rows that the program's own statements leave have the declared types.  Seen as the rows
of a database file they are read to the same manifests, so what holds of the readers for any
rows holds of them for these.

## Main definitions

* `RawTables.Represents t s` — `t` holds the rows of `s`.

## Main results

* `RawTables.Represents.getCurrentFileManifest_iff` — **the manifest of a store is that of its
  rows.**
-/

namespace PatchouliLib

open Foundation

/-! ### Typed rows -/

/-- A nullable column. -/
def SqlValue.ofOption {α : Type} (f : α → SqlValue) (o : Option α) : SqlValue :=
  (o.map f).getD .null

def StorageFormat.wireName : StorageFormat → Text
  | .legacyMarkdown => "legacy_markdown"
  | .fileSetV1 => "file_set_v1"

def Revision.raw (r : Revision) : RawRevision where
  key := r.key.raw
  contentMd := SqlValue.ofOption .blob r.contentMd
  contentSizeBytes := SqlValue.ofOption (fun n : ℕ => .integer n) r.contentSizeBytes
  contentSha256 := SqlValue.ofOption .blob r.contentSha256

def RevisionFileSet.raw (d : RevisionFileSet) : RawFileSet where
  key := d.key.raw
  declared :=
    { storageFormat := .ofText d.storageFormat.wireName
      fileCount := .integer d.fileCount
      totalSizeBytes := .integer d.totalSizeBytes
      snapshotSha256 := SqlValue.ofOption .blob d.snapshotSha256 }

def RevisionFile.raw (f : RevisionFile) : RawFile where
  key := f.key.raw
  filename := .ofText f.filename
  contentBytes := .blob f.contentBytes
  sizeBytes := .integer f.sizeBytes
  contentSha256 := .blob f.contentSha256

/-- The tables hold the rows of the store. -/
structure RawTables.Represents (t : RawTables) (s : Store) : Prop where
  revisions : t.revisions = s.content.revisions.map Revision.raw
  fileSets : t.fileSets = s.content.revisionFileSets.map RevisionFileSet.raw
  files : t.files = s.content.revisionFiles.map RevisionFile.raw
  seals : t.seals = s.content.revisionFileSeals.map RevisionKey.raw
  sealGuards : t.sealGuards = s.content.revisionFileSealGuards.map RevisionKey.raw
  presentations : t.presentations = s.content.revisionPresentations

/-- Keys with the declared types are equal as columns when they are equal. -/
theorem RevisionKey.raw_same_iff {k k' : RevisionKey} : k.raw.Same k'.raw ↔ k = k' := by
  constructor
  · intro h
    obtain ⟨⟨libraryId, pageUid⟩, revisionId, number⟩ := k
    obtain ⟨⟨libraryId', pageUid'⟩, revisionId', number'⟩ := k'
    have hlibrary := Comparand.text.inj (Option.some.inj h.libraryId.2)
    have huid := Comparand.blob.inj (Option.some.inj h.pageUid.2)
    have hid := Comparand.text.inj (Option.some.inj h.revisionId.2)
    have hnumber := asReal_injective (Comparand.number.inj (Option.some.inj h.revisionNumber.2))
    obtain rfl := utf8Encode_injective hlibrary
    obtain rfl := utf8Encode_injective hid
    obtain rfl : pageUid = pageUid' := huid
    obtain rfl : number = number' := Int.ofNat_inj.mp hnumber
    rfl
  · rintro rfl
    exact k.raw_same

/-! ### Snapshots of typed rows -/

section

variable [Platform]

/-- The format agrees with typed columns when it does with their values. -/
theorem formatAgrees_raw {r : Revision} {d : RevisionFileSet} {m : FileManifest} :
    FormatAgrees r.raw d.raw.declared m ↔ ManifestMatches r d m := by
  have hnull {α : Type} {f : α → SqlValue} (hf : ∀ a, f a ≠ .null) (o : Option α) :
      SqlValue.ofOption f o = .null ↔ o = none := by
    cases o with
    | none => exact ⟨fun _ => rfl, fun _ => rfl⟩
    | some a => exact ⟨fun h => absurd h (hf a), fun h => absurd h (by simp)⟩
  have hblob (o : Option Bytes) (content : Bytes) :
      SqlValue.ofOption .blob o = .blob content ↔ o = some content := by
    cases o <;> simp [SqlValue.ofOption]
  have hint (o : Option ℕ) (n : ℕ) :
      (SqlValue.ofOption (fun n : ℕ => .integer n) o).IsInt n ↔ o = some n := by
    cases o with
    | none => simp [SqlValue.ofOption, SqlValue.IsInt]
    | some k => simp [SqlValue.ofOption, eq_comm]
  have hblobs := hnull (f := SqlValue.blob) (fun _ => SqlValue.noConfusion)
  have hints := hnull (f := fun n : ℕ => SqlValue.integer n) (fun _ => SqlValue.noConfusion)
  obtain ⟨key, format, count, total, digest⟩ := d
  cases format with
  | legacyMarkdown =>
    rw [formatAgrees_legacy rfl]
    unfold MirrorsMarkdown
    split
    · next entry hentry =>
      simp only [ManifestMatches, RevisionFileSet.raw, Revision.raw, hentry, hblob, hint, hblobs,
        List.map_cons, List.map_nil, List.cons.injEq, Prod.mk.injEq, and_true]
      constructor
      · rintro ⟨hname, hcontent, hsize, hdigest, hnone⟩
        exact ⟨hnone, hname, hcontent.symm, hsize.symm, hdigest.symm⟩
      · rintro ⟨hnone, hname, hcontent, hsize, hdigest⟩
        exact ⟨hname, hcontent.symm, hsize.symm, hdigest.symm, hnone⟩
    · next hother =>
      refine iff_of_false id fun h => ?_
      obtain ⟨entry, hentry, -⟩ := List.map_eq_singleton_iff.mp h.2
      exact hother entry hentry
  | fileSetV1 =>
    rw [formatAgrees_fileSet rfl]
    simp only [ManifestMatches, RevisionFileSet.raw, Revision.raw, hblobs, hints, hblob]

/-- Typed rows hold the files of a manifest when it is built from them and compares equal. -/
theorem forall₂_rowHolds_raw {files : List RevisionFile} {m : FileManifest} :
    List.Forall₂ RowHolds m.files (files.map RevisionFile.raw) ↔
      buildFileManifest (files.map fun f => (f.filename, f.contentBytes)) = .ok m ∧
      m.files.map (fun entry => (entry.name, entry.contentSizeBytes, entry.contentSha256)) =
        files.map fun f => (f.filename, f.sizeBytes, f.contentSha256) := by
  have hrow (entry : ManifestFile) (f : RevisionFile) : RowHolds entry f.raw ↔
      (entry.name, entry.content) = (f.filename, f.contentBytes) ∧
      (entry.name, entry.contentSizeBytes, entry.contentSha256) =
        (f.filename, f.sizeBytes, f.contentSha256) := by
    simp only [Prod.mk.injEq]
    constructor
    · rintro ⟨hname, hcontent, hsize, hdigest⟩
      have hname := (SqlValue.ofText_injective hname).symm
      exact ⟨⟨hname, (SqlValue.blob.inj hcontent).symm⟩, hname, Int.ofNat_inj.mp hsize,
        (SqlValue.blob.inj hdigest).symm⟩
    · rintro ⟨⟨hname, hcontent⟩, -, hsize, hdigest⟩
      exact ⟨by rw [RevisionFile.raw, hname], by rw [RevisionFile.raw, hcontent],
        congrArg Nat.cast hsize, by rw [RevisionFile.raw, hdigest]⟩
  rw [List.forall₂_map_right_iff]
  constructor
  · intro h
    have hpairs := h.imp fun entry f hf => (hrow entry f).mp hf
    have hfiles := map_eq_of_forall₂ (hpairs.imp fun _ _ hf => hf.1)
    exact ⟨(buildFileManifest_named.mpr hfiles).1, map_eq_of_forall₂ (hpairs.imp fun _ _ hf => hf.2)⟩
  · rintro ⟨hbuilt, hmetadata⟩
    have hnames : m.files.map (·.name) =
        (files.map fun f => (f.filename, f.contentBytes)).map Prod.fst := by
      have hfirst := congrArg (List.map Prod.fst) hmetadata
      rw [List.map_map, List.map_map] at hfirst
      rw [List.map_map]
      exact hfirst
    have hfiles := buildFileManifest_named.mp ⟨hbuilt, hnames⟩
    exact (forall₂_and (forall₂_of_map_eq hfiles) (forall₂_of_map_eq hmetadata)).imp
      fun entry f hf => (hrow entry f).mpr hf

/-- Typed rows that hold the files of a manifest keep the bounds of a snapshot. -/
theorem bounds_of_rowHolds_raw {files : List RevisionFile} {m : FileManifest}
    (h : List.Forall₂ RowHolds m.files (files.map RevisionFile.raw)) :
    files.length ≤ maxFilesPerPage ∧ (files.map (·.contentBytes.length)).sum ≤ maxPageBytes := by
  have hcount := m.valid.count.2
  have hsizes : m.files.map (·.contentSizeBytes) = files.map (·.contentBytes.length) := by
    rw [List.forall₂_map_right_iff] at h
    refine map_eq_of_forall₂ (List.forall₂_iff_zip.mpr ⟨h.length_eq, fun {entry f} hmem => ?_⟩)
    rw [(m.valid.entries entry (List.of_mem_zip hmem).1).2.2.1]
    exact congrArg List.length (SqlValue.blob.inj (List.forall₂_zip h hmem).contentBytes).symm
  rw [← hsizes]
  refine ⟨?_, m.valid.bounded⟩
  rwa [h.length_eq, List.length_map] at hcount

namespace RawTables.Represents

variable {t : RawTables} {s : Store}

omit [Platform] in
/-- The stored files of a key, read with their types. -/
theorem storedFiles_eq (h : t.Represents s) (key : RevisionKey) :
    t.storedFiles key.raw = ((s.filesOf key).insertionSort filenameLe).map RevisionFile.raw := by
  have hkept : t.files.filter (fun f => f.key.Matches key.raw) =
      (s.filesOf key).map RevisionFile.raw := by
    rw [h.files, List.filter_map, Store.filesOf]
    congr 1
    refine List.filter_congr fun f _ => ?_
    have hmatches : f.raw.key.Matches key.raw ↔ f.key = key := by
      rw [← key.raw_same.iff_matches]
      exact RevisionKey.raw_same_iff
    simp only [Function.comp_apply, hmatches]
  rw [storedFiles, hkept]
  exact (List.map_insertionSort filenameLe _ RevisionFile.raw _ fun f _ f' _ => Iff.rfl).symm

omit [Platform] in
theorem keyed_revisions (h : t.Represents s) : Keyed Revision.key s.content.revisions := by
  have hpairwise := t.revisionsKeyed
  rw [h.revisions, List.pairwise_map] at hpairwise
  refine List.pairwise_map.mpr (hpairwise.imp fun {r r'} hne heq => hne ?_)
  have hsame := RevisionKey.raw_same_iff.mpr heq
  exact ⟨hsame.1, hsame.2, hsame.3⟩

omit [Platform] in
theorem keyed_fileSets (h : t.Represents s) :
    Keyed RevisionFileSet.key s.content.revisionFileSets := by
  have hpairwise := t.fileSetsKeyed
  rw [h.fileSets, List.pairwise_map] at hpairwise
  exact List.pairwise_map.mpr (hpairwise.imp fun {d d'} hne heq =>
    hne (RevisionKey.raw_same_iff.mpr heq))

omit [Platform] in
/-- A mark stands under a typed key when the key is among the typed ones. -/
theorem exists_same_iff {keys : List RevisionKey} {key : RevisionKey} :
    (∃ k ∈ keys.map RevisionKey.raw, k.Same key.raw) ↔ key ∈ keys := by
  constructor
  · rintro ⟨_, hk, hsame⟩
    obtain ⟨k, hmem, rfl⟩ := List.mem_map.mp hk
    rwa [← RevisionKey.raw_same_iff.mp hsame]
  · intro hmem
    exact ⟨_, List.mem_map_of_mem hmem, key.raw_same⟩

/-- What describes a typed Revision. -/
theorem describes_iff (h : t.Represents s) {r : Revision} {m : FileManifest} :
    t.Describes r.raw m ↔
      (∃ d ∈ s.content.revisionFileSets, d.key = r.key ∧ m.files.length = d.fileCount ∧
        m.totalSizeBytes = d.totalSizeBytes ∧ ManifestMatches r d m) ∧
      (r.key ∈ s.content.revisionFileSeals ∧ r.key ∈ s.content.revisionFileSealGuards) ∧
      List.Forall₂ RowHolds m.files
        (((s.filesOf r.key).insertionSort filenameLe).map RevisionFile.raw) := by
  have hcounts (d : RevisionFileSet) : CountsAgree d.raw.declared m ↔
      m.files.length = d.fileCount ∧ m.totalSizeBytes = d.totalSizeBytes := by
    simp only [CountsAgree, RevisionFileSet.raw, SqlValue.isInt_integer, Int.ofNat_inj]
  have hjoins (d : RevisionFileSet) : Joins r.raw d.raw ↔ d.key = r.key :=
    RevisionKey.raw_same_iff
  have hkey : r.raw.key = r.key.raw := rfl
  rw [← exists_same_iff, ← exists_same_iff, ← h.seals, ← h.sealGuards, ← h.storedFiles_eq, ← hkey]
  constructor
  · rintro ⟨⟨_, hd, hsame, hcount, hformat⟩, hmarked, hguarded, hfiles⟩
    rw [h.fileSets] at hd
    obtain ⟨d, hmem, rfl⟩ := List.mem_map.mp hd
    obtain ⟨hcount, htotal⟩ := (hcounts d).mp hcount
    exact ⟨⟨d, hmem, (hjoins d).mp hsame, hcount, htotal, formatAgrees_raw.mp hformat⟩,
      ⟨hmarked, hguarded⟩, hfiles⟩
  · rintro ⟨⟨d, hmem, hsame, hcount, htotal, hformat⟩, ⟨hmarked, hguarded⟩, hfiles⟩
    refine ⟨⟨d.raw, ?_, (hjoins d).mpr hsame, (hcounts d).mpr ⟨hcount, htotal⟩,
      formatAgrees_raw.mpr hformat⟩, hmarked, hguarded, hfiles⟩
    rw [h.fileSets]
    exact List.mem_map_of_mem hmem

/-- **The manifest of a store is that of its rows.** -/
theorem getCurrentFileManifest_iff (h : t.Represents s) {page : Page} {m : FileManifest} :
    t.getCurrentFileManifest page = .ok m ↔
      PatchouliLib.getCurrentFileManifest page s = .ok m := by
  have hrevision {r : Revision} := h.keyed_revisions.find?_eq (a := r) (k := page.currentRevision)
  have hfileSet {d : RevisionFileSet} :=
    h.keyed_fileSets.find?_eq (a := d) (k := page.currentRevision)
  rw [RawTables.getCurrentFileManifest_iff, PatchouliLib.getCurrentFileManifest,
    Store.snapshotRows]
  simp only [SnapshotRows.manifest, Fallible.bind_ok, Fallible.get_ok, Fallible.check_ok,
    Fallible.pure_ok, exists_and_left, exists_const, hrevision, hfileSet, Bool.and_eq_true,
    List.contains_iff_mem]
  constructor
  · rintro ⟨_, hr, hkey, hdescribes⟩
    rw [h.revisions] at hr
    obtain ⟨r, hmem, rfl⟩ := List.mem_map.mp hr
    have hsame : r.key = page.currentRevision := RevisionKey.raw_same_iff.mp hkey
    obtain ⟨⟨d, hd, hdkey, hcount, htotal, hformat⟩, ⟨hmarked, hguarded⟩, hfiles⟩ :=
      h.describes_iff.mp hdescribes
    rw [hsame] at hdkey hmarked hguarded hfiles
    obtain ⟨hbuilt, hmetadata⟩ := forall₂_rowHolds_raw.mp hfiles
    obtain ⟨hlength, hsize⟩ := bounds_of_rowHolds_raw hfiles
    exact ⟨r, ⟨hmem, hsame⟩, d, ⟨hd, hdkey⟩, ⟨hmarked, hguarded⟩, ⟨hlength, hsize⟩, m,
      hbuilt, ⟨hcount, htotal, hmetadata⟩, hformat, rfl⟩
  · rintro ⟨r, ⟨hmem, hsame⟩, d, ⟨hd, hdkey⟩, hmarks, -, _, hbuilt, ⟨hcount, htotal, hmetadata⟩,
      hformat, rfl⟩
    rw [← hsame] at hdkey hmarks hbuilt hmetadata ⊢
    refine ⟨r.raw, ?_, r.key.raw_same, h.describes_iff.mpr ⟨⟨d, hd, hdkey, hcount, htotal,
      hformat⟩, hmarks, forall₂_rowHolds_raw.mpr ⟨hbuilt, hmetadata⟩⟩⟩
    rw [h.revisions]
    exact List.mem_map_of_mem hmem

end RawTables.Represents

end

end PatchouliLib
