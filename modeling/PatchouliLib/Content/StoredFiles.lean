import PatchouliLib.Content.Snapshots
import PatchouliLib.Foundation.SqlValue

/-!
# Stored snapshots

The rows of a Revision as they are found in a database file, whatever has been done to it:
every column holds a value of any storage class, and only the keys of the tables can be
relied on.  A reader collects the files of a Revision within its bounds, builds their
manifest again, and compares what it gets with the rows.

## Main definitions

* `RawTables` — the rows of the Revisions, their file sets, files, seals and seal guards.
* `collectFiles admits` — the loop of a reader over the files of a Revision.
* `RawTables.getCurrentFileManifest` — the verified manifest of the current Revision.
* `RawTables.Describes r m` — the rows of the Revision `r` are those of the manifest `m`.

## Main results

* `collectFiles_ok` — what the loop collects.
* `storedManifest_iff` — **a manifest that compares equal to the rows is told by the rows.**
* `getCurrentFileManifest_iff` — the current Revision is accepted when its rows describe a
  manifest.
-/

namespace PatchouliLib

open Foundation

/-! ### Rows -/

/-- The key columns of a row. -/
@[ext] structure RawKey where
  libraryId : SqlValue
  pageUid : SqlValue
  revisionId : SqlValue
  revisionNumber : SqlValue
deriving DecidableEq

/-- The key columns of two rows are equal. -/
structure RawKey.Same (k k' : RawKey) : Prop where
  libraryId : k.libraryId.SqlEq k'.libraryId
  pageUid : k.pageUid.SqlEq k'.pageUid
  revisionId : k.revisionId.SqlEq k'.revisionId
  revisionNumber : k.revisionNumber.SqlEq k'.revisionNumber

instance : DecidableRel RawKey.Same := fun k k' =>
  decidable_of_iff (k.libraryId.SqlEq k'.libraryId ∧ k.pageUid.SqlEq k'.pageUid ∧
      k.revisionId.SqlEq k'.revisionId ∧ k.revisionNumber.SqlEq k'.revisionNumber)
    ⟨fun ⟨h1, h2, h3, h4⟩ => ⟨h1, h2, h3, h4⟩, fun h => ⟨h.1, h.2, h.3, h.4⟩⟩

/-- The row stands under the key that a reader asks for. -/
structure RawKey.Matches (k key : RawKey) : Prop where
  libraryId : k.libraryId.Matches key.libraryId
  pageUid : k.pageUid.Matches key.pageUid
  revisionId : k.revisionId.Matches key.revisionId
  revisionNumber : k.revisionNumber.Matches key.revisionNumber

instance : DecidableRel RawKey.Matches := fun k key =>
  decidable_of_iff (k.libraryId.Matches key.libraryId ∧ k.pageUid.Matches key.pageUid ∧
      k.revisionId.Matches key.revisionId ∧ k.revisionNumber.Matches key.revisionNumber)
    ⟨fun ⟨h1, h2, h3, h4⟩ => ⟨h1, h2, h3, h4⟩, fun h => ⟨h.1, h.2, h.3, h.4⟩⟩

namespace RawKey.Same

variable {k k' k'' : RawKey}

theorem symm (h : k.Same k') : k'.Same k := ⟨h.1.symm, h.2.symm, h.3.symm, h.4.symm⟩

theorem trans (h : k.Same k') (h' : k'.Same k'') : k.Same k'' :=
  ⟨h.1.trans h'.1, h.2.trans h'.2, h.3.trans h'.3, h.4.trans h'.4⟩

/-- The same rows stand under equal keys. -/
theorem matches_iff (h : k.Same k') : k''.Matches k ↔ k''.Matches k' :=
  ⟨fun hk => ⟨hk.1.trans h.1.2, hk.2.trans h.2.2, hk.3.trans h.3.2, hk.4.trans h.4.2⟩,
    fun hk => ⟨hk.1.trans h.1.2.symm, hk.2.trans h.2.2.symm, hk.3.trans h.3.2.symm,
      hk.4.trans h.4.2.symm⟩⟩

/-- The rows under a key without NULL are those with an equal key. -/
theorem iff_matches (h : k.Same k) : k'.Same k ↔ k'.Matches k := by
  constructor
  · intro hk
    exact ⟨hk.1.2, hk.2.2, hk.3.2, hk.4.2⟩
  · rintro ⟨h1, h2, h3, h4⟩
    exact ⟨.symm ⟨h.1.1, h1.symm⟩, .symm ⟨h.2.1, h2.symm⟩, .symm ⟨h.3.1, h3.symm⟩,
      .symm ⟨h.4.1, h4.symm⟩⟩

end RawKey.Same

/-- The key that a reader asks for. -/
def RevisionKey.raw (key : RevisionKey) : RawKey :=
  ⟨.ofText key.page.libraryId, .blob key.page.pageUid, .ofText key.revisionId,
    .integer key.revisionNumber⟩

theorem RevisionKey.raw_same (key : RevisionKey) : key.raw.Same key.raw :=
  ⟨⟨by simp [raw, SqlValue.ofText, SqlValue.comparand], rfl⟩,
    ⟨by simp [raw, SqlValue.comparand], rfl⟩,
    ⟨by simp [raw, SqlValue.ofText, SqlValue.comparand], rfl⟩,
    ⟨by simp [raw, SqlValue.comparand], rfl⟩⟩

structure RawRevision where
  key : RawKey
  contentMd : SqlValue
  contentSizeBytes : SqlValue
  contentSha256 : SqlValue
deriving DecidableEq

/-- The declared columns of a file set; they are NULL where a join finds no row. -/
structure RawDeclaration where
  storageFormat : SqlValue := .null
  fileCount : SqlValue := .null
  totalSizeBytes : SqlValue := .null
  snapshotSha256 : SqlValue := .null
deriving DecidableEq

structure RawFileSet where
  key : RawKey
  declared : RawDeclaration
deriving DecidableEq

structure RawFile where
  key : RawKey
  filename : SqlValue
  contentBytes : SqlValue
  sizeBytes : SqlValue
  contentSha256 : SqlValue
deriving DecidableEq

/-- The Revision stands under these three columns of a key. -/
def RawRevision.Identifies (libraryId pageUid revisionId : SqlValue) (r : RawRevision) : Prop :=
  r.key.libraryId.SqlEq libraryId ∧ r.key.pageUid.SqlEq pageUid ∧ r.key.revisionId.SqlEq revisionId

instance (libraryId pageUid revisionId : SqlValue) (r : RawRevision) :
    Decidable (r.Identifies libraryId pageUid revisionId) := by
  unfold RawRevision.Identifies
  infer_instance

/-- The rows that snapshots are read from.  The primary and unique keys of the tables hold;
nothing else is known of them. -/
structure RawTables where
  revisions : List RawRevision
  fileSets : List RawFileSet
  files : List RawFile
  seals : List RawKey
  sealGuards : List RawKey
  presentations : List RevisionPresentation
  /-- `uq_revisions_revision_page_library`. -/
  revisionsKeyed : revisions.Pairwise fun r r' =>
    ¬r.Identifies r'.key.libraryId r'.key.pageUid r'.key.revisionId
  fileSetsKeyed : fileSets.Pairwise fun m m' => ¬m.key.Same m'.key
  sealsKeyed : seals.Pairwise fun k k' => ¬k.Same k'
  sealGuardsKeyed : sealGuards.Pairwise fun k k' => ¬k.Same k'

namespace RawTables

variable (t : RawTables)

/-- `RevisionFileSet` belongs to `Revision`. -/
def Joins (r : RawRevision) (m : RawFileSet) : Prop := m.key.Same r.key

instance (r : RawRevision) (m : RawFileSet) : Decidable (Joins r m) := by
  unfold Joins
  infer_instance

/-- The files of a Revision, `ORDER BY filename`. -/
def storedFiles (key : RawKey) : List RawFile :=
  (t.files.filter fun f => f.key.Matches key).insertionSort fun f f' => f.filename.le f'.filename

/-- Both the seal and its guard stand under the key. -/
def hasRevisionFileSeal (key : RawKey) : Except Err Bool := do
  let marker ← oneOrNone (t.seals.filter fun k => k.Matches key) .runtime
  let guard ← oneOrNone (t.sealGuards.filter fun k => k.Matches key) .runtime
  pure (marker.isSome && guard.isSome)

end RawTables

/-! ### Collecting the files -/

/-- The state of the loop over the files of a Revision. -/
structure Collected where
  files : List (RawFile × Bytes) := []
  size : ℕ := 0

section

variable {ε : Type} (e : ε) (admits : RawFile → Bytes → Prop) [∀ f content, Decidable (admits f content)]

/-- One round of the loop: the content is a blob that fits, and the reader admits it. -/
def collectStep (s : Collected) (f : RawFile) : Except ε Collected := do
  let content ← Fallible.get f.contentBytes.blob? e
  Fallible.check (admits f content ∧ s.files.length < maxFilesPerPage ∧
    s.size + content.length ≤ maxPageBytes) e
  pure ⟨s.files ++ [(f, content)], s.size + content.length⟩

/-- The files of a Revision with their contents, within the bounds of a snapshot. -/
def collectFiles (rows : List RawFile) : Except ε (List (RawFile × Bytes)) := do
  let s ← rows.foldlM (collectStep e admits) {}
  pure s.files

end

/-- The summed length of the contents. -/
def contentLength (stored : List (RawFile × Bytes)) : ℕ := (stored.map (·.2.length)).sum

section

variable {ε : Type} {e : ε} {admits : RawFile → Bytes → Prop}
  [∀ f content, Decidable (admits f content)]

theorem collectStep_ok {s s' : Collected} {f : RawFile} :
    collectStep e admits s f = .ok s' ↔ ∃ content, f.contentBytes = .blob content ∧
      admits f content ∧ s.files.length < maxFilesPerPage ∧
      s.size + content.length ≤ maxPageBytes ∧
      ⟨s.files ++ [(f, content)], s.size + content.length⟩ = s' := by
  simp only [collectStep, Fallible.bind_ok, Fallible.get_ok, Fallible.check_ok, Fallible.pure_ok,
    SqlValue.blob?_eq_some, exists_and_left, exists_const, and_assoc]

/-- **What the loop collects**, from any state within the bounds. -/
theorem foldlM_collectStep_ok {rows : List RawFile} {s s' : Collected}
    (hcount : s.files.length ≤ maxFilesPerPage) (hsize : s.size ≤ maxPageBytes) :
    rows.foldlM (collectStep e admits) s = .ok s' ↔ ∃ stored, stored.map Prod.fst = rows ∧
      (∀ x ∈ stored, x.1.contentBytes = .blob x.2 ∧ admits x.1 x.2) ∧
      s.files.length + stored.length ≤ maxFilesPerPage ∧
      s.size + contentLength stored ≤ maxPageBytes ∧
      ⟨s.files ++ stored, s.size + contentLength stored⟩ = s' := by
  induction rows generalizing s with
  | nil =>
    rw [List.foldlM_nil, Fallible.pure_ok]
    constructor
    · rintro rfl
      refine ⟨[], rfl, by simp, hcount, hsize, ?_⟩
      simp [contentLength]
    · rintro ⟨stored, hrows, -, -, -, rfl⟩
      rw [List.map_eq_nil_iff] at hrows
      subst hrows
      simp [contentLength]
  | cons f rows ih =>
    have hsum (x : RawFile × Bytes) (rest : List (RawFile × Bytes)) :
        contentLength (x :: rest) = x.2.length + contentLength rest := by
      simp [contentLength]
    rw [List.foldlM_cons, Fallible.bind_ok]
    constructor
    · rintro ⟨u, hstep, hrest⟩
      obtain ⟨content, hblob, hadmits, hroom, hfits, rfl⟩ := collectStep_ok.mp hstep
      have hlength : (s.files ++ [(f, content)]).length ≤ maxFilesPerPage := by
        rw [List.length_append, List.length_singleton]
        exact hroom
      obtain ⟨stored, hrows, hall, hcount', hsize', rfl⟩ := (ih hlength hfits).mp hrest
      rw [List.length_append, List.length_singleton] at hcount'
      dsimp only at hsize'
      refine ⟨(f, content) :: stored, by rw [List.map_cons, hrows], ?_, ?_, ?_, ?_⟩
      · intro x hx
        rcases List.mem_cons.mp hx with rfl | hx
        · exact ⟨hblob, hadmits⟩
        · exact hall x hx
      · rw [List.length_cons]
        omega
      · rw [hsum]
        dsimp only
        omega
      · rw [hsum, List.append_assoc, List.singleton_append, Nat.add_assoc]
    · rintro ⟨stored, hrows, hall, hcount', hsize', rfl⟩
      obtain ⟨x, rest, rfl, rfl, rfl⟩ := List.map_eq_cons_iff.mp hrows
      obtain ⟨hblob, hadmits⟩ := hall x List.mem_cons_self
      rw [List.length_cons] at hcount'
      rw [hsum] at hsize'
      have hroom : s.files.length < maxFilesPerPage := by omega
      have hfits : s.size + x.2.length ≤ maxPageBytes := by omega
      have hlength : (s.files ++ [(x.1, x.2)]).length ≤ maxFilesPerPage := by
        rw [List.length_append, List.length_singleton]
        exact hroom
      refine ⟨_, collectStep_ok.mpr ⟨x.2, hblob, hadmits, hroom, hfits, rfl⟩,
        (ih hlength hfits).mpr ?_⟩
      refine ⟨rest, rfl, fun y hy => hall y (List.mem_cons_of_mem x hy), ?_, ?_, ?_⟩
      · rw [List.length_append, List.length_singleton]
        omega
      · dsimp only
        omega
      · rw [hsum, List.append_assoc, List.singleton_append, Nat.add_assoc]

/-- **What the loop collects**: every row with its content, when they are few and small
enough together. -/
theorem collectFiles_ok {rows : List RawFile} {stored : List (RawFile × Bytes)} :
    collectFiles e admits rows = .ok stored ↔ stored.map Prod.fst = rows ∧
      (∀ x ∈ stored, x.1.contentBytes = .blob x.2 ∧ admits x.1 x.2) ∧
      stored.length ≤ maxFilesPerPage ∧ contentLength stored ≤ maxPageBytes := by
  have hloop {s' : Collected} :=
    @foldlM_collectStep_ok _ e admits _ rows {} s' (Nat.zero_le _) (Nat.zero_le _)
  rw [collectFiles, Fallible.bind_ok]
  constructor
  · rintro ⟨s', hs', hfiles⟩
    obtain ⟨stored', hrows, hall, hcount, hsize, rfl⟩ := hloop.mp hs'
    rw [Fallible.pure_ok, List.nil_append] at hfiles
    subst hfiles
    refine ⟨hrows, hall, ?_, ?_⟩
    · rwa [List.length_nil, Nat.zero_add] at hcount
    · rwa [Nat.zero_add] at hsize
  · rintro ⟨hrows, hall, hcount, hsize⟩
    refine ⟨_, hloop.mpr ⟨stored, hrows, hall, ?_, ?_, rfl⟩, ?_⟩
    · rwa [List.length_nil, Nat.zero_add]
    · rwa [Nat.zero_add]
    · rw [Fallible.pure_ok, List.nil_append]

end

/-! ### The manifest of stored files -/

/-- The stored row is that of the file of a manifest. -/
structure RowHolds (entry : ManifestFile) (f : RawFile) : Prop where
  filename : f.filename = .ofText entry.name
  contentBytes : f.contentBytes = .blob entry.content
  sizeBytes : f.sizeBytes.IsInt entry.contentSizeBytes
  contentSha256 : f.contentSha256 = .blob entry.contentSha256

section

variable [Platform]

/-- `build_file_manifest` of the stored names and contents. -/
def buildStored (stored : List (RawFile × Bytes)) : Except Err FileManifest := do
  let files ← stored.mapM fun x => do
    let name ← Fallible.get x.1.filename.text? .validation
    pure (name, x.2)
  buildFileManifest files

/-- The stored names, sizes and digests are those of the manifest. -/
def MetadataAgrees (m : FileManifest) (stored : List (RawFile × Bytes)) : Prop :=
  List.Forall₂ (fun entry x => x.1.filename = .ofText entry.name ∧
    x.1.sizeBytes.IsInt entry.contentSizeBytes ∧ x.1.contentSha256 = .blob entry.contentSha256)
    m.files stored

instance (m : FileManifest) (stored : List (RawFile × Bytes)) : Decidable (MetadataAgrees m stored) := by
  unfold MetadataAgrees
  infer_instance

/-- The declared counts are those of the manifest. -/
def CountsAgree (d : RawDeclaration) (m : FileManifest) : Prop :=
  d.fileCount.IsInt m.files.length ∧ d.totalSizeBytes.IsInt m.totalSizeBytes

instance (d : RawDeclaration) (m : FileManifest) : Decidable (CountsAgree d m) := by
  unfold CountsAgree
  infer_instance

/-- The only file of a legacy Revision is its Markdown column. -/
def MirrorsMarkdown (r : RawRevision) (d : RawDeclaration) (files : List ManifestFile) : Prop :=
  match files with
  | [entry] => entry.name = "content.md" ∧ r.contentMd = .blob entry.content ∧
      r.contentSizeBytes.IsInt entry.contentSizeBytes ∧
      r.contentSha256 = .blob entry.contentSha256 ∧ d.snapshotSha256 = .null
  | _ => False

instance (r : RawRevision) (d : RawDeclaration) (files : List ManifestFile) :
    Decidable (MirrorsMarkdown r d files) := by
  unfold MirrorsMarkdown
  split <;> infer_instance

/-- The Revision and the declared columns say of their format what the manifest is. -/
def FormatAgrees (r : RawRevision) (d : RawDeclaration) (m : FileManifest) : Prop :=
  if d.storageFormat = .ofText "legacy_markdown" then MirrorsMarkdown r d m.files
  else if d.storageFormat = .ofText "file_set_v1" then
    r.contentMd = .null ∧ r.contentSizeBytes = .null ∧ r.contentSha256 = .null ∧
      d.snapshotSha256 = .blob m.snapshotSha256
  else False

instance (r : RawRevision) (d : RawDeclaration) (m : FileManifest) : Decidable (FormatAgrees r d m) := by
  unfold FormatAgrees
  infer_instance

theorem formatAgrees_legacy {r : RawRevision} {d : RawDeclaration} {m : FileManifest}
    (h : d.storageFormat = .ofText "legacy_markdown") :
    FormatAgrees r d m ↔ MirrorsMarkdown r d m.files := by
  rw [FormatAgrees, if_pos h]

theorem formatAgrees_fileSet {r : RawRevision} {d : RawDeclaration} {m : FileManifest}
    (h : d.storageFormat = .ofText "file_set_v1") :
    FormatAgrees r d m ↔ r.contentMd = .null ∧ r.contentSizeBytes = .null ∧
      r.contentSha256 = .null ∧ d.snapshotSha256 = .blob m.snapshotSha256 := by
  have hother : d.storageFormat ≠ .ofText "legacy_markdown" := by
    intro hlegacy
    exact absurd (SqlValue.ofText_injective (h.symm.trans hlegacy)) (by decide)
  rw [FormatAgrees, if_neg hother, if_pos h]

theorem buildStored_ok {stored : List (RawFile × Bytes)} {m : FileManifest} :
    buildStored stored = .ok m ↔ ∃ files : List (Text × Bytes), buildFileManifest files = .ok m ∧
      stored.map (fun x => (x.1.filename, x.2)) = files.map fun y => (.ofText y.1, y.2) := by
  have hnamed (x : RawFile × Bytes) (y : Text × Bytes) : (do
      let name ← Fallible.get x.1.filename.text? Err.validation
      pure (name, x.2)) = .ok y ↔ (x.1.filename, x.2) = (.ofText y.1, y.2) := by
    simp only [Fallible.bind_ok, Fallible.get_ok, Fallible.pure_ok, SqlValue.text?_eq_some,
      Prod.ext_iff]
    constructor
    · rintro ⟨name, hname, rfl, hcontent⟩
      exact ⟨hname, hcontent⟩
    · rintro ⟨hname, hcontent⟩
      exact ⟨y.1, hname, rfl, hcontent⟩
  rw [buildStored, Fallible.bind_ok]
  constructor
  · rintro ⟨files, hfiles, hbuilt⟩
    exact ⟨files, hbuilt, Fallible.map_eq_map_of_mapM (fun x _ y h => (hnamed x y).mp h) hfiles⟩
  · rintro ⟨files, hbuilt, hsame⟩
    refine ⟨files, ?_, hbuilt⟩
    clear hbuilt
    induction stored generalizing files with
    | nil =>
      rw [List.map_nil, eq_comm, List.map_eq_nil_iff] at hsame
      rw [hsame]
      rfl
    | cons x stored ih =>
      rw [List.map_cons, eq_comm] at hsame
      obtain ⟨y, rest, rfl, hy, hrest⟩ := List.map_eq_cons_iff.mp hsame
      exact Fallible.mapM_cons_ok.mpr ⟨y, rest, (hnamed x y).mpr hy.symm, ih rest hrest.symm, rfl⟩

/-- **A manifest that compares equal to the stored files is told by the rows.** -/
theorem metadataAgrees_iff {stored : List (RawFile × Bytes)} {m : FileManifest}
    (hblobs : ∀ x ∈ stored, x.1.contentBytes = .blob x.2) :
    buildStored stored = .ok m ∧ MetadataAgrees m stored ↔
      List.Forall₂ RowHolds m.files (stored.map Prod.fst) := by
  rw [List.forall₂_map_right_iff]
  constructor
  · rintro ⟨hbuilt, hagrees⟩
    obtain ⟨files, hbuilt, hstored⟩ := buildStored_ok.mp hbuilt
    have hnamed : m.files.map (fun entry => SqlValue.ofText entry.name) =
        stored.map fun x => x.1.filename :=
      map_eq_of_forall₂ (hagrees.imp fun _ _ h => h.1.symm)
    have hnames : m.files.map (·.name) = files.map Prod.fst := by
      have hsame := congrArg (List.map Prod.fst) hstored
      rw [List.map_map, List.map_map] at hsame
      have htexts : (m.files.map (·.name)).map SqlValue.ofText =
          (files.map Prod.fst).map SqlValue.ofText := by
        rw [List.map_map, List.map_map]
        exact hnamed.trans hsame
      exact List.map_injective_iff.mpr (fun _ _ => SqlValue.ofText_injective) htexts
    have hcontents : m.files.map (·.content) = stored.map Prod.snd := by
      have hkept := congrArg (List.map Prod.snd) (buildFileManifest_named.mp ⟨hbuilt, hnames⟩)
      have hsame := congrArg (List.map Prod.snd) hstored
      rw [List.map_map] at hkept
      rw [List.map_map, List.map_map] at hsame
      exact hkept.trans hsame.symm
    have hpairs := forall₂_and hagrees (forall₂_of_map_eq hcontents)
    refine (List.forall₂_iff_zip.mpr ⟨hpairs.length_eq, fun {entry x} hmem => ?_⟩)
    obtain ⟨⟨hname, hsize, hdigest⟩, hcontent⟩ := List.forall₂_zip hpairs hmem
    have hblob := hblobs x (List.of_mem_zip hmem).2
    exact ⟨hname, by rw [hblob, hcontent], hsize, hdigest⟩
  · intro hrows
    have hcontents : List.Forall₂ (fun entry x => entry.content = x.2) m.files stored := by
      refine List.forall₂_iff_zip.mpr ⟨hrows.length_eq, fun {entry x} hmem => ?_⟩
      have hrow := (List.forall₂_zip hrows hmem).contentBytes
      rw [hblobs x (List.of_mem_zip hmem).2] at hrow
      exact (SqlValue.blob.inj hrow).symm
    refine ⟨buildStored_ok.mpr ⟨_, buildFileManifest_files m, ?_⟩,
      hrows.imp fun _ _ h => ⟨h.filename, h.sizeBytes, h.contentSha256⟩⟩
    rw [List.map_map]
    refine (map_eq_of_forall₂ ?_).symm
    refine (forall₂_and hrows hcontents).imp fun entry x h => ?_
    exact Prod.ext h.1.filename.symm h.2

/-- **The files of a snapshot are read back** when the rows hold the files of a manifest and
the reader admits the rows of valid files. -/
theorem collectFiles_iff {ε : Type} {e : ε} {admits : RawFile → Bytes → Prop}
    [∀ f content, Decidable (admits f content)]
    (hadmits : ∀ (entry : ManifestFile) (f : RawFile), entry.Valid → RowHolds entry f →
      admits f entry.content)
    {rows : List RawFile} {m : FileManifest} :
    (∃ stored, collectFiles e admits rows = .ok stored ∧ buildStored stored = .ok m ∧
      MetadataAgrees m stored) ↔ List.Forall₂ RowHolds m.files rows := by
  constructor
  · rintro ⟨stored, hcollected, hbuilt⟩
    obtain ⟨rfl, hall, -, -⟩ := collectFiles_ok.mp hcollected
    exact (metadataAgrees_iff fun x hx => (hall x hx).1).mp hbuilt
  · intro hrows
    have hlength := hrows.length_eq
    have hstored : (rows.zip (m.files.map (·.content))).map Prod.fst = rows :=
      List.map_fst_zip (by rw [List.length_map, hlength])
    have hcontents : (rows.zip (m.files.map (·.content))).map Prod.snd = m.files.map (·.content) :=
      List.map_snd_zip (by rw [List.length_map, hlength])
    have hholds : List.Forall₂ (fun entry x => RowHolds entry x.1 ∧ entry.content = x.2) m.files
        (rows.zip (m.files.map (·.content))) := by
      refine forall₂_and ?_ (forall₂_of_map_eq hcontents.symm)
      rw [← List.forall₂_map_right_iff (f := Prod.fst), hstored]
      exact hrows
    have hall : ∀ x ∈ rows.zip (m.files.map (·.content)),
        x.1.contentBytes = .blob x.2 ∧ admits x.1 x.2 := by
      intro x hx
      obtain ⟨i, hi, rfl⟩ := List.mem_iff_getElem.mp hx
      have hi' : i < m.files.length := by
        rw [hholds.length_eq]
        exact hi
      obtain ⟨hrow, hcontent⟩ := hholds.get hi' hi
      rw [List.get_eq_getElem, List.get_eq_getElem] at hrow hcontent
      rw [← hcontent]
      exact ⟨hrow.contentBytes,
        hadmits _ _ (m.valid.entries _ (List.getElem_mem hi')) hrow⟩
    have hsize : contentLength (rows.zip (m.files.map (·.content))) ≤ maxPageBytes := by
      have hsizes : (rows.zip (m.files.map (·.content))).map (·.2.length) =
          m.files.map (·.contentSizeBytes) := by
        have hlengths := congrArg (List.map List.length) hcontents
        rw [List.map_map, List.map_map] at hlengths
        refine hlengths.trans (List.map_congr_left fun entry hentry => ?_)
        exact (m.valid.entries entry hentry).2.2.1.symm
      rw [contentLength, hsizes]
      exact m.valid.bounded
    refine ⟨rows.zip (m.files.map (·.content)), collectFiles_ok.mpr ⟨hstored, hall, ?_, hsize⟩, ?_⟩
    · rw [← hholds.length_eq]
      exact m.valid.count.2
    · refine (metadataAgrees_iff fun x hx => (hall x hx).1).mpr ?_
      rwa [hstored]

/-! ### The current Revision -/

namespace RawTables

variable {t : RawTables}

/-- Read and verify the exact sealed current Revision, including legacy data. -/
def getCurrentFileManifest (t : RawTables) (page : Page) : Except Err FileManifest := do
  let key := page.currentRevision.raw
  let found ← oneOrNone
    ((innerJoin Joins t.revisions t.fileSets).filter fun row => row.1.key.Matches key) .runtime
  let row ← Fallible.get found .runtime
  let sealed ← t.hasRevisionFileSeal key
  Fallible.check (sealed = true) .runtime
  let stored ← collectFiles Err.runtime (fun _ _ => True)
    ((t.storedFiles key).take (maxFilesPerPage + 1))
  let manifest ← (buildStored stored).mapError fun _ => .runtime
  Fallible.check (CountsAgree row.2.declared manifest ∧ MetadataAgrees manifest stored) .runtime
  Fallible.check (FormatAgrees row.1 row.2.declared manifest) .runtime
  pure manifest

/-- The stored rows of a Revision are those of a manifest. -/
structure Describes (t : RawTables) (r : RawRevision) (m : FileManifest) : Prop where
  fileSet : ∃ d ∈ t.fileSets, Joins r d ∧ CountsAgree d.declared m ∧ FormatAgrees r d.declared m
  marked : ∃ k ∈ t.seals, k.Same r.key
  guarded : ∃ k ∈ t.sealGuards, k.Same r.key
  files : List.Forall₂ RowHolds m.files (t.storedFiles r.key)

omit [Platform] in
/-- The files of equal keys are the same. -/
theorem storedFiles_congr {k k' : RawKey} (h : k.Same k') : t.storedFiles k = t.storedFiles k' := by
  unfold storedFiles
  congr 1
  refine List.filter_congr fun f _ => ?_
  simp only [h.matches_iff]

omit [Platform] in
theorem selectsOne_key {keys : List RawKey} (h : keys.Pairwise fun k k' => ¬k.Same k')
    {key : RawKey} (hkey : key.Same key) : SelectsOne (fun k => k.Matches key) keys :=
  .of_pairwise h fun _ _ ha hb => (hkey.iff_matches.mpr ha).trans (hkey.iff_matches.mpr hb).symm

omit [Platform] in
theorem selectsOne_joins (t : RawTables) (r : RawRevision) : SelectsOne (Joins r) t.fileSets :=
  .of_pairwise t.fileSetsKeyed fun _ _ ha hb => ha.trans hb.symm

omit [Platform] in
/-- One Revision at the most stands under three columns of a key. -/
theorem selectsOne_identifies (t : RawTables) (libraryId pageUid revisionId : SqlValue) :
    SelectsOne (fun r : RawRevision => r.Identifies libraryId pageUid revisionId) t.revisions :=
  .of_pairwise t.revisionsKeyed fun _ _ ha hb =>
    ⟨ha.1.trans hb.1.symm, ha.2.1.trans hb.2.1.symm, ha.2.2.trans hb.2.2.symm⟩

omit [Platform] in
theorem selectsOne_revision (t : RawTables) {key : RawKey} (hkey : key.Same key) :
    SelectsOne (fun r : RawRevision => r.key.Matches key) t.revisions := by
  refine .of_pairwise t.revisionsKeyed fun r r' ha hb => ?_
  have hsame := (hkey.iff_matches.mpr ha).trans (hkey.iff_matches.mpr hb).symm
  exact ⟨hsame.1, hsame.2, hsame.3⟩

omit [Platform] in
/-- A Revision is sealed when both marks stand under its key. -/
theorem hasRevisionFileSeal_ok {key : RawKey} (hkey : key.Same key) :
    t.hasRevisionFileSeal key = .ok true ↔
      (∃ k ∈ t.seals, k.Same key) ∧ ∃ k ∈ t.sealGuards, k.Same key := by
  have hseals := selectsOne_key t.sealsKeyed hkey
  have hguards := selectsOne_key t.sealGuardsKeyed hkey
  rw [hasRevisionFileSeal, hseals.filter_eq, hguards.filter_eq, oneOrNone_toList,
    oneOrNone_toList, Fallible.ok_bind, Fallible.ok_bind, Fallible.pure_ok, Bool.and_eq_true,
    List.find?_isSome, List.find?_isSome]
  simp only [decide_eq_true_eq, hkey.iff_matches]

/-- A manifest has no more rows than a query with one too many returns. -/
theorem take_of_forall₂ {m : FileManifest} {rows : List RawFile}
    (h : List.Forall₂ RowHolds m.files rows) : rows.take (maxFilesPerPage + 1) = rows := by
  have hcount := m.valid.count.2
  have hlength := h.length_eq
  exact List.take_of_length_le (by omega)

theorem forall₂_of_take {m : FileManifest} {rows : List RawFile}
    (h : List.Forall₂ RowHolds m.files (rows.take (maxFilesPerPage + 1))) :
    List.Forall₂ RowHolds m.files rows := by
  have hcount := m.valid.count.2
  have hlength := h.length_eq
  rw [List.length_take] at hlength
  rwa [List.take_of_length_le (by omega)] at h

/-- **The current Revision is accepted when its rows describe a manifest.** -/
theorem getCurrentFileManifest_iff {page : Page} {m : FileManifest} :
    t.getCurrentFileManifest page = .ok m ↔
      ∃ r ∈ t.revisions, r.key.Same page.currentRevision.raw ∧ t.Describes r m := by
  have hproper := page.currentRevision.raw_same
  have hrevision {r : RawRevision} := (selectsOne_revision t hproper).find?_eq (a := r)
  have hfileSet {r : RawRevision} {d : RawFileSet} := (selectsOne_joins t r).find?_eq (a := d)
  have hfiles {rows : List RawFile} :=
    @collectFiles_iff _ _ Err.runtime (fun _ _ => True) _ (fun _ _ _ _ => trivial) rows m
  rw [getCurrentFileManifest,
    oneOrNone_innerJoin (selectsOne_revision t hproper) (selectsOne_joins t)]
  simp only [Fallible.bind_ok, Fallible.get_ok, Fallible.check_ok, Fallible.mapError_ok,
    Fallible.pure_ok, exists_and_left, exists_const, and_assoc, Except.ok.injEq, exists_eq_left',
    Option.bind_eq_some_iff, Option.map_eq_some_iff]
  constructor
  · rintro ⟨_, ⟨r, hr, d, hd, rfl⟩, _, hmarks, rfl, stored, hstored, _, hbuilt, hcounts, hmetadata,
      hformat, rfl⟩
    obtain ⟨hmem, hmatches⟩ := hrevision.mp hr
    have hkey := hproper.iff_matches.mpr hmatches
    obtain ⟨⟨k, hk, hksame⟩, g, hg, hgsame⟩ := (hasRevisionFileSeal_ok hproper).mp hmarks
    have hrows := forall₂_of_take (hfiles.mp ⟨stored, hstored, hbuilt, hmetadata⟩)
    rw [storedFiles_congr hkey.symm] at hrows
    exact ⟨r, hmem, hkey, ⟨d, (hfileSet.mp hd).1, (hfileSet.mp hd).2, hcounts, hformat⟩,
      ⟨k, hk, hksame.trans hkey.symm⟩, ⟨g, hg, hgsame.trans hkey.symm⟩, hrows⟩
  · rintro ⟨r, hmem, hkey, ⟨d, hd, hjoins, hcounts, hformat⟩, ⟨k, hk, hksame⟩, ⟨g, hg, hgsame⟩,
      hrows⟩
    have hmarks := (hasRevisionFileSeal_ok hproper).mpr
      ⟨⟨k, hk, hksame.trans hkey⟩, g, hg, hgsame.trans hkey⟩
    rw [storedFiles_congr hkey, ← take_of_forall₂ hrows] at hrows
    obtain ⟨stored, hstored, hbuilt, hmetadata⟩ := hfiles.mpr hrows
    exact ⟨_, ⟨r, hrevision.mpr ⟨hmem, hproper.iff_matches.mp hkey⟩, d, hfileSet.mpr ⟨hd, hjoins⟩, rfl⟩, true, hmarks, rfl,
      stored, hstored, m, hbuilt, hcounts, hmetadata, hformat, rfl⟩

end RawTables

end

end PatchouliLib
