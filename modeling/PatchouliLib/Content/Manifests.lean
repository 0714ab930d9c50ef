import PatchouliLib.Content.FileManifest
import PatchouliLib.Foundation.Framing
import PatchouliLib.Foundation.Sha256
import PatchouliLib.Foundation.Unordered

/-!
# The canonical manifest

The loop over the given files checks as it goes along: the count, the names seen so
far and the size reached so far.  All in all it checks every file for itself and the
whole as a set, so the manifest is the sorted list of the entries of the files, and
the order in which they came is forgotten.

## Main definitions

* `manifestEntry` — the entry of one given file.
* `snapshotSource` — the bytes that the snapshot digest covers.
* `normalizedFile` — a given file under its normalized name.

## Main results

* `buildFileManifest_ok` — **the manifest of a list of files is the sorted list of
  their entries.**
* `buildFileManifest_perm` — **the order of the files does not matter.**
* `buildFileManifest_named` — **a manifest that keeps the given names keeps the files.**
* `files_eq_of_snapshotSource` — what is digested tells the files.
* `buildFileManifest_canonical` — **the manifest is the canonical form of a list of
  files, and its digest identifies it.**
-/

namespace PatchouliLib

open Foundation

section

variable [Platform]

/-! ### Entries -/

theorem normalizeFileName_ok {value name : Text} : normalizeFileName value = .ok name ↔
    value.length ≤ maxRawFilenameChars ∧ isSafeFileName (nfc value) = true ∧ nfc value = name := by
  unfold normalizeFileName
  split
  · next hlong => simp [show ¬value.length ≤ maxRawFilenameChars by omega]
  · next hle =>
    split
    · next hsafe => simp [hsafe, show value.length ≤ maxRawFilenameChars by omega]
    · next hbad => simp [hbad]

theorem normalizeFileName_raises (value : Text) :
    Fallible.RaisesOnly .validation (normalizeFileName value) := by
  intro e h
  unfold normalizeFileName at h
  split at h
  · exact (Except.error.inj h).symm
  · split at h
    · cases h
    · exact (Except.error.inj h).symm

/-- The encoded name of a safe file is short. -/
theorem length_of_normalizeFileName {value name : Text} (h : normalizeFileName value = .ok name) :
    (utf8Encode name).length ≤ maxFilenameBytes := by
  obtain ⟨-, hsafe, rfl⟩ := normalizeFileName_ok.mp h
  simp only [isSafeFileName, Bool.and_eq_true, decide_eq_true_eq] at hsafe
  exact hsafe.2

/-- The entry of one given file. -/
def manifestEntry (item : Text × Bytes) : Except Err ManifestFile := do
  let name ← normalizeFileName item.1
  pure ⟨name, item.2, item.2.length, sha256 item.2⟩

theorem manifestEntry_ok {item : Text × Bytes} {entry : ManifestFile} :
    manifestEntry item = .ok entry ↔ ∃ name, normalizeFileName item.1 = .ok name ∧
      ⟨name, item.2, item.2.length, sha256 item.2⟩ = entry := by
  simp only [manifestEntry, Fallible.bind_ok, Fallible.pure_ok]

/-! ### The loop over the files -/

theorem manifestStep_ok {s t : ManifestLoop} {item : Text × Bytes} :
    manifestStep s item = .ok t ↔ s.entries.length < maxFilesPerPage ∧
      ∃ entry, manifestEntry item = .ok entry ∧ collisionKey entry.name ∉ s.seenNames ∧
        entry.contentSizeBytes ≤ maxFileBytes ∧
        s.totalSize + entry.contentSizeBytes ≤ maxPageBytes ∧
        ⟨s.entries ++ [entry], collisionKey entry.name :: s.seenNames,
          s.totalSize + entry.contentSizeBytes⟩ = t := by
  obtain ⟨rawName, content⟩ := item
  simp only [manifestStep, manifestEntry, Fallible.bind_ok, Fallible.check_ok, Fallible.pure_ok,
    exists_and_left, exists_const, and_assoc]
  constructor
  · rintro ⟨hcount, name, hname, hnew, hsize, htotal, ht⟩
    exact ⟨hcount, _, ⟨name, hname, rfl⟩, hnew, hsize, htotal, ht⟩
  · rintro ⟨hcount, entry, ⟨name, hname, rfl⟩, hnew, hsize, htotal, ht⟩
    exact ⟨hcount, name, hname, hnew, hsize, htotal, ht⟩

/-- **The checks of the loop, all in all.**  The loop collects the entries of the files
when they are few, new, and small enough together. -/
theorem foldlM_manifestStep_ok {files : List (Text × Bytes)} {s t : ManifestLoop}
    (hcount : s.entries.length ≤ maxFilesPerPage) (htotal : s.totalSize ≤ maxPageBytes) :
    files.foldlM manifestStep s = .ok t ↔ ∃ entries, files.mapM manifestEntry = .ok entries ∧
      s.entries.length + entries.length ≤ maxFilesPerPage ∧
      (entries.map (collisionKey ·.name)).Nodup ∧
      (∀ entry ∈ entries, collisionKey entry.name ∉ s.seenNames) ∧
      (∀ entry ∈ entries, entry.contentSizeBytes ≤ maxFileBytes) ∧
      s.totalSize + totalSize entries ≤ maxPageBytes ∧
      ⟨s.entries ++ entries, (entries.map (collisionKey ·.name)).reverse ++ s.seenNames,
        s.totalSize + totalSize entries⟩ = t := by
  induction files generalizing s with
  | nil =>
    rw [List.foldlM_nil, List.mapM_nil, Fallible.pure_ok]
    constructor
    · rintro rfl
      refine ⟨[], rfl, hcount, List.nodup_nil, by simp, by simp, htotal, ?_⟩
      simp [totalSize]
    · rintro ⟨entries, hentries, -, -, -, -, -, ht⟩
      rw [← Fallible.pure_ok.mp hentries] at ht
      rw [← ht]
      simp [totalSize]
  | cons item files ih =>
    have hsum (entry : ManifestFile) (rest : List ManifestFile) :
        totalSize (entry :: rest) = entry.contentSizeBytes + totalSize rest := by
      simp [totalSize]
    rw [List.foldlM_cons, Fallible.bind_ok]
    constructor
    · rintro ⟨u, hstep, hrest⟩
      obtain ⟨hroom, entry, hentry, hnew, hsize, hsmall, rfl⟩ := manifestStep_ok.mp hstep
      have hlength : (s.entries ++ [entry]).length ≤ maxFilesPerPage := by
        rw [List.length_append, List.length_singleton]
        exact hroom
      obtain ⟨rest, hentries, hcount', hnodup, hseen, hsizes, hbound, rfl⟩ :=
        (ih hlength hsmall).mp hrest
      rw [List.length_append, List.length_singleton] at hcount'
      have hother : collisionKey entry.name ∉ rest.map (collisionKey ·.name) := by
        intro hmem
        obtain ⟨e, he, hkey⟩ := List.mem_map.mp hmem
        exact hseen e he (hkey ▸ List.mem_cons_self)
      refine ⟨entry :: rest, Fallible.mapM_cons_ok.mpr ⟨entry, rest, hentry, hentries, rfl⟩, ?_,
        List.nodup_cons.mpr ⟨hother, hnodup⟩, ?_, ?_, ?_, ?_⟩
      · rw [List.length_cons]
        omega
      · rintro e he
        rcases List.mem_cons.mp he with rfl | he
        · exact hnew
        · exact fun hmem => hseen e he (List.mem_cons_of_mem _ hmem)
      · rintro e he
        rcases List.mem_cons.mp he with rfl | he
        · exact hsize
        · exact hsizes e he
      · rw [hsum]
        dsimp only at hbound
        omega
      · rw [hsum, List.map_cons, List.reverse_cons]
        simp [Nat.add_assoc]
    · rintro ⟨all, hall, hcount', hnodup, hseen, hsizes, hbound, rfl⟩
      obtain ⟨entry, rest, hentry, hentries, rfl⟩ := Fallible.mapM_cons_ok.mp hall
      obtain ⟨hother, hnodup'⟩ := List.nodup_cons.mp hnodup
      rw [List.length_cons] at hcount'
      rw [hsum] at hbound
      have hroom : s.entries.length < maxFilesPerPage := by omega
      have hsmall : s.totalSize + entry.contentSizeBytes ≤ maxPageBytes := by omega
      have hlength : (s.entries ++ [entry]).length ≤ maxFilesPerPage := by
        rw [List.length_append, List.length_singleton]
        exact hroom
      refine ⟨_, manifestStep_ok.mpr ⟨hroom, entry, hentry, hseen entry List.mem_cons_self,
        hsizes entry List.mem_cons_self, hsmall, rfl⟩, (ih hlength hsmall).mpr ?_⟩
      refine ⟨rest, hentries, ?_, hnodup', ?_, fun e he => hsizes e (List.mem_cons_of_mem _ he), ?_,
        ?_⟩
      · rw [List.length_append, List.length_singleton]
        omega
      · intro e he hmem
        rcases List.mem_cons.mp hmem with hsame | hmem
        · exact hother (List.mem_map.mpr ⟨e, he, hsame⟩)
        · exact hseen e (List.mem_cons_of_mem _ he) hmem
      · dsimp only
        omega
      · rw [hsum, List.map_cons, List.reverse_cons]
        simp [Nat.add_assoc]

theorem manifestEntry_raises (item : Text × Bytes) :
    Fallible.RaisesOnly .validation (manifestEntry item) :=
  .bind (normalizeFileName_raises item.1) fun _ => .ok _

theorem ofParts_raises (files : List ManifestFile) (totalSizeBytes : ℕ) (snapshotSha256 : Bytes) :
    Fallible.RaisesOnly .validation
      (FileManifest.ofParts files totalSizeBytes snapshotSha256) := by
  intro e h
  unfold FileManifest.ofParts at h
  split at h
  · cases h
  · exact (Except.error.inj h).symm

theorem buildFileManifest_raises (files : List (Text × Bytes)) :
    Fallible.RaisesOnly .validation (buildFileManifest files) := by
  have hstep (s : ManifestLoop) (item : Text × Bytes) :
      Fallible.RaisesOnly .validation (manifestStep s item) :=
    .bind (.check _) fun _ => .bind (normalizeFileName_raises _) fun _ =>
      .bind (.check _) fun _ => .bind (.check _) fun _ => .ok _
  refine .bind (.foldlM hstep files {}) fun s => .bind (.check _) fun _ => ?_
  exact ofParts_raises _ _ _

/-! ### The manifest of a list of files -/

omit [Platform] in
theorem totalSize_perm {entries entries' : List ManifestFile} (h : entries.Perm entries') :
    totalSize entries = totalSize entries' :=
  (h.map _).sum_eq

/-- **The manifest of a list of files is the sorted list of their entries.** -/
theorem buildFileManifest_ok {files : List (Text × Bytes)} {m : FileManifest} :
    buildFileManifest files = .ok m ↔ ∃ entries, files.mapM manifestEntry = .ok entries ∧
      m.files = entries.insertionSort nameLe := by
  have hloop {t : ManifestLoop} :=
    @foldlM_manifestStep_ok _ files {} t (Nat.zero_le _) (Nat.zero_le _)
  simp only [buildFileManifest, Fallible.bind_ok, Fallible.check_ok, exists_and_left, exists_const]
  constructor
  · rintro ⟨t, ht, hne, hparts⟩
    obtain ⟨entries, hentries, -, -, -, -, -, rfl⟩ := hloop.mp ht
    refine ⟨entries, hentries, ?_⟩
    unfold FileManifest.ofParts at hparts
    split at hparts
    · rw [← Except.ok.inj hparts]
      rfl
    · cases hparts
  · rintro ⟨entries, hentries, hfiles⟩
    have hperm : m.files.Perm entries := by
      rw [hfiles]
      exact List.perm_insertionSort _ _
    have hvalid := m.valid
    have htotal : totalSize m.files = totalSize entries := totalSize_perm hperm
    have hne : entries ≠ [] := by
      rintro rfl
      have hcount := hvalid.count.1
      rw [hperm.length_eq, List.length_nil] at hcount
      exact absurd hcount (by decide)
    refine ⟨_, hloop.mpr ⟨entries, hentries, ?_, ?_, ?_, ?_, ?_, rfl⟩, ?_, ?_⟩
    · rw [List.length_nil, Nat.zero_add, ← hperm.length_eq]
      exact hvalid.count.2
    · exact (hperm.map _).nodup_iff.mp hvalid.distinct
    · exact fun _ _ => List.not_mem_nil
    · intro entry hentry
      obtain ⟨-, hlarge, hsize, -⟩ := hvalid.entries entry (hperm.mem_iff.mpr hentry)
      rw [hsize]
      exact hlarge
    · rw [Nat.zero_add, ← htotal]
      exact hvalid.bounded
    · rwa [List.nil_append]
    · have hparts : FileManifest.Valid (entries.insertionSort nameLe) (0 + totalSize entries)
          (snapshotDigest (entries.insertionSort nameLe)) := by
        rw [← hfiles, Nat.zero_add, ← htotal, ← hvalid.total, ← hvalid.digest]
        exact hvalid
      rw [List.nil_append, FileManifest.ofParts, dif_pos hparts]
      exact congrArg Except.ok (FileManifest.ext_of_files hfiles.symm)

/-! ### Rearranged files -/

instance : Std.Total nameLe :=
  ⟨fun a b => List.le_total (utf8Encode a.name) (utf8Encode b.name)⟩

instance : IsTrans ManifestFile nameLe := ⟨fun _ _ _ hab hbc => List.le_trans hab hbc⟩

/-- In a set of files with distinct keys the name tells the file. -/
theorem nameLe_antisymm {entries : List ManifestFile}
    (hdistinct : (entries.map (collisionKey ·.name)).Nodup) {a b : ManifestFile}
    (ha : a ∈ entries) (hb : b ∈ entries) (hab : nameLe a b) (hba : nameLe b a) : a = b := by
  have hname : a.name = b.name := utf8Encode_injective (List.le_antisymm hab hba)
  exact List.inj_on_of_nodup_map hdistinct ha hb (congrArg collisionKey hname)

/-- A manifest of the files is one of the rearranged files. -/
theorem buildFileManifest_of_perm {files files' : List (Text × Bytes)} (hperm : files.Perm files')
    {m : FileManifest} (h : buildFileManifest files = .ok m) :
    buildFileManifest files' = .ok m := by
  obtain ⟨entries, hentries, hfiles⟩ := buildFileManifest_ok.mp h
  obtain ⟨entries', hentries', hperm'⟩ := Fallible.mapM_perm hperm hentries
  refine buildFileManifest_ok.mpr ⟨entries', hentries', ?_⟩
  have hdistinct : (entries.map (collisionKey ·.name)).Nodup := by
    refine ((List.perm_insertionSort nameLe entries).map _).nodup_iff.mp ?_
    rw [← hfiles]
    exact m.valid.distinct
  rw [hfiles]
  exact insertionSort_eq_of_perm_of_antisymm hperm' fun a ha b hb =>
    nameLe_antisymm hdistinct ha hb

/-- **The order of the files does not matter.** -/
theorem buildFileManifest_perm {files files' : List (Text × Bytes)} (hperm : files.Perm files') :
    buildFileManifest files = buildFileManifest files' :=
  Fallible.eq_of_ok_iff (buildFileManifest_raises files) (buildFileManifest_raises files') fun _ =>
    ⟨buildFileManifest_of_perm hperm, buildFileManifest_of_perm hperm.symm⟩

/-- Few, distinct and small files have a manifest. -/
theorem exists_buildFileManifest {files : List (Text × Bytes)} {entries : List ManifestFile}
    (hentries : files.mapM manifestEntry = .ok entries)
    (hvalid : ∀ entry ∈ entries, entry.Valid)
    (hcount : 1 ≤ entries.length ∧ entries.length ≤ maxFilesPerPage)
    (hdistinct : (entries.map (collisionKey ·.name)).Nodup)
    (hbound : totalSize entries ≤ maxPageBytes) :
    ∃ m, buildFileManifest files = .ok m ∧ m.files = entries.insertionSort nameLe := by
  have hperm := List.perm_insertionSort nameLe entries
  have hparts : FileManifest.Valid (entries.insertionSort nameLe) (totalSize entries)
      (snapshotDigest (entries.insertionSort nameLe)) :=
    { count := by rwa [hperm.length_eq]
      entries := fun entry hentry => hvalid entry (hperm.mem_iff.mp hentry)
      sorted := (List.pairwise_insertionSort nameLe entries).insertionSort_eq
      distinct := (hperm.map _).nodup_iff.mpr hdistinct
      bounded := by rwa [totalSize_perm hperm]
      total := (totalSize_perm hperm).symm
      digest := rfl }
  exact ⟨⟨_, _, _, hparts⟩, buildFileManifest_ok.mpr ⟨entries, hentries, rfl⟩, rfl⟩

/-! ### The manifest of a manifest -/

/-- The entry of a file of a manifest is this file. -/
theorem manifestEntry_of_valid {entry : ManifestFile} (h : entry.Valid) :
    manifestEntry (entry.name, entry.content) = .ok entry := by
  obtain ⟨name, content, size, digest⟩ := entry
  obtain ⟨hname, -, hsize, hdigest⟩ := h
  dsimp only at hname hsize hdigest
  subst hsize hdigest
  exact manifestEntry_ok.mpr ⟨name, hname, rfl⟩

/-- **The manifest of the files of a manifest is this manifest.** -/
theorem buildFileManifest_files (m : FileManifest) :
    buildFileManifest (m.files.map fun entry => (entry.name, entry.content)) = .ok m := by
  refine buildFileManifest_ok.mpr ⟨m.files, ?_, m.valid.sorted.symm⟩
  have hentries := Fallible.mapM_map_ok (f := manifestEntry) (h := id)
    fun entry hentry => manifestEntry_of_valid (m.valid.entries entry hentry)
  rwa [List.map_id] at hentries

/-- **A manifest that keeps the given names keeps the given files**, in their order. -/
theorem buildFileManifest_named {files : List (Text × Bytes)} {m : FileManifest} :
    buildFileManifest files = .ok m ∧ m.files.map (·.name) = files.map Prod.fst ↔
      m.files.map (fun entry => (entry.name, entry.content)) = files := by
  constructor
  · rintro ⟨h, hnames⟩
    obtain ⟨entries, hentries, hfiles⟩ := buildFileManifest_ok.mp h
    -- every given name is the name of an entry, hence in normal form already
    have hnormal : ∀ item ∈ files, normalizeFileName item.1 = .ok item.1 := by
      intro item hitem
      have hname : item.1 ∈ m.files.map (·.name) := hnames ▸ List.mem_map_of_mem hitem
      obtain ⟨entry, hentry, hsame⟩ := List.mem_map.mp hname
      rw [← hsame]
      exact (m.valid.entries entry hentry).1
    have hkept : files.map id = entries.map fun entry => (entry.name, entry.content) := by
      refine Fallible.map_eq_map_of_mapM (fun item hitem entry hentry => ?_) hentries
      obtain ⟨name, hname, rfl⟩ := manifestEntry_ok.mp hentry
      rw [hnormal item hitem] at hname
      rw [← Except.ok.inj hname, id]
    rw [List.map_id] at hkept
    have hsame : entries.map (·.name) = m.files.map (·.name) := by
      rw [hnames, hkept, List.map_map]
      rfl
    have hsorted : entries.Pairwise nameLe := by
      have hpairwise : m.files.Pairwise nameLe := by
        rw [hfiles]
        exact List.pairwise_insertionSort nameLe entries
      have hencoded : (m.files.map (·.name)).Pairwise fun a b => utf8Encode a ≤ utf8Encode b :=
        List.pairwise_map.mpr hpairwise
      rw [← hsame, List.pairwise_map] at hencoded
      exact hencoded
    rw [hfiles, hsorted.insertionSort_eq, hkept]
  · rintro rfl
    refine ⟨buildFileManifest_files m, ?_⟩
    rw [List.map_map]
    rfl

/-! ### The digest -/

omit [Platform] in
/-- The bytes that the snapshot digest covers. -/
def snapshotSource (files : List ManifestFile) : Bytes :=
  snapshotDomain ++ bigEndian 8 files.length ++ files.flatMap fileFrame

theorem snapshotDigest_eq_source (files : List ManifestFile) :
    snapshotDigest files = sha256 (snapshotSource files) := rfl

/-- Every frame tells where it ends, and with the digest its file. -/
theorem selfDelimiting_fileFrame (hdigest : ∀ content, (sha256 content).length = 32)
    {contents : Set Bytes} (hinj : Set.InjOn sha256 contents) :
    SelfDelimiting (fun entry => entry.Valid ∧ entry.content ∈ contents) fileFrame := by
  rintro ⟨name, content, size, digest⟩ ⟨name', content', size', digest'⟩ r r'
    ⟨⟨hname, hlarge, hsize, hsha⟩, hmem⟩ ⟨⟨hname', hlarge', hsize', hsha'⟩, hmem'⟩ h
  dsimp only at hname hlarge hsize hsha hmem hname' hlarge' hsize' hsha' hmem'
  subst hsize hsha hsize' hsha'
  have hshort := length_of_normalizeFileName hname
  have hshort' := length_of_normalizeFileName hname'
  simp only [maxFilenameBytes, maxFileBytes] at hshort hshort' hlarge hlarge'
  simp only [fileFrame, List.append_assoc] at h
  obtain ⟨hlength, hafterLength⟩ := append_inj_of_length h (by simp)
  obtain ⟨hbytes, hafterName⟩ :=
    append_inj_of_length hafterLength (bigEndian_inj (by omega) (by omega) hlength)
  obtain ⟨-, hafterSize⟩ := append_inj_of_length hafterName (by simp)
  obtain ⟨hdigests, hrest⟩ := append_inj_of_length hafterSize (by rw [hdigest, hdigest])
  obtain rfl := utf8Encode_injective hbytes
  obtain rfl := hinj hmem hmem' hdigests
  exact ⟨rfl, hrest⟩

omit [Platform] in
/-- The contents of these files. -/
def contentsOf (files : List ManifestFile) : Set Bytes := {c | ∃ entry ∈ files, entry.content = c}

/-- **What is digested tells the files.** -/
theorem files_eq_of_snapshotSource (hdigest : ∀ content, (sha256 content).length = 32)
    {m m' : FileManifest} (hinj : Set.InjOn sha256 (contentsOf (m.files ++ m'.files)))
    (h : snapshotSource m.files = snapshotSource m'.files) : m.files = m'.files := by
  rw [snapshotSource, snapshotSource, List.append_assoc, List.append_assoc] at h
  have hcounted := List.append_cancel_left h
  obtain ⟨-, hframes⟩ := append_inj_of_length hcounted (by simp)
  refine (selfDelimiting_fileFrame hdigest hinj).flatMap_inj (fun entry _ hnil => ?_) ?_ ?_ hframes
  · have hlength := congrArg List.length hnil
    simp [fileFrame] at hlength
  · intro entry hentry
    exact ⟨m.valid.entries entry hentry, entry, List.mem_append_left _ hentry, rfl⟩
  · intro entry hentry
    exact ⟨m'.valid.entries entry hentry, entry, List.mem_append_right _ hentry, rfl⟩

/-- Two manifests with one digest are one manifest. -/
theorem eq_of_snapshotSha256 (hdigest : ∀ content, (sha256 content).length = 32)
    {m m' : FileManifest} (hcontents : Set.InjOn sha256 (contentsOf (m.files ++ m'.files)))
    (hsources : Set.InjOn sha256 {snapshotSource m.files, snapshotSource m'.files})
    (h : m.snapshotSha256 = m'.snapshotSha256) : m = m' := by
  rw [m.valid.digest, m'.valid.digest, snapshotDigest_eq_source, snapshotDigest_eq_source] at h
  have hsource := hsources (Set.mem_insert _ _) (Set.mem_insert_of_mem _ rfl) h
  exact FileManifest.ext_of_files (files_eq_of_snapshotSource hdigest hcontents hsource)

/-! ### The canonical form -/

/-- A given file under its normalized name. -/
def normalizedFile (item : Text × Bytes) : Except Err Text × Bytes :=
  (normalizeFileName item.1, item.2)

/-- A manifest holds the given files under their normalized names. -/
theorem normalizedFiles_perm {files : List (Text × Bytes)} {m : FileManifest}
    (h : buildFileManifest files = .ok m) : (files.map normalizedFile).Perm
      (m.files.map fun entry => (.ok entry.name, entry.content)) := by
  obtain ⟨entries, hentries, hfiles⟩ := buildFileManifest_ok.mp h
  have hmap : files.map normalizedFile = entries.map fun entry => (.ok entry.name, entry.content) := by
    refine Fallible.map_eq_map_of_mapM (fun item _ entry hentry => ?_) hentries
    obtain ⟨name, hname, rfl⟩ := manifestEntry_ok.mp hentry
    rw [normalizedFile, hname]
  rw [hmap, hfiles]
  exact (List.perm_insertionSort nameLe entries).symm.map _

/-- **The manifest is the canonical form of a list of files, and its digest identifies
it**: the order of the files does not matter, a manifest is built again from its own
files, and two lists with one digest hold the same contents under the same names. -/
theorem buildFileManifest_canonical :
    (∀ files files' : List (Text × Bytes), files.Perm files' →
      buildFileManifest files = buildFileManifest files') ∧
    (∀ (files : List (Text × Bytes)) (m : FileManifest), buildFileManifest files = .ok m →
      buildFileManifest (m.files.map fun entry => (entry.name, entry.content)) = .ok m) ∧
    (∀ (files files' : List (Text × Bytes)) (m m' : FileManifest),
      (∀ content, (sha256 content).length = 32) →
      Set.InjOn sha256 (contentsOf (m.files ++ m'.files)) →
      Set.InjOn sha256 {snapshotSource m.files, snapshotSource m'.files} →
      buildFileManifest files = .ok m → buildFileManifest files' = .ok m' →
      m.snapshotSha256 = m'.snapshotSha256 →
      (files.map normalizedFile).Perm (files'.map normalizedFile)) := by
  refine ⟨fun _ _ => buildFileManifest_perm, fun _ m _ => buildFileManifest_files m, ?_⟩
  intro files files' m m' hdigest hcontents hsources hfiles hfiles' hsha
  obtain rfl := eq_of_snapshotSha256 hdigest hcontents hsources hsha
  exact (normalizedFiles_perm hfiles).trans (normalizedFiles_perm hfiles').symm

end

section Sample

attribute [local instance] shaPlatform

/-- One short note. -/
def sampleNote : FileManifest where
  files := [⟨"a.md", [65], 1, sha256 [65]⟩]
  totalSizeBytes := 1
  snapshotSha256 := snapshotDigest [⟨"a.md", [65], 1, sha256 [65]⟩]
  valid := by decide +kernel

def sampleNoteFiles : List (Text × Bytes) := [("a.md", [65])]

/-- Two files come in two orders, and a note is known by its digest. -/
theorem buildFileManifest_canonical_sample :
    buildFileManifest [("b.bin", [0]), ("a.md", [65])] =
        buildFileManifest [("a.md", [65]), ("b.bin", [0])] ∧
      buildFileManifest (sampleNote.files.map fun entry => (entry.name, entry.content)) =
        .ok sampleNote ∧
      (sampleNoteFiles.map normalizedFile).Perm (sampleNoteFiles.map normalizedFile) := by
  have hbuilt : buildFileManifest sampleNoteFiles = .ok sampleNote :=
    buildFileManifest_files sampleNote
  have hcanonical := buildFileManifest_canonical
  refine ⟨hcanonical.1 _ _ (.swap _ _ _), hcanonical.2.1 _ _ hbuilt, ?_⟩
  refine hcanonical.2.2 _ _ sampleNote sampleNote Sha256.length_digest ?_ ?_ hbuilt hbuilt rfl
  · have hcontents : contentsOf (sampleNote.files ++ sampleNote.files) ⊆ {[65]} := by
      rintro c ⟨entry, hentry, rfl⟩
      have hentry : entry = ⟨"a.md", [65], 1, sha256 [65]⟩ := by
        simpa only [sampleNote, List.mem_append, List.mem_singleton, or_self] using hentry
      rw [hentry]
      exact Set.mem_singleton _
    exact (Set.injOn_singleton _ _).mono hcontents
  · rw [Set.pair_eq_singleton]
    exact Set.injOn_singleton _ _

end Sample

end PatchouliLib
