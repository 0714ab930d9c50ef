import PatchouliLib.Client.Models
import PatchouliLib.Content.Manifests
import PatchouliLib.Retrieval.FileSetRead

/-!
# The two packages agree on file sets

The file name rules, the order of a manifest and the input of its snapshot digest
are written out once in the server and once in the client.

## Main definitions

* `Client.FileSetFileSummary.ofManifestFile` — what a listing says about a file.

## Main results

* `Client.requireFileSetName_iff` — **both accept the same names.**
* `Client.fromDict_modelDump` — the client accepts the listing of a manifest.
* `Client.files_eq_of_fromDict` — what the client accepts under the digest of a
  manifest is the list of its files.
-/

namespace PatchouliLib.Client

open Foundation

section

variable [Platform]

/-! ### File names -/

omit [Platform] in
theorem isReservedStem_eq (stem : Text) : isReservedStem stem = isReservedName stem := by
  have hlead : windowsDevicePrefixes.contains (stem.take 3) =
      (decide (stem.take 3 = "COM") || decide (stem.take 3 = "LPT")) := by
    rw [windowsDevicePrefixes, List.contains_cons, List.contains_cons, List.contains_nil,
      Bool.or_false, beq_eq_decide, beq_eq_decide]
  unfold isReservedStem isReservedName
  rw [hlead, beq_eq_decide]
  rfl

theorem isSafeFileName_eq (name : Text) : isSafeFileName name =
    (!isUnsafeName name && !isReservedName (Platform.upper (name.takeWhile (· ≠ '.')))) := by
  unfold isSafeFileName isUnsafeName
  rw [isReservedStem_eq, show windowsForbidden = fileNameForbidden from rfl,
    show maxFilenameBytes = 255 from rfl]
  simp only [beq_eq_decide]
  generalize isReservedName (Platform.upper (name.takeWhile (· ≠ '.'))) = reserved
  generalize name.any fileNameForbidden.contains = forbidden
  generalize name.any Platform.isControlOrFormat = control
  generalize (name.splitOn '.').any _ = edge
  generalize (utf8Encode name).length = bytes
  rw [Bool.eq_iff_iff]
  cases reserved <;> cases forbidden <;> cases control <;> cases edge <;> simp [and_assoc]

theorem requireFileSetName_ok {value name : Text} : requireFileSetName value = .ok name ↔
    value.length ≤ 512 ∧ isUnsafeName (nfc value) = false ∧
      isReservedName (Platform.upper ((nfc value).takeWhile (· ≠ '.'))) = false ∧
      nfc value = name := by
  simp only [requireFileSetName, Fallible.bind_ok, Fallible.check_ok, Fallible.pure_ok,
    exists_and_left, exists_const]

/-- **Both packages accept the same names, and return the same form of them.** -/
theorem requireFileSetName_iff {value name : Text} :
    requireFileSetName value = .ok name ↔ normalizeFileName value = .ok name := by
  rw [requireFileSetName_ok, normalizeFileName_ok, isSafeFileName_eq, Bool.and_eq_true,
    Bool.not_eq_true', Bool.not_eq_true', and_assoc]
  rfl

/-! ### Listings -/

/-- What a listing says about a file. -/
def FileSetFileSummary.ofManifestFile (entry : ManifestFile) : FileSetFileSummary :=
  ⟨entry.name, entry.contentSizeBytes, hex entry.contentSha256⟩

omit [Platform] in
theorem sha256Text_ok {value digest : Text} :
    sha256Text value = .ok digest ↔ IsSha256Text value ∧ value = digest := by
  simp only [sha256Text, Fallible.bind_ok, Fallible.check_ok, Fallible.pure_ok, exists_and_left,
    exists_const]
  rfl

theorem fromDict_modelDump_file {f : FileSummary} (h : f.Checks) (hsize : f.sizeBytes ≤ maxFileBytes) :
    FileSetFileSummary.fromDict f.modelDump = .ok ⟨f.filename, f.sizeBytes, f.contentSha256⟩ := by
  obtain ⟨-, -, hname, hdigest⟩ := h
  have hexact : HasExactly f.modelDump ["filename", "size_bytes", "content_sha256"] := by
    constructor
    · simp [FileSummary.modelDump]
    · simp [FileSummary.modelDump]
  have hfilename : stringField f.modelDump "filename" = .ok f.filename := rfl
  have hsizeBytes : integerField f.modelDump "size_bytes" = .ok (f.sizeBytes : ℤ) := rfl
  have hcontent : stringField f.modelDump "content_sha256" = .ok f.contentSha256 := rfl
  have hbound : (0 : ℤ) ≤ f.sizeBytes ∧ (f.sizeBytes : ℤ) ≤ maxFileSetFileBytes := by
    have hle : f.sizeBytes ≤ maxFileSetFileBytes := hsize
    omega
  simp only [FileSetFileSummary.fromDict, Fallible.check_of hexact, hfilename,
    requireFileSetName_iff.mpr hname, Fallible.ok_bind, Except.mapError, Fallible.check_of,
    hsizeBytes, Fallible.check_of hbound, hcontent, sha256Text_ok.mpr ⟨hdigest, rfl⟩]
  rfl

/-- The fields of a listing that passed its checks. -/
theorem fromDict_modelDump {view : FileSetRevisionManifestView} (h : view.Checks)
    (hsizes : ∀ f ∈ view.files, f.sizeBytes ≤ maxFileBytes)
    (hordered : CanonicallyOrdered (view.files.map (·.filename)))
    (htotal : (view.files.map (·.sizeBytes)).sum ≤ maxFileSetPageBytes)
    (hdigest : hex (sha256 (snapshotInput (view.files.map fun f =>
      ⟨f.filename, f.sizeBytes, f.contentSha256⟩))) = view.snapshotSha256)
    (hprimary : ∀ primary ∈ view.primaryFile, primary ∈ view.files.map (·.filename))
    (htitle : view.displayTitle ≠ [] ∧ nul ∉ view.displayTitle) :
    FileSetManifest.fromDict view.modelDump = .ok
      { pageId := view.pageId
        revisionId := view.revisionId
        revisionNumber := view.revisionNumber
        snapshotSha256 := view.snapshotSha256
        files := view.files.map fun f => ⟨f.filename, f.sizeBytes, f.contentSha256⟩
        primaryFile := view.primaryFile
        displayTitle := some view.displayTitle } := by
  have hkeys : (∀ key ∈ requiredFields, key ∈ view.modelDump.map Prod.fst) ∧
      ∀ field ∈ view.modelDump, field.1 ∈ requiredFields ++ optionalFields := by
    constructor
    · simp [requiredFields, FileSetRevisionManifestView.modelDump]
    · simp [requiredFields, optionalFields, FileSetRevisionManifestView.modelDump]
  have hpage : stringField view.modelDump "page_id" = .ok view.pageId := rfl
  have hrevision : stringField view.modelDump "revision_id" = .ok view.revisionId := rfl
  have hnumber : integerField view.modelDump "revision_number" = .ok (view.revisionNumber : ℤ) := rfl
  have hsnapshot : stringField view.modelDump "snapshot_sha256" = .ok view.snapshotSha256 := rfl
  have hitems : objectList view.modelDump "files" =
      .ok (view.files.map fun f => Json.obj f.modelDump) := rfl
  have hfiles : (view.files.map fun f => Json.obj f.modelDump).mapM
      (fun item => do FileSetFileSummary.fromDict (← requireObject item)) =
      .ok (view.files.map fun f => ⟨f.filename, f.sizeBytes, f.contentSha256⟩) :=
    Fallible.mapM_map_ok fun f hf => fromDict_modelDump_file (h.files f hf) (hsizes f hf)
  have hpageId : view.pageId ≠ [] := by
    intro hnil
    have hlength := h.pageId.1
    rw [hnil, List.length_nil] at hlength
    omega
  have hrevisionId : view.revisionId ≠ [] := by
    intro hnil
    have hlength := h.revisionId.2.1
    rw [hnil, List.length_nil] at hlength
    omega
  have hcount : view.pageId ≠ [] ∧ view.revisionId ≠ [] ∧ (1 : ℤ) ≤ view.revisionNumber ∧
      1 ≤ view.files.length ∧ view.files.length ≤ maxFileSetFiles := by
    have hone := h.revisionNumber.1
    exact ⟨hpageId, hrevisionId, by omega, h.count⟩
  have hprimaryField : primaryField view.modelDump (view.files.map (·.filename)) =
      .ok view.primaryFile := by
    unfold primaryField
    have hlookup : view.modelDump.lookup ("primary_file" : Text) =
      some (.ofOption .str view.primaryFile) := rfl
    rw [hlookup]
    cases hp : view.primaryFile with
    | none => rfl
    | some primary => exact if_pos (hprimary primary hp)
  have htitleField : titleField view.modelDump = .ok (some view.displayTitle) := by
    unfold titleField
    have hlookup : view.modelDump.lookup ("display_title" : Text) = some (.str view.displayTitle) := rfl
    rw [hlookup]
    exact if_pos htitle
  simp only [FileSetManifest.fromDict, Fallible.check_of hkeys, hpage, hrevision, hnumber, hitems,
    Fallible.ok_bind, hfiles, List.length_map, Fallible.check_of hcount, List.map_map,
    Function.comp_def, Fallible.check_of hordered, Fallible.check_of htotal, hsnapshot,
    sha256Text_ok.mpr ⟨h.snapshotSha256, rfl⟩, Fallible.check_of hdigest, hprimaryField, htitleField]
  rfl

/-! ### The listing of a manifest -/

/-- What the client digests of a listing is what the server digested. -/
theorem snapshotDigest_eq (files : List ManifestFile) :
    snapshotDigest files = sha256 (snapshotInput (files.map .ofManifestFile)) := by
  have hframes : files.flatMap fileFrame =
      (files.map FileSetFileSummary.ofManifestFile).flatMap summaryFrame := by
    rw [List.flatMap_map]
    refine List.flatMap_congr fun entry _ => ?_
    rw [summaryFrame, FileSetFileSummary.ofManifestFile, unhex_hex, fileFrame]
  rw [snapshotDigest, snapshotInput, List.length_map, hframes]
  rfl

theorem canonicallyOrdered_names (manifest : FileManifest) :
    CanonicallyOrdered (manifest.files.map (·.name)) := by
  constructor
  · rw [← List.map_insertionSort nameLe (fun a b => utf8Encode a ≤ utf8Encode b) (·.name)
      manifest.files fun _ _ _ _ => Iff.rfl, manifest.valid.sorted]
  · rw [List.map_map]
    exact manifest.valid.distinct

/-- The parser of the Markdown package replaces NUL, as CommonMark demands. -/
def MarkdownReplacesNul : Prop :=
  ∀ text, ∀ token ∈ Platform.parseMarkdown text, ∀ child ∈ token.children, nul ∉ child.content

omit [Platform] in
theorem mem_of_firstHeading {tokens : List MarkdownToken} {inline : MarkdownToken}
    (h : firstHeading tokens = some inline) : inline ∈ tokens := by
  fun_induction firstHeading tokens with
  | case1 token inline' rest hheading =>
    rw [← Option.some.inj h]
    simp
  | case2 token inline' rest hheading ih => exact List.mem_cons_of_mem _ (ih h)
  | case3 => cases h

omit [Platform] in
theorem mem_of_mem_strip {text : Text} {c : Char} (h : c ∈ strip text) : c ∈ text :=
  (List.dropWhile_sublist _).subset ((List.rdropWhile_prefix _ _).subset h)

omit [Platform] in
theorem nul_notMem_headingText {inline : MarkdownToken}
    (h : ∀ child ∈ inline.children, nul ∉ child.content) : nul ∉ headingText inline := by
  intro hnul
  obtain ⟨child, hchild, hmem⟩ := List.mem_flatMap.mp (mem_of_mem_strip hnul)
  split at hmem
  · exact absurd (List.mem_singleton.mp hmem) (by decide)
  · split at hmem
    · exact h child hchild hmem
    · exact absurd hmem List.not_mem_nil

theorem nul_notMem_extractTitle (hmarkdown : MarkdownReplacesNul) (filename : Option Text)
    (content : Option Bytes) : nul ∉ extractTitle filename content := by
  have huntitled : nul ∉ untitled := by decide
  unfold extractTitle
  split
  · split
    · exact huntitled
    · split
      · exact huntitled
      · next text _ =>
        split
        · exact huntitled
        · next inline hinline =>
          split
          · exact huntitled
          · exact nul_notMem_headingText (hmarkdown _ inline (mem_of_firstHeading hinline))
  · exact huntitled

/-- What a presentation says of its manifest. -/
theorem presentationFor_ok (hmarkdown : MarkdownReplacesNul) {manifest : FileManifest}
    {primaryFile : Option Text} {presentation : Presentation}
    (h : presentationFor manifest primaryFile = .ok presentation) :
    (∀ primary ∈ presentation.primaryFile, primary ∈ manifest.files.map (·.name)) ∧
      presentation.displayTitle ≠ [] ∧ nul ∉ presentation.displayTitle := by
  cases primaryFile with
  | none =>
    rw [← Except.ok.inj h]
    exact ⟨fun _ hp => absurd hp (Option.not_mem_none _), untitled_ne_nil, by decide⟩
  | some name =>
    simp only [presentationFor] at h
    cases hfind : manifest.files.find? (·.name = name) with
    | none =>
      rw [hfind] at h
      cases h
    | some entry =>
      simp only [hfind] at h
      split at h
      · rw [← Except.ok.inj h]
        refine ⟨fun primary hp => ?_, ?_, ?_⟩
        · obtain rfl := Option.some.inj hp
          have hname : entry.name = name := by simpa using List.find?_some hfind
          exact List.mem_map.mpr ⟨entry, List.mem_of_find?_eq_some hfind, hname⟩
        · exact extractTitle_ne_nil (some name) (some entry.content)
        · exact nul_notMem_extractTitle hmarkdown (some name) (some entry.content)
      · cases h

theorem manifestView_ok {snapshot : VerifiedRevisionSnapshot} {view : FileSetRevisionManifestView}
    (h : snapshot.manifestView = .ok view) : view.Checks ∧ view =
      { pageId := snapshot.pageId
        revisionId := snapshot.revisionId
        revisionNumber := snapshot.revisionNumber
        files := snapshot.manifest.summaries
        snapshotSha256 := hex snapshot.manifest.snapshotSha256
        primaryFile := snapshot.presentation.primaryFile
        displayTitle := snapshot.presentation.displayTitle } := by
  simp only [VerifiedRevisionSnapshot.manifestView, Fallible.bind_ok, Fallible.check_ok,
    Fallible.pure_ok, exists_and_left, exists_const] at h
  obtain ⟨hchecks, rfl⟩ := h
  exact ⟨hchecks, rfl⟩

/-- **The client accepts the listing of a manifest and its presentation.** -/
theorem fromDict_manifestView (hmarkdown : MarkdownReplacesNul)
    {snapshot : VerifiedRevisionSnapshot} {primaryFile : Option Text}
    (hpresentation : presentationFor snapshot.manifest primaryFile = .ok snapshot.presentation)
    {view : FileSetRevisionManifestView} (hview : snapshot.manifestView = .ok view) :
    FileSetManifest.fromDict view.modelDump = .ok
      { pageId := snapshot.pageId
        revisionId := snapshot.revisionId
        revisionNumber := snapshot.revisionNumber
        snapshotSha256 := hex snapshot.manifest.snapshotSha256
        files := snapshot.manifest.files.map .ofManifestFile
        primaryFile := snapshot.presentation.primaryFile
        displayTitle := some snapshot.presentation.displayTitle } := by
  obtain ⟨hchecks, rfl⟩ := manifestView_ok hview
  obtain ⟨hprimary, htitle⟩ := presentationFor_ok hmarkdown hpresentation
  have hvalid := snapshot.manifest.valid
  have hnames : snapshot.manifest.summaries.map (·.filename) =
      snapshot.manifest.files.map (·.name) := by
    rw [FileManifest.summaries, List.map_map]
    rfl
  have hfiles : snapshot.manifest.summaries.map
      (fun f => (⟨f.filename, f.sizeBytes, f.contentSha256⟩ : FileSetFileSummary)) =
      snapshot.manifest.files.map .ofManifestFile := by
    rw [FileManifest.summaries, List.map_map]
    rfl
  rw [fromDict_modelDump hchecks]
  · rw [← hfiles]
  · intro f hf
    obtain ⟨entry, hentry, rfl⟩ := List.mem_map.mp hf
    obtain ⟨-, hle, hsize, -⟩ := hvalid.entries entry hentry
    show entry.contentSizeBytes ≤ maxFileBytes
    rw [hsize]
    exact hle
  · rw [hnames]
    exact canonicallyOrdered_names snapshot.manifest
  · have htotal : (snapshot.manifest.summaries.map (·.sizeBytes)).sum =
        totalSize snapshot.manifest.files := by
      rw [FileManifest.summaries, List.map_map]
      rfl
    rw [htotal]
    exact hvalid.bounded
  · rw [hfiles, hvalid.digest, snapshotDigest_eq]
  · rw [hnames]
    exact hprimary
  · exact htitle

/-! ### Tampered listings -/

/-- The checks of a file of an accepted listing. -/
def FileSetFileSummary.Accepted (f : FileSetFileSummary) : Prop :=
  (utf8Encode f.filename).length ≤ maxFilenameBytes ∧ f.sizeBytes ≤ maxFileBytes ∧
    IsSha256Text f.contentSha256

omit [Platform] in
theorem exists_hexDigit_of_isLowerHex {c : Char} (h : isLowerHex c = true) :
    ∃ n < 16, hexDigit n = c := by
  have hrange : (48 ≤ c.toNat ∧ c.toNat ≤ 57) ∨ (97 ≤ c.toNat ∧ c.toNat ≤ 102) := by
    simp only [isLowerHex, isDigit, Bool.or_eq_true, Bool.and_eq_true, decide_eq_true_eq] at h
    exact h
  have hofNat : Char.ofNat c.toNat = c := Char.ofNat_toNat c
  rcases hrange with hdigit | hletter
  · refine ⟨c.toNat - 48, by omega, ?_⟩
    rw [hexDigit, if_pos (by omega), Nat.add_sub_cancel' hdigit.1, hofNat]
  · refine ⟨c.toNat - 87, by omega, ?_⟩
    rw [hexDigit, if_neg (by omega), Nat.add_sub_cancel' (by omega), hofNat]

omit [Platform] in
theorem isLowerHex_of_mem_hex {bs : Bytes} {c : Char} (h : c ∈ hex bs) : isLowerHex c = true := by
  have hdigit : ∀ n < 16, isLowerHex (hexDigit n) = true := by decide
  obtain ⟨n, hn, rfl⟩ := exists_of_mem_hex h
  exact hdigit n hn

omit [Platform] in
theorem unhex_inj {a b : Text} (ha : IsSha256Text a) (hb : IsSha256Text b)
    (h : unhex a = unhex b) : a = b := by
  obtain ⟨halength, hadigits⟩ := ha
  obtain ⟨hblength, hbdigits⟩ := hb
  rw [← hex_unhex (fun c hc => exists_hexDigit_of_isLowerHex (hadigits c hc)) (by rw [halength]), h,
    hex_unhex (fun c hc => exists_hexDigit_of_isLowerHex (hbdigits c hc)) (by rw [hblength])]

omit [Platform] in
theorem length_unhex_sha256 {a : Text} (ha : IsSha256Text a) : (unhex a).length = 32 := by
  obtain ⟨hlength, hdigits⟩ := ha
  rw [length_unhex (fun c hc => exists_hexDigit_of_isLowerHex (hdigits c hc)) (by rw [hlength]),
    hlength]

omit [Platform] in
/-- The frame of an accepted file tells where it ends. -/
theorem selfDelimiting_summaryFrame :
    SelfDelimiting FileSetFileSummary.Accepted summaryFrame := by
  rintro ⟨name, size, digest⟩ ⟨name', size', digest'⟩ r r' ⟨hname, hsize, hdigest⟩
    ⟨hname', hsize', hdigest'⟩ h
  simp only [summaryFrame, List.append_assoc] at h
  simp only [maxFilenameBytes, maxFileBytes] at hname hsize hname' hsize'
  obtain ⟨hlength, hafterLength⟩ := append_inj_of_length h (by simp)
  obtain ⟨hbytes, hafterName⟩ :=
    append_inj_of_length hafterLength (bigEndian_inj (by omega) (by omega) hlength)
  obtain ⟨hsizes, hafterSize⟩ := append_inj_of_length hafterName (by simp)
  obtain ⟨hdigests, hrest⟩ := append_inj_of_length hafterSize
    ((length_unhex_sha256 hdigest).trans (length_unhex_sha256 hdigest').symm)
  obtain rfl := utf8Encode_injective hbytes
  obtain rfl := bigEndian_inj (by omega) (by omega) hsizes
  obtain rfl := unhex_inj hdigest hdigest' hdigests
  exact ⟨rfl, hrest⟩

omit [Platform] in
/-- **What is digested tells the listing.** -/
theorem snapshotInput_inj {files files' : List FileSetFileSummary}
    (hfiles : ∀ f ∈ files, f.Accepted) (hfiles' : ∀ f ∈ files', f.Accepted)
    (h : snapshotInput files = snapshotInput files') : files = files' := by
  rw [snapshotInput, snapshotInput, List.append_assoc, List.append_assoc] at h
  have hcounted := List.append_cancel_left h
  obtain ⟨-, hframes⟩ := append_inj_of_length hcounted (by simp)
  refine selfDelimiting_summaryFrame.flatMap_inj (fun f _ hnil => ?_) hfiles hfiles' hframes
  have hlength := congrArg List.length hnil
  simp [summaryFrame] at hlength

/-- A file that the client has read passed its checks. -/
theorem accepted_of_fromDict {data : Fields} {f : FileSetFileSummary}
    (h : FileSetFileSummary.fromDict data = .ok f) : f.Accepted := by
  simp only [FileSetFileSummary.fromDict, Fallible.bind_ok, Fallible.check_ok, Fallible.pure_ok,
    Fallible.mapError_ok, exists_and_left, exists_const] at h
  obtain ⟨-, name, -, required, hrequired, rfl, size, -, hsize, digest, -, digest', hdigest, rfl⟩ := h
  have hsafe := (normalizeFileName_ok.mp (requireFileSetName_iff.mp hrequired))
  obtain ⟨hsha, rfl⟩ := sha256Text_ok.mp hdigest
  refine ⟨?_, ?_, hsha⟩
  · have hbytes := hsafe.2.1
    rw [hsafe.2.2] at hbytes
    simp only [isSafeFileName, Bool.and_eq_true, decide_eq_true_eq] at hbytes
    exact hbytes.2
  · have hle : size ≤ (maxFileBytes : ℕ) := hsize.2
    show size.toNat ≤ maxFileBytes
    omega

/-- The checks that a listing has passed. -/
theorem fromDict_ok {data : Fields} {r : FileSetManifest}
    (h : FileSetManifest.fromDict data = .ok r) :
    (∀ f ∈ r.files, f.Accepted) ∧ hex (sha256 (snapshotInput r.files)) = r.snapshotSha256 := by
  simp only [FileSetManifest.fromDict, Fallible.bind_ok, Fallible.check_ok, Fallible.pure_ok,
    exists_and_left, exists_const] at h
  obtain ⟨-, pageId, -, revisionId, -, number, -, items, -, files, hfiles, -, -, -, snapshot, -,
    snapshot', -, hdigest, primary, -, title, -, rfl⟩ := h
  refine ⟨fun f hf => ?_, hdigest⟩
  obtain ⟨item, -, hitem⟩ := (Fallible.mem_of_mapM hfiles).mp hf
  obtain ⟨data', -, hdata⟩ := Fallible.bind_ok.mp hitem
  exact accepted_of_fromDict hdata

/-- The files of a manifest are listed within the client's bounds. -/
theorem accepted_ofManifestFile (hdigest : ∀ content, (sha256 content).length = 32)
    (manifest : FileManifest) :
    ∀ f ∈ manifest.files.map FileSetFileSummary.ofManifestFile, f.Accepted := by
  intro f hf
  obtain ⟨entry, hentry, rfl⟩ := List.mem_map.mp hf
  obtain ⟨hname, hle, hsize, hsha⟩ := manifest.valid.entries entry hentry
  obtain ⟨-, hsafe, hnfc⟩ := normalizeFileName_ok.mp hname
  refine ⟨?_, ?_, ?_, fun c hc => isLowerHex_of_mem_hex hc⟩
  · rw [hnfc] at hsafe
    simp only [isSafeFileName, Bool.and_eq_true, decide_eq_true_eq] at hsafe
    exact hsafe.2
  · show entry.contentSizeBytes ≤ maxFileBytes
    rw [hsize]
    exact hle
  · show (hex entry.contentSha256).length = 64
    rw [length_hex, hsha, hdigest]

/-- **The client refuses every list of files but the one that was digested.** -/
theorem files_eq_of_fromDict (hdigest : ∀ content, (sha256 content).length = 32)
    {manifest : FileManifest} {data : Fields} {r : FileSetManifest}
    (h : FileSetManifest.fromDict data = .ok r)
    (hsnapshot : r.snapshotSha256 = hex manifest.snapshotSha256)
    (hinj : Set.InjOn sha256
      {snapshotInput r.files, snapshotInput (manifest.files.map .ofManifestFile)}) :
    r.files = manifest.files.map .ofManifestFile := by
  obtain ⟨haccepted, hsha⟩ := fromDict_ok h
  have heq : sha256 (snapshotInput r.files) =
      sha256 (snapshotInput (manifest.files.map .ofManifestFile)) := by
    rw [← snapshotDigest_eq, ← manifest.valid.digest]
    exact hex_injective (hsha.trans hsnapshot)
  exact snapshotInput_inj haccepted (accepted_ofManifestFile hdigest manifest)
    (hinj (Set.mem_insert _ _) (Set.mem_insert_of_mem _ rfl) heq)

end

section Sample

attribute [local instance] shaPlatform

/-- A Markdown file and a binary one. -/
def sampleSnapshot : Except Err VerifiedRevisionSnapshot := do
  let manifest ← buildFileManifest [("b.bin", [0, 255]), ("a.md", utf8Encode "# A")]
  let presentation ← presentationFor manifest (some "a.md")
  pure ⟨"19700101t000000001z-notes", "rev_00000000000000000000000000000001", 1, manifest,
    presentation⟩

end Sample

end PatchouliLib.Client
