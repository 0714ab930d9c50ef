import PatchouliLib.LibrarySkills.SaveRuns

/-!
# Packages that are read back

A version is read file by file, and every path goes through the normalization again.  A
path that is normal stays as it is, so what is read is what was stored; but normalization
may have made a path longer than paths may be, and such a package is never read again.

## Main results

* `normalizeSkillPath_again` — a normal path is kept when it is short enough.
* `manifestFiles_stored` — a version of a sound state is read as it was stored.
* `skillPackages_readBack` — **what is saved is what is read, from then on.**
* `skillRestores_exact` — **a restored version is the current one again.**
-/

namespace PatchouliLib

open Foundation

section

variable [Platform]

/-! ### Paths -/

/-- A safe name is one segment. -/
theorem slash_notMem_of_normalizeFileName {value name : Text}
    (h : normalizeFileName value = .ok name) : '/' ∉ name ∧ name ≠ [] := by
  obtain ⟨-, hsafe, rfl⟩ := normalizeFileName_ok.mp h
  simp only [isSafeFileName, Bool.and_eq_true, decide_eq_true_eq, Bool.not_eq_true'] at hsafe
  refine ⟨fun hslash => ?_, hsafe.1.1.1.1.1.1.1.1.1⟩
  have hforbidden := List.any_eq_false.mp hsafe.1.1.1.2 '/' hslash
  exact hforbidden (by decide)

/-- A name that was normalized is normal. -/
theorem normalizeFileName_again (hnfc : ∀ text : Text, nfc (nfc text) = nfc text)
    {value name : Text} (h : normalizeFileName value = .ok name) :
    normalizeFileName name = .ok name := by
  have hshort := length_of_normalizeFileName h
  obtain ⟨-, hsafe, rfl⟩ := normalizeFileName_ok.mp h
  refine normalizeFileName_ok.mpr ⟨?_, by rwa [hnfc], hnfc value⟩
  calc (nfc value).length ≤ (utf8Encode (nfc value)).length := length_le_length_utf8Encode _
    _ ≤ maxFilenameBytes := hshort
    _ ≤ maxRawFilenameChars := by decide

theorem normalizeSkillPath_ok {value path : Text} : normalizeSkillPath value = .ok path ↔
    (value ≠ [] ∧ (utf8Encode value).length ≤ maxSkillPathBytes) ∧
      (value.splitOn '/').length ≤ maxSkillPathDepth ∧
      ∃ parts, (value.splitOn '/').mapM normalizeFileName = .ok parts ∧
        ['/'].intercalate parts = path := by
  simp only [normalizeSkillPath, Fallible.bind_ok, Fallible.check_ok, Fallible.pure_ok,
    exists_and_left, exists_const]

/-- **A normal path is kept when it is short enough.** -/
theorem normalizeSkillPath_again (hnfc : ∀ text : Text, nfc (nfc text) = nfc text)
    {value path : Text} (h : normalizeSkillPath value = .ok path) :
    normalizeSkillPath path =
      if (utf8Encode path).length ≤ maxSkillPathBytes then .ok path else .error .validation := by
  obtain ⟨-, hdepth, parts, hparts, rfl⟩ := normalizeSkillPath_ok.mp h
  have hpart : ∀ part ∈ parts, normalizeFileName part = .ok part ∧ '/' ∉ part ∧ part ≠ [] := by
    intro part hmem
    obtain ⟨raw, -, hraw⟩ := (Fallible.mem_of_mapM hparts).mp hmem
    exact ⟨normalizeFileName_again hnfc hraw, slash_notMem_of_normalizeFileName hraw⟩
  have hlength : parts.length = (value.splitOn '/').length := Fallible.length_eq_of_mapM hparts
  have hne : parts ≠ [] := by
    intro hnil
    rw [hnil] at hlength
    exact List.splitOn_ne_nil '/' value (List.length_eq_zero_iff.mp hlength.symm)
  have hsplit : (['/'].intercalate parts).splitOn '/' = parts :=
    List.splitOn_intercalate '/' (fun part hmem => (hpart part hmem).2.1) hne
  have hpath : ['/'].intercalate parts ≠ [] := by
    intro hnil
    rw [hnil] at hsplit
    have hempty : ([] : Text) ∈ parts := by
      rw [← hsplit]
      exact List.mem_singleton.mpr rfl
    exact (hpart [] hempty).2.2 rfl
  by_cases hshort : (utf8Encode (['/'].intercalate parts)).length ≤ maxSkillPathBytes
  · rw [if_pos hshort]
    refine normalizeSkillPath_ok.mpr ⟨⟨hpath, hshort⟩, ?_, parts, ?_, rfl⟩
    · rw [hsplit, hlength]
      exact hdepth
    · rw [hsplit]
      exact Fallible.mapM_eq_self fun part hmem => (hpart part hmem).1
  · rw [if_neg hshort, normalizeSkillPath, Fallible.check_of_not fun hok => hshort hok.2]
    rfl

/-! ### The files of a version -/

/-- A package whose paths can be read. -/
def IsReadable (files : List (Text × Bytes)) : Prop :=
  ∀ entry ∈ files, (utf8Encode entry.1).length ≤ maxSkillPathBytes

omit [Platform] in
instance IsReadable.decidable (files : List (Text × Bytes)) : Decidable (IsReadable files) := by
  unfold IsReadable
  infer_instance

variable {snapshot : SkillSnapshot} {files : List (Text × Bytes)}

/-- The files of a snapshot come in the order of their paths, which are normal and differ. -/
theorem snapshot_files (h : buildSkillSnapshot files = .ok snapshot) :
    snapshot.files.Pairwise pathLe ∧ (Dict.keys snapshot.files).Nodup ∧
      ∀ entry ∈ snapshot.files, ∃ value, normalizeSkillPath value = .ok entry.1 := by
  obtain ⟨entries, hentries, hfits, -, -, rfl⟩ := buildSkillSnapshot_ok.mp h
  have hperm : (entries.insertionSort pathLe).Perm entries := List.perm_insertionSort _ _
  refine ⟨List.pairwise_insertionSort _ _, ?_, fun entry hentry => ?_⟩
  · exact (hperm.map _).nodup_iff.mpr hfits.nodup_keys
  · obtain ⟨item, -, hitem⟩ :=
      (Fallible.mem_of_mapM hentries).mp (hperm.mem_iff.mp hentry)
    exact ⟨item.1, (skillEntry_ok.mp hitem).1⟩

/-- **A package that is built again is the same one.** -/
theorem buildSkillSnapshot_again (hnfc : ∀ text : Text, nfc (nfc text) = nfc text)
    (h : buildSkillSnapshot files = .ok snapshot) (hreadable : IsReadable snapshot.files) :
    buildSkillSnapshot snapshot.files = .ok snapshot := by
  obtain ⟨-, -, hnormal⟩ := snapshot_files h
  obtain ⟨entries, hentries, hfits, htree, ⟨entry, hentry, hskill⟩, rfl⟩ :=
    buildSkillSnapshot_ok.mp h
  have hperm : (entries.insertionSort pathLe).Perm entries := List.perm_insertionSort _ _
  have hkeys : (pathKeys (entries.insertionSort pathLe)).Perm (pathKeys entries) := hperm.map _
  have hsame : (snapshotOf entries).files.mapM skillEntry = .ok (snapshotOf entries).files := by
    refine Fallible.mapM_eq_self fun entry hmem => skillEntry_ok.mpr ⟨?_, rfl⟩
    obtain ⟨value, hvalue⟩ := hnormal entry hmem
    rw [normalizeSkillPath_again hnfc hvalue]
    exact if_pos (hreadable entry hmem)
  refine buildSkillSnapshot_ok.mpr ⟨_, hsame, hfits.perm hperm.symm, ?_,
    ⟨entry, hperm.mem_iff.mpr hentry, hskill⟩, snapshotOf_perm hfits hperm.symm⟩
  intro path hpath ancestor hancestor hmem
  exact htree path (hkeys.mem_iff.mp hpath) ancestor hancestor (hkeys.mem_iff.mp hmem)

/-- A version with the files it holds. -/
structure HoldsFiles (t : SkillTables) (r : LibrarySkillRevision) (snapshot : SkillSnapshot) :
    Prop where
  built : ∃ files, buildSkillSnapshot files = .ok snapshot
  fileCount : r.fileCount = snapshot.files.length
  totalSizeBytes : r.totalSizeBytes = snapshot.totalSizeBytes
  digest : r.snapshotSha256 = snapshot.snapshotSha256
  files : t.filesOf r.key r.id = snapshot.files.map fun entry =>
    ⟨r.key, r.id, entry.1, entry.2, entry.2.length, sha256 entry.2⟩

variable {t t' : SkillTables} {r : LibrarySkillRevision} {s : LibrarySkill}

theorem SkillsSound.holds (hsound : SkillsSound t) (hr : r ∈ t.revisions) :
    ∃ snapshot, HoldsFiles t r snapshot := by
  obtain ⟨files, snapshot, hbuilt, hcount, hsize, hdigest, hfiles⟩ := (hsound.packaged r hr).package
  exact ⟨snapshot, ⟨files, hbuilt⟩, hcount, hsize, hdigest, hfiles⟩

/-- **A version holds its files from then on.** -/
theorem HoldsFiles.of_grow (hgrow : SkillsGrow t t') (hr : r ∈ t.revisions)
    (h : HoldsFiles t r snapshot) : HoldsFiles t' r snapshot := by
  obtain ⟨snapshot', h'⟩ := hgrow.sound.holds (hgrow.revisions.subset hr)
  obtain ⟨added, hadded⟩ := hgrow.files
  have hsplit : t'.filesOf r.key r.id = t.filesOf r.key r.id ++
      added.filter fun f => f.key = r.key ∧ f.revisionId = r.id := by
    unfold SkillTables.filesOf
    rw [← hadded, List.filter_append]
  -- The version has as many files as it says, so nothing was added to it.
  have hlength := congrArg List.length hsplit
  rw [List.length_append, h.files, h'.files, List.length_map, List.length_map, ← h.fileCount,
    ← h'.fileCount] at hlength
  have hnone : (added.filter fun f => f.key = r.key ∧ f.revisionId = r.id) = [] :=
    List.length_eq_zero_iff.mp (by omega)
  rw [hnone, List.append_nil] at hsplit
  exact ⟨h.built, h.fileCount, h.totalSizeBytes, h.digest, hsplit.trans h.files⟩

/-! ### Reading a version -/

omit [Platform] in
theorem LibrarySkill.revisionOr_some {id : Text} (hid : IsRevisionId id) :
    s.revisionOr (some id) = id := by
  cases id with
  | nil => exact absurd hid (by decide)
  | cons c cs => rfl

omit [Platform] in
theorem manifestEntries_stored (hsorted : files.Pairwise pathLe)
    (row : Text × Bytes → LibrarySkillFile) (hrow : ∀ entry, (row entry).path = entry.1) :
    manifestEntries (files.map row) = files.map fun entry =>
      ⟨(row entry).path, (row entry).sizeBytes, (row entry).contentSha256⟩ := by
  have hordered : (files.map row).Pairwise fun a b => utf8Encode a.path ≤ utf8Encode b.path := by
    rw [List.pairwise_map]
    refine hsorted.imp fun {a b} hab => ?_
    rw [hrow, hrow]
    exact hab
  rw [manifestEntries, hordered.insertionSort_eq, List.map_map]
  rfl

variable {db : SkillDb} {authorize : SkillAuthorization} {key : SkillKey}

/-- A stored file is read, or its path is too long. -/
theorem readSkillFile_stored (hnfc : ∀ text : Text, nfc (nfc text) = nfc text)
    (hgate : authorize r.key.libraryId .read db = .ok (⟨⟩, db))
    (hcurrent : currentSkill r.key db = .ok (s, db)) (hid : IsRevisionId r.id)
    (hholds : HoldsFiles db.skills r snapshot) {entry : Text × Bytes}
    (hentry : entry ∈ snapshot.files) :
    readSkillFile authorize r.key entry.1 (some r.id) db =
      if (utf8Encode entry.1).length ≤ maxSkillPathBytes then .ok (entry.2, db)
      else .error .skillValidation := by
  obtain ⟨built, hbuilt⟩ := hholds.built
  obtain ⟨-, hkeys, hnormal⟩ := snapshot_files hbuilt
  obtain ⟨value, hvalue⟩ := hnormal entry hentry
  have hagain := normalizeSkillPath_again hnfc hvalue
  rw [readSkillFile, bind_run hgate, bind_run hcurrent]
  by_cases hshort : (utf8Encode entry.1).length ≤ maxSkillPathBytes
  · rw [if_pos hshort] at hagain ⊢
    -- The paths of a version differ, so the first file under this one is the file.
    have hfind : (db.skills.filesOf r.key (s.revisionOr (some r.id))).find? (·.path = entry.1) =
        some ⟨r.key, r.id, entry.1, entry.2, entry.2.length, sha256 entry.2⟩ := by
      rw [LibrarySkill.revisionOr_some hid, hholds.files]
      have hkeyed : Keyed LibrarySkillFile.path (snapshot.files.map fun entry =>
          ⟨r.key, r.id, entry.1, entry.2, entry.2.length, sha256 entry.2⟩) := by
        rw [Keyed, List.map_map]
        exact hkeys
      exact hkeyed.find?_eq.mpr ⟨List.mem_map_of_mem hentry, rfl⟩
    have hrow : (lookup (fun db => (db.skills.filesOf r.key
        (s.revisionOr (some r.id))).find? (·.path = entry.1)) .skillNotFound : SkillTx _) db =
        .ok (_, db) := lookup_ok.mpr ⟨hfind, rfl⟩
    rw [bind_run (attempt_ok.mpr ⟨Fallible.mapError_ok.mpr hagain, rfl⟩), bind_run hrow,
      bind_run ((require_ok (w := ⟨⟩)).mpr ⟨⟨rfl, rfl⟩, rfl⟩)]
    rfl
  · rw [if_neg hshort] at hagain ⊢
    rw [hagain]
    exact bind_error rfl

/-- The files of a version are read one by one, up to one whose path is too long. -/
theorem readSkillFiles_stored (hnfc : ∀ text : Text, nfc (nfc text) = nfc text)
    (hgate : authorize r.key.libraryId .read db = .ok (⟨⟩, db))
    (hcurrent : currentSkill r.key db = .ok (s, db)) (hid : IsRevisionId r.id)
    (hholds : HoldsFiles db.skills r snapshot) (hfiles : ∀ entry ∈ files, entry ∈ snapshot.files) :
    readSkillFiles authorize r.key r.id
        (files.map fun entry => ⟨entry.1, entry.2.length, sha256 entry.2⟩) db =
      if IsReadable files then .ok (files, db) else .error .skillValidation := by
  induction files with
  | nil => rfl
  | cons entry files ih =>
    have hfirst := readSkillFile_stored hnfc hgate hcurrent hid hholds
      (hfiles entry List.mem_cons_self)
    have hrest := ih fun e he => hfiles e (List.mem_cons_of_mem _ he)
    have hall : IsReadable (entry :: files) ↔
        (utf8Encode entry.1).length ≤ maxSkillPathBytes ∧ IsReadable files := List.forall_mem_cons
    rw [List.map_cons, readSkillFiles]
    by_cases hshort : (utf8Encode entry.1).length ≤ maxSkillPathBytes
    · rw [if_pos hshort] at hfirst
      rw [bind_run hfirst]
      by_cases hreadable : IsReadable files
      · rw [if_pos hreadable] at hrest
        rw [bind_run hrest, if_pos (hall.mpr ⟨hshort, hreadable⟩)]
        rfl
      · rw [if_neg hreadable] at hrest
        rw [if_neg fun h => hreadable (hall.mp h).2]
        exact bind_error hrest
    · rw [if_neg hshort] at hfirst
      rw [if_neg fun h => hshort (hall.mp h).1]
      exact bind_error hfirst

/-- **A version is read as it was stored.** -/
theorem manifestFiles_stored (hnfc : ∀ text : Text, nfc (nfc text) = nfc text)
    (hsound : SkillsSound db.skills) (hgate : authorize r.key.libraryId .read db = .ok (⟨⟩, db))
    (hr : r ∈ db.skills.revisions) (hholds : HoldsFiles db.skills r snapshot) :
    manifestFiles authorize r.key (some r.id) db =
      if IsReadable snapshot.files then .ok ((r, snapshot.files), db)
      else .error .skillValidation := by
  obtain ⟨s, hs, hkey⟩ := hsound.owned r hr
  have hcurrent : currentSkill r.key db = .ok (s, db) :=
    lookup_ok.mpr ⟨hsound.keys.find?_eq.mpr ⟨hs, hkey⟩, rfl⟩
  have hid := hsound.identified r hr
  have hversions := (hsound.chains s hs).ids
  rw [hkey] at hversions
  have hversion : skillVersion r.key (s.revisionOr (some r.id)) db = .ok (r, db) := by
    rw [LibrarySkill.revisionOr_some hid]
    refine lookup_ok.mpr ⟨hversions.find?_eq.mpr ⟨?_, rfl⟩, rfl⟩
    exact List.mem_filter.mpr ⟨hr, decide_eq_true rfl⟩
  obtain ⟨built, hbuilt⟩ := hholds.built
  have hentries : manifestEntries (db.skills.filesOf r.key (s.revisionOr (some r.id))) =
      snapshot.files.map fun entry => ⟨entry.1, entry.2.length, sha256 entry.2⟩ := by
    rw [LibrarySkill.revisionOr_some hid, hholds.files]
    exact manifestEntries_stored (snapshot_files hbuilt).1 _ fun _ => rfl
  have hmanifest : skillManifest authorize r.key (some r.id) db =
      .ok ((r, snapshot.files.map fun entry => ⟨entry.1, entry.2.length, sha256 entry.2⟩), db) := by
    rw [skillManifest, bind_run hgate, bind_run hcurrent, bind_run hversion,
      bind_run (reads_ok.mpr ⟨rfl, rfl⟩), hentries]
    rfl
  have hread := readSkillFiles_stored hnfc hgate hcurrent hid hholds fun _ h => h
  rw [manifestFiles, bind_run hmanifest]
  by_cases hreadable : IsReadable snapshot.files
  · rw [if_pos hreadable] at hread ⊢
    rw [bind_run hread]
    rfl
  · rw [if_neg hreadable] at hread ⊢
    exact bind_error hread

/-- What has been read is what is stored. -/
theorem manifestFiles_ok (hnfc : ∀ text : Text, nfc (nfc text) = nfc text)
    (hsound : SkillsSound db.skills) {revisionId : Option Text} {version : LibrarySkillRevision}
    {read : SkillDb} (hgate : ∀ w opened,
      authorize key.libraryId .read db = .ok (w, opened) → opened = db)
    (h : manifestFiles authorize key revisionId db = .ok ((version, files), read)) :
    read = db ∧ version ∈ db.skills.versionsOf key ∧
      (∃ s ∈ db.skills.skills, s.key = key ∧ version.id = s.revisionOr revisionId) ∧
      ∃ snapshot, HoldsFiles db.skills version snapshot ∧ IsReadable snapshot.files ∧
        files = snapshot.files := by
  obtain ⟨⟨version', entries⟩, mid, hmanifest, h⟩ := bind_ok.mp h
  simp only [skillManifest, bind_ok, reads_ok, pure_ok, Prod.mk.injEq] at hmanifest
  obtain ⟨w, opened, hopen, s, read', hcurrent, version'', seen, hversion, stored, listed,
    ⟨rfl, rfl⟩, ⟨rfl, rfl⟩, rfl⟩ := hmanifest
  obtain rfl := hgate w opened hopen
  obtain ⟨hs, hkey, rfl⟩ := currentSkill_ok hcurrent
  obtain ⟨hfind, rfl⟩ := lookup_ok.mp hversion
  have hmem := List.mem_of_find?_eq_some hfind
  have hid : version''.id = s.revisionOr revisionId := by simpa using List.find?_some hfind
  have hrevision := List.mem_of_mem_filter hmem
  have hrkey : version''.key = key := by simpa using List.of_mem_filter hmem
  obtain ⟨snapshot, hholds⟩ := hsound.holds hrevision
  obtain ⟨built, hbuilt⟩ := hholds.built
  obtain ⟨files', last, hfiles, h⟩ := bind_ok.mp h
  obtain ⟨hanswer, rfl⟩ := pure_ok.mp h
  obtain ⟨rfl, rfl⟩ := Prod.mk.inj hanswer
  subst hrkey
  have hentries : manifestEntries (opened.skills.filesOf version''.key (s.revisionOr revisionId)) =
      snapshot.files.map fun entry => ⟨entry.1, entry.2.length, sha256 entry.2⟩ := by
    rw [← hid, hholds.files]
    exact manifestEntries_stored (snapshot_files hbuilt).1 _ fun _ => rfl
  rw [hentries, readSkillFiles_stored hnfc hopen hcurrent (hsound.identified _ hrevision) hholds
    fun _ h => h] at hfiles
  split at hfiles
  · next hreadable =>
    obtain ⟨rfl, rfl⟩ := Prod.mk.inj (Except.ok.inj hfiles)
    exact ⟨rfl, hmem, ⟨s, hs, hkey, hid⟩, snapshot, hholds, hreadable, rfl⟩
  · cases hfiles

/-! ### Round trips -/

/-- The files of a version, read at any later point. -/
def ReadsBack (db : SkillDb) (r : LibrarySkillRevision) (files : List (Text × Bytes)) : Prop :=
  ∀ after db', SkillRun db after db' → ∀ authorize : SkillAuthorization,
    authorize r.key.libraryId .read db' = .ok (⟨⟩, db') →
    manifestFiles authorize r.key (some r.id) db' =
      if IsReadable files then .ok ((r, files), db') else .error .skillValidation

/-- A version of a reachable state is read back, whatever happens in between. -/
theorem HoldsFiles.readsBack (hnfc : ∀ text : Text, nfc (nfc text) = nfc text)
    (hsound : SkillsSound db.skills) (hr : r ∈ db.skills.revisions)
    (hholds : HoldsFiles db.skills r snapshot) : ReadsBack db r snapshot.files := by
  intro after db' hafter authorize hgate
  have hgrow := skillRun_grows hafter hsound
  exact manifestFiles_stored hnfc hgrow.sound hgate (hgrow.revisions.subset hr)
    (hholds.of_grow hgrow hr)

/-- The version that an operation has added holds the package. -/
theorem AddsVersion.holds (h : AddsVersion t t' s snapshot) (hsound : SkillsSound t) :
    HoldsFiles t' (versionOf s snapshot) snapshot :=
  ⟨h.package, rfl, rfl, rfl, h.filesOf_self hsound.fileOwned⟩

theorem HoldsFiles.of_same (hsame : SameVersions t t') (h : HoldsFiles t r snapshot) :
    HoldsFiles t' r snapshot := by
  refine ⟨h.built, h.fileCount, h.totalSizeBytes, h.digest, ?_⟩
  rw [← h.files, SkillTables.filesOf, hsame.files, SkillTables.filesOf]

/-- A save that has changed something adds a version with its package. -/
theorem operation_adds {save : SkillSave} {result : SkillSaveResult} {db' : SkillDb}
    (h : save.operation db = .ok (result, db')) (hchanged : result.changed = true) :
    ∃ snapshot, buildSkillSnapshot save.package.files = .ok snapshot ∧
      AddsVersion db.skills db'.skills result.skill.row snapshot := by
  rw [SkillSave.operation] at h
  cases hskill : save.skillId with
  | none =>
    rw [hskill] at h
    rcases createSkill_ok (leavesSkills_agentGate _ _) h with
      ⟨hsame, -⟩ | ⟨-, snapshot, hbuilt, hcreated, -⟩
    · rw [hsame] at hchanged
      cases hchanged
    · exact ⟨snapshot, hbuilt, hcreated.toAddsVersion⟩
  | some skillId =>
    rw [hskill] at h
    obtain ⟨current, -, -, -, snapshot, hbuilt, ⟨hsame, -⟩ | ⟨-, hadvanced, -⟩⟩ :=
      reviseSkill_ok (leavesSkills_agentGate _ _) h
    · rw [hsame] at hchanged
      cases hchanged
    · exact ⟨snapshot, hbuilt, hadvanced.toAddsVersion⟩

variable {events : List SkillEvent}

/-- **What is saved is what is read, from then on.**  In every run each version has one list of
files, in the order of their paths, which its digest, count and size are of; and whoever is let
in reads this list at any later point, unless a path is longer than paths may be.  The version
that a save has made holds the given files under their normalized paths. -/
theorem skillPackages_readBack (hnfc : ∀ text : Text, nfc (nfc text) = nfc text)
    (hrun : SkillRun {} events db) :
    (∀ r ∈ db.skills.revisions, ∃ files, files.Pairwise pathLe ∧ (Dict.keys files).Nodup ∧
      r.snapshotSha256 = sha256 (skillSource files) ∧ r.fileCount = files.length ∧
      r.totalSizeBytes = packageSize files ∧ ReadsBack db r files) ∧
    ∀ (save : SkillSave) response db', commit (skillTransaction (saveSkill save)) db =
        (.ok (response, false), db') → response.result.changed = true →
      ∃ r ∈ db'.skills.revisions, Mirrors response.result.skill.row r ∧
        r ∉ db.skills.revisions ∧ ∃ files,
          (save.package.files.map fun item => (normalizeSkillPath item.1, item.2)).Perm
            (files.map fun entry => (.ok entry.1, entry.2)) ∧ ReadsBack db' r files := by
  have hsound := skillRun_sound hrun
  constructor
  · intro r hr
    obtain ⟨snapshot, hholds⟩ := hsound.holds hr
    obtain ⟨built, hbuilt⟩ := hholds.built
    obtain ⟨hsorted, hkeys, -⟩ := snapshot_files hbuilt
    obtain ⟨entries, -, -, -, -, rfl⟩ := buildSkillSnapshot_ok.mp hbuilt
    refine ⟨_, hsorted, hkeys, hholds.digest, hholds.fileCount, ?_, hholds.readsBack hnfc hsound hr⟩
    exact hholds.totalSizeBytes.trans (packageSize_perm (List.perm_insertionSort _ _).symm)
  · intro save response db' hsave hchanged
    have hbody := commit_skillTransaction hsave
    obtain ⟨-, -, -, -, -, ⟨hreplayed, -⟩ | ⟨-, result, mid, hoperation, hsame, rfl⟩⟩ :=
      saveSkill_ok hbody
    · cases hreplayed
    · obtain ⟨snapshot, hbuilt, hadds⟩ := operation_adds hoperation hchanged
      have hlater := (kept_saveSkill save db _ db' hbody hsound).sound
      have hmem : versionOf response.result.skill.row snapshot ∈ db'.skills.revisions := by
        rw [hsame.revisions, hadds.revisions]
        exact List.mem_append_right _ (List.mem_singleton.mpr rfl)
      exact ⟨_, hmem, mirrors_versionOf _ _, fun hold => hadds.fresh _ hold rfl rfl,
        snapshot.files, skillFiles_perm hbuilt,
        ((hadds.holds hsound).of_same hsame).readsBack hnfc hlater hmem⟩

/-- The gate of the browser does not write. -/
theorem browserGate_same {session : MasterAdminSession} {time : ℤ} {libraryId : Id}
    {action : SkillAction} {w : PUnit} {opened : SkillDb}
    (h : browserGate session time libraryId action db = .ok (w, opened)) : opened = db :=
  (onAuthority_session.mp h).2.symm

theorem Advanced.mem_skills {previous : LibrarySkill} (h : Advanced t t' previous s snapshot) :
    s ∈ t'.skills := by
  rw [h.skills]
  exact List.mem_map.mpr ⟨previous, h.mem, if_pos h.key.symm⟩

/-- **A restored version is the current one again.**  When a restore is done, in any reachable
state, the skill has the name, the description and the digest of the version that was asked for;
and either nothing is changed, or a new version is the current one, which is read back with the
files of the old one from then on. -/
theorem skillRestores_exact (hnfc : ∀ text : Text, nfc (nfc text) = nfc text)
    (hrun : SkillRun {} events db) {restore : SkillRestore} {response : SkillWorkspaceResponse}
    {db' : SkillDb} (h : commit (skillTransaction (restoreSkill restore)) db =
      (.ok (.skill response, false), db')) :
    ∃ source ∈ db.skills.versionsOf ⟨restore.libraryId, restore.skillId⟩,
      (restore.revisionId ≠ [] → source.id = restore.revisionId) ∧
      response.result.skill.row ∈ db'.skills.skills ∧ response.result.skill.row.key = source.key ∧
      response.result.skill.row.name = source.name ∧
      response.result.skill.row.description = source.description ∧
      ∃ r ∈ db'.skills.revisions, Mirrors response.result.skill.row r ∧
        r.snapshotSha256 = source.snapshotSha256 ∧
        (response.result.changed = false ∧ SameVersions db.skills db'.skills ∨
          response.result.changed = true ∧ r ∉ db.skills.revisions ∧ ∃ files, IsReadable files ∧
            ReadsBack db' r files ∧ ReadsBack db' source files) := by
  have hsound := skillRun_sound hrun
  have hbody := commit_skillTransaction h
  have hlater := (kept_restoreSkill restore db _ db' hbody hsound).sound
  obtain ⟨-, ⟨hreplayed, -⟩ | ⟨-, response', hanswer, hfresh⟩⟩ := answer_ok hbody
  · cases hreplayed
  obtain rfl := WorkspaceAnswer.skill.inj hanswer
  obtain ⟨⟨source, files⟩, read, hread, hfresh⟩ := bind_ok.mp hfresh
  obtain ⟨result, mid, hrevise, hfinish⟩ := bind_ok.mp hfresh
  obtain ⟨-, hsame, rfl⟩ := finish_ok hfinish
  obtain ⟨rfl, hsource, ⟨s, hs, hskey, hid⟩, snapshot, hholds, hreadable, rfl⟩ :=
    manifestFiles_ok hnfc hsound (fun _ _ => browserGate_same) hread
  have hrevision := List.mem_of_mem_filter hsource
  have hkey : source.key = ⟨restore.libraryId, restore.skillId⟩ := by
    simpa using List.of_mem_filter hsource
  refine ⟨source, hsource, fun hne => ?_, ?_⟩
  · cases hgiven : restore.revisionId with
    | nil => exact absurd hgiven hne
    | cons c cs =>
      rw [hid, hgiven]
      rfl
  obtain ⟨built, hbuilt⟩ := hholds.built
  obtain ⟨current, hcurrent, hckey, -, snapshot', hbuilt', hdone⟩ :=
    reviseSkill_ok (leavesSkills_browserGate _ _) hrevise
  -- What was stored is built again to what it was.
  obtain rfl : snapshot' = snapshot :=
    Except.ok.inj (hbuilt'.symm.trans (buildSkillSnapshot_again hnfc hbuilt hreadable))
  have hdescription := hsound.stripped source hrevision
  rcases hdone with
    ⟨hchanged, hskills, hname, hstripped, ⟨version, hversion, hvid, hdigest⟩, hrow⟩ |
    ⟨hchanged, hadvanced, hname, hstripped, -⟩
  · rw [hrow]
    have hversions : SameVersions read.skills db'.skills :=
      ⟨by rw [hsame.skills, hskills], by rw [hsame.revisions, hskills],
        by rw [hsame.files, hskills]⟩
    obtain ⟨r, hr, hmirrors⟩ := hsound.current hcurrent
    have hsamer : r = version := by
      refine (hsound.chains current hcurrent).ids.eq_of_key ?_ ?_ (hmirrors.id.trans hvid.symm)
      · exact List.mem_filter.mpr ⟨hr, decide_eq_true hmirrors.key⟩
      · rwa [hckey]
    refine ⟨?_, hckey.trans hkey.symm, hname, hstripped.trans hdescription, r, ?_, hmirrors, ?_,
      .inl ⟨hchanged, hversions⟩⟩
    · rw [hversions.skills]
      exact hcurrent
    · rw [hversions.revisions]
      exact hr
    · rw [hsamer, hdigest, hholds.digest]
  · have hgrow := hadvanced.grows hsound
    have hmem : versionOf result.skill.row snapshot' ∈ db'.skills.revisions := by
      rw [hsame.revisions, hadvanced.revisions]
      exact List.mem_append_right _ (List.mem_singleton.mpr rfl)
    have hold : source ∈ db'.skills.revisions := by
      rw [hsame.revisions]
      exact hgrow.revisions.subset hrevision
    have hnew := (hadvanced.toAddsVersion.holds hsound).of_same hsame
    have hkept := (hholds.of_grow hgrow hrevision).of_same hsame
    refine ⟨?_, ?_, hname, hstripped.trans hdescription, _, hmem, mirrors_versionOf _ _,
      hholds.digest.symm, .inr ⟨hchanged, fun hthere => hadvanced.fresh _ hthere rfl rfl,
        snapshot'.files, hreadable, hnew.readsBack hnfc hlater hmem,
        hkept.readsBack hnfc hlater hold⟩⟩
    · rw [hsame.skills]
      exact hadvanced.mem_skills
    · exact hadvanced.key.trans (hckey.trans hkey.symm)

end

section Sample

attribute [local instance] shaPlatform

/-- The first version is read when there is a second one. -/
theorem skillPackages_readBack_sample :
    ∃ r ∈ sampleSkillMade.skills.revisions, ∃ files : List (Text × Bytes), files.length = 2 ∧
      manifestFiles (browserGate sampleLibrarian 0) r.key (some r.id) sampleSkillEdited =
        if IsReadable files then .ok ((r, files), sampleSkillEdited)
        else .error .skillValidation := by
  obtain ⟨hversions, -⟩ := skillPackages_readBack (fun _ => rfl) sampleMadeRun
  have hfirst : sampleSkillMade.skills.revisions.head?.map (fun r => (r.fileCount, r.key)) =
      some (2, sampleSkillKey) := by
    decide +kernel
  obtain ⟨r, hr, hcount⟩ := Option.map_eq_some_iff.mp hfirst
  obtain ⟨files, -, -, -, hlength, -, hread⟩ := hversions r (List.mem_of_mem_head? hr)
  refine ⟨r, List.mem_of_mem_head? hr, files, ?_, ?_⟩
  · rw [← hlength]
    exact congrArg Prod.fst hcount
  · exact hread _ _ sampleEditedRun _
      (onAuthority_session.mpr ⟨⟨by decide, by decide +kernel⟩, rfl⟩)

/-- The first version is restored under the tag of the second one. -/
def sampleSkillRestore : SkillRestore :=
  { sampleStaleRestore ⟨sampleSkillKey, "tidy-up", "Tidy up", sampleVersionId '2', 2, 1000, 1001⟩ with
    keyDigest := [4] }

theorem skillRestores_exact_sample :
    ∃ response db', commit (skillTransaction (restoreSkill sampleSkillRestore)) sampleSkillEdited =
        (.ok (.skill response, false), db') ∧
      ∃ r ∈ db'.skills.revisions, Mirrors response.result.skill.row r ∧
        r ∉ sampleSkillEdited.skills.revisions := by
  have hanswer : ((commit (skillTransaction (restoreSkill sampleSkillRestore))
      sampleSkillEdited).1.toOption.bind fun answer => answer.1.skill?.map fun response =>
        (response.result.changed, answer.2)) = some (true, false) := by
    decide +kernel
  obtain ⟨response, hanswered, hchanged⟩ := WorkspaceAnswer.exists_of_skill? hanswer
  have hrestored : commit (skillTransaction (restoreSkill sampleSkillRestore)) sampleSkillEdited =
      (.ok (.skill response, false),
        (commit (skillTransaction (restoreSkill sampleSkillRestore)) sampleSkillEdited).2) := by
    rw [← hanswered]
  obtain ⟨source, -, -, -, -, -, -, r, hr, hmirrors, -, ⟨hsame, -⟩ | ⟨-, hnew, -⟩⟩ :=
    skillRestores_exact (fun _ => rfl) (sampleMadeRun.append sampleEditedRun) hrestored
  · rw [hchanged] at hsame
    cases hsame
  · exact ⟨response, _, hrestored, r, hr, hmirrors, hnew⟩

end Sample

end PatchouliLib
