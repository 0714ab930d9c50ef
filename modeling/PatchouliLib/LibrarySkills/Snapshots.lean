import PatchouliLib.Content.Manifests
import PatchouliLib.Foundation.Dictionary
import PatchouliLib.Foundation.JsonReading
import PatchouliLib.LibrarySkills.Service

/-!
# The snapshot of a skill package

A package is a list of files whose paths share one tree: two paths that differ in
case only name one file, and a file is no directory.  The snapshot puts the files
in the order of their encoded paths and digests them in this order.

## Main definitions

* `SkillSnapshot`, `buildSkillSnapshot` — the snapshot of a list of paths and contents.
* `properAncestors` — the directories a path goes through.
* `FitsPackage`, `IsTree`, `HasSkillFile` — the checks on the entries, all in all.

## Main results

* `mem_properAncestors` — the directories of a path are its beginnings before a slash.
* `buildSkillSnapshot_ok` — **the snapshot of a list of files is the sorted list of its entries.**
* `buildSkillSnapshot_perm` — **the order of the files does not matter.**
* `buildSkillSnapshot_sound` — the paths share one tree, up to case.
* `skillFiles_eq_of_digest` — what is digested tells the files.
-/

namespace PatchouliLib

open Foundation

/-! ### The snapshot -/

structure SkillSnapshot where
  files : List (Text × Bytes)
  snapshotSha256 : Bytes
  totalSizeBytes : ℕ
deriving DecidableEq

def skillDomain : Bytes := utf8Encode "patchouli-library-skill-v1" ++ [0]

/-- The path of the file that every package has. -/
def skillFileName : Text := "SKILL.md"

/-- The state of the loop over the given files. -/
structure SkillLoop where
  entries : List (Text × Bytes) := []
  seen : List Text := []
  size : ℕ := 0

/-- `"/".join(path.split("/")[:i])` for the proper beginnings of a path. -/
def properAncestors (path : Text) : List Text :=
  let parts := path.splitOn '/'
  (List.range (parts.length - 1)).map fun i => ['/'].intercalate (parts.take (i + 1))

/-- The order of the encoded paths. -/
def pathLe (a b : Text × Bytes) : Prop := utf8Encode a.1 ≤ utf8Encode b.1

instance : DecidableRel pathLe := fun a b => by
  unfold pathLe
  infer_instance

section

variable [Platform]

/-- One round of the loop over the given files. -/
def skillStep (s : SkillLoop) (item : Text × Bytes) : Except Err SkillLoop := do
  Fallible.check (s.entries.length < maxFilesPerPage) .validation
  let path ← normalizeSkillPath item.1
  let content := item.2
  let key := collisionKey path
  Fallible.check (key ∉ s.seen ∧ content.length ≤ maxFileBytes) .validation
  let size := s.size + content.length
  Fallible.check (size ≤ maxPageBytes) .validation
  pure ⟨Dict.set s.entries path content, key :: s.seen, size⟩

/-- The file that describes the package. -/
def skillEntryText (entries : List (Text × Bytes)) : Option Text :=
  (entries.find? fun entry => decide (entry.1 = skillFileName)).bind fun entry =>
    utf8Decode entry.2

/-- `[path, len(body), sha256(body).hexdigest()]`. -/
def skillIdentity (entry : Text × Bytes) : Json :=
  .arr [.str entry.1, .num entry.2.length, .str (hex (sha256 entry.2))]

/-- The bytes that the digest of a package covers. -/
def skillSource (files : List (Text × Bytes)) : Bytes :=
  skillDomain ++ utf8Encode (Json.dumps false (.arr (files.map skillIdentity)))

/-- Validate a complete package and hash its files. -/
def buildSkillSnapshot (files : List (Text × Bytes)) : Except Err SkillSnapshot := do
  let s ← files.foldlM skillStep {}
  Fallible.check (∀ path ∈ s.seen, ∀ ancestor ∈ properAncestors path, ancestor ∉ s.seen) .validation
  let entry ← Fallible.get (skillEntryText s.entries) .validation
  Fallible.check (strip entry ≠ [] ∧ Char.ofNat 0 ∉ entry) .validation
  let ordered := s.entries.insertionSort pathLe
  pure ⟨ordered, sha256 (skillSource ordered), s.size⟩

end

/-! ### Paths -/

theorem intercalate_append {xs ys : List Text} (hxs : xs ≠ []) (hys : ys ≠ []) :
    ['/'].intercalate (xs ++ ys) = ['/'].intercalate xs ++ '/' :: ['/'].intercalate ys := by
  induction xs with
  | nil => exact absurd rfl hxs
  | cons x xs ih =>
    cases xs with
    | nil =>
      rw [List.singleton_append, List.intercalate_cons_of_ne_nil hys, List.intercalate_singleton]
      simp
    | cons x' xs =>
      rw [List.cons_append, List.intercalate_cons_of_ne_nil (by simp),
        ih (List.cons_ne_nil _ _), List.intercalate_cons_of_ne_nil (List.cons_ne_nil x' xs)]
      simp

/-- **The directories of a path** are its beginnings before a slash. -/
theorem mem_properAncestors {path ancestor : Text} :
    ancestor ∈ properAncestors path ↔ ∃ rest, path = ancestor ++ '/' :: rest := by
  rw [properAncestors, List.mem_map]
  constructor
  · rintro ⟨i, hi, rfl⟩
    have hi : i < (path.splitOn '/').length - 1 := List.mem_range.mp hi
    have htake : (path.splitOn '/').take (i + 1) ≠ [] := by
      intro h
      have hlength := congrArg List.length h
      rw [List.length_take, List.length_nil] at hlength
      omega
    have hdrop : (path.splitOn '/').drop (i + 1) ≠ [] := by
      intro h
      have hlength := congrArg List.length h
      rw [List.length_drop, List.length_nil] at hlength
      omega
    refine ⟨['/'].intercalate ((path.splitOn '/').drop (i + 1)), ?_⟩
    rw [← intercalate_append htake hdrop, List.take_append_drop]
    exact (List.intercalate_splitOn '/').symm
  · rintro ⟨rest, rfl⟩
    have hsplit := List.splitOn_append_cons_self (a := '/') ancestor rest
    have hpos := List.length_pos_iff.mpr (List.splitOn_ne_nil '/' ancestor)
    have hrest := List.length_pos_iff.mpr (List.splitOn_ne_nil '/' rest)
    refine ⟨(ancestor.splitOn '/').length - 1, List.mem_range.mpr ?_, ?_⟩
    · rw [hsplit, List.length_append]
      omega
    · rw [hsplit, Nat.sub_add_cancel hpos, List.take_left]
      exact List.intercalate_splitOn '/'

/-! ### The loop over the files -/

/-- The size of all files together. -/
def packageSize (entries : List (Text × Bytes)) : ℕ := (entries.map (·.2.length)).sum

theorem packageSize_perm {entries entries' : List (Text × Bytes)} (h : entries.Perm entries') :
    packageSize entries = packageSize entries' := by
  rw [packageSize, packageSize]
  exact (h.map _).sum_eq

theorem packageSize_append (entries entries' : List (Text × Bytes)) :
    packageSize (entries ++ entries') = packageSize entries + packageSize entries' := by
  rw [packageSize, List.map_append, List.sum_append, packageSize, packageSize]

section

variable [Platform]

/-- The entry of one given file. -/
def skillEntry (item : Text × Bytes) : Except Err (Text × Bytes) := do
  let path ← normalizeSkillPath item.1
  pure (path, item.2)

theorem skillEntry_ok {item entry : Text × Bytes} :
    skillEntry item = .ok entry ↔ normalizeSkillPath item.1 = .ok entry.1 ∧ item.2 = entry.2 := by
  simp only [skillEntry, Fallible.bind_ok, Fallible.pure_ok]
  constructor
  · rintro ⟨path, hpath, rfl⟩
    exact ⟨hpath, rfl⟩
  · rintro ⟨hpath, hcontent⟩
    exact ⟨entry.1, hpath, by rw [hcontent]⟩

/-- Paths are compared up to case. -/
def pathKeys (entries : List (Text × Bytes)) : List Text := entries.map fun entry => collisionKey entry.1

/-- The checks of the loop, all in all. -/
structure FitsPackage (entries : List (Text × Bytes)) : Prop where
  count : entries.length ≤ maxFilesPerPage
  distinct : (pathKeys entries).Nodup
  small : ∀ entry ∈ entries, entry.2.length ≤ maxFileBytes
  bounded : packageSize entries ≤ maxPageBytes

/-- The state of the loop after these entries. -/
def loopOf (entries : List (Text × Bytes)) : SkillLoop :=
  ⟨entries, (pathKeys entries).reverse, packageSize entries⟩

theorem FitsPackage.nil : FitsPackage [] :=
  ⟨Nat.zero_le _, List.nodup_nil, fun _ h => absurd h List.not_mem_nil, Nat.zero_le _⟩

theorem FitsPackage.left {entries rest : List (Text × Bytes)} (h : FitsPackage (entries ++ rest)) :
    FitsPackage entries := by
  have hcount := h.count
  have hdistinct := h.distinct
  have hbounded := h.bounded
  rw [List.length_append] at hcount
  rw [pathKeys, List.map_append] at hdistinct
  rw [packageSize_append] at hbounded
  exact ⟨by omega, hdistinct.of_append_left, fun e he => h.small e (List.mem_append_left rest he),
    by omega⟩

theorem FitsPackage.perm {entries entries' : List (Text × Bytes)} (hperm : entries.Perm entries')
    (h : FitsPackage entries) : FitsPackage entries' :=
  ⟨hperm.length_eq ▸ h.count, (hperm.map _).nodup_iff.mp h.distinct,
    fun e he => h.small e (hperm.mem_iff.mpr he), packageSize_perm hperm ▸ h.bounded⟩

/-- A path with a new key is a new path. -/
theorem set_of_new {entries : List (Text × Bytes)} {entry : Text × Bytes}
    (hnew : collisionKey entry.1 ∉ pathKeys entries) :
    Dict.set entries entry.1 entry.2 = entries ++ [entry] := by
  have hpath : entries.any (·.1 = entry.1) = false := by
    rw [Bool.eq_false_iff]
    intro h
    obtain ⟨value, hmem⟩ := Dict.mem_keys.mp (Dict.any_key.mp h)
    exact hnew (List.mem_map.mpr ⟨_, hmem, rfl⟩)
  rw [Dict.set, hpath]
  rfl

theorem skillStep_ok {entries : List (Text × Bytes)} (hfits : FitsPackage entries)
    {item : Text × Bytes} {t : SkillLoop} :
    skillStep (loopOf entries) item = .ok t ↔
      ∃ entry, skillEntry item = .ok entry ∧ FitsPackage (entries ++ [entry]) ∧
        t = loopOf (entries ++ [entry]) := by
  have hkeys (entry : Text × Bytes) :
      pathKeys (entries ++ [entry]) = pathKeys entries ++ [collisionKey entry.1] := by
    rw [pathKeys, List.map_append, pathKeys]
    rfl
  have hsize (entry : Text × Bytes) :
      packageSize (entries ++ [entry]) = packageSize entries + entry.2.length := by
    rw [packageSize_append]
    simp [packageSize]
  have hnext (path : Text) (content : Bytes) (hnew : collisionKey path ∉ pathKeys entries) :
      ⟨Dict.set entries path content, collisionKey path :: (pathKeys entries).reverse,
        packageSize entries + content.length⟩ = loopOf (entries ++ [(path, content)]) := by
    rw [loopOf, hkeys, hsize, ← set_of_new hnew, List.reverse_append]
    rfl
  obtain ⟨path, content⟩ := item
  simp only [skillStep, Fallible.bind_ok, Fallible.check_ok, Fallible.pure_ok, exists_and_left,
    exists_const]
  rw [show (loopOf entries).entries = entries from rfl,
    show (loopOf entries).seen = (pathKeys entries).reverse from rfl,
    show (loopOf entries).size = packageSize entries from rfl]
  simp only [List.mem_reverse]
  constructor
  · rintro ⟨hcount, path', hpath, ⟨hnew, hsmall⟩, hbounded, rfl⟩
    refine ⟨(path', content), skillEntry_ok.mpr ⟨hpath, rfl⟩, ⟨?_, ?_, ?_, ?_⟩, hnext _ _ hnew⟩
    · rw [List.length_append]
      exact hcount
    · rw [hkeys, ← List.concat_eq_append]
      exact hfits.distinct.concat hnew
    · intro e he
      rcases List.mem_append.mp he with he | he
      · exact hfits.small e he
      · rw [List.mem_singleton.mp he]
        exact hsmall
    · rw [hsize]
      exact hbounded
  · rintro ⟨⟨path', content'⟩, hentry, hfits', rfl⟩
    obtain ⟨hpath, rfl⟩ := skillEntry_ok.mp hentry
    have hcount := hfits'.count
    have hdistinct := hfits'.distinct
    have hbounded := hfits'.bounded
    rw [List.length_append] at hcount
    rw [hkeys, List.nodup_append] at hdistinct
    rw [hsize] at hbounded
    have hnew : collisionKey path' ∉ pathKeys entries := fun hmem =>
      hdistinct.2.2 _ hmem _ (List.mem_singleton.mpr rfl) rfl
    have hsmall := hfits'.small _ (List.mem_append_right entries (List.mem_singleton.mpr rfl))
    exact ⟨hcount, path', hpath, ⟨hnew, hsmall⟩, hbounded, hnext _ _ hnew⟩

/-- **The checks of the loop, all in all.** -/
theorem foldlM_skillStep_ok {files entries : List (Text × Bytes)} (hfits : FitsPackage entries)
    {t : SkillLoop} :
    files.foldlM skillStep (loopOf entries) = .ok t ↔
      ∃ new, files.mapM skillEntry = .ok new ∧ FitsPackage (entries ++ new) ∧
        t = loopOf (entries ++ new) := by
  induction files generalizing entries with
  | nil =>
    rw [List.foldlM_nil, List.mapM_nil, Fallible.pure_ok]
    constructor
    · rintro rfl
      exact ⟨[], rfl, by rwa [List.append_nil], by rw [List.append_nil]⟩
    · rintro ⟨new, hnew, -, rfl⟩
      rw [← Fallible.pure_ok.mp hnew, List.append_nil]
  | cons item files ih =>
    rw [List.foldlM_cons, Fallible.bind_ok]
    constructor
    · rintro ⟨u, hstep, hrest⟩
      obtain ⟨entry, hentry, hfits', rfl⟩ := (skillStep_ok hfits).mp hstep
      obtain ⟨new, hnew, hall, rfl⟩ := (ih hfits').mp hrest
      rw [List.append_assoc, List.singleton_append] at hall ⊢
      exact ⟨entry :: new, Fallible.mapM_cons_ok.mpr ⟨entry, new, hentry, hnew, rfl⟩, hall, rfl⟩
    · rintro ⟨all, hall, hfits', rfl⟩
      obtain ⟨entry, new, hentry, hnew, rfl⟩ := Fallible.mapM_cons_ok.mp hall
      have happend : entries ++ entry :: new = entries ++ [entry] ++ new := by simp
      rw [happend] at hfits'
      refine ⟨_, (skillStep_ok hfits).mpr ⟨entry, hentry, hfits'.left, rfl⟩, ?_⟩
      exact (ih hfits'.left).mpr ⟨new, hnew, hfits', congrArg loopOf happend⟩

/-! ### The snapshot of a list of files -/

/-- No file is a directory, up to case. -/
def IsTree (entries : List (Text × Bytes)) : Prop :=
  ∀ path ∈ pathKeys entries, ∀ ancestor ∈ properAncestors path, ancestor ∉ pathKeys entries

/-- The package describes itself in a text. -/
def HasSkillFile (entries : List (Text × Bytes)) : Prop :=
  ∃ entry ∈ entries, entry.1 = skillFileName ∧
    ∃ text, utf8Decode entry.2 = some text ∧ strip text ≠ [] ∧ Char.ofNat 0 ∉ text

/-- The snapshot of entries in any order. -/
def snapshotOf (entries : List (Text × Bytes)) : SkillSnapshot :=
  ⟨entries.insertionSort pathLe, sha256 (skillSource (entries.insertionSort pathLe)),
    packageSize entries⟩

theorem FitsPackage.nodup_keys {entries : List (Text × Bytes)} (h : FitsPackage entries) :
    (Dict.keys entries).Nodup := by
  have hkeys : pathKeys entries = (Dict.keys entries).map collisionKey := by
    rw [pathKeys, Dict.keys, List.map_map]
    rfl
  have hdistinct := h.distinct
  rw [hkeys] at hdistinct
  exact .of_map _ hdistinct

/-- **The snapshot of a list of files is the sorted list of its entries.** -/
theorem buildSkillSnapshot_ok {files : List (Text × Bytes)} {snapshot : SkillSnapshot} :
    buildSkillSnapshot files = .ok snapshot ↔
      ∃ entries, files.mapM skillEntry = .ok entries ∧ FitsPackage entries ∧ IsTree entries ∧
        HasSkillFile entries ∧ snapshot = snapshotOf entries := by
  have hloop {t : SkillLoop} := @foldlM_skillStep_ok _ files [] .nil t
  simp only [buildSkillSnapshot, Fallible.bind_ok, Fallible.check_ok, Fallible.get_ok,
    Fallible.pure_ok, exists_and_left, exists_const]
  constructor
  · rintro ⟨t, ht, htree, entry, hentry, hstrip, rfl⟩
    obtain ⟨entries, hentries, hfits, rfl⟩ := hloop.mp ht
    rw [List.nil_append] at hfits htree hentry ⊢
    refine ⟨entries, hentries, hfits, ?_, ?_, rfl⟩
    · simpa [loopOf, IsTree] using htree
    · obtain ⟨item, hfind, htext⟩ := Option.bind_eq_some_iff.mp hentry
      obtain ⟨hmem, hname⟩ := (Dict.find?_key hfits.nodup_keys).mp hfind
      exact ⟨item, hmem, hname, entry, htext, hstrip⟩
  · rintro ⟨entries, hentries, hfits, htree, ⟨item, hmem, hname, text, htext, hstrip⟩, rfl⟩
    refine ⟨loopOf entries, hloop.mpr ⟨entries, hentries, hfits, rfl⟩, ?_, text, ?_, hstrip, rfl⟩
    · simpa [loopOf, IsTree] using htree
    · exact Option.bind_eq_some_iff.mpr
        ⟨item, (Dict.find?_key hfits.nodup_keys).mpr ⟨hmem, hname⟩, htext⟩

theorem buildSkillSnapshot_raises (files : List (Text × Bytes)) :
    Fallible.RaisesOnly .validation (buildSkillSnapshot files) := by
  have hpath (value : Text) : Fallible.RaisesOnly .validation (normalizeSkillPath value) :=
    .bind (.check _) fun _ => .bind (.check _) fun _ =>
      .bind (.mapM normalizeFileName_raises _) fun _ => .ok _
  have hstep (s : SkillLoop) (item : Text × Bytes) :
      Fallible.RaisesOnly .validation (skillStep s item) :=
    .bind (.check _) fun _ => .bind (hpath _) fun _ => .bind (.check _) fun _ =>
      .bind (.check _) fun _ => .ok _
  exact .bind (.foldlM hstep files {}) fun _ => .bind (.check _) fun _ => .bind (.get _) fun _ =>
    .bind (.check _) fun _ => .ok _

instance : Std.Total pathLe := ⟨fun a b => List.le_total (utf8Encode a.1) (utf8Encode b.1)⟩

instance : IsTrans (Text × Bytes) pathLe := ⟨fun _ _ _ hab hbc => List.le_trans hab hbc⟩

/-- The order of the entries is forgotten. -/
theorem snapshotOf_perm {entries entries' : List (Text × Bytes)} (hfits : FitsPackage entries)
    (hperm : entries.Perm entries') : snapshotOf entries = snapshotOf entries' := by
  have hsorted : entries.insertionSort pathLe = entries'.insertionSort pathLe := by
    refine insertionSort_eq_of_perm_of_antisymm hperm fun a ha b hb hab hba => ?_
    have hpath : a.1 = b.1 := utf8Encode_injective (List.le_antisymm hab hba)
    exact Dict.eq_of_mem hfits.nodup_keys ha hb hpath
  rw [snapshotOf, snapshotOf, hsorted, packageSize_perm hperm]

/-- A snapshot of the files is one of the rearranged files. -/
theorem buildSkillSnapshot_of_perm {files files' : List (Text × Bytes)} (hperm : files.Perm files')
    {snapshot : SkillSnapshot} (h : buildSkillSnapshot files = .ok snapshot) :
    buildSkillSnapshot files' = .ok snapshot := by
  obtain ⟨entries, hentries, hfits, htree, ⟨entry, hentry, hskill⟩, rfl⟩ := buildSkillSnapshot_ok.mp h
  obtain ⟨entries', hentries', hperm'⟩ := Fallible.mapM_perm hperm hentries
  have hkeys : (pathKeys entries).Perm (pathKeys entries') := hperm'.map _
  refine buildSkillSnapshot_ok.mpr ⟨entries', hentries', hfits.perm hperm', ?_,
    ⟨entry, hperm'.mem_iff.mp hentry, hskill⟩, snapshotOf_perm hfits hperm'⟩
  intro path hpath ancestor hancestor hmem
  exact htree path (hkeys.mem_iff.mpr hpath) ancestor hancestor (hkeys.mem_iff.mpr hmem)

/-- **The order of the files does not matter.** -/
theorem buildSkillSnapshot_perm {files files' : List (Text × Bytes)} (hperm : files.Perm files') :
    buildSkillSnapshot files = buildSkillSnapshot files' :=
  Fallible.eq_of_ok_iff (buildSkillSnapshot_raises files) (buildSkillSnapshot_raises files')
    fun _ => ⟨buildSkillSnapshot_of_perm hperm, buildSkillSnapshot_of_perm hperm.symm⟩

/-! ### One tree -/

/-- Normalization and case folding do not reach across a slash. -/
theorem collisionKey_slash (hnfc : ∀ a b : Text, nfc (a ++ '/' :: b) = nfc a ++ '/' :: nfc b)
    (hfold : ∀ a b : Text, Platform.casefold (a ++ '/' :: b) =
      Platform.casefold a ++ '/' :: Platform.casefold b) (a b : Text) :
    collisionKey (a ++ '/' :: b) = collisionKey a ++ '/' :: collisionKey b := by
  rw [collisionKey, hfold, hnfc, collisionKey, collisionKey]

/-- **The files of a package share one tree**: up to case no path comes twice, and no path is a
directory of another. -/
theorem buildSkillSnapshot_sound
    (hnfc : ∀ a b : Text, nfc (a ++ '/' :: b) = nfc a ++ '/' :: nfc b)
    (hfold : ∀ a b : Text, Platform.casefold (a ++ '/' :: b) =
      Platform.casefold a ++ '/' :: Platform.casefold b)
    {files : List (Text × Bytes)} {snapshot : SkillSnapshot}
    (h : buildSkillSnapshot files = .ok snapshot) :
    ∃ entries, files.mapM skillEntry = .ok entries ∧
      (entries.map fun entry => collisionKey entry.1).Nodup ∧
      ∀ a ∈ entries, ∀ b ∈ entries, ∀ rest : Text, b.1 ≠ a.1 ++ '/' :: rest ∧
        collisionKey b.1 ≠ collisionKey a.1 ++ '/' :: rest := by
  obtain ⟨entries, hentries, hfits, htree, -, -⟩ := buildSkillSnapshot_ok.mp h
  have hkey : ∀ a ∈ entries, ∀ b ∈ entries, ∀ rest : Text,
      collisionKey b.1 ≠ collisionKey a.1 ++ '/' :: rest := fun a ha b hb rest heq =>
    htree _ (List.mem_map_of_mem hb) _ (mem_properAncestors.mpr ⟨rest, heq⟩)
      (List.mem_map_of_mem ha)
  refine ⟨entries, hentries, hfits.distinct, fun a ha b hb rest => ⟨fun heq => ?_, hkey a ha b hb rest⟩⟩
  refine hkey a ha b hb (collisionKey rest) ?_
  rw [heq, collisionKey_slash hnfc hfold]

/-! ### The digest -/

/-- The identity of an entry tells it, when the digest tells the content. -/
theorem skillIdentity_inj {contents : Set Bytes} (hcontents : Set.InjOn sha256 contents)
    {a b : Text × Bytes} (ha : a.2 ∈ contents) (hb : b.2 ∈ contents)
    (h : skillIdentity a = skillIdentity b) : a = b := by
  simp only [skillIdentity, Json.arr.injEq, List.cons.injEq, Json.str.injEq, and_true] at h
  exact Prod.ext h.1 (hcontents ha hb (hex_injective h.2.2))

/-- **What is digested tells the files.** -/
theorem skillFiles_eq_of_source {files files' : List (Text × Bytes)} {contents : Set Bytes}
    (hcontents : Set.InjOn sha256 contents) (hfiles : ∀ entry ∈ files, entry.2 ∈ contents)
    (hfiles' : ∀ entry ∈ files', entry.2 ∈ contents)
    (h : skillSource files = skillSource files') : files = files' := by
  have htext := utf8Encode_injective (List.append_cancel_left h)
  have hidentity := Json.arr.inj (Json.dumps_injective false htext)
  clear h htext
  induction files generalizing files' with
  | nil => exact (List.map_eq_nil_iff.mp hidentity.symm).symm
  | cons entry files ih =>
    cases files' with
    | nil => exact absurd hidentity (by simp)
    | cons entry' files' =>
      rw [List.map_cons, List.map_cons, List.cons.injEq] at hidentity
      rw [List.forall_mem_cons] at hfiles hfiles'
      rw [skillIdentity_inj hcontents hfiles.1 hfiles'.1 hidentity.1,
        ih hfiles.2 hfiles'.2 hidentity.2]

/-- The contents of these files. -/
def packageContents (files : List (Text × Bytes)) : Set Bytes :=
  {content | ∃ entry ∈ files, entry.2 = content}

/-- **Packages with one digest have the same files.** -/
theorem skillFiles_eq_of_digest {files files' : List (Text × Bytes)}
    {snapshot snapshot' : SkillSnapshot} (h : buildSkillSnapshot files = .ok snapshot)
    (h' : buildSkillSnapshot files' = .ok snapshot')
    (hcontents : Set.InjOn sha256 (packageContents (snapshot.files ++ snapshot'.files)))
    (hsources : Set.InjOn sha256 {skillSource snapshot.files, skillSource snapshot'.files})
    (hdigest : snapshot.snapshotSha256 = snapshot'.snapshotSha256) :
    snapshot.files = snapshot'.files := by
  obtain ⟨entries, -, -, -, -, rfl⟩ := buildSkillSnapshot_ok.mp h
  obtain ⟨entries', -, -, -, -, rfl⟩ := buildSkillSnapshot_ok.mp h'
  refine skillFiles_eq_of_source hcontents (fun entry hentry => ?_) (fun entry hentry => ?_)
    (hsources (.inl rfl) (.inr rfl) hdigest)
  · exact ⟨entry, List.mem_append_left _ hentry, rfl⟩
  · exact ⟨entry, List.mem_append_right _ hentry, rfl⟩

/-- A snapshot holds the given files under their normalized paths. -/
theorem skillFiles_perm {files : List (Text × Bytes)} {snapshot : SkillSnapshot}
    (h : buildSkillSnapshot files = .ok snapshot) :
    (files.map fun item => (normalizeSkillPath item.1, item.2)).Perm
      (snapshot.files.map fun entry => (.ok entry.1, entry.2)) := by
  obtain ⟨entries, hentries, -, -, -, rfl⟩ := buildSkillSnapshot_ok.mp h
  have hmap : files.map (fun item => (normalizeSkillPath item.1, item.2)) =
      entries.map fun entry => (.ok entry.1, entry.2) := by
    refine Fallible.map_eq_map_of_mapM (fun item _ entry hentry => ?_) hentries
    obtain ⟨hpath, hcontent⟩ := skillEntry_ok.mp hentry
    rw [hpath, hcontent]
  rw [hmap]
  exact (List.perm_insertionSort pathLe entries).symm.map _

/-- **The snapshot of a package**: its files share one tree, their order does not matter, and the
digest tells them. -/
theorem buildSkillSnapshot_exact
    (hnfc : ∀ a b : Text, nfc (a ++ '/' :: b) = nfc a ++ '/' :: nfc b)
    (hfold : ∀ a b : Text, Platform.casefold (a ++ '/' :: b) =
      Platform.casefold a ++ '/' :: Platform.casefold b) :
    (∀ files snapshot, buildSkillSnapshot files = .ok snapshot →
      ∃ entries, files.mapM skillEntry = .ok entries ∧
        (entries.map fun entry => collisionKey entry.1).Nodup ∧
        ∀ a ∈ entries, ∀ b ∈ entries, ∀ rest : Text, b.1 ≠ a.1 ++ '/' :: rest ∧
          collisionKey b.1 ≠ collisionKey a.1 ++ '/' :: rest) ∧
    (∀ files files', files.Perm files' → buildSkillSnapshot files = buildSkillSnapshot files') ∧
    (∀ files files' snapshot snapshot', buildSkillSnapshot files = .ok snapshot →
      buildSkillSnapshot files' = .ok snapshot' →
      Set.InjOn sha256 (packageContents (snapshot.files ++ snapshot'.files)) →
      Set.InjOn sha256 {skillSource snapshot.files, skillSource snapshot'.files} →
      snapshot.snapshotSha256 = snapshot'.snapshotSha256 →
      (files.map fun item => (normalizeSkillPath item.1, item.2)).Perm
        (files'.map fun item => (normalizeSkillPath item.1, item.2))) := by
  refine ⟨fun files snapshot => buildSkillSnapshot_sound hnfc hfold,
    fun files files' => buildSkillSnapshot_perm, ?_⟩
  intro files files' snapshot snapshot' h h' hcontents hsources hdigest
  have hsame := skillFiles_eq_of_digest h h' hcontents hsources hdigest
  exact (skillFiles_perm h).trans (hsame ▸ (skillFiles_perm h').symm)

end

section Sample

attribute [local instance] shaPlatform

def sampleSkillFiles : List (Text × Bytes) :=
  [("scripts/run.py", [49]), ("SKILL.md", [104, 105])]

theorem buildSkillSnapshot_exact_sample :
    (∃ entries, sampleSkillFiles.mapM skillEntry = .ok entries ∧
        (entries.map fun entry => collisionKey entry.1).Nodup ∧
        ∀ a ∈ entries, ∀ b ∈ entries, ∀ rest : Text, b.1 ≠ a.1 ++ '/' :: rest ∧
          collisionKey b.1 ≠ collisionKey a.1 ++ '/' :: rest) ∧
      buildSkillSnapshot sampleSkillFiles = buildSkillSnapshot sampleSkillFiles.reverse ∧
      (sampleSkillFiles.map fun item => (normalizeSkillPath item.1, item.2)).Perm
        (sampleSkillFiles.reverse.map fun item => (normalizeSkillPath item.1, item.2)) := by
  have hfits : FitsPackage sampleSkillFiles :=
    ⟨by decide, by decide +kernel, by decide, by decide⟩
  have hdescribed : HasSkillFile sampleSkillFiles :=
    ⟨("SKILL.md", [104, 105]), by decide, by decide, ['h', 'i'], by decide +kernel⟩
  have hbuilt : buildSkillSnapshot sampleSkillFiles = .ok (snapshotOf sampleSkillFiles) := by
    refine buildSkillSnapshot_ok.mpr ⟨sampleSkillFiles, ?_, hfits, ?_, hdescribed, rfl⟩
    · decide +kernel
    · intro path hpath ancestor hancestor
      revert ancestor path
      decide +kernel
  have hbuilt' : buildSkillSnapshot sampleSkillFiles.reverse = .ok (snapshotOf sampleSkillFiles) :=
    buildSkillSnapshot_of_perm (List.reverse_perm _).symm hbuilt
  obtain ⟨hsound, hperm, hdigest⟩ := buildSkillSnapshot_exact (fun _ _ => rfl)
    (fun _ _ => List.map_append)
  refine ⟨hsound _ _ hbuilt, hperm _ _ (List.reverse_perm _).symm,
    hdigest _ _ _ _ hbuilt hbuilt' ?_ ?_ rfl⟩
  · have hdistinct : sha256 [49] ≠ sha256 [104, 105] := by decide +kernel
    have hcontents : packageContents ((snapshotOf sampleSkillFiles).files ++
        (snapshotOf sampleSkillFiles).files) ⊆ {[49], [104, 105]} := by
      rintro content ⟨entry, hentry, rfl⟩
      have hfiles : (snapshotOf sampleSkillFiles).files.Perm sampleSkillFiles :=
        List.perm_insertionSort _ _
      rw [List.mem_append, or_self, hfiles.mem_iff] at hentry
      rcases List.mem_cons.mp hentry with rfl | hentry
      · exact .inl rfl
      · rw [List.mem_singleton.mp hentry]
        exact .inr rfl
    exact (Set.injOn_pair.mpr fun h => absurd h hdistinct).mono hcontents
  · rw [Set.pair_eq_singleton]
    exact Set.injOn_singleton _ _

end Sample

end PatchouliLib
