import PatchouliLib.Admin.FileMerge
import PatchouliLib.Content.Manifests

/-!
# Merges of disjoint changes

A merge reads and writes the files that its changes mention, and no other file.  So
two merges whose changes mention different files make the same snapshot in either order.

## Main definitions

* `FileChanges.mentioned` — the names that the changes of a save mention.
* `FileManifest.contents` — the files of a snapshot, as a merge takes them.

## Main results

* `mem_referenceFiles_of_not_mentioned` — what is not mentioned stays as it is.
* `mem_referenceFiles_congr` — what is mentioned depends on mentioned files only.
* `contents_merged` — a merged snapshot holds the reference result.
* `merged_comm` — **merges of disjoint changes commute.**
-/

namespace PatchouliLib

open Foundation

/-! ### Mentioned names -/

/-- The names that the changes of a save mention: removed, renamed from or to, edited or
uploaded. -/
def FileChanges.mentioned (changes : FileChanges) (uploads : List (Text × Bytes)) : List Text :=
  changes.remove ++ changes.renames.map (·.1) ++ changes.renames.map (·.2) ++
    Dict.keys (changes.incoming uploads)

section

variable {changes : FileChanges} {uploads current current' : List (Text × Bytes)} {name : Text}
  {content : Bytes}

theorem FileChanges.not_mentioned : name ∉ changes.mentioned uploads ↔ name ∉ changes.remove ∧
    name ∉ changes.renames.map (·.1) ∧ name ∉ changes.renames.map (·.2) ∧
    name ∉ Dict.keys (changes.incoming uploads) := by
  simp only [mentioned, List.mem_append, not_or, and_assoc]

theorem mem_referenceFiles_iff : (name, content) ∈ referenceFiles current changes uploads ↔
    (name, content) ∈ changes.incoming uploads ∨
      name ∉ Dict.keys (changes.incoming uploads) ∧ ∃ source, (source, content) ∈ current ∧
        source ∉ changes.remove ∧ changes.finalName source = name := by
  simp only [referenceFiles, survivors, FileChanges.renamed, List.mem_append, List.mem_filter,
    List.mem_map, decide_eq_true_eq, Prod.mk.injEq, Prod.exists]
  constructor
  · rintro (⟨⟨source, _, ⟨hmem, hremove⟩, hname, rfl⟩, hincoming⟩ | hmem)
    · exact .inr ⟨hincoming, source, hmem, hremove, hname⟩
    · exact .inl hmem
  · rintro (hmem | ⟨hincoming, source, hmem, hremove, hname⟩)
    · exact .inr hmem
    · exact .inl ⟨⟨source, content, ⟨hmem, hremove⟩, hname, rfl⟩, hincoming⟩

/-- **What is not mentioned stays as it is.** -/
theorem mem_referenceFiles_of_not_mentioned (hsources : (changes.renames.map (·.1)).Nodup)
    (h : name ∉ changes.mentioned uploads) :
    (name, content) ∈ referenceFiles current changes uploads ↔ (name, content) ∈ current := by
  obtain ⟨hremove, hsource, htarget, hincoming⟩ := FileChanges.not_mentioned.mp h
  rw [mem_referenceFiles_iff]
  constructor
  · rintro (hmem | ⟨-, source, hmem, -, hname⟩)
    · exact absurd (Dict.key_mem hmem) hincoming
    · rcases changes.finalName_cases hsources source with hrename | ⟨-, hsame⟩
      · rw [hname] at hrename
        exact absurd (List.mem_map.mpr ⟨_, hrename, rfl⟩) htarget
      · rwa [← hname, hsame]
  · exact fun hmem => .inr ⟨hincoming, name, hmem, hremove, FileChanges.finalName_of_notMem hsource⟩

/-- **What is mentioned depends on mentioned files only.** -/
theorem mem_referenceFiles_congr (hsources : (changes.renames.map (·.1)).Nodup)
    (h : name ∈ changes.mentioned uploads)
    (hsame : ∀ other ∈ changes.mentioned uploads, ∀ content,
      (other, content) ∈ current ↔ (other, content) ∈ current') :
    (name, content) ∈ referenceFiles current changes uploads ↔
      (name, content) ∈ referenceFiles current' changes uploads := by
  rw [mem_referenceFiles_iff, mem_referenceFiles_iff]
  refine or_congr Iff.rfl (and_congr_right fun _ => exists_congr fun source => ?_)
  rw [and_comm, and_comm (a := (source, content) ∈ current')]
  refine and_congr_right fun ⟨_, hname⟩ => ?_
  -- the source is renamed, or it has the name already
  rcases changes.finalName_cases hsources source with hrename | ⟨-, hsource⟩
  · refine hsame source ?_ content
    simp only [FileChanges.mentioned, List.mem_append]
    exact .inl (.inl (.inr (List.mem_map.mpr ⟨_, hrename, rfl⟩)))
  · rw [← hname, hsource] at h
    exact hsame source h content

/-- Two changes that mention different names make the same files in either order. -/
theorem referenceFiles_comm {changes' : FileChanges} {uploads' files files' : List (Text × Bytes)}
    (hsources : (changes.renames.map (·.1)).Nodup)
    (hsources' : (changes'.renames.map (·.1)).Nodup)
    (hdisjoint : (changes.mentioned uploads).Disjoint (changes'.mentioned uploads'))
    (hfiles : files.Perm (referenceFiles current changes uploads))
    (hfiles' : files'.Perm (referenceFiles current changes' uploads')) :
    (name, content) ∈ referenceFiles files changes' uploads' ↔
      (name, content) ∈ referenceFiles files' changes uploads := by
  by_cases h : name ∈ changes.mentioned uploads
  · -- the second merge leaves the name alone, whichever comes second
    rw [mem_referenceFiles_of_not_mentioned hsources' (hdisjoint h), hfiles.mem_iff]
    refine mem_referenceFiles_congr hsources h fun other hother content => ?_
    rw [hfiles'.mem_iff, mem_referenceFiles_of_not_mentioned hsources' (hdisjoint hother)]
  · rw [mem_referenceFiles_of_not_mentioned hsources h, hfiles'.mem_iff]
    by_cases h' : name ∈ changes'.mentioned uploads'
    · refine mem_referenceFiles_congr hsources' h' fun other hother content => ?_
      have hnot : other ∉ changes.mentioned uploads := fun hmem => hdisjoint hmem hother
      rw [hfiles.mem_iff, mem_referenceFiles_of_not_mentioned hsources hnot]
    · rw [mem_referenceFiles_of_not_mentioned hsources' h', hfiles.mem_iff,
        mem_referenceFiles_of_not_mentioned hsources h,
        mem_referenceFiles_of_not_mentioned hsources' h']

end

/-! ### Merged snapshots -/

section

variable [Platform]

/-- The files of a snapshot, as a merge takes them. -/
def FileManifest.contents (m : FileManifest) : List (Text × Bytes) :=
  m.files.map fun entry => (entry.name, entry.content)

variable {m m' m₁ m₂ m₁₂ m₂₁ : FileManifest} {changes changes' : FileChanges}
  {uploads uploads' files : List (Text × Bytes)}

/-- A snapshot is told by its files. -/
theorem FileManifest.eq_of_contents (h : m.contents.Perm m'.contents) : m = m' := by
  have hbuild := buildFileManifest_perm h
  rw [FileManifest.contents, FileManifest.contents, buildFileManifest_files,
    buildFileManifest_files] at hbuild
  exact Except.ok.inj hbuild

theorem FileManifest.keyed_contents (m : FileManifest) : (Dict.keys m.contents).Nodup := by
  have hdistinct := m.valid.distinct
  have hkeys : m.files.map (collisionKey ·.name) = (Dict.keys m.contents).map collisionKey := by
    simp only [Dict.keys, FileManifest.contents, List.map_map]
    rfl
  rw [hkeys] at hdistinct
  exact .of_map _ hdistinct

theorem FileManifest.normal_contents (m : FileManifest) :
    ∀ file ∈ m.contents, normalizeFileName file.1 = .ok file.1 := by
  intro file hfile
  obtain ⟨entry, hentry, rfl⟩ := List.mem_map.mp hfile
  exact (m.valid.entries entry hentry).1

/-- A snapshot of files under normal names holds these files. -/
theorem contents_of_normal (hnormal : ∀ file ∈ files, normalizeFileName file.1 = .ok file.1)
    (h : buildFileManifest files = .ok m) : m.contents.Perm files := by
  have hperm := normalizedFiles_perm h
  have hfiles : files.map normalizedFile =
      files.map fun file => ((.ok file.1 : Except Err Text), file.2) := by
    refine List.map_congr_left fun file hfile => ?_
    rw [normalizedFile, hnormal file hfile]
  have hcontents : (m.files.map fun entry => ((.ok entry.name : Except Err Text), entry.content)) =
      m.contents.map fun file => (.ok file.1, file.2) := by
    rw [FileManifest.contents, List.map_map]
    rfl
  rw [hfiles, hcontents] at hperm
  refine ((List.map_perm_map_iff fun file file' hsame => ?_).mp hperm).symm
  obtain ⟨hname, hcontent⟩ := Prod.mk.inj hsame
  exact Prod.ext (Except.ok.inj hname) hcontent

/-- Every file of a merge has a normal name. -/
theorem Admissible.normal (h : Admissible false m.contents changes uploads) :
    ∀ file ∈ referenceFiles m.contents changes uploads,
      normalizeFileName file.1 = .ok file.1 := by
  rintro ⟨name, content⟩ hfile
  rcases mem_referenceFiles_iff.mp hfile with hmem | ⟨-, source, hmem, -, hname⟩
  · exact h.incomingNormal _ hmem
  · rcases changes.finalName_cases h.sourcesDistinct source with hrename | ⟨-, hsame⟩
    · rw [hname] at hrename
      exact (h.renamesNormal _ hrename).2
    · rw [hsame] at hname
      subst hname
      exact m.normal_contents _ hmem

/-- **A merged snapshot holds the reference result.** -/
theorem contents_merged (h : mergeFiles m.contents changes uploads = .ok files)
    (hbuild : buildFileManifest files = .ok m') :
    Admissible false m.contents changes uploads ∧
      m'.contents.Perm (referenceFiles m.contents changes uploads) := by
  have hadmissible := (mergeFiles_ok_iff.mp h).1
  have hperm := (mergeFiles_perm m.keyed_contents h).2
  rw [buildFileManifest_perm hperm] at hbuild
  exact ⟨hadmissible, contents_of_normal hadmissible.normal hbuild⟩

/-- `m'` is the snapshot that the changes make of `m`. -/
def FileManifest.MergesTo (m : FileManifest) (changes : FileChanges)
    (uploads : List (Text × Bytes)) (m' : FileManifest) : Prop :=
  ∃ files, mergeFiles m.contents changes uploads = .ok files ∧ buildFileManifest files = .ok m'

/-- **A file that is not mentioned stays as it is.** -/
theorem FileManifest.MergesTo.kept (h : m.MergesTo changes uploads m') {name : Text}
    (hname : name ∉ changes.mentioned uploads) (content : Bytes) :
    (name, content) ∈ m'.contents ↔ (name, content) ∈ m.contents := by
  obtain ⟨files, hmerge, hbuild⟩ := h
  obtain ⟨hadmissible, hperm⟩ := contents_merged hmerge hbuild
  rw [hperm.mem_iff, mem_referenceFiles_of_not_mentioned hadmissible.sourcesDistinct hname]

/-- **Merges of disjoint changes commute.** -/
theorem merged_comm (hdisjoint : (changes.mentioned uploads).Disjoint (changes'.mentioned uploads'))
    (h₁ : m.MergesTo changes uploads m₁) (h₁₂ : m₁.MergesTo changes' uploads' m₁₂)
    (h₂ : m.MergesTo changes' uploads' m₂) (h₂₁ : m₂.MergesTo changes uploads m₂₁) :
    m₁₂ = m₂₁ := by
  obtain ⟨_, hmerge₁, hbuild₁⟩ := h₁
  obtain ⟨_, hmerge₁₂, hbuild₁₂⟩ := h₁₂
  obtain ⟨_, hmerge₂, hbuild₂⟩ := h₂
  obtain ⟨_, hmerge₂₁, hbuild₂₁⟩ := h₂₁
  obtain ⟨hadmissible₁, hperm₁⟩ := contents_merged hmerge₁ hbuild₁
  obtain ⟨hadmissible₁₂, hperm₁₂⟩ := contents_merged hmerge₁₂ hbuild₁₂
  obtain ⟨hadmissible₂, hperm₂⟩ := contents_merged hmerge₂ hbuild₂
  obtain ⟨hadmissible₂₁, hperm₂₁⟩ := contents_merged hmerge₂₁ hbuild₂₁
  refine FileManifest.eq_of_contents ?_
  rw [Dict.perm_iff m₁₂.keyed_contents m₂₁.keyed_contents]
  rintro ⟨name, content⟩
  rw [hperm₁₂.mem_iff, hperm₂₁.mem_iff]
  exact referenceFiles_comm hadmissible₁.sourcesDistinct hadmissible₂.sourcesDistinct hdisjoint
    hperm₁ hperm₂

end

end PatchouliLib
