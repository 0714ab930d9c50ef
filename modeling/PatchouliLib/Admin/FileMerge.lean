import PatchouliLib.Admin.Workspace
import PatchouliLib.Foundation.Dictionary

/-!
# Merged file changes

The merge walks through a dictionary, one change after another.  Its checks make it a
simultaneous substitution: the removed names go, every other file goes on under one
final name, and the written names take their new contents.

## Main definitions

* `FileChanges.finalName` — the name under which a file goes on.
* `FileChanges.incoming` — the files that are written.
* `referenceFiles` — the result, said at once.
* `Admissible` — the changes fit to the current files, whatever their order.

## Main results

* `removeFiles_ok`, `collectMoves_ok`, `applyIncoming_ok` — the three loops.
* `mergeFiles_ok_iff` — **a merge succeeds when its changes are admissible.**
* `mergeFiles_perm` — **its result is the reference result.**
* `mergeFiles_reference` — **a merge refuses or is the simultaneous substitution**, in
  whatever order the changes are listed.
-/

namespace PatchouliLib

open Foundation

/-! ### The reference -/

namespace FileChanges

/-- The files that are written: the edited texts, then the uploads. -/
def incoming (changes : FileChanges) (uploads : List (Text × Bytes)) : List (Text × Bytes) :=
  changes.edits.map (fun edit => (edit.1, utf8Encode edit.2)) ++ uploads

/-- The name under which a file goes on. -/
def finalName (changes : FileChanges) (name : Text) : Text :=
  ((changes.renames.find? (·.1 = name)).map (·.2)).getD name

/-- A file under its final name. -/
def renamed (changes : FileChanges) (file : Text × Bytes) : Text × Bytes :=
  (changes.finalName file.1, file.2)

/-- The same changes in another order. -/
structure Rearranged (changes changes' : FileChanges) : Prop where
  edits : changes.edits.Perm changes'.edits
  remove : changes.remove.Perm changes'.remove
  renames : changes.renames.Perm changes'.renames

end FileChanges

/-- The files that are not removed. -/
def survivors (current : List (Text × Bytes)) (changes : FileChanges) : List (Text × Bytes) :=
  current.filter (·.1 ∉ changes.remove)

/-- Drop the removed names, rename at once, then set the written names. -/
def referenceFiles (current : List (Text × Bytes)) (changes : FileChanges)
    (uploads : List (Text × Bytes)) : List (Text × Bytes) :=
  ((survivors current changes).map changes.renamed).filter
      (·.1 ∉ Dict.keys (changes.incoming uploads)) ++
    changes.incoming uploads

section

variable [Platform]

/-- The changes fit to the current files. -/
structure Admissible (package : Bool) (current : List (Text × Bytes)) (changes : FileChanges)
    (uploads : List (Text × Bytes)) : Prop where
  removeNormal : ∀ name ∈ changes.remove, IsNormalName package name
  removeDistinct : changes.remove.Nodup
  removeKnown : ∀ name ∈ changes.remove, name ∈ Dict.keys current
  renamesNormal : ∀ m ∈ changes.renames, IsNormalName package m.1 ∧ IsNormalName package m.2
  sourcesDistinct : (changes.renames.map (·.1)).Nodup
  targetsDistinct : (changes.renames.map (·.2)).Nodup
  sourcesKnown : ∀ m ∈ changes.renames, m.1 ∈ Dict.keys (survivors current changes)
  targetsFree : ∀ m ∈ changes.renames, m.2 ∈ Dict.keys (survivors current changes) →
    m.2 ∈ changes.renames.map (·.1)
  incomingNormal : ∀ file ∈ changes.incoming uploads, IsNormalName package file.1
  incomingDistinct : (Dict.keys (changes.incoming uploads)).Nodup

/-! ### The loops -/

omit [Platform] in
theorem setFile_eq (files : List (Text × Bytes)) (name : Text) (content : Bytes) :
    setFile files name content = Dict.set files name content := rfl

theorem removeFiles_ok {package : Bool} {removed names : List Text}
    {files files' : List (Text × Bytes)} :
    removeFiles package removed names files = .ok files' ↔
      (∀ name ∈ names, IsNormalName package name) ∧ names.Nodup ∧
      (∀ name ∈ names, name ∉ removed) ∧ (∀ name ∈ names, name ∈ Dict.keys files) ∧
      files.filter (·.1 ∉ names) = files' := by
  induction names generalizing removed files with
  | nil => simp [removeFiles]
  | cons name names ih =>
    have hkeys (n : Text) : n ∈ Dict.keys (removeFile files name) ↔ n ∈ Dict.keys files ∧ n ≠ name := by
      simp [removeFile]
    have hrest : (removeFile files name).filter (·.1 ∉ names) =
        files.filter (·.1 ∉ name :: names) := by
      rw [removeFile, List.filter_filter]
      refine List.filter_congr fun file _ => ?_
      simp [Bool.and_comm, eq_comm]
    simp only [removeFiles, Fallible.bind_ok, Fallible.check_ok, exists_const, ih, hrest, hkeys,
      Dict.any_key]
    constructor
    · rintro ⟨⟨hnormal, hnew, hknown⟩, hnormals, hnodup, hnews, hknowns, rfl⟩
      refine ⟨?_, List.nodup_cons.mpr ⟨fun hmem => ?_, hnodup⟩, ?_, ?_, rfl⟩
      · rintro n hn
        rcases List.mem_cons.mp hn with rfl | hn
        · exact hnormal
        · exact hnormals n hn
      · exact hnews name hmem List.mem_cons_self
      · rintro n hn
        rcases List.mem_cons.mp hn with rfl | hn
        · exact hnew
        · exact fun hmem => hnews n hn (List.mem_cons_of_mem _ hmem)
      · rintro n hn
        rcases List.mem_cons.mp hn with rfl | hn
        · exact hknown
        · exact (hknowns n hn).1
    · rintro ⟨hnormals, hnodup, hnews, hknowns, rfl⟩
      obtain ⟨hother, hnodup'⟩ := List.nodup_cons.mp hnodup
      have hne (n : Text) (hn : n ∈ names) : n ≠ name := by
        rintro rfl
        exact hother hn
      refine ⟨⟨hnormals name List.mem_cons_self, hnews name List.mem_cons_self,
        hknowns name List.mem_cons_self⟩, fun n hn => hnormals n (List.mem_cons_of_mem _ hn),
        hnodup', fun n hn hmem => ?_, fun n hn => ⟨hknowns n (List.mem_cons_of_mem _ hn), hne n hn⟩,
        rfl⟩
      rcases List.mem_cons.mp hmem with hsame | hmem
      · exact hne n hn hsame
      · exact hnews n (List.mem_cons_of_mem _ hn) hmem

theorem collectMoves_ok {package : Bool} {files : List (Text × Bytes)}
    {moves renames moves' : List (Text × Text)} (hsources : (moves.map (·.1)).Nodup)
    (htargets : (moves.map (·.2)).Nodup) :
    collectMoves package files moves renames = .ok moves' ↔
      (∀ m ∈ renames, IsNormalName package m.1 ∧ IsNormalName package m.2) ∧
      ((moves ++ renames).map (·.1)).Nodup ∧ ((moves ++ renames).map (·.2)).Nodup ∧
      (∀ m ∈ renames, m.1 ∈ Dict.keys files) ∧ moves ++ renames = moves' := by
  induction renames generalizing moves with
  | nil => simp [collectMoves, hsources, htargets]
  | cons m renames ih =>
    obtain ⟨old, new⟩ := m
    have happend : moves ++ [(old, new)] ++ renames = moves ++ (old, new) :: renames := by simp
    have hstep (f : Text × Text → Text) (hnodup : (moves.map f).Nodup) :
        ((moves ++ [(old, new)]).map f).Nodup ↔ ∀ m ∈ moves, f m ≠ f (old, new) := by
      rw [List.map_append, List.map_singleton, List.nodup_append]
      constructor
      · rintro ⟨-, -, hdisjoint⟩ m hm
        exact hdisjoint _ (List.mem_map_of_mem hm) _ (List.mem_singleton_self _)
      · intro hfresh
        refine ⟨hnodup, List.nodup_singleton _, fun a ha b hb => ?_⟩
        obtain ⟨m, hm, rfl⟩ := List.mem_map.mp ha
        rw [List.mem_singleton.mp hb]
        exact hfresh m hm
    simp only [collectMoves, Fallible.bind_ok, Fallible.check_ok, exists_const, Dict.any_key]
    constructor
    · rintro ⟨hnormal, ⟨hfresh, hknown⟩, hrest⟩
      have hsources' := (hstep (·.1) hsources).mpr fun m hm => (hfresh m hm).1
      have htargets' := (hstep (·.2) htargets).mpr fun m hm => (hfresh m hm).2
      obtain ⟨hnormals, h1, h2, hknowns, rfl⟩ := (ih hsources' htargets').mp hrest
      rw [happend] at h1 h2 ⊢
      refine ⟨?_, h1, h2, ?_, rfl⟩
      · rintro m hm
        rcases List.mem_cons.mp hm with rfl | hm
        · exact hnormal
        · exact hnormals m hm
      · rintro m hm
        rcases List.mem_cons.mp hm with rfl | hm
        · exact hknown
        · exact hknowns m hm
    · rintro ⟨hnormals, h1, h2, hknowns, rfl⟩
      rw [← happend] at h1 h2
      have hprefix (f : Text × Text → Text)
          (h : ((moves ++ [(old, new)] ++ renames).map f).Nodup) :
          ((moves ++ [(old, new)]).map f).Nodup := by
        rw [List.map_append] at h
        exact (List.nodup_append.mp h).1
      have hsources' := hprefix (·.1) h1
      have htargets' := hprefix (·.2) h2
      refine ⟨hnormals _ List.mem_cons_self, ⟨fun m hm => ?_, hknowns _ List.mem_cons_self⟩, ?_⟩
      · exact ⟨(hstep (·.1) hsources).mp hsources' m hm, (hstep (·.2) htargets).mp htargets' m hm⟩
      · exact (ih hsources' htargets').mpr ⟨fun m hm => hnormals m (List.mem_cons_of_mem _ hm), h1,
          h2, fun m hm => hknowns m (List.mem_cons_of_mem _ hm), happend⟩

theorem applyIncoming_ok {package : Bool} {seen : List Text}
    {incoming files files' : List (Text × Bytes)} :
    applyIncoming package seen incoming files = .ok files' ↔
      (∀ file ∈ incoming, IsNormalName package file.1) ∧ (Dict.keys incoming).Nodup ∧
      (∀ file ∈ incoming, file.1 ∉ seen) ∧ Dict.update files incoming = files' := by
  induction incoming generalizing seen files with
  | nil => simp [applyIncoming, Dict.keys]
  | cons file incoming ih =>
    obtain ⟨name, content⟩ := file
    simp only [applyIncoming, Fallible.bind_ok, Fallible.check_ok, exists_const, ih, setFile_eq,
      Dict.update_cons]
    constructor
    · rintro ⟨⟨hnormal, hnew⟩, hnormals, hnodup, hnews, rfl⟩
      refine ⟨?_, List.nodup_cons.mpr ⟨fun hmem => ?_, hnodup⟩, ?_, rfl⟩
      · rintro file hfile
        rcases List.mem_cons.mp hfile with rfl | hfile
        · exact hnormal
        · exact hnormals file hfile
      · obtain ⟨file, hfile, hname⟩ := List.mem_map.mp hmem
        exact hnews file hfile (hname ▸ List.mem_cons_self)
      · rintro file hfile
        rcases List.mem_cons.mp hfile with rfl | hfile
        · exact hnew
        · exact fun hmem => hnews file hfile (List.mem_cons_of_mem _ hmem)
    · rintro ⟨hnormals, hnodup, hnews, rfl⟩
      obtain ⟨hother, hnodup'⟩ := List.nodup_cons.mp hnodup
      refine ⟨⟨hnormals _ List.mem_cons_self, hnews _ List.mem_cons_self⟩,
        fun file hfile => hnormals file (List.mem_cons_of_mem _ hfile), hnodup',
        fun file hfile hmem => ?_, rfl⟩
      rcases List.mem_cons.mp hmem with hsame | hmem
      · have hkey : file.1 ∈ Dict.keys incoming := Dict.key_mem hfile
        exact hother (hsame ▸ hkey)
      · exact hnews file (List.mem_cons_of_mem _ hfile) hmem

/-- **A merge succeeds when its changes are admissible.** -/
theorem mergeFiles_ok_iff {package : Bool} {current : List (Text × Bytes)} {changes : FileChanges}
    {uploads files : List (Text × Bytes)} :
    mergeFiles current changes uploads package = .ok files ↔
      Admissible package current changes uploads ∧
      Dict.update (applyMoves (survivors current changes) changes.renames)
        (changes.incoming uploads) = files := by
  have htargets (kept : List (Text × Bytes)) (moves : List (Text × Text)) :
      (∀ m ∈ moves, kept.any (·.1 = m.2) = true → moves.any (·.1 = m.2) = true) ↔
        ∀ m ∈ moves, m.2 ∈ Dict.keys kept → m.2 ∈ moves.map (·.1) := by
    simp only [Dict.any_key]
    rfl
  have hcollect (kept : List (Text × Bytes)) (moves : List (Text × Text)) :=
    @collectMoves_ok _ package kept [] changes.renames moves List.nodup_nil List.nodup_nil
  simp only [mergeFiles, Fallible.bind_ok, Fallible.check_ok, exists_const, removeFiles_ok,
    hcollect, List.nil_append, htargets]
  constructor
  · rintro ⟨kept, ⟨hnormal, hdistinct, -, hknown, rfl⟩, moves,
      ⟨hrenames, hsources, htargets, hmoves, rfl⟩, hfree, hincoming⟩
    obtain ⟨hnormals, hnodup, -, rfl⟩ := applyIncoming_ok.mp hincoming
    exact ⟨⟨hnormal, hdistinct, hknown, hrenames, hsources, htargets, hmoves, hfree, hnormals,
      hnodup⟩, rfl⟩
  · rintro ⟨h, rfl⟩
    refine ⟨survivors current changes, ⟨h.removeNormal, h.removeDistinct,
      fun _ _ => List.not_mem_nil, h.removeKnown, rfl⟩, changes.renames,
      ⟨h.renamesNormal, h.sourcesDistinct, h.targetsDistinct, h.sourcesKnown, rfl⟩, h.targetsFree,
      ?_⟩
    exact applyIncoming_ok.mpr ⟨h.incomingNormal, h.incomingDistinct, fun _ _ => List.not_mem_nil,
      rfl⟩

end

/-! ### The renamed files -/

theorem FileChanges.finalName_of_mem {changes : FileChanges}
    (h : (changes.renames.map (·.1)).Nodup) {m : Text × Text} (hm : m ∈ changes.renames) :
    changes.finalName m.1 = m.2 := by
  have hfind : changes.renames.find? (fun m' => decide (m'.1 = m.1)) = some m :=
    (Dict.find?_key h).mpr ⟨hm, rfl⟩
  rw [finalName, hfind, Option.map_some, Option.getD_some]

theorem FileChanges.finalName_of_notMem {changes : FileChanges} {name : Text}
    (h : name ∉ changes.renames.map (·.1)) : changes.finalName name = name := by
  have hfind : changes.renames.find? (fun m => decide (m.1 = name)) = none := by
    rw [List.find?_eq_none]
    intro m hm hname
    exact h (List.mem_map.mpr ⟨m, hm, by simpa using hname⟩)
  rw [finalName, hfind, Option.map_none, Option.getD_none]

/-- A final name is a target or the name of a file that is not renamed. -/
theorem FileChanges.finalName_cases {changes : FileChanges}
    (h : (changes.renames.map (·.1)).Nodup) (name : Text) :
    (name, changes.finalName name) ∈ changes.renames ∨
      name ∉ changes.renames.map (·.1) ∧ changes.finalName name = name := by
  by_cases hname : name ∈ changes.renames.map (·.1)
  · obtain ⟨m, hm, rfl⟩ := List.mem_map.mp hname
    rw [finalName_of_mem h hm]
    exact .inl hm
  · exact .inr ⟨hname, finalName_of_notMem hname⟩

section

variable [Platform] {package : Bool} {current : List (Text × Bytes)} {changes : FileChanges}
  {uploads : List (Text × Bytes)}

/-- **No two files go on under one name**, so a rename overwrites nothing. -/
theorem Admissible.finalName_inj (h : Admissible package current changes uploads) {a b : Text}
    (ha : a ∈ Dict.keys (survivors current changes)) (hb : b ∈ Dict.keys (survivors current changes))
    (hab : changes.finalName a = changes.finalName b) : a = b := by
  rcases changes.finalName_cases h.sourcesDistinct a with hma | ⟨hna, hsame⟩
  · rcases changes.finalName_cases h.sourcesDistinct b with hmb | ⟨hnb, hsame'⟩
    · exact congrArg Prod.fst (List.inj_on_of_nodup_map h.targetsDistinct hma hmb hab)
    · -- the target is the name of a file that stays, which the check has excluded
      rw [hab, hsame'] at hma
      exact absurd (h.targetsFree _ hma hb) hnb
  · rcases changes.finalName_cases h.sourcesDistinct b with hmb | ⟨-, hsame'⟩
    · rw [← hab, hsame] at hmb
      exact absurd (h.targetsFree _ hmb ha) hna
    · rw [← hsame, hab, hsame']

omit [Platform] in
theorem survivors_keyed (hcurrent : (Dict.keys current).Nodup) :
    (Dict.keys (survivors current changes)).Nodup :=
  Keyed.filter hcurrent _

omit [Platform] in
/-- The targets of the renames whose source is found. -/
theorem keys_moved_sublist (moves : List (Text × Text)) (found : Text → Option (Text × Bytes)) :
    (Dict.keys (moves.filterMap fun m => (found m.1).map fun f => (m.2, f.2))).Sublist
      (moves.map (·.2)) := by
  induction moves with
  | nil => exact .slnil
  | cons m moves ih =>
    cases hfound : found m.1 with
    | none =>
      rw [List.filterMap_cons_none (by rw [hfound, Option.map_none])]
      exact ih.cons _
    | some f =>
      rw [List.filterMap_cons_some (by rw [hfound, Option.map_some])]
      exact ih.cons_cons _

/-- All renames at once: every file is there under its final name. -/
theorem Admissible.mem_applyMoves (h : Admissible package current changes uploads)
    (hcurrent : (Dict.keys current).Nodup) {file : Text × Bytes} :
    file ∈ applyMoves (survivors current changes) changes.renames ↔
      file ∈ (survivors current changes).map changes.renamed := by
  have hkeyed : (Dict.keys (survivors current changes)).Nodup := survivors_keyed hcurrent
  generalize hfiles : survivors current changes = files at hkeyed ⊢
  have hsublist := keys_moved_sublist changes.renames fun old => files.find? (·.1 = old)
  have hmoved : file ∈ applyMoves files changes.renames ↔ _ :=
    Dict.mem_update (h.targetsDistinct.sublist hsublist)
  rw [hmoved, List.mem_map]
  constructor
  · rintro (hmem | ⟨hmem, -⟩)
    · obtain ⟨m, hm, hfile⟩ := List.mem_filterMap.mp hmem
      obtain ⟨f, hfound, rfl⟩ := Option.map_eq_some_iff.mp hfile
      obtain ⟨hf, hname⟩ := (Dict.find?_key hkeyed).mp hfound
      refine ⟨f, hf, ?_⟩
      rw [FileChanges.renamed, hname, FileChanges.finalName_of_mem h.sourcesDistinct hm]
    · obtain ⟨hf, hstays⟩ := List.mem_filter.mp hmem
      refine ⟨file, hf, ?_⟩
      rw [FileChanges.renamed, FileChanges.finalName_of_notMem]
      intro hsource
      obtain ⟨m, hm, hname⟩ := List.mem_map.mp hsource
      simp only [Bool.not_eq_true', List.any_eq_false, decide_eq_true_eq] at hstays
      exact hstays m hm hname
  · rintro ⟨f, hf, rfl⟩
    rcases changes.finalName_cases h.sourcesDistinct f.1 with hm | ⟨hnot, hsame⟩
    · refine .inl (List.mem_filterMap.mpr ⟨_, hm, ?_⟩)
      have hfound : files.find? (fun x => decide (x.1 = f.1)) = some f :=
        (Dict.find?_key hkeyed).mpr ⟨hf, rfl⟩
      show (files.find? fun x => decide (x.1 = f.1)).map _ = some (changes.renamed f)
      rw [hfound, Option.map_some]
      rfl
    · refine .inr ⟨List.mem_filter.mpr ⟨?_, ?_⟩, ?_⟩
      · rw [FileChanges.renamed, hsame]
        exact hf
      · rw [FileChanges.renamed, hsame]
        simp only [Bool.not_eq_true', List.any_eq_false, decide_eq_true_eq]
        exact fun m hm hname => hnot (List.mem_map.mpr ⟨m, hm, hname⟩)
      · rw [FileChanges.renamed, hsame]
        intro htarget
        obtain ⟨m, hm, hname⟩ := List.mem_map.mp (hsublist.subset htarget)
        have hfree := h.targetsFree m hm
        rw [hfiles, hname] at hfree
        exact hnot (hfree (Dict.key_mem hf))

omit [Platform] in
theorem keyed_applyMoves {files : List (Text × Bytes)} (hkeyed : (Dict.keys files).Nodup)
    (moves : List (Text × Text)) : (Dict.keys (applyMoves files moves)).Nodup :=
  Dict.keyed_update (Keyed.filter hkeyed _)

/-! ### The result -/

theorem Admissible.keyed_renamed (h : Admissible package current changes uploads)
    (hcurrent : (Dict.keys current).Nodup) :
    (Dict.keys ((survivors current changes).map changes.renamed)).Nodup := by
  have hkeyed : (Dict.keys (survivors current changes)).Nodup := survivors_keyed hcurrent
  have hnodup : (survivors current changes).Nodup := .of_map _ hkeyed
  rw [Dict.keys, List.map_map]
  refine hnodup.map_on fun f hf g hg hfg => ?_
  exact Dict.eq_of_mem hkeyed hf hg (h.finalName_inj (Dict.key_mem hf) (Dict.key_mem hg) hfg)

theorem Admissible.keyed_reference (h : Admissible package current changes uploads)
    (hcurrent : (Dict.keys current).Nodup) :
    (Dict.keys (referenceFiles current changes uploads)).Nodup := by
  rw [referenceFiles, Dict.keys, List.map_append]
  refine List.nodup_append.mpr ⟨Keyed.filter (h.keyed_renamed hcurrent) _, h.incomingDistinct, ?_⟩
  intro name hname name' hname' hsame
  obtain ⟨file, hfile, rfl⟩ := List.mem_map.mp hname
  have hnot := (List.mem_filter.mp hfile).2
  rw [hsame] at hnot
  exact of_decide_eq_true hnot hname'

/-- **The result of a merge is the reference result**, up to the order of its files. -/
theorem mergeFiles_perm (hcurrent : (Dict.keys current).Nodup) {files : List (Text × Bytes)}
    (h : mergeFiles current changes uploads package = .ok files) :
    (Dict.keys files).Nodup ∧ files.Perm (referenceFiles current changes uploads) := by
  obtain ⟨hadmissible, rfl⟩ := mergeFiles_ok_iff.mp h
  have hsurvivors : (Dict.keys (survivors current changes)).Nodup := survivors_keyed hcurrent
  have hkeyed := keyed_applyMoves hsurvivors changes.renames
  refine ⟨Dict.keyed_update hkeyed, ?_⟩
  rw [Dict.perm_iff (Dict.keyed_update hkeyed) (hadmissible.keyed_reference hcurrent)]
  intro file
  rw [Dict.mem_update hadmissible.incomingDistinct, hadmissible.mem_applyMoves hcurrent,
    referenceFiles, List.mem_append, List.mem_filter, decide_eq_true_eq, or_comm]

omit [Platform] in
/-- The file under a final name that is not written. -/
theorem mem_referenceFiles {file : Text × Bytes} (hfile : file ∈ current)
    (hremove : file.1 ∉ changes.remove)
    (hincoming : changes.finalName file.1 ∉ Dict.keys (changes.incoming uploads)) :
    (changes.finalName file.1, file.2) ∈ referenceFiles current changes uploads := by
  refine List.mem_append_left _ (List.mem_filter.mpr ⟨List.mem_map.mpr ⟨file, ?_, rfl⟩, ?_⟩)
  · exact List.mem_filter.mpr ⟨hfile, decide_eq_true hremove⟩
  · exact decide_eq_true hincoming

/-! ### Rearranged changes -/

namespace FileChanges.Rearranged

variable {changes' : FileChanges} {uploads' : List (Text × Bytes)}

omit [Platform] in
theorem symm (h : changes.Rearranged changes') : changes'.Rearranged changes :=
  ⟨h.edits.symm, h.remove.symm, h.renames.symm⟩

omit [Platform] in
theorem survivors_eq (h : changes.Rearranged changes') :
    survivors current changes' = survivors current changes := by
  refine List.filter_congr fun file _ => ?_
  exact decide_eq_decide.mpr (not_congr h.remove.mem_iff.symm)

omit [Platform] in
theorem incoming_perm (h : changes.Rearranged changes') (huploads : uploads.Perm uploads') :
    (changes.incoming uploads).Perm (changes'.incoming uploads') :=
  (h.edits.map _).append huploads

omit [Platform] in
theorem finalName_eq (h : changes.Rearranged changes')
    (hsources : (changes.renames.map (·.1)).Nodup) : changes'.finalName = changes.finalName := by
  have hsources' : (changes'.renames.map (·.1)).Nodup := (h.renames.map _).nodup_iff.mp hsources
  funext name
  rcases changes.finalName_cases hsources name with hm | ⟨hnot, hsame⟩
  · exact finalName_of_mem hsources' (h.renames.mem_iff.mp hm)
  · rw [hsame]
    exact finalName_of_notMem fun hmem => hnot ((h.renames.map _).mem_iff.mpr hmem)

/-- Changes are admissible in every order. -/
theorem admissible (h : changes.Rearranged changes') (huploads : uploads.Perm uploads')
    (ha : Admissible package current changes uploads) :
    Admissible package current changes' uploads' where
  removeNormal name hname := ha.removeNormal name (h.remove.mem_iff.mpr hname)
  removeDistinct := h.remove.nodup_iff.mp ha.removeDistinct
  removeKnown name hname := ha.removeKnown name (h.remove.mem_iff.mpr hname)
  renamesNormal m hm := ha.renamesNormal m (h.renames.mem_iff.mpr hm)
  sourcesDistinct := (h.renames.map _).nodup_iff.mp ha.sourcesDistinct
  targetsDistinct := (h.renames.map _).nodup_iff.mp ha.targetsDistinct
  sourcesKnown m hm := by
    rw [h.survivors_eq]
    exact ha.sourcesKnown m (h.renames.mem_iff.mpr hm)
  targetsFree m hm htarget := by
    rw [h.survivors_eq] at htarget
    exact (h.renames.map _).mem_iff.mp (ha.targetsFree m (h.renames.mem_iff.mpr hm) htarget)
  incomingNormal file hfile :=
    ha.incomingNormal file ((h.incoming_perm huploads).mem_iff.mpr hfile)
  incomingDistinct := ((h.incoming_perm huploads).map _).nodup_iff.mp ha.incomingDistinct

omit [Platform] in
theorem reference_perm (h : changes.Rearranged changes') (huploads : uploads.Perm uploads')
    (hsources : (changes.renames.map (·.1)).Nodup) :
    (referenceFiles current changes uploads).Perm (referenceFiles current changes' uploads') := by
  have hincoming := h.incoming_perm huploads
  have hrenamed : changes'.renamed = changes.renamed := by
    funext file
    rw [renamed, renamed, h.finalName_eq hsources]
  have hkeys (name : Text) : name ∈ Dict.keys (changes'.incoming uploads') ↔
      name ∈ Dict.keys (changes.incoming uploads) := (hincoming.map _).mem_iff.symm
  rw [referenceFiles, referenceFiles, h.survivors_eq, hrenamed]
  simp only [hkeys]
  exact hincoming.append_left _

end FileChanges.Rearranged

omit [Platform] in
/-- A merge refuses when it does not succeed. -/
theorem exists_error_iff {α : Type} {x : Except Err α} :
    (∃ e, x = .error e) ↔ ¬∃ a, x = .ok a := by
  cases x <;> simp

/-- **A merge refuses or is the simultaneous substitution.**  It succeeds exactly when its
changes are admissible; its result is then the reference result, no two files that are
not removed go on under one name, and every one of them that is not written over is there
with its bytes.  The order in which the changes are listed changes nothing. -/
theorem mergeFiles_reference (package : Bool) {current : List (Text × Bytes)}
    (hcurrent : (Dict.keys current).Nodup) (changes : FileChanges)
    (uploads : List (Text × Bytes)) :
    ((∃ files, mergeFiles current changes uploads package = .ok files) ↔
      Admissible package current changes uploads) ∧
    (∀ files, mergeFiles current changes uploads package = .ok files →
      (Dict.keys files).Nodup ∧ files.Perm (referenceFiles current changes uploads) ∧
      (∀ file ∈ survivors current changes,
        changes.finalName file.1 ∉ Dict.keys (changes.incoming uploads) →
          (changes.finalName file.1, file.2) ∈ files) ∧
      ((survivors current changes).map fun file => changes.finalName file.1).Nodup) ∧
    (∀ changes' uploads', changes.Rearranged changes' → uploads.Perm uploads' →
      ((∃ e, mergeFiles current changes uploads package = .error e) ↔
        ∃ e, mergeFiles current changes' uploads' package = .error e) ∧
      ∀ files files', mergeFiles current changes uploads package = .ok files →
        mergeFiles current changes' uploads' package = .ok files' → files.Perm files') := by
  have hsuccess (changes : FileChanges) (uploads : List (Text × Bytes)) :
      (∃ files, mergeFiles current changes uploads package = .ok files) ↔
        Admissible package current changes uploads := by
    simp only [mergeFiles_ok_iff, exists_and_left, exists_eq', and_true]
  refine ⟨hsuccess changes uploads, fun files h => ?_, fun changes' uploads' hchanges huploads => ?_⟩
  · obtain ⟨hkeyed, hperm⟩ := mergeFiles_perm hcurrent h
    have hadmissible := (hsuccess changes uploads).mp ⟨files, h⟩
    refine ⟨hkeyed, hperm, fun file hfile hincoming => ?_, ?_⟩
    · obtain ⟨hmem, hremove⟩ := List.mem_filter.mp hfile
      exact hperm.mem_iff.mpr (mem_referenceFiles hmem (of_decide_eq_true hremove) hincoming)
    · have hrenamed := hadmissible.keyed_renamed hcurrent
      rwa [Dict.keys, List.map_map] at hrenamed
  · constructor
    · rw [exists_error_iff, exists_error_iff, hsuccess, hsuccess]
      exact not_congr ⟨hchanges.admissible huploads, hchanges.symm.admissible huploads.symm⟩
    · intro files files' h h'
      have hadmissible := (hsuccess changes uploads).mp ⟨files, h⟩
      have hreference :
          (referenceFiles current changes uploads).Perm (referenceFiles current changes' uploads') :=
        hchanges.reference_perm huploads hadmissible.sourcesDistinct
      exact ((mergeFiles_perm hcurrent h).2.trans hreference).trans
        (mergeFiles_perm hcurrent h').2.symm

end

section Sample

attribute [local instance] asciiPlatform

def sampleCurrent : List (Text × Bytes) := [("a.md", [1]), ("b.md", [2]), ("c.md", [3])]

/-- Two files change their names, and the third goes. -/
def sampleSwap : FileChanges where
  remove := ["c.md"]
  renames := [("a.md", "b.md"), ("b.md", "a.md")]

theorem mergeFiles_reference_sample : ∃ files, mergeFiles sampleCurrent sampleSwap
      [("d.md", [4])] = .ok files ∧ (Dict.keys files).Nodup ∧
    files.Perm [("b.md", [1]), ("a.md", [2]), ("d.md", [4])] := by
  have hok : ∃ files, mergeFiles sampleCurrent sampleSwap [("d.md", [4])] = .ok files := by
    refine ⟨[("b.md", [1]), ("a.md", [2]), ("d.md", [4])], ?_⟩
    decide +kernel
  obtain ⟨files, hfiles⟩ := hok
  obtain ⟨hkeyed, hperm, -⟩ :=
    (mergeFiles_reference false (by decide) sampleSwap [("d.md", [4])]).2.1 files hfiles
  exact ⟨files, hfiles, hkeyed, hperm⟩

end Sample

end PatchouliLib
