import PatchouliLib.LibrarySkills.InstallPlans

/-!
# What an installation leaves

Nothing that was checked is in the way when the changes are made, so none of them fails: the
old files are deleted, then the directories that give way, deepest first; the new files are
written, each into directories that are there or can be made; a directory of the package that
has become empty is removed; at last the receipt is written.

## Main definitions

* `HasRoom`, `Written` — files that can be written, and that were.
* `Swept` — directories that were removed when they were empty.
* `Installed` — what an installation leaves.

## Main results

* `write_entries`, `sweep_directories` — the two loops of the changes.
* `InstallPlan.Sound.run` — **the changes of a sound plan all succeed.**
* `installSkillPackage_exact` — **an installation**, all in all.
-/

namespace PatchouliLib

open Foundation

variable {t s s' : FileTree} {root path q : TreePath} {body content : Bytes}

/-! ### Single changes -/

theorem orIO_ok {x : Option FileTree} : orIO x = .ok s ↔ x = some s := Fallible.get_ok

theorem prefix_dropLast_iff (hne : path ≠ []) : q <+: path.dropLast ↔ q <+: path ∧ q ≠ path := by
  have hlast := List.dropLast_append_getLast hne
  have hiff : q <+: path ↔ q = path ∨ q <+: path.dropLast := by
    conv_lhs => rw [← hlast]
    rw [List.prefix_concat_iff, hlast]
  have hshort : ¬path <+: path.dropLast := fun h => by
    have hlength := h.length_le
    rw [List.length_dropLast] at hlength
    have hpos := List.length_pos_iff.mpr hne
    omega
  constructor
  · intro h
    exact ⟨hiff.mpr (.inr h), fun heq => hshort (heq ▸ h)⟩
  · rintro ⟨h, hself⟩
    exact (hiff.mp h).resolve_left hself

/-- A file is written where directories lead to it. -/
theorem exists_writeAt (hne : path ≠ [])
    (habove : ∀ q content, q <+: path → q ≠ path → t.get? q ≠ some (.file content))
    (hhere : t.get? path ≠ some .dir) :
    ∃ s, writeAt path body t = .ok s ∧ ∀ q, s.get? q =
      if q = path then some (.file body) else if q <+: path then some .dir else t.get? q := by
  obtain ⟨mid, hmid⟩ := @FileTree.exists_makeDirs t path.dropLast
    fun q hq content => by
      obtain ⟨hpre, hself⟩ := (prefix_dropLast_iff hne).mp hq
      exact habove q content hpre hself
  have hparent : mid.get? path.dropLast = some .dir := by
    rw [FileTree.get?_makeDirs hmid, if_pos List.prefix_rfl]
  have hlast : path.dropLast ++ [path.getLast hne] = path := List.dropLast_append_getLast hne
  have hdir : mid.get? path ≠ some .dir := by
    rw [FileTree.get?_makeDirs hmid, if_neg fun hq => ((prefix_dropLast_iff hne).mp hq).2 rfl]
    exact hhere
  obtain ⟨s, hs⟩ := @FileTree.exists_writeFile _ _ body _ hparent (hlast.symm ▸ hdir)
  rw [hlast] at hs
  refine ⟨s, ?_, fun q => ?_⟩
  · rw [writeAt, hmid, Option.bind_some, hs]
    rfl
  · rw [FileTree.get?_writeFile hs, FileTree.get?_makeDirs hmid]
    by_cases hself : q = path
    · rw [if_pos hself, if_pos hself]
    · rw [if_neg hself, if_neg hself]
      simp only [prefix_dropLast_iff hne, and_iff_left hself]

/-! ### The loops -/

section

variable {paths directories : List TreePath}

/-- Files that are there can be deleted. -/
theorem unlink_files (hnodup : paths.Nodup)
    (hfiles : ∀ p ∈ paths, ∃ content, t.get? p = some (.file content)) :
    ∃ s, attemptAll (paths.map fun path t => orIO (t.unlink path)) t = (.ok ⟨⟩, s) ∧
      ∀ q, s.get? q = if q ∈ paths then none else t.get? q := by
  refine attemptAll_ok _
    (fun done (s : FileTree) => ∀ q, s.get? q = if q ∈ done then none else t.get? q)
    (fun q => by rw [if_neg List.not_mem_nil]) ?_
  intro done path rest s hsplit hdone
  have hnew : path ∉ done := by
    rw [hsplit] at hnodup
    exact fun hmem => (List.nodup_append.mp hnodup).2.2 path hmem path List.mem_cons_self rfl
  obtain ⟨content, hfile⟩ := hfiles path (by rw [hsplit]; simp)
  obtain ⟨s', hs'⟩ := FileTree.exists_unlink
    (show s.get? path = some (.file content) by rw [hdone, if_neg hnew, hfile])
  refine ⟨s', orIO_ok.mpr hs', fun q => ?_⟩
  rw [FileTree.get?_unlink hs', hdone]
  by_cases hself : q = path
  · rw [if_pos hself, if_pos (List.mem_append.mpr (.inr (List.mem_singleton.mpr hself)))]
  · rw [if_neg hself]
    simp only [List.mem_append, List.mem_singleton, hself, or_false]

/-- Directories that hold nothing else can be removed, the deepest first. -/
theorem remove_directories (hdeepest : IsDeepestFirst paths)
    (hdirs : ∀ p ∈ paths, p ≠ [] ∧ t.get? p = some .dir)
    (honly : ∀ p ∈ paths, ∀ name node, t.get? (p ++ [name]) = some node → p ++ [name] ∈ paths) :
    ∃ s, attemptAll (paths.map fun path t => orIO (t.rmdir path)) t = (.ok ⟨⟩, s) ∧
      ∀ q, s.get? q = if q ∈ paths then none else t.get? q := by
  obtain ⟨hnodup, hsorted⟩ := hdeepest
  refine attemptAll_ok _
    (fun done (s : FileTree) => ∀ q, s.get? q = if q ∈ done then none else t.get? q)
    (fun q => by rw [if_neg List.not_mem_nil]) ?_
  intro done path rest s hsplit hdone
  have hpath : path ∈ paths := by
    rw [hsplit]
    simp
  obtain ⟨hne, hdir⟩ := hdirs path hpath
  have hnew : path ∉ done := by
    rw [hsplit] at hnodup
    exact fun hmem => (List.nodup_append.mp hnodup).2.2 path hmem path List.mem_cons_self rfl
  -- What was in this directory is deeper, and was removed before.
  have hempty : s.children path = [] := by
    refine List.eq_nil_iff_forall_not_mem.mpr fun child hchild => ?_
    obtain ⟨name, rfl, node, hnode⟩ := FileTree.mem_children.mp hchild
    rw [hdone] at hnode
    split at hnode
    · cases hnode
    · next hlater =>
      have hmem := honly path hpath name node hnode
      rw [hsplit] at hmem hsorted
      rcases List.mem_append.mp hmem with hmem | hmem
      · exact hlater hmem
      · rcases List.mem_cons.mp hmem with hself | hmem
        · exact absurd hself (by simp)
        · have hlength := (List.pairwise_cons.mp (List.pairwise_append.mp hsorted).2.1).1 _ hmem
          rw [List.length_append, List.length_singleton] at hlength
          omega
  obtain ⟨s', hs'⟩ := FileTree.exists_rmdir (t := s) hne (by rw [hdone, if_neg hnew, hdir]) hempty
  refine ⟨s', orIO_ok.mpr hs', fun q => ?_⟩
  rw [FileTree.get?_rmdir hs', hdone]
  by_cases hself : q = path
  · rw [if_pos hself, if_pos (List.mem_append.mpr (.inr (List.mem_singleton.mpr hself)))]
  · rw [if_neg hself]
    simp only [List.mem_append, List.mem_singleton, hself, or_false]

/-- Directories that were removed when they were empty. -/
structure Swept (directories : List TreePath) (s s' : FileTree) : Prop where
  full : ∀ q ∈ directories, s'.get? q = some .dir → ∃ name node, s'.get? (q ++ [name]) = some node
  only : ∀ q, s'.get? q = s.get? q ∨ q ∈ directories ∧ s.get? q = some .dir ∧ s'.get? q = none

theorem sweep_directories (hdeepest : IsDeepestFirst directories) (hroot : [] ∉ directories) :
    ∃ s', attemptAll (directories.map removeIfEmpty) s = (.ok ⟨⟩, s') ∧ Swept directories s s' := by
  obtain ⟨-, hsorted⟩ := hdeepest
  refine attemptAll_ok removeIfEmpty (fun done s' => Swept done s s')
    ⟨fun q hq => absurd hq List.not_mem_nil, fun q => .inl rfl⟩ ?_
  intro done directory rest mid hsplit hdone
  rw [hsplit] at hsorted hroot
  by_cases hgoes : mid.get? directory = some .dir ∧ mid.children directory = []
  · obtain ⟨hdir, hempty⟩ := hgoes
    have hne : directory ≠ [] := fun hnil => hroot (by rw [hnil]; simp)
    obtain ⟨s', hs'⟩ := FileTree.exists_rmdir hne hdir hempty
    refine ⟨s', ?_, fun q hq hisdir => ?_, fun q => ?_⟩
    · rw [removeIfEmpty, if_pos ⟨FileTree.isDir_iff.mpr hdir, hempty⟩]
      exact orIO_ok.mpr hs'
    · rw [FileTree.get?_rmdir hs'] at hisdir
      split at hisdir
      · cases hisdir
      · next hother =>
        have hbefore : q ∈ done := by
          rcases List.mem_append.mp hq with hq | hq
          · exact hq
          · exact absurd (List.mem_singleton.mp hq) hother
        obtain ⟨name, node, hchild⟩ := hdone.full q hbefore hisdir
        refine ⟨name, node, ?_⟩
        rw [FileTree.get?_rmdir hs', if_neg ?_, hchild]
        -- What stands in a directory is deeper than those that come after it.
        rintro rfl
        have hlength := (List.pairwise_append.mp hsorted).2.2 q hbefore _ List.mem_cons_self
        rw [List.length_append, List.length_singleton] at hlength
        omega
    · rw [FileTree.get?_rmdir hs']
      split
      · next hself =>
        refine .inr ⟨List.mem_append_right _ (List.mem_singleton.mpr hself), ?_, rfl⟩
        rcases hdone.only directory with hsame | ⟨-, hbefore, -⟩
        · rw [hself, ← hsame, hdir]
        · rw [hself, hbefore]
      · exact (hdone.only q).imp_right fun h => ⟨List.mem_append_left _ h.1, h.2⟩
  · refine ⟨mid, ?_, fun q hq hisdir => ?_, fun q => ?_⟩
    · rw [removeIfEmpty, if_neg fun h => hgoes ⟨FileTree.isDir_iff.mp h.1, h.2⟩]
    · rcases List.mem_append.mp hq with hq | hq
      · exact hdone.full q hq hisdir
      · obtain rfl := List.mem_singleton.mp hq
        obtain ⟨child, hchild⟩ := List.exists_mem_of_ne_nil _ fun h => hgoes ⟨hisdir, h⟩
        obtain ⟨name, rfl, node, hnode⟩ := FileTree.mem_children.mp hchild
        exact ⟨name, node, hnode⟩
    · exact (hdone.only q).imp_right fun h => ⟨List.mem_append_left _ h.1, h.2⟩

/-- **A directory stays** when it holds, at some depth, what is not swept away. -/
theorem Swept.get?_dir (h : Swept directories s s') : s'.get? q = some .dir ↔
    s.get? q = some .dir ∧ (q ∈ directories → ∃ p node, q <+: p ∧ p ≠ q ∧
      s.get? p = some node ∧ (node = .dir → p ∉ directories)) := by
  constructor
  · intro hdir
    have hbefore : s.get? q = some .dir := by
      rcases h.only q with hsame | ⟨-, hbefore, -⟩
      · rw [← hsame, hdir]
      · exact hbefore
    refine ⟨hbefore, fun hq => ?_⟩
    -- Of all that is in the directory, the deepest cannot be a swept directory.
    have hself : q ∈ (Dict.keys s'.nodes).toFinset.filter (q <+: ·) := by
      refine Finset.mem_filter.mpr ⟨List.mem_toFinset.mpr ?_, List.prefix_rfl⟩
      exact Dict.mem_keys.mpr ⟨_, FileTree.get?_eq_some.mp hdir⟩
    obtain ⟨p, hp, hmax⟩ := Finset.exists_max_image _ List.length ⟨q, hself⟩
    obtain ⟨hmem, hpre⟩ := Finset.mem_filter.mp hp
    obtain ⟨node, hnode⟩ := Dict.mem_keys.mp (List.mem_toFinset.mp hmem)
    have hthere : s'.get? p = some node := FileTree.get?_eq_some.mpr hnode
    have hstays : node = .dir → p ∉ directories := by
      rintro rfl hswept
      obtain ⟨name, child, hchild⟩ := h.full p hswept hthere
      have hdeeper := hmax (p ++ [name]) (Finset.mem_filter.mpr ⟨List.mem_toFinset.mpr
        (Dict.mem_keys.mpr ⟨_, FileTree.get?_eq_some.mp hchild⟩),
        hpre.trans (List.prefix_append _ _)⟩)
      rw [List.length_append, List.length_singleton] at hdeeper
      omega
    refine ⟨p, node, hpre, fun heq => ?_, ?_, hstays⟩
    · rw [heq, hdir] at hthere
      exact hstays (Option.some.inj hthere).symm (heq ▸ hq)
    · rcases h.only p with hsame | ⟨-, -, hgone⟩
      · rw [← hsame, hthere]
      · rw [hthere] at hgone
        cases hgone
  · rintro ⟨hdir, hheld⟩
    rcases h.only q with hsame | ⟨hq, -, hgone⟩
    · rw [hsame, hdir]
    · obtain ⟨p, node, hpre, hne, hnode, hstays⟩ := hheld hq
      have hthere : s'.get? p = some node := by
        rcases h.only p with hsame | ⟨hp, hpdir, -⟩
        · rw [hsame, hnode]
        · exact absurd hp (hstays (Option.some.inj (hnode.symm.trans hpdir)))
      rw [FileTree.get?_dir hpre hne.symm hthere] at hgone
      cases hgone

theorem Swept.get?_file (h : Swept directories s s') :
    s'.get? q = some (.file content) ↔ s.get? q = some (.file content) := by
  rcases h.only q with hsame | ⟨-, hdir, hgone⟩
  · rw [hsame]
  · rw [hdir, hgone]
    simp

end

/-! ### Writing the files -/

section

variable [Platform] {entries : List (Text × Bytes)}

/-- There is room for these files: no file leads to another, and nothing is in the way. -/
structure HasRoom (root : TreePath) (entries : List (Text × Bytes)) (t : FileTree) : Prop where
  normal : ∀ e ∈ entries, normalizeSkillPath e.1 = .ok e.1
  apart : ∀ a ∈ entries, ∀ b ∈ entries, targetOf root a.1 <+: targetOf root b.1 → a = b
  above : ∀ e ∈ entries, ∀ q content, q <+: targetOf root e.1 → q ≠ targetOf root e.1 →
    t.get? q ≠ some (.file content)
  here : ∀ e ∈ entries, t.get? (targetOf root e.1) ≠ some .dir

/-- The files were written, and what does not lead to them is as it was. -/
structure Written (root : TreePath) (entries : List (Text × Bytes)) (t t' : FileTree) : Prop where
  files : ∀ e ∈ entries, t'.get? (targetOf root e.1) = some (.file e.2)
  others : ∀ q, (∀ e ∈ entries, ¬q <+: targetOf root e.1) → t'.get? q = t.get? q

omit [Platform] in
/-- What leads to a written file is a directory. -/
theorem Written.get?_dir {t' : FileTree} (h : Written root entries t t') {e : Text × Bytes}
    (he : e ∈ entries) (hpre : q <+: targetOf root e.1) (hne : q ≠ targetOf root e.1) :
    t'.get? q = some .dir :=
  FileTree.get?_dir hpre hne (h.files e he)

omit [Platform] in
theorem targetOf_ne_nil {name : Text} : targetOf root name ≠ [] := by
  have hlength := @length_lt_targetOf root name
  exact List.ne_nil_of_length_pos (by omega)

/-- **The files can be written** one after the other, when there is room for all of them. -/
theorem write_entries (hroom : HasRoom root entries t) :
    ∃ t', attemptAll (entries.map (writeEntry root)) t = (.ok ⟨⟩, t') ∧
      Written root entries t t' := by
  refine attemptAll_ok (writeEntry root) (fun done t' => Written root done t t')
    ⟨fun e he => absurd he List.not_mem_nil, fun q _ => rfl⟩ ?_
  intro done entry rest mid hsplit hdone
  have hentry : entry ∈ entries := by
    rw [hsplit]
    simp
  have hmem {e : Text × Bytes} (he : e ∈ done) : e ∈ entries := by
    rw [hsplit]
    exact List.mem_append_left _ he
  -- A file that was written before does not lead here, and is not below.
  have habove (q : TreePath) (content : Bytes) (hpre : q <+: targetOf root entry.1)
      (hne : q ≠ targetOf root entry.1) : mid.get? q ≠ some (.file content) := by
    intro hfile
    by_cases hled : ∃ e ∈ done, q <+: targetOf root e.1
    · obtain ⟨e, he, hq⟩ := hled
      by_cases hself : q = targetOf root e.1
      · rw [hself] at hpre hne
        exact hne (congrArg _ (congrArg Prod.fst (hroom.apart e (hmem he) entry hentry hpre)))
      · rw [hdone.get?_dir he hq hself] at hfile
        cases hfile
    · rw [hdone.others q fun e he hq => hled ⟨e, he, hq⟩] at hfile
      exact hroom.above entry hentry q content hpre hne hfile
  have hhere : mid.get? (targetOf root entry.1) ≠ some .dir := by
    intro hdir
    by_cases hled : ∃ e ∈ done, targetOf root entry.1 <+: targetOf root e.1
    · obtain ⟨e, he, hpre⟩ := hled
      rw [hroom.apart entry hentry e (hmem he) hpre, hdone.files e he] at hdir
      cases hdir
    · rw [hdone.others _ fun e he hq => hled ⟨e, he, hq⟩] at hdir
      exact hroom.here entry hentry hdir
  obtain ⟨last, hlast, hget⟩ := @exists_writeAt _ _ entry.2 targetOf_ne_nil habove hhere
  refine ⟨last, ?_, fun e he => ?_, fun q hq => ?_⟩
  · rw [writeEntry, Fallible.bind_ok]
    exact ⟨_, installTarget_ok.mpr ⟨hroom.normal entry hentry,
      fun p content _ hpre hne hfile => absurd hfile (habove p content hpre hne), rfl⟩, hlast⟩
  · rw [hget]
    rcases List.mem_append.mp he with he | he
    · by_cases hsame : e = entry
      · rw [hsame, if_pos rfl]
      · have hnot : ¬targetOf root e.1 <+: targetOf root entry.1 := fun hpre =>
          hsame (hroom.apart e (hmem he) entry hentry hpre)
        rw [if_neg fun heq => hnot (by rw [heq]), if_neg hnot, hdone.files e he]
    · rw [List.mem_singleton.mp he, if_pos rfl]
  · have hnot := hq entry (List.mem_append_right _ (List.mem_singleton.mpr rfl))
    rw [hget, if_neg fun heq => hnot (by rw [heq]), if_neg hnot]
    exact hdone.others q fun e he => hq e (List.mem_append_left _ he)

/-! ### The changes of a sound plan -/

variable {plan : InstallPlan} {request : InstallRequest}

variable (hnfc : ∀ a b : Text, nfc (a ++ '/' :: b) = nfc a ++ '/' :: nfc b)
  (hfold : ∀ a b : Text, Platform.casefold (a ++ '/' :: b) =
    Platform.casefold a ++ '/' :: Platform.casefold b)

namespace InstallPlan

/-- What gives way is gone. -/
def Cleared (plan : InstallPlan) (t s : FileTree) : Prop :=
  ∀ q, s.get? q = if q ∈ plan.obsolete ∨ q ∈ plan.removeDirectories then none else t.get? q

namespace Sound

theorem expected_iff (h : plan.Sound request t) {p : TreePath} :
    plan.IsExpected request p ↔
      ∃ entry ∈ request.downloaded, p = targetOf request.destination entry.1 := by
  constructor
  · rintro ⟨entry, hentry, rfl⟩
    obtain ⟨content, hcontent, -⟩ := (h.package.digests entry).mp hentry
    exact ⟨_, hcontent, rfl⟩
  · rintro ⟨entry, hentry, rfl⟩
    exact ⟨_, (h.package.digests (entry.1, hex (sha256 entry.2))).mpr ⟨_, hentry, rfl⟩, rfl⟩

theorem normal_of_mem (h : plan.Sound request t) {entry : Text × Bytes}
    (hentry : entry ∈ request.downloaded) : normalizeSkillPath entry.1 = .ok entry.1 :=
  h.normal _ ((h.package.digests (entry.1, hex (sha256 entry.2))).mpr ⟨_, hentry, rfl⟩)

theorem mapM_skillEntry (h : plan.Sound request t) :
    request.downloaded.mapM skillEntry = .ok request.downloaded :=
  Fallible.mapM_eq_self fun _ hentry => skillEntry_ok.mpr ⟨h.normal_of_mem hentry, rfl⟩

/-- The snapshot holds what was downloaded. -/
theorem files_perm (h : plan.Sound request t) : plan.snapshot.files.Perm request.downloaded := by
  obtain ⟨entries, hentries, -, -, -, hsnapshot⟩ := buildSkillSnapshot_ok.mp h.package.snapshot
  rw [h.mapM_skillEntry] at hentries
  rw [hsnapshot, ← Except.ok.inj hentries]
  exact List.perm_insertionSort _ _

include hnfc hfold in
/-- No file of the package leads to another. -/
theorem files_apart (h : plan.Sound request t) {a b : Text × Bytes} (ha : a ∈ request.downloaded)
    (hb : b ∈ request.downloaded)
    (hpre : targetOf request.destination a.1 <+: targetOf request.destination b.1) : a = b := by
  obtain ⟨entries, hentries, -, htree⟩ := buildSkillSnapshot_sound hnfc hfold h.package.snapshot
  rw [h.mapM_skillEntry] at hentries
  obtain rfl := Except.ok.inj hentries
  rcases slash_of_prefix hpre with hsame | ⟨rest, hrest⟩
  · exact Dict.eq_of_mem request.keyed ha hb hsame
  · exact absurd hrest (htree a ha b hb rest).1

theorem get?_obsolete (h : plan.Sound request t) (hq : q ∈ plan.obsolete) :
    ∃ content, t.get? q = some (.file content) := by
  obtain ⟨⟨entry, hentry, rfl⟩, -⟩ := (h.obsolete q).mp hq
  obtain ⟨content, hcontent, -⟩ := h.previous entry hentry
  exact ⟨content, hcontent⟩

theorem get?_removed (h : plan.Sound request t) (hq : q ∈ plan.removeDirectories) :
    t.get? q = some .dir := by
  obtain ⟨-, -, -, hdir⟩ := (h.removed q).mp hq
  exact hdir

/-- What a new file takes the place of came with the package. -/
theorem known_below (h : plan.Sound request t) {entry : Text × Text}
    (hentry : entry ∈ plan.expected)
    (hpre : targetOf request.destination entry.1 <+: q)
    (hne : q ≠ targetOf request.destination entry.1) {node : TreeNode}
    (hnode : t.get? q = some node) :
    IsInstalled request t q ∨ IsPackageDirectory request t q := by
  cases node with
  | dir =>
    have hremoved := (h.removed q).mpr ⟨entry, hentry, hpre, hnode⟩
    exact .inr ((h.directories q).mp (h.removed_known q hremoved))
  | file content =>
    have hobsolete := h.below entry hentry q content hpre hne hnode
    exact .inl ((h.tracked q).mp ((h.obsolete q).mp hobsolete).1)

/-- The old files and the directories that give way can be removed. -/
theorem clear (h : plan.Sound request t) :
    ∃ s, attemptAll (plan.obsolete.map (fun path t => orIO (t.unlink path)) ++
        plan.removeDirectories.map (fun directory t => orIO (t.rmdir directory))) t = (.ok ⟨⟩, s) ∧
      plan.Cleared t s := by
  obtain ⟨mid, hmid, hgone⟩ := unlink_files h.obsolete_nodup fun p hp => h.get?_obsolete hp
  have hremains {p : TreePath} (hdir : t.get? p = some .dir) : p ∉ plan.obsolete := fun hp => by
    obtain ⟨content, hfile⟩ := h.get?_obsolete hp
    rw [hdir] at hfile
    cases hfile
  obtain ⟨s, hs, hcleared⟩ := remove_directories (t := mid) h.removed_deepest
    (fun p hp => by
      obtain ⟨entry, -, hpre, hdir⟩ := (h.removed p).mp hp
      refine ⟨fun hnil => ?_, by rw [hgone, if_neg (hremains hdir), hdir]⟩
      rw [hnil] at hpre
      exact targetOf_ne_nil (List.prefix_nil.mp hpre))
    (fun p hp name node hnode => by
      obtain ⟨entry, hentry, hpre, hdir⟩ := (h.removed p).mp hp
      rw [hgone] at hnode
      split at hnode
      · cases hnode
      · next hstays =>
        have hbelow : targetOf request.destination entry.1 <+: p ++ [name] :=
          hpre.trans (List.prefix_append _ _)
        cases node with
        | dir => exact (h.removed _).mpr ⟨entry, hentry, hbelow, hnode⟩
        | file content =>
          refine absurd (h.below entry hentry _ content hbelow (fun heq => ?_) hnode) hstays
          have hlength := hpre.length_le
          rw [← heq, List.length_append, List.length_singleton] at hlength
          omega)
  refine ⟨s, by rw [attemptAll_append _ _ hmid, hs], fun q => ?_⟩
  rw [hcleared, hgone]
  by_cases hq : q ∈ plan.removeDirectories
  · rw [if_pos hq, if_pos (.inr hq)]
  · rw [if_neg hq]
    simp only [hq, or_false]

include hnfc hfold in
/-- There is room for the files of the package when it was cleared. -/
theorem hasRoom (h : plan.Sound request t) (hcleared : plan.Cleared t s) :
    HasRoom request.destination plan.snapshot.files s := by
  have hmem {e : Text × Bytes} (he : e ∈ plan.snapshot.files) : e ∈ request.downloaded :=
    h.files_perm.mem_iff.mp he
  have hexpected {e : Text × Bytes} (he : e ∈ plan.snapshot.files) :
      (e.1, hex (sha256 e.2)) ∈ plan.expected :=
    (h.package.digests _).mpr ⟨_, hmem he, rfl⟩
  refine ⟨fun e he => h.normal_of_mem (hmem he),
    fun a ha b hb => h.files_apart hnfc hfold (hmem ha) (hmem hb), ?_, ?_⟩
  · intro e he q content hpre hne hfile
    rw [hcleared] at hfile
    split at hfile
    · cases hfile
    · next hstays =>
      rcases List.prefix_or_prefix_of_prefix hpre prefix_targetOf with houtside | hinside
      · exact h.paths.clear q content (.inl houtside) hfile
      · exact hstays (.inl (h.above _ (hexpected he) q content hinside hpre hne hfile))
  · intro e he hdir
    rw [hcleared] at hdir
    split at hdir
    · cases hdir
    · next hstays =>
      exact hstays (.inr ((h.removed _).mpr ⟨_, hexpected he, List.prefix_rfl, hdir⟩))

end Sound

end InstallPlan

/-- What is left of the directory when the package is in it: the receipt is not written yet. -/
structure Unpacked (request : InstallRequest) (t s : FileTree) : Prop where
  files : ∀ path content, s.get? path = some (.file content) ↔
    (∃ entry ∈ request.downloaded,
      path = targetOf request.destination entry.1 ∧ content = entry.2) ∨
    t.get? path = some (.file content) ∧ ¬IsInstalled request t path
  directories : ∀ path, s.get? path = some .dir ↔
    (∃ entry ∈ request.downloaded, path <+: targetOf request.destination entry.1 ∧
      path ≠ targetOf request.destination entry.1) ∨
    t.get? path = some .dir ∧ (IsPackageDirectory request t path → ∃ p node, path <+: p ∧ p ≠ path ∧
      t.get? p = some node ∧ ¬IsInstalled request t p ∧ ¬IsPackageDirectory request t p)

theorem IsPackageDirectory.get?_dir (h : IsPackageDirectory request t q) :
    t.get? q = some .dir := by
  obtain ⟨target, ⟨_, _, content, -, -, -, htarget⟩, -, hpre, hne⟩ := h
  exact FileTree.get?_dir hpre hne htarget

namespace InstallPlan.Sound

theorem not_installed {node : TreeNode} (hnode : t.get? q = some node) (hdir : node = .dir) :
    ¬IsInstalled request t q := by
  rintro ⟨_, _, content, -, -, -, hfile⟩
  rw [hnode, hdir] at hfile
  cases hfile

omit [Platform] in
/-- What stays in the cleared directory. -/
theorem get?_cleared {node : TreeNode} (hcleared : plan.Cleared t s) : s.get? q = some node ↔
    t.get? q = some node ∧ q ∉ plan.obsolete ∧ q ∉ plan.removeDirectories := by
  rw [hcleared]
  split
  · next hgone => simp [← not_or, hgone]
  · next hstays => simp [← not_or, hstays]

include hnfc hfold in
/-- The files that are there when those of the package are written. -/
theorem written_file (h : plan.Sound request t) (hcleared : plan.Cleared t s)
    (hwritten : Written request.destination plan.snapshot.files s s') :
    s'.get? q = some (.file content) ↔
      (∃ entry ∈ request.downloaded,
        q = targetOf request.destination entry.1 ∧ content = entry.2) ∨
      t.get? q = some (.file content) ∧ ¬IsInstalled request t q := by
  have hroom := h.hasRoom hnfc hfold hcleared
  have hmem {e : Text × Bytes} : e ∈ plan.snapshot.files ↔ e ∈ request.downloaded :=
    h.files_perm.mem_iff
  constructor
  · intro hfile
    by_cases hled : ∃ e ∈ request.downloaded, q <+: targetOf request.destination e.1
    · obtain ⟨e, he, hpre⟩ := hled
      by_cases hself : q = targetOf request.destination e.1
      · rw [hself, hwritten.files e (hmem.mpr he)] at hfile
        exact .inl ⟨e, he, hself, (TreeNode.file.inj (Option.some.inj hfile)).symm⟩
      · rw [hwritten.get?_dir (hmem.mpr he) hpre hself] at hfile
        cases hfile
    · rw [hwritten.others q fun e he hp => hled ⟨e, hmem.mp he, hp⟩] at hfile
      obtain ⟨hbefore, hkept, -⟩ := (get?_cleared hcleared).mp hfile
      refine .inr ⟨hbefore, fun hinstalled => hkept ?_⟩
      refine (h.obsolete q).mpr ⟨(h.tracked q).mpr hinstalled, fun hexpected => hled ?_⟩
      obtain ⟨e, he, rfl⟩ := h.expected_iff.mp hexpected
      exact ⟨e, he, List.prefix_rfl⟩
  · rintro (⟨e, he, rfl, rfl⟩ | ⟨hfile, hforeign⟩)
    · exact hwritten.files e (hmem.mpr he)
    · have hkept : s.get? q = some (.file content) := by
        refine (get?_cleared hcleared).mpr ⟨hfile, fun hgone => ?_, fun hgone => ?_⟩
        · exact hforeign ((h.tracked q).mp ((h.obsolete q).mp hgone).1)
        · rw [h.get?_removed hgone] at hfile
          cases hfile
      rw [hwritten.others q, hkept]
      intro e he hpre
      by_cases hself : q = targetOf request.destination e.1
      · refine hforeign ((h.tracked q).mp (h.here q content ?_ hfile))
        exact h.expected_iff.mpr ⟨e, hmem.mp he, hself⟩
      · exact hroom.above e he q content hpre hself hkept

include hnfc hfold in
/-- The directories that are there when the files of the package are written. -/
theorem written_dir (h : plan.Sound request t) (hcleared : plan.Cleared t s)
    (hwritten : Written request.destination plan.snapshot.files s s') :
    s'.get? q = some .dir ↔
      (∃ entry ∈ request.downloaded, q <+: targetOf request.destination entry.1 ∧
        q ≠ targetOf request.destination entry.1) ∨
      t.get? q = some .dir ∧ q ∉ plan.removeDirectories := by
  have hroom := h.hasRoom hnfc hfold hcleared
  have hmem {e : Text × Bytes} : e ∈ plan.snapshot.files ↔ e ∈ request.downloaded :=
    h.files_perm.mem_iff
  constructor
  · intro hdir
    by_cases hled : ∃ e ∈ request.downloaded, q <+: targetOf request.destination e.1
    · obtain ⟨e, he, hpre⟩ := hled
      refine .inl ⟨e, he, hpre, fun hself => ?_⟩
      rw [hself, hwritten.files e (hmem.mpr he)] at hdir
      cases hdir
    · rw [hwritten.others q fun e he hp => hled ⟨e, hmem.mp he, hp⟩] at hdir
      obtain ⟨hbefore, -, hkept⟩ := (get?_cleared hcleared).mp hdir
      exact .inr ⟨hbefore, hkept⟩
  · rintro (⟨e, he, hpre, hself⟩ | ⟨hdir, hkept⟩)
    · exact hwritten.get?_dir (hmem.mpr he) hpre hself
    · have hstays : s.get? q = some .dir := by
        refine (get?_cleared hcleared).mpr ⟨hdir, fun hgone => ?_, hkept⟩
        obtain ⟨content, hfile⟩ := h.get?_obsolete hgone
        rw [hdir] at hfile
        cases hfile
      by_cases hled : ∃ e ∈ plan.snapshot.files, q <+: targetOf request.destination e.1
      · obtain ⟨e, he, hpre⟩ := hled
        refine hwritten.get?_dir he hpre fun hself => ?_
        exact hroom.here e he (hself ▸ hstays)
      · rw [hwritten.others q fun e he hp => hled ⟨e, he, hp⟩, hstays]

include hnfc hfold in
/-- **The package is unpacked**: what was cleared, written and swept is what should be there. -/
theorem unpacked (h : plan.Sound request t) {mid : FileTree} (hcleared : plan.Cleared t mid)
    (hwritten : Written request.destination plan.snapshot.files mid s)
    (hswept : Swept plan.packageDirectories s s') : Unpacked request t s' := by
  have hfile_iff {p : TreePath} {content : Bytes} : s.get? p = some (.file content) ↔ _ :=
    h.written_file hnfc hfold hcleared hwritten
  have hdir_iff {p : TreePath} := h.written_dir hnfc hfold hcleared hwritten (q := p)
  refine ⟨fun q content => hswept.get?_file.trans hfile_iff, fun q => ?_⟩
  rw [hswept.get?_dir]
  constructor
  · rintro ⟨hdir, hheld⟩
    refine or_iff_not_imp_left.mpr fun hled => ?_
    have hnot_led {e : Text × Bytes} (he : e ∈ request.downloaded) {p : TreePath}
        (hbelow : q <+: p) (hne : p ≠ q) : ¬p <+: targetOf request.destination e.1 := by
      refine fun hpre => hled ⟨e, he, hbelow.trans hpre, fun hself => hne ?_⟩
      rw [hself] at hbelow ⊢
      exact hpre.eq_of_length (Nat.le_antisymm hpre.length_le hbelow.length_le)
    refine ⟨((hdir_iff.mp hdir).resolve_left hled).1, fun hq => ?_⟩
    obtain ⟨p, node, hbelow, hne, hnode, hstays⟩ := hheld ((h.directories q).mpr hq)
    cases node with
    | file content =>
      rcases hfile_iff.mp hnode with ⟨e, he, hself, -⟩ | ⟨hbefore, hforeign⟩
      · exact absurd (hself ▸ List.prefix_rfl) (hnot_led he hbelow hne)
      · refine ⟨p, _, hbelow, hne, hbefore, hforeign, fun hp => ?_⟩
        rw [hp.get?_dir] at hbefore
        cases hbefore
    | dir =>
      rcases hdir_iff.mp hnode with ⟨e, he, hpre, -⟩ | ⟨hbefore, -⟩
      · exact absurd hpre (hnot_led he hbelow hne)
      · exact ⟨p, _, hbelow, hne, hbefore, not_installed hbefore rfl,
          fun hp => hstays rfl ((h.directories p).mpr hp)⟩
  · rintro (⟨e, he, hpre, hself⟩ | ⟨hdir, hheld⟩)
    · refine ⟨hdir_iff.mpr (.inl ⟨e, he, hpre, hself⟩), fun _ => ?_⟩
      exact ⟨_, _, hpre, Ne.symm hself, hfile_iff.mpr (.inl ⟨e, he, rfl, rfl⟩), nofun⟩
    · have hkept {p : TreePath} (hp : ¬IsPackageDirectory request t p) :
          p ∉ plan.removeDirectories := fun hgone =>
        hp ((h.directories p).mp (h.removed_known p hgone))
      -- What gives way holds only what came with the package.
      have hself : q ∉ plan.removeDirectories := by
        intro hgone
        obtain ⟨entry, hentry, hpre, -⟩ := (h.removed q).mp hgone
        obtain ⟨p, node, hbelow, hne, hnode, hforeign⟩ :=
          hheld ((h.directories q).mp (h.removed_known q hgone))
        have hbelow' : p ≠ targetOf request.destination entry.1 := by
          rintro rfl
          exact hne (hpre.eq_of_length
            (Nat.le_antisymm hpre.length_le hbelow.length_le))
        exact (h.known_below hentry (hpre.trans hbelow) hbelow' hnode).elim hforeign.1 hforeign.2
      refine ⟨hdir_iff.mpr (.inr ⟨hdir, hself⟩), fun hq => ?_⟩
      obtain ⟨p, node, hbelow, hne, hnode, hforeign⟩ := hheld ((h.directories q).mp hq)
      refine ⟨p, node, hbelow, hne, ?_, fun _ hp => hforeign.2 ((h.directories p).mp hp)⟩
      cases node with
      | file content => exact hfile_iff.mpr (.inr ⟨hnode, hforeign.1⟩)
      | dir => exact hdir_iff.mpr (.inr ⟨hnode, hkept hforeign.2⟩)

end InstallPlan.Sound

/-! ### The receipt -/

/-- **What an installation leaves.** -/
structure Installed (request : InstallRequest) (t t' : FileTree) : Prop where
  files : ∀ path content, t'.get? path = some (.file content) ↔
    path = request.receiptPath ∧ content = request.receiptBody request.files ∨
    (∃ entry ∈ request.downloaded,
      path = targetOf request.destination entry.1 ∧ content = entry.2) ∨
    path ≠ request.receiptPath ∧ t.get? path = some (.file content) ∧ ¬IsInstalled request t path
  directories : ∀ path, t'.get? path = some .dir ↔
    path <+: request.receiptPath ∧ path ≠ request.receiptPath ∨
    (∃ entry ∈ request.downloaded, path <+: targetOf request.destination entry.1 ∧
      path ≠ targetOf request.destination entry.1) ∨
    t.get? path = some .dir ∧ (IsPackageDirectory request t path → ∃ p node, path <+: p ∧ p ≠ path ∧
      t.get? p = some node ∧ ¬IsInstalled request t p ∧ ¬IsPackageDirectory request t p)

namespace PathsChecked

omit [Platform] in
theorem receipt_ne_nil (h : PathsChecked request t) : request.receiptPath ≠ [] := fun hnil =>
  h.beside (hnil ▸ List.nil_prefix)

omit [Platform] in
/-- The receipt and what leads to it are no files of the package. -/
theorem receipt_apart (h : PathsChecked request t) {name : Text} :
    ¬request.receiptPath <+: targetOf request.destination name ∧
      ¬targetOf request.destination name <+: request.receiptPath := by
  refine ⟨fun hpre => ?_, fun hpre => h.outside (prefix_targetOf.trans hpre)⟩
  exact (List.prefix_or_prefix_of_prefix hpre prefix_targetOf).elim h.beside h.outside

omit [Platform] in
/-- What leads to the receipt is no file. -/
theorem clear_above (h : PathsChecked request t) (hpre : q <+: request.receiptPath)
    (hne : q ≠ request.receiptPath) : t.get? q ≠ some (.file content) :=
  h.clear q content (.inr ((prefix_dropLast_iff h.receipt_ne_nil).mpr ⟨hpre, hne⟩))

end PathsChecked

/-- **The receipt is written** beside what was unpacked. -/
theorem Unpacked.write_receipt (hpaths : PathsChecked request t) (h : Unpacked request t s) :
    ∃ t', writeAt request.receiptPath (request.receiptBody request.files) s = .ok t' ∧
      Installed request t t' := by
  obtain ⟨t', hwrite, hget⟩ := @exists_writeAt s request.receiptPath
    (request.receiptBody request.files) hpaths.receipt_ne_nil
    (fun q content hpre hne hfile => by
      rcases (h.files q content).mp hfile with ⟨e, -, rfl, -⟩ | ⟨hbefore, -⟩
      · exact hpaths.receipt_apart.2 hpre
      · exact hpaths.clear_above hpre hne hbefore)
    (fun hdir => by
      rcases (h.directories _).mp hdir with ⟨e, -, hpre, -⟩ | ⟨hbefore, -⟩
      · exact hpaths.receipt_apart.1 hpre
      · exact hpaths.receipt hbefore)
  refine ⟨t', hwrite, fun path content => ?_, fun path => ?_⟩
  · rw [hget]
    by_cases hself : path = request.receiptPath
    · rw [if_pos hself]
      constructor
      · intro hbody
        exact .inl ⟨hself, (TreeNode.file.inj (Option.some.inj hbody)).symm⟩
      · rintro (⟨-, rfl⟩ | ⟨e, -, heq, -⟩ | ⟨hne, -⟩)
        · rfl
        · exact absurd (by rw [← hself, heq]) hpaths.receipt_apart.1
        · exact absurd hself hne
    · rw [if_neg hself]
      by_cases hpre : path <+: request.receiptPath
      · rw [if_pos hpre]
        refine ⟨nofun, ?_⟩
        rintro (⟨heq, -⟩ | ⟨e, -, rfl, -⟩ | ⟨-, hfile, -⟩)
        · exact absurd heq hself
        · exact absurd hpre hpaths.receipt_apart.2
        · exact absurd hfile (hpaths.clear_above hpre hself)
      · rw [if_neg hpre, h.files]
        simp only [hself, false_and, false_or, ne_eq, not_false_eq_true, true_and]
  · rw [hget]
    by_cases hself : path = request.receiptPath
    · rw [if_pos hself]
      refine ⟨nofun, ?_⟩
      rintro (⟨-, hne⟩ | ⟨e, -, hpre, -⟩ | ⟨hdir, -⟩)
      · exact absurd hself hne
      · exact absurd (hself ▸ hpre) hpaths.receipt_apart.1
      · exact absurd (hself ▸ hdir) hpaths.receipt
    · rw [if_neg hself]
      by_cases hpre : path <+: request.receiptPath
      · rw [if_pos hpre]
        exact ⟨fun _ => .inl ⟨hpre, hself⟩, fun _ => rfl⟩
      · rw [if_neg hpre, h.directories]
        simp only [hpre, false_and, false_or]

include hnfc hfold in
/-- **The changes of a sound plan all succeed.** -/
theorem InstallPlan.Sound.run (h : plan.Sound request t) :
    ∃ t', attemptAll (plan.operations request) t = (.ok ⟨⟩, t') ∧ Installed request t t' := by
  obtain ⟨cleared, hclear, hcleared⟩ := h.clear
  obtain ⟨mid, hwrite, hwritten⟩ := write_entries (h.hasRoom hnfc hfold hcleared)
  have hroot : [] ∉ plan.packageDirectories := fun hmem => by
    obtain ⟨target, -, ⟨hpre, hne⟩, -⟩ := (h.directories []).mp hmem
    exact hne (List.prefix_nil.mp hpre).symm
  obtain ⟨swept, hsweep, hswept⟩ := sweep_directories (s := mid) h.deepest hroot
  obtain ⟨t', hreceipt, hinstalled⟩ :=
    (h.unpacked hnfc hfold hcleared hwritten hswept).write_receipt h.paths
  refine ⟨t', ?_, hinstalled⟩
  rw [InstallPlan.operations, ← List.append_assoc, attemptAll_append _ _ hclear,
    attemptAll_append _ _ hwrite, attemptAll_append _ _ hsweep, h.package.listed, attemptAll,
    hreceipt]
  rfl

/-! ### Installing again -/

omit [Platform] in
/-- **The receipt is read as it was written.** -/
theorem readReceipt_receiptBody {files : List (Text × Text)} (hkeyed : (Dict.keys files).Nodup) :
    readReceipt request (request.receiptBody files) =
      .ok ⟨files.map fun entry => (entry.1.codepoints, .str entry.2.codepoints),
        some request.manifest.revisionId.codepoints⟩ := by
  have hkeys :
      Dict.keys (files.map fun entry => (entry.1, Json.str entry.2)) = Dict.keys files := by
    rw [Dict.keys, Dict.keys, List.map_map]
    rfl
  have hdistinct : (request.receipt files).Distinct := by
    have hnames : List.Nodup (["service_origin", "library_id", "skill_id", "revision_id",
        "snapshot_sha256", "files"] : List Text) := by decide
    refine ⟨hnames, Json.distinctFields_iff.mpr fun field hfield => ?_⟩
    simp only [List.mem_cons, List.not_mem_nil, or_false] at hfield
    rcases hfield with rfl | rfl | rfl | rfl | rfl | rfl
    · trivial
    · trivial
    · trivial
    · trivial
    · trivial
    · refine ⟨hkeys ▸ hkeyed, Json.distinctFields_iff.mpr fun field hfield => ?_⟩
      obtain ⟨entry, -, rfl⟩ := List.mem_map.mp hfield
      trivial
  have hblank : Foundation.IsBlank ['\n'] := by decide
  have hloads :=
    JsonValue.loads_write JsonValue.keepsDistinct_lastPairs (.indented 2) false hdistinct hblank
  -- The fields of the decoded receipt.
  have hfield (name : Text) : JsonValue.field? (JsonValue.ofFields [
      ("service_origin", .str request.serviceOrigin), ("library_id", .str request.manifest.libraryId),
      ("skill_id", .str request.manifest.skillId), ("revision_id", .str request.manifest.revisionId),
      ("snapshot_sha256", .str request.manifest.snapshotSha256),
      ("files", .obj (files.map fun entry => (entry.1, .str entry.2)))]) name = _ :=
    JsonValue.field?_ofFields _ name
  simp only [readReceipt, Fallible.bind_ok, Fallible.get_ok, Fallible.check_ok, Fallible.pure_ok,
    exists_const]
  refine ⟨_, utf8Decode_utf8Encode _, _, hloads, _, rfl, ?_,
    JsonValue.ofFields (files.map fun entry => (entry.1, .str entry.2)), ?_, ?_⟩
  · intro field hfield'
    simp only [InstallRequest.identity, List.mem_cons, List.not_mem_nil, or_false] at hfield'
    rcases hfield' with rfl | rfl | rfl
    · rw [hfield]
      rfl
    · rw [hfield]
      rfl
    · rw [hfield]
      rfl
  · rw [hfield]
    rfl
  · rw [hfield, JsonValue.ofFields_eq_map, List.map_map]
    rfl

variable {t' : FileTree}

namespace Installed

theorem get?_file (h : Installed request t t') {entry : Text × Bytes}
    (hentry : entry ∈ request.downloaded) :
    t'.get? (targetOf request.destination entry.1) = some (.file entry.2) :=
  (h.files _ _).mpr (.inr (.inl ⟨entry, hentry, rfl, rfl⟩))

theorem get?_receipt (h : Installed request t t') :
    t'.get? request.receiptPath = some (.file (request.receiptBody request.files)) :=
  (h.files _ _).mpr (.inl ⟨rfl, rfl⟩)

theorem pathsChecked (hpaths : PathsChecked request t) (h : Installed request t t') :
    PathsChecked request t' := by
  have hshort : ¬request.receiptPath <+: request.receiptPath.dropLast := fun hpre =>
    ((prefix_dropLast_iff hpaths.receipt_ne_nil).mp hpre).2 rfl
  refine ⟨hpaths.outside, hpaths.beside, hpaths.name, fun q content hq hfile => ?_, ?_⟩
  · rcases (h.files q content).mp hfile with ⟨rfl, -⟩ | ⟨e, -, rfl, -⟩ | ⟨-, hbefore, -⟩
    · exact hq.elim hpaths.beside hshort
    · rcases hq with hq | hq
      · have hlength := @length_lt_targetOf request.destination e.1
        exact absurd hq.length_le (by omega)
      · exact hpaths.receipt_apart.2 (hq.trans (List.dropLast_prefix _))
    · exact hpaths.clear q content hq hbefore
  · rw [h.get?_receipt]
    nofun

/-- **There is nothing to do when the package is installed.** -/
theorem again (hsound : plan.Sound request t) (h : Installed request t t') :
    planInstall request t' = .ok none := by
  have hlisted := hsound.package.listed
  have hthere : ∀ entry ∈ request.files, normalizeSkillPath entry.1 = .ok entry.1 ∧
      ∃ content, t'.get? (targetOf request.destination entry.1) = some (.file content) ∧
        entry.2 = hex (sha256 content) := by
    rw [← hlisted]
    intro entry hentry
    obtain ⟨content, hcontent, hdigest⟩ := (hsound.package.digests entry).mp hentry
    exact ⟨hsound.normal entry hentry, content, h.get?_file hcontent, hdigest⟩
  have hearlier : earlierInstall request t' =
      .ok ⟨request.files.map fun entry => (entry.1.codepoints, .str entry.2.codepoints),
        some request.manifest.revisionId.codepoints⟩ := by
    rw [earlierInstall, fileAt?_iff.mpr h.get?_receipt]
    exact readReceipt_receiptBody (hlisted ▸ hsound.package.keyed)
  have htracked : (request.files.map fun entry =>
      (entry.1.codepoints, JsonValue.str entry.2.codepoints)).mapM
        (trackedFile t' request.destination) = .ok request.files := by
    have hmap := Fallible.mapM_map_ok (f := trackedFile t' request.destination)
      (g := fun entry => (entry.1.codepoints, JsonValue.str entry.2.codepoints)) (h := id)
      fun entry hentry => trackedFile_ok.mpr ⟨(hthere entry hentry).1, rfl, (hthere entry hentry).2⟩
    rwa [List.map_id] at hmap
  have hremoved (tracked packageDirectories obsolete : List TreePath)
      (htracked : ∀ entry ∈ request.files, targetOf request.destination entry.1 ∈ tracked) :
      request.files.mapM (fun entry => replacedBy t' request.destination tracked packageDirectories
        obsolete entry.1) = .ok (request.files.map fun _ => []) := by
    have hmap := @Fallible.mapM_map_ok _ _ _ _ (fun entry => replacedBy t' request.destination
        tracked packageDirectories obsolete entry.1) id (fun _ => []) request.files
      fun entry hentry => by
        obtain ⟨hnormal, content, hfile, -⟩ := hthere entry hentry
        exact replacedBy_file hnormal hfile (htracked entry hentry)
    rwa [List.map_id] at hmap
  simp only [planInstall, Fallible.bind_ok, Prod.exists]
  refine ⟨⟨⟩, checkPaths_ok.mpr (h.pathsChecked hsound.paths), plan.snapshot, plan.expected,
    hsound.checked, _, hearlier, request.files, htracked, plan.expected.map fun _ => [], ?_, ?_⟩
  · rw [hlisted]
    exact hremoved _ _ _ fun entry hentry => List.mem_dedup.mpr
      (List.mem_map_of_mem (f := fun entry => targetOf request.destination entry.1) hentry)
  · rw [hlisted]
    exact if_pos ⟨rfl, fun _ h => h, fun _ h => h⟩

end Installed

end

section Sample

attribute [local instance] shaPlatform

def sampleInstall : InstallRequest where
  destination := ["home", "tidy"]
  manifest :=
    { name := "tidy"
      libraryId := "lib_1"
      skillId := "skl_1"
      revisionId := "rev_1"
      snapshotSha256 := hex (snapshotOf sampleSkillFiles).snapshotSha256
      files := sampleSkillFiles.map fun file => ⟨file.1, file.2.length, hex (sha256 file.2)⟩ }
  downloaded := sampleSkillFiles
  keyed := by decide
  serviceOrigin := "https://library"
  receiptPath := ["home", "receipts", "tidy.json"]

/-- There is a file where the package goes. -/
def sampleInstallHome : FileTree where
  nodes := [([], .dir), (["home"], .dir), (["home", "tidy"], .dir),
    (["home", "tidy", "notes"], .file [33])]
  keyed := by decide +kernel
  root := List.mem_cons_self
  closed := FileTree.closed_of_dropLast (by decide +kernel)

def sampleInstalled : FileTree := (installSkillPackage sampleInstall sampleInstallHome).2

theorem sampleInstall_run :
    installSkillPackage sampleInstall sampleInstallHome = (.ok .installed, sampleInstalled) := by
  have hanswer : (installSkillPackage sampleInstall sampleInstallHome).1 = .ok .installed := by
    decide +kernel
  rw [sampleInstalled, ← hanswer, Prod.mk.eta]

end Sample

end PatchouliLib
