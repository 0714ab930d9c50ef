import PatchouliLib.LibrarySkills.Install

/-!
# What is known before anything is changed

The checks of an installation look at the directory as it is.  Together they tell all that
the changes will meet: which files stand where the package goes, and that whatever has to
give way came with the package before and is as it was installed.

## Main definitions

* `InstallPlan.Sound` — what a plan knows of the directory.

## Main results

* `directoryPlan_ok` — **the search through a directory finds all that is in it**, and ends.
* `planInstall_ok` — a plan is sound.
* `planInstall_avoids` — a refusal comes from a check.
-/

namespace PatchouliLib

open Foundation

/-! ### The search through a directory -/

section

variable {t : FileTree} {packageDirectories obsolete : List TreePath} {start : TreePath}

/-- The state of the search: the directories that were looked through, and those in wait. -/
structure SearchState (t : FileTree) (packageDirectories obsolete : List TreePath)
    (start : TreePath) (pending removable : List TreePath) : Prop where
  nodup : (removable ++ pending).Nodup
  below : ∀ p ∈ removable ++ pending, start <+: p ∧ t.get? p = some .dir
  parents : ∀ p ∈ removable ++ pending, p = start ∨ p.dropLast ∈ removable
  started : start ∈ removable ++ pending
  tracked : ∀ p ∈ removable, p ∈ packageDirectories
  searched : ∀ p ∈ removable, ∀ child ∈ t.children p,
    (t.get? child = some .dir → child ∈ removable ++ pending) ∧
      (t.get? child ≠ some .dir → child ∈ obsolete)

theorem SearchState.initial (hdir : t.get? start = some .dir) :
    SearchState t packageDirectories obsolete start [start] [] where
  nodup := List.nodup_singleton _
  below p hp := by
    rw [List.mem_singleton.mp hp]
    exact ⟨List.prefix_rfl, hdir⟩
  parents p hp := .inl (List.mem_singleton.mp hp)
  started := List.mem_singleton.mpr rfl
  tracked _ h := absurd h List.not_mem_nil
  searched _ h := absurd h List.not_mem_nil

theorem containsEntry_iff {path : TreePath} {candidates : List TreePath} :
    containsEntry t path candidates = true ↔ (∃ node, t.get? path = some node) ∧
      path ∈ candidates := by
  rw [containsEntry, Bool.and_eq_true, FileTree.exists?, Option.isSome_iff_exists,
    List.contains_iff_mem]

/-- One directory is looked through. -/
theorem SearchState.next {parent : TreePath} {pending removable : List TreePath}
    (h : SearchState t packageDirectories obsolete start (parent :: pending) removable)
    (hparent : parent ∈ packageDirectories)
    (hchildren : ∀ child ∈ t.children parent, t.get? child = some .dir ∨ child ∈ obsolete) :
    SearchState t packageDirectories obsolete start
      (((t.children parent).filter t.isDir).reverse ++ pending) (parent :: removable) := by
  obtain ⟨hstart, hdir⟩ := h.below parent (List.mem_append_right _ List.mem_cons_self)
  have hkid {child : TreePath} (hchild : child ∈ (t.children parent).filter t.isDir) :
      ∃ name, child = parent ++ [name] ∧ t.get? child = some .dir := by
    obtain ⟨hmem, hisdir⟩ := List.mem_filter.mp hchild
    obtain ⟨name, rfl, -⟩ := FileTree.mem_children.mp hmem
    exact ⟨name, rfl, FileTree.isDir_iff.mp hisdir⟩
  -- A directory in here was not met before: its parent is looked through only now.
  have hnew {child : TreePath} (hchild : child ∈ (t.children parent).filter t.isDir) :
      child ∉ removable ++ parent :: pending := by
    intro hmem
    obtain ⟨name, rfl, -⟩ := hkid hchild
    rcases h.parents _ hmem with hsame | hbefore
    · have hlength := hstart.length_le
      rw [← hsame, List.length_append, List.length_singleton] at hlength
      omega
    · rw [List.dropLast_concat] at hbefore
      exact (List.nodup_append.mp h.nodup).2.2 _ hbefore _ List.mem_cons_self rfl
  have hperm : (parent :: removable ++ (((t.children parent).filter t.isDir).reverse ++
      pending)).Perm ((t.children parent).filter t.isDir ++ (removable ++ parent :: pending)) := by
    have hmoved := ((List.reverse_perm ((t.children parent).filter t.isDir)).append_right
      pending).append_left (parent :: removable)
    have hswap : (removable ++ ((t.children parent).filter t.isDir ++ pending)).Perm
        ((t.children parent).filter t.isDir ++ removable ++ pending) := by
      rw [← List.append_assoc]
      exact List.perm_append_comm.append_right pending
    refine hmoved.trans ((hswap.cons parent).trans ?_)
    rw [← List.append_assoc]
    exact List.perm_middle.symm
  have hmem_iff {p : TreePath} := hperm.mem_iff (a := p)
  refine ⟨hperm.nodup_iff.mpr ?_, ?_, ?_, hmem_iff.mpr (List.mem_append_right _ h.started), ?_, ?_⟩
  · have hkeys : (t.children parent).Nodup := t.keyed.filter _
    exact List.nodup_append.mpr ⟨hkeys.filter _, h.nodup, fun a ha b hb hab => hnew ha (hab ▸ hb)⟩
  · intro p hp
    rcases List.mem_append.mp (hmem_iff.mp hp) with hp | hp
    · obtain ⟨name, rfl, hisdir⟩ := hkid hp
      exact ⟨hstart.trans (List.prefix_append _ _), hisdir⟩
    · exact h.below p hp
  · intro p hp
    rcases List.mem_append.mp (hmem_iff.mp hp) with hp | hp
    · obtain ⟨name, rfl, -⟩ := hkid hp
      rw [List.dropLast_concat]
      exact .inr List.mem_cons_self
    · exact (h.parents p hp).imp_right (List.mem_cons_of_mem _)
  · intro p hp
    rcases List.mem_cons.mp hp with rfl | hp
    · exact hparent
    · exact h.tracked p hp
  · intro p hp child hchild
    rcases List.mem_cons.mp hp with rfl | hp
    · refine ⟨fun hisdir => hmem_iff.mpr (List.mem_append_left _ ?_), fun hnot => ?_⟩
      · exact List.mem_filter.mpr ⟨hchild, FileTree.isDir_iff.mpr hisdir⟩
      · exact (hchildren child hchild).resolve_left hnot
    · obtain ⟨hdirs, hfiles⟩ := h.searched p hp child hchild
      exact ⟨fun hisdir => hmem_iff.mpr (List.mem_append_right _ (hdirs hisdir)), hfiles⟩

/-- What was found in a directory. -/
structure Searched (t : FileTree) (packageDirectories obsolete : List TreePath) (start : TreePath)
    (removable : List TreePath) : Prop where
  dirs : ∀ p, p ∈ removable ↔ start <+: p ∧ t.get? p = some .dir
  tracked : ∀ p ∈ removable, p ∈ packageDirectories
  files : ∀ p content, start <+: p → t.get? p = some (.file content) → p ∈ obsolete

/-- At the end of the search everything was found. -/
theorem SearchState.searched_of_done {removable : List TreePath}
    (h : SearchState t packageDirectories obsolete start [] removable) :
    Searched t packageDirectories obsolete start removable := by
  have hstarted : start ∈ removable := by simpa using h.started
  -- Down from the start, a directory is found when its parent was.
  have hall : ∀ rest node, t.get? (start ++ rest) = some node →
      (node = .dir → start ++ rest ∈ removable) ∧
        (node ≠ .dir → rest ≠ [] → start ++ rest ∈ obsolete) := by
    intro rest
    induction rest using List.reverseRecOn with
    | nil =>
      intro node hnode
      rw [List.append_nil]
      exact ⟨fun _ => hstarted, fun _ hne => absurd rfl hne⟩
    | append_singleton rest name ih =>
      intro node hnode
      rw [← List.append_assoc] at hnode ⊢
      have hparent := (ih _ (FileTree.get?_parent hnode)).1 rfl
      obtain ⟨hdirs, hfiles⟩ := h.searched _ hparent (start ++ rest ++ [name])
        (FileTree.mem_children.mpr ⟨name, rfl, node, hnode⟩)
      refine ⟨fun hdir => ?_, fun hfile _ => hfiles ?_⟩
      · simpa using hdirs (hnode.trans (by rw [hdir]))
      · rw [hnode]
        simpa using hfile
  have hbelow : ∀ p ∈ removable, start <+: p ∧ t.get? p = some .dir := fun p hp =>
    h.below p (List.mem_append_left _ hp)
  refine ⟨fun p => ⟨hbelow p, ?_⟩, h.tracked, ?_⟩
  · rintro ⟨⟨rest, rfl⟩, hdir⟩
    exact (hall rest _ hdir).1 rfl
  · rintro p content ⟨rest, rfl⟩ hfile
    refine (hall rest _ hfile).2 (by simp) ?_
    rintro rfl
    rw [List.append_nil] at hfile
    rw [(hbelow start hstarted).2] at hfile
    cases hfile

/-- The search goes on, and there is fuel for it. -/
theorem directoryPlan_of_state {fuel : ℕ} {pending removable : List TreePath}
    (h : SearchState t packageDirectories obsolete start pending removable)
    (hfuel : t.nodes.length ≤ fuel + removable.length) :
    (∀ result, directoryPlan t packageDirectories obsolete fuel pending removable = .ok result →
      Searched t packageDirectories obsolete start result) ∧
    directoryPlan t packageDirectories obsolete fuel pending removable ≠ .error .io := by
  induction fuel generalizing pending removable with
  | zero =>
    cases pending with
    | nil =>
      refine ⟨fun result hresult => ?_, by simp [directoryPlan]⟩
      rw [directoryPlan] at hresult
      rw [← Except.ok.inj hresult]
      exact h.searched_of_done
    | cons parent pending =>
      -- More directories were met than there are.
      have hsubset : removable ++ parent :: pending ⊆ Dict.keys t.nodes := fun p hp =>
        Dict.mem_keys.mpr ⟨_, FileTree.get?_eq_some.mp (h.below p hp).2⟩
      have hlength := (h.nodup.subperm hsubset).length_le
      rw [List.length_append, List.length_cons, Dict.keys, List.length_map] at hlength
      omega
  | succ fuel ih =>
    cases pending with
    | nil =>
      refine ⟨fun result hresult => ?_, by simp [directoryPlan]⟩
      rw [directoryPlan] at hresult
      rw [← Except.ok.inj hresult]
      exact h.searched_of_done
    | cons parent pending =>
      rw [directoryPlan]
      by_cases hparent : containsEntry t parent packageDirectories = true
      · by_cases hchildren : ∀ child ∈ t.children parent,
            t.isDir child = true ∨ containsEntry t child obsolete = true
        · have hnext := h.next (containsEntry_iff.mp hparent).2 fun child hchild =>
            (hchildren child hchild).imp FileTree.isDir_iff.mp fun h => (containsEntry_iff.mp h).2
          rw [Fallible.check_of hparent, Fallible.ok_bind, Fallible.check_of hchildren,
            Fallible.ok_bind]
          refine ih hnext ?_
          rw [List.length_cons]
          omega
        · rw [Fallible.check_of hparent, Fallible.ok_bind, Fallible.check_of_not hchildren]
          simp
      · rw [Fallible.check_of_not hparent]
        simp

/-- **The search through a directory finds all that is in it**, and ends. -/
theorem directoryPlan_ok (hdir : t.get? start = some .dir) :
    (∀ result, directoryPlan t packageDirectories obsolete t.nodes.length [start] [] = .ok result →
      Searched t packageDirectories obsolete start result) ∧
    directoryPlan t packageDirectories obsolete t.nodes.length [start] [] ≠ .error .io :=
  directoryPlan_of_state (.initial hdir) (Nat.le_add_right _ _)

end

/-! ### Targets -/

section

variable {root q : TreePath} {path other : Text}

theorem targetOf_injective (root : TreePath) : Function.Injective (targetOf root) := by
  intro a b h
  have hsplit := List.append_cancel_left h
  rw [← @List.intercalate_splitOn _ a _ _ '/', hsplit, List.intercalate_splitOn]

theorem prefix_targetOf : root <+: targetOf root path := List.prefix_append _ _

theorem length_lt_targetOf : root.length < (targetOf root path).length := by
  have hpos := List.length_pos_iff.mpr (List.splitOn_ne_nil '/' path)
  rw [targetOf, List.length_append]
  omega

/-- A file goes below another one only if its path does. -/
theorem slash_of_prefix (h : targetOf root path <+: targetOf root other) :
    path = other ∨ ∃ rest, other = path ++ '/' :: rest := by
  obtain ⟨tail, htail⟩ := (List.prefix_append_right_inj root).mp h
  cases tail with
  | nil =>
    rw [List.append_nil] at htail
    exact .inl (targetOf_injective root (congrArg (root ++ ·) htail))
  | cons name names =>
    refine .inr ⟨['/'].intercalate (name :: names), ?_⟩
    have hjoin := intercalate_append (List.splitOn_ne_nil '/' path) (List.cons_ne_nil name names)
    rw [htail, List.intercalate_splitOn, List.intercalate_splitOn] at hjoin
    exact hjoin

theorem mem_packageParents : q ∈ packageParents root (targetOf root path) ↔
    root <+: q ∧ q <+: targetOf root path ∧ q ≠ targetOf root path := by
  rw [packageParents, List.mem_filter, List.mem_inits, decide_eq_true_iff]
  constructor
  · rintro ⟨hpre, hlength, hne⟩
    exact ⟨List.prefix_of_prefix_length_le prefix_targetOf hpre hlength, hpre, hne⟩
  · rintro ⟨hroot, hpre, hne⟩
    exact ⟨hpre, hroot.length_le, hne⟩

theorem mem_packageDirectoriesOf : q ∈ packageDirectoriesOf root (targetOf root path) ↔
    (root <+: q ∧ q ≠ root) ∧ q <+: targetOf root path ∧ q ≠ targetOf root path := by
  rw [packageDirectoriesOf, List.mem_filter, mem_packageParents, decide_eq_true_iff]
  constructor
  · rintro ⟨⟨hroot, hpre⟩, hlength⟩
    exact ⟨⟨hroot, fun heq => by rw [heq] at hlength; exact lt_irrefl _ hlength⟩, hpre⟩
  · rintro ⟨⟨hroot, hne⟩, hpre⟩
    refine ⟨⟨hroot, hpre⟩, lt_of_le_of_ne hroot.length_le fun hlength => hne ?_⟩
    exact (hroot.eq_of_length hlength).symm

variable [Platform] {t : FileTree} {obsolete : List TreePath} {target : TreePath}

/-- A path is a target when it is normal, and no file above it stays. -/
theorem installTarget_ok : installTarget t root path obsolete = .ok target ↔
    normalizeSkillPath path = .ok path ∧
      (∀ p content, root <+: p → p <+: targetOf root path → p ≠ targetOf root path →
        t.get? p = some (.file content) → p ∈ obsolete) ∧
      target = targetOf root path := by
  have hcomponent (p : TreePath) : (¬(t.exists? p = true ∧ t.isDir p = false ∧
      containsEntry t p obsolete = false)) ↔
      ∀ content, t.get? p = some (.file content) → p ∈ obsolete := by
    rw [containsEntry, FileTree.exists?, FileTree.isDir]
    cases hnode : t.get? p with
    | none => simp
    | some node => cases node <;> simp
  simp only [installTarget, Fallible.bind_ok, Fallible.mapError_ok, Fallible.check_ok,
    Fallible.pure_ok, exists_and_left, exists_const]
  constructor
  · rintro ⟨normalized, hnormal, rfl, hparents, rfl⟩
    refine ⟨hnormal, fun p content hroot hpre hne => ?_, rfl⟩
    exact (hcomponent p).mp (hparents p (mem_packageParents.mpr ⟨hroot, hpre, hne⟩)) content
  · rintro ⟨hnormal, hparents, rfl⟩
    refine ⟨path, hnormal, rfl, fun p hp => (hcomponent p).mpr fun content => ?_, rfl⟩
    obtain ⟨hroot, hpre, hne⟩ := mem_packageParents.mp hp
    exact hparents p content hroot hpre hne

omit [Platform] in
theorem fileAt?_iff {content : Bytes} :
    fileAt? t q = some content ↔ t.get? q = some (.file content) := by
  rw [fileAt?]
  cases t.get? q with
  | none => simp
  | some node => cases node <;> simp

/-- A file of a receipt is a file that is there as the receipt says. -/
theorem trackedFile_ok {field : Codepoints × JsonValue} {entry : Text × Text} :
    trackedFile t root field = .ok entry ↔ normalizeSkillPath entry.1 = .ok entry.1 ∧
      field = (entry.1.codepoints, .str entry.2.codepoints) ∧
      ∃ content, t.get? (targetOf root entry.1) = some (.file content) ∧
        entry.2 = hex (sha256 content) := by
  have hstr {value : JsonValue} {s : Codepoints} : value.str? = some s ↔ value = .str s := by
    cases value <;> simp [JsonValue.str?]
  simp only [trackedFile, Fallible.bind_ok, Fallible.get_ok, Fallible.check_ok, Fallible.pure_ok,
    exists_and_left, exists_const, installTarget_ok, JsonValue.text?_eq_some, fileAt?_iff, hstr]
  constructor
  · rintro ⟨path, hpath, target, ⟨hnormal, -, rfl⟩, content, hcontent, hdigest, rfl⟩
    exact ⟨hnormal, Prod.ext hpath.symm hdigest, content, hcontent, rfl⟩
  · rintro ⟨hnormal, rfl, content, hcontent, hdigest⟩
    refine ⟨entry.1, rfl, _, ⟨hnormal, fun p other _ hpre hne hother => ?_, rfl⟩, content,
      hcontent, by rw [hdigest], Prod.ext rfl hdigest.symm⟩
    rw [FileTree.get?_dir hpre hne hcontent] at hother
    cases hother

end

/-! ### The checks -/

section

variable [Platform] {request : InstallRequest} {t : FileTree}

/-- What is known of the two paths. -/
structure PathsChecked (request : InstallRequest) (t : FileTree) : Prop where
  outside : ¬request.destination <+: request.receiptPath
  beside : ¬request.receiptPath <+: request.destination
  name : request.destination.getLast?.getD [] = request.manifest.name
  clear : ∀ q content, q <+: request.destination ∨ q <+: request.receiptPath.dropLast →
    t.get? q ≠ some (.file content)
  receipt : t.get? request.receiptPath ≠ some .dir

omit [Platform] in
theorem checkPaths_ok : checkPaths request t = .ok ⟨⟩ ↔ PathsChecked request t := by
  have hclear (q : TreePath) : (t.exists? q = true → t.isDir q = true) ↔
      ∀ content, t.get? q ≠ some (.file content) := by
    rw [FileTree.exists?, FileTree.isDir]
    cases t.get? q with
    | none => simp
    | some node => cases node <;> simp
  have hreceipt (q : TreePath) : (t.exists? q = true → t.isFile q = true) ↔
      t.get? q ≠ some .dir := by
    rw [FileTree.exists?, FileTree.isFile]
    cases t.get? q with
    | none => simp
    | some node => cases node <;> simp
  simp only [checkPaths, Fallible.bind_ok, Fallible.check_ok, exists_const, List.mem_append,
    List.mem_inits, hclear, hreceipt]
  constructor
  · rintro ⟨⟨hout, hbeside⟩, hname, habove, hfile⟩
    exact ⟨hout, hbeside, hname, fun q content hq => habove q hq content, hfile⟩
  · intro h
    exact ⟨⟨h.outside, h.beside⟩, h.name, fun q hq content => h.clear q content hq, h.receipt⟩

/-- The files of the manifest with their digests. -/
def InstallRequest.files (request : InstallRequest) : List (Text × Text) :=
  request.manifest.files.map fun file => (file.path, file.sha256)

/-- What is known of the package. -/
structure PackageChecked (request : InstallRequest) (snapshot : SkillSnapshot)
    (expected : List (Text × Text)) : Prop where
  snapshot : buildSkillSnapshot request.downloaded = .ok snapshot
  listed : expected = request.files
  keyed : (Dict.keys expected).Nodup
  digests : ∀ entry, entry ∈ expected ↔
    ∃ content, (entry.1, content) ∈ request.downloaded ∧ entry.2 = hex (sha256 content)

/-- The loop over the manifest: every file of it was downloaded, and none comes twice. -/
theorem foldlM_expectedStep {downloaded : List (Text × Bytes)}
    (hkeyed : (Dict.keys downloaded).Nodup) {files : List InstallEntry}
    {acc expected : List (Text × Text)} (hacc : (Dict.keys acc).Nodup)
    (h : files.foldlM (expectedStep downloaded) acc = .ok expected) :
    (Dict.keys expected).Nodup ∧
      expected = acc ++ files.map (fun file => (file.path, file.sha256)) ∧
      ∀ entry ∈ expected, entry ∈ acc ∨
        ∃ content, (entry.1, content) ∈ downloaded ∧ entry.2 = hex (sha256 content) := by
  induction files generalizing acc with
  | nil =>
    rw [List.foldlM_nil, Fallible.pure_ok] at h
    subst h
    exact ⟨hacc, (List.append_nil _).symm, fun entry hentry => .inl hentry⟩
  | cons file files ih =>
    rw [List.foldlM_cons] at h
    obtain ⟨next, hnext, hrest⟩ := Fallible.bind_ok.mp h
    simp only [expectedStep, Fallible.bind_ok, Fallible.check_ok, Fallible.get_ok,
      Fallible.pure_ok, exists_const] at hnext
    obtain ⟨hnew, item, hitem, ⟨-, hdigest⟩, rfl⟩ := hnext
    obtain ⟨hmem, hpath⟩ := (Dict.find?_key hkeyed).mp hitem
    have hkeys : (Dict.keys (acc ++ [(file.path, file.sha256)])).Nodup := by
      rw [Dict.keys, List.map_append]
      exact List.concat_eq_append ▸ hacc.concat hnew
    obtain ⟨hnodup, hlisted, hall⟩ := ih hkeys hrest
    refine ⟨hnodup, ?_, fun entry hentry => ?_⟩
    · rw [hlisted, List.append_assoc]
      rfl
    · rcases hall entry hentry with hold | hcontent
      · rcases List.mem_append.mp hold with hold | hlast
        · exact .inl hold
        · rw [List.mem_singleton.mp hlast]
          exact .inr ⟨item.2, hpath ▸ hmem, hdigest.symm⟩
      · exact .inr hcontent

theorem checkPackage_ok {snapshot : SkillSnapshot} {expected : List (Text × Text)}
    (h : checkPackage request = .ok (snapshot, expected)) :
    PackageChecked request snapshot expected := by
  simp only [checkPackage, Fallible.bind_ok, Fallible.mapError_ok, Fallible.check_ok,
    Fallible.pure_ok, exists_const, Prod.mk.injEq] at h
  obtain ⟨snapshot, hsnapshot, hcount, expected, hexpected, -, rfl, rfl⟩ := h
  have hnil : (Dict.keys ([] : List (Text × Text))).Nodup := List.nodup_nil
  obtain ⟨hnodup, hlisted, hall⟩ := foldlM_expectedStep request.keyed hnil hexpected
  have hfrom {entry : Text × Text} (hentry : entry ∈ expected) : ∃ content,
      (entry.1, content) ∈ request.downloaded ∧ entry.2 = hex (sha256 content) :=
    (hall entry hentry).resolve_left List.not_mem_nil
  -- As many files are expected as were downloaded, and each was.
  have hperm : (Dict.keys expected).Perm (Dict.keys request.downloaded) := by
    have hsubset : Dict.keys expected ⊆ Dict.keys request.downloaded := by
      intro path hpath
      obtain ⟨digest, hentry⟩ := Dict.mem_keys.mp hpath
      obtain ⟨content, hcontent, -⟩ := hfrom hentry
      exact Dict.mem_keys.mpr ⟨content, hcontent⟩
    refine (hnodup.subperm hsubset).perm_of_length_le ?_
    rw [Dict.keys, Dict.keys, List.length_map, List.length_map, hlisted, List.nil_append,
      List.length_map, hcount]
  refine ⟨hsnapshot, hlisted, hnodup, fun entry => ⟨hfrom, ?_⟩⟩
  rintro ⟨content, hcontent, hdigest⟩
  obtain ⟨digest, hentry⟩ := Dict.mem_keys.mp (hperm.mem_iff.mpr (Dict.key_mem hcontent))
  obtain ⟨other, hother, hsame⟩ := hfrom hentry
  have heq : other = content := congrArg Prod.snd (Dict.eq_of_mem request.keyed hother hcontent rfl)
  have hentry' : entry = (entry.1, digest) := Prod.ext rfl (by rw [hdigest, hsame, heq])
  rw [hentry']
  exact hentry

/-- What a file of the package takes the place of. -/
structure Replaces (t : FileTree) (root : TreePath)
    (tracked packageDirectories obsolete : List TreePath) (path : Text) (found : List TreePath) :
    Prop where
  normal : normalizeSkillPath path = .ok path
  above : ∀ p content, root <+: p → p <+: targetOf root path → p ≠ targetOf root path →
    t.get? p = some (.file content) → p ∈ obsolete
  here : ∀ content, t.get? (targetOf root path) = some (.file content) →
    targetOf root path ∈ tracked
  below : ∀ p content, targetOf root path <+: p → p ≠ targetOf root path →
    t.get? p = some (.file content) → p ∈ obsolete
  removed : ∀ p, p ∈ found ↔ targetOf root path <+: p ∧ t.get? p = some .dir
  directories : ∀ p ∈ found, p ∈ packageDirectories

theorem replacedBy_ok {root : TreePath}
    {tracked packageDirectories obsolete removed : List TreePath} {path : Text}
    (h : replacedBy t root tracked packageDirectories obsolete path = .ok removed) :
    Replaces t root tracked packageDirectories obsolete path removed := by
  rw [replacedBy] at h
  obtain ⟨target, htarget, hrest⟩ := Fallible.bind_ok.mp h
  obtain ⟨hnormal, habove, rfl⟩ := installTarget_ok.mp htarget
  by_cases hdir : t.get? (targetOf root path) = some .dir
  · rw [if_pos (FileTree.isDir_iff.mpr hdir)] at hrest
    have hsearched := (directoryPlan_ok hdir).1 removed hrest
    refine ⟨hnormal, habove, fun content hfile => ?_, fun p content hpre _ hfile => ?_,
      hsearched.dirs, hsearched.tracked⟩
    · rw [hdir] at hfile
      cases hfile
    · exact hsearched.files p content hpre hfile
  · rw [if_neg fun hisdir => hdir (FileTree.isDir_iff.mp hisdir)] at hrest
    simp only [Fallible.bind_ok, Fallible.check_ok, Fallible.pure_ok, exists_const] at hrest
    obtain ⟨htracked, -, rfl⟩ := hrest
    -- Nothing is below what is not a directory.
    have hbelow {p : TreePath} {node : TreeNode} (hpre : targetOf root path <+: p)
        (hne : p ≠ targetOf root path) : t.get? p ≠ some node := fun hnode =>
      hdir (FileTree.get?_dir hpre hne.symm hnode)
    refine ⟨hnormal, habove, fun content hfile => ?_,
      fun p content hpre hne hfile => absurd hfile (hbelow hpre hne), fun p => ?_,
      fun p hp => absurd hp List.not_mem_nil⟩
    · refine (containsEntry_iff.mp (htracked ?_)).2
      rw [FileTree.exists?, hfile]
      rfl
    · refine ⟨fun hp => absurd hp List.not_mem_nil, ?_⟩
      rintro ⟨hpre, hisdir⟩
      by_cases hsame : p = targetOf root path
      · exact absurd (hsame ▸ hisdir) hdir
      · exact absurd hisdir (hbelow hpre hsame)

/-- A file of the package that is there is written over. -/
theorem replacedBy_file {root : TreePath} {tracked packageDirectories obsolete : List TreePath}
    {path : Text} (hnormal : normalizeSkillPath path = .ok path) {content : Bytes}
    (hfile : t.get? (targetOf root path) = some (.file content))
    (htracked : targetOf root path ∈ tracked) :
    replacedBy t root tracked packageDirectories obsolete path = .ok [] := by
  have htarget : installTarget t root path obsolete = .ok (targetOf root path) := by
    refine installTarget_ok.mpr ⟨hnormal, fun p other _ hpre hne hother => ?_, rfl⟩
    rw [FileTree.get?_dir hpre hne hfile] at hother
    cases hother
  rw [replacedBy, htarget, Fallible.ok_bind, if_neg]
  · rw [Fallible.check_of fun _ => containsEntry_iff.mpr ⟨⟨_, hfile⟩, htracked⟩, Fallible.ok_bind,
      Fallible.check_of fun _ => FileTree.isFile_iff.mpr ⟨content, hfile⟩]
    rfl
  · rw [FileTree.isDir_iff, hfile]
    nofun

/-! ### The plan -/

omit [Platform] in
theorem mem_deepestFirst {paths : List TreePath} {p : TreePath} :
    p ∈ deepestFirst paths ↔ p ∈ paths := by
  rw [deepestFirst, List.mem_insertionSort, List.mem_dedup]

/-- Every path comes once, and before those that are not as deep. -/
def IsDeepestFirst (paths : List TreePath) : Prop :=
  paths.Nodup ∧ paths.Pairwise fun a b => b.length ≤ a.length

omit [Platform] in
theorem isDeepestFirst (paths : List TreePath) : IsDeepestFirst (deepestFirst paths) := by
  have htotal : Std.Total fun a b : TreePath => b.length ≤ a.length :=
    ⟨fun a b => Nat.le_total b.length a.length⟩
  have htrans : IsTrans TreePath fun a b => b.length ≤ a.length :=
    ⟨fun _ _ _ hab hbc => Nat.le_trans hbc hab⟩
  refine ⟨?_, List.pairwise_insertionSort _ _⟩
  exact (List.perm_insertionSort _ _).nodup_iff.mpr (List.nodup_dedup paths)

/-- A receipt names this file, and the file is as the receipt says. -/
def IsInstalled (request : InstallRequest) (t : FileTree) (p : TreePath) : Prop :=
  ∃ earlier path content, earlierInstall request t = .ok earlier ∧
    (path.codepoints, JsonValue.str (hex (sha256 content)).codepoints) ∈ earlier.files ∧
    p = targetOf request.destination path ∧ t.get? p = some (.file content)

/-- A directory of the package, below its root. -/
def IsPackageDirectory (request : InstallRequest) (t : FileTree) (p : TreePath) : Prop :=
  ∃ target, IsInstalled request t target ∧ (request.destination <+: p ∧ p ≠ request.destination) ∧
    p <+: target ∧ p ≠ target

/-- The file that this path leads to, as the package had it before. -/
def InstallPlan.IsTracked (plan : InstallPlan) (request : InstallRequest) (p : TreePath) : Prop :=
  ∃ entry ∈ plan.previous, p = targetOf request.destination entry.1

/-- The file that this path leads to, as the package has it now. -/
def InstallPlan.IsExpected (plan : InstallPlan) (request : InstallRequest) (p : TreePath) : Prop :=
  ∃ entry ∈ plan.expected, p = targetOf request.destination entry.1

/-- **What a plan knows of the directory.** -/
structure InstallPlan.Sound (plan : InstallPlan) (request : InstallRequest) (t : FileTree) :
    Prop where
  paths : PathsChecked request t
  package : PackageChecked request plan.snapshot plan.expected
  checked : checkPackage request = .ok (plan.snapshot, plan.expected)
  previous : ∀ entry ∈ plan.previous, ∃ content,
    t.get? (targetOf request.destination entry.1) = some (.file content) ∧
      entry.2 = hex (sha256 content)
  tracked : ∀ p, plan.IsTracked request p ↔ IsInstalled request t p
  obsolete_nodup : plan.obsolete.Nodup
  obsolete : ∀ p, p ∈ plan.obsolete ↔ plan.IsTracked request p ∧ ¬plan.IsExpected request p
  directories : ∀ p, p ∈ plan.packageDirectories ↔ IsPackageDirectory request t p
  deepest : IsDeepestFirst plan.packageDirectories
  removed : ∀ p, p ∈ plan.removeDirectories ↔
    ∃ entry ∈ plan.expected, targetOf request.destination entry.1 <+: p ∧ t.get? p = some .dir
  removed_deepest : IsDeepestFirst plan.removeDirectories
  removed_known : ∀ p ∈ plan.removeDirectories, p ∈ plan.packageDirectories
  normal : ∀ entry ∈ plan.expected, normalizeSkillPath entry.1 = .ok entry.1
  above : ∀ entry ∈ plan.expected, ∀ p content, request.destination <+: p →
    p <+: targetOf request.destination entry.1 → p ≠ targetOf request.destination entry.1 →
    t.get? p = some (.file content) → p ∈ plan.obsolete
  here : ∀ p content, plan.IsExpected request p → t.get? p = some (.file content) →
    plan.IsTracked request p
  below : ∀ entry ∈ plan.expected, ∀ p content, targetOf request.destination entry.1 <+: p →
    p ≠ targetOf request.destination entry.1 → t.get? p = some (.file content) →
    p ∈ plan.obsolete

/-- A receipt names these files, in this version. -/
def InstallPlan.IsUnchanged (plan : InstallPlan) (request : InstallRequest)
    (earlier : EarlierInstall) : Prop :=
  earlier.revisionId = some request.manifest.revisionId.codepoints ∧
    (∀ entry ∈ plan.previous, entry ∈ plan.expected) ∧ ∀ entry ∈ plan.expected, entry ∈ plan.previous

/-- **A plan is sound.** -/
theorem planInstall_ok {result : Option InstallPlan} (h : planInstall request t = .ok result) :
    ∃ plan earlier, plan.Sound request t ∧ earlierInstall request t = .ok earlier ∧
      earlier.files.mapM (trackedFile t request.destination) = .ok plan.previous ∧
      (result = none ∧ plan.IsUnchanged request earlier ∨
        result = some plan ∧ ¬plan.IsUnchanged request earlier) := by
  simp only [planInstall, Fallible.bind_ok, Prod.exists] at h
  obtain ⟨_, hpaths, snapshot, expected, hpackage, earlier, hearlier, previous, hprevious,
    removed, hremoved, hresult⟩ := h
  have hknown : ∀ entry ∈ previous, ∃ content,
      t.get? (targetOf request.destination entry.1) = some (.file content) ∧
        entry.2 = hex (sha256 content) := by
    intro entry hentry
    obtain ⟨field, -, hfield⟩ := (Fallible.mem_of_mapM hprevious).mp hentry
    exact (trackedFile_ok.mp hfield).2.2
  have hinstalled (p : TreePath) : (∃ entry ∈ previous, p = targetOf request.destination entry.1) ↔
      IsInstalled request t p := by
    constructor
    · rintro ⟨entry, hentry, rfl⟩
      obtain ⟨field, hmem, hfield⟩ := (Fallible.mem_of_mapM hprevious).mp hentry
      obtain ⟨-, rfl, content, hcontent, hdigest⟩ := trackedFile_ok.mp hfield
      exact ⟨earlier, entry.1, content, hearlier, hdigest ▸ hmem, rfl, hcontent⟩
    · rintro ⟨_, path, content, hsame, hmem, rfl, hcontent⟩
      obtain rfl := Except.ok.inj (hsame.symm.trans hearlier)
      obtain ⟨entry, hentry⟩ := Fallible.exists_ok_of_mapM hprevious _ hmem
      obtain ⟨-, hfield, -⟩ := trackedFile_ok.mp hentry
      have hpath : path = entry.1 := JsonValue.codepoints_injective (congrArg Prod.fst hfield)
      exact ⟨entry, (Fallible.mem_of_mapM hprevious).mpr ⟨_, hmem, hentry⟩, by rw [hpath]⟩
  -- The lists of paths, as the plan has them.
  generalize htracked : (previous.map fun entry =>
    targetOf request.destination entry.1).dedup = tracked at hremoved hresult
  generalize hdirectories : tracked.flatMap (packageDirectoriesOf request.destination) =
    packageDirectories at hremoved hresult
  generalize hobsolete : tracked.filter (fun target => !containsEntry t target
    (expected.map fun entry => targetOf request.destination entry.1)) = obsolete at hremoved hresult
  have mem_tracked (p : TreePath) : p ∈ tracked ↔
      ∃ entry ∈ previous, p = targetOf request.destination entry.1 := by
    rw [← htracked, List.mem_dedup, List.mem_map]
    exact ⟨fun ⟨e, he, hp⟩ => ⟨e, he, hp.symm⟩, fun ⟨e, he, hp⟩ => ⟨e, he, hp.symm⟩⟩
  have mem_obsolete (p : TreePath) : p ∈ obsolete ↔
      (∃ entry ∈ previous, p = targetOf request.destination entry.1) ∧
        ¬∃ entry ∈ expected, p = targetOf request.destination entry.1 := by
    rw [← hobsolete, List.mem_filter, mem_tracked, Bool.not_eq_true']
    refine and_congr_right fun hp => ?_
    obtain ⟨entry, hentry, rfl⟩ := hp
    obtain ⟨content, hcontent, -⟩ := hknown entry hentry
    rw [← Bool.not_eq_true, containsEntry_iff, not_iff_not]
    rw [and_iff_right ⟨_, hcontent⟩, List.mem_map]
    exact ⟨fun ⟨e, he, hp⟩ => ⟨e, he, hp.symm⟩, fun ⟨e, he, hp⟩ => ⟨e, he, hp.symm⟩⟩
  have hreplaces : ∀ entry ∈ expected, ∃ found ∈ removed,
      Replaces t request.destination tracked packageDirectories obsolete entry.1 found := by
    intro entry hentry
    obtain ⟨found, hfound⟩ := Fallible.exists_ok_of_mapM hremoved entry hentry
    exact ⟨found, (Fallible.mem_of_mapM hremoved).mpr ⟨entry, hentry, hfound⟩, replacedBy_ok hfound⟩
  have hreplaced : ∀ found ∈ removed, ∃ entry ∈ expected,
      Replaces t request.destination tracked packageDirectories obsolete entry.1 found := by
    intro found hfound
    obtain ⟨entry, hentry, hok⟩ := (Fallible.mem_of_mapM hremoved).mp hfound
    exact ⟨entry, hentry, replacedBy_ok hok⟩
  refine ⟨⟨snapshot, expected, previous, obsolete, deepestFirst packageDirectories,
    deepestFirst removed.flatten⟩, earlier, ?_, hearlier, hprevious, ?_⟩
  · refine
      { paths := checkPaths_ok.mp hpaths, package := checkPackage_ok hpackage
        checked := hpackage, previous := hknown, tracked := hinstalled
        obsolete_nodup := ?_, obsolete := mem_obsolete
        directories := fun p => ?_, deepest := isDeepestFirst _
        removed := fun p => ?_, removed_deepest := isDeepestFirst _
        removed_known := fun p hp => ?_, normal := fun entry hentry => ?_
        above := fun entry hentry p content hroot hpre hne hfile => ?_
        here := fun p content hp hfile => ?_
        below := fun entry hentry p content hpre hne hfile => ?_ }
    · rw [← hobsolete, ← htracked]
      exact (List.nodup_dedup _).filter _
    · rw [mem_deepestFirst, ← hdirectories, List.mem_flatMap]
      constructor
      · rintro ⟨target, htarget, hp⟩
        obtain ⟨entry, hentry, rfl⟩ := (mem_tracked target).mp htarget
        exact ⟨_, (hinstalled _).mp ⟨entry, hentry, rfl⟩, mem_packageDirectoriesOf.mp hp⟩
      · rintro ⟨target, htarget, hp⟩
        obtain ⟨entry, hentry, rfl⟩ := (hinstalled target).mpr htarget
        exact ⟨_, (mem_tracked _).mpr ⟨entry, hentry, rfl⟩, mem_packageDirectoriesOf.mpr hp⟩
    · rw [mem_deepestFirst, List.mem_flatten]
      constructor
      · rintro ⟨found, hfound, hp⟩
        obtain ⟨entry, hentry, hreplace⟩ := hreplaced found hfound
        exact ⟨entry, hentry, (hreplace.removed p).mp hp⟩
      · rintro ⟨entry, hentry, hp⟩
        obtain ⟨found, hfound, hreplace⟩ := hreplaces entry hentry
        exact ⟨found, hfound, (hreplace.removed p).mpr hp⟩
    · obtain ⟨found, hfound, hmem⟩ := List.mem_flatten.mp (mem_deepestFirst.mp hp)
      obtain ⟨entry, -, hreplace⟩ := hreplaced found hfound
      exact mem_deepestFirst.mpr (hreplace.directories p hmem)
    · obtain ⟨found, -, hreplace⟩ := hreplaces entry hentry
      exact hreplace.normal
    · obtain ⟨found, -, hreplace⟩ := hreplaces entry hentry
      exact hreplace.above p content hroot hpre hne hfile
    · obtain ⟨entry, hentry, rfl⟩ := hp
      obtain ⟨found, -, hreplace⟩ := hreplaces entry hentry
      exact (mem_tracked _).mp (hreplace.here content hfile)
    · obtain ⟨found, -, hreplace⟩ := hreplaces entry hentry
      exact hreplace.below p content hpre hne hfile
  · split at hresult
    · next hsame => exact .inl ⟨(Except.ok.inj hresult).symm, hsame⟩
    · next hdiffer => exact .inr ⟨(Except.ok.inj hresult).symm, hdiffer⟩

/-! ### Refusals -/

/-- **A refusal comes from a check**: the operating system is not asked for anything. -/
theorem planInstall_avoids : Fallible.Avoids .io (planInstall request t) := by
  have htarget {root : TreePath} {path : Text} {obsolete : List TreePath} :
      Fallible.Avoids .io (installTarget t root path obsolete) :=
    .bind (.mapError fun _ => by decide) fun _ _ => .bind (.check _ (by decide)) fun _ _ =>
      .bind (.check _ (by decide)) fun _ _ => .ok _
  have hpaths : Fallible.Avoids .io (checkPaths request t) :=
    .bind (.check _ (by decide)) fun _ _ => .bind (.check _ (by decide)) fun _ _ =>
      .check _ (by decide)
  have hstep (acc : List (Text × Text)) (entry : InstallEntry) :
      Fallible.Avoids .io (expectedStep request.downloaded acc entry) :=
    .bind (.check _ (by decide)) fun _ _ => .bind (.get _ (by decide)) fun _ _ =>
      .bind (.check _ (by decide)) fun _ _ => .ok _
  have hpackage : Fallible.Avoids .io (checkPackage request) :=
    .bind (.mapError fun _ => by decide) fun _ _ => .bind (.check _ (by decide)) fun _ _ =>
      .bind (.foldlM hstep _ _) fun _ _ => .bind (.check _ (by decide)) fun _ _ => .ok _
  have hearlier : Fallible.Avoids .io (earlierInstall request t) := by
    rw [earlierInstall]
    split
    · exact .bind (.get _ (by decide)) fun _ _ => .bind (.get _ (by decide)) fun _ _ =>
        .bind (.get _ (by decide)) fun _ _ => .bind (.check _ (by decide)) fun _ _ =>
          .bind (.get _ (by decide)) fun _ _ => .ok _
    · exact .ok _
  have htracked (field : Codepoints × JsonValue) :
      Fallible.Avoids .io (trackedFile t request.destination field) :=
    .bind (.get _ (by decide)) fun _ _ => .bind htarget fun _ _ =>
      .bind (.get _ (by decide)) fun _ _ => .bind (.check _ (by decide)) fun _ _ => .ok _
  have hreplaced (tracked packageDirectories obsolete : List TreePath) (path : Text) :
      Fallible.Avoids .io
        (replacedBy t request.destination tracked packageDirectories obsolete path) := by
    refine .bind htarget fun target _ => ?_
    split
    · next hdir => exact (directoryPlan_ok (FileTree.isDir_iff.mp hdir)).2
    · exact .bind (.check _ (by decide)) fun _ _ => .bind (.check _ (by decide)) fun _ _ => .ok _
  refine .bind hpaths fun _ _ => .bind hpackage fun _ _ => .bind hearlier fun _ _ =>
    .bind (.mapM htracked _) fun _ _ => .bind (.mapM (fun _ => hreplaced _ _ _ _) _) fun _ _ => ?_
  split
  · exact .ok _
  · exact .ok _

end

end PatchouliLib
