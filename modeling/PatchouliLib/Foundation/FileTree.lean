import PatchouliLib.Foundation.Bytes
import PatchouliLib.Foundation.Dictionary

/-!
# A tree of files

A file system without links whose names are told apart by case.  A path is the list of the
names that lead to it; whatever is there stands in a directory.  The operations fail where
the operating system refuses them.

## Main definitions

* `FileTree` — files and directories under their paths.
* `unlink`, `rmdir`, `makeDirs`, `writeFile` — the operations.
* `attemptAll` — operations one after the other; what was done stays done.

## Main results

* `get?_unlink`, `get?_rmdir`, `get?_makeDirs`, `get?_writeFile` — what an operation leaves.
* `attemptAll_ok` — operations that all succeed.
-/

namespace Foundation

abbrev TreePath := List Text

inductive TreeNode where
  | file (content : Bytes)
  | dir
deriving DecidableEq

/-- Whatever is in a tree stands in a directory of the tree. -/
structure FileTree where
  nodes : List (TreePath × TreeNode)
  keyed : (Dict.keys nodes).Nodup
  root : ([], .dir) ∈ nodes
  closed : ∀ path name node, (path ++ [name], node) ∈ nodes → (path, .dir) ∈ nodes

namespace FileTree

variable {t t' : FileTree} {path q : TreePath} {node : TreeNode} {content : Bytes}

/-- The empty tree. -/
def empty : FileTree where
  nodes := [([], .dir)]
  keyed := List.nodup_singleton _
  root := List.mem_singleton.mpr rfl
  closed path name node h := by
    have hnil := congrArg Prod.fst (List.mem_singleton.mp h)
    exact absurd hnil (by simp)

/-- A tree whose entries stand in directories. -/
theorem closed_of_dropLast {nodes : List (TreePath × TreeNode)}
    (h : ∀ entry ∈ nodes, entry.1 ≠ [] → (entry.1.dropLast, TreeNode.dir) ∈ nodes)
    (path : TreePath) (name : Text) (node : TreeNode) (hmem : (path ++ [name], node) ∈ nodes) :
    (path, TreeNode.dir) ∈ nodes := by
  have hparent := h _ hmem (by simp)
  rwa [List.dropLast_concat] at hparent

/-- What is at a path. -/
def get? (t : FileTree) (path : TreePath) : Option TreeNode :=
  (t.nodes.find? fun entry => decide (entry.1 = path)).map Prod.snd

theorem get?_eq_some : t.get? path = some node ↔ (path, node) ∈ t.nodes := by
  rw [get?, Option.map_eq_some_iff]
  constructor
  · rintro ⟨⟨p, n⟩, hfind, rfl⟩
    obtain ⟨hmem, rfl⟩ := (Dict.find?_key t.keyed).mp hfind
    exact hmem
  · intro hmem
    exact ⟨(path, node), (Dict.find?_key t.keyed).mpr ⟨hmem, rfl⟩, rfl⟩

theorem get?_eq_of_mem_iff (h : ∀ node, (path, node) ∈ t.nodes ↔ (q, node) ∈ t'.nodes) :
    t.get? path = t'.get? q := by
  refine Option.ext fun node => ?_
  exact get?_eq_some.trans ((h node).trans get?_eq_some.symm)

/-- `path.exists()`. -/
def exists? (t : FileTree) (path : TreePath) : Bool := (t.get? path).isSome

/-- `path.is_dir()`. -/
def isDir (t : FileTree) (path : TreePath) : Bool := t.get? path = some .dir

/-- `path.is_file()`. -/
def isFile (t : FileTree) (path : TreePath) : Bool :=
  match t.get? path with
  | some (.file _) => true
  | _ => false

theorem isDir_iff : t.isDir path = true ↔ t.get? path = some .dir := decide_eq_true_iff

theorem isFile_iff : t.isFile path = true ↔ ∃ content, t.get? path = some (.file content) := by
  rw [isFile]
  cases t.get? path with
  | none => simp
  | some node => cases node <;> simp

/-- `path.iterdir()`. -/
def children (t : FileTree) (path : TreePath) : List TreePath :=
  (Dict.keys t.nodes).filter fun q => q ≠ [] ∧ q.dropLast = path

theorem mem_children : q ∈ t.children path ↔
    ∃ name, q = path ++ [name] ∧ ∃ node, t.get? q = some node := by
  rw [children, List.mem_filter, Dict.mem_keys, decide_eq_true_iff]
  constructor
  · rintro ⟨⟨node, hmem⟩, hne, rfl⟩
    exact ⟨q.getLast hne, (List.dropLast_append_getLast hne).symm, node, get?_eq_some.mpr hmem⟩
  · rintro ⟨name, rfl, node, hnode⟩
    exact ⟨⟨node, get?_eq_some.mp hnode⟩, by simp, by simp⟩

theorem get?_nil (t : FileTree) : t.get? [] = some .dir := get?_eq_some.mpr t.root

/-- What stands in a directory. -/
theorem get?_parent {name : Text} (h : t.get? (path ++ [name]) = some node) :
    t.get? path = some .dir :=
  get?_eq_some.mpr (t.closed path name node (get?_eq_some.mp h))

/-- Above everything there are directories. -/
theorem get?_above {rest : TreePath} (hrest : rest ≠ []) (h : t.get? (path ++ rest) = some node) :
    t.get? path = some .dir := by
  induction rest using List.reverseRecOn generalizing node with
  | nil => exact absurd rfl hrest
  | append_singleton rest name ih =>
    rw [← List.append_assoc] at h
    have hparent := get?_parent h
    cases rest with
    | nil => rwa [List.append_nil] at hparent
    | cons c cs => exact ih (List.cons_ne_nil _ _) hparent

theorem get?_dir (hq : q <+: path) (hne : q ≠ path) (h : t.get? path = some node) :
    t.get? q = some .dir := by
  obtain ⟨rest, rfl⟩ := hq
  exact get?_above (fun hnil => hne (by rw [hnil, List.append_nil])) h

/-! ### Taking away -/

/-- Nothing stands in what is not a directory. -/
theorem children_of_not_dir (h : t.get? path ≠ some .dir) : t.children path = [] := by
  refine List.eq_nil_iff_forall_not_mem.mpr fun q hq => ?_
  obtain ⟨name, rfl, node, hnode⟩ := mem_children.mp hq
  exact h (get?_parent hnode)

/-- Take away what nothing stands in. -/
def erase (t : FileTree) (path : TreePath) (hroot : path ≠ []) (hempty : t.children path = []) :
    FileTree where
  nodes := t.nodes.filter fun entry => entry.1 ≠ path
  keyed := by
    have hkeys : Dict.keys (t.nodes.filter fun entry => entry.1 ≠ path) =
        (Dict.keys t.nodes).filter fun q => q ≠ path := by
      rw [Dict.keys, Dict.keys, List.filter_map]
      rfl
    rw [hkeys]
    exact t.keyed.filter _
  root := List.mem_filter.mpr ⟨t.root, decide_eq_true hroot.symm⟩
  closed p name node h := by
    obtain ⟨hmem, -⟩ := List.mem_filter.mp h
    refine List.mem_filter.mpr ⟨t.closed p name node hmem, decide_eq_true ?_⟩
    rintro rfl
    have hchild : p ++ [name] ∈ t.children p :=
      mem_children.mpr ⟨name, rfl, node, get?_eq_some.mpr hmem⟩
    rw [hempty] at hchild
    exact List.not_mem_nil hchild

theorem get?_erase {hroot : path ≠ []} {hempty : t.children path = []} (q : TreePath) :
    (t.erase path hroot hempty).get? q = if q = path then none else t.get? q := by
  refine Option.ext fun node => ?_
  rw [get?_eq_some, erase, List.mem_filter, decide_eq_true_iff]
  split
  · next heq => simp [heq]
  · next hne => rw [get?_eq_some, and_iff_left hne]

/-- `path.unlink()`. -/
def unlink (t : FileTree) (path : TreePath) : Option FileTree :=
  if h : t.isFile path = true then
    some (t.erase path
      (by
        rintro rfl
        obtain ⟨content, hfile⟩ := isFile_iff.mp h
        rw [t.get?_nil] at hfile
        cases hfile)
      (by
        obtain ⟨content, hfile⟩ := isFile_iff.mp h
        exact children_of_not_dir (by simp [hfile])))
  else none

theorem get?_unlink (h : t.unlink path = some t') (q : TreePath) :
    t'.get? q = if q = path then none else t.get? q := by
  unfold unlink at h
  split at h
  · rw [← Option.some.inj h, get?_erase]
  · cases h

theorem exists_unlink (h : t.get? path = some (.file content)) : ∃ t', t.unlink path = some t' :=
  ⟨_, dif_pos (isFile_iff.mpr ⟨content, h⟩)⟩

/-- `path.rmdir()`. -/
def rmdir (t : FileTree) (path : TreePath) : Option FileTree :=
  if h : path ≠ [] ∧ t.get? path = some .dir ∧ t.children path = [] then
    some (t.erase path h.1 h.2.2)
  else none

theorem get?_rmdir (h : t.rmdir path = some t') (q : TreePath) :
    t'.get? q = if q = path then none else t.get? q := by
  unfold rmdir at h
  split at h
  · rw [← Option.some.inj h, get?_erase]
  · cases h

theorem exists_rmdir (hroot : path ≠ []) (hdir : t.get? path = some .dir)
    (hempty : t.children path = []) : ∃ t', t.rmdir path = some t' :=
  ⟨_, dif_pos ⟨hroot, hdir, hempty⟩⟩

/-! ### Putting in place -/

/-- Put a node where nothing stands in what is there. -/
def put (t : FileTree) (path : TreePath) (name : Text) (node : TreeNode)
    (hparent : t.get? path = some .dir) (hempty : t.get? (path ++ [name]) ≠ some .dir) :
    FileTree where
  nodes := Dict.set t.nodes (path ++ [name]) node
  keyed := Dict.keyed_set t.keyed
  root := Dict.mem_set.mpr (.inr ⟨t.root, by simp⟩)
  closed p x n h := by
    have hkeep : ∀ q, (q, TreeNode.dir) ∈ t.nodes → q ≠ path ++ [name] := by
      rintro q hq rfl
      exact hempty (get?_eq_some.mpr hq)
    have hdir : (p, TreeNode.dir) ∈ t.nodes := by
      rcases Dict.mem_set.mp h with heq | ⟨hmem, -⟩
      · obtain ⟨hpath, -⟩ := Prod.mk.inj heq
        rw [(List.append_inj' hpath rfl).1]
        exact get?_eq_some.mp hparent
      · exact t.closed p x n hmem
    exact Dict.mem_set.mpr (.inr ⟨hdir, hkeep p hdir⟩)

theorem get?_put {name : Text} {hparent : t.get? path = some .dir}
    {hempty : t.get? (path ++ [name]) ≠ some .dir} (q : TreePath) :
    (t.put path name node hparent hempty).get? q =
      if q = path ++ [name] then some node else t.get? q := by
  refine Option.ext fun node' => ?_
  rw [get?_eq_some, put, Dict.mem_set]
  split
  · next heq => simp [heq, eq_comm]
  · next hne => simp [hne, get?_eq_some]

/-- `path.mkdir(exist_ok=True)`. -/
def makeDir (t : FileTree) (path : TreePath) : Option FileTree :=
  if t.get? path = some .dir then some t
  else match path.getLast? with
    | none => none
    | some name =>
      if h : t.get? path.dropLast = some .dir ∧ t.get? (path.dropLast ++ [name]) = none then
        some (t.put path.dropLast name .dir h.1 (by simp [h.2]))
      else none

theorem get?_makeDir (h : t.makeDir path = some t') (q : TreePath) :
    t'.get? q = if q = path then some .dir else t.get? q := by
  unfold makeDir at h
  split at h
  · next hdir =>
    rw [← Option.some.inj h]
    split
    · next heq => rw [heq, hdir]
    · rfl
  · split at h
    · cases h
    · next name hlast =>
      have hpath : path.dropLast ++ [name] = path := List.dropLast_append_getLast? _ hlast
      split at h
      · rw [← Option.some.inj h, get?_put, hpath]
      · cases h

theorem exists_makeDir {name : Text} (hparent : t.get? path = some .dir)
    (hfile : ∀ content, t.get? (path ++ [name]) ≠ some (.file content)) :
    ∃ t', t.makeDir (path ++ [name]) = some t' := by
  by_cases hdir : t.get? (path ++ [name]) = some .dir
  · exact ⟨t, if_pos hdir⟩
  · have hnone : t.get? (path ++ [name]) = none := by
      cases hnode : t.get? (path ++ [name]) with
      | none => rfl
      | some node =>
        cases node with
        | dir => exact absurd hnode hdir
        | file content => exact absurd hnode (hfile content)
    unfold makeDir
    rw [if_neg hdir, List.getLast?_concat]
    simp only [List.dropLast_concat]
    exact ⟨_, dif_pos ⟨hparent, hnone⟩⟩

/-- `path.mkdir(parents=True, exist_ok=True)`. -/
def makeDirs (t : FileTree) (path : TreePath) : Option FileTree := path.inits.foldlM makeDir t

theorem makeDirs_nil (t : FileTree) : t.makeDirs [] = some t := by
  have hmake : t.makeDir [] = some t := if_pos t.get?_nil
  change [[]].foldlM makeDir t = some t
  rw [List.foldlM_cons, hmake]
  rfl

theorem makeDirs_concat (t : FileTree) (path : TreePath) (name : Text) :
    t.makeDirs (path ++ [name]) = (t.makeDirs path).bind fun t' => t'.makeDir (path ++ [name]) := by
  have hinits : (path ++ [name]).inits = path.inits ++ [path ++ [name]] := by
    simp [List.inits_append]
  rw [makeDirs, hinits, List.foldlM_append, makeDirs]
  congr 1
  funext t'
  simp

theorem get?_makeDirs (h : t.makeDirs path = some t') (q : TreePath) :
    t'.get? q = if q <+: path then some .dir else t.get? q := by
  induction path using List.reverseRecOn generalizing t' with
  | nil =>
    rw [makeDirs_nil] at h
    rw [← Option.some.inj h]
    split
    · next hprefix => rw [List.prefix_nil.mp hprefix, t.get?_nil]
    · rfl
  | append_singleton path name ih =>
    rw [makeDirs_concat] at h
    obtain ⟨mid, hmid, hlast⟩ := Option.bind_eq_some_iff.mp h
    rw [get?_makeDir hlast, ih hmid]
    by_cases hself : q = path ++ [name]
    · rw [if_pos hself, if_pos (hself ▸ List.prefix_rfl)]
    · rw [if_neg hself]
      have hiff : q <+: path ++ [name] ↔ q <+: path := by
        rw [List.prefix_concat_iff]
        exact or_iff_right hself
      by_cases hprefix : q <+: path
      · rw [if_pos hprefix, if_pos (hiff.mpr hprefix)]
      · rw [if_neg hprefix, if_neg fun h => hprefix (hiff.mp h)]

theorem exists_makeDirs (h : ∀ q, q <+: path → ∀ content, t.get? q ≠ some (.file content)) :
    ∃ t', t.makeDirs path = some t' := by
  induction path using List.reverseRecOn with
  | nil => exact ⟨t, makeDirs_nil t⟩
  | append_singleton path name ih =>
    obtain ⟨mid, hmid⟩ := ih fun q hq => h q (hq.trans (List.prefix_append _ _))
    have hparent : mid.get? path = some .dir := by
      rw [get?_makeDirs hmid, if_pos List.prefix_rfl]
    have hnot : ¬path ++ [name] <+: path := fun hprefix => by
      have hlength := hprefix.length_le
      rw [List.length_append, List.length_singleton] at hlength
      omega
    have hfile (content : Bytes) : mid.get? (path ++ [name]) ≠ some (.file content) := by
      rw [get?_makeDirs hmid, if_neg hnot]
      exact h _ List.prefix_rfl content
    obtain ⟨t', hlast⟩ := exists_makeDir hparent hfile
    exact ⟨t', by rw [makeDirs_concat, hmid, Option.bind_some, hlast]⟩

/-- Put a file in place of a file or of nothing. -/
def writeFile (t : FileTree) (path : TreePath) (content : Bytes) : Option FileTree :=
  match path.getLast? with
  | none => none
  | some name =>
    if h : t.get? path.dropLast = some .dir ∧ t.get? (path.dropLast ++ [name]) ≠ some .dir then
      some (t.put path.dropLast name (.file content) h.1 h.2)
    else none

theorem get?_writeFile (h : t.writeFile path content = some t') (q : TreePath) :
    t'.get? q = if q = path then some (.file content) else t.get? q := by
  unfold writeFile at h
  split at h
  · cases h
  · next name hlast =>
    have hpath : path.dropLast ++ [name] = path := List.dropLast_append_getLast? _ hlast
    split at h
    · rw [← Option.some.inj h, get?_put, hpath]
    · cases h

theorem exists_writeFile {name : Text} (hparent : t.get? path = some .dir)
    (hdir : t.get? (path ++ [name]) ≠ some .dir) :
    ∃ t', t.writeFile (path ++ [name]) content = some t' := by
  unfold writeFile
  rw [List.getLast?_concat]
  simp only [List.dropLast_concat]
  exact ⟨_, dif_pos ⟨hparent, hdir⟩⟩

end FileTree

/-! ### Operations in turn -/

universe u

variable {σ ε : Type u}

/-- Operations one after the other: one that fails stops them, and what was done before stays. -/
def attemptAll : List (σ → Except ε σ) → σ → Except ε PUnit.{u + 1} × σ
  | [], s => (.ok ⟨⟩, s)
  | op :: ops, s =>
    match op s with
    | .ok s' => attemptAll ops s'
    | .error e => (.error e, s)

theorem attemptAll_append (ops ops' : List (σ → Except ε σ)) {s s' : σ}
    (h : attemptAll ops s = (.ok ⟨⟩, s')) : attemptAll (ops ++ ops') s = attemptAll ops' s' := by
  induction ops generalizing s with
  | nil =>
    obtain ⟨-, rfl⟩ := Prod.mk.inj h
    rfl
  | cons op ops ih =>
    rw [List.cons_append, attemptAll]
    rw [attemptAll] at h
    cases hop : op s with
    | error e =>
      rw [hop] at h
      cases congrArg Prod.fst h
    | ok mid =>
      rw [hop] at h
      exact ih h

/-- **Operations that all succeed**: each one does, wherever those before it have led. -/
theorem attemptAll_ok {α : Type u} (f : α → σ → Except ε σ) (P : List α → σ → Prop)
    {as : List α} {s : σ} (hstart : P [] s)
    (hstep : ∀ done a rest s, as = done ++ a :: rest → P done s →
      ∃ s', f a s = .ok s' ∧ P (done ++ [a]) s') :
    ∃ s', attemptAll (as.map f) s = (.ok ⟨⟩, s') ∧ P as s' := by
  suffices hgo : ∀ rest done s, as = done ++ rest → P done s →
      ∃ s', attemptAll (rest.map f) s = (.ok ⟨⟩, s') ∧ P as s' from hgo as [] s rfl hstart
  intro rest
  induction rest with
  | nil =>
    intro done s hsplit hdone
    rw [List.append_nil] at hsplit
    exact ⟨s, rfl, hsplit ▸ hdone⟩
  | cons a rest ih =>
    intro done s hsplit hdone
    obtain ⟨s', hop, hnext⟩ := hstep done a rest s hsplit hdone
    have hsplit' : as = done ++ [a] ++ rest := by rw [hsplit, List.append_assoc]; rfl
    obtain ⟨last, hlast, hall⟩ := ih (done ++ [a]) s' hsplit' hnext
    refine ⟨last, ?_, hall⟩
    rw [List.map_cons, attemptAll, hop]
    exact hlast

end Foundation
