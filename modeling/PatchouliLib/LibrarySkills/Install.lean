import PatchouliLib.Foundation.FileTree
import PatchouliLib.Foundation.JsonLayout
import PatchouliLib.LibrarySkills.Packages

/-!
# Installing a skill

A downloaded package is put into a local directory.  A receipt beside it says which files
of the directory came with the package before, and in which version; only these may be
replaced or deleted.  Everything is checked before anything is changed.

## Main definitions

* `installTarget`, `directoryPlan` — the checks on one path and on one directory.
* `planInstall` — everything that is checked, and what is to be done.
* `InstallPlan.operations` — the changes, one after the other.
* `installSkillPackage` — the installation.
-/

namespace PatchouliLib

open Foundation

/-! ### Requests -/

inductive InstallError where
  | conflict
  | validation
  | malformedReceipt
  | io
deriving DecidableEq

/-- An entry of the manifest. -/
structure InstallEntry where
  path : Text
  bytes : ℤ
  sha256 : Text

/-- The manifest that was downloaded with the package. -/
structure InstallManifest where
  name : Text
  libraryId : Text
  skillId : Text
  revisionId : Text
  snapshotSha256 : Text
  files : List InstallEntry

/-- What is to be installed, and where. -/
structure InstallRequest where
  destination : TreePath
  manifest : InstallManifest
  downloaded : List (Text × Bytes)
  keyed : (Dict.keys downloaded).Nodup
  serviceOrigin : Text
  receiptPath : TreePath

inductive InstallResult where
  | unchanged
  | installed
deriving DecidableEq

/-! ### Paths -/

/-- `_contains_entry`. -/
def containsEntry (t : FileTree) (path : TreePath) (candidates : List TreePath) : Bool :=
  t.exists? path && candidates.contains path

/-- `local.read_bytes()` of a file. -/
def fileAt? (t : FileTree) (path : TreePath) : Option Bytes :=
  match t.get? path with
  | some (.file content) => some content
  | _ => none

/-- The parents of a path, from the root of the package on. -/
def packageParents (root path : TreePath) : List TreePath :=
  path.inits.filter fun q => root.length ≤ q.length ∧ q ≠ path

section

variable [Platform]

/-- `_target`. -/
def installTarget (t : FileTree) (root : TreePath) (resourcePath : Text)
    (obsolete : List TreePath) : Except InstallError TreePath := do
  let normalized ← (normalizeSkillPath resourcePath).mapError fun _ => .validation
  Fallible.check (normalized = resourcePath) .validation
  Fallible.check (∀ component ∈ packageParents root (root ++ normalized.splitOn '/'),
    ¬(t.exists? component = true ∧ t.isDir component = false ∧
      containsEntry t component obsolete = false)) .conflict
  pure (root ++ normalized.splitOn '/')

end

/-- The loop of `_directory_plan`; the fuel bounds the number of directories. -/
def directoryPlan (t : FileTree) (packageDirectories obsolete : List TreePath) :
    ℕ → List TreePath → List TreePath → Except InstallError (List TreePath)
  | _, [], removable => .ok removable
  | 0, _ :: _, _ => .error .io
  | fuel + 1, parent :: pending, removable => do
    Fallible.check (containsEntry t parent packageDirectories = true) .conflict
    Fallible.check (∀ child ∈ t.children parent,
      t.isDir child = true ∨ containsEntry t child obsolete = true) .conflict
    directoryPlan t packageDirectories obsolete fuel
      (((t.children parent).filter t.isDir).reverse ++ pending) (parent :: removable)

/-! ### The plan -/

/-- The fields of a receipt that say what it belongs to. -/
def InstallRequest.identity (request : InstallRequest) : List (Text × Text) :=
  [("service_origin", request.serviceOrigin), ("library_id", request.manifest.libraryId),
    ("skill_id", request.manifest.skillId)]

/-- The receipt of an installation. -/
def InstallRequest.receipt (request : InstallRequest) (expected : List (Text × Text)) : Json :=
  .obj [("service_origin", .str request.serviceOrigin),
    ("library_id", .str request.manifest.libraryId), ("skill_id", .str request.manifest.skillId),
    ("revision_id", .str request.manifest.revisionId),
    ("snapshot_sha256", .str request.manifest.snapshotSha256),
    ("files", .obj (expected.map fun entry => (entry.1, .str entry.2)))]

/-- `json.dumps(receipt, ensure_ascii=False, indent=2) + "\n"`, encoded. -/
def InstallRequest.receiptBody (request : InstallRequest) (expected : List (Text × Text)) : Bytes :=
  utf8Encode (Json.write (.indented 2) false 0 (request.receipt expected) ++ ['\n'])

/-- What an earlier receipt says: the files, and the version. -/
structure EarlierInstall where
  files : List (Codepoints × JsonValue) := []
  revisionId : Option Codepoints := none

/-- Read the receipt that is there. -/
def readReceipt (request : InstallRequest) (body : Bytes) : Except InstallError EarlierInstall := do
  let text ← Fallible.get (utf8Decode body) .malformedReceipt
  let value ← Fallible.get (JsonValue.loads JsonValue.lastPairs text) .malformedReceipt
  let old ← Fallible.get value.fields? .malformedReceipt
  Fallible.check (∀ field ∈ request.identity,
    (JsonValue.field? old field.1).bind JsonValue.str? = some field.2.codepoints) .conflict
  let files ← Fallible.get ((JsonValue.field? old "files").bind JsonValue.fields?) .malformedReceipt
  pure ⟨files, (JsonValue.field? old "revision_id").bind JsonValue.str?⟩

section

variable [Platform]

/-- A file of the receipt, which is there as it was installed. -/
def trackedFile (t : FileTree) (root : TreePath) (field : Codepoints × JsonValue) :
    Except InstallError (Text × Text) := do
  let path ← Fallible.get (Codepoints.text? field.1) .validation
  let target ← installTarget t root path []
  let content ← Fallible.get (fileAt? t target) .conflict
  Fallible.check (field.2.str? = some (hex (sha256 content)).codepoints) .conflict
  pure (path, hex (sha256 content))

/-- One round of the loop over the manifest. -/
def expectedStep (downloaded : List (Text × Bytes)) (expected : List (Text × Text))
    (entry : InstallEntry) : Except InstallError (List (Text × Text)) := do
  Fallible.check (entry.path ∉ Dict.keys expected) .validation
  let item ← Fallible.get (downloaded.find? fun item => decide (item.1 = entry.path)) .validation
  Fallible.check ((item.2.length : ℤ) = entry.bytes ∧ hex (sha256 item.2) = entry.sha256) .validation
  pure (expected ++ [(entry.path, entry.sha256)])

/-- Where a file goes. -/
def targetOf (root : TreePath) (path : Text) : TreePath := root ++ path.splitOn '/'

/-- The directories of the package that a file is in. -/
def packageDirectoriesOf (root target : TreePath) : List TreePath :=
  (packageParents root target).filter fun q => root.length < q.length

/-- What a file of the package takes the place of: the directories to remove for it. -/
def replacedBy (t : FileTree) (root : TreePath) (tracked packageDirectories obsolete : List TreePath)
    (path : Text) : Except InstallError (List TreePath) := do
  let target ← installTarget t root path obsolete
  if t.isDir target then
    directoryPlan t packageDirectories obsolete t.nodes.length [target] []
  else do
    Fallible.check (t.exists? target = true → containsEntry t target tracked = true) .conflict
    Fallible.check (t.exists? target = true → t.isFile target = true) .conflict
    pure []

/-- What is to be done. -/
structure InstallPlan where
  snapshot : SkillSnapshot
  expected : List (Text × Text)
  previous : List (Text × Text)
  obsolete : List TreePath
  packageDirectories : List TreePath
  removeDirectories : List TreePath

/-- The deepest paths first. -/
def deepestFirst (paths : List TreePath) : List TreePath :=
  paths.dedup.insertionSort fun a b => b.length ≤ a.length

/-- What the receipt at this path says, if there is one. -/
def earlierInstall (request : InstallRequest) (t : FileTree) : Except InstallError EarlierInstall :=
  match fileAt? t request.receiptPath with
  | some body => readReceipt request body
  | none => .ok {}

/-- The checks of `install_skill_package` on the local paths. -/
def checkPaths (request : InstallRequest) (t : FileTree) : Except InstallError Unit := do
  Fallible.check (¬request.destination <+: request.receiptPath ∧
    ¬request.receiptPath <+: request.destination) .conflict
  Fallible.check (request.destination.getLast?.getD [] = request.manifest.name) .conflict
  Fallible.check ((∀ q ∈ request.destination.inits ++ request.receiptPath.dropLast.inits,
    t.exists? q = true → t.isDir q = true) ∧
    (t.exists? request.receiptPath = true → t.isFile request.receiptPath = true)) .conflict

/-- The checks of `install_skill_package` on the package. -/
def checkPackage (request : InstallRequest) :
    Except InstallError (SkillSnapshot × List (Text × Text)) := do
  let snapshot ← (buildSkillSnapshot request.downloaded).mapError fun _ => .validation
  Fallible.check (request.manifest.files.length = request.downloaded.length) .validation
  let expected ← request.manifest.files.foldlM (expectedStep request.downloaded) []
  Fallible.check (hex snapshot.snapshotSha256 = request.manifest.snapshotSha256) .validation
  pure (snapshot, expected)

/-- The checks of `install_skill_package`; nothing is changed by them.  There is nothing to do
when the version is installed already. -/
def planInstall (request : InstallRequest) (t : FileTree) :
    Except InstallError (Option InstallPlan) := do
  checkPaths request t
  let (snapshot, expected) ← checkPackage request
  let earlier ← earlierInstall request t
  let previous ← earlier.files.mapM (trackedFile t request.destination)
  let tracked := (previous.map fun entry => targetOf request.destination entry.1).dedup
  let packageDirectories := tracked.flatMap (packageDirectoriesOf request.destination)
  let targets := expected.map fun entry => targetOf request.destination entry.1
  let obsolete := tracked.filter fun target => !containsEntry t target targets
  let removed ← expected.mapM fun entry =>
    replacedBy t request.destination tracked packageDirectories obsolete entry.1
  if earlier.revisionId = some request.manifest.revisionId.codepoints ∧
      (∀ entry ∈ previous, entry ∈ expected) ∧ ∀ entry ∈ expected, entry ∈ previous then
    pure none
  else
    pure (some ⟨snapshot, expected, previous, obsolete, deepestFirst packageDirectories,
      deepestFirst removed.flatten⟩)

end

/-! ### The changes -/

/-- An operation that the operating system may refuse. -/
def orIO (x : Option FileTree) : Except InstallError FileTree := Fallible.get x .io

/-- `_write`. -/
def writeAt (path : TreePath) (body : Bytes) (t : FileTree) : Except InstallError FileTree :=
  orIO ((t.makeDirs path.dropLast).bind fun t => t.writeFile path body)

/-- Remove a directory that has become empty. -/
def removeIfEmpty (directory : TreePath) (t : FileTree) : Except InstallError FileTree :=
  if t.isDir directory = true ∧ t.children directory = [] then orIO (t.rmdir directory) else .ok t

section

variable [Platform]

/-- Write one file of the package. -/
def writeEntry (root : TreePath) (entry : Text × Bytes) (t : FileTree) :
    Except InstallError FileTree := do
  let target ← installTarget t root entry.1 []
  writeAt target entry.2 t

/-- The changes of an installation. -/
def InstallPlan.operations (plan : InstallPlan) (request : InstallRequest) :
    List (FileTree → Except InstallError FileTree) :=
  plan.obsolete.map (fun path t => orIO (t.unlink path)) ++
    (plan.removeDirectories.map (fun directory t => orIO (t.rmdir directory)) ++
      (plan.snapshot.files.map (writeEntry request.destination) ++
        (plan.packageDirectories.map removeIfEmpty ++
          [writeAt request.receiptPath (request.receiptBody plan.expected)])))

/-- `install_skill_package`: the answer, and the files that are left. -/
def installSkillPackage (request : InstallRequest) (t : FileTree) :
    Except InstallError InstallResult × FileTree :=
  match planInstall request t with
  | .error e => (.error e, t)
  | .ok none => (.ok .unchanged, t)
  | .ok (some plan) =>
    let outcome := attemptAll (plan.operations request) t
    (outcome.1.map fun _ => .installed, outcome.2)

end

end PatchouliLib
