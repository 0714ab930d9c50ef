import PatchouliLib.Foundation.Json
import PatchouliLib.Identifiers.RevisionIds
import PatchouliLib.Platform
import PatchouliLib.Content.Schemas
import PatchouliLib.Foundation.Transaction

/-!
# The client's file names and manifests

The client package has its own rules for file names and reads the listing of a
Revision from untrusted JSON.  The functions here follow the client package alone.

## Main definitions

* `requireFileSetName` — the safe flat form of a file name.
* `FileSetManifest.fromDict` — read a listing and prove its snapshot digest.
-/

namespace PatchouliLib.Client

open Foundation

/-- The exceptions of the client package. -/
inductive ClientError where
  | value
  | protocol
deriving DecidableEq, Repr

def maxFileSetFiles : ℕ := 64
def maxFileSetFileBytes : ℕ := 16 * 1024 * 1024
def maxFileSetPageBytes : ℕ := 64 * 1024 * 1024
def fileSetDomain : Bytes := utf8Encode "patchouli-page-file-snapshot-v1" ++ [0]
def fileNameForbidden : Text := ['<', '>', ':', '"', '/', '\\', '|', '?', '*']
def deviceNames : List Text := ["CON", "PRN", "AUX", "NUL", "CONIN$", "CONOUT$"]

variable [Platform]

/-! ### File names -/

/-- A normalized name that is no safe flat file name. -/
def isUnsafeName (name : Text) : Bool :=
  name = [] || (name = "." || name = "..") || name.head? = some ' ' || name.getLast? = some '.' ||
    (name.splitOn '.').any (fun part => part.getLast? = some ' ') ||
    name.any fileNameForbidden.contains || name.any Platform.isControlOrFormat ||
    255 < (utf8Encode name).length

def isReservedName (stem : Text) : Bool :=
  deviceNames.contains stem ||
    (stem.length = 4 && (stem.take 3 = "COM" || stem.take 3 = "LPT") &&
      stem.getLast?.any ("0123456789¹²³" : Text).contains)

def requireFileSetName (value : Text) : Except ClientError Text := do
  Fallible.check (value.length ≤ 512) .value
  let name := nfc value
  Fallible.check (isUnsafeName name = false) .value
  let stem := Platform.upper (name.takeWhile (· ≠ '.'))
  Fallible.check (isReservedName stem = false) .value
  pure name

/-! ### JSON objects -/

/-- The fields of a JSON object. -/
abbrev Fields := List (Text × Json)

/-- `set(data)` is this set of keys. -/
def HasExactly (data : Fields) (keys : List Text) : Prop :=
  (∀ field ∈ data, field.1 ∈ keys) ∧ ∀ key ∈ keys, key ∈ data.map Prod.fst

instance (data : Fields) (keys : List Text) : Decidable (HasExactly data keys) := by
  unfold HasExactly
  infer_instance

def requireObject : Json → Except ClientError Fields
  | .obj data => .ok data
  | _ => .error .protocol

def stringField (data : Fields) (key : Text) : Except ClientError Text :=
  match data.lookup key with
  | some (.str value) => .ok value
  | _ => .error .protocol

def integerField (data : Fields) (key : Text) : Except ClientError ℤ :=
  match data.lookup key with
  | some (.num value) => .ok value
  | _ => .error .protocol

def objectList (data : Fields) (key : Text) : Except ClientError (List Json) :=
  match data.lookup key with
  | some (.arr items) => .ok items
  | _ => .error .protocol

def sha256Text (value : Text) : Except ClientError Text := do
  Fallible.check (value.length = 64 ∧ ∀ c ∈ value, isLowerHex c = true) .protocol
  pure value

/-! ### Manifests -/

structure FileSetFileSummary where
  filename : Text
  sizeBytes : ℕ
  contentSha256 : Text
deriving DecidableEq

def FileSetFileSummary.fromDict (data : Fields) : Except ClientError FileSetFileSummary := do
  Fallible.check (HasExactly data ["filename", "size_bytes", "content_sha256"]) .protocol
  let name ← stringField data "filename"
  let required ← (requireFileSetName name).mapError fun _ => .protocol
  Fallible.check (required = name) .protocol
  let size ← integerField data "size_bytes"
  Fallible.check (0 ≤ size ∧ size ≤ maxFileSetFileBytes) .protocol
  let digest ← stringField data "content_sha256"
  let digest ← sha256Text digest
  pure ⟨name, size.toNat, digest⟩

structure FileSetManifest where
  pageId : Text
  revisionId : Text
  revisionNumber : ℕ
  snapshotSha256 : Text
  files : List FileSetFileSummary
  primaryFile : Option Text
  displayTitle : Option Text
deriving DecidableEq

/-- The frame of one file in the snapshot digest. -/
def summaryFrame (item : FileSetFileSummary) : Bytes :=
  bigEndian 8 (utf8Encode item.filename).length ++ utf8Encode item.filename ++
    bigEndian 8 item.sizeBytes ++ unhex item.contentSha256

/-- What the client digests. -/
def snapshotInput (files : List FileSetFileSummary) : Bytes :=
  fileSetDomain ++ bigEndian 8 files.length ++ files.flatMap summaryFrame

/-- The names are in order and distinct up to case. -/
def CanonicallyOrdered (names : List Text) : Prop :=
  names.insertionSort (fun a b => utf8Encode a ≤ utf8Encode b) = names ∧
    (names.map fun name => nfc (Platform.casefold name)).Nodup

instance (names : List Text) : Decidable (CanonicallyOrdered names) := by
  unfold CanonicallyOrdered
  infer_instance

/-- The optional primary file, which must be a member. -/
def primaryField (data : Fields) (names : List Text) : Except ClientError (Option Text) :=
  match data.lookup ("primary_file" : Text) with
  | none | some .null => .ok none
  | some (.str primary) => if primary ∈ names then .ok (some primary) else .error .protocol
  | some _ => .error .protocol

/-- The optional display title. -/
def titleField (data : Fields) : Except ClientError (Option Text) :=
  match data.lookup ("display_title" : Text) with
  | none | some .null => .ok none
  | some (.str title) =>
    if title ≠ [] ∧ Char.ofNat 0 ∉ title then .ok (some title) else .error .protocol
  | some _ => .error .protocol

def requiredFields : List Text :=
  ["page_id", "revision_id", "revision_number", "snapshot_sha256", "files"]

def optionalFields : List Text := ["primary_file", "display_title"]

def FileSetManifest.fromDict (data : Fields) : Except ClientError FileSetManifest := do
  Fallible.check ((∀ key ∈ requiredFields, key ∈ data.map Prod.fst) ∧
    ∀ field ∈ data, field.1 ∈ requiredFields ++ optionalFields) .protocol
  let pageId ← stringField data "page_id"
  let revisionId ← stringField data "revision_id"
  let number ← integerField data "revision_number"
  let items ← objectList data "files"
  let files ← items.mapM fun item => do FileSetFileSummary.fromDict (← requireObject item)
  Fallible.check (pageId ≠ [] ∧ revisionId ≠ [] ∧ 1 ≤ number ∧ 1 ≤ files.length ∧
    files.length ≤ maxFileSetFiles) .protocol
  let names := files.map (·.filename)
  Fallible.check (CanonicallyOrdered names) .protocol
  Fallible.check ((files.map (·.sizeBytes)).sum ≤ maxFileSetPageBytes) .protocol
  let snapshot ← stringField data "snapshot_sha256"
  let snapshot ← sha256Text snapshot
  Fallible.check (hex (sha256 (snapshotInput files)) = snapshot) .protocol
  let primary ← primaryField data names
  let title ← titleField data
  pure ⟨pageId, revisionId, number.toNat, snapshot, files, primary, title⟩

end PatchouliLib.Client
