import PatchouliLib.Foundation.Transaction
import PatchouliLib.Platform

/-!
# File manifests and presentations

A Page snapshot is a flat list of named files.  Names are normalized and are
distinct up to case; the files stand in the order of their encoded names, and the
snapshot digest covers every name, size and content digest behind a length
frame.

The presentation of a snapshot is its primary file and the title that is read
from that file.

## Main definitions

* `normalizeFileName` — the safe flat form of a file name.
* `FileManifest` — a complete snapshot together with the proof of its checks.
* `buildFileManifest` — the snapshot of a list of names and contents.
* `extractTitle`, `presentationFor` — the title of a file and the presentation
  of a snapshot.
-/

namespace PatchouliLib

open Foundation

def maxFilesPerPage : ℕ := 64
def maxFilenameBytes : ℕ := 255
def maxRawFilenameChars : ℕ := 512
def maxFileBytes : ℕ := 16 * 1024 * 1024
def maxPageBytes : ℕ := 64 * 1024 * 1024
def maxMarkdownBytes : ℕ := 2 * 1024 * 1024

def snapshotDomain : Bytes := utf8Encode "patchouli-page-file-snapshot-v1" ++ [0]
def windowsForbidden : Text := ['<', '>', ':', '"', '/', '\\', '|', '?', '*']
def windowsDeviceNames : List Text := ["CON", "PRN", "AUX", "NUL", "CONIN$", "CONOUT$"]
def windowsDevicePrefixes : List Text := ["COM", "LPT"]
def windowsDeviceSuffixes : Text := "0123456789¹²³"

/-! ### File names -/

/-- The part of the name before its first dot is a device of some filesystem. -/
def isReservedStem (stem : Text) : Bool :=
  windowsDeviceNames.contains stem ||
    (stem.length == 4 && windowsDevicePrefixes.contains (stem.take 3) &&
      stem.getLast?.any windowsDeviceSuffixes.contains)

/-- The checks on a name that is already in normal form. -/
def isSafeFileName [Platform] (name : Text) : Bool :=
  name ≠ [] && name ≠ "." && name ≠ ".." && name.head? ≠ some ' ' &&
    !(name.splitOn '.').any (fun part => part.getLast? == some ' ') &&
    name.getLast? ≠ some '.' && !name.any windowsForbidden.contains &&
    !name.any Platform.isControlOrFormat &&
    !isReservedStem (Platform.upper (name.takeWhile (· ≠ '.'))) &&
    (utf8Encode name).length ≤ maxFilenameBytes

/-- Return a safe flat filename, or reject ambiguous cross-platform names. -/
def normalizeFileName [Platform] (value : Text) : Except Err Text :=
  if value.length > maxRawFilenameChars then .error .validation
  else if isSafeFileName (nfc value) then .ok (nfc value)
  else .error .validation

/-- Two names with one key are ambiguous. -/
def collisionKey [Platform] (name : Text) : Text := nfc (Platform.casefold name)

/-! ### Snapshots -/

/-- One normalized, immutable file and its verified content digest. -/
structure ManifestFile where
  name : Text
  content : Bytes
  contentSizeBytes : ℕ
  contentSha256 : Bytes
deriving DecidableEq, Repr

/-- The checks of a manifest file. -/
def ManifestFile.Valid [Platform] (entry : ManifestFile) : Prop :=
  normalizeFileName entry.name = .ok entry.name ∧ entry.content.length ≤ maxFileBytes ∧
    entry.contentSizeBytes = entry.content.length ∧ entry.contentSha256 = sha256 entry.content

instance [Platform] (entry : ManifestFile) : Decidable entry.Valid := by
  unfold ManifestFile.Valid
  infer_instance

/-- The order of the encoded names. -/
def nameLe (a b : ManifestFile) : Prop := utf8Encode a.name ≤ utf8Encode b.name

instance : DecidableRel nameLe := fun a b => by
  unfold nameLe
  infer_instance

/-- The frame of one file in the snapshot digest. -/
def fileFrame (entry : ManifestFile) : Bytes :=
  bigEndian 8 (utf8Encode entry.name).length ++ utf8Encode entry.name ++
    bigEndian 8 entry.contentSizeBytes ++ entry.contentSha256

def snapshotDigest [Platform] (files : List ManifestFile) : Bytes :=
  sha256 (snapshotDomain ++ bigEndian 8 files.length ++ files.flatMap fileFrame)

def totalSize (files : List ManifestFile) : ℕ := (files.map (·.contentSizeBytes)).sum

/-- The checks of a complete snapshot. -/
structure FileManifest.Valid [Platform] (files : List ManifestFile) (totalSizeBytes : ℕ)
    (snapshotSha256 : Bytes) : Prop where
  count : 1 ≤ files.length ∧ files.length ≤ maxFilesPerPage
  entries : ∀ entry ∈ files, entry.Valid
  sorted : files.insertionSort nameLe = files
  distinct : (files.map (collisionKey ·.name)).Nodup
  bounded : totalSize files ≤ maxPageBytes
  total : totalSizeBytes = totalSize files
  digest : snapshotSha256 = snapshotDigest files

instance [Platform] (files : List ManifestFile) (totalSizeBytes : ℕ) (snapshotSha256 : Bytes) :
    Decidable (FileManifest.Valid files totalSizeBytes snapshotSha256) :=
  decidable_of_iff ((1 ≤ files.length ∧ files.length ≤ maxFilesPerPage) ∧
      (∀ entry ∈ files, entry.Valid) ∧ files.insertionSort nameLe = files ∧
      (files.map (collisionKey ·.name)).Nodup ∧ totalSize files ≤ maxPageBytes ∧
      totalSizeBytes = totalSize files ∧ snapshotSha256 = snapshotDigest files)
    ⟨fun ⟨h1, h2, h3, h4, h5, h6, h7⟩ => ⟨h1, h2, h3, h4, h5, h6, h7⟩,
      fun h => ⟨h.1, h.2, h.3, h.4, h.5, h.6, h.7⟩⟩

/-- A deterministically ordered complete Page snapshot. -/
structure FileManifest [Platform] where
  files : List ManifestFile
  totalSizeBytes : ℕ
  snapshotSha256 : Bytes
  valid : FileManifest.Valid files totalSizeBytes snapshotSha256
deriving DecidableEq

/-- The snapshot of these fields, when they pass its checks. -/
def FileManifest.ofParts [Platform] (files : List ManifestFile) (totalSizeBytes : ℕ)
    (snapshotSha256 : Bytes) : Except Err FileManifest :=
  if h : FileManifest.Valid files totalSizeBytes snapshotSha256 then .ok ⟨_, _, _, h⟩
  else .error .validation

/-- The state of the loop over the given files. -/
structure ManifestLoop where
  entries : List ManifestFile := []
  seenNames : List Text := []
  totalSize : ℕ := 0

/-- One round of the loop over the given files. -/
def manifestStep [Platform] (s : ManifestLoop) (item : Text × Bytes) : Except Err ManifestLoop := do
  Fallible.check (s.entries.length < maxFilesPerPage) .validation
  let (rawName, content) := item
  let name ← normalizeFileName rawName
  Fallible.check (collisionKey name ∉ s.seenNames) .validation
  let size := content.length
  Fallible.check (size ≤ maxFileBytes ∧ s.totalSize + size ≤ maxPageBytes) .validation
  pure ⟨s.entries ++ [⟨name, content, size, sha256 content⟩], collisionKey name :: s.seenNames,
    s.totalSize + size⟩

/-- Validate exact file bytes and hash a canonical, complete file list. -/
def buildFileManifest [Platform] (files : List (Text × Bytes)) : Except Err FileManifest := do
  let s ← files.foldlM manifestStep {}
  Fallible.check (s.entries ≠ []) .validation
  let ordered := s.entries.insertionSort nameLe
  FileManifest.ofParts ordered s.totalSize (snapshotDigest ordered)

@[ext] theorem FileManifest.ext_of_files [Platform] {m m' : FileManifest} (h : m.files = m'.files) :
    m = m' := by
  obtain ⟨files, total, digest, hv⟩ := m
  obtain ⟨files', total', digest', hv'⟩ := m'
  cases h
  cases hv.total.trans hv'.total.symm
  cases hv.digest.trans hv'.digest.symm
  rfl

/-! ### Presentations -/

/-- `无标题`. -/
def untitled : Text := "无标题"

/-- The display metadata of one exact file-set Revision. -/
structure Presentation where
  primaryFile : Option Text
  displayTitle : Text
deriving DecidableEq, Repr

/-- Recognize source text. -/
def previewText (content : Bytes) : Option Text :=
  if content.contains 0 then none else utf8Decode content

/-- `PurePosixPath(name).suffix` of a flat name. -/
def pathSuffix (name : Text) : Text :=
  let extension := (name.reverse.takeWhile (· ≠ '.')).reverse
  if extension.length + 1 < name.length ∧ extension ≠ [] then '.' :: extension else []

/-- The characters that `str.strip` removes. -/
def isSpace (c : Char) : Bool :=
  let n := c.toNat
  (9 ≤ n && n ≤ 13) || (28 ≤ n && n ≤ 32) || n == 0x85 || n == 0xa0 || n == 0x1680 ||
    (0x2000 ≤ n && n ≤ 0x200a) || n == 0x2028 || n == 0x2029 || n == 0x202f || n == 0x205f ||
    n == 0x3000

/-- `text.strip()`. -/
def strip (text : Text) : Text := (text.dropWhile isSpace).rdropWhile isSpace

/-- The characters that end a line for `str.splitlines`. -/
def isLineBreak (c : Char) : Bool :=
  let n := c.toNat
  (10 ≤ n && n ≤ 13) || (28 ≤ n && n ≤ 30) || n == 0x85 || n == 0x2028 || n == 0x2029

/-- `text.splitlines(keepends=True)`, with the line read so far in reverse. -/
def splitLines (line : Text) : Text → List Text
  | [] => if line = [] then [] else [line.reverse]
  | '\r' :: '\n' :: rest => (line.reverse ++ ['\r', '\n']) :: splitLines [] rest
  | c :: rest =>
    if isLineBreak c then (line.reverse ++ [c]) :: splitLines [] rest
    else splitLines (c :: line) rest

/-- The lines after the one that closes the front matter, if one does. -/
def afterFrontMatter : List Text → Option (List Text)
  | [] => none
  | line :: rest =>
    if strip line = "---" ∨ strip line = "..." then some rest else afterFrontMatter rest

/-- The text without its front matter. -/
def withoutFrontMatter (text : Text) : Text :=
  match splitLines [] text with
  | [] => text
  | first :: rest =>
    if strip first = "---" then
      match afterFrontMatter rest with
      | some body => body.flatten
      | none => text
    else text

/-- The inline token of the first top heading. -/
def firstHeading : List MarkdownToken → Option MarkdownToken
  | token :: inline :: rest =>
    if token.type = "heading_open" ∧ token.tag = "h1" then some inline
    else firstHeading (inline :: rest)
  | _ => none

/-- The text of an inline token. -/
def headingText (inline : MarkdownToken) : Text :=
  strip <| inline.children.flatMap fun (child : InlineToken) =>
    if child.type = "softbreak" ∨ child.type = "hardbreak" then [' ']
    else if child.type = "text" ∨ child.type = "code_inline" ∨ child.type = "image" then
      child.content
    else []

def markdownSuffixes : List Text := [".md", ".markdown", ".mdown", ".mkd"]

/-- The title of a Markdown file, or the untitled marker. -/
def extractTitle [Platform] (filename : Option Text) (content : Option Bytes) : Text :=
  match filename, content with
  | some filename, some content =>
    if Platform.lower (pathSuffix filename) ∉ markdownSuffixes then untitled
    else
      match previewText content with
      | none => untitled
      | some text =>
        match firstHeading (Platform.parseMarkdown (withoutFrontMatter text)) with
        | none => untitled
        | some inline => if headingText inline = [] then untitled else headingText inline
  | _, _ => untitled

/-- The presentation of a snapshot with this primary file. -/
def presentationFor [Platform] (manifest : FileManifest) (primaryFile : Option Text) :
    Except Err Presentation :=
  match primaryFile with
  | none => .ok ⟨none, untitled⟩
  | some primaryFile =>
    match manifest.files.find? (·.name = primaryFile) with
    | none => .error .validation
    | some entry =>
      if (previewText entry.content).isSome then
        .ok ⟨some primaryFile, extractTitle (some primaryFile) (some entry.content)⟩
      else .error .validation

theorem untitled_ne_nil : untitled ≠ [] := by decide

theorem extractTitle_ne_nil [Platform] (filename : Option Text) (content : Option Bytes) :
    extractTitle filename content ≠ [] := by
  unfold extractTitle
  split
  · split
    · exact untitled_ne_nil
    · split
      · exact untitled_ne_nil
      · split
        · exact untitled_ne_nil
        · split
          · exact untitled_ne_nil
          · assumption
  · exact untitled_ne_nil

end PatchouliLib
