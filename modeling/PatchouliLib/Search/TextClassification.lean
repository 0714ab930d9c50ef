import PatchouliLib.Storage.Schema
import PatchouliLib.Content.FileManifest

/-!
# Which files are text

The extension of a file name decides whether the whole file is searched or only
its name.  A file that is declared text must be strict UTF-8 without NUL.

## Main definitions

* `indexingKindForName` — text or opaque.
* `classifyPageManifest` — every file with its text, or the reason there is none.
-/

namespace PatchouliLib

open Foundation

variable [Platform]

def textClassificationVersion : Text := "nfc-name-ascii-extension-utf8-strict-no-nul-v1"

def textFileExtensions : List Text :=
  ["md", "markdown", "txt", "json", "csv", "tsv", "yaml", "yml", "py", "sh"]

inductive FileIndexingKind where
  | text
  | opaqueBytes
deriving DecidableEq

/-- One verified source file and its complete decoded text, if eligible. -/
structure ClassifiedFile where
  name : Text
  indexingKind : FileIndexingKind
  sizeBytes : ℕ
  text : Option Text
deriving DecidableEq

/-- What follows the last full stop, if there is one. -/
def extensionOf (name : Text) : Option Text :=
  if '.' ∈ name then some (name.reverse.takeWhile (· ≠ '.')).reverse else none

/-- Classify a safe name by its ASCII extension, never by MIME. -/
def indexingKindForName (name : Text) : Except Err FileIndexingKind := do
  let normalized ← normalizeFileName name
  match extensionOf normalized with
  | none => pure .opaqueBytes
  | some extension =>
    if extension.all (·.toNat < 128) ∧ Platform.lower extension ∈ textFileExtensions then pure .text
    else pure .opaqueBytes

/-- Classify one file. -/
def classifyFile (storageFormat : StorageFormat) (entry : ManifestFile) :
    Except Err ClassifiedFile := do
  let kind ← if storageFormat = .legacyMarkdown then pure .text else indexingKindForName entry.name
  match kind with
  | .opaqueBytes => pure ⟨entry.name, .opaqueBytes, entry.contentSizeBytes, none⟩
  | .text => do
    Fallible.check (0 ∉ entry.content) .textClassification
    let decoded ← Fallible.get (utf8Decode entry.content) .textClassification
    pure ⟨entry.name, .text, entry.contentSizeBytes, some decoded⟩

/-- Classify every file, in manifest order. -/
def classifyPageManifest (manifest : FileManifest) (storageFormat : StorageFormat) :
    Except Err (List ClassifiedFile) := do
  Fallible.check (storageFormat = .legacyMarkdown →
    manifest.files.map (·.name) = [("content.md" : Text)]) .validation
  manifest.files.mapM (classifyFile storageFormat)

end PatchouliLib
