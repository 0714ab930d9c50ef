import PatchouliLib.Content.FileManifest

/-!
# Literals and their grams

A field and a keyword are compared in a normal form.  The full-text table holds
the grams of one, two and three codepoints of every field, each spelled as one
token; a candidate is a row with the gram of the first three codepoints of a
keyword.

## Main definitions

* `normalizeLiteral`, `normalizeKeywords` — the normal forms and their budgets.
* `encodedGrams` — the tokens of a field.
* `findPageHits` — a plain substring scan of every field.
-/

namespace PatchouliLib

open Foundation

def maxUniqueTerms : ℕ := 262144
def maxQueryBytes : ℕ := 32 * 1024
def maxQueryKeywords : ℕ := 256
def maxNormalizedQueryBytes : ℕ := 4 * maxQueryBytes
def maxNormalizedFieldBytes : ℕ := 4 * maxFileBytes
def maxPageMatchWork : ℕ := 512 * 1024 * 1024
def gramChunkCodepoints : ℕ := 4096
def maxCachedGramChunks : ℕ := 1024

variable [Platform]

/-! ### Normal forms -/

/-- NFC, casefold, then NFC. -/
def normalForm (value : Text) : Text := nfc (Platform.casefold (nfc value))

/-- Strict text normalized as NFC, casefold, then NFC. -/
def normalizeLiteral (value : Text) : Except Err Text := do
  Fallible.check (value.length ≤ maxFileBytes) .validation
  Fallible.check ((utf8Encode value).length ≤ maxFileBytes) .validation
  let normalized := normalForm value
  Fallible.check (normalized.length ≤ maxNormalizedFieldBytes) .validation
  Fallible.check ((utf8Encode normalized).length ≤ maxNormalizedFieldBytes) .validation
  pure normalized

/-- The state of the loop over the keywords. -/
structure KeywordLoop where
  rawBytes : ℕ := 0
  normalizedBytes : ℕ := 0
  result : List Text := []

def keywordStep (s : KeywordLoop) (keyword : Text) : Except Err KeywordLoop := do
  Fallible.check (keyword ≠ []) .validation
  let rawBytes := s.rawBytes + (utf8Encode keyword).length
  Fallible.check (rawBytes ≤ maxQueryBytes) .validation
  let normalized ← normalizeLiteral keyword
  let normalizedBytes := s.normalizedBytes + (utf8Encode normalized).length
  Fallible.check (normalizedBytes ≤ maxNormalizedQueryBytes) .validation
  pure ⟨rawBytes, normalizedBytes,
    if normalized ∈ s.result then s.result else s.result ++ [normalized]⟩

/-- Validate a bounded query and deduplicate whole normalized literals. -/
def normalizeKeywords (keywords : List Text) : Except Err (List Text) := do
  Fallible.check (keywords.length ≤ maxQueryKeywords) .validation
  let s ← keywords.foldlM keywordStep {}
  pure s.result

/-! ### Grams -/

/-- One token of the full-text table. -/
def encodedGram (gram : Text) : Text :=
  'g' :: Nat.toDigits 10 gram.length ++ 'x' :: hex (utf8Encode gram)

/-- The token that every field of a Library carries. -/
def encodedLibraryToken (libraryId : Text) : Text :=
  "libx" ++ (hex (sha256 (utf8Encode libraryId))).take 32

/-- Keep one more gram, within the budget. -/
def addGram (rawGrams : List Text) (gram : Text) : Except Err (List Text) :=
  if gram ∈ rawGrams then .ok rawGrams
  else if rawGrams.length < maxUniqueTerms then .ok (rawGrams ++ [gram])
  else .error .validation

/-- The grams that start in a window. -/
def windowGrams (window : Text) : List Text :=
  (List.range (min gramChunkCodepoints window.length)).flatMap fun offset =>
    (List.range (min 3 (window.length - offset))).map fun width =>
      (window.drop offset).take (width + 1)

/-- The state of the loop over the windows of a field. -/
structure GramLoop where
  rawGrams : List Text := []
  cachedChunks : List Text := []

/-- One round of the loop over the windows of a field. -/
def gramStep (normalized : Text) (s : GramLoop) (start : ℕ) : Except Err GramLoop :=
  -- two more codepoints cover the grams that start at the edge of the chunk
  let window := (normalized.drop start).take (gramChunkCodepoints + 2)
  if window ∈ s.cachedChunks then .ok s
  else do
    let rawGrams ← (windowGrams window).foldlM addGram s.rawGrams
    pure ⟨rawGrams, if s.cachedChunks.length < maxCachedGramChunks then window :: s.cachedChunks
      else s.cachedChunks⟩

/-- `range(0, length, 4096)`. -/
def chunkStarts (length : ℕ) : List ℕ :=
  (List.range ((length + gramChunkCodepoints - 1) / gramChunkCodepoints)).map
    (· * gramChunkCodepoints)

/-- The order of the tokens. -/
def tokenLe (a b : Text) : Prop := a ≤ b

instance : DecidableRel tokenLe := fun a b => by
  unfold tokenLe
  infer_instance

/-- Unique, sorted grams from one whole normalized field. -/
def encodedGrams (value : Text) : Except Err (List Text) := do
  let normalized ← normalizeLiteral value
  let s ← (chunkStarts normalized.length).foldlM (gramStep normalized) {}
  pure ((s.rawGrams.map encodedGram).insertionSort tokenLe)

/-! ### The plain scan -/

inductive HitSource where
  | title
  | body
  | fileName
  | fileText
deriving DecidableEq

/-- One distinct keyword in one complete field. -/
structure LiteralHit where
  keyword : Text
  source : HitSource
  fileName : Option Text := none
deriving DecidableEq

/-- The keyword is a substring of the field. -/
def occursIn (keyword field : Text) : Bool := decide (keyword <:+: field)

/-- The counters of the scan. -/
structure ScanLoop where
  hits : List LiteralHit := []
  totalBytes : ℕ := 0
  totalWork : ℕ := 0

/-- Scan one field. -/
def checkField (needles : List Text) (source : HitSource) (fileName : Option Text) (value : Text)
    (countPageBytes : Bool) (s : ScanLoop) : Except Err ScanLoop := do
  let totalBytes := if countPageBytes then s.totalBytes + (utf8Encode value).length
    else s.totalBytes
  Fallible.check (totalBytes ≤ maxPageBytes) .validation
  let field ← normalizeLiteral value
  let totalWork := s.totalWork + field.length * needles.length
  Fallible.check (totalWork ≤ maxPageMatchWork) .validation
  pure ⟨s.hits ++ (needles.filter (occursIn · field)).map (⟨·, source, fileName⟩), totalBytes,
    totalWork⟩

/-- The files of a Page as the scan takes them: a text file contributes its name
and its text, an opaque one its name only. -/
structure PageFields where
  title : Text
  body : Option Text := none
  textFiles : List (Text × Text) := []
  opaqueFileNames : List Text := []

/-- The state of the scan over the files. -/
def scanFile (needles : List Text) (s : ScanLoop × List Text) (file : Text × Option Text) :
    Except Err (ScanLoop × List Text) := do
  let (name, content) := file
  let key ← normalizeLiteral name
  Fallible.check (key ∉ s.2) .validation
  let scan ← checkField needles .fileName (some name) name false s.1
  match content with
  | none => pure (scan, key :: s.2)
  | some content => do
    let scan ← checkField needles .fileText (some name) content true scan
    pure (scan, key :: s.2)

/-- Find all whole-keyword hits in independent, explicitly eligible fields. -/
def findPageHits (keywords : List Text) (fields : PageFields) : Except Err (List LiteralHit) := do
  let needles ← normalizeKeywords keywords
  Fallible.check (fields.textFiles.length + fields.opaqueFileNames.length ≤ maxFilesPerPage)
    .validation
  let s ← checkField needles .title none fields.title false {}
  let s ← match fields.body with
    | none => pure s
    | some body => checkField needles .body none body true s
  let s ← (fields.textFiles.map fun file => (file.1, some file.2)).foldlM (scanFile needles) (s, [])
  let s ← (fields.opaqueFileNames.map fun name => (name, none)).foldlM (scanFile needles) s
  pure s.1.hits

end PatchouliLib
