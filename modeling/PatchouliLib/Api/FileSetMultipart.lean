import PatchouliLib.Api.MimeParameters
import PatchouliLib.Content.Manifests
import PatchouliLib.Foundation.Buffering
import PatchouliLib.Foundation.Dictionary

/-!
# Uploads of file sets

An upload is a multipart body: a part of metadata and then the files.  The parser
of the body is a library; it calls the collector back at the marks of the body and
hands it names, values and contents in pieces, cut where the stream happens to be
cut.  The collector checks limits piece by piece, and headers part by part.

## Main definitions

* `Collector`, `callback` — the collector and its callbacks.
* `parseFileSetMultipart` — the upload that the callbacks of a parser make.
* `PartSource`, `BodyCuts` — a body, and the callbacks it may be cut into.
* `collectPart` — the collector, a part at a time.

## Main results

* `foldlM_bodyCuts` — **callback by callback or part by part, the collector does the
  same.**
* `partsCollected_of_foldlM` — what a run over the parts has collected.
* `parseFileSetMultipart_ok` — when a stream is accepted.
* `parseFileSetMultipart_exact` — the cuts do not matter, and what is accepted is the
  metadata and then the files, within the limits.
-/

namespace PatchouliLib

open Foundation

/-! ### The library -/

/-- A callback of the parser. -/
inductive Callback where
  | partBegin
  | headerField (data : Bytes)
  | headerValue (data : Bytes)
  | headerEnd
  | headersFinished
  | partData (data : Bytes)
  | partEnd
  | finish
deriving DecidableEq

/-- What is used of the parser library beside its callbacks. -/
class MultipartLibrary where
  /-- `parse_options_header(value)`, or none when it raises. -/
  parseOptionsHeader : Bytes → Option (Bytes × List (Bytes × Bytes))

inductive MultipartError where
  | malformed
  | unsupportedPartMedia
  | payloadTooLarge
deriving DecidableEq

def maxFileSetMetadataBytes : ℕ := 64 * 1024
def maxFileSetMultipartBytes : ℕ := maxPageBytes + maxFileSetMetadataBytes + 256 * 1024
def maxPartHeaderBytes : ℕ := 1024

/-- The bytes of an ASCII text. -/
def asciiBytes (text : Text) : Bytes := text.map fun c => UInt8.ofNat c.toNat

def contentDispositionHeader : Bytes := asciiBytes "content-disposition"
def contentLengthHeader : Bytes := asciiBytes "content-length"
def contentTypeHeader : Bytes := asciiBytes "content-type"
def nameParameter : Bytes := asciiBytes "name"
def filenameParameter : Bytes := asciiBytes "filename"
def charsetParameter : Bytes := asciiBytes "charset"
def metadataPart : Bytes := asciiBytes "metadata"
def filePart : Bytes := asciiBytes "file"
def utf8Charset : Bytes := asciiBytes "utf-8"

theorem filePart_ne : filePart ≠ metadataPart := by decide

/-! ### Headers -/

section

variable [MultipartLibrary]

/-- The media type of a header and its parameters by their lower-case names, or none when
they are ambiguous. -/
def mimeParameters (value : Bytes) : Option (Bytes × List (Bytes × Bytes)) :=
  match requireUniqueMimeParameters value with
  | .error _ => none
  | .ok _ => do
    let (media, raw) ← MultipartLibrary.parseOptionsHeader value
    let normalized := Dict.update [] (raw.map fun e => (lowerBytes e.1, e.2))
    if normalized.length = raw.length then some (lowerBytes media, normalized) else none

/-- `set(parameters) == {…}`. -/
def HasNames (parameters : List (Bytes × Bytes)) (names : List Bytes) : Prop :=
  (∀ e ∈ parameters, e.1 ∈ names) ∧ ∀ name ∈ names, name ∈ Dict.keys parameters

instance (parameters : List (Bytes × Bytes)) (names : List Bytes) :
    Decidable (HasNames parameters names) := by
  unfold HasNames
  infer_instance

/-- Only validate the label's syntax. -/
def isValidMediaLabel (media : Bytes) (parameters : List (Bytes × Bytes)) : Bool :=
  match media.splitOn 0x2f with
  | [type, subtype] =>
    type ≠ [] && type.all isMimeToken && subtype ≠ [] && subtype.all isMimeToken &&
      type ≠ asciiBytes "multipart" && parameters.all (fun e => e.1 = charsetParameter) &&
      (parameters.lookup charsetParameter).all fun charset => lowerBytes charset = utf8Charset
  | _ => false

/-- The media types of the metadata: JSON, and text of a browser. -/
def isMetadataMedia (allowBrowserMetadata : Bool) (media : Bytes)
    (parameters : List (Bytes × Bytes)) : Bool :=
  let parameters := parameters.map fun e =>
    if e.1 = charsetParameter then (e.1, lowerBytes e.2) else e
  (media = asciiBytes "application/json" ||
    allowBrowserMetadata && media = asciiBytes "text/plain") &&
  (parameters = [] || parameters = [(charsetParameter, utf8Charset)])

end

/-! ### The collector -/

structure Collector where
  metadata : Option Bytes := none
  files : List (Text × Bytes) := []
  ended : Bool := false
  headerName : Bytes := []
  headerValue : Bytes := []
  headers : List (Bytes × Bytes) := []
  partName : Option Bytes := none
  fileName : Option Text := none
  partData : Bytes := []
  totalFileBytes : ℕ := 0
  collisionKeys : List Text := []
deriving DecidableEq

def onPartBegin (c : Collector) : Except MultipartError Collector := do
  Fallible.check (c.ended = false ∧ c.files.length < maxFilesPerPage) .payloadTooLarge
  pure { c with
    headerName := [], headerValue := [], headers := [], partName := none, fileName := none,
    partData := [] }

def onHeaderField (c : Collector) (data : Bytes) : Except MultipartError Collector := do
  Fallible.check (c.headerName.length + data.length ≤ maxPartHeaderBytes) .malformed
  pure { c with headerName := c.headerName ++ data }

def onHeaderValue (c : Collector) (data : Bytes) : Except MultipartError Collector := do
  Fallible.check (c.headerValue.length + data.length ≤ maxPartHeaderBytes) .malformed
  pure { c with headerValue := c.headerValue ++ data }

def onHeaderEnd (c : Collector) : Except MultipartError Collector := do
  let name := lowerBytes c.headerName
  Fallible.check (name ≠ [] ∧ name ∉ Dict.keys c.headers) .malformed
  pure { c with headers := c.headers ++ [(name, c.headerValue)], headerName := [], headerValue := [] }

section

variable [Platform] [MultipartLibrary]

omit [Platform] in
/-- The name of a part and its parameters: the metadata first, files afterwards. -/
def partParameters (c : Collector) : Except MultipartError (Bytes × List (Bytes × Bytes)) := do
  let value ← Fallible.get (c.headers.lookup contentDispositionHeader) .malformed
  Fallible.check (∀ e ∈ c.headers, e.1 = contentDispositionHeader ∨ e.1 = contentTypeHeader) .malformed
  let (disposition, parameters) ← Fallible.get (mimeParameters value) .malformed
  let name ← Fallible.get (parameters.lookup nameParameter) .malformed
  Fallible.check (disposition = asciiBytes "form-data" ∧ (name = metadataPart ∨ name = filePart))
    .malformed
  if c.metadata = none ∧ c.files = [] then
    Fallible.check (name = metadataPart ∧ HasNames parameters [nameParameter]) .malformed
  else
    Fallible.check (name = filePart ∧ HasNames parameters [nameParameter, filenameParameter])
      .malformed
  pure (name, parameters)

omit [Platform] in
def requireMetadataMedia (allowBrowserMetadata : Bool) (header : Option Bytes) :
    Except MultipartError PUnit.{1} :=
  match header with
  | none => Fallible.check (allowBrowserMetadata = true) .unsupportedPartMedia
  | some value => do
    let (media, parameters) ← Fallible.get (mimeParameters value) .unsupportedPartMedia
    Fallible.check (isMetadataMedia allowBrowserMetadata media parameters = true)
      .unsupportedPartMedia

omit [Platform] in
def requireFileMedia (header : Option Bytes) : Except MultipartError PUnit.{1} :=
  match header with
  | none => pure ⟨⟩
  | some value => do
    let (media, parameters) ← Fallible.get (mimeParameters value) .unsupportedPartMedia
    Fallible.check (isValidMediaLabel media parameters = true) .unsupportedPartMedia

/-- The normalized name of a file. -/
def partFileName (parameters : List (Bytes × Bytes)) : Except MultipartError Text := do
  let raw ← Fallible.get (parameters.lookup filenameParameter) .malformed
  let rawName ← Fallible.get (utf8Decode raw) .malformed
  (normalizeFileName rawName).mapError fun _ => .malformed

/-- The headers of a file. -/
def beginFile (c : Collector) (parameters : List (Bytes × Bytes)) :
    Except MultipartError Collector := do
  Fallible.check (c.files.length < maxFilesPerPage) .payloadTooLarge
  let filename ← partFileName parameters
  Fallible.check (collisionKey filename ∉ c.collisionKeys) .malformed
  requireFileMedia (c.headers.lookup contentTypeHeader)
  pure { c with
    collisionKeys := collisionKey filename :: c.collisionKeys, fileName := some filename
    partName := some filePart }

def onHeadersFinished (allowBrowserMetadata : Bool) (c : Collector) :
    Except MultipartError Collector := do
  let (name, parameters) ← partParameters c
  if name = metadataPart then
    requireMetadataMedia allowBrowserMetadata (c.headers.lookup contentTypeHeader)
    pure { c with partName := some metadataPart }
  else beginFile c parameters

end

/-- What a part of this name has room for. -/
def partRoom (c : Collector) (name : Bytes) (incoming : ℕ) : Prop :=
  if name = metadataPart then c.partData.length + incoming ≤ maxFileSetMetadataBytes
  else c.partData.length + incoming ≤ maxFileBytes ∧
    c.totalFileBytes + c.partData.length + incoming ≤ maxPageBytes

instance (c : Collector) (name : Bytes) (incoming : ℕ) : Decidable (partRoom c name incoming) := by
  unfold partRoom
  infer_instance

def onPartData (c : Collector) (data : Bytes) : Except MultipartError Collector := do
  let name ← Fallible.get c.partName .malformed
  Fallible.check (partRoom c name data.length) .payloadTooLarge
  pure { c with partData := c.partData ++ data }

def onPartEnd (c : Collector) : Except MultipartError Collector :=
  if c.partName = some metadataPart then do
    Fallible.check (c.metadata = none ∧ c.partData ≠ []) .malformed
    pure { c with metadata := some c.partData }
  else if c.partName = some filePart then do
    let fileName ← Fallible.get c.fileName .malformed
    pure { c with
      totalFileBytes := c.totalFileBytes + c.partData.length
      files := c.files ++ [(fileName, c.partData)] }
  else .error .malformed

section

variable [Platform] [MultipartLibrary]

/-- One callback. -/
def callback (allowBrowserMetadata : Bool) (c : Collector) : Callback → Except MultipartError Collector
  | .partBegin => onPartBegin c
  | .headerField data => onHeaderField c data
  | .headerValue data => onHeaderValue c data
  | .headerEnd => onHeaderEnd c
  | .headersFinished => onHeadersFinished allowBrowserMetadata c
  | .partData data => onPartData c data
  | .partEnd => onPartEnd c
  | .finish => .ok { c with ended := true }

/-! ### The upload -/

/-- One chunk of the stream: the callbacks it makes, and whether the parser raises after
them. -/
structure ParserWrite where
  chunk : Bytes
  callbacks : List Callback
  raises : Bool

structure ParsedFileSetUpload where
  metadata : Bytes
  manifest : FileManifest

omit [Platform] [MultipartLibrary] in
def validationProblem : Err := .apiError 422 "request_validation_failed"

omit [Platform] [MultipartLibrary] in
def sizeProblem : Err := .apiError 413 "content_too_large"

omit [Platform] [MultipartLibrary] in
def mediaProblem : Err := .apiError 415 "unsupported_media_type"

omit [Platform] [MultipartLibrary] in
def MultipartError.problem : MultipartError → Err
  | .malformed => validationProblem
  | .unsupportedPartMedia => mediaProblem
  | .payloadTooLarge => sizeProblem

omit [Platform] [MultipartLibrary] in
def headerValues (headers : List (Bytes × Bytes)) (expected : Bytes) : List Bytes :=
  (headers.filter fun e => lowerBytes e.1 = expected).map (·.2)

omit [Platform] in
/-- The boundary of the body. -/
def uploadBoundary (headers : List (Bytes × Bytes)) : Except Err Bytes :=
  match headerValues headers contentTypeHeader with
  | [value] => do
    let (media, parameters) ← Fallible.get (mimeParameters value) mediaProblem
    Fallible.check (media = asciiBytes "multipart/form-data" ∧
      HasNames parameters [asciiBytes "boundary"]) mediaProblem
    let boundary ← Fallible.get (parameters.lookup (asciiBytes "boundary")) mediaProblem
    Fallible.check (1 ≤ boundary.length ∧ boundary.length ≤ 70 ∧
      ∀ b ∈ boundary, 0x20 ≤ b ∧ b ≤ 0x7e) validationProblem
    pure boundary
  | _ => .error mediaProblem

omit [Platform] [MultipartLibrary] in
/-- `int(value)` of a value of ASCII digits. -/
def decimalValue (value : Bytes) : ℕ := value.foldl (fun n b => n * 10 + (b.toNat - 48)) 0

omit [Platform] [MultipartLibrary] in
def declaredLength (headers : List (Bytes × Bytes)) : Except Err (Option ℕ) :=
  match headerValues headers contentLengthHeader with
  | [] => pure none
  | [value] => do
    Fallible.check (value ≠ [] ∧ (∀ b ∈ value, 0x30 ≤ b ∧ b ≤ 0x39) ∧ value.length ≤ 20)
      validationProblem
    pure (some (decimalValue value))
  | _ => .error validationProblem

/-- One chunk of the stream. -/
def writeChunk (allowBrowserMetadata : Bool) (s : ℕ × Collector) (write : ParserWrite) :
    Except MultipartError (ℕ × Collector) := do
  let total := s.1 + write.chunk.length
  Fallible.check (total ≤ maxFileSetMultipartBytes) .payloadTooLarge
  let c ← write.callbacks.foldlM (callback allowBrowserMetadata) s.2
  Fallible.check (write.raises = false) .malformed
  pure (total, c)

/-- Read a complete snapshot from a bounded multipart stream. -/
def parseFileSetMultipart (headers : List (Bytes × Bytes)) (writes : List ParserWrite)
    (allowBrowserMetadata : Bool) : Except Err ParsedFileSetUpload := do
  let _ ← uploadBoundary headers
  let length ← declaredLength headers
  Fallible.check (∀ n ∈ length, n ≤ maxFileSetMultipartBytes) sizeProblem
  let (total, collector) ← (writes.foldlM (writeChunk allowBrowserMetadata) (0, {})).mapError
    MultipartError.problem
  Fallible.check (collector.ended = true) validationProblem
  let metadata ← Fallible.get collector.metadata validationProblem
  Fallible.check (collector.files ≠ []) validationProblem
  Fallible.check (∀ n ∈ length, total = n) validationProblem
  let manifest ← (buildFileManifest collector.files).mapError fun _ => validationProblem
  pure ⟨metadata, manifest⟩

/-! ### Bodies -/

/-- A part of a body. -/
structure PartSource where
  headers : List (Bytes × Bytes)
  content : Bytes

omit [Platform] [MultipartLibrary] in
/-- The headers of a part by their lower-case names. -/
def PartSource.lowerHeaders (part : PartSource) : List (Bytes × Bytes) :=
  part.headers.map fun e => (lowerBytes e.1, e.2)

omit [Platform] in
/-- The parameters of the disposition of a part. -/
def PartSource.parameters (part : PartSource) : Option (List (Bytes × Bytes)) :=
  ((part.lowerHeaders.lookup contentDispositionHeader).bind mimeParameters).map (·.2)

omit [Platform] in
def PartSource.name (part : PartSource) : Option Bytes :=
  part.parameters.bind fun parameters => parameters.lookup nameParameter

/-- The normalized name of the file of a part. -/
def PartSource.fileName (part : PartSource) : Option Text :=
  part.parameters.bind fun parameters => (partFileName parameters).toOption

omit [Platform] [MultipartLibrary] in
/-- Data that is handed over in pieces, some of them empty. -/
def IsCut (mk : Bytes → Callback) (data : Bytes) (callbacks : List Callback) : Prop :=
  ∃ pieces : List Bytes, pieces.flatten = data ∧ callbacks = pieces.map mk

/-- The callbacks of headers. -/
inductive HeaderCuts : List (Bytes × Bytes) → List Callback → Prop
  | nil : HeaderCuts [] []
  | cons {header : Bytes × Bytes} {headers : List (Bytes × Bytes)}
      {fields values rest : List Callback} (hfields : IsCut .headerField header.1 fields)
      (hvalues : IsCut .headerValue header.2 values) (hrest : HeaderCuts headers rest) :
      HeaderCuts (header :: headers) (fields ++ (values ++ .headerEnd :: rest))

/-- The callbacks of a part. -/
inductive PartCuts : PartSource → List Callback → Prop
  | intro {part : PartSource} {headers data : List Callback}
      (hheaders : HeaderCuts part.headers headers) (hdata : IsCut .partData part.content data) :
      PartCuts part (.partBegin :: (headers ++ .headersFinished :: (data ++ [.partEnd])))

/-- The callbacks of a body. -/
inductive BodyCuts : List PartSource → List Callback → Prop
  | nil : BodyCuts [] [.finish]
  | cons {part : PartSource} {parts : List PartSource} {callbacks rest : List Callback}
      (hpart : PartCuts part callbacks) (hrest : BodyCuts parts rest) :
      BodyCuts (part :: parts) (callbacks ++ rest)

omit [Platform] [MultipartLibrary] in
/-- A body: complete, or one that the parser gives up on or that ends too soon. -/
inductive MultipartBody where
  | complete (parts : List PartSource)
  | broken

omit [Platform] [MultipartLibrary] in
/-- What the parser does with the chunks of a body. -/
def MultipartBody.Feeds : MultipartBody → List ParserWrite → Prop
  | .complete parts, writes =>
    BodyCuts parts (writes.flatMap (·.callbacks)) ∧ ∀ write ∈ writes, write.raises = false
  | .broken, writes =>
    (∃ write ∈ writes, write.raises = true) ∨ .finish ∉ writes.flatMap (·.callbacks)

/-! ### The collector, a part at a time -/

omit [Platform] [MultipartLibrary] in
/-- A header. -/
def collectHeader (c : Collector) (header : Bytes × Bytes) : Except MultipartError Collector := do
  let c ← onHeaderField c header.1
  let c ← onHeaderValue c header.2
  onHeaderEnd c

/-- A part. -/
def collectPart (allowBrowserMetadata : Bool) (c : Collector) (part : PartSource) :
    Except MultipartError Collector := do
  let c ← onPartBegin c
  let c ← part.headers.foldlM collectHeader c
  let c ← onHeadersFinished allowBrowserMetadata c
  let c ← onPartData c part.content
  onPartEnd c

section

omit [Platform] [MultipartLibrary]

/-- The name of a header is a bounded buffer. -/
theorem buffering_headerField :
    Buffering onHeaderField (fun c => c.headerName.length ≤ maxPartHeaderBytes)
      (fun c => maxPartHeaderBytes - c.headerName.length)
      (fun c data => { c with headerName := c.headerName ++ data }) .malformed where
  step c data hc := by
    have hroom : c.headerName.length + data.length ≤ maxPartHeaderBytes ↔
        data.length ≤ maxPartHeaderBytes - c.headerName.length := by omega
    rw [onHeaderField]
    by_cases h : c.headerName.length + data.length ≤ maxPartHeaderBytes
    · rw [Fallible.check_of h, if_pos (hroom.mp h)]
      rfl
    · rw [Fallible.check_of_not h, if_neg fun h' => h (hroom.mpr h')]
      rfl
  fits c data hc hroom := by
    rw [List.length_append]
    omega
  room_push c data hc hroom := by
    rw [List.length_append]
    omega
  push_nil c := by rw [List.append_nil]
  push_append c data data' := by
    dsimp only
    rw [List.append_assoc]

/-- The value of a header is a bounded buffer. -/
theorem buffering_headerValue :
    Buffering onHeaderValue (fun c => c.headerValue.length ≤ maxPartHeaderBytes)
      (fun c => maxPartHeaderBytes - c.headerValue.length)
      (fun c data => { c with headerValue := c.headerValue ++ data }) .malformed where
  step c data hc := by
    have hroom : c.headerValue.length + data.length ≤ maxPartHeaderBytes ↔
        data.length ≤ maxPartHeaderBytes - c.headerValue.length := by omega
    rw [onHeaderValue]
    by_cases h : c.headerValue.length + data.length ≤ maxPartHeaderBytes
    · rw [Fallible.check_of h, if_pos (hroom.mp h)]
      rfl
    · rw [Fallible.check_of_not h, if_neg fun h' => h (hroom.mpr h')]
      rfl
  fits c data hc hroom := by
    rw [List.length_append]
    omega
  room_push c data hc hroom := by
    rw [List.length_append]
    omega
  push_nil c := by rw [List.append_nil]
  push_append c data data' := by
    dsimp only
    rw [List.append_assoc]

/-- How many more bytes a part takes. -/
def roomLeft (name : Bytes) (c : Collector) : ℕ :=
  if name = metadataPart then maxFileSetMetadataBytes - c.partData.length
  else min (maxFileBytes - c.partData.length)
    (maxPageBytes - (c.totalFileBytes + c.partData.length))

/-- The content of a part is a bounded buffer. -/
theorem buffering_partData (name : Bytes) :
    Buffering onPartData (fun c => c.partName = some name ∧ partRoom c name 0) (roomLeft name)
      (fun c data => { c with partData := c.partData ++ data }) .payloadTooLarge where
  step c data hc := by
    obtain ⟨hname, hfits⟩ := hc
    have hroom : partRoom c name data.length ↔ data.length ≤ roomLeft name c := by
      rw [partRoom] at hfits ⊢
      rw [roomLeft]
      by_cases hmetadata : name = metadataPart
      · rw [if_pos hmetadata] at hfits ⊢
        rw [if_pos hmetadata]
        omega
      · rw [if_neg hmetadata] at hfits ⊢
        rw [if_neg hmetadata]
        omega
    rw [onPartData, hname]
    show Fallible.check _ _ >>= _ = _
    by_cases h : partRoom c name data.length
    · rw [Fallible.check_of h, if_pos (hroom.mp h)]
      rfl
    · rw [Fallible.check_of_not h, if_neg fun h' => h (hroom.mpr h')]
      rfl
  fits c data hc hroom := by
    obtain ⟨hname, hfits⟩ := hc
    refine ⟨hname, ?_⟩
    rw [partRoom] at hfits ⊢
    rw [roomLeft] at hroom
    rw [List.length_append]
    dsimp only
    split at hfits
    · next hmetadata =>
      rw [if_pos hmetadata] at hroom ⊢
      omega
    · next hmetadata =>
      rw [if_neg hmetadata] at hroom ⊢
      omega
  room_push c data hc hroom := by
    rw [roomLeft] at hroom ⊢
    rw [roomLeft, List.length_append]
    dsimp only
    split at hroom
    · next hmetadata =>
      rw [if_pos hmetadata, if_pos hmetadata]
      omega
    · next hmetadata =>
      rw [if_neg hmetadata, if_neg hmetadata]
      omega
  push_nil c := by rw [List.append_nil]
  push_append c data data' := by
    dsimp only
    rw [List.append_assoc]

/-- No header has begun. -/
def Collector.BetweenHeaders (c : Collector) : Prop := c.headerName = [] ∧ c.headerValue = []

/-- A header between headers. -/
theorem collectHeader_ok {c c' : Collector} {header : Bytes × Bytes} (hc : c.BetweenHeaders) :
    collectHeader c header = .ok c' ↔
      (header.1.length ≤ maxPartHeaderBytes ∧ header.2.length ≤ maxPartHeaderBytes) ∧
        (lowerBytes header.1 ≠ [] ∧ lowerBytes header.1 ∉ Dict.keys c.headers) ∧
        c' = { c with headers := c.headers ++ [(lowerBytes header.1, header.2)] } := by
  obtain ⟨metadata, files, ended, name, value, headers, partName, fileName, partData, total, keys⟩ := c
  obtain ⟨rfl, rfl⟩ : name = [] ∧ value = [] := hc
  simp only [collectHeader, onHeaderField, onHeaderValue, onHeaderEnd, Fallible.bind_ok,
    Fallible.check_ok, Fallible.pure_ok, exists_and_left, exists_const, List.length_nil,
    Nat.zero_add, List.nil_append]
  constructor
  · rintro ⟨_, ⟨hfield, rfl⟩, _, ⟨hdata, rfl⟩, hnew, rfl⟩
    exact ⟨⟨hfield, by simpa using hdata⟩, hnew, rfl⟩
  · rintro ⟨⟨hfield, hdata⟩, hnew, rfl⟩
    exact ⟨_, ⟨hfield, rfl⟩, _, ⟨by simpa using hdata, rfl⟩, hnew, rfl⟩

/-- Headers between headers. -/
theorem foldlM_collectHeader_ok {headers : List (Bytes × Bytes)} {c c' : Collector}
    (hc : c.BetweenHeaders) (h : headers.foldlM collectHeader c = .ok c') :
    c'.BetweenHeaders ∧
      c' = { c with headers := c.headers ++ headers.map fun e => (lowerBytes e.1, e.2) } := by
  induction headers generalizing c with
  | nil =>
    obtain rfl := Except.ok.inj h
    exact ⟨hc, by rw [List.map_nil, List.append_nil]⟩
  | cons header headers ih =>
    rw [List.foldlM_cons, Fallible.bind_ok] at h
    obtain ⟨c₁, hheader, hrest⟩ := h
    obtain ⟨-, -, hc₁⟩ := (collectHeader_ok hc).mp hheader
    have hbetween₁ : c₁.BetweenHeaders := by
      rw [hc₁]
      exact hc
    obtain ⟨hbetween, hc'⟩ := ih hbetween₁ hrest
    refine ⟨hbetween, ?_⟩
    rw [hc', hc₁, List.map_cons, List.append_assoc, List.singleton_append]

end

/-! ### The headers of a part -/

section

variable {allowBrowserMetadata : Bool} {c c' : Collector}

omit [Platform] in
/-- What the headers of a part say, and where the part stands. -/
theorem partParameters_ok {name : Bytes} {parameters : List (Bytes × Bytes)}
    (h : partParameters c = .ok (name, parameters)) :
    (∃ value disposition, c.headers.lookup contentDispositionHeader = some value ∧
      mimeParameters value = some (disposition, parameters)) ∧
      parameters.lookup nameParameter = some name ∧
      (name = metadataPart ↔ c.metadata = none ∧ c.files = []) ∧
      (name = metadataPart ∨ name = filePart) := by
  simp only [partParameters, Fallible.bind_ok, Fallible.get_ok, Fallible.check_ok, exists_and_left,
    exists_const, Prod.exists] at h
  obtain ⟨value, hvalue, -, disposition, parameters', hparameters, name', hname, ⟨-, hnames⟩,
    hplace⟩ := h
  have hplaced : (name' = metadataPart ↔ c.metadata = none ∧ c.files = []) ∧
      (name', parameters') = (name, parameters) := by
    split at hplace
    · next hfirst =>
      simp only [Fallible.bind_ok, Fallible.check_ok, Fallible.pure_ok, exists_and_left,
        exists_const] at hplace
      exact ⟨⟨fun _ => hfirst, fun _ => hplace.1.1⟩, hplace.2⟩
    · next hfirst =>
      simp only [Fallible.bind_ok, Fallible.check_ok, Fallible.pure_ok, exists_and_left,
        exists_const] at hplace
      refine ⟨⟨fun hmetadata => ?_, fun h => absurd h hfirst⟩, hplace.2⟩
      have hfile := hplace.1.1
      exact absurd (hfile.symm.trans hmetadata) filePart_ne
  obtain ⟨hfirst, heq⟩ := hplaced
  obtain ⟨rfl, rfl⟩ := Prod.mk.inj heq
  exact ⟨⟨value, disposition, hvalue, hparameters⟩, hname, hfirst, hnames⟩

/-- What is known when the headers of a part are finished. -/
theorem onHeadersFinished_ok (h : onHeadersFinished allowBrowserMetadata c = .ok c') :
    ∃ name parameters, partParameters c = .ok (name, parameters) ∧
      (name = metadataPart ∧ c' = { c with partName := some metadataPart } ∨
        name = filePart ∧ ∃ fileName, partFileName parameters = .ok fileName ∧
          collisionKey fileName ∉ c.collisionKeys ∧
          c' = { c with
            collisionKeys := collisionKey fileName :: c.collisionKeys, fileName := some fileName
            partName := some filePart }) := by
  simp only [onHeadersFinished, Fallible.bind_ok, Prod.exists] at h
  obtain ⟨name, parameters, hparameters, hfinished⟩ := h
  refine ⟨name, parameters, hparameters, ?_⟩
  split at hfinished
  · next hmetadata =>
    simp only [Fallible.bind_ok, Fallible.pure_ok] at hfinished
    obtain ⟨_, -, rfl⟩ := hfinished
    exact .inl ⟨hmetadata, rfl⟩
  · next hmetadata =>
    simp only [beginFile, Fallible.bind_ok, Fallible.check_ok, Fallible.pure_ok, exists_and_left,
      exists_const] at hfinished
    obtain ⟨-, fileName, hfileName, hnew, _, -, rfl⟩ := hfinished
    have hfile := (partParameters_ok hparameters).2.2.2.resolve_left hmetadata
    exact .inr ⟨hfile, fileName, hfileName, hnew, rfl⟩

/-- The part has a name then, and nothing is collected of it. -/
theorem onHeadersFinished_fits (h : onHeadersFinished allowBrowserMetadata c = .ok c')
    (hdata : c.partData = []) (htotal : c.totalFileBytes ≤ maxPageBytes) :
    ∃ name, c'.partName = some name ∧ partRoom c' name 0 := by
  obtain ⟨name, parameters, -, ⟨-, rfl⟩ | ⟨-, fileName, -, -, rfl⟩⟩ := onHeadersFinished_ok h
  · refine ⟨metadataPart, rfl, ?_⟩
    rw [partRoom, if_pos rfl]
    dsimp only
    rw [hdata]
    exact Nat.zero_le _
  · refine ⟨filePart, rfl, ?_⟩
    rw [partRoom, if_neg filePart_ne]
    dsimp only
    rw [hdata]
    exact ⟨Nat.zero_le _, htotal⟩

end

/-! ### One part -/

section

variable {allowBrowserMetadata : Bool} {c c' : Collector} {part : PartSource}

omit [Platform] in
/-- The parameters of a part are read from its headers. -/
theorem parameters_of_lookup {value disposition : Bytes} {parameters : List (Bytes × Bytes)}
    (hvalue : part.lowerHeaders.lookup contentDispositionHeader = some value)
    (hparameters : mimeParameters value = some (disposition, parameters)) :
    part.parameters = some parameters := by
  rw [PartSource.parameters, hvalue, Option.bind_some, hparameters]
  rfl

/-- What a collected part is: the metadata, or the next file. -/
inductive CollectsPart (part : PartSource) (c c' : Collector) : Prop
  | metadata (hname : part.name = some metadataPart) (hfirst : c.metadata = none ∧ c.files = [])
      (hcontent : part.content ≠ []) (hsize : part.content.length ≤ maxFileSetMetadataBytes)
      (heq : c' = { c with
        metadata := some part.content, headerName := [], headerValue := []
        headers := part.lowerHeaders, partName := some metadataPart, fileName := none
        partData := part.content })
  | file (fileName : Text) (hname : part.name = some filePart)
      (hlater : ¬(c.metadata = none ∧ c.files = [])) (hfew : c.files.length < maxFilesPerPage)
      (hfileName : part.fileName = some fileName) (hnew : collisionKey fileName ∉ c.collisionKeys)
      (hsize : part.content.length ≤ maxFileBytes)
      (htotal : c.totalFileBytes + part.content.length ≤ maxPageBytes)
      (heq : c' = { c with
        files := c.files ++ [(fileName, part.content)], headerName := [], headerValue := []
        headers := part.lowerHeaders, partName := some filePart, fileName := some fileName
        partData := part.content, totalFileBytes := c.totalFileBytes + part.content.length
        collisionKeys := collisionKey fileName :: c.collisionKeys })

/-- **A collected part is the metadata or the next file.** -/
theorem collectsPart_of_ok (h : collectPart allowBrowserMetadata c part = .ok c') :
    CollectsPart part c c' := by
  simp only [collectPart, onPartBegin, onPartData, Fallible.bind_ok, Fallible.check_ok,
    Fallible.get_ok, Fallible.pure_ok, exists_and_left, exists_const] at h
  obtain ⟨_, ⟨⟨-, hfew⟩, rfl⟩, c₂, hheaders, c₃, hfinished, c₄, ⟨name, hpartName, hroom, rfl⟩,
    hend⟩ := h
  obtain ⟨-, rfl⟩ := foldlM_collectHeader_ok ⟨rfl, rfl⟩ hheaders
  obtain ⟨name', parameters, hparameters, hplace⟩ := onHeadersFinished_ok hfinished
  obtain ⟨⟨value, disposition, hvalue, hmime⟩, hname, hfirst, -⟩ := partParameters_ok hparameters
  have hpart : part.parameters = some parameters := parameters_of_lookup hvalue hmime
  have hpartNamed : part.name = some name' := by
    rw [PartSource.name, hpart]
    exact hname
  rcases hplace with ⟨rfl, rfl⟩ | ⟨rfl, fileName, hfileName, hnew, rfl⟩
  · obtain rfl := Option.some.inj hpartName
    rw [partRoom, if_pos rfl] at hroom
    rw [onPartEnd, if_pos rfl] at hend
    simp only [Fallible.bind_ok, Fallible.check_ok, Fallible.pure_ok, exists_and_left,
      exists_const] at hend
    obtain ⟨⟨-, hcontent⟩, rfl⟩ := hend
    exact .metadata hpartNamed (hfirst.mp rfl) hcontent (by simpa using hroom) rfl
  · obtain rfl := Option.some.inj hpartName
    rw [partRoom, if_neg filePart_ne] at hroom
    rw [onPartEnd, if_neg fun h => filePart_ne (Option.some.inj h), if_pos rfl] at hend
    simp only [Fallible.bind_ok, Fallible.get_ok, Fallible.pure_ok] at hend
    obtain ⟨_, hkept, rfl⟩ := hend
    obtain rfl := Option.some.inj hkept
    have hpartFile : part.fileName = some fileName := by
      rw [PartSource.fileName, hpart, Option.bind_some, hfileName]
      rfl
    have hlater : ¬(c.metadata = none ∧ c.files = []) :=
      fun h => filePart_ne (hfirst.mpr h)
    exact .file fileName hpartNamed hlater hfew hpartFile hnew (by simpa using hroom.1)
      (by simpa using hroom.2) rfl

/-- The files stay within their total. -/
theorem CollectsPart.total_le (h : CollectsPart part c c') (hc : c.totalFileBytes ≤ maxPageBytes) :
    c'.totalFileBytes ≤ maxPageBytes := by
  cases h with
  | metadata _ _ _ _ heq =>
    rw [heq]
    exact hc
  | file _ _ _ _ _ _ _ htotal heq =>
    rw [heq]
    exact htotal

end

/-! ### Cuts -/

section

variable {allowBrowserMetadata : Bool} {c : Collector}

omit [Platform] [MultipartLibrary] in
/-- Data in pieces, and data at once. -/
theorem foldlM_isCut {mk : Bytes → Callback} {f : Collector → Bytes → Except MultipartError Collector}
    {step : Collector → Callback → Except MultipartError Collector}
    {Fits : Collector → Prop} {room : Collector → ℕ} {push : Collector → Bytes → Collector}
    {e : MultipartError} (hf : Buffering f Fits room push e) (hc : Fits c)
    (hstep : ∀ c data, step c (mk data) = f c data) {data : Bytes} {callbacks : List Callback}
    (hcut : IsCut mk data callbacks) : callbacks.foldlM step c = f c data := by
  obtain ⟨pieces, rfl, rfl⟩ := hcut
  rw [List.foldlM_map]
  simp only [hstep]
  exact hf.run hc pieces

/-- Headers in pieces, and header by header. -/
theorem foldlM_headerCuts {headers : List (Bytes × Bytes)} {callbacks : List Callback}
    (hcuts : HeaderCuts headers callbacks) (hc : c.BetweenHeaders) :
    callbacks.foldlM (callback allowBrowserMetadata) c = headers.foldlM collectHeader c := by
  induction hcuts generalizing c with
  | nil => rfl
  | @cons header headers fields values rest hfields hvalues hrest ih =>
    have hname : c.headerName.length ≤ maxPartHeaderBytes := by
      rw [hc.1]
      exact Nat.zero_le _
    have hfield : fields.foldlM (callback allowBrowserMetadata) c = onHeaderField c header.1 :=
      foldlM_isCut buffering_headerField hname (fun _ _ => rfl) hfields
    rw [List.foldlM_append, hfield, List.foldlM_cons, collectHeader, bind_assoc]
    refine Fallible.bind_congr fun c₁ hc₁ => ?_
    obtain ⟨-, heq⟩ := buffering_headerField.fits_of_ok hname hc₁
    have hvalue : c₁.headerValue.length ≤ maxPartHeaderBytes := by
      rw [heq, hc.2]
      exact Nat.zero_le _
    have hdata : values.foldlM (callback allowBrowserMetadata) c₁ = onHeaderValue c₁ header.2 :=
      foldlM_isCut buffering_headerValue hvalue (fun _ _ => rfl) hvalues
    rw [List.foldlM_append, hdata, bind_assoc]
    refine Fallible.bind_congr fun c₂ _ => ?_
    rw [List.foldlM_cons]
    refine Fallible.bind_congr fun c₃ hc₃ => ih ?_
    -- the end of a header clears its name and value
    simp only [callback, onHeaderEnd, Fallible.bind_ok, Fallible.check_ok, Fallible.pure_ok,
      exists_and_left, exists_const] at hc₃
    obtain ⟨-, rfl⟩ := hc₃
    exact ⟨rfl, rfl⟩

/-- A part in pieces, and a part at once. -/
theorem foldlM_partCuts {part : PartSource} {callbacks : List Callback}
    (hcuts : PartCuts part callbacks) (htotal : c.totalFileBytes ≤ maxPageBytes) :
    callbacks.foldlM (callback allowBrowserMetadata) c = collectPart allowBrowserMetadata c part := by
  obtain ⟨hheaders, hdata⟩ := hcuts
  rw [List.foldlM_cons, collectPart]
  refine Fallible.bind_congr fun c₁ hc₁ => ?_
  simp only [callback, onPartBegin, Fallible.bind_ok, Fallible.check_ok, Fallible.pure_ok,
    exists_and_left, exists_const] at hc₁
  obtain ⟨-, rfl⟩ := hc₁
  rw [List.foldlM_append, foldlM_headerCuts hheaders ⟨rfl, rfl⟩]
  refine Fallible.bind_congr fun c₂ hc₂ => ?_
  obtain ⟨-, rfl⟩ := foldlM_collectHeader_ok ⟨rfl, rfl⟩ hc₂
  rw [List.foldlM_cons]
  refine Fallible.bind_congr fun c₃ hc₃ => ?_
  obtain ⟨name, hname, hroom⟩ := onHeadersFinished_fits hc₃ rfl htotal
  rw [List.foldlM_append, foldlM_isCut (buffering_partData name) ⟨hname, hroom⟩ (fun _ _ => rfl) hdata]
  refine Fallible.bind_congr fun c₄ _ => ?_
  exact bind_pure _

/-- **Callback by callback or part by part, the collector does the same.** -/
theorem foldlM_bodyCuts {parts : List PartSource} {callbacks : List Callback}
    (hcuts : BodyCuts parts callbacks) (htotal : c.totalFileBytes ≤ maxPageBytes) :
    callbacks.foldlM (callback allowBrowserMetadata) c =
      parts.foldlM (collectPart allowBrowserMetadata) c >>= fun c => .ok { c with ended := true } := by
  induction hcuts generalizing c with
  | nil => rfl
  | cons hpart hrest ih =>
    rw [List.foldlM_append, foldlM_partCuts hpart htotal, List.foldlM_cons, bind_assoc]
    refine Fallible.bind_congr fun c₁ hc₁ => ?_
    exact ih ((collectsPart_of_ok hc₁).total_le htotal)

end

/-! ### Bodies that are collected -/

section

variable {allowBrowserMetadata : Bool} {c c' : Collector}

omit [MultipartLibrary] in
/-- Files that an upload may have. -/
structure WithinLimits (files : List (Text × Bytes)) : Prop where
  few : files.length ≤ maxFilesPerPage
  distinct : (files.map fun file => collisionKey file.1).Nodup
  small : ∀ file ∈ files, file.2.length ≤ maxFileBytes
  bounded : (files.map fun file => file.2.length).sum ≤ maxPageBytes

omit [Platform] in
/-- A part of metadata. -/
structure PartSource.IsMetadata (part : PartSource) (metadata : Bytes) : Prop where
  name : part.name = some metadataPart
  content : part.content = metadata
  nonempty : metadata ≠ []
  small : metadata.length ≤ maxFileSetMetadataBytes

/-- The part of a file. -/
structure PartSource.IsFile (part : PartSource) (file : Text × Bytes) : Prop where
  name : part.name = some filePart
  fileName : part.fileName = some file.1
  content : part.content = file.2

/-- The files of the parts are collected. -/
structure CollectedFiles (parts : List PartSource) (c : Collector) : Prop where
  files : List.Forall₂ PartSource.IsFile parts c.files
  limits : WithinLimits c.files
  keys : ∀ key, key ∈ c.collisionKeys ↔ key ∈ c.files.map fun file => collisionKey file.1
  total : c.totalFileBytes = (c.files.map fun file => file.2.length).sum

/-- The parts are collected: the metadata, and then the files. -/
def PartsCollected : List PartSource → Collector → Prop
  | [], c => c.metadata = none ∧ CollectedFiles [] c
  | first :: rest, c =>
    (∃ metadata, c.metadata = some metadata ∧ first.IsMetadata metadata) ∧ CollectedFiles rest c

theorem CollectedFiles.concat {parts : List PartSource} {part : PartSource} {fileName : Text}
    (h : CollectedFiles parts c) (hpart : part.IsFile (fileName, part.content))
    (hfew : c.files.length < maxFilesPerPage) (hnew : collisionKey fileName ∉ c.collisionKeys)
    (hsize : part.content.length ≤ maxFileBytes)
    (htotal : c.totalFileBytes + part.content.length ≤ maxPageBytes)
    (hfiles : c'.files = c.files ++ [(fileName, part.content)])
    (hkeys : c'.collisionKeys = collisionKey fileName :: c.collisionKeys)
    (hsum : c'.totalFileBytes = c.totalFileBytes + part.content.length) :
    CollectedFiles (parts ++ [part]) c' where
  files := by
    rw [hfiles]
    exact List.rel_append h.files (.cons hpart .nil)
  limits := by
    rw [hfiles]
    constructor
    · rw [List.length_append, List.length_singleton]
      exact hfew
    · rw [List.map_append, List.map_singleton, List.nodup_append]
      refine ⟨h.limits.distinct, List.nodup_singleton _, fun key hkey key' hkey' => ?_⟩
      obtain rfl := List.mem_singleton.mp hkey'
      rintro rfl
      exact hnew ((h.keys _).mpr hkey)
    · intro file hfile
      rcases List.mem_append.mp hfile with hfile | hfile
      · exact h.limits.small file hfile
      · rw [List.mem_singleton.mp hfile]
        exact hsize
    · rw [List.map_append, List.sum_append, ← h.total]
      simpa using htotal
  keys key := by
    rw [hkeys, hfiles, List.map_append, List.mem_cons, List.mem_append, ← h.keys, or_comm]
    simp
  total := by
    rw [hsum, hfiles, List.map_append, List.sum_append, ← h.total]
    simp

/-- **One more part.** -/
theorem PartsCollected.concat {parts : List PartSource} {part : PartSource} (h : PartsCollected parts c)
    (hpart : CollectsPart part c c') : PartsCollected (parts ++ [part]) c' := by
  cases hpart with
  | metadata hname hfirst hcontent hsize heq =>
    cases parts with
    | nil =>
      refine ⟨⟨part.content, by rw [heq], ⟨hname, rfl, hcontent, hsize⟩⟩, ?_⟩
      obtain ⟨-, hfiles⟩ := h
      rw [heq]
      exact ⟨hfiles.files, hfiles.limits, hfiles.keys, hfiles.total⟩
    | cons first rest =>
      obtain ⟨⟨metadata, hmetadata, -⟩, -⟩ := h
      rw [hfirst.1] at hmetadata
      cases hmetadata
  | file fileName hname hlater hfew hfileName hnew hsize htotal heq =>
    cases parts with
    | nil =>
      obtain ⟨hnone, hfiles⟩ := h
      refine absurd ⟨hnone, ?_⟩ hlater
      exact List.forall₂_nil_left_iff.mp hfiles.files
    | cons first rest =>
      obtain ⟨⟨metadata, hmetadata, hfirst⟩, hfiles⟩ := h
      refine ⟨⟨metadata, by rw [heq, hmetadata], hfirst⟩, ?_⟩
      exact hfiles.concat ⟨hname, hfileName, rfl⟩ hfew hnew hsize htotal (by rw [heq]) (by rw [heq])
        (by rw [heq])

theorem partsCollected_nil : PartsCollected [] {} := by
  refine ⟨rfl, .nil, ⟨Nat.zero_le _, List.nodup_nil, ?_, Nat.zero_le _⟩, fun key => Iff.rfl, rfl⟩
  exact fun file hfile => absurd hfile List.not_mem_nil

/-- **What a run over the parts has collected.** -/
theorem partsCollected_of_foldlM {parts done : List PartSource} (hc : PartsCollected done c)
    (h : parts.foldlM (collectPart allowBrowserMetadata) c = .ok c') :
    PartsCollected (done ++ parts) c' := by
  induction parts generalizing done c with
  | nil =>
    obtain rfl := Except.ok.inj h
    rwa [List.append_nil]
  | cons part parts ih =>
    rw [List.foldlM_cons, Fallible.bind_ok] at h
    obtain ⟨c₁, hpart, hrest⟩ := h
    have hparts := ih (hc.concat (collectsPart_of_ok hpart)) hrest
    rwa [List.append_assoc, List.singleton_append] at hparts

end

/-! ### Accepted uploads -/

section

variable {allowBrowserMetadata : Bool} {c c' : Collector}

/-- An upload of these parts: the metadata, and then the files. -/
def ParsedFileSetUpload.IsOf (upload : ParsedFileSetUpload) : List PartSource → Prop
  | [] => False
  | first :: rest =>
    first.IsMetadata upload.metadata ∧
      ∃ files, List.Forall₂ PartSource.IsFile rest files ∧ files ≠ [] ∧ WithinLimits files ∧
        buildFileManifest files = .ok upload.manifest

/-- Only its last mark ends a body. -/
theorem callback_ended {mark : Callback} (hmark : mark ≠ .finish)
    (h : callback allowBrowserMetadata c mark = .ok c') : c'.ended = c.ended := by
  cases mark with
  | partBegin =>
    simp only [callback, onPartBegin, Fallible.bind_ok, Fallible.check_ok, Fallible.pure_ok] at h
    obtain ⟨_, -, rfl⟩ := h
    rfl
  | headerField data =>
    simp only [callback, onHeaderField, Fallible.bind_ok, Fallible.check_ok, Fallible.pure_ok] at h
    obtain ⟨_, -, rfl⟩ := h
    rfl
  | headerValue data =>
    simp only [callback, onHeaderValue, Fallible.bind_ok, Fallible.check_ok, Fallible.pure_ok] at h
    obtain ⟨_, -, rfl⟩ := h
    rfl
  | headerEnd =>
    simp only [callback, onHeaderEnd, Fallible.bind_ok, Fallible.check_ok, Fallible.pure_ok] at h
    obtain ⟨_, -, rfl⟩ := h
    rfl
  | headersFinished =>
    obtain ⟨_, _, -, ⟨-, rfl⟩ | ⟨-, _, -, -, rfl⟩⟩ := onHeadersFinished_ok h
    · rfl
    · rfl
  | partData data =>
    simp only [callback, onPartData, Fallible.bind_ok, Fallible.check_ok, Fallible.pure_ok] at h
    obtain ⟨_, -, _, -, rfl⟩ := h
    rfl
  | partEnd =>
    rw [callback, onPartEnd] at h
    split at h
    · simp only [Fallible.bind_ok, Fallible.pure_ok] at h
      obtain ⟨_, -, rfl⟩ := h
      rfl
    · split at h
      · simp only [Fallible.bind_ok, Fallible.pure_ok] at h
        obtain ⟨_, -, rfl⟩ := h
        rfl
      · cases h
  | finish => exact absurd rfl hmark

theorem foldlM_callback_ended {callbacks : List Callback} (hcallbacks : .finish ∉ callbacks)
    (h : callbacks.foldlM (callback allowBrowserMetadata) c = .ok c') : c'.ended = c.ended := by
  induction callbacks generalizing c with
  | nil =>
    obtain rfl := Except.ok.inj h
    rfl
  | cons mark callbacks ih =>
    rw [List.foldlM_cons, Fallible.bind_ok] at h
    obtain ⟨c₁, hmark, hrest⟩ := h
    rw [List.mem_cons, not_or] at hcallbacks
    rw [ih hcallbacks.2 hrest, callback_ended (Ne.symm hcallbacks.1) hmark]

/-- **Chunk by chunk or callback by callback, the stream is read alike.** -/
theorem foldlM_writeChunk_ok {writes : List ParserWrite} {n m : ℕ}
    (hn : n ≤ maxFileSetMultipartBytes) :
    writes.foldlM (writeChunk allowBrowserMetadata) (n, c) = .ok (m, c') ↔
      (∀ write ∈ writes, write.raises = false) ∧
        m = n + (writes.flatMap (·.chunk)).length ∧ m ≤ maxFileSetMultipartBytes ∧
        (writes.flatMap (·.callbacks)).foldlM (callback allowBrowserMetadata) c = .ok c' := by
  induction writes generalizing n c with
  | nil =>
    simp only [List.foldlM_nil, Fallible.pure_ok, Prod.mk.injEq, List.not_mem_nil, IsEmpty.forall_iff,
      implies_true, List.flatMap_nil, List.length_nil, Nat.add_zero, true_and]
    constructor
    · rintro ⟨rfl, rfl⟩
      exact ⟨rfl, hn, rfl⟩
    · rintro ⟨rfl, -, rfl⟩
      exact ⟨rfl, rfl⟩
  | cons write writes ih =>
    rw [List.foldlM_cons, Fallible.bind_ok, List.forall_mem_cons, List.flatMap_cons, List.flatMap_cons,
      List.length_append, List.foldlM_append, Fallible.bind_ok]
    simp only [writeChunk, Fallible.bind_ok, Fallible.check_ok, Fallible.pure_ok, exists_and_left,
      exists_const]
    constructor
    · rintro ⟨_, ⟨htotal, c₁, hcallbacks, hraises, rfl⟩, hrest⟩
      obtain ⟨hall, hm, hle, hrun⟩ := (ih htotal).mp hrest
      exact ⟨⟨hraises, hall⟩, by omega, hle, c₁, hcallbacks, hrun⟩
    · rintro ⟨⟨hraises, hall⟩, hm, hle, c₁, hcallbacks, hrun⟩
      have htotal : n + write.chunk.length ≤ maxFileSetMultipartBytes := by omega
      refine ⟨_, ⟨htotal, c₁, hcallbacks, hraises, rfl⟩, (ih htotal).mpr ⟨hall, ?_, hle, hrun⟩⟩
      omega

/-- **When a stream is accepted.** -/
theorem parseFileSetMultipart_ok {headers : List (Bytes × Bytes)} {writes : List ParserWrite}
    {upload : ParsedFileSetUpload} :
    parseFileSetMultipart headers writes allowBrowserMetadata = .ok upload ↔
      (∀ write ∈ writes, write.raises = false) ∧
        (∃ boundary, uploadBoundary headers = .ok boundary) ∧
        ((writes.flatMap (·.chunk)).length ≤ maxFileSetMultipartBytes ∧
          ∃ length, declaredLength headers = .ok length ∧
            ∀ n ∈ length, (writes.flatMap (·.chunk)).length = n) ∧
        ∃ c, (writes.flatMap (·.callbacks)).foldlM (callback allowBrowserMetadata) {} = .ok c ∧
          c.ended = true ∧ c.metadata = some upload.metadata ∧ c.files ≠ [] ∧
          buildFileManifest c.files = .ok upload.manifest := by
  simp only [parseFileSetMultipart, Fallible.bind_ok, Fallible.mapError_ok, Fallible.check_ok,
    Fallible.get_ok, Fallible.pure_ok, exists_and_left, exists_const, Prod.exists]
  constructor
  · rintro ⟨boundary, hboundary, length, hlength, -, total, c, hrun, hended, metadata, hmetadata,
      hfiles, htotal, manifest, hmanifest, rfl⟩
    obtain ⟨hraises, rfl, hle, hcallbacks⟩ := (foldlM_writeChunk_ok (Nat.zero_le _)).mp hrun
    rw [Nat.zero_add] at htotal hle
    exact ⟨hraises, ⟨boundary, hboundary⟩, ⟨hle, length, hlength, htotal⟩, c, hcallbacks, hended,
      hmetadata, hfiles, hmanifest⟩
  · rintro ⟨hraises, ⟨boundary, hboundary⟩, ⟨hle, length, hlength, htotal⟩, c, hcallbacks, hended,
      hmetadata, hfiles, hmanifest⟩
    have hrun := (foldlM_writeChunk_ok (Nat.zero_le _)).mpr
      ⟨hraises, (Nat.zero_add _).symm, hle, hcallbacks⟩
    refine ⟨boundary, hboundary, length, hlength, fun n hn => ?_, _, c, hrun, hended, _, hmetadata,
      hfiles, htotal, _, hmanifest, rfl⟩
    rw [← htotal n hn]
    exact hle

/-- A broken body is not accepted. -/
theorem not_ok_of_broken {headers : List (Bytes × Bytes)} {writes : List ParserWrite}
    {upload : ParsedFileSetUpload} (hfeeds : MultipartBody.broken.Feeds writes) :
    parseFileSetMultipart headers writes allowBrowserMetadata ≠ .ok upload := by
  intro h
  obtain ⟨hraises, -, -, c, hcallbacks, hended, -⟩ := parseFileSetMultipart_ok.mp h
  rcases hfeeds with ⟨write, hwrite, htrue⟩ | hfinish
  · rw [hraises write hwrite] at htrue
    cases htrue
  · rw [foldlM_callback_ended hfinish hcallbacks] at hended
    cases hended

/-- **A body is accepted however it is cut.** -/
theorem MultipartBody.Feeds.ok_iff {body : MultipartBody} {headers : List (Bytes × Bytes)}
    {writes writes' : List ParserWrite} {upload : ParsedFileSetUpload} (hfeeds : body.Feeds writes)
    (hfeeds' : body.Feeds writes') (hchunks : writes.flatMap (·.chunk) = writes'.flatMap (·.chunk)) :
    parseFileSetMultipart headers writes allowBrowserMetadata = .ok upload ↔
      parseFileSetMultipart headers writes' allowBrowserMetadata = .ok upload := by
  cases body with
  | broken =>
    constructor
    · exact fun h => absurd h (not_ok_of_broken hfeeds)
    · exact fun h => absurd h (not_ok_of_broken hfeeds')
  | complete parts =>
    obtain ⟨hcuts, hraises⟩ := hfeeds
    obtain ⟨hcuts', hraises'⟩ := hfeeds'
    rw [parseFileSetMultipart_ok, parseFileSetMultipart_ok, foldlM_bodyCuts hcuts (Nat.zero_le _),
      foldlM_bodyCuts hcuts' (Nat.zero_le _), hchunks]
    exact and_congr_left fun _ => ⟨fun _ => hraises', fun _ => hraises⟩

/-- **An accepted body is the metadata and then the files, within the limits.** -/
theorem MultipartBody.Feeds.isOf_of_ok {body : MultipartBody} {headers : List (Bytes × Bytes)}
    {writes : List ParserWrite} {upload : ParsedFileSetUpload} (hfeeds : body.Feeds writes)
    (h : parseFileSetMultipart headers writes allowBrowserMetadata = .ok upload) :
    ∃ parts, body = .complete parts ∧ upload.IsOf parts := by
  cases body with
  | broken => exact absurd h (not_ok_of_broken hfeeds)
  | complete parts =>
    refine ⟨parts, rfl, ?_⟩
    obtain ⟨-, -, -, c, hcallbacks, -, hmetadata, hne, hmanifest⟩ := parseFileSetMultipart_ok.mp h
    rw [foldlM_bodyCuts hfeeds.1 (Nat.zero_le _), Fallible.bind_ok] at hcallbacks
    obtain ⟨c₁, hrun, heq⟩ := hcallbacks
    obtain rfl := Except.ok.inj heq
    have hcollected := partsCollected_of_foldlM partsCollected_nil hrun
    rw [List.nil_append] at hcollected
    cases parts with
    | nil =>
      rw [hcollected.1] at hmetadata
      cases hmetadata
    | cons first rest =>
      obtain ⟨⟨metadata, hfirst, hpart⟩, hfiles⟩ := hcollected
      obtain rfl := Option.some.inj (hfirst.symm.trans hmetadata)
      exact ⟨hpart, c₁.files, hfiles.files, hne, hfiles.limits, hmanifest⟩

/-- **An upload.**  The collector does the same with every cut of a body; whether an upload is
accepted, and what it is, does not depend on the cut either; and an accepted upload is the metadata
and then the files, within the limits. -/
theorem parseFileSetMultipart_exact (allowBrowserMetadata : Bool) :
    (∀ parts callbacks callbacks', BodyCuts parts callbacks → BodyCuts parts callbacks' →
      callbacks.foldlM (callback allowBrowserMetadata) {} =
        callbacks'.foldlM (callback allowBrowserMetadata) {}) ∧
      ∀ (body : MultipartBody) (headers : List (Bytes × Bytes)) (writes : List ParserWrite),
        body.Feeds writes →
          (∀ writes', body.Feeds writes' →
            writes.flatMap (·.chunk) = writes'.flatMap (·.chunk) →
              (parseFileSetMultipart headers writes allowBrowserMetadata).toOption =
                (parseFileSetMultipart headers writes' allowBrowserMetadata).toOption) ∧
            ∀ upload, parseFileSetMultipart headers writes allowBrowserMetadata = .ok upload →
              ∃ parts, body = .complete parts ∧ upload.IsOf parts := by
  refine ⟨fun parts callbacks callbacks' hcuts hcuts' => ?_, fun body headers writes hfeeds =>
    ⟨fun writes' hfeeds' hchunks => ?_, fun upload h => hfeeds.isOf_of_ok h⟩⟩
  · rw [foldlM_bodyCuts hcuts (Nat.zero_le _), foldlM_bodyCuts hcuts' (Nat.zero_le _)]
  · exact Fallible.toOption_congr fun upload => hfeeds.ok_iff hfeeds' hchunks

end

end

section Sample

attribute [local instance] asciiPlatform

/-- The parameters of a header without semicolons or escapes in its values. -/
@[reducible] def plainLibrary : MultipartLibrary where
  parseOptionsHeader value :=
    match value.splitOn 0x3b with
    | [] => none
    | media :: parameters => some (media, parameters.map fun parameter =>
        match parameter.splitOn 0x3d with
        | [name, value] => (name.dropWhile (· = 0x20), value.filter (· ≠ 0x22))
        | _ => (parameter, []))

attribute [local instance] plainLibrary

def sampleDisposition : Bytes := asciiBytes "Content-Disposition"
def sampleMetadataValue : Bytes := asciiBytes "form-data; name=\"metadata\""
def sampleFileValue : Bytes := asciiBytes "form-data; name=\"file\"; filename=\"content.md\""
def sampleJsonType : Bytes := asciiBytes "application/json"

def sampleMetadata : PartSource where
  headers := [(sampleDisposition, sampleMetadataValue), (asciiBytes "Content-Type", sampleJsonType)]
  content := asciiBytes "\x7b\x7d"

def sampleFile : PartSource where
  headers := [(sampleDisposition, sampleFileValue)]
  content := asciiBytes "hi"

def sampleUploadHeaders : List (Bytes × Bytes) :=
  [(asciiBytes "Content-Type", asciiBytes "multipart/form-data; boundary=x")]

/-- The bytes of the sample up to the content of its file. -/
def sampleFront : Bytes :=
  asciiBytes "--x\r\nContent-Disposition: " ++ sampleMetadataValue ++
    asciiBytes "\r\nContent-Type: application/json\r\n\r\n\x7b\x7d\r\n--x\r\nContent-Disposition: " ++
    sampleFileValue ++ asciiBytes "\r\n\r\nh"

def sampleBack : Bytes := asciiBytes "i\r\n--x--\r\n"

/-- The callbacks before the content of the file. -/
def sampleMarks : List Callback :=
  [.partBegin, .headerField sampleDisposition, .headerValue sampleMetadataValue, .headerEnd,
    .headerField (asciiBytes "Content-Type"), .headerValue sampleJsonType, .headerEnd,
    .headersFinished, .partData sampleMetadata.content, .partEnd,
    .partBegin, .headerField sampleDisposition, .headerValue sampleFileValue, .headerEnd,
    .headersFinished]

/-- The body in one chunk, and cut within the content of the file. -/
def sampleWhole : List ParserWrite :=
  [⟨sampleFront ++ sampleBack, sampleMarks ++ [.partData (asciiBytes "hi"), .partEnd, .finish],
    false⟩]

def sampleCut : List ParserWrite :=
  [⟨sampleFront, sampleMarks ++ [.partData (asciiBytes "h")], false⟩,
    ⟨sampleBack, [.partData [], .partData (asciiBytes "i"), .partEnd, .finish], false⟩]

/-- The sample with its file in pieces. -/
theorem bodyCuts_sample {data : List Callback} (hdata : IsCut .partData sampleFile.content data) :
    BodyCuts [sampleMetadata, sampleFile] (sampleMarks ++ (data ++ [.partEnd, .finish])) := by
  have hone (mk : Bytes → Callback) (content : Bytes) : IsCut mk content [mk content] :=
    ⟨[content], List.append_nil content, rfl⟩
  have hmetadata : PartCuts sampleMetadata _ :=
    .intro (.cons (hone .headerField _) (hone .headerValue _)
      (.cons (hone .headerField _) (hone .headerValue _) .nil)) (hone .partData _)
  have hfile : PartCuts sampleFile _ :=
    .intro (.cons (hone .headerField _) (hone .headerValue _) .nil) hdata
  have hbody := BodyCuts.cons hmetadata (.cons hfile .nil)
  rw [List.append_assoc] at hbody
  simpa [sampleMarks] using hbody

theorem feeds_sampleWhole : (MultipartBody.complete [sampleMetadata, sampleFile]).Feeds sampleWhole := by
  refine ⟨bodyCuts_sample ⟨[asciiBytes "hi"], rfl, rfl⟩, fun write hwrite => ?_⟩
  rw [List.mem_singleton.mp hwrite]

theorem feeds_sampleCut : (MultipartBody.complete [sampleMetadata, sampleFile]).Feeds sampleCut := by
  refine ⟨bodyCuts_sample ⟨[asciiBytes "h", [], asciiBytes "i"], rfl, rfl⟩, fun write hwrite => ?_⟩
  rcases List.mem_cons.mp hwrite with rfl | hwrite
  · rfl
  · rw [List.mem_singleton.mp hwrite]

theorem parseFileSetMultipart_exact_sample :
    (parseFileSetMultipart sampleUploadHeaders sampleWhole false).toOption =
        (parseFileSetMultipart sampleUploadHeaders sampleCut false).toOption ∧
      ∃ upload, parseFileSetMultipart sampleUploadHeaders sampleWhole false = .ok upload ∧
        upload.metadata = asciiBytes "\x7b\x7d" ∧ upload.IsOf [sampleMetadata, sampleFile] := by
  obtain ⟨-, hbody⟩ := parseFileSetMultipart_exact false
  obtain ⟨hcut, haccepted⟩ := hbody _ sampleUploadHeaders sampleWhole feeds_sampleWhole
  refine ⟨hcut sampleCut feeds_sampleCut (by decide +kernel), ?_⟩
  have hmetadata : (parseFileSetMultipart sampleUploadHeaders sampleWhole false).toOption.map
      (·.metadata) = some (asciiBytes "\x7b\x7d") := by
    decide +kernel
  cases hparse : parseFileSetMultipart sampleUploadHeaders sampleWhole false with
  | error e =>
    rw [hparse] at hmetadata
    cases hmetadata
  | ok upload =>
    rw [hparse] at hmetadata
    obtain ⟨parts, hparts, hof⟩ := haccepted upload hparse
    obtain rfl := MultipartBody.complete.inj hparts
    exact ⟨upload, rfl, Option.some.inj hmetadata, hof⟩

end Sample

end PatchouliLib
