import PatchouliLib.Content.Repository
import PatchouliLib.Foundation.Json
import PatchouliLib.Search.Literal
import PatchouliLib.Search.TextClassification

/-!
# The derived search index

The projection of a live Page is a row of its state and one document for every
searchable field, each with the tokens of its grams.  The triggers of the
content tables mark the Pages whose projection may be stale; the flush before a
commit projects again the Pages that the transaction marked, and a rebuild
projects every live Page into a new generation.

## Main definitions

* `freshProjection` — the projection of a Page as the authority has it now.
* `projectPage`, `erasePage` — replace or remove a stored projection.
* `flushDirtySince`, `rebuildSearchIndex` — the two ways to bring it up to date.
-/

namespace PatchouliLib

open Foundation

variable [Platform]

def gramVersion : Text := "unicode-codepoint-1-2-3-NFC-casefold-NFC-v1"

def indexVersion : Text :=
  "v2:libscope1:pres1:" ++ gramVersion ++ ':' :: textClassificationVersion ++ ":u" ++
    Platform.unidataVersion

/-! ### The fresh projection -/

/-- The rows of the authority that the projection of a Page is read from. -/
structure ProjectionRows where
  page : Page
  displayTitle : Option Text
  snapshot : SnapshotRows

/-- The live row of a Page. -/
def Store.livePage? (s : Store) (key : PageKey) : Option Page :=
  s.content.pages.find? fun p => p.key = key ∧ p.deletedAt = none

/-- The display title stored with a Revision. -/
def Store.displayTitle? (s : Store) (key : RevisionKey) : Option Text :=
  (s.content.revisionPresentations.find? fun r => r.key = key).map (·.displayTitle)

def Store.projectionRows (s : Store) (key : PageKey) : Option ProjectionRows :=
  (s.livePage? key).map fun page =>
    ⟨page, s.displayTitle? page.currentRevision, s.snapshotRows page.currentRevision⟩

/-- One searchable field. -/
structure FieldDocument where
  key : Text
  kind : SourceKind
  fileName : Option Text
  text : Text
  sourceSha256 : Bytes
deriving DecidableEq

/-- The documents of one file. -/
def fileDocuments (source : ManifestFile) (entry : ClassifiedFile) : List FieldDocument :=
  ⟨"file_name:" ++ entry.name, .fileName, some entry.name, entry.name,
      sha256 (utf8Encode entry.name)⟩ ::
    (entry.text.map fun text =>
      (⟨"file_text:" ++ entry.name, .fileText, some entry.name, text, source.contentSha256⟩ :
        FieldDocument)).toList

/-- The document of the title. -/
def titleDocument (title : Text) : FieldDocument :=
  ⟨"title", .title, none, title, sha256 (utf8Encode title)⟩

/-- The documents of a Page. -/
def pageDocuments (title : Text) (manifest : FileManifest) (snapshot : SnapshotRows) :
    Except Err (List FieldDocument) := do
  let storageFormat ← snapshot.storageFormat
  let classified ← classifyPageManifest manifest storageFormat
  Fallible.check (manifest.files.map (·.name) = classified.map (·.name)) .searchIndexProjection
  pure (titleDocument title ::
    (List.zipWith fileDocuments manifest.files classified).flatten)

/-- `_source_digest`. -/
def sourceDigest (page : Page) (manifest : FileManifest) : Bytes :=
  sha256 (utf8Encode "patchouli-search-page-v2" ++ [0] ++ utf8Encode (Json.dumps false (.obj
    [("book_id", .str page.bookId), ("library_id", .str page.key.libraryId),
      ("occurred_at", .num page.occurredAt), ("page_id", .str page.pageId),
      ("revision_id", .str page.currentRevisionId),
      ("revision_number", .num page.currentRevisionNumber),
      ("section_id", .str page.sectionId),
      ("snapshot_sha256", .str (hex manifest.snapshotSha256)), ("title", .str page.title)])))

/-- A document as it is stored, but for its number and its generation. -/
structure IndexedDocument where
  document : FieldDocument
  normalizedText : Text
  grams : List Text
deriving DecidableEq

/-- Normalize a field and list its tokens. -/
def indexDocument (libraryId : Id) (document : FieldDocument) : Except Err IndexedDocument := do
  let normalized ← normalizeLiteral document.text
  let grams ← encodedGrams document.text
  pure ⟨document, normalized, encodedLibraryToken libraryId :: grams⟩

/-- The projection of a live Page.  The title of `page` is the effective one. -/
structure Projection where
  page : Page
  snapshotSha256 : Bytes
  sourceSha256 : Bytes
  documents : List IndexedDocument
deriving DecidableEq

/-- The projection that the rows give. -/
def ProjectionRows.project (rows : ProjectionRows) : Except Err Projection := do
  let row ← rows.page.validateRecord
  let page := { row with title := rows.displayTitle.getD row.title }
  let manifest ← rows.snapshot.manifest
  let documents ← pageDocuments page.title manifest rows.snapshot
  let indexed ← documents.mapM (indexDocument page.key.libraryId)
  pure ⟨page, manifest.snapshotSha256, sourceDigest page manifest, indexed⟩

/-- The projection of a Page as the authority has it now; a Page that is not live
has none. -/
def freshProjection (key : PageKey) (s : Store) : Except Err (Option Projection) :=
  match s.projectionRows key with
  | none => .ok none
  | some rows => do
    let projection ← rows.project
    pure (some projection)

/-! ### The stored projection -/

/-- The row of `search_page_state`. -/
def Projection.stateRow (p : Projection) (generation : ℕ) : SearchPageState where
  generation := generation
  page := p.page.key
  sectionId := p.page.sectionId
  bookId := p.page.bookId
  pageId := p.page.pageId
  revisionId := p.page.currentRevisionId
  revisionNumber := p.page.currentRevisionNumber
  occurredAt := p.page.occurredAt
  snapshotSha256 := p.snapshotSha256
  sourceSha256 := p.sourceSha256
  documentCount := p.documents.length

/-- The row of `search_documents`. -/
def IndexedDocument.row (d : IndexedDocument) (id generation : ℕ) (page : Page) :
    SearchDocument where
  id := id
  generation := generation
  page := page.key
  revisionId := page.currentRevisionId
  revisionNumber := page.currentRevisionNumber
  documentKey := d.document.key
  sourceKind := d.document.kind
  fileName := d.document.fileName
  normalizedText := d.normalizedText
  sourceSha256 := d.document.sourceSha256

def SearchDocument.isOf (d : SearchDocument) (generation : ℕ) (key : PageKey) : Bool :=
  d.generation = generation && d.page = key

def SearchPageState.isOf (r : SearchPageState) (generation : ℕ) (key : PageKey) : Bool :=
  r.generation = generation && r.page = key

/-- Remove the documents that satisfy `p` and their tokens. -/
def SearchTables.eraseDocuments (t : SearchTables) (p : SearchDocument → Bool) : SearchTables :=
  { t with
    terms := t.terms.filter fun term => !t.documents.any fun d => p d && d.id = term.rowid
    documents := t.documents.filter fun d => !p d }

/-- `_erase_page`. -/
def erasePage (generation : ℕ) (key : PageKey) (t : SearchTables) : SearchTables :=
  { t.eraseDocuments (·.isOf generation key) with
    pageStates := t.pageStates.filter fun r => !r.isOf generation key }

/-- Store one document and its tokens. -/
def insertDocument (generation : ℕ) (page : Page) (t : SearchTables) (d : IndexedDocument) :
    SearchTables :=
  let id := t.lastDocument + 1
  { t with
    documents := t.documents ++ [d.row id generation page]
    terms := t.terms ++ [⟨id, d.grams⟩]
    lastDocument := id }

/-- Store a projection. -/
def insertProjection (generation : ℕ) (p : Projection) (t : SearchTables) : SearchTables :=
  p.documents.foldl (insertDocument generation p.page)
    { t with pageStates := t.pageStates ++ [p.stateRow generation] }

/-- Replace one Page's complete projection in a generation. -/
def projectPage (generation : ℕ) (key : PageKey) (s : Store) (t : SearchTables) :
    Except Err SearchTables := do
  let projection ← freshProjection key s
  let erased := erasePage generation key t
  match projection with
  | none => pure erased
  | some p => pure (insertProjection generation p erased)

/-! ### Dirty marks -/

/-- What a trigger of the search index writes for a Page. -/
def SearchTables.mark (t : SearchTables) (key : PageKey) : SearchTables :=
  let seq := t.info.dirtySequence + 1
  { t with
    info := { t.info with dirtySequence := seq }
    dirtyPages := t.dirtyPages.filter (·.page ≠ key) ++ [⟨key, seq⟩] }

def SearchTables.markAll (t : SearchTables) (keys : List PageKey) : SearchTables :=
  keys.foldl .mark t

/-- The active generation of a ready and compatible index. -/
def SearchTables.readyGeneration (t : SearchTables) : Option ℕ :=
  t.info.activeGeneration.filter fun _ => t.info.ready && t.info.indexVersion = indexVersion

/-- Require the active, compatible generation. -/
def requireReadyIndex (t : SearchTables) : Except Err ℕ := do
  let generation ← Fallible.get t.readyGeneration .searchIndexUnavailable
  Fallible.check (∃ g ∈ t.generations, g.generation = generation ∧ g.state = .ready ∧
    g.indexVersion = indexVersion) .searchIndexUnavailable
  pure generation

/-! ### The flush -/

/-- The order of the dirty rows. -/
def dirtyLe (a b : SearchDirtyPage) : Prop := a.seq ≤ b.seq

instance : DecidableRel dirtyLe := fun a b => by
  unfold dirtyLe
  infer_instance

/-- The dirty rows above a mark, in order.  No two rows share a sequence. -/
def SearchTables.dirtySince (t : SearchTables) (start : ℕ) : List SearchDirtyPage :=
  (t.dirtyPages.filter (start < ·.seq)).insertionSort dirtyLe

/-- Project one dirty Page and clear its mark. -/
def flushDirtyPage (generation : ℕ) (s : Store) (t : SearchTables) (row : SearchDirtyPage) :
    Except Err SearchTables := do
  let t ← projectPage generation row.page s t
  Fallible.check (row ∈ t.dirtyPages) .searchIndexProjection
  pure { t with dirtyPages := t.dirtyPages.filter (· ≠ row) }

/-- Reproject only Pages dirtied by this transaction before its commit. -/
def flushDirtySince (start : ℕ) (s : Store) (t : SearchTables) : Except Err SearchTables :=
  if t.info.dirtySequence ≤ start ∨ t.readyGeneration = none then .ok t
  else do
    let generation ← requireReadyIndex t
    (t.dirtySince start).foldlM (flushDirtyPage generation s) t

/-! ### The rebuild -/

/-- The order of Page keys. -/
def pageKeyLe (a b : PageKey) : Prop :=
  utf8Encode a.libraryId < utf8Encode b.libraryId ∨
    a.libraryId = b.libraryId ∧ a.pageUid ≤ b.pageUid

instance : DecidableRel pageKeyLe := fun a b => by
  unfold pageKeyLe
  infer_instance

/-- The keys of the live Pages, in order. -/
def Store.liveKeys (s : Store) : List PageKey :=
  ((s.content.pages.filter (·.deletedAt = none)).map (·.key)).insertionSort pageKeyLe

/-- Start a new generation. -/
def SearchTables.beginGeneration (t : SearchTables) (createdAt : ℤ) : SearchTables :=
  let generation := t.lastGeneration + 1
  { t with
    generations := t.generations ++ [⟨generation, indexVersion, .building, createdAt, none⟩]
    lastGeneration := generation }

/-- Activate a generation; every Page of it is clean. -/
def SearchTables.activate (t : SearchTables) (generation : ℕ) (completedAt : ℤ) : SearchTables :=
  { t with
    generations := t.generations.map fun g =>
      if g.generation = generation ∧ g.state = .building then
        { g with state := .ready, completedAt := some completedAt }
      else g
    info := { t.info with
      activeGeneration := some generation, ready := true, indexVersion := indexVersion }
    dirtyPages := [] }

/-- Remove the rows of a generation that is no longer active. -/
def SearchTables.retire (t : SearchTables) (generation : ℕ) : SearchTables :=
  { t.eraseDocuments (·.generation = generation) with
    pageStates := t.pageStates.filter (·.generation ≠ generation)
    generations := t.generations.map fun g =>
      if g.generation = generation then { g with state := .retired } else g }

/-- The rows of the new generation are complete. -/
def SearchTables.Complete (t : SearchTables) (generation count : ℕ) : Prop :=
  (t.pageStates.filter (·.generation = generation)).length = count ∧
    ∀ d ∈ t.documents, d.generation = generation → ∃ term ∈ t.terms, term.rowid = d.id

instance (t : SearchTables) (generation count : ℕ) : Decidable (t.Complete generation count) := by
  unfold SearchTables.Complete
  infer_instance

/-- Build and activate a complete new generation. -/
def rebuildSearchIndex (createdAt completedAt : ℤ) (s : Store) (t : SearchTables) :
    Except Err SearchTables := do
  let oldGeneration := t.info.activeGeneration
  Fallible.check (0 ≤ createdAt) .validation
  let generation := t.lastGeneration + 1
  let pages := s.liveKeys
  let t ← pages.foldlM (fun t key => projectPage generation key s t) (t.beginGeneration createdAt)
  Fallible.check (t.Complete generation pages.length) .searchIndexProjection
  Fallible.check (createdAt ≤ completedAt) .validation
  let t := t.activate generation completedAt
  match oldGeneration with
  | none => pure t
  | some old => pure (t.retire old)

end PatchouliLib
