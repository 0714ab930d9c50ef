import PatchouliLib.Admin.FileSetService
import PatchouliLib.LibrarySkills.Service

/-!
# Browser saves

Manual browser saves merge explicit edits into the latest immutable snapshot.
They carry no precondition: a save applies to whatever Revision is current.

## Main definitions

* `mergeFiles` — removals, simultaneous renames, then explicit replacements.
* `savePage`, `restoreRevision` — the operations of the browser.
-/

namespace PatchouliLib

open Foundation

variable [Platform]

/-! ### Merging -/

/-- `files[name] = content` of an insertion-ordered dictionary. -/
def setFile (files : List (Text × Bytes)) (name : Text) (content : Bytes) : List (Text × Bytes) :=
  if files.any (·.1 = name) then
    files.map fun file => if file.1 = name then (name, content) else file
  else files ++ [(name, content)]

/-- `del files[name]`. -/
def removeFile (files : List (Text × Bytes)) (name : Text) : List (Text × Bytes) :=
  files.filter (·.1 ≠ name)

/-- The changes of a save, as the browser sent them. -/
structure FileChanges where
  edits : List (Text × Text) := []
  remove : List Text := []
  renames : List (Text × Text) := []

/-- The rules for the names of a Page or for the paths of a package. -/
def normalizeEntryName (package : Bool) (name : Text) : Except Err Text :=
  if package then normalizeSkillPath name else normalizeFileName name

/-- The name is in its normal form. -/
def IsNormalName (package : Bool) (name : Text) : Prop := normalizeEntryName package name = .ok name

instance (package : Bool) (name : Text) : Decidable (IsNormalName package name) := by
  unfold IsNormalName
  infer_instance

section

variable (package : Bool)

/-- Drop the removed names. -/
def removeFiles : List Text → List Text → List (Text × Bytes) →
    Except Err (List (Text × Bytes))
  | _, [], files => .ok files
  | removed, name :: names, files => do
    Fallible.check (IsNormalName package name ∧ name ∉ removed ∧ files.any (·.1 = name) = true)
      (.apiError 409 "file_changed")
    removeFiles (name :: removed) names (removeFile files name)

/-- The renames that name a file, each to a name of its own. -/
def collectMoves (files : List (Text × Bytes)) : List (Text × Text) → List (Text × Text) →
    Except Err (List (Text × Text))
  | moves, [] => .ok moves
  | moves, (old, new) :: renames => do
    Fallible.check (IsNormalName package old ∧ IsNormalName package new)
      (.apiError 422 "invalid_file_name")
    Fallible.check ((∀ m ∈ moves, m.1 ≠ old ∧ m.2 ≠ new) ∧ files.any (·.1 = old) = true)
      (.apiError 409 "file_changed")
    collectMoves files (moves ++ [(old, new)]) renames

/-- All renames at once. -/
def applyMoves (files : List (Text × Bytes)) (moves : List (Text × Text)) : List (Text × Bytes) :=
  let moved := moves.filterMap fun (old, new) => (files.find? (·.1 = old)).map fun f => (new, f.2)
  let kept := files.filter fun f => !moves.any fun m => m.1 = f.1
  moved.foldl (fun files f => setFile files f.1 f.2) kept

/-- Write the edited and the uploaded files. -/
def applyIncoming : List Text → List (Text × Bytes) → List (Text × Bytes) →
    Except Err (List (Text × Bytes))
  | _, [], files => .ok files
  | seen, (name, content) :: incoming, files => do
    Fallible.check (IsNormalName package name ∧ name ∉ seen) (.apiError 422 "duplicate_file_change")
    applyIncoming (name :: seen) incoming (setFile files name content)

end

/-- Apply removals, simultaneous snapshot renames, then explicit replacements. -/
def mergeFiles (current : List (Text × Bytes)) (changes : FileChanges)
    (uploads : List (Text × Bytes)) (package : Bool := false) :
    Except Err (List (Text × Bytes)) := do
  let files ← removeFiles package [] changes.remove current
  let moves ← collectMoves package files [] changes.renames
  Fallible.check (∀ m ∈ moves, files.any (·.1 = m.2) = true → moves.any (·.1 = m.2) = true)
    (.apiError 409 "file_changed")
  applyIncoming package [] ((changes.edits.map fun edit => (edit.1, utf8Encode edit.2)) ++ uploads)
    (applyMoves files moves)

/-! ### Receipts -/

/-- The digest of a browser request; `metadata` is the object as it was sent,
with its keys in order. -/
def workspaceFingerprint (target : Text) (metadata : Json) (uploads : List (Text × Bytes)) :
    Bytes :=
  sha256 (utf8Encode (Json.dumps false (.arr [.str target, metadata,
    .arr (uploads.map fun file => .arr [.str file.1, .str (hex (sha256 file.2))])])))

def findWorkspaceReceipt (identityId : Id) (keyDigest : Bytes) (s : Store) :
    Option WorkspaceSaveReceipt :=
  s.receipts.workspaceSaveReceipts.find? fun r =>
    r.identityId = identityId ∧ r.keyDigest = keyDigest

/-- The answer kept under the key, if there is one. -/
def replayWorkspace (session : MasterAdminSession) (keyDigest digest : Bytes) (s : Store) :
    Except Err (Option WorkspaceSaveResponse) :=
  match findWorkspaceReceipt session.identityId keyDigest s with
  | none => .ok none
  | some row =>
    if row.requestFingerprint = digest then .ok (some row.response)
    else .error (.apiError 409 "operation_key_conflict")

/-- The clock readings of one browser operation: at its start, for its audit row
and for its receipt. -/
structure Readings where
  now : ℤ
  audit : ℤ
  receipt : ℤ

def remember (session : MasterAdminSession) (keyDigest digest : Bytes)
    (response : WorkspaceSaveResponse) (clock operationAt : ℤ) : Write PUnit :=
  insertWorkspaceSaveReceipt
    ⟨session.identityId, keyDigest, digest, response, max clock operationAt⟩

/-- A changed snapshot leaves an audit row. -/
def auditWorkspace (session : MasterAdminSession) (action : Text) (libraryId : Id) (pageId : Text)
    (changed : Bool) (page : Page) (clock : ℤ) (fresh : Fresh) : Write PUnit :=
  if changed then
    addMasterSuccess session fresh.auditId action "page"
      (libraryId ++ ':' :: pageId ++ ':' :: page.currentRevisionId) (max clock page.updatedAt)
  else pure ⟨⟩

/-! ### Saving -/

/-- The request of a browser save. -/
structure SaveRequest where
  libraryId : Option Id := none
  pageId : Option Text := none
  bookId : Option Id := none
  primaryFile : Option Text
  baseEtag : Option Text := none
  changes : FileChanges := {}
  occurredAt : Option Text := none
  metadata : Json
  uploads : List (Text × Bytes) := []

/-- `None` in a formatted string. -/
def formatOptional (value : Option Text) : Text := value.getD "None"

def SaveRequest.fingerprint (request : SaveRequest) : Bytes :=
  workspaceFingerprint ("page:" ++ formatOptional request.libraryId ++ ':' ::
    formatOptional request.pageId ++ ':' :: formatOptional request.bookId) request.metadata
    request.uploads

/-- What a save leaves behind. -/
structure SaveResult where
  page : Page
  changed : Bool
  overwritten : Bool

/-- The save of a new Page into a Book. -/
def saveNewPage (request : SaveRequest) (now : ℤ) (fresh : Fresh) : Write SaveResult := do
  let book ← query fun s => Fallible.get (s.library.books.find? fun b => some b.id = request.bookId)
    (.apiError 404 "book_not_found")
  let files ← attempt (mergeFiles [] request.changes request.uploads)
  let manifest ← attempt (buildFileManifest files)
  let presentation ← attempt (presentationFor manifest request.primaryFile)
  let occurredAt ← attempt (match request.occurredAt with
    | none => pure now
    | some text => do
      let occurrence ← parseOccurrenceTime text
      pure occurrence.utcMicroseconds)
  let page ← createFileSetPage book presentation.displayTitle occurredAt now manifest
    ⟨"admin_web", none, none⟩ request.primaryFile fresh
  pure ⟨page, true, false⟩

/-- The append of a browser operation to the Page it has read. -/
def workspaceAppend (page : Page) (expectedEtag : Text) (files : List (Text × Bytes))
    (primaryFile : Option Text) (restored : Option Presentation) (source : ArchiveSourceInput)
    (now : ℤ) (fresh : Fresh) : FileSetAppend where
  libraryId := page.key.libraryId
  pageId := page.pageId
  expectedEtag := expectedEtag
  files := files
  revisionId := fresh.revisionId
  revisionAt := max now (page.updatedAt + 1)
  source := ⟨page.key.libraryId, fresh.sourceId,
    ⟨page.key, fresh.revisionId, page.currentRevisionNumber + 1⟩, source, now⟩
  primaryFile := primaryFile
  presentationOverride := restored

/-- The active Page of a browser operation. -/
def workspacePage (libraryId : Id) (pageId : Text) (s : Store) : Except Err Page := do
  let page ← Fallible.get (← getPage libraryId pageId s) (.apiError 404 "page_not_found")
  Fallible.check (page.deletedAt = none) (.apiError 404 "page_not_found")
  pure page

/-- The save over the current Revision of a Page. -/
def saveExistingPage (request : SaveRequest) (pageId : Text) (now : ℤ) (fresh : Fresh) :
    Write SaveResult := do
  let page ← query (workspacePage (formatOptional request.libraryId) pageId)
  let etag ← attempt page.etag
  let current ← query (getCurrentFileManifest page)
  let files ← attempt (mergeFiles (current.files.map fun entry => (entry.name, entry.content))
    request.changes request.uploads)
  let result ← appendExistingPage (workspaceAppend page etag files request.primaryFile none
    ⟨"admin_web", none, none⟩ now fresh)
  pure ⟨result.page, result.changed, request.baseEtag.any (· ≠ etag)⟩

/-- The save of a new Page, or over the current Revision. -/
def saveFiles (request : SaveRequest) (now : ℤ) (fresh : Fresh) : Write SaveResult :=
  match request.pageId with
  | none => saveNewPage request now fresh
  | some pageId => saveExistingPage request pageId now fresh

/-- The save that no receipt answers. -/
def savePageFresh (session : MasterAdminSession) (keyDigest : Bytes) (request : SaveRequest)
    (readings : Readings) (fresh : Fresh) : Write WorkspaceSaveResponse := do
  let result ← saveFiles request readings.now fresh
  let page := result.page
  auditWorkspace session "content.page.workspace_save" page.key.libraryId page.pageId
    result.changed page readings.audit fresh
  let etag ← attempt page.etag
  let response : WorkspaceSaveResponse :=
    ⟨page.key.libraryId, some (page.sectionId, page.bookId), page.pageId, page.currentRevisionId,
      page.currentRevisionNumber, etag, result.changed, some result.overwritten⟩
  remember session keyDigest request.fingerprint response readings.receipt page.updatedAt
  pure response

/-- Save a Page; the answer says whether it was kept from an earlier save. -/
def savePage (session : MasterAdminSession) (time : ℤ) (keyDigest : Bytes) (request : SaveRequest)
    (readings : Readings) (fresh : Fresh) : Write (WorkspaceSaveResponse × Bool) := do
  requireMasterSession session time
  let previous ← query (replayWorkspace session keyDigest request.fingerprint)
  match previous with
  | some previous => pure (previous, true)
  | none => do
    let response ← savePageFresh session keyDigest request readings fresh
    pure (response, false)

/-! ### Restoring -/

/-- The request of a browser restore. -/
structure RestoreRequest where
  libraryId : Id
  pageId : Text
  revisionNumber : ℕ
  expectedEtag : Text
  metadata : Json

def RestoreRequest.fingerprint (request : RestoreRequest) : Bytes :=
  workspaceFingerprint ("restore:" ++ request.libraryId ++ ':' :: request.pageId ++ ':' ::
    Nat.toDigits 10 request.revisionNumber) request.metadata []

/-- The restore that no receipt answers. -/
def restoreRevisionFresh (session : MasterAdminSession) (keyDigest : Bytes)
    (request : RestoreRequest) (readings : Readings) (fresh : Fresh) :
    Write WorkspaceSaveResponse := do
  let page ← query (workspacePage request.libraryId request.pageId)
  let revision ← query fun s => Fallible.get (getRevision page.key request.revisionNumber s)
    (.apiError 404 "revision_not_found")
  let sourceId := revision.key.revisionId
  let snapshot ← query (readVerifiedRevisionSnapshot page sourceId)
  let presentation ← query fun s => pure (readPresentation page.key sourceId s)
  let result ← appendExistingPage (workspaceAppend page request.expectedEtag
    (snapshot.manifest.files.map fun entry => (entry.name, entry.content))
    presentation.primaryFile (some presentation) ⟨"revision_restore", some sourceId, none⟩
    readings.now fresh)
  auditWorkspace session "content.page.revision_restore" request.libraryId request.pageId
    result.changed result.page readings.audit fresh
  let response : WorkspaceSaveResponse :=
    ⟨request.libraryId, none, request.pageId, result.page.currentRevisionId,
      result.page.currentRevisionNumber, result.etag, result.changed, none⟩
  remember session keyDigest request.fingerprint response readings.receipt result.page.updatedAt
  pure response

/-- Restore an old Revision of a Page as its current one. -/
def restoreRevision (session : MasterAdminSession) (time : ℤ) (keyDigest : Bytes)
    (request : RestoreRequest) (readings : Readings) (fresh : Fresh) :
    Write (WorkspaceSaveResponse × Bool) := do
  requireMasterSession session time
  let previous ← query (replayWorkspace session keyDigest request.fingerprint)
  match previous with
  | some previous => pure (previous, true)
  | none => do
    let response ← restoreRevisionFresh session keyDigest request readings fresh
    pure (response, false)

end PatchouliLib
