import PatchouliLib.Content.Schemas

/-!
# The database

Every table is the list of its rows in insertion order.  The tables are grouped
by the part of the program that writes them, and the search tables stand apart
from the rest, which is the authority they are derived from.

Foreign keys and uniqueness are not part of the types: the statements of
`PatchouliLib.Storage.Statements` check them.

## Main definitions

* `PageKey`, `RevisionKey` — the composite keys of the content tables.
* `Page` — the Page row, and `Page.Checks`, the CHECK constraints it passes.
* `Store`, `SearchTables`, `Db` — the tables.
-/

namespace PatchouliLib

open Foundation

/-! ### Keys -/

/-- `(library_id, page_uid)`. -/
structure PageKey where
  libraryId : Id
  pageUid : Bytes
deriving DecidableEq

/-- `(library_id, page_uid, revision_id, revision_number)`. -/
structure RevisionKey where
  page : PageKey
  revisionId : Text
  revisionNumber : ℕ
deriving DecidableEq

/-! ### Libraries and their callers -/

structure Library where
  id : Id
  name : Text
  createdAt : ℤ
deriving DecidableEq

structure LibrarySection where
  id : Id
  libraryId : Id
  name : Text
deriving DecidableEq

structure Book where
  id : Id
  libraryId : Id
  sectionId : Id
  name : Text
deriving DecidableEq

structure LibraryTables where
  libraries : List Library := []
  sections : List LibrarySection := []
  books : List Book := []

inductive CallerKind where
  | operator
  | agent
deriving DecidableEq

structure Caller where
  id : Id
  libraryId : Id
  kind : CallerKind
  name : Text
  description : Text
  policyVersion : ℕ
  createdAt : ℤ
  updatedAt : ℤ
  disabledAt : Option ℤ
deriving DecidableEq

structure Credential where
  id : Id
  libraryId : Id
  callerId : Id
  selector : Text
  tokenVersion : ℕ
  verifier : Bytes
  expiresAt : Option ℤ
  createdAt : ℤ
  updatedAt : ℤ
  lastUsedAt : Option ℤ
  revokedAt : Option ℤ
  rotatedAt : Option ℤ
  rotatedToCredentialId : Option Id
deriving DecidableEq

/-- The columns that identify a credential wherever it is referred to. -/
structure CredentialKey where
  credentialId : Id
  callerId : Id
  homeLibraryId : Id
deriving DecidableEq

def Credential.key (c : Credential) : CredentialKey := ⟨c.id, c.callerId, c.libraryId⟩

/-- The raw value of an issued agent credential, kept until it is retired. -/
structure AgentTokenValue where
  credentialId : Id
  tokenValue : Text
deriving DecidableEq

inductive SectionAction where
  | query
  | pageRead
  | archiveWrite
deriving DecidableEq

structure SectionGrant where
  libraryId : Id
  callerId : Id
  sectionId : Id
  action : SectionAction
  createdAt : ℤ
deriving DecidableEq

inductive PolicyMode where
  | legacySectionGrants
  | libraryGrants
deriving DecidableEq

inductive AccessMode where
  | include
  | exclude
deriving DecidableEq

structure CredentialLibraryPolicy where
  credentialId : Id
  callerId : Id
  homeLibraryId : Id
  mode : PolicyMode
  readMode : AccessMode
  writeMode : AccessMode
  scopeRevision : ℕ
deriving DecidableEq

def CredentialLibraryPolicy.owner (p : CredentialLibraryPolicy) : CredentialKey :=
  ⟨p.credentialId, p.callerId, p.homeLibraryId⟩

inductive LibraryAction where
  | read
  | write
deriving DecidableEq

structure CredentialLibraryGrant where
  credentialId : Id
  callerId : Id
  homeLibraryId : Id
  targetLibraryId : Id
  action : LibraryAction
deriving DecidableEq

def CredentialLibraryGrant.owner (g : CredentialLibraryGrant) : CredentialKey :=
  ⟨g.credentialId, g.callerId, g.homeLibraryId⟩

/-- The singleton row of the master identity. -/
structure MasterIdentity where
  identityId : Id
  tokenVerifier : Text
  sessionGeneration : ℕ
  createdAt : ℤ
  updatedAt : ℤ
deriving DecidableEq

/-- A short-lived, one-use delegation to issue an ordinary credential. -/
structure OnboardingTicket where
  id : Id
  codeHash : Bytes
  identityId : Id
  sessionGeneration : ℕ
  sessionFingerprint : Bytes
  createdAt : ℤ
  expiresAt : ℤ
  consumedAt : Option ℤ
  credentialId : Option Id
deriving DecidableEq

structure AuthTables where
  callers : List Caller := []
  credentials : List Credential := []
  agentTokenValues : List AgentTokenValue := []
  credentialLibraryPolicies : List CredentialLibraryPolicy := []
  credentialLibraryGrants : List CredentialLibraryGrant := []
  sectionGrants : List SectionGrant := []
  masterIdentity : Option MasterIdentity := none
  onboardingTickets : List OnboardingTicket := []

structure Tag where
  libraryId : Id
  id : Id
  displayName : Text
  matchKey : Text
deriving DecidableEq

structure PageTag where
  page : PageKey
  tagId : Id
deriving DecidableEq

structure TagTables where
  tags : List Tag := []
  pageTags : List PageTag := []

/-! ### Content -/

/-- The Page row. -/
structure Page where
  key : PageKey
  sectionId : Id
  bookId : Id
  pageId : Text
  idTimestampMicros : ℤ
  baseSlug : Text
  collisionOrdinal : ℕ
  title : Text
  pageType : Text
  occurredAt : ℤ
  currentRevisionId : Text
  currentRevisionNumber : ℕ
  createdAt : ℤ
  updatedAt : ℤ
  deletedAt : Option ℤ
deriving DecidableEq

/-- The key of the current Revision. -/
def Page.currentRevision (p : Page) : RevisionKey :=
  ⟨p.key, p.currentRevisionId, p.currentRevisionNumber⟩

/-- The character no stored text contains. -/
def nul : Char := Char.ofNat 0

/-- A title that may be stored. -/
def IsTitle (title : Text) : Prop := title ≠ [] ∧ nul ∉ title

instance (title : Text) : Decidable (IsTitle title) := by
  unfold IsTitle
  infer_instance

/-- The CHECK constraints of the Page row on its mutable columns. -/
structure Page.Checks (p : Page) : Prop where
  title : IsTitle p.title
  occurredAt : InUtcRange p.occurredAt
  created : 0 ≤ p.createdAt ∧ p.createdAt ≤ p.updatedAt
  deleted : ∀ d ∈ p.deletedAt, p.createdAt ≤ d ∧ d ≤ p.updatedAt

instance (p : Page) : Decidable p.Checks :=
  decidable_of_iff (IsTitle p.title ∧ InUtcRange p.occurredAt ∧
      (0 ≤ p.createdAt ∧ p.createdAt ≤ p.updatedAt) ∧
      ∀ d ∈ p.deletedAt, p.createdAt ≤ d ∧ d ≤ p.updatedAt)
    ⟨fun ⟨h1, h2, h3, h4⟩ => ⟨h1, h2, h3, h4⟩, fun h => ⟨h.1, h.2, h.3, h.4⟩⟩

structure Revision where
  key : RevisionKey
  contentMd : Option Bytes
  contentSizeBytes : Option ℕ
  contentSha256 : Option Bytes
  createdAt : ℤ
deriving DecidableEq

inductive StorageFormat where
  | legacyMarkdown
  | fileSetV1
deriving DecidableEq

structure RevisionFileSet where
  key : RevisionKey
  storageFormat : StorageFormat
  fileCount : ℕ
  totalSizeBytes : ℕ
  snapshotSha256 : Option Bytes
deriving DecidableEq

structure RevisionFile where
  key : RevisionKey
  filename : Text
  contentBytes : Bytes
  sizeBytes : ℕ
  contentSha256 : Bytes
deriving DecidableEq

structure RevisionPresentation where
  key : RevisionKey
  primaryFile : Option Text
  displayTitle : Text
deriving DecidableEq

structure PageIdentifier where
  libraryId : Id
  identifierDigest : Bytes
  identifierText : Text
  pageUid : Bytes
  createdAt : ℤ
deriving DecidableEq

structure PageIdCollisionCounter where
  libraryId : Id
  idTimestampMicros : ℤ
  baseSlug : Text
  nextOrdinal : ℕ
deriving DecidableEq

structure PageSource where
  libraryId : Id
  sourceId : Id
  revision : RevisionKey
  source : ArchiveSourceInput
  createdAt : ℤ
deriving DecidableEq

structure ContentTables where
  pages : List Page := []
  revisions : List Revision := []
  revisionFileSets : List RevisionFileSet := []
  revisionFiles : List RevisionFile := []
  revisionFileSeals : List RevisionKey := []
  revisionFileSealGuards : List RevisionKey := []
  revisionPresentations : List RevisionPresentation := []
  pageIdentifierRegistry : List PageIdentifier := []
  pageIdCollisionCounters : List PageIdCollisionCounter := []
  pageSources : List PageSource := []
  pageRevisionAppendGuards : List RevisionKey := []

/-! ### History -/

/-- Who made a change: a caller of a home Library, or the master under an audit
row. -/
inductive Actor where
  | caller (callerId homeLibraryId : Id)
  | master (auditEventId : Id)
deriving DecidableEq

structure PageOccurrenceCorrection where
  page : PageKey
  sequence : ℕ
  oldOccurredAt : ℤ
  newOccurredAt : ℤ
  atRevisionNumber : ℕ
  actor : Actor
  correctedAt : ℤ
deriving DecidableEq

structure PageOccurrenceCorrectionGuard where
  page : PageKey
  sequence : ℕ
  oldOccurredAt : ℤ
  newOccurredAt : ℤ
  actor : Actor
  correctedAt : ℤ
deriving DecidableEq

/-- The columns of `page_lifecycle_events` and of `page_lifecycle_guards`. -/
structure PageLifecycleEvent where
  page : PageKey
  sequence : ℕ
  action : LifecycleAction
  sectionId : Id
  oldDeletedAt : Option ℤ
  oldUpdatedAt : ℤ
  changedAt : ℤ
  atRevisionNumber : ℕ
  occurredAtAtEvent : ℤ
  actor : Actor
  requestId : Text
deriving DecidableEq

structure PageTitleEvent where
  page : PageKey
  sequence : ℕ
  oldTitle : Text
  newTitle : Text
  oldUpdatedAt : ℤ
  changedAt : ℤ
  atRevisionNumber : ℕ
  masterAuditEventId : Id
deriving DecidableEq

/-- The audit row behind a move. -/
inductive MoveAudit where
  | master (auditEventId : Id)
  | caller (auditEventId : Id)
deriving DecidableEq

/-- The columns of `page_move_events` and of `page_move_guards`. -/
structure PageMoveEvent where
  page : PageKey
  sequence : ℕ
  oldSectionId : Id
  oldBookId : Id
  newSectionId : Id
  newBookId : Id
  oldUpdatedAt : ℤ
  changedAt : ℤ
  atRevisionId : Text
  atRevisionNumber : ℕ
  occurredAtAtEvent : ℤ
  audit : MoveAudit
deriving DecidableEq

structure HistoryTables where
  occurrenceCorrections : List PageOccurrenceCorrection := []
  occurrenceCorrectionGuards : List PageOccurrenceCorrectionGuard := []
  lifecycleEvents : List PageLifecycleEvent := []
  lifecycleGuards : List PageLifecycleEvent := []
  titleEvents : List PageTitleEvent := []
  moveEvents : List PageMoveEvent := []
  moveGuards : List PageMoveEvent := []

/-! ### Audits and receipts -/

structure AuditEvent where
  id : Id
  libraryId : Id
  actorHomeLibraryId : Id
  actorCallerId : Id
  actorCredentialId : Id
  sectionId : Option Id
  sectionAction : Option SectionAction
  action : Text
  resourceType : Text
  resourceId : Text
  requestId : Text
  policyVersionBefore : Option ℕ
  policyVersionAfter : Option ℕ
  occurredAt : ℤ
deriving DecidableEq

structure MasterAuditEvent where
  id : Id
  identityId : Id
  sessionGeneration : ℕ
  sessionFingerprint : Bytes
  action : Text
  targetType : Text
  targetId : Text
  occurredAt : ℤ
deriving DecidableEq

structure AuditTables where
  authAuditEvents : List AuditEvent := []
  masterAuditEvents : List MasterAuditEvent := []

/-- The stable caller identity a replay record belongs to. -/
structure TransactionValidatedCaller where
  libraryId : Id
  actorHomeLibraryId : Id
  callerId : Id
deriving DecidableEq

/-- Already-digested request identity. -/
structure IdempotencyRequest where
  method : Text
  routeTemplate : Text
  keyDigest : Bytes
  requestFingerprint : Bytes
deriving DecidableEq

structure IdempotencyRecord where
  caller : TransactionValidatedCaller
  request : IdempotencyRequest
  response : OriginalResponse
deriving DecidableEq

inductive MasterFileSetOperation where
  | create
  | revise
deriving DecidableEq

structure MasterFileSetReceipt where
  identityId : Id
  operation : MasterFileSetOperation
  keyDigest : Bytes
  requestFingerprint : Bytes
  libraryId : Id
  sectionId : Id
  bookId : Id
  pageId : Text
  pageUid : Bytes
  revisionId : Text
  revisionNumber : ℕ
  snapshotSha256 : Bytes
  changed : Bool
  originalOccurredAt : ℤ
  originalPageUpdatedAt : ℤ
  responseEtag : Text
  operationAt : ℤ
  sourceId : Option Id
  masterAuditEventId : Option Id
deriving DecidableEq

structure MasterMoveReceipt where
  identityId : Id
  keyDigest : Bytes
  requestFingerprint : Bytes
  libraryId : Id
  pageUid : Bytes
  pageId : Text
  sourceSectionId : Id
  sourceBookId : Id
  targetSectionId : Id
  targetBookId : Id
  revisionId : Text
  revisionNumber : ℕ
  originalOccurredAt : ℤ
  originalPageUpdatedAt : ℤ
  resultUpdatedAt : ℤ
  requestEtag : Text
  responseEtag : Text
  operationAt : ℤ
  changed : Bool
  moveSequence : Option ℕ
  masterAuditEventId : Option Id
deriving DecidableEq

/-- The answer of a browser save or of a browser restore.  Only a save tells the
Section and the Book, and whether it overwrote a newer Revision. -/
structure WorkspaceSaveResponse where
  libraryId : Id
  membership : Option (Id × Id)
  pageId : Text
  revisionId : Text
  revisionNumber : ℕ
  etag : Text
  changed : Bool
  overwrittenNewerRevision : Option Bool
deriving DecidableEq

structure WorkspaceSaveReceipt where
  identityId : Id
  keyDigest : Bytes
  requestFingerprint : Bytes
  response : WorkspaceSaveResponse
  createdAt : ℤ
deriving DecidableEq

structure ReceiptTables where
  idempotencyRecords : List IdempotencyRecord := []
  masterFileSetReceipts : List MasterFileSetReceipt := []
  masterMoveReceipts : List MasterMoveReceipt := []
  workspaceSaveReceipts : List WorkspaceSaveReceipt := []

/-! ### Search -/

/-- The singleton row of `search_meta`. -/
structure SearchMeta where
  activeGeneration : Option ℕ := none
  ready : Bool := false
  dirtySequence : ℕ := 0
  indexVersion : Text := "search-v2-candidate-schema-1"
deriving DecidableEq

inductive GenerationState where
  | building
  | ready
  | retired
deriving DecidableEq

structure SearchGeneration where
  generation : ℕ
  indexVersion : Text
  state : GenerationState
  createdAt : ℤ
  completedAt : Option ℤ
deriving DecidableEq

structure SearchDirtyPage where
  page : PageKey
  seq : ℕ
deriving DecidableEq

structure SearchPageState where
  generation : ℕ
  page : PageKey
  sectionId : Id
  bookId : Id
  pageId : Text
  revisionId : Text
  revisionNumber : ℕ
  occurredAt : ℤ
  snapshotSha256 : Bytes
  sourceSha256 : Bytes
  documentCount : ℕ
deriving DecidableEq

inductive SourceKind where
  | title
  | fileName
  | fileText
deriving DecidableEq

structure SearchDocument where
  id : ℕ
  generation : ℕ
  page : PageKey
  revisionId : Text
  revisionNumber : ℕ
  documentKey : Text
  sourceKind : SourceKind
  fileName : Option Text
  normalizedText : Text
  sourceSha256 : Bytes
deriving DecidableEq

/-- A row of the full-text table: the tokens of one document. -/
structure SearchTerm where
  rowid : ℕ
  grams : List Text
deriving DecidableEq

structure SearchTables where
  info : SearchMeta := {}
  generations : List SearchGeneration := []
  dirtyPages : List SearchDirtyPage := []
  pageStates : List SearchPageState := []
  documents : List SearchDocument := []
  terms : List SearchTerm := []
  /-- The largest generation and document numbers given out so far. -/
  lastGeneration : ℕ := 0
  lastDocument : ℕ := 0

/-! ### The database -/

/-- The authority: every table but the search tables. -/
structure Store where
  library : LibraryTables := {}
  auth : AuthTables := {}
  tags : TagTables := {}
  content : ContentTables := {}
  history : HistoryTables := {}
  audit : AuditTables := {}
  receipts : ReceiptTables := {}

structure Db where
  store : Store := {}
  search : SearchTables := {}

end PatchouliLib
