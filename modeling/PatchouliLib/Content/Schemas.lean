import PatchouliLib.Identifiers.RevisionIds

/-!
# Stored responses

A successful write under an idempotency key keeps its response.  The response
body is stored as the JSON text of one of the models below; the text determines
the model, so the stored column holds the model itself and a body of another
model does not parse.

## Main definitions

* `ResponseBody` — the bodies of the seven routes.
* `OriginalResponse` — what is kept of a response.
* `ArchiveSourceInput` — the provenance of a written Revision.
-/

namespace PatchouliLib

open Foundation

/-- An opaque identifier. -/
abbrev Id := Text

/-- Required provenance stored verbatim without identity or dedup semantics. -/
structure ArchiveSourceInput where
  kind : Text
  locator : Option Text
  capturedAt : Option ℤ
deriving DecidableEq

/-! ### Bodies -/

structure ArchivePageView where
  sectionId : Id
  bookId : Id
  pageId : Text
  title : Text
  occurredAt : Text
  currentRevisionId : Text
  currentRevisionNumber : ℕ
deriving DecidableEq

structure ArchiveRevisionView where
  pageId : Text
  revisionId : Text
  revisionNumber : ℕ
  createdAt : Text
  contentSha256 : Text
  content : Text
deriving DecidableEq

structure ArchiveCitation where
  sectionId : Id
  pageId : Text
  revisionId : Text
  revisionNumber : ℕ
  href : Text
deriving DecidableEq

/-- The body of an Archive create or append. -/
structure ArchiveResponseBody where
  page : ArchivePageView
  revision : ArchiveRevisionView
  citation : ArchiveCitation
  /-- The declared Page time was supplied by the server, not the caller. -/
  occurrenceNotice : Bool
deriving DecidableEq

/-- The body of an occurrence correction. -/
structure OccurrenceCorrectionResponseBody where
  sectionId : Id
  pageId : Text
  previousOccurredAt : Text
  occurredAt : Text
  currentRevisionId : Text
  currentRevisionNumber : ℕ
  citation : ArchiveCitation
deriving DecidableEq

/-- Which way a Page crosses the trash. -/
inductive LifecycleAction where
  | delete
  | restore
deriving DecidableEq

/-- The state an action leaves the Page in. -/
inductive LifecycleState where
  | trashed
  | active
deriving DecidableEq

def LifecycleAction.state : LifecycleAction → LifecycleState
  | .delete => .trashed
  | .restore => .active

/-- The body of an Archive delete or restore. -/
structure PageLifecycleResponseBody where
  sectionId : Id
  pageId : Text
  state : LifecycleState
  deletedAt : Option Text
  updatedAt : Text
  currentRevisionId : Text
  currentRevisionNumber : ℕ
  citation : ArchiveCitation
deriving DecidableEq

structure FileSummary where
  filename : Text
  sizeBytes : ℕ
  contentSha256 : Text
deriving DecidableEq

/-- The body of a file-set append. -/
structure WriteBody where
  changed : Bool
  sectionId : Id
  pageId : Text
  revisionId : Text
  revisionNumber : ℕ
  snapshotSha256 : Text
  files : List FileSummary
deriving DecidableEq

/-- The body of a file-set create. -/
structure CreateBody where
  sectionId : Id
  bookId : Id
  pageId : Text
  revisionId : Text
  revisionNumber : ℕ
  occurredAt : Text
  occurrenceDefaulted : Bool
  snapshotSha256 : Text
  files : List FileSummary
deriving DecidableEq

/-- The body of a Page move. -/
structure PageMoveBody where
  changed : Bool
  libraryId : Id
  pageId : Text
  sourceSectionId : Id
  sourceBookId : Id
  targetSectionId : Id
  targetBookId : Id
  revisionId : Text
  revisionNumber : ℕ
  occurredAt : Text
  originalUpdatedAt : Text
  updatedAt : Text
  requestEtag : Text
deriving DecidableEq

/-- The body of a Library-level delete or restore. -/
structure LibraryPageLifecycleBody where
  libraryId : Id
  pageId : Text
  sectionId : Id
  bookId : Id
  state : LifecycleState
  deletedAt : Option Text
  revisionId : Text
  revisionNumber : ℕ
  occurredAt : Text
  originalUpdatedAt : Text
  updatedAt : Text
  requestEtag : Text
deriving DecidableEq

/-- The bodies of the idempotent routes. -/
inductive ResponseBody where
  | archive (body : ArchiveResponseBody)
  | occurrence (body : OccurrenceCorrectionResponseBody)
  | lifecycle (body : PageLifecycleResponseBody)
  | write (body : WriteBody)
  | create (body : CreateBody)
  | move (body : PageMoveBody)
  | libraryLifecycle (body : LibraryPageLifecycleBody)
deriving DecidableEq

/-! ### Responses -/

/-- Safe, bounded wire response fields eligible for durable replay. -/
structure OriginalResponse where
  responseStatus : ℕ
  responseBody : ResponseBody
  responseLocation : Option Text
  responseEtag : Text
  originalRequestId : Text
  originalRequestTimestamp : Text
deriving DecidableEq

end PatchouliLib
