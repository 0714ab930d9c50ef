import PatchouliLib.Content.Repository
import PatchouliLib.Foundation.EventLog

/-!
# The state timeline of a Page

The Page row holds only the current state.  The states before it are read back
from the Revisions and from four tables of events: the rows are merged by their
times, and every row is checked against the state it claims to change.  The last
state must be the stored one.

## Main definitions

* `PageState`, `PageStateTimeline` — a state of a Page and all of its states.
* `HistoryRow`, `historyStep` — one stored change and the check and update it
  stands for.
* `loadPageStateTimeline` — the timeline of a Page.
* `exactState`, `matchActiveEtag` — the state with a time or an ETag.
-/

namespace PatchouliLib

open Foundation

structure PageState where
  updatedAt : ℤ
  revisionId : Text
  revisionNumber : ℕ
  occurredAt : ℤ
  title : Text
  deletedAt : Option ℤ
  sectionId : Id
  bookId : Id
deriving DecidableEq

/-- The state that a Page row holds. -/
def Page.state (p : Page) : PageState :=
  ⟨p.updatedAt, p.currentRevisionId, p.currentRevisionNumber, p.occurredAt, p.title, p.deletedAt,
    p.sectionId, p.bookId⟩

structure PageStateTimeline where
  page : PageKey
  pageId : Text
  states : List PageState
deriving DecidableEq

/-! ### The stored changes -/

inductive HistoryKind where
  | revision
  | correction
  | lifecycle
  | title
  | move
deriving DecidableEq

/-- One row of the five tables. -/
inductive HistoryRow where
  | revision (row : Revision)
  | correction (row : PageOccurrenceCorrection)
  | lifecycle (row : PageLifecycleEvent)
  | title (row : PageTitleEvent)
  | move (row : PageMoveEvent)
deriving DecidableEq

namespace HistoryRow

/-- The time of the change. -/
def clock : HistoryRow → ℤ
  | revision row => row.createdAt
  | correction row => row.correctedAt
  | lifecycle row => row.changedAt
  | title row => row.changedAt
  | move row => row.changedAt

def kind : HistoryRow → HistoryKind
  | revision _ => .revision
  | correction _ => .correction
  | lifecycle _ => .lifecycle
  | title _ => .title
  | move _ => .move

end HistoryRow

/-- The sequence numbers reached so far. -/
structure HistorySequences where
  correction : ℕ := 0
  lifecycle : ℕ := 0
  title : ℕ := 0
  move : ℕ := 0
deriving DecidableEq

/-- The variables of the loop over the merged rows. -/
structure HistoryLoop where
  state : PageState
  sequences : HistorySequences := {}
deriving DecidableEq

/-- The row may follow the state. -/
def HistoryRow.Follows (auditsMove : PageMoveEvent → Bool) (loop : HistoryLoop)
    (row : HistoryRow) : Prop :=
  let state := loop.state
  state.updatedAt < row.clock ∧
    match row with
    | .revision r => state.deletedAt = none ∧ r.key.revisionNumber = state.revisionNumber + 1
    | .correction c => c.sequence = loop.sequences.correction + 1 ∧
        c.atRevisionNumber = state.revisionNumber ∧ state.deletedAt = none ∧
        c.oldOccurredAt = state.occurredAt ∧ c.newOccurredAt ≠ state.occurredAt
    | .lifecycle e => e.sequence = loop.sequences.lifecycle + 1 ∧
        e.atRevisionNumber = state.revisionNumber ∧ e.oldUpdatedAt = state.updatedAt ∧
        e.sectionId = state.sectionId ∧ e.oldDeletedAt = state.deletedAt ∧
        e.occurredAtAtEvent = state.occurredAt ∧ (e.action = .delete ↔ state.deletedAt = none)
    | .title e => e.sequence = loop.sequences.title + 1 ∧
        e.atRevisionNumber = state.revisionNumber ∧ e.oldUpdatedAt = state.updatedAt ∧
        state.deletedAt = none ∧ e.oldTitle = state.title ∧ e.newTitle ≠ state.title
    | .move e => e.sequence = loop.sequences.move + 1 ∧
        e.atRevisionNumber = state.revisionNumber ∧ e.oldUpdatedAt = state.updatedAt ∧
        state.deletedAt = none ∧ (e.oldSectionId, e.oldBookId) = (state.sectionId, state.bookId) ∧
        (e.newSectionId, e.newBookId) ≠ (state.sectionId, state.bookId) ∧
        e.atRevisionId = state.revisionId ∧ e.occurredAtAtEvent = state.occurredAt ∧
        auditsMove e = true

instance (auditsMove : PageMoveEvent → Bool) (loop : HistoryLoop) (row : HistoryRow) :
    Decidable (row.Follows auditsMove loop) := by
  unfold HistoryRow.Follows
  cases row <;> infer_instance

/-- The loop variables after the row. -/
def HistoryRow.apply (loop : HistoryLoop) (row : HistoryRow) : HistoryLoop :=
  let state := { loop.state with updatedAt := row.clock }
  match row with
  | .revision r =>
    { loop with state :=
        { state with revisionId := r.key.revisionId, revisionNumber := r.key.revisionNumber } }
  | .correction c =>
    ⟨{ state with occurredAt := c.newOccurredAt }, { loop.sequences with correction := c.sequence }⟩
  | .lifecycle e =>
    ⟨{ state with deletedAt := if e.action = .delete then some e.changedAt else none },
      { loop.sequences with lifecycle := e.sequence }⟩
  | .title e => ⟨{ state with title := e.newTitle }, { loop.sequences with title := e.sequence }⟩
  | .move e =>
    ⟨{ state with sectionId := e.newSectionId, bookId := e.newBookId },
      { loop.sequences with move := e.sequence }⟩

/-- One round of the loop over the merged rows. -/
def historyStep (auditsMove : PageMoveEvent → Bool) (loop : HistoryLoop) (row : HistoryRow) :
    Except Err HistoryLoop :=
  if row.Follows auditsMove loop then .ok (row.apply loop) else .error .pageMembershipHistory

theorem historyStep_ok {auditsMove : PageMoveEvent → Bool} {loop loop' : HistoryLoop}
    {row : HistoryRow} : historyStep auditsMove loop row = .ok loop' ↔
      row.Follows auditsMove loop ∧ row.apply loop = loop' := by
  unfold historyStep
  split
  · next h => simp [h]
  · next h => simp [h]

/-! ### The timeline -/

/-- The stored rows of one Page, each table in its reading order. -/
structure HistoryTablesOf where
  revisions : List Revision
  corrections : List PageOccurrenceCorrection
  lifecycle : List PageLifecycleEvent
  titles : List PageTitleEvent
  moves : List PageMoveEvent

def Store.historyOf (s : Store) (key : PageKey) : HistoryTablesOf where
  revisions := (s.content.revisions.filter (·.key.page = key)).insertionSort
    fun a b => a.key.revisionNumber ≤ b.key.revisionNumber
  corrections := (s.history.occurrenceCorrections.filter (·.page = key)).insertionSort
    fun a b => a.sequence ≤ b.sequence
  lifecycle := (s.history.lifecycleEvents.filter (·.page = key)).insertionSort
    fun a b => a.sequence ≤ b.sequence
  titles := (s.history.titleEvents.filter (·.page = key)).insertionSort
    fun a b => a.sequence ≤ b.sequence
  moves := (s.history.moveEvents.filter (·.page = key)).insertionSort
    fun a b => a.sequence ≤ b.sequence

/-- No change of the Page is half done. -/
def Store.noGuards (s : Store) (key : PageKey) : Bool :=
  !s.history.occurrenceCorrectionGuards.any (·.page = key) &&
    !s.history.lifecycleGuards.any (·.page = key) && !s.history.moveGuards.any (·.page = key)

/-- The state the Page was created in, read off its first Revision, the oldest
value each event table records, and the Page row where a table is empty. -/
def HistoryTablesOf.initialState (h : HistoryTablesOf) (page : Page) (first : Revision) :
    PageState where
  updatedAt := page.createdAt
  revisionId := first.key.revisionId
  revisionNumber := 1
  occurredAt := (h.corrections.head?.map (·.oldOccurredAt)).getD page.occurredAt
  title := (h.titles.head?.map (·.oldTitle)).getD page.title
  deletedAt := none
  sectionId := (h.moves.head?.map (·.oldSectionId)).getD page.sectionId
  bookId := (h.moves.head?.map (·.oldBookId)).getD page.bookId

/-- The changes after the first Revision, merged by their times. -/
def HistoryTablesOf.operations (h : HistoryTablesOf) : List HistoryRow :=
  (h.revisions.tail.map HistoryRow.revision ++ h.corrections.map HistoryRow.correction ++
    h.lifecycle.map HistoryRow.lifecycle ++ h.titles.map HistoryRow.title ++
    h.moves.map HistoryRow.move).insertionSort fun a b => a.clock ≤ b.clock

/-- Validate every mutation and final state, never mere path membership. -/
def loadPageStateTimeline (key : PageKey) (s : Store) : Except Err PageStateTimeline := do
  let page ← Fallible.get (s.page? key) .pageMembershipHistory
  let h := s.historyOf key
  let first ← Fallible.get h.revisions.head? .pageMembershipHistory
  Fallible.check (first.key.revisionNumber = 1 ∧ first.createdAt = page.createdAt)
    .pageMembershipHistory
  Fallible.check (s.noGuards key = true) .pageMembershipHistory
  let loops ← replay (historyStep fun e => s.auditsMove e.audit key page.pageId e.changedAt)
    { state := h.initialState page first } h.operations
  let states := loops.map (·.state)
  Fallible.check (states.getLast? = some page.state) .pageMembershipHistory
  Fallible.check (∀ state ∈ states, s.hasBook key.libraryId state.sectionId state.bookId)
    .pageMembershipHistory
  pure ⟨key, page.pageId, states⟩

/-- The only element of a list. -/
def exactlyOne {α : Type} : List α → Except Err α
  | [a] => .ok a
  | _ => .error .pageMembershipHistory

/-- The state with this time. -/
def PageStateTimeline.exactState (t : PageStateTimeline) (updatedAt : ℤ) : Except Err PageState :=
  exactlyOne (t.states.filter (·.updatedAt = updatedAt))

/-- The ETag of a state. -/
def PageState.etag [Platform] (state : PageState) (pageUid : Bytes) : Except Err Text :=
  pageCurrentEtag pageUid state.revisionId state.revisionNumber state.occurredAt state.updatedAt

/-- The active state of this Revision and membership with this ETag.  The ETag of every
such state is computed, and one that cannot be fails the call. -/
def PageStateTimeline.matchActiveEtag [Platform] (t : PageStateTimeline) (revisionId : Text)
    (revisionNumber : ℕ) (etag : Text) (sectionId : Id) (bookId : Option Id) :
    Except Err PageState := do
  let claimed := t.states.filter fun state =>
    state.deletedAt = none ∧ state.revisionId = revisionId ∧
      state.revisionNumber = revisionNumber ∧ state.sectionId = sectionId ∧
      ∀ b ∈ bookId, state.bookId = b
  let tagged ← claimed.mapM fun state => do
    let current ← state.etag t.page.pageUid
    pure (state, current)
  exactlyOne ((tagged.filter fun pair => pair.2 = etag).map (·.1))

end PatchouliLib
