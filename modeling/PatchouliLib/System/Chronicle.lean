import PatchouliLib.Content.PageChange
import PatchouliLib.Foundation.Run

/-!
# The chronicle of a Page

The rows of a Page tell its whole history: a log of changes that replays from
the state the Page was created in to the state its row holds.  The log is not
stored anywhere; it is what the five tables, merged by their times, give back.
Every valid change of the Page appends one row to the log, and nothing else
touches it.

## Main definitions

* `Store.rowsOf` — the rows of a Page in the order in which they were written.
* `Recorded` — the rows of a Page hold a log and the log replays to its row.
* `Unmoved s t` — `t` has the Pages and the history of `s`.

## Main results

* `Recorded.timeline` — **the timeline of a recorded Page is the states of its
  log.**
* `Recorded.update`, `Recorded.create` — a valid change of a Page is recorded.
* `Recorded.update_other` — nothing else changes what is recorded.
-/

namespace PatchouliLib

open Foundation

/-! ### The rows of a Page -/

/-- The rows of a Page, each table in the order in which it was written. -/
def Store.rowsOf (s : Store) (key : PageKey) : HistoryTablesOf where
  revisions := s.content.revisions.filter (·.key.page = key)
  corrections := s.history.occurrenceCorrections.filter (·.page = key)
  lifecycle := s.history.lifecycleEvents.filter (·.page = key)
  titles := s.history.titleEvents.filter (·.page = key)
  moves := s.history.moveEvents.filter (·.page = key)

namespace HistoryTablesOf

/-- Each table is in its reading order. -/
structure Sorted (h : HistoryTablesOf) : Prop where
  revisions : h.revisions.Pairwise fun a b => a.key.revisionNumber ≤ b.key.revisionNumber
  corrections : h.corrections.Pairwise fun a b => a.sequence ≤ b.sequence
  lifecycle : h.lifecycle.Pairwise fun a b => a.sequence ≤ b.sequence
  titles : h.titles.Pairwise fun a b => a.sequence ≤ b.sequence
  moves : h.moves.Pairwise fun a b => a.sequence ≤ b.sequence

/-- The tables hold the first Revision and the events of the log. -/
structure Holds (h : HistoryTablesOf) (first : Revision) (log : List HistoryRow) : Prop where
  first : h.revisions.head? = some first
  revisions : h.revisions.tail.map .revision = log.filter (·.kind = .revision)
  corrections : h.corrections.map .correction = log.filter (·.kind = .correction)
  lifecycle : h.lifecycle.map .lifecycle = log.filter (·.kind = .lifecycle)
  titles : h.titles.map .title = log.filter (·.kind = .title)
  moves : h.moves.map .move = log.filter (·.kind = .move)

/-- The tables with one more row. -/
def add (h : HistoryTablesOf) : HistoryRow → HistoryTablesOf
  | .revision r => { h with revisions := h.revisions ++ [r] }
  | .correction c => { h with corrections := h.corrections ++ [c] }
  | .lifecycle e => { h with lifecycle := h.lifecycle ++ [e] }
  | .title e => { h with titles := h.titles ++ [e] }
  | .move e => { h with moves := h.moves ++ [e] }

/-- The rows of the table of the row come before it. -/
def Precede (h : HistoryTablesOf) : HistoryRow → Prop
  | .revision r => ∀ a ∈ h.revisions, a.key.revisionNumber ≤ r.key.revisionNumber
  | .correction c => ∀ a ∈ h.corrections, a.sequence ≤ c.sequence
  | .lifecycle e => ∀ a ∈ h.lifecycle, a.sequence ≤ e.sequence
  | .title e => ∀ a ∈ h.titles, a.sequence ≤ e.sequence
  | .move e => ∀ a ∈ h.moves, a.sequence ≤ e.sequence

variable {h : HistoryTablesOf} {first : Revision} {log : List HistoryRow} {row : HistoryRow}

theorem pairwise_append_last {γ : Type} {r : γ → γ → Prop} {rows : List γ} {a : γ}
    (h : rows.Pairwise r) (ha : ∀ b ∈ rows, r b a) : (rows ++ [a]).Pairwise r := by
  refine List.pairwise_append.mpr ⟨h, List.pairwise_singleton _ _, ?_⟩
  intro b hb c hc
  rw [List.mem_singleton.mp hc]
  exact ha b hb

theorem Sorted.add (hs : h.Sorted) (hrow : h.Precede row) : (h.add row).Sorted := by
  cases row with
  | revision r => exact { hs with revisions := pairwise_append_last hs.revisions hrow }
  | correction c => exact { hs with corrections := pairwise_append_last hs.corrections hrow }
  | lifecycle e => exact { hs with lifecycle := pairwise_append_last hs.lifecycle hrow }
  | title e => exact { hs with titles := pairwise_append_last hs.titles hrow }
  | move e => exact { hs with moves := pairwise_append_last hs.moves hrow }

theorem Holds.add (hh : h.Holds first log) : (h.add row).Holds first (log ++ [row]) := by
  have hne : h.revisions ≠ [] := by
    intro hnil
    have := hh.first
    rw [hnil] at this
    cases this
  obtain ⟨hfirst, hr, hc, hl, ht, hm⟩ := hh
  -- a row of one kind extends the table of that kind only
  cases row with
  | revision r =>
    refine ⟨?_, ?_, ?_, ?_, ?_, ?_⟩ <;>
      simp_all [HistoryTablesOf.add, HistoryRow.kind, List.tail_append_of_ne_nil]
  | correction c =>
    refine ⟨?_, ?_, ?_, ?_, ?_, ?_⟩ <;> simp_all [HistoryTablesOf.add, HistoryRow.kind]
  | lifecycle e =>
    refine ⟨?_, ?_, ?_, ?_, ?_, ?_⟩ <;> simp_all [HistoryTablesOf.add, HistoryRow.kind]
  | title e =>
    refine ⟨?_, ?_, ?_, ?_, ?_, ?_⟩ <;> simp_all [HistoryTablesOf.add, HistoryRow.kind]
  | move e =>
    refine ⟨?_, ?_, ?_, ?_, ?_, ?_⟩ <;> simp_all [HistoryTablesOf.add, HistoryRow.kind]

/-- The tables merged by their times are the log. -/
theorem Holds.operations (hh : h.Holds first log) (hlog : Clocked HistoryRow.clock log) :
    h.operations = log := by
  have hall : ∀ e ∈ log,
      e.kind ∈ [HistoryKind.revision, .correction, .lifecycle, .title, .move] := by
    intro e _
    cases e <;> simp [HistoryRow.kind]
  have hmerge := insertionSort_tables HistoryRow.kind hlog (by decide) hall
  rw [HistoryTablesOf.operations]
  simpa only [List.flatMap_cons, List.flatMap_nil, List.append_nil, ← List.append_assoc,
    ← hh.revisions, ← hh.corrections, ← hh.lifecycle, ← hh.titles, ← hh.moves] using hmerge

end HistoryTablesOf

theorem historyOf_eq {s : Store} {key : PageKey} (h : (s.rowsOf key).Sorted) :
    s.historyOf key = s.rowsOf key := by
  have hr := List.Pairwise.insertionSort_eq h.revisions
  have hc := List.Pairwise.insertionSort_eq h.corrections
  have hl := List.Pairwise.insertionSort_eq h.lifecycle
  have ht := List.Pairwise.insertionSort_eq h.titles
  have hm := List.Pairwise.insertionSort_eq h.moves
  simp only [Store.rowsOf] at hr hc hl ht hm
  simp only [Store.historyOf, Store.rowsOf, hr, hc, hl, ht, hm]

/-! ### What is recorded -/

/-- The rows of the Page hold the log, and the log replays from `init` to the
Page row. -/
structure Recorded (s : Store) (page : Page) (first : Revision) (init : PageState)
    (log : List HistoryRow) (loops : List HistoryLoop) : Prop where
  sorted : (s.rowsOf page.key).Sorted
  holds : (s.rowsOf page.key).Holds first log
  current : ∀ r ∈ (s.rowsOf page.key).revisions, r.key.revisionNumber ≤ page.currentRevisionNumber
  number : first.key.revisionNumber = 1
  createdAt : first.createdAt = page.createdAt
  initTime : init.updatedAt = page.createdAt
  initRevision : init.revisionId = first.key.revisionId ∧ init.revisionNumber = 1
  initActive : init.deletedAt = none
  replay : replay (historyStep (s.moveAudits page)) { state := init } log = .ok loops
  last : loops.getLast? = some ⟨page.state, s.sequences page.key⟩
  books : ∀ loop ∈ loops,
    s.hasBook page.key.libraryId loop.state.sectionId loop.state.bookId = true

/-- No change of any Page is half done. -/
structure Store.GuardsFree (s : Store) : Prop where
  corrections : s.history.occurrenceCorrectionGuards = []
  lifecycle : s.history.lifecycleGuards = []
  moves : s.history.moveGuards = []

theorem Store.GuardsFree.noGuards {s : Store} (h : s.GuardsFree) (key : PageKey) :
    s.noGuards key = true := by
  simp [Store.noGuards, h.corrections, h.lifecycle, h.moves]

/-- The sequence numbers are those of the rows. -/
def HistoryTablesOf.sequences (h : HistoryTablesOf) : HistorySequences where
  correction := lastSequence (h.corrections.map (·.sequence))
  lifecycle := lastSequence (h.lifecycle.map (·.sequence))
  title := lastSequence (h.titles.map (·.sequence))
  move := lastSequence (h.moves.map (·.sequence))

theorem sequences_eq_of_rowsOf {s : Store} {key : PageKey} {h : HistoryTablesOf}
    (hrows : s.rowsOf key = h) : s.sequences key = h.sequences := by
  rw [← hrows]
  rfl

theorem page?_eq_of_mem {s : Store} (hsound : s.PagesSound) {page : Page}
    (h : page ∈ s.content.pages) : s.page? page.key = some page := by
  cases hfound : s.page? page.key with
  | none =>
    have := List.find?_eq_none.mp hfound page h
    simp at this
  | some q =>
    have hkey : q.key = page.key := by simpa using List.find?_some hfound
    rw [hsound.unique q (List.mem_of_find?_eq_some hfound) page h hkey]

theorem mem_of_page? {s : Store} {key : PageKey} {page : Page} (h : s.page? key = some page) :
    page ∈ s.content.pages ∧ page.key = key :=
  ⟨List.mem_of_find?_eq_some h, by simpa using List.find?_some h⟩

/-- Every change advances the clock of the Page. -/
theorem historyStep_clock {audits : PageMoveEvent → Bool} (loop : HistoryLoop) (row : HistoryRow)
    (loop' : HistoryLoop) (h : historyStep audits loop row = .ok loop') :
    loop.state.updatedAt < row.clock ∧ loop'.state.updatedAt = row.clock := by
  obtain ⟨hfollows, rfl⟩ := historyStep_ok.mp h
  refine ⟨hfollows.1, ?_⟩
  cases row <;> rfl

theorem historyStep_advances {audits : PageMoveEvent → Bool} {loop loop' : HistoryLoop}
    {row : HistoryRow} (h : historyStep audits loop row = .ok loop') :
    loop.state.updatedAt < loop'.state.updatedAt := by
  obtain ⟨hlt, heq⟩ := historyStep_clock _ _ _ h
  rwa [heq]

namespace Recorded

variable {s : Store} {page : Page} {first : Revision} {init : PageState} {log : List HistoryRow}
  {loops : List HistoryLoop}

theorem clocked (h : Recorded s page first init log loops) :
    Clocked HistoryRow.clock log ∧ Clocked (·.state.updatedAt) loops ∧
      ∀ row ∈ log, init.updatedAt < row.clock :=
  clocked_of_replay (fun loop : HistoryLoop => loop.state.updatedAt) historyStep_clock h.replay

/-- The first occurrence time is the one the first correction replaced. -/
theorem init_occurredAt (h : Recorded s page first init log loops) :
    (((s.rowsOf page.key).corrections.head?.map (·.oldOccurredAt)).getD page.occurredAt) =
      init.occurredAt := by
  have hinit := initial_eq_of_replay (fun loop : HistoryLoop => loop.state.occurredAt)
    (fun row => row.kind = .correction)
    (fun row => match row with | .correction c => c.oldOccurredAt | _ => 0) ?_ ?_ h.replay
    h.last
  · rw [← h.holds.corrections, List.head?_map, Option.map_map] at hinit
    exact hinit
  · intro loop row loop' hstep hkind
    obtain ⟨hfollows, rfl⟩ := historyStep_ok.mp hstep
    cases row <;> simp [HistoryRow.kind] at hkind
    exact hfollows.2.2.2.2.1
  · intro loop row loop' hstep hkind
    obtain ⟨hfollows, rfl⟩ := historyStep_ok.mp hstep
    cases row <;> simp [HistoryRow.kind] at hkind <;> rfl

/-- The first title is the one the first title event replaced. -/
theorem init_title (h : Recorded s page first init log loops) :
    (((s.rowsOf page.key).titles.head?.map (·.oldTitle)).getD page.title) = init.title := by
  have hinit := initial_eq_of_replay (fun loop : HistoryLoop => loop.state.title)
    (fun row => row.kind = .title)
    (fun row => match row with | .title e => e.oldTitle | _ => []) ?_ ?_ h.replay h.last
  · rw [← h.holds.titles, List.head?_map, Option.map_map] at hinit
    exact hinit
  · intro loop row loop' hstep hkind
    obtain ⟨hfollows, rfl⟩ := historyStep_ok.mp hstep
    cases row <;> simp [HistoryRow.kind] at hkind
    exact hfollows.2.2.2.2.2.1
  · intro loop row loop' hstep hkind
    obtain ⟨hfollows, rfl⟩ := historyStep_ok.mp hstep
    cases row <;> simp [HistoryRow.kind] at hkind <;> rfl

/-- The first Section and Book are those the first move left. -/
theorem init_membership (h : Recorded s page first init log loops) :
    (((s.rowsOf page.key).moves.head?.map (·.oldSectionId)).getD page.sectionId) =
        init.sectionId ∧
      (((s.rowsOf page.key).moves.head?.map (·.oldBookId)).getD page.bookId) = init.bookId := by
  have hmembership (field : HistoryLoop → Id) (old : PageMoveEvent → Id)
      (hold : ∀ (loop : HistoryLoop) (e : PageMoveEvent),
        (HistoryRow.move e).Follows (s.moveAudits page) loop → old e = field loop)
      (hsame : ∀ (loop : HistoryLoop) (row : HistoryRow), row.kind ≠ .move →
        field (row.apply loop) = field loop) :
      ((s.rowsOf page.key).moves.head?.map old).getD
        (field ⟨page.state, s.sequences page.key⟩) = field { state := init } := by
    have hinit := initial_eq_of_replay field (fun row => row.kind = .move)
      (fun row => match row with | .move e => old e | _ => []) ?_ ?_ h.replay h.last
    · rw [← h.holds.moves, List.head?_map, Option.map_map] at hinit
      exact hinit
    · intro loop row loop' hstep hkind
      obtain ⟨hfollows, rfl⟩ := historyStep_ok.mp hstep
      cases row <;> simp [HistoryRow.kind] at hkind
      exact hold loop _ hfollows
    · intro loop row loop' hstep hkind
      obtain ⟨hfollows, rfl⟩ := historyStep_ok.mp hstep
      exact hsame loop row (by simpa using hkind)
  refine ⟨hmembership (·.state.sectionId) (·.oldSectionId) ?_ ?_,
    hmembership (·.state.bookId) (·.oldBookId) ?_ ?_⟩
  · exact fun loop e hfollows => congrArg Prod.fst hfollows.2.2.2.2.2.1
  · intro loop row hkind
    cases row <;> first | rfl | exact absurd rfl hkind
  · exact fun loop e hfollows => congrArg Prod.snd hfollows.2.2.2.2.2.1
  · intro loop row hkind
    cases row <;> first | rfl | exact absurd rfl hkind

/-- The state read off the rows is the one the Page was created in. -/
theorem initialState (h : Recorded s page first init log loops) :
    (s.rowsOf page.key).initialState page first = init := by
  obtain ⟨hid, hnumber⟩ := h.initRevision
  obtain ⟨hsection, hbook⟩ := h.init_membership
  unfold HistoryTablesOf.initialState
  rw [h.init_occurredAt, h.init_title, hsection, hbook, ← h.initTime, ← hid, ← hnumber,
    ← h.initActive]

/-- **The timeline of a recorded Page is the states of its log.** -/
theorem timeline (hsound : s.PagesSound) (hguards : s.GuardsFree) (hmem : page ∈ s.content.pages)
    (h : Recorded s page first init log loops) :
    loadPageStateTimeline page.key s = .ok ⟨page.key, page.pageId, loops.map (·.state)⟩ := by
  have hlast : (loops.map (·.state)).getLast? = some page.state := by
    rw [List.getLast?_map, h.last]
    rfl
  have hbooks : ∀ state ∈ loops.map (·.state),
      s.hasBook page.key.libraryId state.sectionId state.bookId = true := by
    intro state hstate
    obtain ⟨loop, hloop, rfl⟩ := List.mem_map.mp hstate
    exact h.books loop hloop
  have hreplay := h.replay
  rw [← h.initialState, ← h.holds.operations h.clocked.1] at hreplay
  simp only [loadPageStateTimeline, page?_eq_of_mem hsound hmem, historyOf_eq h.sorted,
    h.holds.first, Fallible.get, Fallible.ok_bind,
    Fallible.check_of (And.intro h.number h.createdAt), Fallible.check_of (hguards.noGuards _)]
  have hreplay' : Foundation.replay (historyStep fun e => s.auditsMove e.audit page.key page.pageId e.changedAt)
      { state := (s.rowsOf page.key).initialState page first } (s.rowsOf page.key).operations =
      .ok loops := hreplay
  rw [hreplay']
  simp only [Fallible.ok_bind, Fallible.check_of hlast, Fallible.check_of hbooks]
  rfl

/-! ### What changes the record -/

/-- What the record of a Page depends on. -/
theorem congr {t : Store} (h : Recorded s page first init log loops)
    (hrows : t.rowsOf page.key = s.rowsOf page.key)
    (hbooks : ∀ l x b, s.hasBook l x b = true → t.hasBook l x b = true)
    (haudits : ∀ e, s.moveAudits page e = true → t.moveAudits page e = true) :
    Recorded t page first init log loops where
  sorted := hrows ▸ h.sorted
  holds := hrows ▸ h.holds
  current := hrows ▸ h.current
  number := h.number
  createdAt := h.createdAt
  initTime := h.initTime
  initRevision := h.initRevision
  initActive := h.initActive
  replay := by
    refine replay_mono (fun loop row loop' hstep => ?_) h.replay
    obtain ⟨hfollows, happly⟩ := historyStep_ok.mp hstep
    refine historyStep_ok.mpr ⟨?_, happly⟩
    -- only the rows of moves look at the audit rows
    cases row with
    | move e =>
      obtain ⟨h1, h2, h3, h4, h5, h6, h7, h8, h9, haudit⟩ := hfollows
      exact ⟨h1, h2, h3, h4, h5, h6, h7, h8, h9, haudits e haudit⟩
    | _ => exact hfollows
  last := by
    rw [sequences_eq_of_rowsOf hrows]
    exact h.last
  books := fun loop hloop => hbooks _ _ _ (h.books loop hloop)

end Recorded

/-- `t` has the Pages and the history of `s`; Books and audit rows only
accumulate. -/
structure Unmoved (s t : Store) : Prop where
  books : ∀ l x b, s.hasBook l x b = true → t.hasBook l x b = true
  pages : t.content.pages = s.content.pages
  revisions : t.content.revisions = s.content.revisions
  history : t.history = s.history
  masterAudits : s.audit.masterAuditEvents <+: t.audit.masterAuditEvents
  authAudits : s.audit.authAuditEvents <+: t.audit.authAuditEvents

theorem Quiet.unmoved {s t : Store} (h : Quiet s t) : Unmoved s t where
  books l x b hb := by rwa [h.hasBook]
  pages := h.pages
  revisions := h.revisions
  history := h.history
  masterAudits := h.masterAudits
  authAudits := h.authAudits

namespace Unmoved

variable {s t : Store}

theorem moveAudits (h : Unmoved s t) (page : Page) (e : PageMoveEvent)
    (haudit : s.moveAudits page e = true) : t.moveAudits page e = true := by
  unfold Store.moveAudits Store.auditsMove at *
  split at haudit
  · obtain ⟨a, ha, hp⟩ := List.any_eq_true.mp haudit
    exact List.any_eq_true.mpr ⟨a, h.masterAudits.subset ha, hp⟩
  · obtain ⟨a, ha, hp⟩ := List.any_eq_true.mp haudit
    exact List.any_eq_true.mpr ⟨a, h.authAudits.subset ha, hp⟩

theorem rowsOf (h : Unmoved s t) (key : PageKey) : t.rowsOf key = s.rowsOf key := by
  simp only [Store.rowsOf, h.revisions, h.history]

theorem recorded (h : Unmoved s t) {page : Page} {first : Revision} {init : PageState}
    {log : List HistoryRow} {loops : List HistoryLoop}
    (hs : Recorded s page first init log loops) : Recorded t page first init log loops :=
  hs.congr (h.rowsOf _) h.books (h.moveAudits page)

theorem page? (h : Unmoved s t) (key : PageKey) : t.page? key = s.page? key := by
  rw [Store.page?, h.pages, Store.page?]

end Unmoved

/-! ### Valid changes -/

theorem rowsOf_record (s : Store) (row : HistoryRow) :
    (s.record row).rowsOf row.page = (s.rowsOf row.page).add row := by
  cases row <;> simp [Store.record, Store.rowsOf, HistoryTablesOf.add, HistoryRow.page,
    Store.modifyContent, Store.modifyHistory]

theorem rowsOf_record_of_ne {s : Store} {row : HistoryRow} {key : PageKey} (h : row.page ≠ key) :
    (s.record row).rowsOf key = s.rowsOf key := by
  cases row <;> simp_all [Store.record, Store.rowsOf, HistoryRow.page, Store.modifyContent,
    Store.modifyHistory]

/-- The row a change writes does not depend on the Page row it replaces. -/
theorem rowsOf_apply_update (s : Store) (old new : Page) (row : HistoryRow) (key : PageKey) :
    ((PageChange.update old new row).apply s).rowsOf key = (s.record row).rowsOf key := by
  cases row <;> rfl

theorem sequences_apply_update (s : Store) (old new : Page) (row : HistoryRow) (key : PageKey) :
    ((PageChange.update old new row).apply s).sequences key = (s.record row).sequences key := by
  cases row <;> rfl

theorem hasBook_apply_update (s : Store) (old new : Page) (row : HistoryRow) :
    ((PageChange.update old new row).apply s).hasBook = s.hasBook := by
  cases row <;> rfl

theorem moveAudits_apply_update (s : Store) (old new : Page) (row : HistoryRow) :
    ((PageChange.update old new row).apply s).moveAudits = s.moveAudits := by
  cases row <;> rfl

theorem pages_apply_update (s : Store) (old new : Page) (row : HistoryRow) :
    ((PageChange.update old new row).apply s).content.pages =
      s.content.pages.map fun p => if p.key = old.key then new else p := by
  cases row <;> rfl

namespace Recorded

variable {s : Store} {page old new : Page} {row : HistoryRow} {first : Revision}
  {init : PageState} {log : List HistoryRow} {loops : List HistoryLoop}

/-- The stored rows come before a row that may follow. -/
theorem precede (h : Recorded s old first init log loops)
    (hfollows : row.Follows (s.moveAudits old) ⟨old.state, s.sequences old.key⟩) :
    (s.rowsOf old.key).Precede row := by
  have hlast {γ : Type} {page : γ → PageKey} {sequence : γ → ℕ} {rows : List γ} {n : ℕ}
      (hn : n = lastSequenceOf page sequence rows old.key + 1) :
      ∀ a ∈ rows.filter (page · = old.key), sequence a ≤ n := by
    intro a ha
    have hmem : sequence a ∈ (rows.filter (page · = old.key)).map sequence :=
      List.mem_map_of_mem ha
    have := le_lastSequence hmem
    unfold lastSequenceOf at hn
    omega
  cases row with
  | revision r =>
    intro a ha
    have hnumber : r.key.revisionNumber = old.currentRevisionNumber + 1 := hfollows.2.2
    have := h.current a ha
    omega
  | correction c => exact hlast hfollows.2.1
  | lifecycle e => exact hlast hfollows.2.1
  | title e => exact hlast hfollows.2.1
  | move e => exact hlast hfollows.2.1

/-- The number of the current Revision never falls. -/
theorem le_currentRevisionNumber {audits : PageMoveEvent → Bool} {loop : HistoryLoop}
    (hfollows : row.Follows audits loop) :
    loop.state.revisionNumber ≤ (row.apply loop).state.revisionNumber := by
  cases row with
  | revision r =>
    have : r.key.revisionNumber = loop.state.revisionNumber + 1 := hfollows.2.2
    change loop.state.revisionNumber ≤ r.key.revisionNumber
    omega
  | _ => exact le_refl _

/-- **A valid change of the Page is recorded.** -/
theorem update (h : Recorded s old first init log loops)
    (hvalid : PageChange.ValidUpdate old new row s) :
    Recorded ((PageChange.update old new row).apply s) new first init (log ++ [row])
      (loops ++ [⟨new.state, (s.record row).sequences old.key⟩]) := by
  obtain ⟨hfollows, happly⟩ := historyStep_ok.mp hvalid.step
  have hrows : ((PageChange.update old new row).apply s).rowsOf new.key =
      (s.rowsOf old.key).add row := by
    rw [rowsOf_apply_update, hvalid.key, ← hvalid.page, rowsOf_record]
  have hstate : (row.apply ⟨old.state, s.sequences old.key⟩).state = new.state :=
    congrArg HistoryLoop.state happly
  have hle : old.currentRevisionNumber ≤ new.currentRevisionNumber := by
    have := le_currentRevisionNumber hfollows
    rwa [hstate] at this
  refine
    { sorted := hrows ▸ h.sorted.add (h.precede hfollows)
      holds := hrows ▸ h.holds.add
      current := ?_
      number := h.number
      createdAt := h.createdAt.trans hvalid.createdAt.symm
      initTime := h.initTime.trans hvalid.createdAt.symm
      initRevision := h.initRevision
      initActive := h.initActive
      replay := ?_
      last := ?_
      books := ?_ }
  · rw [hrows]
    intro r hr
    cases row with
    | revision r' =>
      rcases List.mem_append.mp hr with hr | hr
      · exact (h.current r hr).trans hle
      · rw [List.mem_singleton.mp hr]
        have : r'.key.revisionNumber = new.currentRevisionNumber :=
          congrArg PageState.revisionNumber hstate
        exact this.le
    | _ => exact (h.current r hr).trans hle
  · have haudits : ((PageChange.update old new row).apply s).moveAudits new = s.moveAudits old := by
      rw [moveAudits_apply_update]
      unfold Store.moveAudits
      rw [hvalid.key, hvalid.pageId]
    rw [haudits]
    exact replay_append h.replay h.last hvalid.step
  · rw [List.getLast?_append, List.getLast?_singleton, sequences_apply_update, hvalid.key]
    rfl
  · rw [hasBook_apply_update, hvalid.key]
    intro loop hloop
    rcases List.mem_append.mp hloop with hloop | hloop
    · exact h.books loop hloop
    · rw [List.mem_singleton.mp hloop]
      exact hvalid.key ▸ hvalid.book

/-- A change of another Page is not recorded here. -/
theorem update_other (h : Recorded s page first init log loops)
    (hvalid : PageChange.ValidUpdate old new row s) (hne : old.key ≠ page.key) :
    Recorded ((PageChange.update old new row).apply s) page first init log loops := by
  refine h.congr ?_ ?_ ?_
  · rw [rowsOf_apply_update, rowsOf_record_of_ne (hvalid.page ▸ hne)]
  · rw [hasBook_apply_update]
    exact fun _ _ _ hb => hb
  · rw [moveAudits_apply_update]
    exact fun _ ha => ha

end Recorded

theorem Store.PagesSound.update {s : Store} {old new : Page} {row : HistoryRow} (h : s.PagesSound)
    (hvalid : PageChange.ValidUpdate old new row s) :
    ((PageChange.update old new row).apply s).PagesSound := by
  have hkeys (p : Page) : (if p.key = old.key then new else p).key = p.key := by
    split
    · next heq => rw [hvalid.key, heq]
    · rfl
  refine ⟨?_, ?_⟩ <;> rw [pages_apply_update]
  · intro p' hp' q' hq' hkey
    obtain ⟨p, hp, rfl⟩ := List.mem_map.mp hp'
    obtain ⟨q, hq, rfl⟩ := List.mem_map.mp hq'
    rw [hkeys, hkeys] at hkey
    rw [h.unique p hp q hq hkey]
  · intro p' hp'
    obtain ⟨p, hp, rfl⟩ := List.mem_map.mp hp'
    split
    · exact hvalid.revisionNumber (h.numbered old hvalid.mem)
    · exact h.numbered p hp

/-! ### A new Page -/

section

variable {s : Store} {page : Page} {revision : Revision}

theorem pages_apply_create :
    ((PageChange.create page revision).apply s).content.pages = s.content.pages ++ [page] := rfl

theorem revisions_apply_create :
    ((PageChange.create page revision).apply s).content.revisions =
      s.content.revisions ++ [revision] := rfl

theorem rowsOf_apply_create_of_ne {key : PageKey} (hne : revision.key.page ≠ key) :
    ((PageChange.create page revision).apply s).rowsOf key = s.rowsOf key := by
  have hfilter : (s.content.revisions ++ [revision]).filter (·.key.page = key) =
      s.content.revisions.filter (·.key.page = key) := by
    rw [List.filter_append, List.filter_cons_of_neg (by simpa using hne), List.filter_nil,
      List.append_nil]
  rw [Store.rowsOf, revisions_apply_create, hfilter]
  rfl

/-- The only row of a new Page is its first Revision. -/
theorem rowsOf_apply_create {key : PageKey} (hkey : revision.key.page = key)
    (hempty : s.rowsOf key = ⟨[], [], [], [], []⟩) :
    ((PageChange.create page revision).apply s).rowsOf key = ⟨[revision], [], [], [], []⟩ := by
  have hr := congrArg HistoryTablesOf.revisions hempty
  have hc := congrArg HistoryTablesOf.corrections hempty
  have hl := congrArg HistoryTablesOf.lifecycle hempty
  have ht := congrArg HistoryTablesOf.titles hempty
  have hm := congrArg HistoryTablesOf.moves hempty
  have hfilter : (s.content.revisions ++ [revision]).filter (·.key.page = key) = [revision] := by
    have hnone : s.content.revisions.filter (·.key.page = key) = [] := hr
    rw [List.filter_append, hnone, List.filter_cons_of_pos (by simpa using hkey), List.filter_nil,
      List.nil_append]
  rw [Store.rowsOf, revisions_apply_create, hfilter]
  exact congr (congr (congr (congrArg (HistoryTablesOf.mk _) hc) hl) ht) hm

theorem Store.PagesSound.create (h : s.PagesSound)
    (hvalid : PageChange.ValidCreate page revision s) :
    ((PageChange.create page revision).apply s).PagesSound := by
  refine ⟨?_, ?_⟩ <;> rw [pages_apply_create]
  · intro p hp q hq hkey
    rcases List.mem_append.mp hp with hp | hp <;> rcases List.mem_append.mp hq with hq | hq
    · exact h.unique p hp q hq hkey
    · rw [List.mem_singleton.mp hq] at hkey
      exact absurd hkey (hvalid.fresh p hp)
    · rw [List.mem_singleton.mp hp] at hkey
      exact absurd hkey.symm (hvalid.fresh q hq)
    · rw [List.mem_singleton.mp hp, List.mem_singleton.mp hq]
  · intro p hp
    rcases List.mem_append.mp hp with hp | hp
    · exact h.numbered p hp
    · rw [List.mem_singleton.mp hp, hvalid.number]
      decide

/-- **A new Page is recorded with an empty log.** -/
theorem Recorded.create (hvalid : PageChange.ValidCreate page revision s)
    (hempty : s.rowsOf page.key = ⟨[], [], [], [], []⟩) :
    Recorded ((PageChange.create page revision).apply s) page revision page.state []
      [⟨page.state, {}⟩] := by
  have hrevision : revision.key.page = page.key := congrArg RevisionKey.page hvalid.key
  have hrows := @rowsOf_apply_create s page revision page.key hrevision hempty
  refine
    { sorted := ?_
      holds := ?_
      current := ?_
      number := ?_
      createdAt := hvalid.createdAt
      initTime := hvalid.updatedAt
      initRevision := ⟨(congrArg RevisionKey.revisionId hvalid.key).symm, hvalid.number⟩
      initActive := hvalid.deletedAt
      replay := rfl
      last := ?_
      books := ?_ }
  · rw [hrows]
    constructor <;> simp
  · rw [hrows]
    constructor <;> rfl
  · rw [hrows]
    intro r hr
    rw [List.mem_singleton.mp hr, hvalid.key]
    exact le_refl _
  · rw [hvalid.key]
    exact hvalid.number
  · rw [sequences_eq_of_rowsOf hrows]
    rfl
  · intro loop hloop
    rw [List.mem_singleton.mp hloop]
    exact hvalid.book

end

/-! ### The chronicle of every Page -/

/-- The state that the row of a Page shows. -/
def Store.pageState? (s : Store) (key : PageKey) : Option PageState := (s.page? key).map Page.state

/-- Every Page is recorded, and its states are those that have been seen. -/
structure Chronicle (s : Store) (seen : PageKey → List PageState) : Prop where
  sound : s.PagesSound
  guards : s.GuardsFree
  recorded : ∀ page ∈ s.content.pages, ∃ first init log loops,
    Recorded s page first init log loops ∧ loops.map (·.state) = seen page.key
  absent : ∀ key, (∀ page ∈ s.content.pages, page.key ≠ key) →
    seen key = [] ∧ s.rowsOf key = ⟨[], [], [], [], []⟩

theorem page?_eq_none {s : Store} {key : PageKey} :
    s.page? key = none ↔ ∀ page ∈ s.content.pages, page.key ≠ key := by
  simp [Store.page?]

namespace Chronicle

variable {s t : Store} {seen : PageKey → List PageState}

theorem getLast? (h : Chronicle s seen) {page : Page} (hmem : page ∈ s.content.pages) :
    (seen page.key).getLast? = some page.state := by
  obtain ⟨first, init, log, loops, hrecorded, hseen⟩ := h.recorded page hmem
  rw [← hseen, List.getLast?_map, hrecorded.last]
  rfl

/-- Looking at the same Pages again shows nothing new. -/
theorem extend_self (h : Chronicle s seen) :
    (fun key => extend (seen key) (s.pageState? key)) = seen := by
  funext key
  cases hpage : s.page? key with
  | none => simp [Store.pageState?, hpage]
  | some page =>
    obtain ⟨hmem, rfl⟩ := mem_of_page? hpage
    simp only [Store.pageState?, hpage, Option.map_some]
    exact extend_same (h.getLast? hmem)

theorem unmoved (h : Chronicle s seen) (hu : Unmoved s t) : Chronicle t seen where
  sound :=
    { unique := fun p hp q hq => by
        rw [hu.pages] at hp hq
        exact h.sound.unique p hp q hq
      numbered := fun p hp => by
        rw [hu.pages] at hp
        exact h.sound.numbered p hp }
  guards := ⟨hu.history ▸ h.guards.corrections, hu.history ▸ h.guards.lifecycle,
    hu.history ▸ h.guards.moves⟩
  recorded page hmem := by
    rw [hu.pages] at hmem
    obtain ⟨first, init, log, loops, hrecorded, hseen⟩ := h.recorded page hmem
    exact ⟨first, init, log, loops, hu.recorded hrecorded, hseen⟩
  absent key hkey := by
    rw [hu.pages] at hkey
    rw [hu.rowsOf]
    exact h.absent key hkey

theorem create {page : Page} {revision : Revision} (h : Chronicle s seen)
    (hvalid : PageChange.ValidCreate page revision s) :
    Chronicle ((PageChange.create page revision).apply s)
      fun key => extend (seen key)
        (((PageChange.create page revision).apply s).pageState? key) := by
  have hrevision : revision.key.page = page.key := congrArg RevisionKey.page hvalid.key
  have hsound := h.sound.create hvalid
  obtain ⟨hunseen, hempty⟩ := h.absent page.key hvalid.fresh
  refine ⟨hsound, ⟨h.guards.corrections, h.guards.lifecycle, h.guards.moves⟩, ?_, ?_⟩
  · intro p hp
    have hshown := page?_eq_of_mem hsound hp
    rw [Store.pageState?, hshown, Option.map_some]
    rcases List.mem_append.mp hp with hp | hp
    · obtain ⟨first, init, log, loops, hrecorded, hseen⟩ := h.recorded p hp
      have hne : revision.key.page ≠ p.key := hrevision ▸ (hvalid.fresh p hp).symm
      refine ⟨first, init, log, loops, hrecorded.congr (rowsOf_apply_create_of_ne hne)
        (fun _ _ _ hb => hb) (fun _ ha => ha), ?_⟩
      rw [extend_same (h.getLast? hp), hseen]
    · obtain rfl := List.mem_singleton.mp hp
      refine ⟨revision, p.state, [], _, .create hvalid hempty, ?_⟩
      rw [hunseen]
      rfl
  · intro key hkey
    have hne : revision.key.page ≠ key :=
      hrevision ▸ hkey page (List.mem_append_right _ List.mem_cons_self)
    rw [rowsOf_apply_create_of_ne hne, Store.pageState?, page?_eq_none.mpr hkey, Option.map_none,
      extend_none]
    exact h.absent key fun p hp => hkey p (List.mem_append_left _ hp)

theorem update {old new : Page} {row : HistoryRow} (h : Chronicle s seen)
    (hvalid : PageChange.ValidUpdate old new row s) :
    Chronicle ((PageChange.update old new row).apply s)
      fun key => extend (seen key)
        (((PageChange.update old new row).apply s).pageState? key) := by
  have hsound := h.sound.update hvalid
  have hmem {p : Page} (hp : p ∈ ((PageChange.update old new row).apply s).content.pages) :
      p = new ∨ p ∈ s.content.pages ∧ p.key ≠ old.key := by
    rw [pages_apply_update] at hp
    obtain ⟨q, hq, rfl⟩ := List.mem_map.mp hp
    split
    · exact .inl rfl
    · next hne => exact .inr ⟨hq, hne⟩
  refine ⟨hsound, ?_, ?_, ?_⟩
  · obtain ⟨hc, hl, hm⟩ := h.guards
    cases row <;> exact ⟨hc, hl, hm⟩
  · intro p hp
    rw [Store.pageState?, page?_eq_of_mem hsound hp, Option.map_some]
    rcases hmem hp with rfl | ⟨hp, hne⟩
    · obtain ⟨first, init, log, loops, hrecorded, hseen⟩ := h.recorded old hvalid.mem
      refine ⟨first, init, _, _, hrecorded.update hvalid, ?_⟩
      have hnew : (seen p.key).getLast? ≠ some p.state := by
        rw [hvalid.key, h.getLast? hvalid.mem]
        intro heq
        have hlt : old.state.updatedAt < p.state.updatedAt := historyStep_advances hvalid.step
        have : old.state.updatedAt = p.state.updatedAt :=
          congrArg PageState.updatedAt (Option.some.inj heq)
        omega
      rw [extend_new hnew, List.map_append, hseen, hvalid.key]
      rfl
    · obtain ⟨first, init, log, loops, hrecorded, hseen⟩ := h.recorded p hp
      exact ⟨first, init, log, loops, hrecorded.update_other hvalid hne.symm,
        by rw [extend_same (h.getLast? hp), hseen]⟩
  · intro key hkey
    have hold : ∀ p ∈ s.content.pages, p.key ≠ key := by
      intro p hp
      have := hkey (if p.key = old.key then new else p)
        (pages_apply_update s old new row ▸ List.mem_map_of_mem hp)
      split at this
      · next heq => rwa [heq, ← hvalid.key]
      · exact this
    rw [rowsOf_apply_update, rowsOf_record_of_ne (hvalid.page ▸ hold old hvalid.mem),
      Store.pageState?, page?_eq_none.mpr hkey, Option.map_none, extend_none]
    exact h.absent key hold

/-- **Every operation that makes at most one valid change keeps the
chronicle.** -/
theorem advances (h : Chronicle s seen) (hst : Advances s t) :
    Chronicle t fun key => extend (seen key) (t.pageState? key) := by
  rcases hst with hquiet | ⟨u, change, hsu, hvalid, hut⟩
  · have ht := h.unmoved hquiet.unmoved
    rw [ht.extend_self]
    exact ht
  · have hu := h.unmoved hsu.unmoved
    have hchanged : Chronicle (change.apply u)
        fun key => extend (seen key) ((change.apply u).pageState? key) := by
      cases change with
      | create page revision => exact hu.create hvalid
      | update old new row => exact hu.update hvalid
    have hshown : (change.apply u).pageState? = t.pageState? := by
      funext key
      rw [Store.pageState?, Store.pageState?, hut.unmoved.page?]
    rw [← hshown]
    exact hchanged.unmoved hut.unmoved

end Chronicle

end PatchouliLib
