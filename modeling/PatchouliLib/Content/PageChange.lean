import PatchouliLib.Content.PageMove
import PatchouliLib.Storage.Frames

/-!
# Changes of a Page

Whatever a write does besides, it changes the history of at most one Page by at
most one step: it creates the Page with its first Revision, or it replaces the
Page row and adds the one history row that says so.

## Main definitions

* `PageChange` — the creation of a Page, or one step of its history.
* `PageChange.apply`, `PageChange.Valid` — what a change writes, and when it may.
* `Advances s t` — `t` follows from `s` by at most one valid change.

## Main results

* `Advances.quiet_left`, `Advances.quiet_right` — whatever leaves the history
  alone may surround a change.
* `historyStep_of_follows` — a row that may follow the stored state is one round
  of the timeline loop.
-/

namespace PatchouliLib

open Foundation

/-! ### Sequence numbers -/

/-- The largest sequence number, or zero. -/
def lastSequence (sequences : List ℕ) : ℕ := sequences.foldl max 0

theorem nextSequence_eq (sequences : List ℕ) : nextSequence sequences = lastSequence sequences + 1 :=
  Nat.add_comm _ _

theorem lastSequence_append (sequences : List ℕ) (n : ℕ) (h : lastSequence sequences ≤ n) :
    lastSequence (sequences ++ [n]) = n := by
  rw [lastSequence, List.foldl_append]
  exact Nat.max_eq_right h

theorem le_lastSequence {sequences : List ℕ} {n : ℕ} (h : n ∈ sequences) :
    n ≤ lastSequence sequences := by
  have hmono : ∀ (l : List ℕ) (m : ℕ), m ≤ l.foldl max m := by
    intro l
    induction l with
    | nil => exact fun m => le_refl m
    | cons a l ih => exact fun m => (le_max_left m a).trans (ih _)
  have hmem : ∀ (l : List ℕ) (m : ℕ), n ∈ l → n ≤ l.foldl max m := by
    intro l
    induction l with
    | nil => exact fun m h => absurd h List.not_mem_nil
    | cons a l ih =>
      intro m h
      rcases List.mem_cons.mp h with rfl | h
      · exact (le_max_right m n).trans (hmono l _)
      · exact ih _ h
  exact hmem sequences 0 h

/-- The last number of the rows of one Page. -/
def lastSequenceOf {γ : Type} (page : γ → PageKey) (sequence : γ → ℕ) (rows : List γ)
    (key : PageKey) : ℕ :=
  lastSequence ((rows.filter (page · = key)).map sequence)

section

variable {γ : Type} (page : γ → PageKey) {sequence : γ → ℕ} {rows : List γ} {row : γ}

/-- A row that comes next moves the last number of its Page to its own. -/
theorem lastSequenceOf_append {key : PageKey} (hpage : page row = key)
    (hseq : sequence row = lastSequenceOf page sequence rows key + 1) :
    lastSequenceOf page sequence (rows ++ [row]) key = sequence row := by
  rw [lastSequenceOf, List.filter_append, List.filter_cons_of_pos (by simpa using hpage),
    List.filter_nil, List.map_append, List.map_singleton]
  exact lastSequence_append _ _ (hseq ▸ Nat.le_succ _)

/-- A row of another Page moves nothing. -/
theorem lastSequenceOf_append_of_ne {key : PageKey} (hpage : page row ≠ key) :
    lastSequenceOf page sequence (rows ++ [row]) key = lastSequenceOf page sequence rows key := by
  rw [lastSequenceOf, List.filter_append, List.filter_cons_of_neg (by simpa using hpage),
    List.filter_nil, List.append_nil, lastSequenceOf]

/-- A row that comes next is found by its number. -/
theorem find?_append_next
    (hseq : sequence row = lastSequenceOf page sequence rows (page row) + 1) :
    (rows ++ [row]).find? (fun a => page a = page row ∧ sequence a = sequence row) = some row := by
  rw [List.find?_append, List.find?_eq_none.mpr]
  · simp
  · intro a ha hfound
    obtain ⟨hkey, hsame⟩ : page a = page row ∧ sequence a = sequence row := by simpa using hfound
    have hmem : sequence a ∈ (rows.filter (page · = page row)).map sequence :=
      List.mem_map_of_mem (List.mem_filter.mpr ⟨ha, by simpa using hkey⟩)
    have := le_lastSequence hmem
    unfold lastSequenceOf at hseq
    omega

end

/-! ### Changes -/

/-- The sequence numbers that the event tables have reached for a Page. -/
def Store.sequences (s : Store) (key : PageKey) : HistorySequences where
  correction := lastSequenceOf (·.page) (·.sequence) s.history.occurrenceCorrections key
  lifecycle := lastSequenceOf (·.page) (·.sequence) s.history.lifecycleEvents key
  title := lastSequenceOf (·.page) (·.sequence) s.history.titleEvents key
  move := lastSequenceOf (·.page) (·.sequence) s.history.moveEvents key

/-- The Page that a history row is about. -/
def HistoryRow.page : HistoryRow → PageKey
  | revision row => row.key.page
  | correction row => row.page
  | lifecycle row => row.page
  | title row => row.page
  | move row => row.page

/-- The audit rows of moves, as the timeline of a Page looks them up. -/
def Store.moveAudits (s : Store) (page : Page) (e : PageMoveEvent) : Bool :=
  s.auditsMove e.audit page.key page.pageId e.changedAt

/-- What every write may rely on about the Page rows. -/
structure Store.PagesSound (s : Store) : Prop where
  unique : ∀ p ∈ s.content.pages, ∀ q ∈ s.content.pages, p.key = q.key → p = q
  numbered : ∀ p ∈ s.content.pages, IsRevisionNumber p.currentRevisionNumber

def Store.replacePage (old new : Page) (s : Store) : Store :=
  s.modifyContent fun t =>
    { t with pages := t.pages.map fun p => if p.key = old.key then new else p }

/-- The authority with one more history row. -/
def Store.record (row : HistoryRow) (s : Store) : Store :=
  match row with
  | .revision r => s.modifyContent fun t => { t with revisions := t.revisions ++ [r] }
  | .correction c => s.modifyHistory fun t =>
      { t with occurrenceCorrections := t.occurrenceCorrections ++ [c] }
  | .lifecycle e => s.modifyHistory fun t => { t with lifecycleEvents := t.lifecycleEvents ++ [e] }
  | .title e => s.modifyHistory fun t => { t with titleEvents := t.titleEvents ++ [e] }
  | .move e => s.modifyHistory fun t => { t with moveEvents := t.moveEvents ++ [e] }

/-- One step of the history of one Page. -/
inductive PageChange where
  | create (page : Page) (revision : Revision)
  | update (old new : Page) (row : HistoryRow)

namespace PageChange

/-- What the change writes. -/
def apply : PageChange → Store → Store
  | create page revision, s => (s.withPage page).withRevision revision
  | update old new row, s => (s.replacePage old new).record row

/-- The first rows of a Page. -/
structure ValidCreate (page : Page) (revision : Revision) (s : Store) : Prop where
  fresh : ∀ q ∈ s.content.pages, q.key ≠ page.key
  revisions : ∀ r ∈ s.content.revisions, r.key.page ≠ page.key
  key : revision.key = page.currentRevision
  number : page.currentRevisionNumber = 1
  createdAt : revision.createdAt = page.createdAt
  updatedAt : page.updatedAt = page.createdAt
  wire : InUtcRange page.updatedAt
  deletedAt : page.deletedAt = none
  checks : page.Checks
  revisionId : IsRevisionId page.currentRevisionId
  pageUid : page.key.pageUid.length = randomIdentifierBytes
  book : s.hasBook page.key.libraryId page.sectionId page.bookId = true

/-- The row may follow the state of the Page, and the new Page row is what the
row makes of the old one. -/
structure ValidUpdate (old new : Page) (row : HistoryRow) (s : Store) : Prop where
  mem : old ∈ s.content.pages
  page : row.page = old.key
  key : new.key = old.key
  pageId : new.pageId = old.pageId
  createdAt : new.createdAt = old.createdAt
  checks : new.Checks
  revisionId : IsRevisionId old.currentRevisionId → IsRevisionId new.currentRevisionId
  revisionNumber : IsRevisionNumber old.currentRevisionNumber →
    IsRevisionNumber new.currentRevisionNumber
  wire : InUtcRange new.updatedAt
  book : s.hasBook new.key.libraryId new.sectionId new.bookId = true
  step : historyStep (s.moveAudits old) ⟨old.state, s.sequences old.key⟩ row =
    .ok ⟨new.state, (s.record row).sequences old.key⟩

/-- The change may be made. -/
def Valid : PageChange → Store → Prop
  | create page revision, s => ValidCreate page revision s
  | update old new row, s => ValidUpdate old new row s

end PageChange

/-- `t` follows from `s` by at most one valid change. -/
def Advances (s t : Store) : Prop :=
  Quiet s t ∨ ∃ u change, Quiet s u ∧ PageChange.Valid change u ∧ Quiet (change.apply u) t

theorem Advances.quiet_left {s t u : Store} (h : Quiet s t) (h' : Advances t u) : Advances s u := by
  rcases h' with h' | ⟨v, change, hv, hvalid, hu⟩
  · exact .inl (h.trans h')
  · exact .inr ⟨v, change, h.trans hv, hvalid, hu⟩

theorem Advances.quiet_right {s t u : Store} (h : Advances s t) (h' : Quiet t u) : Advances s u := by
  rcases h with h | ⟨v, change, hv, hvalid, hu⟩
  · exact .inl (h.trans h')
  · exact .inr ⟨v, change, hv, hvalid, hu.trans h'⟩

theorem Advances.of_create {s t : Store} {page : Page} {revision : Revision}
    (h : PageChange.ValidCreate page revision s)
    (ht : Quiet ((PageChange.create page revision).apply s) t) : Advances s t :=
  .inr ⟨s, .create page revision, Quiet.refl s, h, ht⟩

theorem Advances.of_update {s t : Store} {old new : Page} {row : HistoryRow}
    (h : PageChange.ValidUpdate old new row s)
    (ht : Quiet ((PageChange.update old new row).apply s) t) : Advances s t :=
  .inr ⟨s, .update old new row, Quiet.refl s, h, ht⟩

theorem Quiet.pagesSound {s t : Store} (h : Quiet s t) (hs : s.PagesSound) : t.PagesSound where
  unique p hp q hq := by
    rw [h.pages] at hp hq
    exact hs.unique p hp q hq
  numbered p hp := by
    rw [h.pages] at hp
    exact hs.numbered p hp

/-- At most one valid change on the authority of an open transaction. -/
def AdvancesOn (c c' : Connection) : Prop := c.store.PagesSound → Advances c.store c'.store

namespace AdvancesOn

variable {α β : Type} {x : Write α} {f : α → Write β}

theorem of_quiet (hx : Keeps QuietOn x) : Keeps AdvancesOn x :=
  fun s a s' h _ => .inl (hx s a s' h)

/-- A body that leaves the history alone may come first. -/
theorem bind_left (hx : Keeps QuietOn x) (hf : ∀ a, Keeps AdvancesOn (f a)) :
    Keeps AdvancesOn (x >>= f) := by
  intro c b c' h hsound
  obtain ⟨a, c₁, h₁, h₂⟩ := bind_ok.mp h
  have hquiet : Quiet c.store c₁.store := hx c a c₁ h₁
  exact Advances.quiet_left hquiet (hf a c₁ b c' h₂ (hquiet.pagesSound hsound))

/-- A body that leaves the history alone may come last. -/
theorem bind_right (hx : Keeps AdvancesOn x) (hf : ∀ a, Keeps QuietOn (f a)) :
    Keeps AdvancesOn (x >>= f) := by
  intro c b c' h hsound
  obtain ⟨a, c₁, h₁, h₂⟩ := bind_ok.mp h
  exact Advances.quiet_right (hx c a c₁ h₁ hsound) (hf a c₁ b c' h₂)

end AdvancesOn

/-! ### Steps of a history -/

/-- The row is the next of its kind. -/
def HistoryRow.IsNext (row : HistoryRow) (sequences : HistorySequences) : Prop :=
  match row with
  | .revision _ => True
  | .correction c => c.sequence = sequences.correction + 1
  | .lifecycle e => e.sequence = sequences.lifecycle + 1
  | .title e => e.sequence = sequences.title + 1
  | .move e => e.sequence = sequences.move + 1

/-- The numbers reached after a row are those the loop reaches. -/
theorem sequences_record {s : Store} {row : HistoryRow} (state : PageState)
    (h : row.IsNext (s.sequences row.page)) :
    (s.record row).sequences row.page = (row.apply ⟨state, s.sequences row.page⟩).sequences := by
  cases row with
  | revision r => rfl
  | correction c => simp [Store.record, Store.sequences, Store.modifyHistory, HistoryRow.apply,
      HistoryRow.page, lastSequenceOf_append PageOccurrenceCorrection.page rfl h]
  | lifecycle e => simp [Store.record, Store.sequences, Store.modifyHistory, HistoryRow.apply,
      HistoryRow.page, lastSequenceOf_append PageLifecycleEvent.page rfl h]
  | title e => simp [Store.record, Store.sequences, Store.modifyHistory, HistoryRow.apply,
      HistoryRow.page, lastSequenceOf_append PageTitleEvent.page rfl h]
  | move e => simp [Store.record, Store.sequences, Store.modifyHistory, HistoryRow.apply,
      HistoryRow.page, lastSequenceOf_append PageMoveEvent.page rfl h]

/-- A row of another Page leaves the numbers alone. -/
theorem sequences_record_of_ne {s : Store} {row : HistoryRow} {key : PageKey} (h : row.page ≠ key) :
    (s.record row).sequences key = s.sequences key := by
  cases row with
  | revision r => rfl
  | correction c => simp [Store.record, Store.sequences, Store.modifyHistory,
      lastSequenceOf_append_of_ne PageOccurrenceCorrection.page h]
  | lifecycle e => simp [Store.record, Store.sequences, Store.modifyHistory,
      lastSequenceOf_append_of_ne PageLifecycleEvent.page h]
  | title e => simp [Store.record, Store.sequences, Store.modifyHistory,
      lastSequenceOf_append_of_ne PageTitleEvent.page h]
  | move e => simp [Store.record, Store.sequences, Store.modifyHistory,
      lastSequenceOf_append_of_ne PageMoveEvent.page h]

theorem HistoryRow.Follows.isNext {audits : PageMoveEvent → Bool} {loop : HistoryLoop}
    {row : HistoryRow} (h : row.Follows audits loop) : row.IsNext loop.sequences := by
  cases row with
  | revision r => trivial
  | correction c => exact h.2.1
  | lifecycle e => exact h.2.1
  | title e => exact h.2.1
  | move e => exact h.2.1

/-- A row that may follow the stored state is one step of the history. -/
theorem historyStep_of_follows {s : Store} {old new : Page} {row : HistoryRow}
    (hpage : row.page = old.key)
    (h : row.Follows (s.moveAudits old) ⟨old.state, s.sequences old.key⟩)
    (hstate : (row.apply ⟨old.state, s.sequences old.key⟩).state = new.state) :
    historyStep (s.moveAudits old) ⟨old.state, s.sequences old.key⟩ row =
      .ok ⟨new.state, (s.record row).sequences old.key⟩ := by
  rw [historyStep, if_pos h, ← hstate]
  have hnext := h.isNext
  rw [← hpage] at hnext ⊢
  rw [sequences_record old.state hnext]

end PatchouliLib
