import PatchouliLib.Content.PageChange
import PatchouliLib.Content.FileSetService

/-!
# The repository writes valid changes

Every write of the content repository that touches a Page row is one valid
change of that Page.  A metadata change inserts a guard, updates the row and
reads back the event its trigger has written; a Revision is inserted, and the
row advanced to it, with quiet statements in between.

## Main results

* `correctOccurrence_ok`, `transitionPageLifecycle_ok`, `updatePageTitle_ok`,
  `applyPageMove_ok` — a change of metadata.
* `advanceRevision_ok`, `createPage_ok` — a new Revision, a new Page.
-/

namespace PatchouliLib

open Foundation

/-! ### Occurrence corrections -/

/-- The only guard of a Page, and the guards of the others. -/
theorem filter_append_guard {γ : Type} (key : γ → PageKey) {guards : List γ} {g : γ}
    (h : ∀ g' ∈ guards, key g' ≠ key g) :
    (guards ++ [g]).filter (fun a => key a = key g) = [g] ∧
      (guards ++ [g]).filter (fun a => key a ≠ key g) = guards := by
  constructor
  · rw [List.filter_append, List.filter_eq_nil_iff.mpr (by simpa using h)]
    simp
  · rw [List.filter_append, List.filter_eq_self.mpr (by simpa using h)]
    simp

def Store.withCorrectionGuard (g : PageOccurrenceCorrectionGuard) (s : Store) : Store :=
  s.modifyHistory fun t =>
    { t with occurrenceCorrectionGuards := t.occurrenceCorrectionGuards ++ [g] }

/-- The event that the trigger makes of a guard. -/
def PageOccurrenceCorrectionGuard.event (g : PageOccurrenceCorrectionGuard) (old : Page) :
    PageOccurrenceCorrection :=
  ⟨g.page, g.sequence, old.occurredAt, g.newOccurredAt, old.currentRevisionNumber, g.actor,
    g.correctedAt⟩

theorem insertOccurrenceCorrectionGuard_ok {g : PageOccurrenceCorrectionGuard}
    {c c' : Connection} {w : PUnit} (h : insertOccurrenceCorrectionGuard g c = .ok (w, c')) :
    (∀ g' ∈ c.store.history.occurrenceCorrectionGuards, g'.page ≠ g.page) ∧
      g.sequence = (c.store.sequences g.page).correction + 1 ∧
      c' = ⟨c.store.withCorrectionGuard g, c.dirtied⟩ := by
  simp only [insertOccurrenceCorrectionGuard, bind_ok, constraint_ok, modifyStore_ok,
    exists_and_left, exists_eq_left', and_assoc, exists_const] at h
  obtain ⟨-, hseq, -, -, -, hguards, rfl⟩ := h
  exact ⟨hguards, hseq.trans (nextSequence_eq _), rfl⟩

theorem afterPageUpdate_corrected {s : Store} {g : PageOccurrenceCorrectionGuard} {old : Page}
    (hpage : g.page = old.key)
    (hguards : ∀ g' ∈ s.history.occurrenceCorrectionGuards, g'.page ≠ g.page)
    (hn : g.newOccurredAt ≠ old.occurredAt) :
    (s.withCorrectionGuard g).afterPageUpdate old (old.corrected g.newOccurredAt g.correctedAt) =
      (PageChange.update old (old.corrected g.newOccurredAt g.correctedAt)
        (.correction (g.event old))).apply s := by
  obtain ⟨hone, hrest⟩ := filter_append_guard PageOccurrenceCorrectionGuard.page hguards
  rw [hpage] at hone hrest
  simpa [Store.afterPageUpdate, recordMove, recordTitle, recordLifecycle, recordOccurrence,
    clearAppendGuard, Page.currentRevision, hn, Store.replacePage, PageChange.apply, Store.record,
    Store.withCorrectionGuard, Store.modifyContent, Store.modifyHistory, hone,
    PageOccurrenceCorrectionGuard.event] using hrest

/-- **An occurrence correction is one valid change.** -/
theorem correctOccurrence_ok {page : Page} {o n t : ℤ} {actor : Actor} {c c' : Connection}
    {r : Page × PageOccurrenceCorrection}
    (h : correctOccurrence page o n actor t c = .ok (r, c')) :
    ∃ old, old.key = page.key ∧ old.updatedAt = page.updatedAt ∧
      r.2.page = page.key ∧ r.2.correctedAt = max t (page.updatedAt + 1) ∧
      r.2.oldOccurredAt = o ∧ r.2.newOccurredAt = n ∧ page.occurredAt = o ∧
      r.1 = page.corrected n r.2.correctedAt ∧
      PageChange.ValidUpdate old (old.corrected n r.2.correctedAt) (.correction r.2) c.store ∧
      c'.store = (PageChange.update old (old.corrected n r.2.correctedAt)
        (.correction r.2)).apply c.store := by
  simp only [correctOccurrence, requireRow, bind_ok, require_ok, attempt_ok, query_ok, pure_ok,
    Fallible.pure_ok, exists_and_left, exists_eq_left', and_assoc, exists_const,
    canonicalUtcWire_ok] at h
  obtain ⟨hne, hn, -, ho, hat, -, w, c₁, hguard, matched, c₂, hupdate, rfl, row, hrow, rfl, rfl⟩ := h
  obtain ⟨hguards, hseq, rfl⟩ := insertOccurrenceCorrectionGuard_ok hguard
  rcases updatePageWhere_ok hupdate with
    ⟨h, -⟩ | ⟨-, old, hold, hkey, ⟨hocc, hupd, hrev⟩, hallowed, rfl⟩
  · cases h
  set g : PageOccurrenceCorrectionGuard := ⟨page.key, _, o, n, actor, max t (page.updatedAt + 1)⟩
    with hg
  have hnew : n ≠ old.occurredAt := by rw [hocc, ho]; exact fun h => hne h.symm
  have happly := afterPageUpdate_corrected (g := g) hkey.symm hguards hnew
  -- the row that was read back is the one the trigger wrote
  obtain rfl : g.event old = row := by
    have hnext : (g.event old).sequence = lastSequenceOf (·.page) (·.sequence)
      c.store.history.occurrenceCorrections (g.event old).page + 1 := hseq
    have hfound := find?_append_next PageOccurrenceCorrection.page hnext
    have hrows : ((c.store.withCorrectionGuard g).afterPageUpdate old
        (old.corrected n g.correctedAt)).history.occurrenceCorrections =
        c.store.history.occurrenceCorrections ++ [g.event old] := congrArg (·.history.occurrenceCorrections) happly
    exact Option.some.inj (hfound.symm.trans (hrows ▸ Fallible.get_ok.mp hrow))
  have hdel : old.deletedAt = none := by
    by_contra hdel
    exact hnew (hallowed.whileDeleted hdel).1
  refine ⟨old, hkey, hupd, rfl, rfl, ?_, rfl, ho, rfl, ?_, happly⟩
  · exact hocc.trans ho
  refine
    { mem := hold
      page := hkey.symm
      key := rfl
      pageId := rfl
      createdAt := rfl
      checks := hallowed.checks
      revisionId := id
      revisionNumber := id
      wire := hat
      book := hallowed.book
      step := historyStep_of_follows hkey.symm ?_ rfl }
  refine ⟨?_, ?_, rfl, hdel, rfl, hnew⟩
  · change old.updatedAt < max t (page.updatedAt + 1)
    omega
  · exact hkey ▸ hseq

/-! ### Deletes and restores -/

def Store.withLifecycleGuard (g : PageLifecycleEvent) (s : Store) : Store :=
  s.modifyHistory fun t => { t with lifecycleGuards := t.lifecycleGuards ++ [g] }

theorem insertLifecycleGuard_ok {g : PageLifecycleEvent} {c c' : Connection} {w : PUnit}
    (h : insertLifecycleGuard g c = .ok (w, c')) :
    (∀ g' ∈ c.store.history.lifecycleGuards, g'.page ≠ g.page) ∧
      g.sequence = (c.store.sequences g.page).lifecycle + 1 ∧
      c' = ⟨c.store.withLifecycleGuard g, c.dirtied⟩ := by
  simp only [insertLifecycleGuard, bind_ok, constraint_ok, modifyStore_ok, exists_and_left,
    exists_eq_left', and_assoc, exists_const] at h
  obtain ⟨-, hseq, -, -, hguards, rfl⟩ := h
  exact ⟨hguards, hseq.trans (nextSequence_eq _), rfl⟩

/-- The guard records the row that the UPDATE replaces. -/
structure PageLifecycleEvent.Guards (g : PageLifecycleEvent) (old : Page) : Prop where
  page : g.page = old.key
  sectionId : g.sectionId = old.sectionId
  oldDeletedAt : g.oldDeletedAt = old.deletedAt
  oldUpdatedAt : g.oldUpdatedAt = old.updatedAt
  atRevisionNumber : g.atRevisionNumber = old.currentRevisionNumber
  occurredAtAtEvent : g.occurredAtAtEvent = old.occurredAt
  action : g.action = .delete ↔ old.deletedAt = none

/-- The tombstone after the action. -/
def PageLifecycleEvent.newDeletedAt (g : PageLifecycleEvent) : Option ℤ :=
  if g.action = .delete then some g.changedAt else none

theorem PageLifecycleEvent.Guards.newDeletedAt_ne {g : PageLifecycleEvent} {old : Page}
    (h : g.Guards old) : g.newDeletedAt ≠ old.deletedAt := by
  unfold PageLifecycleEvent.newDeletedAt
  split
  · next hdelete => simp [h.action.mp hdelete]
  · next hrestore => exact fun hnone => hrestore (h.action.mpr hnone.symm)

theorem afterPageUpdate_transitioned {s : Store} {g : PageLifecycleEvent} {old : Page}
    (hg : g.Guards old) (hguards : ∀ g' ∈ s.history.lifecycleGuards, g'.page ≠ g.page) :
    (s.withLifecycleGuard g).afterPageUpdate old (old.transitioned g.newDeletedAt g.changedAt) =
      (PageChange.update old (old.transitioned g.newDeletedAt g.changedAt)
        (.lifecycle g)).apply s := by
  obtain ⟨hone, hrest⟩ := filter_append_guard PageLifecycleEvent.page hguards
  rw [hg.page] at hone hrest
  have hevent : (⟨g.page, g.sequence, g.action, g.sectionId, old.deletedAt, old.updatedAt,
      g.changedAt, old.currentRevisionNumber, old.occurredAt, g.actor, g.requestId⟩ :
      PageLifecycleEvent) = g := by
    rw [← hg.oldDeletedAt, ← hg.oldUpdatedAt, ← hg.atRevisionNumber, ← hg.occurredAtAtEvent]
  simpa [Store.afterPageUpdate, recordMove, recordTitle, recordLifecycle, recordOccurrence,
    clearAppendGuard, Page.currentRevision, hg.newDeletedAt_ne, Store.replacePage,
    PageChange.apply, Store.record, Store.withLifecycleGuard, Store.modifyContent,
    Store.modifyHistory, hone, hevent] using hrest

/-- **A delete or a restore is one valid change.** -/
theorem transitionPageLifecycle_ok {page : Page} {action : LifecycleAction} {actor : Actor}
    {requestId : Text} {t : ℤ} {c c' : Connection} {r : Page × PageLifecycleEvent}
    (h : transitionPageLifecycle page action actor requestId t c = .ok (r, c')) :
    ∃ old, old.currentRevision = page.currentRevision ∧ r.2.Guards old ∧ r.2.action = action ∧
      r.2.page = page.key ∧ r.2.actor = actor ∧ r.2.requestId = requestId ∧
      r.2.oldUpdatedAt = page.updatedAt ∧ r.2.oldDeletedAt = page.deletedAt ∧
      r.2.changedAt = max t (page.updatedAt + 1) ∧
      r.1 = page.transitioned r.2.newDeletedAt r.2.changedAt ∧
      PageChange.ValidUpdate old (old.transitioned r.2.newDeletedAt r.2.changedAt)
        (.lifecycle r.2) c.store ∧
      c'.store = (PageChange.update old (old.transitioned r.2.newDeletedAt r.2.changedAt)
        (.lifecycle r.2)).apply c.store := by
  simp only [transitionPageLifecycle, requireRow, bind_ok, require_ok, attempt_ok, query_ok,
    pure_ok, Fallible.pure_ok, exists_and_left, exists_eq_left', and_assoc, exists_const,
    canonicalUtcWire_ok] at h
  obtain ⟨-, haction, -, hat, -, w, c₁, hguard, matched, c₂, hupdate, rfl, row, hrow, rfl, rfl⟩ := h
  obtain ⟨hguards, hseq, rfl⟩ := insertLifecycleGuard_ok hguard
  rcases updatePageWhere_ok hupdate with
    ⟨h, -⟩ | ⟨-, old, hold, hkey, ⟨hsection, -, hupd, hdel, hrev, hocc⟩, hallowed, rfl⟩
  · cases h
  set g : PageLifecycleEvent := ⟨page.key, _, action, page.sectionId, page.deletedAt,
    page.updatedAt, max t (page.updatedAt + 1), page.currentRevisionNumber, page.occurredAt, actor,
    requestId⟩ with hg
  have hnumber : old.currentRevisionNumber = page.currentRevisionNumber :=
    congrArg RevisionKey.revisionNumber hrev
  have hold' : g.Guards old :=
    ⟨hkey.symm, hsection.symm, hdel.symm, hupd.symm, hnumber.symm, hocc.symm, hdel ▸ haction⟩
  have happly := afterPageUpdate_transitioned hold' hguards
  -- the row that was read back is the guard itself
  obtain rfl : g = row := by
    have hfound := find?_append_next PageLifecycleEvent.page hseq
    have hrows : ((c.store.withLifecycleGuard g).afterPageUpdate old
        (old.transitioned g.newDeletedAt g.changedAt)).history.lifecycleEvents =
        c.store.history.lifecycleEvents ++ [g] := congrArg (·.history.lifecycleEvents) happly
    exact Option.some.inj (hfound.symm.trans (hrows ▸ Fallible.get_ok.mp hrow))
  refine ⟨old, hrev, hold', rfl, rfl, rfl, rfl, rfl, rfl, rfl, rfl, ?_, happly⟩
  refine
    { mem := hold
      page := hkey.symm
      key := rfl
      pageId := rfl
      createdAt := rfl
      checks := hallowed.checks
      revisionId := id
      revisionNumber := id
      wire := hat
      book := hallowed.book
      step := historyStep_of_follows hkey.symm ?_ rfl }
  refine ⟨?_, hkey ▸ hseq, hold'.atRevisionNumber, hold'.oldUpdatedAt, hold'.sectionId,
    hold'.oldDeletedAt, hold'.occurredAtAtEvent, hold'.action⟩
  change old.updatedAt < max t (page.updatedAt + 1)
  omega

/-! ### Titles -/

/-- The event that the trigger writes under an audit row. -/
def titleEvent (s : Store) (old : Page) (title : Text) (updatedAt : ℤ) (auditEventId : Id) :
    PageTitleEvent :=
  ⟨old.key, (s.sequences old.key).title + 1, old.title, title, old.updatedAt, updatedAt,
    old.currentRevisionNumber, auditEventId⟩

theorem afterPageUpdate_retitled {s : Store} {old : Page} {title : Text} {t : ℤ}
    {a : MasterAuditEvent} (htitle : title ≠ old.title)
    (ha : s.unusedTitleAudits old.key t = [a]) :
    s.afterPageUpdate old (old.retitled title t) =
      (PageChange.update old (old.retitled title t)
        (.title (titleEvent s old title t a.id))).apply s := by
  -- only the title trigger has something to record
  have honly : s.afterPageUpdate old (old.retitled title t) =
      recordTitle old (old.retitled title t) (s.replacePage old (old.retitled title t)) := by
    simp [Store.afterPageUpdate, recordMove, recordLifecycle, recordOccurrence, clearAppendGuard,
      Page.currentRevision, Store.replacePage]
  have haudit : (s.replacePage old (old.retitled title t)).unusedTitleAudits old.key t = [a] := ha
  have hne : ¬(old.retitled title t).title = old.title := htitle
  rw [honly, recordTitle, if_neg hne]
  simp only [Page.retitled_updatedAt, Page.retitled_title, haudit, List.map_cons, List.map_nil,
    nextSequence_eq]
  rfl

/-- **An edit of the title is one valid change**, or the Page row has changed
meanwhile. -/
theorem updatePageTitle_ok {page : Page} {title : Text} {t : ℤ} {c c' : Connection}
    {r : Option Page} (h : updatePageTitle page title t c = .ok (r, c'))
    (htitle : page.title ≠ title) (hlt : page.updatedAt < t) (ht : InUtcRange t) :
    (r = none ∧ c' = c) ∨
      ∃ old event, old.key = page.key ∧
        PageChange.ValidUpdate old (old.retitled title t) (.title event) c.store ∧
        c'.store = (PageChange.update old (old.retitled title t) (.title event)).apply c.store := by
  simp only [updatePageTitle, bind_ok, pure_ok] at h
  obtain ⟨matched, c₁, hupdate, rfl, rfl⟩ := h
  rcases updatePageWhere_ok hupdate with
    ⟨rfl, rfl⟩ | ⟨rfl, old, hold, hkey, ⟨-, -, -, hsame, hupd, -, hdel⟩, hallowed, rfl⟩
  · exact .inl ⟨rfl, rfl⟩
  have hne : title ≠ old.title := by rw [hsame]; exact htitle.symm
  obtain ⟨a, ha⟩ := List.length_eq_one_iff.mp (hallowed.title hne).2.2.2
  refine .inr ⟨old, titleEvent c.store old title t a.id, hkey, ?_, afterPageUpdate_retitled hne ha⟩
  refine
    { mem := hold
      page := rfl
      key := rfl
      pageId := rfl
      createdAt := rfl
      checks := hallowed.checks
      revisionId := id
      revisionNumber := id
      wire := ht
      book := hallowed.book
      step := historyStep_of_follows rfl ⟨?_, rfl, rfl, rfl, hdel, rfl, hne⟩ rfl }
  change old.updatedAt < t
  omega

/-! ### Moves -/

def Store.withMoveGuard (g : PageMoveEvent) (s : Store) : Store :=
  s.modifyHistory fun t => { t with moveGuards := t.moveGuards ++ [g] }

/-- The guard records the row that the UPDATE replaces. -/
structure PageMoveEvent.Guards (g : PageMoveEvent) (old : Page) : Prop where
  page : g.page = old.key
  sectionId : g.oldSectionId = old.sectionId
  bookId : g.oldBookId = old.bookId
  updatedAt : g.oldUpdatedAt = old.updatedAt
  revisionId : g.atRevisionId = old.currentRevisionId
  revisionNumber : g.atRevisionNumber = old.currentRevisionNumber
  occurredAt : g.occurredAtAtEvent = old.occurredAt
  active : old.deletedAt = none

theorem insertMoveGuard_ok {g : PageMoveEvent} {c c' : Connection} {w : PUnit}
    (h : insertMoveGuard g c = .ok (w, c')) :
    (∀ g' ∈ c.store.history.moveGuards, g'.page ≠ g.page) ∧
      (∃ old ∈ c.store.content.pages, g.Guards old ∧ c.store.moveAudits old g = true) ∧
      g.sequence = (c.store.sequences g.page).move + 1 ∧
      ¬(g.oldSectionId = g.newSectionId ∧ g.oldBookId = g.newBookId) ∧
      g.oldUpdatedAt < g.changedAt ∧ g.changedAt ≤ maxUtcMicroseconds ∧
      c' = ⟨c.store.withMoveGuard g, c.dirtied⟩ := by
  simp only [insertMoveGuard, bind_ok, constraint_ok, modifyStore_ok, exists_and_left,
    exists_eq_left', and_assoc, exists_const] at h
  obtain ⟨hguards, hpage, hseq, -, hne, hlt, hmax, -, -, rfl⟩ := h
  refine ⟨hguards, ?_, hseq.trans (nextSequence_eq _), hne, hlt, hmax, rfl⟩
  simp only [Store.hasPage, List.any_eq_true, Bool.and_eq_true, decide_eq_true_eq] at hpage
  obtain ⟨old, hold, hkey, ⟨⟨⟨⟨⟨⟨hdel, hsection⟩, hbook⟩, hupd⟩, hid⟩, hnumber⟩, hocc⟩, haudit⟩ :=
    hpage
  refine ⟨old, hold, ⟨hkey.symm, hsection.symm, hbook.symm, hupd.symm, hid.symm, hnumber.symm,
    hocc.symm, hdel⟩, ?_⟩
  rw [Store.moveAudits, hkey]
  exact haudit

theorem afterPageUpdate_moved {s : Store} {g : PageMoveEvent} {old : Page} (hg : g.Guards old)
    (hguards : ∀ g' ∈ s.history.moveGuards, g'.page ≠ g.page)
    (hne : ¬(g.oldSectionId = g.newSectionId ∧ g.oldBookId = g.newBookId)) :
    (s.withMoveGuard g).afterPageUpdate old (old.moved g.newSectionId g.newBookId g.changedAt) =
      (PageChange.update old (old.moved g.newSectionId g.newBookId g.changedAt)
        (.move g)).apply s := by
  obtain ⟨hone, hrest⟩ := filter_append_guard PageMoveEvent.page hguards
  rw [hg.page] at hone hrest
  have hmoved : ¬(g.newSectionId = old.sectionId ∧ g.newBookId = old.bookId) := by
    rw [← hg.sectionId, ← hg.bookId]
    exact fun h => hne ⟨h.1.symm, h.2.symm⟩
  simpa [Store.afterPageUpdate, recordMove, recordTitle, recordLifecycle, recordOccurrence,
    clearAppendGuard, Page.currentRevision, hmoved, Store.replacePage, PageChange.apply,
    Store.record, Store.withMoveGuard, Store.modifyContent, Store.modifyHistory, hone] using hrest

/-- **A move is one valid change**, or the exact no-op. -/
theorem applyPageMove_ok {plan : PageMovePlan} {audit : Option MoveAudit} {c c' : Connection}
    {w : PUnit} (hsound : c.store.PagesSound) (h : applyPageMove plan audit c = .ok (w, c')) :
    (plan.sequence = none ∧ audit = none ∧ c' = c) ∨
      ∃ sequence audit' old, plan.sequence = some sequence ∧ audit = some audit' ∧
        (plan.guard sequence audit').Guards old ∧
        PageChange.ValidUpdate old (old.moved plan.targetSectionId plan.targetBookId plan.updatedAt)
          (.move (plan.guard sequence audit')) c.store ∧
        c'.store = (PageChange.update old
          (old.moved plan.targetSectionId plan.targetBookId plan.updatedAt)
          (.move (plan.guard sequence audit'))).apply c.store := by
  cases hsequence : plan.sequence with
  | none =>
    cases audit with
    | none =>
      simp only [applyPageMove, hsequence, pure_ok] at h
      exact .inl ⟨rfl, rfl, h.2.symm⟩
    | some audit => simp only [applyPageMove, hsequence, raise_ok] at h
  | some sequence =>
    cases audit with
    | none => simp only [applyPageMove, hsequence, raise_ok] at h
    | some audit =>
      simp only [applyPageMove, hsequence, bind_ok, require_ok, constraint_ok, exists_and_left,
        exists_eq_left', and_assoc, exists_const] at h
      obtain ⟨w', c₁, hguard, matched, c₂, hupdate, rfl, -, rfl⟩ := h
      obtain ⟨hguards, ⟨q, hq, hqg, haudit⟩, hseq, hne, hlt, hmax, rfl⟩ := insertMoveGuard_ok hguard
      rcases updatePageWhere_ok hupdate with ⟨h, -⟩ | ⟨-, old, hold, hkey, -, hallowed, rfl⟩
      · cases h
      obtain rfl : q = old := hsound.unique q hq old hold (hqg.page.symm.trans hkey.symm)
      refine .inr ⟨sequence, audit, q, rfl, rfl, hqg, ?_,
        afterPageUpdate_moved hqg hguards hne⟩
      have hcreated := hallowed.checks.created
      refine
        { mem := hold
          page := hqg.page
          key := rfl
          pageId := rfl
          createdAt := rfl
          checks := hallowed.checks
          revisionId := id
          revisionNumber := id
          wire := ⟨?_, hmax⟩
          book := hallowed.book
          step := historyStep_of_follows hqg.page ?_ rfl }
      · have : minUtcMicroseconds ≤ 0 := by decide
        change minUtcMicroseconds ≤ plan.updatedAt
        have : 0 ≤ plan.updatedAt := hcreated.1.trans hcreated.2
        omega
      · refine ⟨?_, hqg.page ▸ hseq, hqg.revisionNumber, hqg.updatedAt, hqg.active, ?_, ?_,
          hqg.revisionId, hqg.occurredAt, haudit⟩
        · have hupd : plan.page.updatedAt = q.updatedAt := hqg.updatedAt
          have hlt : plan.page.updatedAt < plan.updatedAt := hlt
          change q.updatedAt < plan.updatedAt
          omega
        · exact Prod.ext hqg.sectionId hqg.bookId
        · intro h
          refine hne ⟨?_, ?_⟩
          · exact hqg.sectionId.trans (congrArg Prod.fst h).symm
          · exact hqg.bookId.trans (congrArg Prod.snd h).symm

/-! ### Revisions -/

theorem afterPageUpdate_advanced {s : Store} {old : Page} {revisionId : Text}
    {revisionNumber : ℕ} {t : ℤ} :
    s.afterPageUpdate old (old.advanced revisionId revisionNumber t) =
      clearAppendGuard old (old.advanced revisionId revisionNumber t)
        (s.replacePage old (old.advanced revisionId revisionNumber t)) := by
  simp [Store.afterPageUpdate, recordMove, recordTitle, recordLifecycle, recordOccurrence,
    Store.replacePage]

/-- The row of a Page at a new Revision. -/
def Revision.advances (r : Revision) (old : Page) : Page :=
  old.advanced r.key.revisionId r.key.revisionNumber r.createdAt

/-- The Revision may follow the current one of the Page. -/
structure Revision.Succeeds (r : Revision) (old : Page) : Prop where
  page : r.key.page = old.key
  number : r.key.revisionNumber = old.currentRevisionNumber + 1
  active : old.deletedAt = none
  clock : old.updatedAt < r.createdAt
  wire : InUtcRange r.createdAt

theorem Revision.Succeeds.currentRevision {r : Revision} {old : Page} (h : r.Succeeds old) :
    (r.advances old).currentRevision = r.key := by
  rw [Page.currentRevision, Revision.advances, Page.advanced_key, ← h.page]
  rfl

/-- A Revision written for the Page that was read succeeds the row that a
conditional UPDATE has matched. -/
theorem Revision.Succeeds.of_matched {r : Revision} {page old : Page} (hpage : r.key.page = page.key)
    (hnumber : r.key.revisionNumber = page.currentRevisionNumber + 1)
    (hcurrent : old.currentRevision = page.currentRevision) (hupdated : old.updatedAt = page.updatedAt)
    (hactive : old.deletedAt = none)
    (hlt : page.updatedAt < r.createdAt) (hwire : InUtcRange r.createdAt) : r.Succeeds old where
  page := hpage.trans (congrArg RevisionKey.page hcurrent).symm
  number := by
    have : old.currentRevisionNumber = page.currentRevisionNumber :=
      congrArg RevisionKey.revisionNumber hcurrent
    omega
  active := hactive
  clock := by omega
  wire := hwire

/-- Only the new Revision and the row at it are left of an append. -/
theorem Revision.Succeeds.quiet {r : Revision} {old : Page} {s t : Store} (h : r.Succeeds old)
    (hone : 1 < r.key.revisionNumber)
    (hguards : ∀ k ∈ s.content.pageRevisionAppendGuards, k.page ≠ r.key.page)
    (ht : Quiet (s.withRevision r) t) :
    Quiet ((PageChange.update old (r.advances old) (.revision r)).apply s)
      (t.afterPageUpdate old (r.advances old)) := by
  have hne : ¬(r.advances old).currentRevision = old.currentRevision := by
    intro heq
    have : r.key.revisionNumber = old.currentRevisionNumber :=
      congrArg RevisionKey.revisionNumber (h.currentRevision.symm.trans heq)
    have := h.number
    omega
  have hcleared : t.content.pageRevisionAppendGuards.filter (· ≠ r.key) =
      s.content.pageRevisionAppendGuards := by
    have hothers : ∀ k ∈ s.content.pageRevisionAppendGuards, k ≠ r.key :=
      fun k hk heq => hguards k hk (congrArg RevisionKey.page heq)
    rw [ht.appendGuards]
    simpa [Store.withRevision, Store.modifyContent, hone] using hothers
  rw [Revision.advances, afterPageUpdate_advanced, ← Revision.advances, clearAppendGuard,
    if_neg hne, h.currentRevision]
  exact
    { library := ht.library
      pages := congrArg (List.map _) ht.pages
      revisions := ht.revisions
      appendGuards := hcleared
      history := ht.history
      masterAudits := ht.masterAudits
      authAudits := ht.authAudits }

/-- **Inserting a Revision and advancing the Page to it is one valid change**,
whatever quiet statements run in between. -/
theorem advanceRevision_ok {r : Revision} {old : Page} {c c₁ : Connection} {t : Store}
    {w : PUnit} (hsound : c.store.PagesSound) (hinsert : insertRevision r c = .ok (w, c₁))
    (ht : Quiet c₁.store t) (hold : old ∈ t.content.pages) (hnext : r.Succeeds old)
    (hallowed : PageUpdateAllowed t old (r.advances old)) :
    PageChange.ValidUpdate old (r.advances old) (.revision r) c.store ∧
      Quiet ((PageChange.update old (r.advances old) (.revision r)).apply c.store)
        (t.afterPageUpdate old (r.advances old)) := by
  obtain ⟨-, hchecks, hguards, hafter⟩ := insertRevision_ok hinsert
  have hall : Quiet (c.store.withRevision r) t := hafter.trans ht
  have hmem : old ∈ c.store.content.pages := by rwa [hall.pages] at hold
  have hone : 1 < r.key.revisionNumber := by
    have := hnext.number
    have := (hsound.numbered old hmem).1
    omega
  refine ⟨?_, hnext.quiet hone (hguards hone) hall⟩
  have hbook := hallowed.book
  rw [hall.hasBook] at hbook
  refine
    { mem := hmem
      page := hnext.page
      key := rfl
      pageId := rfl
      createdAt := rfl
      checks := hallowed.checks
      revisionId := fun _ => hchecks.1
      revisionNumber := fun _ => hchecks.2.1
      wire := hnext.wire
      book := hbook
      step := historyStep_of_follows hnext.page ⟨hnext.clock, hnext.active, hnext.number⟩ rfl }

/-! ### New Pages -/

/-- **Inserting a Page and its first Revision is one valid change.** -/
theorem createPage_ok {p : Page} {r : Revision} {c c₁ c₂ : Connection} {w w' : PUnit}
    (hpage : insertPage p c = .ok (w, c₁)) (hrevision : insertRevision r c₁ = .ok (w', c₂))
    (hkey : r.key = p.currentRevision) (hcreated : r.createdAt = p.createdAt)
    (hupdated : p.updatedAt = p.createdAt) (hwire : InUtcRange p.updatedAt) :
    PageChange.ValidCreate p r c.store ∧
      Quiet ((PageChange.create p r).apply c.store) c₂.store := by
  obtain ⟨hone, hnone, hchecks, huid, hfresh, hbook, rfl⟩ := insertPage_ok hpage
  obtain ⟨hseq, hrchecks, -, hafter⟩ := insertRevision_ok hrevision
  refine ⟨?_, hafter⟩
  have hnumber : r.key.revisionNumber = 1 := by rw [hkey]; exact hone
  obtain ⟨q, hq, hqkey, hcase⟩ := hseq
  -- the Page of the Revision is the one just inserted
  obtain rfl : q = p := by
    rcases List.mem_append.mp hq with hq | hq
    · refine absurd ?_ (hfresh q hq)
      rw [hqkey, hkey]
      rfl
    · exact List.mem_singleton.mp hq
  have hrevisions : ∀ r' ∈ c.store.content.revisions, r'.key.page ≠ q.key := by
    rcases hcase with ⟨-, -, hnone⟩ | ⟨hsucc, -⟩
    · intro r' hr' heq
      exact hnone r' hr' (heq.trans hqkey)
    · omega
  exact
    { fresh := hfresh
      revisions := hrevisions
      key := hkey
      number := hone
      createdAt := hcreated
      updatedAt := hupdated
      wire := hwire
      deletedAt := hnone
      checks := hchecks
      revisionId := by have := hrchecks.1; rwa [hkey] at this
      pageUid := huid
      book := hbook }

/-! ### At most one change -/

theorem advances_correctOccurrence (page : Page) (o n : ℤ) (actor : Actor) (t : ℤ) :
    Keeps AdvancesOn (correctOccurrence page o n actor t) := by
  intro c r c' h hsound
  obtain ⟨old, -, -, -, -, -, -, -, -, hvalid, hstore⟩ := correctOccurrence_ok h
  refine Advances.of_update hvalid ?_
  rw [hstore]
  exact Quiet.refl _

theorem advances_transitionPageLifecycle (page : Page) (action : LifecycleAction) (actor : Actor)
    (requestId : Text) (t : ℤ) :
    Keeps AdvancesOn (transitionPageLifecycle page action actor requestId t) := by
  intro c r c' h hsound
  obtain ⟨old, -, -, -, -, -, -, -, -, -, -, hvalid, hstore⟩ := transitionPageLifecycle_ok h
  refine Advances.of_update hvalid ?_
  rw [hstore]
  exact Quiet.refl _

theorem advances_updatePageTitle {page : Page} {title : Text} {t : ℤ} (htitle : page.title ≠ title)
    (hlt : page.updatedAt < t) (ht : InUtcRange t) :
    Keeps AdvancesOn (updatePageTitle page title t) := by
  intro c r c' h hsound
  rcases updatePageTitle_ok h htitle hlt ht with ⟨-, rfl⟩ | ⟨old, event, -, hvalid, hstore⟩
  · exact .inl (Quiet.refl _)
  refine Advances.of_update hvalid ?_
  rw [hstore]
  exact Quiet.refl _

theorem advances_applyPageMove (plan : PageMovePlan) (audit : Option MoveAudit) :
    Keeps AdvancesOn (applyPageMove plan audit) := by
  intro c r c' h hsound
  rcases applyPageMove_ok hsound h with ⟨-, -, rfl⟩ | ⟨_, _, old, -, -, -, hvalid, hstore⟩
  · exact .inl (Quiet.refl _)
  refine Advances.of_update hvalid ?_
  rw [hstore]
  exact Quiet.refl _

end PatchouliLib
