import PatchouliLib.Search.Index
import PatchouliLib.System.Restores

/-!
# Indexed titles

The search index shows a Page under the display title of its current Revision, or under
its own title where the Revision has none.  A Page keeps its title until an event of
its history says otherwise, and a Revision of files keeps its display title for good.

## Main definitions

* `ProjectionRows.title` — the title that the index shows.
* `TitlesKept s t` — without an event a Page has kept its title.
* `IndexedAs s key title` — the index shows this title while the Revision is current.

## Main results

* `displayTitle?_eq` — the display title of a stored Revision.
* `PageRun.titlesKept` — no run changes a title without an event.
* `indexedTitle_of_restore` — **which title the index shows after a restore.**
-/

namespace PatchouliLib

open Foundation

/-! ### Titles of Pages -/

/-- Events of titles are only added, and a Page without one has kept its title. -/
structure TitlesKept (s t : Store) : Prop where
  events : s.history.titleEvents <+: t.history.titleEvents
  pages : ∀ p ∈ s.content.pages, ∃ q ∈ t.content.pages, q.key = p.key ∧
    ((∀ e ∈ t.history.titleEvents, e.page ≠ p.key) → q.title = p.title)

namespace TitlesKept

variable {s t u : Store}

theorem of_eq (hp : t.content.pages = s.content.pages) (hh : t.history = s.history) :
    TitlesKept s t where
  events := by rw [hh]
  pages p hpage := ⟨p, hp ▸ hpage, rfl, fun _ => rfl⟩

theorem trans (h : TitlesKept s t) (h' : TitlesKept t u) : TitlesKept s u where
  events := h.events.trans h'.events
  pages p hpage := by
    obtain ⟨q, hq, hkey, htitle⟩ := h.pages p hpage
    obtain ⟨r, hr, hkey', htitle'⟩ := h'.pages q hq
    refine ⟨r, hr, hkey'.trans hkey, fun hnone => ?_⟩
    rw [htitle' (hkey ▸ hnone)]
    exact htitle fun e he => hnone e (h'.events.subset he)

/-- A valid change of a Page that is no event of its title keeps the title. -/
theorem of_update {old new : Page} {row : HistoryRow} (hsound : s.PagesSound)
    (hvalid : PageChange.ValidUpdate old new row s) :
    TitlesKept s ((PageChange.update old new row).apply s) where
  events := by
    cases row with
    | title e => exact List.prefix_append _ _
    | revision r => exact List.prefix_rfl
    | correction c => exact List.prefix_rfl
    | lifecycle e => exact List.prefix_rfl
    | move e => exact List.prefix_rfl
  pages p hpage := by
    have hrows : ((PageChange.update old new row).apply s).content.pages =
        s.content.pages.map fun p => if p.key = old.key then new else p := by
      cases row <;> rfl
    rw [hrows]
    refine ⟨_, List.mem_map_of_mem hpage, ?_⟩
    split
    · next heq =>
      obtain rfl := hsound.unique p hpage old hvalid.mem heq
      refine ⟨hvalid.key, fun hnone => ?_⟩
      obtain ⟨-, hstate⟩ := historyStep_ok.mp hvalid.step
      have htitle : (row.apply ⟨p.state, s.sequences p.key⟩).state.title = new.title := by
        rw [hstate]
        rfl
      rw [← htitle]
      cases row with
      | title e => exact absurd hvalid.page (hnone e (List.mem_append_right _ (List.mem_singleton_self e)))
      | revision r => rfl
      | correction c => rfl
      | lifecycle e => rfl
      | move e => rfl
    · exact ⟨rfl, fun _ => rfl⟩

theorem of_advances (hsound : s.PagesSound) (h : Advances s t) : TitlesKept s t := by
  rcases h with hquiet | ⟨u, change, hsu, hvalid, hut⟩
  · exact of_eq hquiet.pages hquiet.history
  · have hbefore : TitlesKept s u := of_eq hsu.pages hsu.history
    have hafter : TitlesKept (change.apply u) t := of_eq hut.pages hut.history
    refine (hbefore.trans ?_).trans hafter
    cases change with
    | create page revision =>
      exact ⟨List.prefix_rfl, fun p hp => ⟨p, List.mem_append_left _ hp, rfl, fun _ => rfl⟩⟩
    | update old new row => exact of_update (hsu.pagesSound hsound) hvalid

end TitlesKept

section

variable [Platform]

theorem Step.titlesKept {db db' : Db} (hsound : db.store.PagesSound) (hstep : Step db db') :
    TitlesKept db.store db'.store := by
  cases hstep with
  | operation op =>
    rcases immediateTransaction_eq_or op.body db with ⟨e, hrun⟩ | ⟨a, c, db', hbody, hstore, -, hrun⟩
    · rw [Operation.commit, hrun]
      exact .of_eq rfl rfl
    · rw [Operation.commit, hrun, hstore]
      exact .of_advances hsound (advances_body op _ _ _ hbody hsound)
  | rebuild createdAt completedAt =>
    unfold rebuildDatabase
    split
    · exact .of_eq rfl rfl
    · exact .of_eq rfl rfl
  | elsewhere body hbody =>
    rcases immediateTransaction_eq_or body db with ⟨e, hrun⟩ | ⟨a, c, db', hbody', hstore, -, hrun⟩
    · rw [hrun]
      exact .of_eq rfl rfl
    · have hsame := hbody _ _ _ hbody'
      rw [hrun, hstore]
      exact .of_eq (by rw [hsame.content]) hsame.history

variable {visited : List Db} {db : Db}

/-- **No run changes a title without an event.** -/
theorem PageRun.titlesKept (h : PageRun visited db) :
    ∀ s ∈ visited, TitlesKept s.store db.store :=
  h.related (R := fun s t => TitlesKept s.store t.store) (fun _ => .of_eq rfl rfl) .trans
    fun hrun hstep => hstep.titlesKept (chronicle_of_run hrun).sound

end

/-! ### Titles of Revisions -/

/-- **The display title of a stored Revision**: the one of its presentation, when it is a
Revision of files. -/
theorem displayTitle?_eq {s : Store} {r : Revision} (hsound : RevisionsSound s)
    (hr : r ∈ s.content.revisions) :
    s.displayTitle? r.key = if r.contentMd = none then
      some (readPresentation r.key.page r.key.revisionId s).displayTitle else none := by
  -- a presentation with the name of the Revision has its key
  have hname : ∀ p ∈ s.content.revisionPresentations, decide (p.key = r.key) =
      decide (p.key.page = r.key.page ∧ p.key.revisionId = r.key.revisionId) := by
    intro p hp
    refine decide_eq_decide.mpr ⟨fun heq => ⟨by rw [heq], by rw [heq]⟩, ?_⟩
    rintro ⟨hpage, hid⟩
    obtain ⟨r', hr', hkey, -⟩ := hsound.ofFiles p hp
    have hsame : r' = r := by
      refine hsound.names.eq_of_key hr' hr ?_
      rw [Revision.name, Revision.name, hkey, hpage, hid]
    rw [← hkey, hsame]
  have hfind := List.find?_congr hname
  rw [Store.displayTitle?, hfind, readPresentation]
  cases hfound : s.content.revisionPresentations.find? fun p =>
      decide (p.key.page = r.key.page ∧ p.key.revisionId = r.key.revisionId) with
  | some p =>
    rw [hfound] at hfind
    have hkey : p.key = r.key := by simpa using List.find?_some hfind
    have hfiles := (hsound.exists_presentation_iff hr).mp ⟨p, List.mem_of_find?_eq_some hfound, hkey⟩
    rw [if_pos hfiles]
    rfl
  | none =>
    rw [hfound] at hfind
    have hlegacy : r.contentMd ≠ none := by
      intro hfiles
      obtain ⟨p, hp, hkey⟩ := hsound.presented r hr hfiles
      have hno := List.find?_eq_none.mp hfind p hp
      exact hno (decide_eq_true hkey)
    rw [if_neg hlegacy]
    rfl

/-- A legacy Revision is shown without an entry file and without a title. -/
theorem readPresentation_of_legacy {s : Store} {r : Revision} (hsound : RevisionsSound s)
    (hr : r ∈ s.content.revisions) (hlegacy : r.contentMd ≠ none) :
    readPresentation r.key.page r.key.revisionId s = ⟨none, untitled⟩ := by
  have hnone : s.content.revisionPresentations.find? (fun p =>
      decide (p.key.page = r.key.page ∧ p.key.revisionId = r.key.revisionId)) = none := by
    refine List.find?_eq_none.mpr fun p hp hmatch => ?_
    obtain ⟨hpage, hid⟩ := of_decide_eq_true hmatch
    obtain ⟨r', hr', hkey, hfiles⟩ := hsound.ofFiles p hp
    have hsame : r' = r := by
      refine hsound.names.eq_of_key hr' hr ?_
      rw [Revision.name, Revision.name, hkey, hpage, hid]
    rw [hsame] at hfiles
    exact hlegacy hfiles
  rw [readPresentation, hnone]

/-! ### The index after a restore -/

/-- The title that the index shows. -/
def ProjectionRows.title (rows : ProjectionRows) : Text := rows.displayTitle.getD rows.page.title

/-- The Revision is the current one of a live Page, and the index shows this title. -/
def IndexedAs (s : Store) (key : RevisionKey) (title : Text) : Prop :=
  ∃ rows, s.projectionRows key.page = some rows ∧ rows.page.currentRevision = key ∧
    rows.title = title

theorem livePage?_eq {s : Store} (hkeys : Keyed Page.key s.content.pages) {page : Page}
    {key : PageKey} (hpage : s.page? key = some page) (hlive : page.deletedAt = none) :
    s.livePage? key = some page := by
  obtain ⟨hmem, hkey⟩ := (page?_eq_some hkeys).mp hpage
  cases hfound : s.livePage? key with
  | none =>
    have hno := List.find?_eq_none.mp hfound page hmem
    exact absurd (decide_eq_true ⟨hkey, hlive⟩) hno
  | some other =>
    obtain ⟨hother, -⟩ : other.key = key ∧ other.deletedAt = none := by
      simpa using List.find?_some hfound
    rw [hkeys.eq_of_key (List.mem_of_find?_eq_some hfound) hmem (hother.trans hkey.symm)]

/-- The row of a Page names a stored Revision. -/
theorem exists_currentRevision {s : Store} (hkeys : DeferredForeignKeys s) {page : Page}
    (hpage : page ∈ s.content.pages) : ∃ r ∈ s.content.revisions, r.key = page.currentRevision := by
  obtain ⟨r, hr, hkey⟩ := List.any_eq_true.mp (hkeys.currentRevision page hpage)
  exact ⟨r, hr, of_decide_eq_true hkey⟩

section

variable [Platform] {visited : List Db} {db s db' : Db} {source : RevisionKey} {changed : Bool}
  {title : Text}

/-- **The title after a restore.**  Without an event of its title a Page is indexed as
it was while the restored Revision was current, when this Revision has a display title of
its own.  A legacy Revision has none: what is restored from it says so itself and is
indexed without a title, unless nothing has changed and the current Revision is a legacy
one too. -/
theorem indexedTitle_of_restore (h : PageRun visited db) (hs : s ∈ visited)
    (hindexed : IndexedAs s.store source title) (hrestore : RestoreOf visited db source changed db')
    (hedits : ∀ e ∈ db'.store.history.titleEvents, e.page ≠ source.page) :
    ∃ rows, db'.store.projectionRows source.page = some rows ∧
      ((s.store.displayTitle? source).isSome = true → rows.title = title) ∧
      (s.store.displayTitle? source = none →
        if rows.displayTitle = none then changed = false ∧ rows.title = title
        else rows.title = untitled) := by
  obtain ⟨p, q, hp, hdone⟩ := hrestore.appended h
  have hrun : PageRun (visited ++ [db']) db' := h.next hrestore.step
  have hkeys := (hrun.identifiersSound db' hrun.mem_visited).keys
  have hsound := hrun.revisionsSound db' hrun.mem_visited
  obtain ⟨rows, hrows, hcurrent, htitle⟩ := hindexed
  obtain ⟨page, hlive, rfl⟩ := Option.map_eq_some_iff.mp hrows
  have hpage : page ∈ s.store.content.pages := List.mem_of_find?_eq_some hlive
  obtain ⟨hpageKey, -⟩ : page.key = source.page ∧ page.deletedAt = none := by
    simpa using List.find?_some hlive
  -- the source is stored since it was current, and it looks the same
  obtain ⟨visited', hthen⟩ := h.exists_of_mem hs
  obtain ⟨r, hr, hrkey⟩ := exists_currentRevision (PageRun.deferredForeignKeys hthen) hpage
  obtain rfl : r.key = source := hrkey.trans hcurrent
  have hkept := h.snapshotsKept s hs
  have hkept' := hkept.trans hdone.kept
  have hthenSound := h.revisionsSound s hs
  -- the Revision that the Page is at now
  obtain ⟨hq, hqkey⟩ := (page?_eq_some hkeys).mp hdone.after
  obtain ⟨r', hr', hrkey'⟩ := exists_currentRevision hrun.deferredForeignKeys hq
  have hrows' : db'.store.projectionRows r.key.page = some
      ⟨q, db'.store.displayTitle? q.currentRevision, db'.store.snapshotRows q.currentRevision⟩ := by
    rw [Store.projectionRows, livePage?_eq hkeys (hp ▸ hdone.after) hdone.live.2]
    rfl
  refine ⟨_, hrows', ?_⟩
  have hshown : readPresentation q.currentRevision.page q.currentRevision.revisionId db'.store =
      readPresentation r.key.page r.key.revisionId s.store := by
    rw [← hkept.presentations r hr]
    exact congrArg Prod.snd hdone.exact
  have hkeptTitle : q.title = page.title := by
    obtain ⟨q', hq', hqkey', hsame⟩ := (hrun.titlesKept s (List.mem_append_left _ hs)).pages page hpage
    have heq : q' = q := hkeys.eq_of_key hq' hq (by rw [hqkey', hqkey, hpageKey, hp])
    rw [← heq]
    exact hsame (hpageKey ▸ hedits)
  have hdisplay := displayTitle?_eq hsound hr'
  rw [hrkey', hshown] at hdisplay
  rw [ProjectionRows.title, ← hrkey, displayTitle?_eq hthenSound hr] at htitle
  rw [ProjectionRows.title, hdisplay, displayTitle?_eq hthenSound hr, hkeptTitle]
  by_cases hfiles : r.contentMd = none
  · -- a legacy Revision never follows one of files
    have hfiles' : r'.contentMd = none := by
      by_contra hlegacy
      have hle : r.key.revisionNumber ≤ r'.key.revisionNumber := by
        obtain ⟨_, _, _, _, hrecorded, -⟩ := (chronicle_of_run hrun).recorded q hq
        rw [hrkey']
        refine hrecorded.current r (List.mem_filter.mpr ⟨hkept'.revisions.subset hr, ?_⟩)
        rw [decide_eq_true_eq, hqkey, hp]
      have hpos := (hthenSound.checks r hr).2.1.1
      have hsome := hsound.legacy_of_le (hkept'.revisions.subset hr) hr'
        (by rw [hrkey', ← hp, ← hqkey]; rfl) hle hpos (Option.isSome_iff_ne_none.mpr hlegacy)
      rw [hfiles] at hsome
      cases hsome
    rw [if_pos hfiles] at htitle ⊢
    rw [if_pos hfiles']
    exact ⟨fun _ => htitle, fun hnone => by cases hnone⟩
  · rw [if_neg hfiles] at htitle ⊢
    refine ⟨fun hsome => (by cases hsome), fun _ => ?_⟩
    by_cases hfiles' : r'.contentMd = none
    · rw [if_pos hfiles', readPresentation_of_legacy hthenSound hr hfiles]
      rfl
    · rw [if_neg hfiles', if_pos rfl]
      refine ⟨?_, htitle⟩
      -- a change would have appended a Revision of files
      by_contra hchanged
      obtain ⟨-, r'', hkey, hnone, hadded⟩ := hdone.next (Bool.eq_true_of_not_eq_false hchanged)
      have hmem : r'' ∈ db'.store.content.revisions := by
        rw [hadded]
        exact List.mem_append_right _ (List.mem_singleton_self r'')
      rw [hsound.keys.eq_of_key hmem hr' (hkey.trans hrkey'.symm)] at hnone
      exact hfiles' hnone

end

section Sample

attribute [local instance] asciiPlatform

/-- The first Revision of the Page. -/
def sampleFirst : RevisionKey := ⟨samplePageKey, "rev_00000000000000000000000000000001", 1⟩

def sampleRestored : Db := (sampleRestore.commit sampleRewritten).2

theorem indexedAs_of_rows {s : Store} {key : RevisionKey} {title : Text}
    (h : (s.projectionRows key.page).map (fun rows => (rows.page.currentRevision, rows.title)) =
      some (key, title)) : IndexedAs s key title := by
  obtain ⟨rows, hrows, hpair⟩ := Option.map_eq_some_iff.mp h
  obtain ⟨hcurrent, htitle⟩ := Prod.mk.inj hpair
  exact ⟨rows, hrows, hcurrent, htitle⟩

theorem sampleIndexed : IndexedAs sampleCreated.store sampleFirst "Notes" :=
  indexedAs_of_rows (by decide +kernel)

theorem sampleRestoreOf :
    RestoreOf [Db.migrated, sampleFounded, sampleCreated, sampleRewritten] sampleRewritten sampleFirst
      true sampleRestored := by
  have hanswer : (sampleRestore.commit sampleRewritten).1.toOption.bind Answer.restore? =
      some (false, true) := by decide +kernel
  have hnamed : ((getPage "lib" samplePageId sampleRewritten.store).toOption.bind id).map (·.key) =
      some samplePageKey := by decide +kernel
  have hsource : IsRevisionOf "lib" samplePageId 1 sampleRewritten.store sampleFirst := by
    refine ⟨rfl, by decide +kernel, ?_⟩
    cases hpage : getPage "lib" samplePageId sampleRewritten.store with
    | error e =>
      rw [hpage] at hnamed
      cases hnamed
    | ok found =>
      rw [hpage] at hnamed
      obtain ⟨page, rfl, hkey⟩ := Option.map_eq_some_iff.mp hnamed
      exact ⟨page, rfl, hkey⟩
  cases hcommit : (sampleRestore.commit sampleRewritten).1 with
  | error e =>
    rw [hcommit] at hanswer
    cases hanswer
  | ok answer =>
    rw [hcommit] at hanswer
    have hrestored : sampleRestore.commit sampleRewritten = (.ok answer, sampleRestored) := by
      rw [sampleRestored, ← hcommit]
    exact .browser sampleSession 0 [4] sampleRestoreRequest ⟨3000, 3000, 3000⟩ sampleRestoreFresh
      answer hsource hrestored hanswer

/-- The Page was called Notes; restored from its first Revision it has no title. -/
theorem indexedTitle_of_sampleRestore :
    ∃ rows, sampleRestored.store.projectionRows samplePageKey = some rows ∧
      rows.displayTitle = some untitled ∧ rows.title = untitled := by
  obtain ⟨rows, hrows, -, hlegacy⟩ := indexedTitle_of_restore sampleRewrittenRun (by simp)
    sampleIndexed sampleRestoreOf (by decide +kernel)
  have hdisplay : (sampleRestored.store.projectionRows samplePageKey).bind (·.displayTitle) =
      some untitled := by decide +kernel
  have hdisplay' : rows.displayTitle = some untitled := by
    have hrows' : sampleRestored.store.projectionRows samplePageKey = some rows := hrows
    rw [hrows'] at hdisplay
    exact hdisplay
  have htitle := hlegacy (by decide +kernel)
  rw [if_neg (by rw [hdisplay']; exact Option.some_ne_none _)] at htitle
  exact ⟨rows, hrows, hdisplay', htitle⟩

/-- So the title after a restore is not always the one from before. -/
theorem not_forall_indexedTitle_of_restore :
    ¬∀ (visited : List Db) (db s db' : Db) (source : RevisionKey) (changed : Bool) (title : Text),
      PageRun visited db → s ∈ visited → IndexedAs s.store source title →
      RestoreOf visited db source changed db' →
      (∀ e ∈ db'.store.history.titleEvents, e.page ≠ source.page) →
      ∃ rows, db'.store.projectionRows source.page = some rows ∧ rows.title = title := by
  intro h
  obtain ⟨rows, hrows, htitle⟩ := h _ _ sampleCreated sampleRestored sampleFirst true "Notes"
    sampleRewrittenRun (by simp) sampleIndexed sampleRestoreOf (by decide +kernel)
  have hrestored : (sampleRestored.store.projectionRows sampleFirst.page).map (·.title) =
      some untitled := by decide +kernel
  rw [hrows, Option.map_some, htitle] at hrestored
  exact absurd hrestored (by decide)

end Sample

end PatchouliLib
