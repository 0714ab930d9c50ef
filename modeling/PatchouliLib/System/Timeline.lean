import PatchouliLib.System.Chronicle
import PatchouliLib.System.Operations

/-!
# Timelines of reachable Pages

Every step of the database keeps the chronicle, so the timeline that is read
back from the tables of a Page is, after every run, the list of the states its
row has shown along the way.

## Main results

* `chronicle_of_run` — every run keeps the chronicle.
* `loadPageStateTimeline_of_run` — **the timeline of a Page is what the Page has
  really passed through.**
-/

namespace PatchouliLib

open Foundation

theorem Elsewhere.unmoved {s t : Store} (h : Elsewhere s t) : Unmoved s t where
  books := h.books
  pages := by rw [h.content]
  revisions := by rw [h.content]
  history := h.history
  masterAudits := h.masterAudits
  authAudits := by
    obtain ⟨added, hadded, -⟩ := h.authAudits
    exact ⟨added, hadded.symm⟩

/-- The state that the row of a Page shows. -/
def Db.pageState? (key : PageKey) (db : Db) : Option PageState := db.store.pageState? key

/-- What the Page has shown in the visited databases. -/
def statesShown (key : PageKey) (visited : List Db) : List PageState :=
  shown (Db.pageState? key) visited

theorem chronicle_migrated : Chronicle Db.migrated.store fun _ => [] where
  sound := ⟨fun _ h => absurd h List.not_mem_nil, fun _ h => absurd h List.not_mem_nil⟩
  guards := ⟨rfl, rfl, rfl⟩
  recorded _ h := absurd h List.not_mem_nil
  absent _ _ := ⟨rfl, rfl⟩

section

variable [Platform]

theorem Chronicle.step {db db' : Db} {seen : PageKey → List PageState}
    (h : Chronicle db.store seen) (hstep : Step db db') :
    Chronicle db'.store fun key => extend (seen key) (db'.store.pageState? key) := by
  have hsame : Chronicle db.store fun key => extend (seen key) (db.store.pageState? key) := by
    rw [h.extend_self]
    exact h
  cases hstep with
  | operation op =>
    rcases immediateTransaction_eq_or op.body db with ⟨e, hrun⟩ | ⟨a, c, db', hbody, hstore, -, hrun⟩
    · rw [Operation.commit, hrun]
      exact hsame
    · have hadvances := advances_body op _ _ _ hbody h.sound
      rw [Operation.commit, hrun, hstore]
      exact h.advances hadvances
  | rebuild createdAt completedAt =>
    have hstore : (rebuildDatabase createdAt completedAt db).2.store = db.store := by
      unfold rebuildDatabase
      split <;> rfl
    rw [hstore]
    exact hsame
  | elsewhere body hbody =>
    rcases immediateTransaction_eq_or body db with ⟨e, hrun⟩ | ⟨a, c, db', hbody', hstore, -, hrun⟩
    · rw [hrun]
      exact hsame
    · rw [hrun, hstore]
      have ht := h.unmoved (Elsewhere.unmoved (hbody _ _ _ hbody'))
      rw [ht.extend_self]
      exact ht

/-- **Every run keeps the chronicle.** -/
theorem chronicle_of_run {visited : List Db} {db : Db} (h : PageRun visited db) :
    Chronicle db.store fun key => statesShown key visited := by
  refine h.shown_invariant Db.pageState? (P := fun db seen => Chronicle db.store seen) ?_ ?_
  · rintro s rfl
    exact chronicle_migrated
  · intro s t seen hs hstep
    exact hs.step hstep

/-- **The timeline of a Page is what the Page has really passed through**, and it
ends in the stored row. -/
theorem loadPageStateTimeline_of_run {visited : List Db} {db : Db} (h : PageRun visited db)
    {key : PageKey} {page : Page} (hpage : db.store.page? key = some page) :
    loadPageStateTimeline key db.store = .ok ⟨key, page.pageId, statesShown key visited⟩ ∧
      (statesShown key visited).getLast? = some page.state := by
  have hchronicle := chronicle_of_run h
  obtain ⟨hmem, rfl⟩ := mem_of_page? hpage
  obtain ⟨first, init, log, loops, hrecorded, hseen⟩ := hchronicle.recorded page hmem
  refine ⟨?_, hchronicle.getLast? hmem⟩
  rw [← hseen]
  exact hrecorded.timeline hchronicle.sound hchronicle.guards hmem

end

section Sample

attribute [local instance] asciiPlatform

/-- The agent corrects the declared time while the clock lags behind. -/
def sampleCorrect : Operation :=
  .correctArchiveOccurrence sampleToken
    { libraryId := "lib", sectionId := "sec", pageId := samplePageId
      expectedEtag := (sampleCreated.store.page? samplePageKey).elim [] fun page =>
        (page.etag.toOption).getD []
      occurredAt := 5, requestId := "correct" }
    [2] 400 { auditId := "audit-2" }

def sampleCorrected : Db := (sampleCorrect.commit sampleCreated).2

theorem sampleCorrectedRun :
    PageRun [Db.migrated, sampleFounded, sampleCreated, sampleCorrected] sampleCorrected :=
  sampleRun.next (.operation sampleCorrect _)

/-- Two states are read back after a correction that ran before its time. -/
theorem loadPageStateTimeline_sampleCorrected :
    ∃ page : Page, loadPageStateTimeline samplePageKey sampleCorrected.store =
        .ok ⟨samplePageKey, page.pageId, statesShown samplePageKey
          [Db.migrated, sampleFounded, sampleCreated, sampleCorrected]⟩ ∧
      (statesShown samplePageKey
        [Db.migrated, sampleFounded, sampleCreated, sampleCorrected]).map
          (fun state => (state.updatedAt, state.occurredAt)) = [(1000, 1000), (1001, 5)] := by
  have hsome : (sampleCorrected.store.page? samplePageKey).isSome = true := by decide +kernel
  obtain ⟨page, hpage⟩ := Option.isSome_iff_exists.mp hsome
  exact ⟨page, (loadPageStateTimeline_of_run sampleCorrectedRun hpage).1, by decide +kernel⟩

end Sample

end PatchouliLib
