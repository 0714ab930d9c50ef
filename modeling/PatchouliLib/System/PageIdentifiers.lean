import PatchouliLib.Foundation.Table
import PatchouliLib.System.Operations

/-!
# Identifiers over whole runs

Every Page keeps its identifier, no two Pages of a Library share one, the registry
only grows and a collision counter never goes back.  So an identifier that has been
allocated once is never allocated again, whatever has become of its Page.

## Main definitions

* `IdentifiersSound s` — identifiers are unique, registered under their own digest,
  and every counter is past the first ordinal.
* `IdentifiersGrow s t` — what becomes of the identifiers of `s` in `t`.

## Main results

* `identifiersFrame` — every statement of a write lets the identifiers grow.
* `PageRun.identifiers`, `PageRun.identifiersGrow` — so does every run.
* `allocatePageId_of_run` — **an allocated identifier is new, and both services
  allocate the same one.**
-/

namespace PatchouliLib

open Foundation

/-! ### What happens to identifiers -/

/-- The identifier of a Page within the repository. -/
def Page.identifier (p : Page) : Id × Text := (p.key.libraryId, p.pageId)

/-- The same Page under the same identifier. -/
def SameIdentifier (p q : Page) : Prop := q.key = p.key ∧ q.pageId = p.pageId

/-- The same counter, not behind where it was. -/
def PageIdCollisionCounter.Advanced (k k' : PageIdCollisionCounter) : Prop :=
  k'.SameKey k ∧ k.nextOrdinal ≤ k'.nextOrdinal

/-- Keys and identifiers are unique, identifiers are registered under their own
digest and for the Page that has them, and every counter is past the first ordinal. -/
structure IdentifiersSound [Platform] (s : Store) : Prop where
  keys : Keyed Page.key s.content.pages
  pages : Keyed Page.identifier s.content.pages
  digests : ∀ i ∈ s.content.pageIdentifierRegistry,
    pageIdRegistryDigest i.identifierText = .ok i.identifierDigest
  counters : ∀ k ∈ s.content.pageIdCollisionCounters, 1 < k.nextOrdinal
  owners : ∀ i ∈ s.content.pageIdentifierRegistry,
    ∃ p ∈ s.content.pages, p.key = ⟨i.libraryId, i.pageUid⟩ ∧ p.pageId = i.identifierText

/-- Pages keep their identifiers, the registry grows and counters advance. -/
structure IdentifiersGrow [Platform] (s t : Store) : Prop where
  pages : Grows SameIdentifier s.content.pages t.content.pages
  registry : s.content.pageIdentifierRegistry <+: t.content.pageIdentifierRegistry
  counters : Grows PageIdCollisionCounter.Advanced s.content.pageIdCollisionCounters
    t.content.pageIdCollisionCounters
  sound : IdentifiersSound t

/-- The frame on the authority of an open transaction. -/
def IdentifiersGrowOn [Platform] (c c' : Connection) : Prop :=
  IdentifiersSound c.store → IdentifiersGrow c.store c'.store

theorem SameIdentifier.refl (p : Page) : SameIdentifier p p := ⟨rfl, rfl⟩

theorem SameIdentifier.trans {p q r : Page} (h : SameIdentifier p q) (h' : SameIdentifier q r) :
    SameIdentifier p r :=
  ⟨h'.1.trans h.1, h'.2.trans h.2⟩

theorem PageIdCollisionCounter.Advanced.refl (k : PageIdCollisionCounter) : k.Advanced k :=
  ⟨⟨rfl, rfl, rfl⟩, le_rfl⟩

theorem PageIdCollisionCounter.Advanced.trans {k l m : PageIdCollisionCounter}
    (h : k.Advanced l) (h' : l.Advanced m) : k.Advanced m := by
  obtain ⟨⟨hl, ht, hb⟩, hle⟩ := h
  obtain ⟨⟨hl', ht', hb'⟩, hle'⟩ := h'
  exact ⟨⟨hl'.trans hl, ht'.trans ht, hb'.trans hb⟩, hle.trans hle'⟩

section

variable [Platform]

namespace IdentifiersGrow

theorem of_eq {s t : Store} (hp : t.content.pages = s.content.pages)
    (hr : t.content.pageIdentifierRegistry = s.content.pageIdentifierRegistry)
    (hc : t.content.pageIdCollisionCounters = s.content.pageIdCollisionCounters)
    (hs : IdentifiersSound s) : IdentifiersGrow s t where
  pages := by
    rw [hp]
    exact .refl SameIdentifier.refl _
  registry := by rw [hr]
  counters := by
    rw [hc]
    exact .refl PageIdCollisionCounter.Advanced.refl _
  sound := by
    obtain ⟨hkeys, hpages, hdigests, hcounters, howners⟩ := hs
    constructor
    · rwa [hp]
    · rwa [hp]
    · rwa [hr]
    · rwa [hc]
    · rwa [hp, hr]

theorem trans {s t u : Store} (h : IdentifiersGrow s t) (h' : IdentifiersGrow t u) :
    IdentifiersGrow s u where
  pages := h.pages.trans SameIdentifier.trans h'.pages
  registry := h.registry.trans h'.registry
  counters := h.counters.trans PageIdCollisionCounter.Advanced.trans h'.counters
  sound := h'.sound

/-- **The frame rules apply to the growth of identifiers.** -/
theorem isFrame : IsFrame IdentifiersGrowOn where
  refl _ := of_eq rfl rfl rfl
  trans h h' hs := (h hs).trans (h' (h hs).sound)

theorem fileFrame : FileFrame IdentifiersGrowOn where
  toReceiptFrame := .of_receipts isFrame fun _ _ => of_eq rfl rfl rfl
  files _ _ h := of_eq h.pages h.registry h.counters
  marks _ _ := of_eq rfl rfl rfl
  insertAuditEvent a c _ c' h := by
    obtain ⟨-, rfl⟩ := insertAuditEvent_ok.mp h
    exact of_eq rfl rfl rfl
  insertMasterAuditEvent a c _ c' h := by
    obtain ⟨-, rfl⟩ := insertMasterAuditEvent_ok.mp h
    exact of_eq rfl rfl rfl

end IdentifiersGrow

/-! ### The statements -/

omit [Platform] in
theorem identifiersGrow_authenticate (p q : Platform) (tokenValue : Text) (now : ℤ) :
    Keeps (@IdentifiersGrowOn p) (@authenticate q tokenValue now) := by
  have hF := @IdentifiersGrow.isFrame p
  refine hF.bind (hF.query _) fun a => ?_
  split
  · exact hF.bind (.writes fun _ => @IdentifiersGrow.of_eq p _ _ rfl rfl rfl) fun _ => hF.pure _
  · exact hF.pure _

theorem identifiersGrow_insertPageIdentifier (i : PageIdentifier)
    (hdigest : pageIdRegistryDigest i.identifierText = .ok i.identifierDigest) :
    Keeps IdentifiersGrowOn (insertPageIdentifier i) := by
  intro c _ c' h hs
  simp only [insertPageIdentifier, bind_ok, constraint_ok, modifyStore_ok, exists_and_left,
    exists_eq_left', and_assoc, exists_const] at h
  obtain ⟨howner, -, rfl⟩ := h
  refine ⟨.refl SameIdentifier.refl _, List.prefix_append _ _,
    .refl PageIdCollisionCounter.Advanced.refl _, hs.keys, hs.pages, fun j hj => ?_, hs.counters,
    fun j hj => ?_⟩
  · rcases List.mem_append.mp hj with hj | hj
    · exact hs.digests j hj
    · rw [List.mem_singleton.mp hj]
      exact hdigest
  · rcases List.mem_append.mp hj with hj | hj
    · exact hs.owners j hj
    · rw [List.mem_singleton.mp hj]
      exact howner

theorem identifiersGrow_insertPageIdCollisionCounter (counter : PageIdCollisionCounter)
    (hlarge : 1 < counter.nextOrdinal) :
    Keeps IdentifiersGrowOn (insertPageIdCollisionCounter counter) := by
  intro c _ c' h hs
  obtain ⟨-, rfl⟩ := insertPageIdCollisionCounter_ok.mp h
  refine ⟨.refl SameIdentifier.refl _, List.prefix_rfl,
    .append PageIdCollisionCounter.Advanced.refl _ _, hs.keys, hs.pages, hs.digests, fun k hk => ?_,
    hs.owners⟩
  rcases List.mem_append.mp hk with hk | hk
  · exact hs.counters k hk
  · rw [List.mem_singleton.mp hk]
    exact hlarge

theorem identifiersGrow_updatePageIdCollisionCounter (counter : PageIdCollisionCounter)
    (nextOrdinal : ℕ) :
    Keeps IdentifiersGrowOn (updatePageIdCollisionCounter counter nextOrdinal) := by
  intro c matched c' h hs
  rw [updatePageIdCollisionCounter, query_bind] at h
  split at h
  · next hcontains =>
    simp only [bind_ok, constraint_ok, modifyStore_ok, pure_ok, exists_and_left, exists_eq_left',
      and_assoc, exists_const] at h
    obtain ⟨hle, -, rfl⟩ := h
    refine ⟨.refl SameIdentifier.refl _, List.prefix_rfl, .map fun k _ => ?_, hs.keys, hs.pages,
      hs.digests, fun k hk => ?_, hs.owners⟩
    · split
      · next heq =>
        rw [heq]
        exact ⟨⟨rfl, rfl, rfl⟩, hle⟩
      · exact .refl k
    · obtain ⟨k₀, hk₀, rfl⟩ := List.mem_map.mp hk
      split
      · exact (hs.counters counter (List.contains_iff_mem.mp hcontains)).trans_le hle
      · exact hs.counters k₀ hk₀
  · obtain ⟨-, rfl⟩ := pure_ok.mp h
    exact IdentifiersGrow.isFrame.refl c hs

theorem identifiersGrow_insertPage (p : Page) : Keeps IdentifiersGrowOn (insertPage p) := by
  intro c _ c' h hs
  simp only [insertPage, bind_ok, constraint_ok, modifyStore_ok, markDirty_ok, exists_and_left,
    exists_eq_left', and_assoc, exists_const] at h
  obtain ⟨-, -, -, -, hkeys, -, -, rfl⟩ := h
  have hpages : Keyed Page.identifier (c.store.content.pages ++ [p]) :=
    hs.pages.concat fun q hq heq => (hkeys q hq).2 (Prod.mk.inj heq)
  have howners : ∀ i ∈ c.store.content.pageIdentifierRegistry, ∃ q ∈ c.store.content.pages ++ [p],
      q.key = ⟨i.libraryId, i.pageUid⟩ ∧ q.pageId = i.identifierText := by
    intro i hi
    obtain ⟨q, hq, howner⟩ := hs.owners i hi
    exact ⟨q, List.mem_append_left _ hq, howner⟩
  exact ⟨.append SameIdentifier.refl _ _, List.prefix_rfl,
    .refl PageIdCollisionCounter.Advanced.refl _, hs.keys.concat fun q hq => (hkeys q hq).1, hpages,
    hs.digests, hs.counters, howners⟩

theorem identifiersGrow_updatePageWhere (key : PageKey) (p : Page → Prop) [DecidablePred p]
    (set : Page → Page) : Keeps IdentifiersGrowOn (updatePageWhere key p set) := by
  intro c matched c' h hs
  rcases updatePageWhere_ok h with ⟨-, rfl⟩ | ⟨-, old, hold, -, -, hallowed, rfl⟩
  · exact IdentifiersGrow.isFrame.refl c' hs
  · obtain ⟨hkey, hpageId, -⟩ := hallowed.identity
    obtain ⟨hpages, -, -, hregistry, hcounters⟩ := content_afterPageUpdate old (set old) c.store
    -- only the row `old` has its key
    have hsame : ∀ q ∈ c.store.content.pages,
        SameIdentifier q (if q.key = old.key then set old else q) := by
      intro q hq
      split
      · next heq =>
        rw [hs.keys.eq_of_key hq hold heq]
        exact ⟨hkey, hpageId⟩
      · exact .refl q
    refine ⟨?_, ?_, ?_, ?_, ?_, ?_, ?_, ?_⟩
    · rw [hpages]
      exact .map hsame
    · rw [hregistry]
    · rw [hcounters]
      exact .refl PageIdCollisionCounter.Advanced.refl _
    · rw [hpages]
      exact hs.keys.map fun q hq => (hsame q hq).1
    · rw [hpages]
      refine hs.pages.map fun q hq => ?_
      rw [Page.identifier, Page.identifier, (hsame q hq).1, (hsame q hq).2]
    · rw [hregistry]
      exact hs.digests
    · rw [hcounters]
      exact hs.counters
    · rw [hpages, hregistry]
      intro i hi
      obtain ⟨q, hq, hkey, hid⟩ := hs.owners i hi
      refine ⟨_, List.mem_map_of_mem hq, ?_, ?_⟩
      · rw [(hsame q hq).1, hkey]
      · rw [(hsame q hq).2, hid]

/-- **Every statement of a write lets the identifiers grow.** -/
theorem identifiersFrame : StatementFrame IdentifiersGrowOn where
  toContentFrame := IdentifiersGrow.fileFrame.contentFrame (identifiersGrow_authenticate _ _)
    identifiersGrow_insertPageIdentifier identifiersGrow_insertPageIdCollisionCounter
    identifiersGrow_updatePageIdCollisionCounter
  insertPage := identifiersGrow_insertPage
  updatePageWhere key p _ set := identifiersGrow_updatePageWhere key p set
  insertRevision r := by
    have hF := IdentifiersGrow.fileFrame
    refine hF.bind (hF.constraint _) fun _ => hF.bind (hF.constraint _) fun _ => ?_
    refine hF.bind (.writes fun c => .of_eq rfl rfl rfl) fun _ => ?_
    refine hF.bind (hF.keeps_markIfCurrent _) fun _ => ?_
    split
    · refine hF.bind (hF.bind (hF.constraint _) fun _ => ?_) fun _ => hF.keeps_mirrorContentFile _
      exact .writes fun c => .of_eq rfl rfl rfl
    · exact hF.keeps_mirrorContentFile _
  insertOccurrenceCorrectionGuard g := by
    have hF := IdentifiersGrow.isFrame
    refine hF.bind (hF.constraint _) fun _ => hF.bind (hF.constraint _) fun _ => ?_
    refine hF.bind (hF.constraint _) fun _ => hF.bind (hF.constraint _) fun _ => ?_
    exact .writes fun c => .of_eq rfl rfl rfl
  insertLifecycleGuard g := by
    have hF := IdentifiersGrow.isFrame
    refine hF.bind (hF.constraint _) fun _ => hF.bind (hF.constraint _) fun _ => ?_
    refine hF.bind (hF.constraint _) fun _ => hF.bind (hF.constraint _) fun _ => ?_
    exact .writes fun c => .of_eq rfl rfl rfl
  insertMoveGuard g := by
    have hF := IdentifiersGrow.isFrame
    refine hF.bind (hF.constraint _) fun _ => hF.bind (hF.constraint _) fun _ => ?_
    refine hF.bind (hF.constraint _) fun _ => hF.bind (hF.constraint _) fun _ => ?_
    exact hF.bind (hF.constraint _) fun _ => .writes fun c => .of_eq rfl rfl rfl

/-! ### Runs -/

theorem IdentifiersSound.migrated : IdentifiersSound Db.migrated.store where
  keys := .nil _
  pages := .nil _
  digests _ h := absurd h List.not_mem_nil
  counters _ h := absurd h List.not_mem_nil
  owners _ h := absurd h List.not_mem_nil

theorem Step.identifiersGrow {db db' : Db} (hstep : Step db db') (hs : IdentifiersSound db.store) :
    IdentifiersGrow db.store db'.store := by
  have hsame : IdentifiersGrow db.store db.store := .of_eq rfl rfl rfl hs
  cases hstep with
  | operation op =>
    rcases immediateTransaction_eq_or op.body db with ⟨e, hrun⟩ | ⟨a, c, db', hbody, hstore, -, hrun⟩
    · rw [Operation.commit, hrun]
      exact hsame
    · rw [Operation.commit, hrun, hstore]
      exact identifiersFrame.operationFrame.keeps_body op _ _ _ hbody hs
  | rebuild createdAt completedAt =>
    unfold rebuildDatabase
    split
    · exact hsame
    · exact hsame
  | elsewhere body hbody =>
    rcases immediateTransaction_eq_or body db with ⟨e, hrun⟩ | ⟨a, c, db', hbody', hstore, -, hrun⟩
    · rw [hrun]
      exact hsame
    · have hcontent : c.store.content = db.store.content := (hbody _ _ _ hbody').content
      rw [hrun, hstore]
      exact .of_eq (by rw [hcontent]) (by rw [hcontent]) (by rw [hcontent]) hs

variable {visited : List Db} {db : Db}

/-- **The identifiers are sound in every visited state.** -/
theorem PageRun.identifiersSound (h : PageRun visited db) :
    ∀ s ∈ visited, IdentifiersSound s.store := by
  refine h.visited_invariant (P := fun s => IdentifiersSound s.store) ?_ ?_
  · rintro s rfl
    exact .migrated
  · exact fun s t hs hstep => (hstep.identifiersGrow hs).sound

/-- **From every visited state on the identifiers have grown.** -/
theorem PageRun.identifiersGrow (h : PageRun visited db) :
    ∀ s ∈ visited, IdentifiersGrow s.store db.store := by
  intro s hs
  refine h.related (R := fun s t => IdentifiersSound s.store → IdentifiersGrow s.store t.store)
    ?_ ?_ ?_ s hs (h.identifiersSound s hs)
  · exact fun s => .of_eq rfl rfl rfl
  · intro s t u hst htu hs
    exact (hst hs).trans (htu (hst hs).sound)
  · exact fun _ hstep => hstep.identifiersGrow

/-- A visited state shows no Page under an identifier that is not registered. -/
theorem PageRun.pageId_ne_of_isFree (h : PageRun visited db) {libraryId : Id}
    {occurrence : OccurrenceTime} {title : Text} {n : ℕ} {candidate : GeneratedPageId}
    (hfree : IsFree db.store libraryId occurrence title n candidate) :
    (∀ i ∈ db.store.content.pageIdentifierRegistry, i.libraryId = libraryId →
      i.identifierText ≠ candidate.value) ∧
    ∀ s ∈ visited, ∀ p ∈ s.store.content.pages, p.key.libraryId = libraryId →
      p.pageId ≠ candidate.value := by
  obtain ⟨-, hunused⟩ := hfree
  simp only [identifierExists, Fallible.bind_ok, Fallible.pure_ok] at hunused
  obtain ⟨digest, hdigest, hnone⟩ := hunused
  have hregistry : ∀ i ∈ db.store.content.pageIdentifierRegistry, i.libraryId = libraryId →
      i.identifierText ≠ candidate.value := by
    intro i hi hlibrary htext
    have hi' := (h.identifiersSound db h.mem_visited).digests i hi
    rw [htext, hdigest] at hi'
    have hany := List.any_eq_false.mp hnone i hi
    exact hany (decide_eq_true ⟨hlibrary, (Except.ok.inj hi').symm⟩)
  refine ⟨hregistry, fun s hs p hp hlibrary hpageId => ?_⟩
  -- the Page is still there, and so is the registry row of its identifier
  obtain ⟨q, hq, hkey, hq'⟩ := (h.identifiersGrow s hs).pages.exists_of_mem hp
  obtain ⟨i, hi, hilibrary, hitext, -⟩ := h.deferredForeignKeys.identifier q hq
  refine hregistry i hi ?_ ?_
  · rw [hilibrary, hkey, hlibrary]
  · rw [hitext, hq', hpageId]

/-- **An allocated identifier is new.**  Whatever was created, refused, retried or
deleted before, an identifier stays with its Page and with no other, a counter does
not go back, an allocated identifier has never been seen in its Library, and both
services allocate the same one. -/
theorem allocatePageId_of_run (h : PageRun visited db) :
    (∀ s ∈ visited, ∀ p ∈ s.store.content.pages,
      ∃ q ∈ db.store.content.pages, q.key = p.key ∧ q.pageId = p.pageId) ∧
    (∀ s ∈ visited, ∀ t ∈ visited, ∀ p ∈ s.store.content.pages, ∀ q ∈ t.store.content.pages,
      p.key.libraryId = q.key.libraryId → p.pageId = q.pageId → p.key = q.key) ∧
    (∀ s ∈ visited, ∀ k ∈ s.store.content.pageIdCollisionCounters,
      ∃ k' ∈ db.store.content.pageIdCollisionCounters,
        k'.SameKey k ∧ k.nextOrdinal ≤ k'.nextOrdinal) ∧
    ∀ (collisionAttempts : ℕ) (libraryId : Id) (title : Text) (occurredAt : ℤ) (c : Connection),
      c.store.content = db.store.content →
        (ArchiveService.allocatePageId collisionAttempts libraryId title occurredAt c).toOption =
          (FileSetPageCreateCore.allocatePageId collisionAttempts libraryId title occurredAt
            c).toOption ∧
        ∀ (creator : PageCreator) (generated : GeneratedPageId) (c' : Connection),
          creator.allocatePageId collisionAttempts libraryId title occurredAt c =
            .ok (generated, c') →
          (∀ i ∈ db.store.content.pageIdentifierRegistry, i.libraryId = libraryId →
            i.identifierText ≠ generated.value) ∧
          ∀ s ∈ visited, ∀ p ∈ s.store.content.pages, p.key.libraryId = libraryId →
            p.pageId ≠ generated.value := by
  refine ⟨fun s hs p hp => ?_, fun s hs t ht p hp q hq hlibrary hpageId => ?_, fun s hs k hk => ?_,
    fun collisionAttempts libraryId title occurredAt c hc => ⟨?_, ?_⟩⟩
  · exact (h.identifiersGrow s hs).pages.exists_of_mem hp
  · -- both Pages are still there, with one identifier
    obtain ⟨p', hp', hpkey, hppageId⟩ := (h.identifiersGrow s hs).pages.exists_of_mem hp
    obtain ⟨q', hq', hqkey, hqpageId⟩ := (h.identifiersGrow t ht).pages.exists_of_mem hq
    have hsound := (h.identifiersGrow s hs).sound
    have heq : p' = q' := by
      refine hsound.pages.eq_of_key hp' hq' ?_
      rw [Page.identifier, Page.identifier, hpkey, hppageId, hqkey, hqpageId, hlibrary, hpageId]
    rw [← hpkey, ← hqkey, heq]
  · exact (h.identifiersGrow s hs).counters.exists_of_mem hk
  · exact allocatePageId_toOption_eq _ _ _ _ _
  · intro creator generated c' hallocate
    obtain ⟨canonicalUtc, base, n, -, -, -, ⟨hgenerate, hunused⟩, -⟩ := creator.allocatePageId_ok hallocate
    refine h.pageId_ne_of_isFree ⟨hgenerate, ?_⟩
    simpa only [identifierExists, hc] using hunused

end

section Sample

attribute [local instance] asciiPlatform

def sampleSecondNotes : Text := "19700101t000000001z-notes-2"

/-- A second Page of the same title and time gets the next ordinal. -/
theorem allocatePageId_of_sampleRun :
    ∃ generated c', PageCreator.fileSetPageCreateCore.allocatePageId defaultCollisionAttempts "lib"
        "Notes" 1000 ⟨sampleCreated.store, []⟩ = .ok (generated, c') ∧
      generated.value = sampleSecondNotes ∧
      (∀ s ∈ [Db.migrated, sampleFounded, sampleCreated], ∀ p ∈ s.store.content.pages,
        p.key.libraryId = "lib" → p.pageId ≠ generated.value) ∧
      sampleCreated.store.content.pages.map (·.pageId) = [samplePageId] := by
  obtain ⟨-, -, -, hallocation⟩ := allocatePageId_of_run sampleRun
  have hvalue : ((PageCreator.fileSetPageCreateCore.allocatePageId defaultCollisionAttempts "lib"
      "Notes" 1000 ⟨sampleCreated.store, []⟩).toOption.map fun r => r.1.value) =
      some sampleSecondNotes := by decide +kernel
  cases hrun : PageCreator.fileSetPageCreateCore.allocatePageId defaultCollisionAttempts "lib"
      "Notes" 1000 ⟨sampleCreated.store, []⟩ with
  | error e =>
    rw [hrun] at hvalue
    cases hvalue
  | ok r =>
    rw [hrun] at hvalue
    have hcontent : Connection.store ⟨sampleCreated.store, []⟩ = sampleCreated.store := rfl
    have hnew := (hallocation defaultCollisionAttempts "lib" "Notes" 1000
      ⟨sampleCreated.store, []⟩ (congrArg Store.content hcontent)).2 _ r.1 r.2 hrun
    exact ⟨r.1, r.2, rfl, Option.some.inj hvalue, hnew.2, by decide +kernel⟩

end Sample

end PatchouliLib
