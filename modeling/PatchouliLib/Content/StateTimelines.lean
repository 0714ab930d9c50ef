import PatchouliLib.Content.PageMembershipHistory
import PatchouliLib.Foundation.Sha256
import PatchouliLib.Foundation.Table

/-!
# What a timeline proves

The loader reads whatever rows are stored, also in the formats that had no title
or move events yet.  What it accepts is a chain of single changes: every row moves
the clock forward and replaces one group of fields, and the chain ends in the
Page row.  So a time or an ETag tells at most one state.

## Main definitions

* `loadPageStateTimelineAt` — the timeline under a schema revision.
* `PageState.group`, `PageState.ChangedOnly` — the fields that one kind of event is
  about, and two states that differ in them alone.

## Main results

* `HistoryRow.changedOnly_of_follows` — a row that is accepted changes its own group.
* `loadPageStateTimelineAt_ok` — what has been read when the loader accepts.
* `PageStateTimeline.exactState_ok`, `PageStateTimeline.matchActiveEtag_ok` — the
  states that are found.
* `acceptedTimeline_sound` — **every accepted log is a chain of single changes that
  ends in the stored row.**
-/

namespace PatchouliLib

open Foundation

/-! ### Schema revisions -/

def pageMoveRevision : Text := "20261001_0028"
def callerMoveRevision : Text := "20261002_0029"
def libraryLifecycleRevision : Text := "20261003_0030"
def optionalExpiryRevision : Text := "20261018_0031"
def libraryScopesRevision : Text := "20261019_0032"
def onboardingTicketsRevision : Text := "20261019_0033"
def libraryGuidesRevision : Text := "20261020_0034"
def workspaceRevisions : List Text := ["20261020_0035", "20261020_0036", "20261020_0037"]

def callerMoveRevisions : List Text :=
  callerMoveRevision :: libraryLifecycleRevision :: optionalExpiryRevision ::
    libraryScopesRevision :: onboardingTicketsRevision :: libraryGuidesRevision ::
    workspaceRevisions

def moveRevisions : List Text := pageMoveRevision :: callerMoveRevisions

def titleRevisions : List Text :=
  "20260930_0022" :: "20260930_0023" :: "20260930_0024" :: "20261001_0025" :: "20261001_0026" ::
    "20261001_0027" :: pageMoveRevision :: callerMoveRevision :: libraryLifecycleRevision ::
    optionalExpiryRevision :: libraryScopesRevision :: onboardingTicketsRevision ::
    libraryGuidesRevision :: workspaceRevisions

/-- The stored rows that a schema revision knows about. -/
def Store.historyAt (schemaRevision : Text) (s : Store) (key : PageKey) : HistoryTablesOf :=
  let h := s.historyOf key
  { h with
    titles := if schemaRevision ∈ titleRevisions then h.titles else []
    moves := if schemaRevision ∈ moveRevisions then h.moves else [] }

/-- No change of the Page is half done in the tables of the schema revision. -/
def Store.noGuardsAt (schemaRevision : Text) (s : Store) (key : PageKey) : Bool :=
  !s.history.occurrenceCorrectionGuards.any (·.page = key) &&
    !s.history.lifecycleGuards.any (·.page = key) &&
    (schemaRevision ∉ moveRevisions || !s.history.moveGuards.any (·.page = key))

/-- The audit row behind a move.  The column for a caller's one is read as NULL by a
schema revision that does not have it. -/
def Store.auditsMoveAt (schemaRevision : Text) (s : Store) (key : PageKey) (pageId : Text)
    (e : PageMoveEvent) : Bool :=
  match e.audit with
  | .master _ => s.auditsMove e.audit key pageId e.changedAt
  | .caller _ =>
    schemaRevision ∈ callerMoveRevisions && s.auditsMove e.audit key pageId e.changedAt

/-- Validate every mutation and final state under a schema revision. -/
def loadPageStateTimelineAt (schemaRevision : Text) (key : PageKey) (s : Store) :
    Except Err PageStateTimeline := do
  let page ← Fallible.get (s.page? key) .pageMembershipHistory
  let h := s.historyAt schemaRevision key
  let first ← Fallible.get h.revisions.head? .pageMembershipHistory
  Fallible.check (first.key.revisionNumber = 1 ∧ first.createdAt = page.createdAt)
    .pageMembershipHistory
  Fallible.check (s.noGuardsAt schemaRevision key = true) .pageMembershipHistory
  let loops ← replay (historyStep (s.auditsMoveAt schemaRevision key page.pageId))
    { state := h.initialState page first } h.operations
  let states := loops.map (·.state)
  Fallible.check (states.getLast? = some page.state) .pageMembershipHistory
  Fallible.check (∀ state ∈ states, s.hasBook key.libraryId state.sectionId state.bookId)
    .pageMembershipHistory
  pure ⟨key, page.pageId, states⟩

/-- The newest schema revision knows all tables. -/
theorem loadPageStateTimelineAt_workspace {schemaRevision : Text}
    (h : schemaRevision ∈ workspaceRevisions) (key : PageKey) (s : Store) :
    loadPageStateTimelineAt schemaRevision key s = loadPageStateTimeline key s := by
  have hcaller : schemaRevision ∈ callerMoveRevisions := by simp [callerMoveRevisions, h]
  have hmove : schemaRevision ∈ moveRevisions := List.mem_cons_of_mem _ hcaller
  have htitle : schemaRevision ∈ titleRevisions := by simp [titleRevisions, h]
  have hhistory : s.historyAt schemaRevision key = s.historyOf key := by
    simp only [Store.historyAt, if_pos htitle, if_pos hmove]
  have hguards : s.noGuardsAt schemaRevision key = s.noGuards key := by
    simp [Store.noGuardsAt, Store.noGuards, hmove]
  have haudits (pageId : Text) : s.auditsMoveAt schemaRevision key pageId =
      fun e => s.auditsMove e.audit key pageId e.changedAt := by
    funext e
    cases haudit : e.audit <;> simp [Store.auditsMoveAt, haudit, hcaller]
  simp only [loadPageStateTimelineAt, loadPageStateTimeline, hhistory, hguards, haudits]

/-! ### Single changes -/

/-- The fields that one kind of event is about. -/
inductive FieldGroup where
  | revision (revisionId : Text) (revisionNumber : ℕ)
  | correction (occurredAt : ℤ)
  | lifecycle (deletedAt : Option ℤ)
  | title (title : Text)
  | move (sectionId bookId : Id)
deriving DecidableEq

namespace PageState

def group (state : PageState) : HistoryKind → FieldGroup
  | .revision => .revision state.revisionId state.revisionNumber
  | .correction => .correction state.occurredAt
  | .lifecycle => .lifecycle state.deletedAt
  | .title => .title state.title
  | .move => .move state.sectionId state.bookId

/-- Two states differ in their time and in exactly this group of fields. -/
structure ChangedOnly (kind : HistoryKind) (a b : PageState) : Prop where
  later : a.updatedAt < b.updatedAt
  changed : b.group kind ≠ a.group kind
  others : ∀ k, k ≠ kind → b.group k = a.group k

/-- Only one kind of event leads from one state to another. -/
theorem ChangedOnly.kind_eq {k k' : HistoryKind} {a b : PageState} (h : ChangedOnly k a b)
    (h' : ChangedOnly k' a b) : k = k' := by
  by_contra hne
  exact h.changed (h'.others k hne)

end PageState

/-- **A row that is accepted changes its own group of fields and the time.** -/
theorem HistoryRow.changedOnly_of_follows {auditsMove : PageMoveEvent → Bool} {loop : HistoryLoop}
    {row : HistoryRow} (h : row.Follows auditsMove loop) :
    loop.state.ChangedOnly row.kind (row.apply loop).state := by
  obtain ⟨hclock, hrow⟩ := h
  cases row with
  | revision r =>
    obtain ⟨-, hnumber⟩ := hrow
    refine ⟨hclock, fun heq => ?_, fun k hk => ?_⟩
    · have hsame : r.key.revisionNumber = loop.state.revisionNumber := by
        injection heq
      omega
    · cases k <;> first | rfl | exact absurd rfl hk
  | correction c =>
    obtain ⟨-, -, -, -, hnew⟩ := hrow
    refine ⟨hclock, fun heq => ?_, fun k hk => ?_⟩
    · injection heq with hsame
      exact hnew hsame
    · cases k <;> first | rfl | exact absurd rfl hk
  | lifecycle e =>
    obtain ⟨-, -, -, -, -, -, haction⟩ := hrow
    refine ⟨hclock, fun heq => ?_, fun k hk => ?_⟩
    · injection heq with hsame
      change (if e.action = .delete then some e.changedAt else none) = _ at hsame
      by_cases hdelete : e.action = .delete
      · rw [if_pos hdelete, haction.mp hdelete] at hsame
        cases hsame
      · rw [if_neg hdelete] at hsame
        exact hdelete (haction.mpr hsame.symm)
    · cases k <;> first | rfl | exact absurd rfl hk
  | title e =>
    obtain ⟨-, -, -, -, -, hnew⟩ := hrow
    refine ⟨hclock, fun heq => ?_, fun k hk => ?_⟩
    · injection heq with hsame
      exact hnew hsame
    · cases k <;> first | rfl | exact absurd rfl hk
  | move e =>
    obtain ⟨-, -, -, -, -, hnew, -⟩ := hrow
    refine ⟨hclock, fun heq => ?_, fun k hk => ?_⟩
    · injection heq with hsection hbook
      exact hnew (Prod.ext hsection hbook)
    · cases k <;> first | rfl | exact absurd rfl hk

/-- The states of a replayed log are a chain of single changes. -/
theorem isChain_of_replay {auditsMove : PageMoveEvent → Bool} {loop : HistoryLoop}
    {rows : List HistoryRow} {loops : List HistoryLoop}
    (h : replay (historyStep auditsMove) loop rows = .ok loops) :
    (loops.map (·.state)).IsChain fun a b => ∃ kind, a.ChangedOnly kind b := by
  induction rows generalizing loop loops with
  | nil =>
    cases h
    exact List.IsChain.singleton _
  | cons row rows ih =>
    obtain ⟨next, rest, hstep, hrest, rfl⟩ := replay_cons_ok.mp h
    obtain ⟨hfollows, rfl⟩ := historyStep_ok.mp hstep
    have hhead := head?_of_replay hrest
    cases rest with
    | nil => cases hhead
    | cons first rest =>
      obtain rfl : first = row.apply loop := Option.some.inj hhead
      exact List.IsChain.cons_cons ⟨row.kind, HistoryRow.changedOnly_of_follows hfollows⟩ (ih hrest)

/-! ### Accepted logs -/

/-- What has been read when the loader accepts. -/
theorem loadPageStateTimelineAt_ok {schemaRevision : Text} {key : PageKey} {s : Store}
    {t : PageStateTimeline} (h : loadPageStateTimelineAt schemaRevision key s = .ok t) :
    ∃ page, s.page? key = some page ∧ t.page = key ∧ t.pageId = page.pageId ∧
      t.states.getLast? = some page.state ∧
      t.states.IsChain (fun a b => ∃ kind, a.ChangedOnly kind b) ∧
      ∀ state ∈ t.states, s.hasBook key.libraryId state.sectionId state.bookId = true := by
  simp only [loadPageStateTimelineAt, Fallible.bind_ok, Fallible.get_ok, Fallible.check_ok,
    Fallible.pure_ok, exists_and_left, exists_const] at h
  obtain ⟨page, hpage, first, -, -, -, loops, hloops, hlast, hbooks, rfl⟩ := h
  exact ⟨page, hpage, rfl, rfl, hlast, isChain_of_replay hloops, hbooks⟩

/-- The times of a chain of changes are ordered throughout. -/
theorem updatedAt_sorted {states : List PageState}
    (h : states.IsChain fun a b => ∃ kind, a.ChangedOnly kind b) :
    states.Pairwise fun a b => a.updatedAt < b.updatedAt := by
  have : IsTrans PageState fun a b => a.updatedAt < b.updatedAt := ⟨fun _ _ _ => lt_trans⟩
  refine (h.imp ?_).pairwise
  rintro a b ⟨kind, hchanged⟩
  exact hchanged.later

/-- A time tells the state. -/
theorem keyed_updatedAt {states : List PageState}
    (h : states.Pairwise fun a b => a.updatedAt < b.updatedAt) :
    Keyed PageState.updatedAt states := by
  rw [Keyed, List.Nodup, List.pairwise_map]
  exact h.imp fun hlt => hlt.ne

/-! ### Finding a state -/

theorem exactlyOne_ok {α : Type} {xs : List α} {a : α} : exactlyOne xs = .ok a ↔ xs = [a] := by
  constructor
  · intro h
    match xs, h with
    | [b], h => rw [Except.ok.inj h]
  · rintro rfl
    rfl

namespace PageStateTimeline

/-- The state with a time is found when there is one. -/
theorem exactState_ok {t : PageStateTimeline} (hkeyed : Keyed PageState.updatedAt t.states)
    {updatedAt : ℤ} {state : PageState} : t.exactState updatedAt = .ok state ↔
      state ∈ t.states ∧ state.updatedAt = updatedAt := by
  rw [exactState, exactlyOne_ok]
  constructor
  · intro h
    have hmem : state ∈ t.states.filter (·.updatedAt = updatedAt) := by
      rw [h]
      exact List.mem_singleton_self _
    simpa using List.mem_filter.mp hmem
  · rintro ⟨hmem, rfl⟩
    refine hkeyed.filter_eq_singleton hmem (decide_eq_true rfl) fun b hb hsame => ?_
    exact hkeyed.eq_of_key hb hmem (by simpa using hsame)

section

variable [Platform]

/-- The state answers a request for this Revision, ETag and membership. -/
def Answers (t : PageStateTimeline) (revisionId : Text) (revisionNumber : ℕ) (etag : Text)
    (sectionId : Id) (bookId : Option Id) (state : PageState) : Prop :=
  state ∈ t.states ∧ state.deletedAt = none ∧ state.revisionId = revisionId ∧
    state.revisionNumber = revisionNumber ∧ state.sectionId = sectionId ∧
    (∀ b ∈ bookId, state.bookId = b) ∧ state.etag t.page.pageUid = .ok etag

/-- The state that is found is the only one that answers the request. -/
theorem matchActiveEtag_ok {t : PageStateTimeline} {revisionId : Text} {revisionNumber : ℕ}
    {etag : Text} {sectionId : Id} {bookId : Option Id} {state : PageState}
    (h : t.matchActiveEtag revisionId revisionNumber etag sectionId bookId = .ok state) :
    ∀ other, t.Answers revisionId revisionNumber etag sectionId bookId other ↔ other = state := by
  simp only [matchActiveEtag, Fallible.bind_ok, exactlyOne_ok] at h
  obtain ⟨tagged, htagged, hone⟩ := h
  have hmem (pair : PageState × Text) := Fallible.mem_of_mapM htagged (y := pair)
  intro other
  have hselected : other ∈ (tagged.filter fun pair => pair.2 = etag).map (·.1) ↔
      t.Answers revisionId revisionNumber etag sectionId bookId other := by
    simp only [List.mem_map, List.mem_filter, hmem, decide_eq_true_eq, Fallible.bind_ok,
      Fallible.pure_ok]
    constructor
    · rintro ⟨pair, ⟨⟨candidate, ⟨hstates, hclaim⟩, current, hcurrent, rfl⟩, rfl⟩, rfl⟩
      obtain ⟨hdeleted, hid, hnumber, hsection, hbook⟩ := hclaim
      exact ⟨hstates, hdeleted, hid, hnumber, hsection, hbook, hcurrent⟩
    · rintro ⟨hstates, hdeleted, hid, hnumber, hsection, hbook, hcurrent⟩
      exact ⟨(other, etag), ⟨⟨other, ⟨hstates, hdeleted, hid, hnumber, hsection, hbook⟩, etag,
        hcurrent, rfl⟩, rfl⟩, rfl⟩
  rw [← hselected, hone, List.mem_singleton]

end

end PageStateTimeline

/-! ### ETags -/

section

variable [Platform]

/-- The digested bytes of a state. -/
def PageState.etagSource (state : PageState) (pageUid : Bytes) : Bytes :=
  pageEtagInput pageUid state.revisionId state.revisionNumber state.occurredAt state.updatedAt

omit [Platform] in
theorem pageEtagInput_inj_updatedAt {pageUid pageUid' : Bytes} {revisionId revisionId' : Text}
    {revisionNumber revisionNumber' : ℕ} {occurredAt occurredAt' updatedAt updatedAt' : ℤ}
    (hu : 0 ≤ updatedAt ∧ updatedAt ≤ 2 ^ 63 - 1) (hu' : 0 ≤ updatedAt' ∧ updatedAt' ≤ 2 ^ 63 - 1)
    (h : pageEtagInput pageUid revisionId revisionNumber occurredAt updatedAt =
      pageEtagInput pageUid' revisionId' revisionNumber' occurredAt' updatedAt') :
    updatedAt = updatedAt' := by
  -- the time stands at the end in eight bytes
  have hlast := (List.append_inj' h (by simp)).2
  have hnat := bigEndian_inj (by omega) (by omega) hlast
  omega

theorem PageState.etag_ok {state : PageState} {pageUid : Bytes} {etag : Text}
    (h : state.etag pageUid = .ok etag) : (0 ≤ state.updatedAt ∧ state.updatedAt ≤ 2 ^ 63 - 1) ∧
      '"' :: ("page-v2-" : Text) ++ hex (sha256 (state.etagSource pageUid)) ++ ['"'] = etag := by
  simp only [PageState.etag, pageCurrentEtag, Fallible.bind_ok, Fallible.check_ok,
    Fallible.pure_ok, exists_and_left, exists_const] at h
  obtain ⟨uid, huid, id, hid, -, ⟨-, hrange⟩, rfl⟩ := h
  have huid : pageUid = uid := by
    unfold validatePageUid at huid
    split at huid
    · exact Except.ok.inj huid
    · cases huid
  have hid : state.revisionId = id := by
    unfold validateRevisionId at hid
    split at hid
    · exact Except.ok.inj hid
    · cases hid
  rw [← huid, ← hid]
  exact ⟨hrange, rfl⟩

/-- An ETag tells the time of its state. -/
theorem PageState.updatedAt_eq_of_etag {a b : PageState} {pageUid : Bytes} {etag : Text}
    (ha : a.etag pageUid = .ok etag) (hb : b.etag pageUid = .ok etag)
    (hinj : Set.InjOn sha256 {a.etagSource pageUid, b.etagSource pageUid}) :
    a.updatedAt = b.updatedAt := by
  obtain ⟨hrange, htext⟩ := PageState.etag_ok ha
  obtain ⟨hrange', htext'⟩ := PageState.etag_ok hb
  have hhex := List.append_cancel_left (List.append_cancel_right (htext.trans htext'.symm))
  have hsource := hinj (Set.mem_insert _ _) (Set.mem_insert_of_mem _ rfl) (hex_injective hhex)
  exact pageEtagInput_inj_updatedAt hrange hrange' hsource

/-- **Every accepted log is a chain of single changes that ends in the stored row**,
whatever rows were stored: the times strictly increase, every state differs from the one
before in its time and in the fields of one kind of event, exactly the times of the
timeline are found, and an ETag tells at most one state. -/
theorem acceptedTimeline_sound {schemaRevision : Text} {key : PageKey} {s : Store}
    {t : PageStateTimeline} (h : loadPageStateTimelineAt schemaRevision key s = .ok t) :
    t.states.Pairwise (fun a b => a.updatedAt < b.updatedAt) ∧
    (∃ page, s.page? key = some page ∧ t.states.getLast? = some page.state) ∧
    t.states.IsChain (fun a b => ∃! kind, a.ChangedOnly kind b) ∧
    (∀ updatedAt, (∃ state, t.exactState updatedAt = .ok state) ↔
      updatedAt ∈ t.states.map PageState.updatedAt) ∧
    (∀ updatedAt state, t.exactState updatedAt = .ok state →
      state ∈ t.states ∧ state.updatedAt = updatedAt) ∧
    (∀ revisionId revisionNumber etag sectionId bookId state,
      t.matchActiveEtag revisionId revisionNumber etag sectionId bookId = .ok state →
      ∀ other, t.Answers revisionId revisionNumber etag sectionId bookId other ↔ other = state) ∧
    (∀ etag a b revisionId revisionNumber sectionId bookId
      revisionId' revisionNumber' sectionId' bookId',
      t.matchActiveEtag revisionId revisionNumber etag sectionId bookId = .ok a →
      t.matchActiveEtag revisionId' revisionNumber' etag sectionId' bookId' = .ok b →
      Set.InjOn sha256 {a.etagSource key.pageUid, b.etagSource key.pageUid} → a = b) := by
  obtain ⟨page, hpage, rfl, -, hlast, hchain, -⟩ := loadPageStateTimelineAt_ok h
  have hsorted := updatedAt_sorted hchain
  have hkeyed := keyed_updatedAt hsorted
  refine ⟨hsorted, ⟨page, hpage, hlast⟩, ?_, ?_, ?_, ?_, ?_⟩
  · refine hchain.imp ?_
    rintro a b ⟨kind, hchanged⟩
    exact ⟨kind, hchanged, fun kind' hchanged' => hchanged'.kind_eq hchanged⟩
  · intro updatedAt
    simp only [PageStateTimeline.exactState_ok hkeyed, List.mem_map]
  · exact fun updatedAt state hstate => (PageStateTimeline.exactState_ok hkeyed).mp hstate
  · exact fun _ _ _ _ _ state hstate => PageStateTimeline.matchActiveEtag_ok hstate
  · intro etag a b _ _ _ _ _ _ _ _ ha hb hinj
    obtain ⟨hmem, -, -, -, -, -, hetag⟩ := (PageStateTimeline.matchActiveEtag_ok ha a).mpr rfl
    obtain ⟨hmem', -, -, -, -, -, hetag'⟩ := (PageStateTimeline.matchActiveEtag_ok hb b).mpr rfl
    exact hkeyed.eq_of_key hmem hmem' (PageState.updatedAt_eq_of_etag hetag hetag' hinj)

end

section Sample

attribute [local instance] shaPlatform

def sampleTitledKey : PageKey := ⟨"lib", List.replicate 16 7⟩

/-- Rows of a renamed Page that no transaction has written. -/
def sampleTitledStore : Store where
  library := { books := [⟨"book", "lib", "sec", "Notes"⟩] }
  content :=
    { pages := [{ key := sampleTitledKey, sectionId := "sec", bookId := "book", pageId := "notes"
                  idTimestampMicros := 10, baseSlug := "notes", collisionOrdinal := 1
                  title := "New", pageType := "note", occurredAt := 5
                  currentRevisionId := "rev_00000000000000000000000000000001"
                  currentRevisionNumber := 1, createdAt := 10, updatedAt := 20
                  deletedAt := none }]
      revisions := [⟨⟨sampleTitledKey, "rev_00000000000000000000000000000001", 1⟩, none, none, none,
        10⟩] }
  history := { titleEvents := [⟨sampleTitledKey, 1, "Old", "New", 10, 20, 1, "audit"⟩] }

def sampleTitledStates : List PageState :=
  [⟨10, "rev_00000000000000000000000000000001", 1, 5, "Old", none, "sec", "book"⟩,
    ⟨20, "rev_00000000000000000000000000000001", 1, 5, "New", none, "sec", "book"⟩]

/-- The two titles are two states, and the first one is found by its time. -/
theorem acceptedTimeline_sound_sample :
    (∃ kind, PageState.ChangedOnly kind
      ⟨10, "rev_00000000000000000000000000000001", 1, 5, "Old", none, "sec", "book"⟩
      ⟨20, "rev_00000000000000000000000000000001", 1, 5, "New", none, "sec", "book"⟩) ∧
      ∃ state, (⟨sampleTitledKey, "notes", sampleTitledStates⟩ : PageStateTimeline).exactState 10 =
        .ok state := by
  have hload : loadPageStateTimelineAt "20261020_0037" sampleTitledKey sampleTitledStore =
      .ok ⟨sampleTitledKey, "notes", sampleTitledStates⟩ := by decide +kernel
  obtain ⟨-, -, hchain, htimes, -⟩ := acceptedTimeline_sound hload
  obtain ⟨kind, hchanged, -⟩ := (List.isChain_cons_cons.mp hchain).1
  exact ⟨⟨kind, hchanged⟩, (htimes 10).mpr (by decide)⟩

end Sample

end PatchouliLib
