import PatchouliLib.Auth.Repository
import PatchouliLib.Foundation.Unordered
import PatchouliLib.Retrieval.FileSetRead

/-!
# The Revision history of a Page

The history is read in windows, newest Revision first.  A window asks for one row more
than it shows, and every row it reads must be the next lower number and be complete, so
a window that is answered has no gap, and neither has the step to the next one.

## Main definitions

* `visiblePage` — the Page, when the caller may read it.
* `historyRows`, `historyItems` — the rows of a window and the loop over them.
* `listRevisions` — one window of the history.
* `Iterates` — one window after another, as long as there is a next boundary.

## Main results

* `historyItems_ok` — the loop has read consecutive numbers of complete Revisions.
* `revisionWindow_ok` — **a window that is answered is contiguous.**
* `Iterates.numbers` — **the windows show every number once.**
* `listRevisions_complete` — the same of the call as a whole.
-/

namespace PatchouliLib

open Foundation

/-! ### Visible Pages -/

/-- The supplied identity as it is stored now, when it is an active agent. -/
def requireCurrentAgent (supplied : AuthenticatedCaller) (now : ℤ) (s : Store) :
    Except Err Caller := do
  Fallible.check (supplied.caller.kind = .agent ∧
    supplied.credential.libraryId = supplied.caller.libraryId ∧
    supplied.credential.callerId = supplied.caller.id) .authorization
  let current ← Fallible.get (getCaller supplied.caller.libraryId supplied.caller.id s)
    .authentication
  let credential ← Fallible.get (getCredential supplied.key s) .authentication
  Fallible.check (current.kind = .agent ∧ current.disabledAt = none ∧ credential.IsActive now)
    .authentication
  pure current

def sectionActions (libraryId callerId sectionId : Id) (s : Store) : List SectionAction :=
  (s.auth.sectionGrants.filter fun g =>
    g.libraryId = libraryId ∧ g.callerId = callerId ∧ g.sectionId = sectionId).map (·.action)

/-- The live Page of a public identifier in a Section. -/
def getSectionPage [Platform] (libraryId sectionId : Id) (identifierText : Text) (s : Store) :
    Except Err (Option Page) := do
  let digest ← pageIdRegistryDigest identifierText
  let found := s.content.pageIdentifierRegistry.find? fun i =>
    i.libraryId = libraryId ∧ i.identifierDigest = digest ∧ i.identifierText = identifierText
  let page := (found.bind fun i => s.page? ⟨i.libraryId, i.pageUid⟩).filter fun p =>
    p.sectionId = sectionId ∧ p.deletedAt = none
  match page with
  | none => pure none
  | some p => do
    let p ← p.validateRecord
    pure (some p)

/-- The Page, when the caller may read its files. -/
def visiblePage [Platform] (supplied : AuthenticatedCaller) (libraryId sectionId : Id) (pageId : Text)
    (now : ℤ) (s : Store) : Except Err Page := do
  let caller ← requireCurrentAgent supplied now s
  let policy ← resolveLibraryPolicy supplied.key libraryId now s
  let policy ← Fallible.get policy .authentication
  match policy with
  | .legacySection => do
    Fallible.check (libraryId = caller.libraryId) .fileSetReadNotFound
    let actions := sectionActions libraryId caller.id sectionId s
    Fallible.check (actions ≠ []) .fileSetReadNotFound
    Fallible.check (SectionAction.pageRead ∈ actions) .authorization
  | .libraryGrants read _ => Fallible.check (read = true) .fileSetReadNotFound
  let _ ← validatePageId pageId
  let page ← getSectionPage libraryId sectionId pageId s
  Fallible.get page .fileSetReadNotFound

/-! ### Windows -/

def maxPageLimit : ℕ := 100

structure RevisionHistoryItem where
  revisionId : Text
  revisionNumber : ℕ
  createdAt : Text
deriving DecidableEq, Repr

structure RevisionHistoryPage where
  pageId : Text
  currentRevisionId : Text
  currentRevisionNumber : ℕ
  items : List RevisionHistoryItem
  nextBeforeRevisionNumber : Option ℕ
deriving DecidableEq, Repr

/-- The Revision has a known format, a seal and the guard of its seal. -/
def Store.IsComplete (s : Store) (r : Revision) : Prop :=
  (∃ m ∈ s.content.revisionFileSets, m.key = r.key) ∧ r.key ∈ s.content.revisionFileSeals ∧
    r.key ∈ s.content.revisionFileSealGuards

instance (s : Store) (r : Revision) : Decidable (s.IsComplete r) := by
  unfold Store.IsComplete
  infer_instance

/-- The first `limit + 1` Revisions up to the current one and below the boundary, newest
first. -/
def historyRows (page : Page) (limit : ℕ) (before : Option ℕ) (s : Store) : List Revision :=
  ((s.content.revisions.filter fun r =>
      r.key.page = page.key ∧ r.key.revisionNumber ≤ page.currentRevisionNumber ∧
        ∀ b ∈ before, r.key.revisionNumber < b).insertionSort
    fun a b => b.key.revisionNumber ≤ a.key.revisionNumber).take (limit + 1)

/-- The number the window begins with. -/
def windowStart (page : Page) (before : Option ℕ) : ℕ :=
  min page.currentRevisionNumber (before.elim page.currentRevisionNumber (· - 1))

def historyItem (r : Revision) : Except Err RevisionHistoryItem := do
  let revisionId ← validateRevisionId r.key.revisionId
  Fallible.check (IsRevisionNumber r.key.revisionNumber) .validation
  let createdAt ← canonicalUtcWire r.createdAt
  pure ⟨revisionId, r.key.revisionNumber, createdAt⟩

/-- The loop over the rows, with room for as many items and with the number expected next.
It answers the items and the number that would be expected after the last row. -/
def historyItems (s : Store) : ℕ → ℤ → List Revision → Except Err (List RevisionHistoryItem × ℤ)
  | _, expected, [] => .ok ([], expected)
  | room, expected, r :: rows => do
    Fallible.check (s.IsComplete r ∧ (r.key.revisionNumber : ℤ) = expected) .validation
    match room with
    | 0 => historyItems s 0 (expected - 1) rows
    | room + 1 => do
      let item ← historyItem r
      let (items, last) ← historyItems s room (expected - 1) rows
      pure (item :: items, last)

/-- One window of the history of a visible Page. -/
def revisionWindow (page : Page) (limit : ℕ) (before : Option ℕ) (s : Store) :
    Except Err RevisionHistoryPage := do
  let rows := historyRows page limit before s
  let start := windowStart page before
  Fallible.check (1 ≤ start → rows ≠ []) .fileSetReadPersistence
  Fallible.check (before = none → ∃ r ∈ rows.head?,
    r.key.revisionId = page.currentRevisionId ∧
      r.key.revisionNumber = page.currentRevisionNumber) .fileSetReadPersistence
  let (items, expected) ← (historyItems s limit start rows).mapError
    fun _ => .fileSetReadPersistence
  Fallible.check (¬(rows.length ≤ limit ∧ 1 ≤ expected)) .fileSetReadPersistence
  pure
    { pageId := page.pageId
      currentRevisionId := page.currentRevisionId
      currentRevisionNumber := page.currentRevisionNumber
      items := items
      nextBeforeRevisionNumber :=
        if limit < rows.length then items.getLast?.map (·.revisionNumber) else none }

/-- List bounded, newest-first Revision identities without loading file bytes. -/
def listRevisions [Platform] (supplied : AuthenticatedCaller) (libraryId sectionId : Id)
    (pageId : Text) (limit : ℕ) (now : ℤ) (before : Option ℕ) (s : Store) :
    Except Err RevisionHistoryPage := do
  Fallible.check (1 ≤ limit ∧ limit ≤ maxPageLimit) .validation
  let page ← visiblePage supplied libraryId sectionId pageId now s
  Fallible.check (∀ b ∈ before, IsRevisionNumber b) .validation
  revisionWindow page limit before s

/-! ### The rows of a window -/

section

variable {page : Page} {limit : ℕ} {before : Option ℕ} {s : Store}

theorem mem_historyRows {r : Revision} (h : r ∈ historyRows page limit before s) :
    r ∈ s.content.revisions ∧ r.key.page = page.key := by
  have hsorted := List.mem_of_mem_take h
  obtain ⟨hmem, hselected⟩ := List.mem_filter.mp ((List.mem_insertionSort _).mp hsorted)
  exact ⟨hmem, (of_decide_eq_true hselected).1⟩

theorem length_historyRows : (historyRows page limit before s).length ≤ limit + 1 := by
  rw [historyRows, List.length_take]
  exact min_le_left _ _

theorem historyItem_ok {r : Revision} {item : RevisionHistoryItem} (h : historyItem r = .ok item) :
    item.revisionId = r.key.revisionId ∧ item.revisionNumber = r.key.revisionNumber ∧
      1 ≤ r.key.revisionNumber ∧ canonicalUtcWire r.createdAt = .ok item.createdAt := by
  simp only [historyItem, Fallible.bind_ok, Fallible.check_ok, Fallible.pure_ok, exists_and_left,
    exists_const] at h
  obtain ⟨revisionId, hid, hnumber, createdAt, hcreated, rfl⟩ := h
  unfold validateRevisionId at hid
  split at hid
  · exact ⟨(Except.ok.inj hid).symm, rfl, hnumber.1, hcreated⟩
  · cases hid

/-- **The loop has read consecutive numbers of complete Revisions**, and its items are the
first rows. -/
theorem historyItems_ok {room : ℕ} {expected last : ℤ} {rows : List Revision}
    {items : List RevisionHistoryItem} (h : historyItems s room expected rows = .ok (items, last)) :
    (∀ (i : ℕ) r, rows[i]? = some r → s.IsComplete r ∧ (r.key.revisionNumber : ℤ) = expected - i) ∧
      last = expected - rows.length ∧ (rows.take room).mapM historyItem = .ok items := by
  induction rows generalizing room expected last items with
  | nil =>
    obtain ⟨rfl, rfl⟩ := Prod.mk.inj (Except.ok.inj h)
    refine ⟨fun i r hr => ?_, by simp, by rw [List.take_nil, List.mapM_nil]; rfl⟩
    rw [List.getElem?_nil] at hr
    cases hr
  | cons r rows ih =>
    simp only [historyItems, Fallible.bind_ok, Fallible.check_ok, exists_const] at h
    obtain ⟨⟨hcomplete, hnumber⟩, hrest⟩ := h
    -- the rows behind the first one have been read one number lower
    have hrows : ∀ {room' : ℕ} {items' : List RevisionHistoryItem},
        historyItems s room' (expected - 1) rows = .ok (items', last) →
        (∀ (i : ℕ) r', (r :: rows)[i]? = some r' → s.IsComplete r' ∧
          (r'.key.revisionNumber : ℤ) = expected - i) ∧
        last = expected - (r :: rows).length ∧ (rows.take room').mapM historyItem = .ok items' := by
      intro room' items' h'
      obtain ⟨hall, hlast, hitems⟩ := ih h'
      refine ⟨fun i r' hr' => ?_, ?_, hitems⟩
      · cases i with
        | zero =>
          obtain rfl := Option.some.inj hr'
          exact ⟨hcomplete, by simpa using hnumber⟩
        | succ i =>
          obtain ⟨hcomplete', hnumber'⟩ := hall i r' hr'
          refine ⟨hcomplete', ?_⟩
          push_cast
          omega
      · rw [List.length_cons]
        push_cast
        omega
    cases room with
    | zero =>
      obtain ⟨hall, hlast, hitems⟩ := hrows hrest
      exact ⟨hall, hlast, hitems⟩
    | succ room =>
      simp only [Fallible.bind_ok, Fallible.pure_ok] at hrest
      obtain ⟨item, hitem, ⟨items', last'⟩, hitems', hresult⟩ := hrest
      obtain ⟨rfl, rfl⟩ := Prod.mk.inj hresult
      obtain ⟨hall, hlast, hitems⟩ := hrows hitems'
      exact ⟨hall, hlast, Fallible.mapM_cons_ok.mpr ⟨item, items', hitem, hitems, rfl⟩⟩

/-! ### Answered windows -/

/-- The numbers from `start` down, as many as `count`. -/
def countdown (start count : ℕ) : List ℕ := (List.range count).map (start - ·)

theorem countdown_append {start count count' : ℕ} :
    countdown start (count + count') = countdown start count ++ countdown (start - count) count' := by
  rw [countdown, countdown, countdown, List.range_add, List.map_append, List.map_map]
  congr 1
  refine List.map_congr_left fun i _ => ?_
  simp only [Function.comp_apply]
  omega

theorem getLast?_countdown (start count : ℕ) :
    (countdown start (count + 1)).getLast? = some (start - count) := by
  rw [countdown, List.range_succ, List.map_append, List.map_singleton, List.getLast?_concat]

/-- What an answered window shows, and what it says about the rows behind it. -/
structure WindowOf (page : Page) (limit : ℕ) (before : Option ℕ) (s : Store)
    (result : RevisionHistoryPage) : Prop where
  pageId : result.pageId = page.pageId
  currentId : result.currentRevisionId = page.currentRevisionId
  currentNumber : result.currentRevisionNumber = page.currentRevisionNumber
  /-- The numbers are consecutive, from the start of the window. -/
  numbers : result.items.map (·.revisionNumber) =
    countdown (windowStart page before) (min limit (windowStart page before))
  /-- Every item is a stored Revision of the Page. -/
  stored : ∀ item ∈ result.items, ∃ r ∈ s.content.revisions, r.key.page = page.key ∧
    r.key.revisionId = item.revisionId ∧ r.key.revisionNumber = item.revisionNumber ∧
      canonicalUtcWire r.createdAt = .ok item.createdAt
  /-- The next window begins below the last number. -/
  next : ∀ n, result.nextBeforeRevisionNumber = some n →
    limit ≤ windowStart page before ∧ n = windowStart page before - limit + 1
  /-- Without a next window all numbers have been shown. -/
  final : result.nextBeforeRevisionNumber = none → windowStart page before ≤ limit
  /-- Every number of the window and the one behind it is that of a complete Revision. -/
  complete : ∀ n, 1 ≤ n → n ≤ windowStart page before → windowStart page before ≤ n + limit →
    ∃ r ∈ s.content.revisions, r.key.page = page.key ∧ r.key.revisionNumber = n ∧ s.IsComplete r

/-- **A window that is answered is contiguous**, and so is the step to the next one. -/
theorem revisionWindow_ok (hlimit : 1 ≤ limit) {result : RevisionHistoryPage}
    (h : revisionWindow page limit before s = .ok result) :
    WindowOf page limit before s result := by
  simp only [revisionWindow, Fallible.bind_ok, Fallible.check_ok, Fallible.mapError_ok,
    Fallible.pure_ok, exists_const] at h
  obtain ⟨hsome, -, ⟨items, expected⟩, hloop, hgap, rfl⟩ := h
  obtain ⟨hrows, hexpected, hitems⟩ := historyItems_ok hloop
  have hshort : (historyRows page limit before s).length ≤ limit + 1 := length_historyRows
  have hmemRow {r : Revision} (hr : r ∈ historyRows page limit before s) := mem_historyRows hr
  clear hloop
  generalize historyRows page limit before s = rows at *
  dsimp only at hgap ⊢
  generalize hstart : windowStart page before = start at hsome hrows hexpected
  -- a shown row has a positive number
  have hshown (i : ℕ) (hi : i < limit) (hlt : i < rows.length) : i < start := by
    have hget : rows[i]? = some rows[i] := List.getElem?_eq_getElem hlt
    have hmem : rows[i] ∈ rows.take limit := by
      rw [← List.getElem_take (j := limit) (h := by rw [List.length_take]; omega)]
      exact List.getElem_mem _
    obtain ⟨item, hitem⟩ := Fallible.exists_ok_of_mapM hitems _ hmem
    obtain ⟨-, -, hpositive, -⟩ := historyItem_ok hitem
    obtain ⟨-, hnumber⟩ := hrows i _ hget
    omega
  have hcount : min limit rows.length = min limit start ∧
      (rows.length ≤ limit → start = rows.length) ∧ (limit < rows.length → limit ≤ start) := by
    by_cases hlong : rows.length ≤ limit
    · have hle : start ≤ rows.length := by
        have hexpected' : expected ≤ 0 := by
          by_contra hpositive
          exact hgap ⟨hlong, by omega⟩
        omega
      have hge : rows.length ≤ start := by
        by_contra hlt
        have := hshown start (by omega) (by omega)
        omega
      exact ⟨by omega, fun _ => by omega, fun h => by omega⟩
    · have hlast := hshown (limit - 1) (by omega) (by omega)
      exact ⟨by omega, fun h => by omega, fun _ => by omega⟩
  obtain ⟨hmin, hall, hmore⟩ := hcount
  have hnumbers : items.map (·.revisionNumber) = countdown start (min limit start) := by
    have hmap : (rows.take limit).map (·.key.revisionNumber) = items.map (·.revisionNumber) :=
      Fallible.map_eq_map_of_mapM (fun r _ item hitem => (historyItem_ok hitem).2.1.symm) hitems
    rw [← hmap]
    refine List.ext_getElem (by simp [countdown, hmin]) fun i hi hi' => ?_
    rw [List.length_map, List.length_take] at hi
    have hlt : i < rows.length := by omega
    obtain ⟨-, hnumber⟩ := hrows i rows[i] (List.getElem?_eq_getElem hlt)
    simp only [countdown, List.getElem_map, List.getElem_take, List.getElem_range]
    omega
  rw [← hstart] at hnumbers hmin hall hmore hrows
  refine ⟨rfl, rfl, rfl, hnumbers, fun item hitem => ?_, fun n hn => ?_, fun hn => ?_,
    fun n hn hle hbehind => ?_⟩
  · obtain ⟨r, hr, hshownItem⟩ := (Fallible.mem_of_mapM hitems).mp hitem
    obtain ⟨hmem, hpage⟩ := hmemRow (List.mem_of_mem_take hr)
    obtain ⟨hid, hnumber, -, hcreated⟩ := historyItem_ok hshownItem
    exact ⟨r, hmem, hpage, hid.symm, hnumber.symm, hcreated⟩
  · by_cases hlong : limit < rows.length
    · have hle := hmore hlong
      dsimp only at hn
      rw [if_pos hlong, ← List.getLast?_map, hnumbers, min_eq_left hle] at hn
      refine ⟨hle, ?_⟩
      obtain ⟨k, rfl⟩ := Nat.exists_eq_add_of_le' hlimit
      rw [getLast?_countdown] at hn
      have := Option.some.inj hn
      omega
    · rw [if_neg hlong] at hn
      cases hn
  · by_cases hlong : limit < rows.length
    · -- the window shows something, so there is a last number
      have hle := hmore hlong
      dsimp only at hn
      rw [if_pos hlong, ← List.getLast?_map, hnumbers, min_eq_left hle] at hn
      obtain ⟨k, rfl⟩ := Nat.exists_eq_add_of_le' hlimit
      rw [getLast?_countdown] at hn
      cases hn
    · rw [hall (by omega)]
      omega
  · have hlt : windowStart page before - n < rows.length := by
      by_cases hlong : rows.length ≤ limit
      · rw [← hall hlong]
        omega
      · omega
    obtain ⟨hcomplete, hnumber⟩ := hrows _ _ (List.getElem?_eq_getElem hlt)
    obtain ⟨hmem, hpage⟩ := hmemRow (List.getElem_mem hlt)
    exact ⟨_, hmem, hpage, by omega, hcomplete⟩

end

/-! ### One window after another -/

/-- The windows that are answered one after another from the boundary `before`, and the
boundary of the next one. -/
inductive Iterates (call : Option ℕ → RevisionHistoryPage → Prop) :
    List RevisionHistoryPage → Option ℕ → Prop
  | first {result : RevisionHistoryPage} (h : call none result) :
      Iterates call [result] result.nextBeforeRevisionNumber
  | next {results : List RevisionHistoryPage} {n : ℕ} {result : RevisionHistoryPage}
      (h : Iterates call results (some n)) (hresult : call (some n) result) :
      Iterates call (results ++ [result]) result.nextBeforeRevisionNumber

/-- The numbers that the windows show. -/
def numbersShown (results : List RevisionHistoryPage) : List ℕ :=
  results.flatMap fun result => result.items.map (·.revisionNumber)

/-- **The windows show every number once, from the current one down**, and there are at
most one more of them than there are numbers. -/
theorem Iterates.numbers {page : Page} {limit : ℕ} {s : Store}
    {call : Option ℕ → RevisionHistoryPage → Prop} (hlimit : 1 ≤ limit)
    (hcall : ∀ before result, call before result → WindowOf page limit before s result)
    {results : List RevisionHistoryPage} {next : Option ℕ} (h : Iterates call results next) :
    numbersShown results = countdown page.currentRevisionNumber
        (page.currentRevisionNumber - next.elim 0 (· - 1)) ∧
      (∀ n ∈ next, 1 ≤ n ∧ n ≤ page.currentRevisionNumber) ∧
      results.length ≤ page.currentRevisionNumber - next.elim 0 (· - 1) +
        if next = none then 1 else 0 := by
  induction h with
  | @first result hresult =>
    have hwindow := hcall none result hresult
    have hstart : windowStart page none = page.currentRevisionNumber := min_self _
    have hnumbers := hwindow.numbers
    rw [hstart] at hnumbers
    rw [numbersShown, List.flatMap_singleton, hnumbers, List.length_singleton]
    cases hnext : result.nextBeforeRevisionNumber with
    | none =>
      have hle := hwindow.final hnext
      rw [hstart] at hle
      rw [min_eq_right hle]
      exact ⟨rfl, fun n hn => absurd hn (Option.not_mem_none n), by simp⟩
    | some n =>
      obtain ⟨hle, hn⟩ := hwindow.next n hnext
      rw [hstart] at hle hn
      refine ⟨?_, fun m hm => ?_, ?_⟩
      · rw [min_eq_left hle, Option.elim_some]
        congr 1
        omega
      · obtain rfl := Option.some.inj hm
        omega
      · rw [Option.elim_some, if_neg (Option.some_ne_none n)]
        omega
  | @next results n result _ hresult ih =>
    obtain ⟨hshown, hbound, hlength⟩ := ih
    obtain ⟨hn, hle⟩ := hbound n rfl
    rw [Option.elim_some] at hshown hlength
    rw [if_neg (Option.some_ne_none n)] at hlength
    have hwindow := hcall (some n) result hresult
    have hstart : windowStart page (some n) = n - 1 := by
      rw [windowStart, Option.elim_some]
      omega
    have hnumbers := hwindow.numbers
    rw [hstart] at hnumbers
    have happend : numbersShown (results ++ [result]) =
        countdown page.currentRevisionNumber
          (page.currentRevisionNumber - (n - 1) + min limit (n - 1)) := by
      have hbehind : page.currentRevisionNumber - (page.currentRevisionNumber - (n - 1)) = n - 1 := by
        omega
      rw [countdown_append, hbehind, ← hshown, ← hnumbers]
      simp [numbersShown]
    rw [happend, List.length_append, List.length_singleton]
    cases hnext : result.nextBeforeRevisionNumber with
    | none =>
      have hend := hwindow.final hnext
      rw [hstart] at hend
      refine ⟨?_, fun m hm => absurd hm (Option.not_mem_none m), ?_⟩
      · rw [min_eq_right hend, Option.elim_none]
        congr 1
        omega
      · rw [Option.elim_none, if_pos rfl]
        omega
    | some m =>
      obtain ⟨hmore, hm⟩ := hwindow.next m hnext
      rw [hstart] at hmore hm
      refine ⟨?_, fun m' hm' => ?_, ?_⟩
      · rw [min_eq_left hmore, Option.elim_some]
        congr 1
        omega
      · obtain rfl := Option.some.inj hm'
        omega
      · rw [Option.elim_some, if_neg (Option.some_ne_none m)]
        omega

/-! ### The call -/

section

variable [Platform]

theorem listRevisions_ok {supplied : AuthenticatedCaller} {libraryId sectionId : Id}
    {pageId : Text} {limit : ℕ} {now : ℤ} {before : Option ℕ} {s : Store}
    {result : RevisionHistoryPage}
    (h : listRevisions supplied libraryId sectionId pageId limit now before s = .ok result) :
    ∃ page, visiblePage supplied libraryId sectionId pageId now s = .ok page ∧ 1 ≤ limit ∧
      WindowOf page limit before s result := by
  simp only [listRevisions, Fallible.bind_ok, Fallible.check_ok, exists_const] at h
  obtain ⟨hlimit, page, hpage, -, hwindow⟩ := h
  exact ⟨page, hpage, hlimit.1, revisionWindow_ok hlimit.1 hwindow⟩

/-- The Page that is visible does not depend on the clock. -/
theorem getSectionPage_of_visiblePage {supplied : AuthenticatedCaller} {libraryId sectionId : Id}
    {pageId : Text} {now : ℤ} {s : Store} {page : Page}
    (h : visiblePage supplied libraryId sectionId pageId now s = .ok page) :
    getSectionPage libraryId sectionId pageId s = .ok (some page) := by
  simp only [visiblePage, Fallible.bind_ok] at h
  obtain ⟨caller, -, policy, -, policy', -, h⟩ := h
  cases policy' with
  | legacySection =>
    simp only [Fallible.bind_ok, Fallible.get_ok] at h
    obtain ⟨-, -, -, -, -, -, -, -, found, hfound, rfl⟩ := h
    exact hfound
  | libraryGrants read write =>
    simp only [Fallible.bind_ok, Fallible.get_ok] at h
    obtain ⟨-, -, -, -, found, hfound, rfl⟩ := h
    exact hfound

/-- **The history is answered completely or not at all.**  A call that succeeds shows
consecutive numbers from the smaller of the current number and the boundary minus one, and
every number it shows, and the one behind, is that of a complete Revision; calls that
follow the returned boundaries, at whatever times, show all numbers down to 1 once and come
to an end. -/
theorem listRevisions_complete (supplied : AuthenticatedCaller) (libraryId sectionId : Id)
    (pageId : Text) (limit : ℕ) (s : Store) :
    (∀ now before result,
      listRevisions supplied libraryId sectionId pageId limit now before s = .ok result →
      ∃ page, visiblePage supplied libraryId sectionId pageId now s = .ok page ∧
        WindowOf page limit before s result) ∧
    (∀ results next, Iterates (fun before result => ∃ now,
        listRevisions supplied libraryId sectionId pageId limit now before s = .ok result)
        results next →
      ∃ current, (∀ result ∈ results, result.currentRevisionNumber = current) ∧
        (next = none → numbersShown results = countdown current current) ∧
        (∀ n ∈ next, 1 ≤ n ∧ numbersShown results = countdown current (current - (n - 1))) ∧
        results.length ≤ current + 1) := by
  constructor
  · intro now before result h
    obtain ⟨page, hpage, -, hwindow⟩ := listRevisions_ok h
    exact ⟨page, hpage, hwindow⟩
  · intro results next h
    -- the Page is the same in every call
    obtain ⟨page, hlimit, hcall⟩ : ∃ page, 1 ≤ limit ∧ ∀ before result,
        (∃ now, listRevisions supplied libraryId sectionId pageId limit now before s =
          .ok result) → WindowOf page limit before s result := by
      have hfirst : ∃ now before result,
          listRevisions supplied libraryId sectionId pageId limit now before s = .ok result := by
        cases h with
        | first h => exact ⟨h.choose, _, _, h.choose_spec⟩
        | next _ h => exact ⟨h.choose, _, _, h.choose_spec⟩
      obtain ⟨now, before, result, hresult⟩ := hfirst
      obtain ⟨page, hpage, hlimit, -⟩ := listRevisions_ok hresult
      refine ⟨page, hlimit, ?_⟩
      rintro before' result' ⟨now', hresult'⟩
      obtain ⟨page', hpage', -, hwindow⟩ := listRevisions_ok hresult'
      have hsame := (getSectionPage_of_visiblePage hpage').symm.trans
        (getSectionPage_of_visiblePage hpage)
      obtain rfl := Option.some.inj (Except.ok.inj hsame)
      exact hwindow
    obtain ⟨hnumbers, hbound, hlength⟩ := h.numbers hlimit hcall
    refine ⟨page.currentRevisionNumber, ?_, ?_, ?_, ?_⟩
    · clear hnumbers hbound hlength
      induction h with
      | first hresult =>
        intro result hmem
        rw [List.mem_singleton.mp hmem]
        exact (hcall _ _ hresult).currentNumber
      | next _ hresult ih =>
        intro result hmem
        rcases List.mem_append.mp hmem with hmem | hmem
        · exact ih result hmem
        · rw [List.mem_singleton.mp hmem]
          exact (hcall _ _ hresult).currentNumber
    · rintro rfl
      simpa using hnumbers
    · intro n hn
      obtain rfl := Option.mem_def.mp hn
      exact ⟨(hbound n rfl).1, hnumbers⟩
    · split at hlength <;> omega

end

section Sample

attribute [local instance] asciiPlatform

def sampleHistoryReader : AuthenticatedCaller where
  caller := ⟨"agent", "lib", .agent, "Reader", [], 1, 0, 0, none⟩
  credential := ⟨"cred", "lib", "agent", "selector", 1, [], none, 0, 0, none, none, none, none⟩

def sampleHistoryKey : PageKey := ⟨"lib", List.replicate 16 7⟩

def sampleHistoryRevision (number : ℕ) (revisionId : Text) : Revision :=
  ⟨⟨sampleHistoryKey, revisionId, number⟩, none, none, none, 10⟩

def sampleHistoryRevisions : List Revision :=
  [sampleHistoryRevision 1 "rev_00000000000000000000000000000001",
    sampleHistoryRevision 2 "rev_00000000000000000000000000000002"]

/-- A Page with two Revisions and an agent who may read it. -/
def sampleHistoryStore : Store where
  auth :=
    { callers := [sampleHistoryReader.caller]
      credentials := [sampleHistoryReader.credential]
      sectionGrants := [⟨"lib", "agent", "sec", .pageRead, 0⟩] }
  content :=
    { pages := [{ key := sampleHistoryKey, sectionId := "sec", bookId := "book"
                  pageId := "19700101t000000001z-notes", idTimestampMicros := 1000
                  baseSlug := "notes", collisionOrdinal := 1, title := "Notes", pageType := "note"
                  occurredAt := 1000, currentRevisionId := "rev_00000000000000000000000000000002"
                  currentRevisionNumber := 2, createdAt := 10, updatedAt := 20
                  deletedAt := none }]
      revisions := sampleHistoryRevisions
      revisionFileSets := sampleHistoryRevisions.map fun r => ⟨r.key, .fileSetV1, 1, 0, none⟩
      revisionFileSeals := sampleHistoryRevisions.map (·.key)
      revisionFileSealGuards := sampleHistoryRevisions.map (·.key)
      pageIdentifierRegistry := [⟨"lib",
        registryDomain ++ utf8Encode "19700101t000000001z-notes", "19700101t000000001z-notes",
        List.replicate 16 7, 10⟩] }

/-- The call of a reader who asks for one Revision at a time. -/
def sampleHistoryCall (before : Option ℕ) : Except Err RevisionHistoryPage :=
  listRevisions sampleHistoryReader "lib" "sec" "19700101t000000001z-notes" 1 50 before
    sampleHistoryStore

/-- The second window is the last one. -/
theorem listRevisions_complete_sample : ∃ newest oldest, sampleHistoryCall none = .ok newest ∧
    sampleHistoryCall newest.nextBeforeRevisionNumber = .ok oldest ∧
    numbersShown [newest, oldest] = [2, 1] := by
  have hnewest : (sampleHistoryCall none).toOption.map (fun r =>
      (r.currentRevisionNumber, r.nextBeforeRevisionNumber)) = some (2, some 2) := by decide +kernel
  have holdest : (sampleHistoryCall (some 2)).toOption.map (·.nextBeforeRevisionNumber) =
      some none := by decide +kernel
  cases hfirst : sampleHistoryCall none with
  | error e =>
    rw [hfirst] at hnewest
    cases hnewest
  | ok newest =>
    cases hsecond : sampleHistoryCall (some 2) with
    | error e =>
      rw [hsecond] at holdest
      cases holdest
    | ok oldest =>
      rw [hfirst] at hnewest
      rw [hsecond] at holdest
      obtain ⟨hcurrent, hnext⟩ := Prod.mk.inj (Option.some.inj hnewest)
      have hlast : oldest.nextBeforeRevisionNumber = none := Option.some.inj holdest
      have hsecond' : sampleHistoryCall newest.nextBeforeRevisionNumber = .ok oldest := by
        rw [hnext, hsecond]
      refine ⟨newest, oldest, rfl, hsecond', ?_⟩
      have hrun : Iterates (fun before result => ∃ now,
          listRevisions sampleHistoryReader "lib" "sec" "19700101t000000001z-notes" 1 now before
            sampleHistoryStore = .ok result) _ _ := .first ⟨50, hfirst⟩
      rw [hnext] at hrun
      obtain ⟨current, hcurrents, hall, -⟩ :=
        (listRevisions_complete _ _ _ _ 1 _).2 _ _ (hrun.next ⟨50, hsecond⟩)
      rw [List.singleton_append] at hcurrents hall
      obtain rfl := (hcurrents newest List.mem_cons_self).symm.trans hcurrent
      exact hall hlast

end Sample

end PatchouliLib
