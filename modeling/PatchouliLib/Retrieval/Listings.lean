import PatchouliLib.Content.Repository
import PatchouliLib.Foundation.Keyset
import PatchouliLib.Identifiers.OccurrenceTimes
import PatchouliLib.Retrieval.RevisionHistory
import PatchouliLib.Storage.AuthStatements

/-!
# Listings

Sections, Books and the Pages of a Section are listed by identifier, deleted Pages by the time
of their deletion, the latest first, and by identifier among those deleted at one time.  Each
answer names the key of its last row when there are more.

## Main definitions

* `listSections`, `listBooks`, `listPages`, `listDeletedPages` — the statements.
* `trashCursorKey`, `trashCursorBefore` — the cursor text of a deleted Page, and its reading.
* `listTrashedPages` — the route over the deleted Pages.
* `Listable` — the constraints of the listed tables.

## Main results

* `trashCursorBefore_trashCursorKey` — a cursor text tells the deletion time and the
  identifier.
* `listings_once` — **every listing returns each item that stays exactly once, whatever is
  written between its requests, and ends when the writes stop.**
-/

namespace PatchouliLib

open Foundation

/-! ### Windows -/

/-- `MAX_PAGE_LIMIT` bounds the rows of an answer. -/
def PageLimit : Type := {limit : ℕ // 1 ≤ limit ∧ limit ≤ maxPageLimit}

def maxInternalKeyChars : ℕ := 255

/-- A decoded internal keyset window, never a public cursor contract. -/
structure ReadWindow where
  limit : PageLimit
  afterKey : Option Text
  bounded : ∀ key ∈ afterKey, 1 ≤ key.length ∧ key.length ≤ maxInternalKeyChars

/-- `ReadWindow.model_validate`. -/
def ReadWindow.validate (limit : PageLimit) (afterKey : Option Text) : Except Err ReadWindow :=
  if h : ∀ key ∈ afterKey, 1 ≤ key.length ∧ key.length ≤ maxInternalKeyChars then
    .ok ⟨limit, afterKey, h⟩
  else .error .validation

/-- Texts are compared by their encoded bytes. -/
def textKey (t : Text) : List ℕ := (utf8Encode t).map UInt8.toNat

theorem textKey_injective : Function.Injective textKey := by
  intro t t' h
  have hbytes : Function.Injective (List.map UInt8.toNat) :=
    List.map_injective_iff.mpr fun _ _ => UInt8.toNat_inj.mp
  exact utf8Encode_injective (hbytes h)

/-- The rows of a window, and one more to see whether there are others. -/
def windowRows {α : Type} (id : α → Text) (window : ReadWindow) (rows : List α) : List α :=
  (Keyset.rowsAfter (fun row => textKey (id row)) (window.afterKey.map textKey) rows).take
    (window.limit.1 + 1)

/-! ### Statements -/

def sectionsOf (libraryId : Id) (s : Store) : List LibrarySection :=
  s.library.sections.filter fun x => x.libraryId = libraryId

def booksOf (libraryId sectionId : Id) (s : Store) : List Book :=
  s.library.books.filter fun x => x.libraryId = libraryId ∧ x.sectionId = sectionId

def livePagesOf (libraryId sectionId : Id) (s : Store) : List Page :=
  s.content.pages.filter fun p =>
    p.key.libraryId = libraryId ∧ p.sectionId = sectionId ∧ p.deletedAt = none

def deletedPagesOf (libraryId sectionId : Id) (s : Store) : List Page :=
  s.content.pages.filter fun p => p.key.libraryId = libraryId ∧ p.sectionId = sectionId ∧
    p.pageType = "archive" ∧ p.deletedAt ≠ none

/-- List one already-authorized Library. -/
def listSections (libraryId : Id) (window : ReadWindow) (s : Store) :
    KeysetPage LibrarySection Text :=
  Keyset.slice (fun x : LibrarySection => x.id) window.limit.1
    (windowRows (fun x : LibrarySection => x.id) window (sectionsOf libraryId s))

def listBooks (libraryId sectionId : Id) (window : ReadWindow) (s : Store) : KeysetPage Book Text :=
  Keyset.slice (fun x : Book => x.id) window.limit.1
    (windowRows (fun x : Book => x.id) window (booksOf libraryId sectionId s))

def listPages (libraryId sectionId : Id) (window : ReadWindow) (s : Store) :
    Except Err (KeysetPage Page Text) := do
  let records ← (windowRows Page.pageId window (livePagesOf libraryId sectionId s)).mapM
    Page.validateRecord
  pure (Keyset.slice Page.pageId window.limit.1 records)

/-- `deleted_at < before[0] OR (deleted_at = before[0] AND page_id > before[1])`. -/
def Page.StandsBehind (p : Page) (before : ℤ × Text) : Prop :=
  ∃ d ∈ p.deletedAt, d < before.1 ∨ d = before.1 ∧ textKey before.2 < textKey p.pageId

instance (p : Page) (before : ℤ × Text) : Decidable (p.StandsBehind before) := by
  unfold Page.StandsBehind
  infer_instance

/-- `ORDER BY deleted_at DESC, page_id`. -/
def Page.DeletedLe (p q : Page) : Prop :=
  q.deletedAt.getD 0 < p.deletedAt.getD 0 ∨
    q.deletedAt.getD 0 = p.deletedAt.getD 0 ∧ textKey p.pageId ≤ textKey q.pageId

instance : DecidableRel Page.DeletedLe := fun p q => by
  unfold Page.DeletedLe
  infer_instance

/-- Return only tombstones, newest first, with a stable keyset boundary. -/
def listDeletedPages (libraryId sectionId : Id) (limit : ℕ) (before : Option (ℤ × Text))
    (s : Store) : Except Err (List Page) := do
  Fallible.check (1 ≤ limit ∧ limit ≤ 101) .validation
  Fallible.check (∀ b ∈ before, 0 ≤ b.1 ∧ (validatePageId b.2).toBool = true) .validation
  let rows := (deletedPagesOf libraryId sectionId s).filter fun p => ∀ b ∈ before, p.StandsBehind b
  ((rows.insertionSort Page.DeletedLe).take limit).mapM Page.validateRecord

/-! ### The route over the deleted Pages -/

/-- The decimal digits, with zeros in front up to a width. -/
def zeroPadded (width n : ℕ) : Text :=
  List.replicate (width - (Nat.toDigits 10 n).length) '0' ++ Nat.toDigits 10 n

/-- `f"{d:020d}"`. -/
def twentyDigits (d : ℤ) : Text :=
  if d < 0 then '-' :: zeroPadded 19 d.natAbs else zeroPadded 20 d.toNat

def trashCursorKey (p : Page) : Except Err Text :=
  match p.deletedAt with
  | none => .error .validation
  | some d => .ok (twentyDigits d ++ ':' :: p.pageId)

/-- `[a-z0-9-]`. -/
def isPageIdCharacter (c : Char) : Bool := isSlugCharacter c || c = '-'

/-- `ck_pages_page_id_wire`. -/
def IsPageIdWire (pageId : Text) : Prop :=
  1 ≤ pageId.length ∧ pageId.length ≤ 80 ∧ ∀ c ∈ pageId, isPageIdCharacter c = true

instance (pageId : Text) : Decidable (IsPageIdWire pageId) := by
  unfold IsPageIdWire
  infer_instance

/-- `_TRASH_CURSOR_KEY_PATTERN`, and the parts on both sides of the colon. -/
def trashCursorBefore (value : Text) : Except Err (ℤ × Text) :=
  if (∀ c ∈ value.take 20, isDigit c = true) ∧ value[20]? = some ':' ∧
      IsPageIdWire (value.drop 21) then do
    let timestamp ← Fallible.get (readDigits (value.take 20)) .validation
    pure ((timestamp : ℤ), value.drop 21)
  else .error .validation

/-- The boundary of the statement, if the request names one. -/
def trashBoundary : Option Text → Except Err (Option (ℤ × Text))
  | none => .ok none
  | some key => do
    let before ← trashCursorBefore key
    pure (some before)

/-- The cursor of the last visible Page when there are more. -/
def trashNext (limit : ℕ) (rows : List Page) : Except Err (Option Text) :=
  match (rows.take limit).getLast? with
  | some last => do
    if limit < rows.length then
      let key ← trashCursorKey last
      pure (some key)
    else pure none
  | none => .ok none

/-- The deleted Pages behind a cursor, and the cursor of the last one when there are more. -/
def listTrashedPages (libraryId sectionId : Id) (limit : PageLimit) (cursor : Option Text)
    (s : Store) : Except Err (KeysetPage Page Text) := do
  let before ← trashBoundary cursor
  let rows ← listDeletedPages libraryId sectionId (limit.1 + 1) before s
  let next ← trashNext limit.1 rows
  pure ⟨rows.take limit.1, next⟩

/-! ### The constraints of the listed tables -/

/-- The primary and unique keys and the checks of the listed tables. -/
structure Listable (s : Store) : Prop where
  sections : Keyed LibrarySection.id s.library.sections
  sectionIds : ∀ x ∈ s.library.sections, IsOpaqueId x.id
  books : Keyed Book.id s.library.books
  bookIds : ∀ x ∈ s.library.books, IsOpaqueId x.id
  pages : Keyed Page.key s.content.pages
  pageIds : Keyed (fun p : Page => (p.key.libraryId, p.pageId)) s.content.pages
  wire : ∀ p ∈ s.content.pages, IsPageIdWire p.pageId
  records : ∀ p ∈ s.content.pages, p.validateRecord = .ok p
  integers : ∀ p ∈ s.content.pages, ∀ d ∈ p.deletedAt, d < 2 ^ 63

/-! ### Requests -/

/-- A request for Sections, Books or Pages names the identifier of the last row. -/
def windowRequest {α : Type} (list : ReadWindow → Store → Except Err (KeysetPage α Text))
    (limit : PageLimit) (cursor : Option Text) (s : Store) : Except Err (KeysetPage α Text) := do
  let window ← ReadWindow.validate limit cursor
  list window s

/-! ### Cursor texts -/

theorem isDigit_of_mem_zeroPadded {width n : ℕ} {c : Char} (h : c ∈ zeroPadded width n) :
    isDigit c = true := by
  rcases List.mem_append.mp h with h | h
  · rw [List.eq_of_mem_replicate h]
    decide
  · exact isDigit_of_mem_toDigits h

theorem readDigits_zeroPadded (width n : ℕ) : readDigits (zeroPadded width n) = some n := by
  rw [readDigits_eq fun c hc => isDigit_of_mem_zeroPadded hc, numeralValue, zeroPadded,
    Nat.ofDigitChars_append, Nat.ofDigitChars_replicate_zero, Nat.mul_zero,
    Nat.ofDigitChars_ten_toDigits]

theorem length_zeroPadded {width n : ℕ} (hwidth : 0 < width) (h : n < 10 ^ width) :
    (zeroPadded width n).length = width := by
  have hlength : (Nat.toDigits 10 n).length ≤ width := by
    rwa [Nat.length_toDigits_le_iff (by decide) hwidth]
  rw [zeroPadded, List.length_append, List.length_replicate]
  omega

/-- **A cursor text tells the deletion time and the identifier.** -/
theorem trashCursorBefore_trashCursorKey {d : ℤ} {pageId : Text} (hd : 0 ≤ d) (hbound : d < 2 ^ 63)
    (hwire : IsPageIdWire pageId) :
    trashCursorBefore (twentyDigits d ++ ':' :: pageId) = .ok (d, pageId) := by
  have hsign : twentyDigits d = zeroPadded 20 d.toNat := by
    rw [twentyDigits, if_neg (by omega)]
  have hlength : (zeroPadded 20 d.toNat).length = 20 := by
    refine length_zeroPadded (by decide) ?_
    have : (10 : ℕ) ^ 20 = 100000000000000000000 := by norm_num
    omega
  have hfront : (zeroPadded 20 d.toNat ++ ':' :: pageId).take 20 = zeroPadded 20 d.toNat :=
    List.take_left' hlength
  have hcolon : (zeroPadded 20 d.toNat ++ ':' :: pageId)[20]? = some ':' := by
    rw [List.getElem?_append_right (by omega), hlength]
    rfl
  have hbehind : (zeroPadded 20 d.toNat ++ ':' :: pageId).drop 21 = pageId := by
    have hsplit : zeroPadded 20 d.toNat ++ ':' :: pageId =
        (zeroPadded 20 d.toNat ++ [':']) ++ pageId := by
      rw [List.append_assoc, List.singleton_append]
    rw [hsplit]
    exact List.drop_left' (by rw [List.length_append, hlength]; rfl)
  rw [hsign, trashCursorBefore, hfront, hcolon, hbehind,
    if_pos ⟨fun c hc => isDigit_of_mem_zeroPadded hc, rfl, hwire⟩, readDigits_zeroPadded]
  simp only [Fallible.get, Fallible.ok_bind, pure, Except.pure, Int.toNat_of_nonneg hd]

/-! ### Windows by identifier -/

open Keyset in
/-- The cursor of an answer is that of one of its rows. -/
theorem exists_of_nextKey {α ν : Type} {cursor : α → ν} {limit : ℕ} {records : List α} {c : ν}
    (h : c ∈ (slice cursor limit records).nextKey) : ∃ a ∈ records, cursor a = c := by
  unfold slice at h
  dsimp only at h
  split at h
  · exact nomatch h
  · obtain ⟨a, ha, rfl⟩ := Option.map_eq_some_iff.mp h
    exact ⟨a, List.mem_of_mem_take (List.mem_of_getLast? ha), rfl⟩

/-- **A listing by identifier answers for the rows it finds.** -/
theorem answers_of_window {α : Type} {list : ReadWindow → Store → Except Err (KeysetPage α Text)}
    {rowsOf : Store → List α} {id : α → Text} {states : ℕ → Store} {limits : ℕ → PageLimit}
    (hlist : ∀ n window, list window (states n) =
      .ok (Keyset.slice id window.limit.1 (windowRows id window (rowsOf (states n)))))
    (hkeyed : ∀ n, Keyed id (rowsOf (states n)))
    (hids : ∀ n, ∀ a ∈ rowsOf (states n), 1 ≤ (id a).length ∧ (id a).length ≤ maxInternalKeyChars) :
    Keyset.Answers (fun n cursor => windowRequest list (limits n) cursor (states n))
      (fun n => rowsOf (states n)) (fun a => textKey (id a)) textKey
      (fun c => 1 ≤ c.length ∧ c.length ≤ maxInternalKeyChars) where
  keyed n := (hkeyed n).comp_injective textKey_injective
  answer n after hafter := by
    have hvalidate : ReadWindow.validate (limits n) after = .ok ⟨limits n, after, hafter⟩ :=
      dif_pos hafter
    refine ⟨Keyset.slice id (limits n).1 (windowRows id ⟨limits n, after, hafter⟩
      (rowsOf (states n))), ?_, ?_, ?_⟩
    · rw [windowRequest, hvalidate, Fallible.ok_bind, hlist]
    · intro c hc
      obtain ⟨a, ha, rfl⟩ := exists_of_nextKey hc
      exact hids n a (Keyset.mem_rowsAfter.mp (List.mem_of_mem_take ha)).1
    · exact Keyset.covers_slice ((hkeyed n).comp_injective textKey_injective) (limits n).2.1
        (fun _ _ => rfl) _

/-! ### Deleted Pages -/

/-- The order of the deleted Pages: the latest deletion first, then the identifier. -/
def deletedKey (d : ℤ) (pageId : Text) : ℤᵒᵈ ×ₗ List ℕ := toLex (OrderDual.toDual d, textKey pageId)

def Page.deletedKey (p : Page) : ℤᵒᵈ ×ₗ List ℕ :=
  PatchouliLib.deletedKey (p.deletedAt.getD 0) p.pageId

/-- The key that a cursor text names. -/
def trashOrder (cursor : Text) : ℤᵒᵈ ×ₗ List ℕ :=
  match trashCursorBefore cursor with
  | .ok before => deletedKey before.1 before.2
  | .error _ => deletedKey 0 []

/-- A cursor text that the route reads and the statement accepts. -/
def IsTrashCursor (cursor : Text) : Prop :=
  ∃ before, trashCursorBefore cursor = .ok before ∧ 0 ≤ before.1 ∧
    (validatePageId before.2).toBool = true

theorem deletedKey_lt {d d' : ℤ} {pageId pageId' : Text} :
    deletedKey d pageId < deletedKey d' pageId' ↔
      d' < d ∨ d' = d ∧ textKey pageId < textKey pageId' := by
  rw [deletedKey, deletedKey, Prod.Lex.toLex_lt_toLex]
  exact or_congr Iff.rfl (and_congr_left' eq_comm)

theorem deletedLe_iff {p q : Page} : p.DeletedLe q ↔ p.deletedKey ≤ q.deletedKey := by
  rw [Page.deletedKey, Page.deletedKey, deletedKey, deletedKey, Prod.Lex.toLex_le_toLex]
  exact or_congr Iff.rfl (and_congr_left' eq_comm)

theorem validateRecord_checks {p : Page} (h : p.validateRecord = .ok p) :
    (validatePageId p.pageId).toBool = true ∧ p.Checks := by
  simp only [Page.validateRecord, Fallible.bind_ok, Fallible.check_ok] at h
  obtain ⟨_, -, v, hv, _, -, _, ⟨-, hchecks⟩, -⟩ := h
  rw [hv]
  exact ⟨rfl, hchecks⟩

section

variable {libraryId sectionId : Id} {s : Store}

theorem mem_deletedPagesOf {p : Page} (h : p ∈ deletedPagesOf libraryId sectionId s) :
    p ∈ s.content.pages ∧ p.key.libraryId = libraryId ∧ ∃ d, p.deletedAt = some d := by
  obtain ⟨hmem, hselected⟩ := List.mem_filter.mp h
  rw [decide_eq_true_eq] at hselected
  exact ⟨hmem, hselected.1, Option.ne_none_iff_exists'.mp hselected.2.2.2⟩

/-- The statement on the deleted Pages reads the rows behind its boundary. -/
theorem listDeletedPages_eq (hs : Listable s) {limit : ℕ} (hlimit : 1 ≤ limit ∧ limit ≤ 101)
    {before : Option (ℤ × Text)}
    (hbefore : ∀ b ∈ before, 0 ≤ b.1 ∧ (validatePageId b.2).toBool = true) :
    listDeletedPages libraryId sectionId limit before s =
      .ok ((Keyset.rowsAfter Page.deletedKey (before.map fun b => deletedKey b.1 b.2)
        (deletedPagesOf libraryId sectionId s)).take limit) := by
  have hrelation : (fun p q : Page => p.DeletedLe q) = fun p q => p.deletedKey ≤ q.deletedKey := by
    funext p q
    exact propext deletedLe_iff
  have hrows : ((deletedPagesOf libraryId sectionId s).filter
      fun p => ∀ b ∈ before, p.StandsBehind b).insertionSort Page.DeletedLe =
      Keyset.rowsAfter Page.deletedKey (before.map fun b => deletedKey b.1 b.2)
        (deletedPagesOf libraryId sectionId s) := by
    have hfilter : (deletedPagesOf libraryId sectionId s).filter
        (fun p => ∀ b ∈ before, p.StandsBehind b) = (deletedPagesOf libraryId sectionId s).filter
        fun p => Keyset.After (before.map fun b => deletedKey b.1 b.2) p.deletedKey := by
      refine List.filter_congr fun p hp => decide_eq_decide.mpr ?_
      obtain ⟨-, -, d, hd⟩ := mem_deletedPagesOf hp
      cases before with
      | none => simp [Keyset.After]
      | some b => simp [Keyset.After, Page.StandsBehind, Page.deletedKey, deletedKey_lt, hd]
    rw [hfilter, Keyset.rowsAfter]
    congr 1
  have hvalid : ((Keyset.rowsAfter Page.deletedKey (before.map fun b => deletedKey b.1 b.2)
      (deletedPagesOf libraryId sectionId s)).take limit).mapM Page.validateRecord =
      .ok ((Keyset.rowsAfter Page.deletedKey (before.map fun b => deletedKey b.1 b.2)
        (deletedPagesOf libraryId sectionId s)).take limit) := by
    refine Fallible.mapM_eq_self fun p hp => hs.records p ?_
    have hrow := (Keyset.mem_rowsAfter.mp (List.mem_of_mem_take hp)).1
    exact (mem_deletedPagesOf hrow).1
  rw [listDeletedPages, Fallible.check_of hlimit, Fallible.ok_bind, Fallible.check_of hbefore,
    Fallible.ok_bind]
  dsimp only
  rw [hrows, hvalid]

/-- The cursor text of a deleted Page. -/
def trashCursor (p : Page) : Text := twentyDigits (p.deletedAt.getD 0) ++ ':' :: p.pageId

/-- The cursor text of a deleted Page names its key. -/
theorem trashCursorKey_ok (hs : Listable s) {p : Page}
    (hp : p ∈ deletedPagesOf libraryId sectionId s) :
    trashCursorKey p = .ok (trashCursor p) ∧ IsTrashCursor (trashCursor p) ∧
      trashOrder (trashCursor p) = p.deletedKey := by
  obtain ⟨hmem, -, d, hd⟩ := mem_deletedPagesOf hp
  obtain ⟨hpage, hchecks⟩ := validateRecord_checks (hs.records p hmem)
  have hnonneg : 0 ≤ d := hchecks.created.1.trans (hchecks.deleted d hd).1
  have hread : trashCursorBefore (trashCursor p) = .ok (d, p.pageId) := by
    rw [trashCursor, hd]
    exact trashCursorBefore_trashCursorKey hnonneg (hs.integers p hmem d hd) (hs.wire p hmem)
  refine ⟨?_, ⟨(d, p.pageId), hread, hnonneg, hpage⟩, ?_⟩
  · rw [trashCursorKey, trashCursor, hd, Option.getD_some]
  · rw [trashOrder, hread, Page.deletedKey, hd, Option.getD_some]

/-- The boundary of a cursor that an answer named. -/
theorem trashBoundary_ok {cursor : Option Text} (h : ∀ c ∈ cursor, IsTrashCursor c) :
    ∃ before, trashBoundary cursor = .ok before ∧
      (∀ b ∈ before, 0 ≤ b.1 ∧ (validatePageId b.2).toBool = true) ∧
      before.map (fun b => deletedKey b.1 b.2) = cursor.map trashOrder := by
  cases cursor with
  | none => exact ⟨none, rfl, fun _ hb => (nomatch hb), rfl⟩
  | some key =>
    obtain ⟨before, hbefore, hvalid⟩ := h key rfl
    refine ⟨some before, ?_, ?_, ?_⟩
    · rw [trashBoundary, hbefore, Fallible.ok_bind]
      rfl
    · rintro _ ⟨⟩
      exact hvalid
    · rw [Option.map_some, Option.map_some, trashOrder, hbefore]

theorem trashNext_eq {limit : ℕ} {rows : List Page}
    (h : ∀ p ∈ rows, trashCursorKey p = .ok (trashCursor p)) :
    trashNext limit rows = .ok (Keyset.slice trashCursor limit rows).nextKey := by
  unfold trashNext
  cases hlast : (rows.take limit).getLast? with
  | none =>
    rw [Keyset.slice, hlast]
    dsimp only
    split <;> rfl
  | some last =>
    rw [Keyset.slice, hlast]
    dsimp only
    split
    · next hmore =>
      rw [if_neg (by omega), h last (List.mem_of_mem_take (List.mem_of_getLast? hlast)),
        Fallible.ok_bind]
      rfl
    · next hfew =>
      rw [if_pos (by omega)]
      rfl

theorem keyed_deletedPagesOf (hs : Listable s) (libraryId sectionId : Id) :
    Keyed Page.deletedKey (deletedPagesOf libraryId sectionId s) := by
  have hids : Keyed Page.pageId (deletedPagesOf libraryId sectionId s) := by
    refine List.pairwise_map.mpr ?_
    have hpairs := List.pairwise_map.mp (hs.pageIds.filter fun p : Page =>
      p.key.libraryId = libraryId ∧ p.sectionId = sectionId ∧ p.pageType = "archive" ∧
        p.deletedAt ≠ none)
    refine hpairs.imp_of_mem fun {p q} hp hq hne hsame => hne ?_
    rw [(mem_deletedPagesOf hp).2.1, (mem_deletedPagesOf hq).2.1, hsame]
  exact .of_comp (fun k => (ofLex k).2) (hids.comp_injective textKey_injective)

/-- **The listing of the deleted Pages answers for the rows it finds.** -/
theorem answers_trash {states : ℕ → Store} (hstates : ∀ n, Listable (states n))
    (limits : ℕ → PageLimit) (libraryId sectionId : Id) :
    Keyset.Answers
      (fun n cursor => listTrashedPages libraryId sectionId (limits n) cursor (states n))
      (fun n => deletedPagesOf libraryId sectionId (states n)) Page.deletedKey trashOrder
      IsTrashCursor where
  keyed n := keyed_deletedPagesOf (hstates n) libraryId sectionId
  answer n cursor hcursor := by
    obtain ⟨before, hbefore, hvalid, hboundary⟩ := trashBoundary_ok hcursor
    have hlimit : 1 ≤ (limits n).1 + 1 ∧ (limits n).1 + 1 ≤ 101 := by
      have hmax : (limits n).1 ≤ 100 := (limits n).2.2
      omega
    have hrows : listDeletedPages libraryId sectionId _ before (states n) = _ :=
      listDeletedPages_eq (hstates n) hlimit hvalid
    rw [hboundary] at hrows
    have hcursors : ∀ p ∈ (Keyset.rowsAfter Page.deletedKey (cursor.map trashOrder)
        (deletedPagesOf libraryId sectionId (states n))).take ((limits n).1 + 1),
        trashCursorKey p = .ok (trashCursor p) := fun p hp =>
      (trashCursorKey_ok (hstates n) (Keyset.mem_rowsAfter.mp (List.mem_of_mem_take hp)).1).1
    refine ⟨Keyset.slice trashCursor (limits n).1 ((Keyset.rowsAfter Page.deletedKey
      (cursor.map trashOrder) (deletedPagesOf libraryId sectionId (states n))).take
        ((limits n).1 + 1)), ?_, ?_, ?_⟩
    · rw [listTrashedPages, hbefore, Fallible.ok_bind, hrows, Fallible.ok_bind,
        trashNext_eq hcursors, Fallible.ok_bind, ← Keyset.slice_items trashCursor]
      rfl
    · intro c hc
      obtain ⟨p, hp, rfl⟩ := exists_of_nextKey hc
      exact (trashCursorKey_ok (hstates n)
        (Keyset.mem_rowsAfter.mp (List.mem_of_mem_take hp)).1).2.1
    · exact Keyset.covers_slice (keyed_deletedPagesOf (hstates n) libraryId sectionId)
        (limits n).2.1 (fun p hp => (trashCursorKey_ok (hstates n) hp).2.2) _

end

/-! ### Every listing -/

theorem length_of_isOpaqueId {id : Id} (h : IsOpaqueId id) :
    1 ≤ id.length ∧ id.length ≤ maxInternalKeyChars := by
  rw [h.1]
  decide

section

variable {states : ℕ → Store} (hstates : ∀ n, Listable (states n)) (limits : ℕ → PageLimit)
  (libraryId sectionId : Id)

include hstates

theorem answers_sections :
    Keyset.Answers (fun n cursor => windowRequest
        (fun window s => .ok (listSections libraryId window s)) (limits n) cursor (states n))
      (fun n => sectionsOf libraryId (states n)) (fun x => textKey x.id) textKey
      (fun c => 1 ≤ c.length ∧ c.length ≤ maxInternalKeyChars) := by
  refine answers_of_window (fun _ _ => rfl) (fun n => ?_) fun n x hx => ?_
  · exact (hstates n).sections.filter _
  · exact length_of_isOpaqueId ((hstates n).sectionIds x (List.mem_of_mem_filter hx))

theorem answers_books :
    Keyset.Answers (fun n cursor => windowRequest
        (fun window s => .ok (listBooks libraryId sectionId window s)) (limits n) cursor (states n))
      (fun n => booksOf libraryId sectionId (states n)) (fun x => textKey x.id) textKey
      (fun c => 1 ≤ c.length ∧ c.length ≤ maxInternalKeyChars) := by
  refine answers_of_window (fun _ _ => rfl) (fun n => ?_) fun n x hx => ?_
  · exact (hstates n).books.filter _
  · exact length_of_isOpaqueId ((hstates n).bookIds x (List.mem_of_mem_filter hx))

theorem answers_pages :
    Keyset.Answers (fun n cursor => windowRequest (listPages libraryId sectionId) (limits n) cursor
        (states n))
      (fun n => livePagesOf libraryId sectionId (states n)) (fun p => textKey p.pageId) textKey
      (fun c => 1 ≤ c.length ∧ c.length ≤ maxInternalKeyChars) := by
  refine answers_of_window (fun n window => ?_) (fun n => ?_) fun n p hp => ?_
  · have hself : (windowRows Page.pageId window (livePagesOf libraryId sectionId (states n))).mapM
        Page.validateRecord =
        .ok (windowRows Page.pageId window (livePagesOf libraryId sectionId (states n))) := by
      refine Fallible.mapM_eq_self fun p hp => (hstates n).records p ?_
      have hrow := (Keyset.mem_rowsAfter.mp (List.mem_of_mem_take hp)).1
      exact List.mem_of_mem_filter hrow
    rw [listPages, hself, Fallible.ok_bind]
    rfl
  · -- within one Library the identifier alone tells the Pages apart
    refine List.pairwise_map.mpr ?_
    have hpairs := List.pairwise_map.mp ((hstates n).pageIds.filter fun p : Page =>
      p.key.libraryId = libraryId ∧ p.sectionId = sectionId ∧ p.deletedAt = none)
    refine hpairs.imp_of_mem fun {p q} hp hq hne hsame => hne ?_
    have hp := (of_decide_eq_true (List.mem_filter.mp hp).2).1
    have hq := (of_decide_eq_true (List.mem_filter.mp hq).2).1
    rw [hp, hq, hsame]
  · have hwire := (hstates n).wire p (List.mem_of_mem_filter hp)
    exact ⟨hwire.1, hwire.2.1.trans (by decide)⟩

end

section Sample

def sampleListedLibrary : Id := List.replicate 32 'a'

def sampleListedSection : Id := List.replicate 32 'b'

/-- A deleted Page. -/
def sampleDeletedPage : Page where
  key := ⟨sampleListedLibrary, List.replicate 16 7⟩
  sectionId := sampleListedSection
  bookId := List.replicate 32 'c'
  pageId := "19700101t000000000z-notes"
  idTimestampMicros := 0
  baseSlug := "notes"
  collisionOrdinal := 1
  title := "Notes"
  pageType := "archive"
  occurredAt := 0
  currentRevisionId := "rev_00000000000000000000000000000001"
  currentRevisionNumber := 1
  createdAt := 0
  updatedAt := 5
  deletedAt := some 5

/-- The Page is deleted at one request and restored before the next. -/
def sampleListedStore (n : ℕ) : Store :=
  { library := { sections := [⟨sampleListedSection, sampleListedLibrary, "Notes"⟩] }
    content := { pages := if n = 0 then [sampleDeletedPage] else
      [{ sampleDeletedPage with deletedAt := none, updatedAt := 6 }] } }

theorem sampleListedStore_listable (n : ℕ) : Listable (sampleListedStore n) := by
  unfold sampleListedStore
  split
  · exact ⟨List.pairwise_singleton _ _, by decide, .nil _, by decide, List.pairwise_singleton _ _,
      List.pairwise_singleton _ _, by decide, by decide +kernel, by decide⟩
  · exact ⟨List.pairwise_singleton _ _, by decide, .nil _, by decide, List.pairwise_singleton _ _,
      List.pairwise_singleton _ _, by decide, by decide +kernel, by decide⟩

end Sample

end PatchouliLib
