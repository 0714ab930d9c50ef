import PatchouliLib.Foundation.Table

/-!
# Listings by key

A collection is listed a page at a time.  A request names the last key it has seen, and the
answer holds the rows behind it, in the order of their keys, as many as the page has room
for; one row more is looked for, and when there is one the answer names the key to go on
from.  The collection may be another one at every request.

An answer covers the keys from its own cursor to the next one, so the answers of a listing
cover every key once, however the rows come and go in between.

## Main definitions

* `KeysetPage` — the rows of an answer, and the cursor to go on from.
* `rowsAfter key after rows` — the rows behind a cursor, in order.
* `Covers key after next rows items` — an answer holds the rows between two cursors.
* `position fetch n`, `returned fetch n` — where a listing stands before its `n`-th request,
  and what it has returned.
* `ListsOnce` — every item that stays is returned exactly once.

## Main results

* `covers_slice` — a page with room for a row covers the keys up to its cursor.
* `Answers.listsOnce` — **a listing by key returns what stays exactly once, and ends when
  the collection no longer changes.**
-/

namespace Foundation

/-- The rows of an answer, and the cursor to go on from. -/
structure KeysetPage (α ν : Type) where
  items : List α
  nextKey : Option ν
deriving DecidableEq

/-- A key stays unique under a name that tells the keys apart. -/
theorem Keyed.comp_injective {α κ ν : Type} {key : α → κ} {rows : List α} (h : Keyed key rows)
    {name : κ → ν} (hname : Function.Injective name) : Keyed (fun a => name (key a)) rows := by
  have hkeys := List.Nodup.map hname h
  rwa [List.map_map] at hkeys

namespace Keyset

variable {α ι κ ν : Type} [LinearOrder κ]

/-! ### One answer -/

/-- The key lies behind the cursor. -/
def After (after : Option κ) (k : κ) : Prop := ∀ c ∈ after, c < k

instance (after : Option κ) (k : κ) : Decidable (After after k) := by
  unfold After
  infer_instance

/-- The key does not lie behind the next cursor. -/
def UpTo (next : Option κ) (k : κ) : Prop := ∀ c ∈ next, k ≤ c

/-- The rows behind a cursor, in the order of their keys. -/
def rowsAfter (key : α → κ) (after : Option κ) (rows : List α) : List α :=
  (rows.filter fun a => After after (key a)).insertionSort fun a b => key a ≤ key b

/-- The page of a result with one row too many, if there is one. -/
def slice (cursor : α → ν) (limit : ℕ) (records : List α) : KeysetPage α ν :=
  let visible := records.take limit
  if records.length ≤ limit then ⟨visible, none⟩ else ⟨visible, visible.getLast?.map cursor⟩

theorem slice_items (cursor : α → ν) (limit : ℕ) (records : List α) :
    (slice cursor limit records).items = records.take limit := by
  unfold slice
  dsimp only
  split <;> rfl

/-- An answer holds the rows between its cursor and the next one. -/
structure Covers (key : α → κ) (after next : Option κ) (rows items : List α) : Prop where
  sound : ∀ a ∈ items, a ∈ rows ∧ After after (key a) ∧ UpTo next (key a)
  complete : ∀ a ∈ rows, After after (key a) → UpTo next (key a) → a ∈ items
  distinct : (items.map key).Nodup
  reached : ∀ k ∈ next, ∃ a ∈ items, key a = k

variable {key : α → κ}

theorem mem_rowsAfter {after : Option κ} {rows : List α} {a : α} :
    a ∈ rowsAfter key after rows ↔ a ∈ rows ∧ After after (key a) := by
  rw [rowsAfter, List.mem_insertionSort, List.mem_filter, decide_eq_true_eq]

/-- With unique keys the rows behind a cursor ascend. -/
theorem pairwise_rowsAfter {rows : List α} (h : Keyed key rows) (after : Option κ) :
    (rowsAfter key after rows).Pairwise fun a b => key a < key b := by
  have hperm := List.perm_insertionSort (fun a b => key a ≤ key b)
    (rows.filter fun a => After after (key a))
  have hdistinct : ((rowsAfter key after rows).map key).Nodup :=
    (hperm.map key).nodup_iff.mpr (h.filter _)
  have : Std.Total fun a b : α => key a ≤ key b := ⟨fun a b => le_total (key a) (key b)⟩
  have : IsTrans α fun a b => key a ≤ key b := ⟨fun _ _ _ => le_trans⟩
  have hsorted : (rowsAfter key after rows).Pairwise fun a b => key a ≤ key b :=
    List.pairwise_insertionSort _ _
  have hne : (rowsAfter key after rows).Pairwise fun a b => key a ≠ key b :=
    List.pairwise_map.mp hdistinct
  exact (hsorted.and hne).imp fun h => lt_of_le_of_ne h.1 h.2

/-- The last rows behind a cursor are covered by an answer that names no other. -/
theorem covers_all {rows : List α} (h : Keyed key rows) (after : Option κ) :
    Covers key after none rows (rowsAfter key after rows) where
  sound _ ha := ⟨(mem_rowsAfter.mp ha).1, (mem_rowsAfter.mp ha).2, fun _ hc => nomatch hc⟩
  complete _ ha hafter _ := mem_rowsAfter.mpr ⟨ha, hafter⟩
  distinct := List.pairwise_map.mpr ((pairwise_rowsAfter h after).imp fun h => h.ne)
  reached _ hk := nomatch hk

/-- The first rows behind a cursor are covered by an answer that names the last of them. -/
theorem covers_front {rows front rest : List α} {last : α} {after : Option κ}
    (h : Keyed key rows) (hsplit : rowsAfter key after rows = front ++ last :: rest) :
    Covers key after (some (key last)) rows (front ++ [last]) := by
  have hsorted := pairwise_rowsAfter h after
  rw [hsplit, List.pairwise_append, List.pairwise_cons] at hsorted
  obtain ⟨hfront, ⟨hrest, -⟩, hcross⟩ := hsorted
  have hmem {a : α} (ha : a ∈ front ++ [last]) : a ∈ rowsAfter key after rows := by
    rw [hsplit]
    rcases List.mem_append.mp ha with ha | ha
    · exact List.mem_append_left _ ha
    · rw [List.mem_singleton.mp ha]
      exact List.mem_append_right _ List.mem_cons_self
  constructor
  · intro a ha
    obtain ⟨hrow, hafter⟩ := mem_rowsAfter.mp (hmem ha)
    refine ⟨hrow, hafter, ?_⟩
    rintro c ⟨⟩
    rcases List.mem_append.mp ha with ha | ha
    · exact (hcross a ha last List.mem_cons_self).le
    · rw [List.mem_singleton.mp ha]
  · intro a ha hafter hupto
    have hrow := mem_rowsAfter.mpr ⟨ha, hafter⟩
    rw [hsplit] at hrow
    rcases List.mem_append.mp hrow with hrow | hrow
    · exact List.mem_append_left _ hrow
    · rcases List.mem_cons.mp hrow with rfl | hrow
      · exact List.mem_append_right _ List.mem_cons_self
      -- a row behind the last one has a key beyond the cursor
      · exact absurd (hupto _ rfl) (not_le.mpr (hrest a hrow))
  · rw [List.map_append]
    refine List.nodup_append.mpr ⟨?_, List.nodup_singleton _, ?_⟩
    · exact List.pairwise_map.mpr (hfront.imp fun h => h.ne)
    · intro k hk k' hk' heq
      obtain ⟨a, ha, rfl⟩ := List.mem_map.mp hk
      rw [List.map_singleton, List.mem_singleton] at hk'
      exact (hcross a ha last List.mem_cons_self).ne (heq.trans hk')
  · rintro k ⟨⟩
    exact ⟨last, List.mem_append_right _ List.mem_cons_self, rfl⟩

/-- **A page with room for a row covers the keys up to its cursor.** -/
theorem covers_slice {rows : List α} (h : Keyed key rows) {limit : ℕ} (hlimit : 1 ≤ limit)
    {cursor : α → ν} {order : ν → κ} (horder : ∀ a ∈ rows, order (cursor a) = key a)
    (after : Option κ) :
    Covers key after ((slice cursor limit ((rowsAfter key after rows).take (limit + 1))).nextKey.map
      order) rows (slice cursor limit ((rowsAfter key after rows).take (limit + 1))).items := by
  have htake : ((rowsAfter key after rows).take (limit + 1)).take limit =
      (rowsAfter key after rows).take limit := by
    rw [List.take_take, Nat.min_eq_left (Nat.le_succ limit)]
  unfold slice
  dsimp only
  rw [htake, List.length_take]
  split
  · next hfew =>
    have hall : (rowsAfter key after rows).take limit = rowsAfter key after rows :=
      List.take_of_length_le (by omega)
    rw [hall]
    exact covers_all h after
  · next hmany =>
    have hlong : limit < (rowsAfter key after rows).length := by omega
    obtain ⟨room, rfl⟩ : ∃ room, limit = room + 1 := ⟨limit - 1, by omega⟩
    have hroom : room < (rowsAfter key after rows).length := by omega
    have hfront : (rowsAfter key after rows).take (room + 1) =
        (rowsAfter key after rows).take room ++ [(rowsAfter key after rows)[room]] :=
      List.take_succ_eq_append_getElem hroom
    have hsplit : rowsAfter key after rows = (rowsAfter key after rows).take room ++
        (rowsAfter key after rows)[room] :: (rowsAfter key after rows).drop (room + 1) := by
      rw [← List.drop_eq_getElem_cons hroom, List.take_append_drop]
    have hrow := (mem_rowsAfter.mp (List.getElem_mem hroom)).1
    rw [hfront, List.getLast?_concat, Option.map_some, Option.map_some, horder _ hrow]
    exact covers_front h hsplit

/-! ### A listing -/

section

variable {ε : Type} (fetch : ℕ → Option ν → Except ε (KeysetPage α ν))

/-- Where a listing stands before its `n`-th request: at a cursor, or at its end. -/
def position : ℕ → Option (Option ν)
  | 0 => some none
  | n + 1 =>
    match position n with
    | none => none
    | some after =>
      match fetch n after with
      | .error _ => none
      | .ok page => page.nextKey.map some

/-- What a listing has returned before its `n`-th request. -/
def returned : ℕ → List α
  | 0 => []
  | n + 1 =>
    match position fetch n with
    | none => returned n
    | some after =>
      match fetch n after with
      | .error _ => returned n
      | .ok page => returned n ++ page.items

/-- **Every item that stays is returned exactly once.**  The `n`-th request finds the rows
`rows n`; an item is known by `ident` and stands under its key. -/
structure ListsOnce (rows : ℕ → List α) (key : α → κ) (ident : α → ι) : Prop where
  succeeds : ∀ n after, position fetch n = some after → ∃ page, fetch n after = .ok page
  noneTwice : ∀ n, ((returned fetch n).map key).Nodup
  once : ∀ n i k, position fetch n = none →
    (∀ m < n, position fetch m ≠ none → ∃ a ∈ rows m, ident a = i ∧ key a = k) →
    ∃ a, ident a = i ∧ key a = k ∧ a ∈ returned fetch n ∧
      ∀ before behind, returned fetch n = before ++ a :: behind →
        ∀ b ∈ before ++ behind, ident b ≠ i
  ends : ∀ n, (∀ m ≥ n, rows m = rows n) → ∃ m, position fetch m = none

/-- Every request answers for the rows it finds, from any cursor that an answer can name. -/
structure Answers (rows : ℕ → List α) (key : α → κ) (order : ν → κ) (valid : ν → Prop) : Prop where
  keyed : ∀ n, Keyed key (rows n)
  answer : ∀ n after, (∀ c ∈ after, valid c) → ∃ page, fetch n after = .ok page ∧
    (∀ c ∈ page.nextKey, valid c) ∧
    Covers key (after.map order) (page.nextKey.map order) (rows n) page.items

end

namespace Answers

variable {ε : Type} {fetch : ℕ → Option ν → Except ε (KeysetPage α ν)} {rows : ℕ → List α}
  {order : ν → κ} {valid : ν → Prop}

/-- The keys that a listing has passed. -/
def Passed (order : ν → κ) (at_ : Option (Option ν)) (k : κ) : Prop :=
  ∀ after ∈ at_, ∃ c ∈ after, k ≤ order c

/-- What a listing has done before its `n`-th request. -/
structure Progress (fetch : ℕ → Option ν → Except ε (KeysetPage α ν)) (rows : ℕ → List α)
    (key : α → κ) (order : ν → κ) (valid : ν → Prop) (n : ℕ) : Prop where
  valid : ∀ after ∈ position fetch n, ∀ c ∈ after, valid c
  passed : ∀ a ∈ returned fetch n, Passed order (position fetch n) (key a)
  distinct : ((returned fetch n).map key).Nodup
  found : ∀ a ∈ returned fetch n, ∃ m < n, position fetch m ≠ none ∧ a ∈ rows m
  complete : ∀ k, (∀ m < n, position fetch m ≠ none → ∃ a ∈ rows m, key a = k) →
    Passed order (position fetch n) k → ∃ a ∈ returned fetch n, key a = k

/-- One request goes from its cursor to the next one. -/
theorem progress_succ (h : Answers fetch rows key order valid) {n : ℕ}
    (hn : Progress fetch rows key order valid n) : Progress fetch rows key order valid (n + 1) := by
  cases hat : position fetch n with
  | none =>
    have hposition : position fetch (n + 1) = none := by simp only [position, hat]
    have hreturned : returned fetch (n + 1) = returned fetch n := by simp only [returned, hat]
    have hpassed (k : κ) : Passed order (position fetch n) k := by
      rw [hat]
      exact fun _ hafter => nomatch hafter
    constructor
    · rw [hposition]
      exact fun _ hafter => nomatch hafter
    · rw [hposition]
      exact fun _ _ _ hafter => nomatch hafter
    · rw [hreturned]
      exact hn.distinct
    · rw [hreturned]
      intro a ha
      obtain ⟨m, hm, hmem⟩ := hn.found a ha
      exact ⟨m, Nat.lt_succ_of_lt hm, hmem⟩
    · intro k hk _
      rw [hreturned]
      exact hn.complete k (fun m hm => hk m (Nat.lt_succ_of_lt hm)) (hpassed k)
  | some after =>
    obtain ⟨page, hpage, hvalid, hcovers⟩ := h.answer n after (hn.valid after hat)
    have hposition : position fetch (n + 1) = page.nextKey.map some := by
      simp only [position, hat, hpage]
    have hreturned : returned fetch (n + 1) = returned fetch n ++ page.items := by
      simp only [returned, hat, hpage]
    have hbefore {k : κ} (hk : Passed order (position fetch n) k) : ∃ c ∈ after, k ≤ order c :=
      hk after hat
    -- the next cursor is a key behind the present one, so what was passed stays passed
    have hmono {k : κ} (hk : Passed order (position fetch n) k) :
        Passed order (position fetch (n + 1)) k := by
      obtain ⟨c, hc, hle⟩ := hbefore hk
      rw [hposition]
      intro next hnext
      obtain ⟨c', hc', rfl⟩ := Option.map_eq_some_iff.mp hnext
      obtain ⟨a, ha, hkey⟩ := hcovers.reached (order c') (by rw [hc', Option.map_some]; rfl)
      have hlt := (hcovers.sound a ha).2.1 (order c) (Option.mem_map_of_mem order hc)
      rw [hkey] at hlt
      exact ⟨c', rfl, hle.trans hlt.le⟩
    have hitems {a : α} (ha : a ∈ page.items) : Passed order (position fetch (n + 1)) (key a) := by
      rw [hposition]
      intro next hnext
      obtain ⟨c', hc', rfl⟩ := Option.map_eq_some_iff.mp hnext
      refine ⟨c', rfl, (hcovers.sound a ha).2.2 _ ?_⟩
      rw [hc', Option.map_some]
      rfl
    constructor
    · rw [hposition]
      intro next hnext
      obtain ⟨c', hc', rfl⟩ := Option.map_eq_some_iff.mp hnext
      rintro c ⟨⟩
      exact hvalid _ hc'
    · rw [hreturned]
      intro a ha
      rcases List.mem_append.mp ha with ha | ha
      · exact hmono (hn.passed a ha)
      · exact hitems ha
    · rw [hreturned, List.map_append]
      refine List.nodup_append.mpr ⟨hn.distinct, hcovers.distinct, ?_⟩
      intro k hk k' hk' heq
      obtain ⟨a, ha, rfl⟩ := List.mem_map.mp hk
      obtain ⟨b, hb, rfl⟩ := List.mem_map.mp hk'
      obtain ⟨c, hc, hle⟩ := hbefore (hn.passed a ha)
      have hlt := (hcovers.sound b hb).2.1 (order c) (Option.mem_map_of_mem order hc)
      exact absurd (heq ▸ hle) (not_le.mpr hlt)
    · rw [hreturned]
      intro a ha
      rcases List.mem_append.mp ha with ha | ha
      · obtain ⟨m, hm, hmem⟩ := hn.found a ha
        exact ⟨m, Nat.lt_succ_of_lt hm, hmem⟩
      · refine ⟨n, Nat.lt_succ_self n, ?_, (hcovers.sound a ha).1⟩
        rw [hat]
        exact Option.some_ne_none after
    · intro k hk hpassed
      rw [hreturned]
      by_cases hold : Passed order (position fetch n) k
      · obtain ⟨a, ha, hkey⟩ := hn.complete k (fun m hm => hk m (Nat.lt_succ_of_lt hm)) hold
        exact ⟨a, List.mem_append_left _ ha, hkey⟩
      · obtain ⟨a, ha, rfl⟩ := hk n (Nat.lt_succ_self n) (by rw [hat]; exact Option.some_ne_none _)
        have hafter : After (after.map order) (key a) := by
          intro c hc
          obtain ⟨c', hc', rfl⟩ := Option.map_eq_some_iff.mp hc
          refine lt_of_not_ge fun hle => hold ?_
          rw [hat]
          rintro _ ⟨⟩
          exact ⟨c', hc', hle⟩
        have hupto : UpTo (page.nextKey.map order) (key a) := by
          intro c hc
          obtain ⟨c', hc', rfl⟩ := Option.map_eq_some_iff.mp hc
          rw [hposition, hc', Option.map_some] at hpassed
          obtain ⟨c'', ⟨⟩, hle⟩ := hpassed _ rfl
          exact hle
        exact ⟨a, List.mem_append_right _ (hcovers.complete a ha hafter hupto), rfl⟩

/-- What a listing has done, at every request. -/
theorem progress (h : Answers fetch rows key order valid) (n : ℕ) :
    Progress fetch rows key order valid n := by
  induction n with
  | zero =>
    constructor
    · rintro _ ⟨⟩ c hc
      exact nomatch hc
    · exact fun a ha => absurd ha List.not_mem_nil
    · exact List.nodup_nil
    · exact fun a ha => absurd ha List.not_mem_nil
    · intro k _ hpassed
      obtain ⟨c, hc, -⟩ := hpassed none rfl
      exact nomatch hc
  | succ n ih => exact h.progress_succ ih

/-- A listing of rows that no longer change ends, since every request leaves fewer rows
behind its cursor. -/
theorem exists_end (h : Answers fetch rows key order valid) {n : ℕ}
    (hsame : ∀ m ≥ n, rows m = rows n) : ∃ m, position fetch m = none := by
  suffices hbound : ∀ bound m after, m ≥ n → position fetch m = some after →
      (rowsAfter key (after.map order) (rows n)).length < bound → ∃ m, position fetch m = none by
    cases hat : position fetch n with
    | none => exact ⟨n, hat⟩
    | some after => exact hbound _ n after le_rfl hat (Nat.lt_succ_self _)
  intro bound
  induction bound with
  | zero => exact fun _ _ _ _ hlength => absurd hlength (Nat.not_lt_zero _)
  | succ bound ih =>
    intro m after hm hat hlength
    obtain ⟨page, hpage, -, hcovers⟩ := h.answer m after ((h.progress m).valid after hat)
    have hnext : position fetch (m + 1) = page.nextKey.map some := by
      simp only [position, hat, hpage]
    cases hkey : page.nextKey with
    | none => exact ⟨m + 1, by rw [hnext, hkey]; rfl⟩
    | some c =>
      rw [hkey, Option.map_some] at hnext hcovers
      refine ih (m + 1) (some c) (Nat.le_succ_of_le hm) hnext ?_
      obtain ⟨a, ha, hreached⟩ := hcovers.reached (order c) rfl
      obtain ⟨hrow, hafter, -⟩ := hcovers.sound a ha
      rw [hsame m hm] at hrow
      -- the row at the next cursor is no longer behind it, and nothing new is
      have hsubset : rowsAfter key (some (order c)) (rows n) ⊆
          (rowsAfter key (after.map order) (rows n)).filter fun b => key b ≠ key a := by
        intro b hb
        obtain ⟨hb, hlater⟩ := mem_rowsAfter.mp hb
        have hlt : key a < key b := by
          rw [hreached]
          exact hlater _ rfl
        refine List.mem_filter.mpr ⟨mem_rowsAfter.mpr ⟨hb, fun c' hc' => ?_⟩, ?_⟩
        · exact (hafter c' hc').trans hlt
        · simpa using hlt.ne'
      have hnodup : (rowsAfter key (some (order c)) (rows n)).Nodup :=
        (pairwise_rowsAfter (h.keyed n) _).imp fun hab heq => absurd (heq ▸ hab) (lt_irrefl _)
      have hle := (hnodup.subperm hsubset).length_le
      have hfewer : ((rowsAfter key (after.map order) (rows n)).filter
          fun b => key b ≠ key a).length < (rowsAfter key (after.map order) (rows n)).length := by
        refine List.length_filter_lt_length_iff_exists.mpr
          ⟨a, mem_rowsAfter.mpr ⟨hrow, hafter⟩, by simp⟩
      rw [Option.map_some]
      omega

/-- **A listing by key returns what stays exactly once, and ends** when the collection no
longer changes. -/
theorem listsOnce (h : Answers fetch rows key order valid) {ident : α → ι}
    (hident : ∀ n, Keyed ident (rows n)) : ListsOnce fetch rows key ident where
  succeeds n after hat := by
    obtain ⟨page, hpage, -⟩ := h.answer n after ((h.progress n).valid after hat)
    exact ⟨page, hpage⟩
  noneTwice n := (h.progress n).distinct
  once n i k hend hstays := by
    have hprogress := h.progress n
    have hpassed : Passed order (position fetch n) k := by
      rw [hend]
      exact fun _ hafter => nomatch hafter
    obtain ⟨a, ha, hkey⟩ := hprogress.complete k
      (fun m hm hat => (hstays m hm hat).imp fun b hb => ⟨hb.1, hb.2.2⟩) hpassed
    -- a returned row with the identity or the key of the item was the item itself
    have hitem {b : α} (hb : b ∈ returned fetch n) : ident b = i ↔ key b = k := by
      obtain ⟨m, hm, hat, hmem⟩ := hprogress.found b hb
      obtain ⟨row, hrow, hrowIdent, hrowKey⟩ := hstays m hm hat
      constructor
      · intro hsame
        rw [(hident m).eq_of_key hmem hrow (hsame.trans hrowIdent.symm), hrowKey]
      · intro hsame
        rw [(h.keyed m).eq_of_key hmem hrow (hsame.trans hrowKey.symm), hrowIdent]
    refine ⟨a, (hitem ha).mpr hkey, hkey, ha, ?_⟩
    intro before behind hsplit b hb hsame
    have hdistinct := hprogress.distinct
    rw [hsplit, List.map_append, List.map_cons, List.nodup_middle, List.nodup_cons] at hdistinct
    have hmem : b ∈ returned fetch n := by
      rw [hsplit]
      rcases List.mem_append.mp hb with hb | hb
      · exact List.mem_append_left _ hb
      · exact List.mem_append_right _ (List.mem_cons_of_mem a hb)
    have hbkey := (hitem hmem).mp hsame
    rw [← List.map_append] at hdistinct
    exact hdistinct.1 (List.mem_map.mpr ⟨b, hb, hbkey.trans hkey.symm⟩)
  ends _ := h.exists_end

end Answers

end Keyset

end Foundation
