import PatchouliLib.Foundation.Unordered

/-!
# Grams, windows, runs

A gram of a word is a short factor of it.  The grams of a long word are collected
window by window, and the grams of one letter class run by run.  Neither way of
cutting the word loses a gram: consecutive windows overlap by one letter less than
the longest gram, and a factor of one class lies inside one run.

## Main definitions

* `IsGram` — a nonempty factor of bounded length.
* `startingIn`, `byWidth` — two orders in which the grams are listed.
* `runs` — the maximal factors of a letter class.
* `Budget.insertWithin`, `Budget.Collects` — a set kept as a list under a budget.

## Main results

* `mem_windows` — **the windows of a word hold exactly its grams.**
* `mem_runs_grams` — **the grams of the runs are the grams of the class.**
* `Budget.insertAll_ok`, `Budget.insertAll_error` — a loop of insertions gives the union,
  and fails exactly beyond the budget.
-/

namespace Foundation

namespace Grams

universe u

variable {α : Type u}

/-- A nonempty factor of at most `n` letters. -/
def IsGram (n : ℕ) (gram word : List α) : Prop :=
  gram ≠ [] ∧ gram.length ≤ n ∧ gram <:+: word

/-- A factor of a word is found by its offset. -/
theorem infix_iff_offset {gram word : List α} :
    gram <:+: word ↔ ∃ offset, offset + gram.length ≤ word.length ∧
      (word.drop offset).take gram.length = gram := by
  constructor
  · rintro ⟨before, after, rfl⟩
    refine ⟨before.length, ?_, ?_⟩
    · simp only [List.length_append]
      omega
    · rw [List.append_assoc, List.drop_left, List.take_left]
  · rintro ⟨offset, -, h⟩
    rw [← h]
    exact (List.take_prefix _ _).isInfix.trans (List.drop_suffix _ _).isInfix

theorem isGram_iff_offset {n : ℕ} {gram word : List α} :
    IsGram n gram word ↔ ∃ offset, 0 < gram.length ∧ gram.length ≤ n ∧
      offset + gram.length ≤ word.length ∧ (word.drop offset).take gram.length = gram := by
  unfold IsGram
  rw [infix_iff_offset, ← List.length_pos_iff]
  constructor
  · rintro ⟨hpos, hle, offset, hfit, htake⟩
    exact ⟨offset, hpos, hle, hfit, htake⟩
  · rintro ⟨offset, hpos, hle, hfit, htake⟩
    exact ⟨hpos, hle, offset, hfit, htake⟩

theorem IsGram.of_contained {n : ℕ} {gram word word' : List α} (h : IsGram n gram word)
    (hpart : word <:+: word') : IsGram n gram word' :=
  ⟨h.1, h.2.1, h.2.2.trans hpart⟩

/-- A word has finitely many grams. -/
theorem finite_isGram (n : ℕ) (word : List α) : {gram | IsGram n gram word}.Finite := by
  have hfin : {gram | gram ∈ word.tails.flatMap List.inits}.Finite := List.finite_toSet _
  refine hfin.subset ?_
  rintro gram ⟨-, -, before, after, rfl⟩
  rw [Set.mem_ofPred_eq, List.mem_flatMap]
  refine ⟨gram ++ after, (List.mem_tails _ _).mpr ?_, (List.mem_inits _ _).mpr ?_⟩
  · rw [List.append_assoc]
    exact List.suffix_append _ _
  · exact List.prefix_append _ _

/-! ### Two lists of grams -/

/-- The grams of at most `n` letters that start at one of the first `starts` offsets. -/
def startingIn (starts n : ℕ) (word : List α) : List (List α) :=
  (List.range (min starts word.length)).flatMap fun offset =>
    (List.range (min n (word.length - offset))).map fun width =>
      (word.drop offset).take (width + 1)

theorem mem_startingIn {starts n : ℕ} {gram word : List α} :
    gram ∈ startingIn starts n word ↔ ∃ offset < starts, 0 < gram.length ∧ gram.length ≤ n ∧
      offset + gram.length ≤ word.length ∧ (word.drop offset).take gram.length = gram := by
  simp only [startingIn, List.mem_flatMap, List.mem_map, List.mem_range]
  constructor
  · rintro ⟨offset, hoffset, width, hwidth, rfl⟩
    have hlength : ((word.drop offset).take (width + 1)).length = width + 1 := by
      rw [List.length_take, List.length_drop]
      omega
    refine ⟨offset, by omega, ?_⟩
    rw [hlength]
    exact ⟨by omega, by omega, by omega, rfl⟩
  · rintro ⟨offset, hoffset, hpos, hle, hfit, htake⟩
    refine ⟨offset, by omega, gram.length - 1, by omega, ?_⟩
    rwa [Nat.sub_add_cancel hpos]

/-- The grams of at most `n` letters, the shortest first. -/
def byWidth (n : ℕ) (word : List α) : List (List α) :=
  (List.range (min n word.length)).flatMap fun width =>
    (List.range (word.length - width)).map fun offset => (word.drop offset).take (width + 1)

theorem mem_byWidth {n : ℕ} {gram word : List α} :
    gram ∈ byWidth n word ↔ IsGram n gram word := by
  rw [isGram_iff_offset]
  simp only [byWidth, List.mem_flatMap, List.mem_map, List.mem_range]
  constructor
  · rintro ⟨width, hwidth, offset, hoffset, rfl⟩
    have hlength : ((word.drop offset).take (width + 1)).length = width + 1 := by
      rw [List.length_take, List.length_drop]
      omega
    refine ⟨offset, ?_⟩
    rw [hlength]
    exact ⟨by omega, by omega, by omega, rfl⟩
  · rintro ⟨offset, hpos, hle, hfit, htake⟩
    refine ⟨gram.length - 1, by omega, offset, by omega, ?_⟩
    rwa [Nat.sub_add_cancel hpos]

/-! ### Windows -/

/-- The multiples of `size` below `length`. -/
def starts (size length : ℕ) : List ℕ :=
  (List.range ((length + size - 1) / size)).map (· * size)

theorem mem_starts {size length start : ℕ} (hsize : 0 < size) :
    start ∈ starts size length ↔ start < length ∧ size ∣ start := by
  simp only [starts, List.mem_map, List.mem_range]
  constructor
  · rintro ⟨k, hk, rfl⟩
    refine ⟨?_, Dvd.intro_left k rfl⟩
    have := (Nat.le_div_iff_mul_le hsize).mp (Nat.succ_le_of_lt hk)
    rw [Nat.succ_mul] at this
    omega
  · rintro ⟨hlt, k, rfl⟩
    refine ⟨k, ?_, Nat.mul_comm k size⟩
    rw [← Nat.succ_le_iff, Nat.le_div_iff_mul_le hsize, Nat.succ_mul, Nat.mul_comm k size]
    omega

/-- What follows a start: a chunk and the letters that a gram at its end still needs. -/
def window (size n : ℕ) (word : List α) (start : ℕ) : List α :=
  (word.drop start).take (size + (n - 1))

theorem window_contained (size n : ℕ) (word : List α) (start : ℕ) :
    window size n word start <:+: word :=
  (List.take_prefix _ _).isInfix.trans (List.drop_suffix _ _).isInfix

theorem IsGram.of_mem_startingIn {m n : ℕ} {gram word : List α}
    (h : gram ∈ startingIn m n word) : IsGram n gram word := by
  obtain ⟨offset, -, h⟩ := mem_startingIn.mp h
  exact isGram_iff_offset.mpr ⟨offset, h⟩

/-- **The windows of a word hold exactly its grams.** -/
theorem mem_windows {size n : ℕ} (hsize : 0 < size) {gram word : List α} :
    (∃ start ∈ starts size word.length, gram ∈ startingIn size n (window size n word start)) ↔
      IsGram n gram word := by
  constructor
  · rintro ⟨start, -, hgram⟩
    exact (IsGram.of_mem_startingIn hgram).of_contained (window_contained size n word start)
  · intro hgram
    obtain ⟨offset, hpos, hle, hfit, htake⟩ := isGram_iff_offset.mp hgram
    -- the chunk of the gram is the one in which it starts
    have hmod : offset % size < size := Nat.mod_lt offset hsize
    have hsplit : size * (offset / size) + offset % size = offset := Nat.div_add_mod offset size
    refine ⟨size * (offset / size), (mem_starts hsize).mpr ⟨by omega, Dvd.intro _ rfl⟩, ?_⟩
    refine mem_startingIn.mpr ⟨offset % size, hmod, hpos, hle, ?_, ?_⟩
    · rw [window, List.length_take, List.length_drop]
      omega
    · rw [window, List.drop_take, List.drop_drop, hsplit, List.take_take, Nat.min_eq_left, htake]
      omega

/-! ### Runs -/

variable (p : α → Bool)

/-- The maximal factors whose letters are all in a class. -/
def runs : List α → List (List α)
  | [] => []
  | x :: xs =>
    if p x then (x :: xs.takeWhile p) :: runs (xs.dropWhile p)
    else runs xs
termination_by xs => xs.length
decreasing_by
  · exact Nat.lt_succ_of_le (List.length_dropWhile_le p xs)
  · exact Nat.lt_succ_self xs.length

variable {p}

/-- The letters of a run are in the class, and the run is a factor. -/
theorem all_contained_of_mem_runs {word run : List α} (h : run ∈ runs p word) :
    (∀ x ∈ run, p x) ∧ run <:+: word := by
  induction word using runs.induct p with
  | case1 =>
    rw [runs] at h
    exact absurd h List.not_mem_nil
  | case2 x xs hx ih =>
    rw [runs, if_pos hx, List.mem_cons] at h
    rcases h with rfl | h
    · refine ⟨?_, ⟨[], xs.dropWhile p, ?_⟩⟩
      · intro y hy
        rcases List.mem_cons.mp hy with rfl | hy
        · exact hx
        · exact List.mem_takeWhile_imp hy
      · rw [List.nil_append, List.cons_append, List.takeWhile_append_dropWhile]
    · obtain ⟨hall, hpart⟩ := ih h
      refine ⟨hall, hpart.trans ?_⟩
      exact ((List.dropWhile_suffix p).trans (List.suffix_cons x xs)).isInfix
  | case3 x xs hx ih =>
    rw [runs, if_neg hx] at h
    obtain ⟨hall, hpart⟩ := ih h
    exact ⟨hall, hpart.trans (List.suffix_cons x xs).isInfix⟩

/-- Letters outside the class add no run. -/
theorem runs_append_of_none {before : List α} (hnone : ∀ x ∈ before, p x = false)
    (after : List α) : runs p (before ++ after) = runs p after := by
  induction before with
  | nil => rfl
  | cons x before ih =>
    have hx : p x = false := hnone x List.mem_cons_self
    rw [List.cons_append, runs, hx, if_neg Bool.false_ne_true]
    exact ih fun y hy => hnone y (List.mem_cons_of_mem x hy)

/-- A prefix of letters of the class lies in the longest such prefix. -/
theorem prefix_takeWhile {part word : List α} (hall : ∀ x ∈ part, p x) (h : part <+: word) :
    part <+: word.takeWhile p := by
  obtain ⟨rest, rfl⟩ := h
  rw [List.takeWhile_append_of_pos hall]
  exact List.prefix_append _ _

/-- A nonempty factor of letters of the class lies inside one run. -/
theorem exists_run_of_contained {word part : List α} (hne : part ≠ []) (hall : ∀ x ∈ part, p x)
    (h : part <:+: word) : ∃ run ∈ runs p word, part <:+: run := by
  induction word using runs.induct p with
  | case1 => exact absurd (List.infix_nil.mp h) hne
  | case2 x xs hx ih =>
    rw [runs, if_pos hx]
    -- the part begins in the first run, or after it
    have hsplit : x :: xs = (x :: xs.takeWhile p) ++ xs.dropWhile p := by
      rw [List.cons_append, List.takeWhile_append_dropWhile]
    rw [hsplit, List.infix_append_iff] at h
    rcases h with h | h | ⟨left, right, rfl, hleft, hright⟩
    · exact ⟨_, List.mem_cons_self, h⟩
    · obtain ⟨run, hrun, hpart⟩ := ih h
      exact ⟨run, List.mem_cons_of_mem _ hrun, hpart⟩
    · -- the letter after the first run is not in the class
      cases right with
      | nil =>
        rw [List.append_nil]
        exact ⟨_, List.mem_cons_self, hleft.isInfix⟩
      | cons y ys =>
        obtain ⟨rest, hrest⟩ := hright
        have hy : p y := hall y (List.mem_append_right left List.mem_cons_self)
        have hne' : xs.dropWhile p ≠ [] := by
          rw [← hrest]
          exact List.cons_ne_nil y _
        have hstop := List.head_dropWhile_not p hne'
        simp only [← hrest, List.cons_append, List.head_cons, hy] at hstop
        cases hstop
  | case3 x xs hx ih =>
    rw [runs, if_neg hx]
    rcases List.infix_cons_iff.mp h with h | h
    · -- a part that begins with `x` has a letter outside the class
      cases part with
      | nil => exact absurd rfl hne
      | cons y ys =>
        obtain ⟨rfl, -⟩ := List.cons_prefix_cons.mp h
        exact absurd (hall y List.mem_cons_self) hx
    · exact ih h

/-- **The grams of the runs are the grams of the class.** -/
theorem mem_runs_grams {n : ℕ} {gram word : List α} :
    (∃ run ∈ runs p word, IsGram n gram run) ↔ IsGram n gram word ∧ ∀ x ∈ gram, p x := by
  constructor
  · rintro ⟨run, hrun, hgram⟩
    obtain ⟨hall, hpart⟩ := all_contained_of_mem_runs hrun
    exact ⟨hgram.of_contained hpart, fun x hx => hall x (hgram.2.2.subset hx)⟩
  · rintro ⟨⟨hne, hle, hpart⟩, hall⟩
    obtain ⟨run, hrun, hpart⟩ := exists_run_of_contained hne hall hpart
    exact ⟨run, hrun, hne, hle, hpart⟩

end Grams

/-! ### A set under a budget -/

namespace Budget

universe u

variable {ε α : Type u}

/-- The list holds every element of the set once, and nothing else. -/
structure Collects (S : Set α) (xs : List α) : Prop where
  nodup : xs.Nodup
  mem_iff : ∀ x, x ∈ xs ↔ x ∈ S

theorem Collects.empty : Collects (∅ : Set α) [] :=
  ⟨List.nodup_nil, fun _ => ⟨fun h => absurd h List.not_mem_nil, fun h => absurd h id⟩⟩

theorem Collects.finite {S : Set α} {xs : List α} (h : Collects S xs) : S.Finite :=
  xs.finite_toSet.subset fun x hx => (h.mem_iff x).mpr hx

/-- The list is as long as the set is large. -/
theorem Collects.length_eq {S : Set α} {xs : List α} (h : Collects S xs) :
    xs.length = S.ncard := by
  classical
  have hS : S = ↑xs.toFinset := by
    ext x
    rw [List.coe_toFinset, Set.mem_ofPred_eq, h.mem_iff]
  rw [hS, Set.ncard_coe_finset, List.toFinset_card_of_nodup h.nodup]

variable [DecidableEq α]

/-- Insert one more element, unless the set is full. -/
def insertWithin (budget : ℕ) (e : ε) (seen : List α) (x : α) : Except ε (List α) :=
  if x ∈ seen then .ok seen
  else if seen.length < budget then .ok (seen ++ [x])
  else .error e

/-- Insert every element of a list. -/
def insertAll (budget : ℕ) (e : ε) (seen xs : List α) : Except ε (List α) :=
  xs.foldlM (insertWithin budget e) seen

omit [DecidableEq α] in
theorem union_cons (S : Set α) (x : α) (xs : List α) :
    S ∪ {y | y ∈ x :: xs} = S ∪ {x} ∪ {y | y ∈ xs} := by
  ext y
  simp only [Set.mem_union, Set.mem_singleton_iff, Set.mem_ofPred_eq, List.mem_cons, or_assoc]

variable {budget : ℕ} {e : ε} {S : Set α} {seen seen' xs : List α} {x : α}

theorem insertWithin_ok (hseen : Collects S seen) (hle : seen.length ≤ budget)
    (h : insertWithin budget e seen x = .ok seen') :
    Collects (S ∪ {x}) seen' ∧ seen'.length ≤ budget := by
  unfold insertWithin at h
  by_cases hx : x ∈ seen
  · rw [if_pos hx, Except.ok.injEq] at h
    subst h
    have hS : S ∪ {x} = S := Set.union_eq_left.mpr
      (Set.singleton_subset_iff.mpr ((hseen.mem_iff x).mp hx))
    rw [hS]
    exact ⟨hseen, hle⟩
  · rw [if_neg hx] at h
    by_cases hroom : seen.length < budget
    · rw [if_pos hroom, Except.ok.injEq] at h
      subst h
      refine ⟨⟨?_, ?_⟩, ?_⟩
      · exact List.nodup_append.mpr ⟨hseen.nodup, List.nodup_singleton x, fun a ha b hb => by
          rw [List.mem_singleton] at hb
          rintro rfl
          exact hx (hb ▸ ha)⟩
      · intro y
        rw [List.mem_append, List.mem_singleton, hseen.mem_iff, Set.mem_union, Set.mem_singleton_iff]
      · rw [List.length_append, List.length_singleton]
        omega
    · rw [if_neg hroom] at h
      cases h

theorem insertWithin_error {e' : ε} (hseen : Collects S seen)
    (h : insertWithin budget e seen x = .error e') : e' = e ∧ budget < (S ∪ {x}).ncard := by
  unfold insertWithin at h
  by_cases hx : x ∈ seen
  · rw [if_pos hx] at h
    cases h
  · rw [if_neg hx] at h
    by_cases hroom : seen.length < budget
    · rw [if_pos hroom] at h
      cases h
    · rw [if_neg hroom, Except.error.injEq] at h
      have hnot : x ∉ S := fun hxS => hx ((hseen.mem_iff x).mpr hxS)
      have hcard : (S ∪ {x}).ncard = S.ncard + 1 := by
        rw [Set.union_singleton, Set.ncard_insert_of_notMem hnot hseen.finite]
      refine ⟨h.symm, ?_⟩
      rw [hcard, ← hseen.length_eq]
      omega

theorem insertAll_ok (hseen : Collects S seen) (hle : seen.length ≤ budget)
    (h : insertAll budget e seen xs = .ok seen') :
    Collects (S ∪ {x | x ∈ xs}) seen' ∧ seen'.length ≤ budget := by
  unfold insertAll at h
  induction xs generalizing S seen with
  | nil =>
    rw [List.foldlM_nil, Fallible.pure_ok] at h
    subst h
    simpa using ⟨hseen, hle⟩
  | cons x xs ih =>
    rw [List.foldlM_cons] at h
    obtain ⟨mid, hmid, h⟩ := Fallible.bind_ok.mp h
    obtain ⟨hmid, hle⟩ := insertWithin_ok hseen hle hmid
    rw [union_cons]
    exact ih hmid hle h

theorem insertAll_error {e' : ε} (hseen : Collects S seen) (hle : seen.length ≤ budget)
    (h : insertAll budget e seen xs = .error e') :
    e' = e ∧ budget < (S ∪ {x | x ∈ xs}).ncard := by
  unfold insertAll at h
  induction xs generalizing S seen with
  | nil =>
    rw [List.foldlM_nil] at h
    cases h
  | cons x xs ih =>
    rw [List.foldlM_cons] at h
    rw [union_cons]
    rcases Fallible.bind_error.mp h with hmid | ⟨mid, hmid, h⟩
    · obtain ⟨rfl, hlt⟩ := insertWithin_error hseen hmid
      refine ⟨rfl, hlt.trans_le ?_⟩
      refine Set.ncard_le_ncard Set.subset_union_left ?_
      exact (hseen.finite.union (Set.finite_singleton x)).union xs.finite_toSet
    · obtain ⟨hmid, hle⟩ := insertWithin_ok hseen hle hmid
      exact ih hmid hle h

end Budget

end Foundation
