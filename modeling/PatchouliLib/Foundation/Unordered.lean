import PatchouliLib.Foundation.Transaction

/-!
# Results that do not depend on an order

A list that stands for a collection may come in any order.  What is computed from
it is independent of that order when the elements are treated alike and the results
are put into an order of their own.

## Main results

* `insertionSort_eq_of_perm_of_antisymm` — **a sort by a key that tells the elements
  apart undoes every rearrangement.**
* `Fallible.mapM_perm` — a traversal of a rearranged list.
* `Fallible.eq_of_ok_iff` — two computations with the same results that raise the same
  single error are one.
* `Fallible.RaisesOnly.foldlM` — a loop raises what its rounds raise.
-/

namespace Foundation

universe u

/-! ### Sorting -/

/-- **A sort by a key that tells the elements apart undoes every rearrangement.** -/
theorem insertionSort_eq_of_perm_of_antisymm {α : Type u} {r : α → α → Prop} [DecidableRel r]
    [Std.Total r] [IsTrans α r] {xs ys : List α} (hperm : xs.Perm ys)
    (hanti : ∀ a ∈ xs, ∀ b ∈ xs, r a b → r b a → a = b) :
    xs.insertionSort r = ys.insertionSort r := by
  have hsorted : (xs.insertionSort r).Perm (ys.insertionSort r) :=
    ((List.perm_insertionSort r xs).trans hperm).trans (List.perm_insertionSort r ys).symm
  refine hsorted.eq_of_pairwise ?_ (List.pairwise_insertionSort r xs)
    (List.pairwise_insertionSort r ys)
  intro a b ha hb hab hba
  have ha' : a ∈ xs := (List.mem_insertionSort r).mp ha
  have hb' : b ∈ xs := hperm.mem_iff.mpr ((List.mem_insertionSort r).mp hb)
  exact hanti a ha' b hb' hab hba

/-! ### Traversals and loops -/

namespace Fallible

variable {ε α β : Type u}

/-- A computation in two parts fails in one of them. -/
theorem bind_error {x : Except ε α} {f : α → Except ε β} {e : ε} :
    (x >>= f) = .error e ↔ x = .error e ∨ ∃ a, x = .ok a ∧ f a = .error e := by
  cases x with
  | ok a => simp [bind, Except.bind]
  | error e' => simp [bind, Except.bind]

theorem mapM_cons_ok {f : α → Except ε β} {x : α} {xs : List α} {ys : List β} :
    (x :: xs).mapM f = .ok ys ↔ ∃ y rest, f x = .ok y ∧ xs.mapM f = .ok rest ∧ y :: rest = ys := by
  rw [List.mapM_cons, bind_ok]
  constructor
  · rintro ⟨y, hy, h⟩
    obtain ⟨rest, hrest, h⟩ := bind_ok.mp h
    exact ⟨y, rest, hy, hrest, pure_ok.mp h⟩
  · rintro ⟨y, rest, hy, hrest, h⟩
    exact ⟨y, hy, bind_ok.mpr ⟨rest, hrest, pure_ok.mpr h⟩⟩

/-- **A traversal of a rearranged list** gives the rearranged results. -/
theorem mapM_perm {f : α → Except ε β} {xs xs' : List α} (hperm : xs.Perm xs') {ys : List β}
    (h : xs.mapM f = .ok ys) : ∃ ys', xs'.mapM f = .ok ys' ∧ ys.Perm ys' := by
  induction hperm generalizing ys with
  | nil => exact ⟨ys, h, .refl ys⟩
  | cons x _ ih =>
    obtain ⟨y, rest, hy, hrest, rfl⟩ := mapM_cons_ok.mp h
    obtain ⟨rest', hrest', hp⟩ := ih hrest
    exact ⟨y :: rest', mapM_cons_ok.mpr ⟨y, rest', hy, hrest', rfl⟩, hp.cons y⟩
  | swap x x' _ =>
    obtain ⟨y, rest, hy, hrest, rfl⟩ := mapM_cons_ok.mp h
    obtain ⟨y', rest', hy', hrest', rfl⟩ := mapM_cons_ok.mp hrest
    refine ⟨y' :: y :: rest', ?_, .swap y' y rest'⟩
    exact mapM_cons_ok.mpr ⟨y', y :: rest', hy',
      mapM_cons_ok.mpr ⟨y, rest', hy, hrest', rfl⟩, rfl⟩
  | trans _ _ ih ih' =>
    obtain ⟨ys', hys', hp⟩ := ih h
    obtain ⟨ys'', hys'', hp'⟩ := ih' hys'
    exact ⟨ys'', hys'', hp.trans hp'⟩

/-- Every element of a successful traversal has a result. -/
theorem exists_ok_of_mapM {f : α → Except ε β} {xs : List α} {ys : List β} (h : xs.mapM f = .ok ys) :
    ∀ x ∈ xs, ∃ y, f x = .ok y := by
  induction xs generalizing ys with
  | nil => exact fun x hx => absurd hx List.not_mem_nil
  | cons x xs ih =>
    obtain ⟨y, rest, hy, hrest, -⟩ := mapM_cons_ok.mp h
    rintro x' hx'
    rcases List.mem_cons.mp hx' with rfl | hx'
    · exact ⟨y, hy⟩
    · exact ih hrest x' hx'

/-- Every result of a traversal is the result of an element. -/
theorem exists_of_mem_mapM {f : α → Except ε β} {xs : List α} {ys : List β}
    (h : xs.mapM f = .ok ys) : ∀ y ∈ ys, ∃ x ∈ xs, f x = .ok y := by
  induction xs generalizing ys with
  | nil =>
    rw [List.mapM_nil, pure_ok] at h
    subst h
    exact fun y hy => absurd hy List.not_mem_nil
  | cons x xs ih =>
    obtain ⟨y, rest, hy, hrest, rfl⟩ := mapM_cons_ok.mp h
    rintro y' hy'
    rcases List.mem_cons.mp hy' with rfl | hy'
    · exact ⟨x, List.mem_cons_self, hy⟩
    · obtain ⟨x', hx', hok⟩ := ih hrest y' hy'
      exact ⟨x', List.mem_cons_of_mem x hx', hok⟩

theorem length_eq_of_mapM {f : α → Except ε β} {xs : List α} {ys : List β}
    (h : xs.mapM f = .ok ys) : ys.length = xs.length := by
  induction xs generalizing ys with
  | nil =>
    rw [List.mapM_nil, pure_ok] at h
    rw [← h, List.length_nil, List.length_nil]
  | cons x xs ih =>
    obtain ⟨y, rest, -, hrest, rfl⟩ := mapM_cons_ok.mp h
    rw [List.length_cons, List.length_cons, ih hrest]

/-- A loop of checks passes when each of them does. -/
theorem forM_ok {f : α → Except ε PUnit.{u + 1}} {xs : List α} :
    xs.forM f = .ok ⟨⟩ ↔ ∀ x ∈ xs, f x = .ok ⟨⟩ := by
  induction xs with
  | nil => exact ⟨fun _ x hx => absurd hx List.not_mem_nil, fun _ => rfl⟩
  | cons x xs ih =>
    rw [List.forM_eq_forM, List.forM_cons, bind_ok, List.forall_mem_cons]
    constructor
    · rintro ⟨⟨⟩, hx, hrest⟩
      exact ⟨hx, ih.mp hrest⟩
    · rintro ⟨hx, hrest⟩
      exact ⟨⟨⟩, hx, ih.mpr hrest⟩

/-- A traversal keeps what each element has in common with its result. -/
theorem map_eq_map_of_mapM {γ : Type u} {f : α → Except ε β} {g : α → γ} {h : β → γ} {xs : List α}
    {ys : List β} (hf : ∀ x ∈ xs, ∀ y, f x = .ok y → g x = h y) (hm : xs.mapM f = .ok ys) :
    xs.map g = ys.map h := by
  induction xs generalizing ys with
  | nil =>
    rw [List.mapM_nil, pure_ok] at hm
    rw [← hm]
    rfl
  | cons x xs ih =>
    obtain ⟨y, rest, hy, hrest, rfl⟩ := mapM_cons_ok.mp hm
    have htail := ih (fun x' hx' => hf x' (List.mem_cons_of_mem x hx')) hrest
    rw [List.map_cons, List.map_cons, hf x List.mem_cons_self y hy, htail]

/-- Two computations with the same results that raise the same single error. -/
theorem eq_of_ok_iff {e : ε} {x y : Except ε α} (hx : RaisesOnly e x) (hy : RaisesOnly e y)
    (h : ∀ a, x = .ok a ↔ y = .ok a) : x = y := by
  cases hxe : x with
  | ok a => exact ((h a).mp hxe).symm
  | error e' =>
    cases hye : y with
    | ok a =>
      have hxa := (h a).mpr hye
      rw [hxe] at hxa
      cases hxa
    | error e'' => rw [hx e' hxe, hy e'' hye]

theorem RaisesOnly.foldlM {σ : Type u} {e : ε} {f : σ → α → Except ε σ}
    (hf : ∀ s a, RaisesOnly e (f s a)) (xs : List α) (s : σ) : RaisesOnly e (xs.foldlM f s) := by
  induction xs generalizing s with
  | nil =>
    rw [List.foldlM_nil]
    exact ok s
  | cons x xs ih =>
    rw [List.foldlM_cons]
    exact bind (hf s x) fun t => ih t

end Fallible

end Foundation
