import Mathlib

/-!
# Tables with a key

A table is the list of its rows.  A key is unique when no two rows share it, and
then a lookup by the key finds the row.  Between two states of a table some rows
were changed where they stand and others were added at the end: the table has
grown.

## Main definitions

* `Keyed key rows` — no two rows have the same key.
* `Grows R xs ys` — every row of `xs` has become, at its place in `ys`, a row
  that `R` relates it to, and other rows may follow.
* `AddedUnder key k xs ys` — `ys` is `xs` with rows under the key `k` added.

## Main results

* `Keyed.find?_eq` — a lookup by a unique key finds the row.
* `Keyed.concat`, `Keyed.map` — an insert of a new key and an update that keeps
  the keys keep them unique.
* `Keyed.filter_eq_singleton` — a condition that only one row meets.
* `filter_concat_of_unselected`, `filter_map_of_unselected`,
  `filter_filter_of_unselected` — statements on other rows leave the selected rows.
* `Grows.trans`, `Grows.concat`, `Grows.map` — the ways a table grows.
* `Grows.exists_of_mem` — no row is lost.
* `AddedUnder.filter_eq`, `AddedUnder.find?_eq`, `AddedUnder.contains_eq` — what selects no
  row under the key selects the same rows before and after.
-/

namespace Foundation

variable {α κ : Type}

/-! ### Unique keys -/

/-- No two rows have the same key. -/
def Keyed (key : α → κ) (rows : List α) : Prop := (rows.map key).Nodup

namespace Keyed

variable {key : α → κ} {rows : List α} {a b : α}

theorem nil (key : α → κ) : Keyed key [] := List.nodup_nil

/-- Two rows with the same key are one row. -/
theorem eq_of_key (h : Keyed key rows) (ha : a ∈ rows) (hb : b ∈ rows) (hk : key a = key b) :
    a = b :=
  List.inj_on_of_nodup_map h ha hb hk

/-- **A lookup by a unique key finds the row.** -/
theorem find?_eq [DecidableEq κ] (h : Keyed key rows) {k : κ} :
    rows.find? (fun r => decide (key r = k)) = some a ↔ a ∈ rows ∧ key a = k := by
  constructor
  · intro hfind
    have hk : key a = k := by simpa using List.find?_some hfind
    exact ⟨List.mem_of_find?_eq_some hfind, hk⟩
  · rintro ⟨ha, hk⟩
    cases hfind : rows.find? fun r => decide (key r = k) with
    | none =>
      have hnot := List.find?_eq_none.mp hfind a ha
      exact absurd hk (by simpa using hnot)
    | some b =>
      have hb : key b = k := by simpa using List.find?_some hfind
      rw [h.eq_of_key (List.mem_of_find?_eq_some hfind) ha (hb.trans hk.symm)]

/-- A key is unique when a part of it is. -/
theorem of_comp {κ' : Type} (part : κ → κ') (h : Keyed (fun r => part (key r)) rows) :
    Keyed key rows := by
  unfold Keyed at h ⊢
  refine List.Nodup.of_map part ?_
  rwa [List.map_map]

/-- An insert of a new key. -/
theorem concat (h : Keyed key rows) (ha : ∀ b ∈ rows, key b ≠ key a) : Keyed key (rows ++ [a]) := by
  unfold Keyed at h ⊢
  rw [List.map_append]
  refine List.nodup_append.mpr ⟨h, List.nodup_singleton _, ?_⟩
  intro x hx y hy hxy
  obtain ⟨b, hb, rfl⟩ := List.mem_map.mp hx
  rw [List.map_singleton, List.mem_singleton] at hy
  exact ha b hb (hxy.trans hy)

/-- An update that keeps the key of every row. -/
theorem map (h : Keyed key rows) {f : α → α} (hf : ∀ a ∈ rows, key (f a) = key a) :
    Keyed key (rows.map f) := by
  have hkeys : (rows.map f).map key = rows.map key := by
    rw [List.map_map]
    exact List.map_congr_left hf
  unfold Keyed at h ⊢
  rwa [hkeys]

/-- An update of one row that gives it a free label. -/
theorem replace {β : Type} {label : α → β} (hlabel : Keyed label rows) (b : α) (p : α → Prop)
    [DecidablePred p] (hone : ∀ c ∈ rows, ∀ d ∈ rows, p c → p d → c = d)
    (hfree : ∀ c ∈ rows, ¬p c → label c ≠ label b) :
    Keyed label (rows.map fun c => if p c then b else c) := by
  unfold Keyed at hlabel ⊢
  rw [List.map_map]
  rw [List.Nodup, List.pairwise_map] at hlabel ⊢
  refine hlabel.imp_of_mem fun {c d} hc hd hne => ?_
  by_cases hpc : p c
  · by_cases hpd : p d
    · exact absurd (congrArg label (hone c hc d hd hpc hpd)) hne
    · simp only [Function.comp, if_pos hpc, if_neg hpd]
      exact (hfree d hd hpd).symm
  · by_cases hpd : p d
    · simp only [Function.comp, if_neg hpc, if_pos hpd]
      exact hfree c hc hpc
    · simpa only [Function.comp, if_neg hpc, if_neg hpd] using hne

theorem filter (h : Keyed key rows) (p : α → Bool) : Keyed key (rows.filter p) :=
  h.sublist (List.filter_sublist.map key)

/-- A condition that only one row meets selects this row. -/
theorem filter_eq_singleton (h : Keyed key rows) (ha : a ∈ rows) {p : α → Bool} (hpa : p a = true)
    (hp : ∀ b ∈ rows, p b = true → b = a) : rows.filter p = [a] := by
  induction rows with
  | nil => cases ha
  | cons b rows ih =>
    obtain ⟨hb, hrows⟩ : key b ∉ rows.map key ∧ (rows.map key).Nodup := List.nodup_cons.mp h
    have hrest : ∀ c ∈ rows, p c = true → c = a := fun c hc =>
      hp c (List.mem_cons_of_mem b hc)
    by_cases hpb : p b = true
    · obtain rfl : b = a := hp b List.mem_cons_self hpb
      have hnone : rows.filter p = [] := by
        refine List.filter_eq_nil_iff.mpr fun c hc hpc => hb ?_
        exact List.mem_map.mpr ⟨c, hc, by rw [hrest c hc hpc]⟩
      rw [List.filter_cons_of_pos hpb, hnone]
    · rcases List.mem_cons.mp ha with rfl | ha
      · exact absurd hpa hpb
      · rw [List.filter_cons_of_neg hpb]
        exact ih hrows ha hrest

end Keyed

/-! ### Selected rows -/

/-- An insert of another row. -/
theorem filter_concat_of_unselected {rows : List α} {a : α} {q : α → Bool} (h : q a = false) :
    (rows ++ [a]).filter q = rows.filter q := by
  rw [List.filter_append, List.filter_singleton, h]
  exact List.append_nil _

/-- An update of other rows. -/
theorem filter_map_of_unselected {rows : List α} {f : α → α} {q : α → Bool}
    (h : ∀ a ∈ rows, f a = a ∨ q a = false ∧ q (f a) = false) :
    (rows.map f).filter q = rows.filter q := by
  induction rows with
  | nil => rfl
  | cons a rows ih =>
    have hrest := ih fun b hb => h b (List.mem_cons_of_mem a hb)
    rw [List.map_cons, List.filter_cons, List.filter_cons, hrest]
    rcases h a List.mem_cons_self with ha | ⟨ha, hfa⟩
    · rw [ha]
    · rw [ha, hfa]
      rfl

/-- A delete of other rows. -/
theorem filter_filter_of_unselected {rows : List α} {p q : α → Bool}
    (h : ∀ a ∈ rows, q a = true → p a = true) : (rows.filter p).filter q = rows.filter q := by
  rw [List.filter_filter]
  refine List.filter_congr fun a ha => ?_
  cases hq : q a with
  | false => rfl
  | true => rw [h a ha hq, Bool.and_true]

/-! ### Growing tables -/

/-- Every row of the first table has become a related row at its place in the
second, and other rows may follow. -/
inductive Grows (R : α → α → Prop) : List α → List α → Prop
  | nil (ys : List α) : Grows R [] ys
  | cons {a b : α} {xs ys : List α} (h : R a b) (hs : Grows R xs ys) : Grows R (a :: xs) (b :: ys)

namespace Grows

variable {R : α → α → Prop} {xs ys zs : List α}

theorem refl (hR : ∀ a, R a a) : ∀ xs, Grows R xs xs
  | [] => .nil []
  | a :: xs => .cons (hR a) (refl hR xs)

theorem trans (hR : ∀ {a b c}, R a b → R b c → R a c) (h : Grows R xs ys) (h' : Grows R ys zs) :
    Grows R xs zs := by
  induction h generalizing zs with
  | nil => exact .nil zs
  | cons hab _ ih =>
    cases h' with
    | cons hbc hs' => exact .cons (hR hab hbc) (ih hs')

theorem append (hR : ∀ a, R a a) (xs added : List α) : Grows R xs (xs ++ added) := by
  induction xs with
  | nil => exact .nil _
  | cons a xs ih => exact .cons (hR a) ih

theorem map {f : α → α} (hf : ∀ a ∈ xs, R a (f a)) : Grows R xs (xs.map f) := by
  induction xs with
  | nil => exact .nil _
  | cons a xs ih =>
    have ha : R a (f a) := hf a List.mem_cons_self
    have hs : Grows R xs (xs.map f) := ih fun b hb => hf b (List.mem_cons_of_mem a hb)
    exact .cons ha hs

theorem mono {S : α → α → Prop} (h : Grows R xs ys) (hRS : ∀ a b, R a b → S a b) :
    Grows S xs ys := by
  induction h with
  | nil => exact .nil _
  | cons hab _ ih => exact .cons (hRS _ _ hab) ih

/-- **No row is lost.** -/
theorem exists_of_mem (h : Grows R xs ys) {a : α} (ha : a ∈ xs) : ∃ b ∈ ys, R a b := by
  induction h with
  | nil => cases ha
  | cons hab _ ih =>
    rcases List.mem_cons.mp ha with rfl | ha
    · exact ⟨_, List.mem_cons_self, hab⟩
    · obtain ⟨b, hb, hR⟩ := ih ha
      exact ⟨b, List.mem_cons_of_mem _ hb, hR⟩

end Grows

/-! ### Added rows -/

/-- The rows of the first table, and after them rows under the key `k`. -/
def AddedUnder (key : α → κ) (k : κ) (xs ys : List α) : Prop :=
  ∃ added, ys = xs ++ added ∧ ∀ a ∈ added, key a = k

namespace AddedUnder

variable {key : α → κ} {k : κ} {xs ys zs : List α}

theorem refl (key : α → κ) (k : κ) (xs : List α) : AddedUnder key k xs xs :=
  ⟨[], (List.append_nil xs).symm, fun _ ha => absurd ha List.not_mem_nil⟩

theorem concat {a : α} (ha : key a = k) (xs : List α) : AddedUnder key k xs (xs ++ [a]) := by
  refine ⟨[a], rfl, fun b hb => ?_⟩
  rw [List.mem_singleton.mp hb]
  exact ha

theorem trans (h : AddedUnder key k xs ys) (h' : AddedUnder key k ys zs) :
    AddedUnder key k xs zs := by
  obtain ⟨added, rfl, hadded⟩ := h
  obtain ⟨added', rfl, hadded'⟩ := h'
  refine ⟨added ++ added', List.append_assoc _ _ _, fun a ha => ?_⟩
  rcases List.mem_append.mp ha with ha | ha
  · exact hadded a ha
  · exact hadded' a ha

/-- A selection of no row under the key. -/
theorem filter_eq (h : AddedUnder key k xs ys) {p : α → Bool}
    (hp : ∀ a, key a = k → p a = false) : ys.filter p = xs.filter p := by
  obtain ⟨added, rfl, hadded⟩ := h
  have hnone : added.filter p = [] := by
    rw [List.filter_eq_nil_iff]
    intro a ha
    rw [hp a (hadded a ha)]
    exact Bool.false_ne_true
  rw [List.filter_append, hnone, List.append_nil]

/-- A lookup of no row under the key. -/
theorem find?_eq (h : AddedUnder key k xs ys) {p : α → Bool}
    (hp : ∀ a, key a = k → p a = false) : ys.find? p = xs.find? p := by
  obtain ⟨added, rfl, hadded⟩ := h
  have hnone : added.find? p = none := by
    rw [List.find?_eq_none]
    intro a ha
    rw [hp a (hadded a ha)]
    exact Bool.false_ne_true
  rw [List.find?_append, hnone, Option.or_none]

/-- A set of keys holds the same other keys. -/
theorem contains_eq [DecidableEq κ] {k k' : κ} {xs ys : List κ} (h : AddedUnder id k xs ys)
    (hne : k' ≠ k) : ys.contains k' = xs.contains k' := by
  obtain ⟨added, rfl, hadded⟩ := h
  have hmem : k' ∈ xs ++ added ↔ k' ∈ xs := by
    rw [List.mem_append]
    constructor
    · rintro (hk | hk)
      · exact hk
      · exact absurd (hadded k' hk) hne
    · exact .inl
  rw [Bool.eq_iff_iff, List.contains_iff_mem, List.contains_iff_mem]
  exact hmem

end AddedUnder

end Foundation
