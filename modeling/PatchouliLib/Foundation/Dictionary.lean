import PatchouliLib.Foundation.Table

/-!
# Insertion-ordered dictionaries

A dictionary is the list of its entries, oldest first.  An assignment to a key that is
there replaces the value where it stands; an assignment to a new key adds an entry at
the end.  Up to the order, what an assignment does is easily said: the old entry goes
and the new one comes.

## Main definitions

* `Dict.keys d` — the keys of a dictionary.
* `Dict.set d k v`, `Dict.update d es` — `d[k] = v`, and one assignment after another.

## Main results

* `Dict.mem_set`, `Dict.mem_update` — **the entries after assignments.**
* `Dict.keyed_set`, `Dict.keyed_update` — the keys stay distinct.
* `Dict.perm_iff` — dictionaries with the same entries differ in their order only.
-/

namespace Foundation.Dict

variable {κ ν : Type} {d es : List (κ × ν)} {k : κ} {v : ν} {e : κ × ν}

def keys (d : List (κ × ν)) : List κ := d.map Prod.fst

@[simp] theorem mem_keys : k ∈ keys d ↔ ∃ v, (k, v) ∈ d := by
  simp [keys]

@[simp] theorem keys_cons (e : κ × ν) (d : List (κ × ν)) : keys (e :: d) = e.1 :: keys d := rfl

theorem key_mem (h : e ∈ d) : e.1 ∈ keys d := List.mem_map.mpr ⟨e, h, rfl⟩

/-- A key tells its entry. -/
theorem eq_of_mem (h : (keys d).Nodup) {e e' : κ × ν} (he : e ∈ d) (he' : e' ∈ d)
    (hk : e.1 = e'.1) : e = e' :=
  Keyed.eq_of_key h he he' hk

/-- **Dictionaries with the same entries differ in their order only.** -/
theorem perm_iff {d d' : List (κ × ν)} (h : (keys d).Nodup) (h' : (keys d').Nodup) :
    d.Perm d' ↔ ∀ e, e ∈ d ↔ e ∈ d' :=
  List.perm_ext_iff_of_nodup (.of_map _ h) (.of_map _ h')

variable [DecidableEq κ]

/-- `d[k] = v`. -/
def set (d : List (κ × ν)) (k : κ) (v : ν) : List (κ × ν) :=
  if d.any (·.1 = k) then d.map fun e => if e.1 = k then (k, v) else e
  else d ++ [(k, v)]

/-- One assignment after another. -/
def update (d es : List (κ × ν)) : List (κ × ν) := es.foldl (fun d e => set d e.1 e.2) d

/-- A lookup by a key finds its entry. -/
theorem find?_key (h : (keys d).Nodup) :
    d.find? (fun e => decide (e.1 = k)) = some e ↔ e ∈ d ∧ e.1 = k :=
  Keyed.find?_eq h

theorem any_key : d.any (·.1 = k) = true ↔ k ∈ keys d := by
  simp [keys]

/-- **The entries after an assignment.** -/
theorem mem_set : e ∈ set d k v ↔ e = (k, v) ∨ e ∈ d ∧ e.1 ≠ k := by
  unfold set
  split
  · next hk =>
    obtain ⟨old, hold⟩ := mem_keys.mp (any_key.mp hk)
    rw [List.mem_map]
    constructor
    · rintro ⟨x, hx, rfl⟩
      by_cases hxk : x.1 = k
      · rw [if_pos hxk]
        exact .inl rfl
      · rw [if_neg hxk]
        exact .inr ⟨hx, hxk⟩
    · rintro (rfl | ⟨he, hne⟩)
      · exact ⟨(k, old), hold, if_pos rfl⟩
      · exact ⟨e, he, if_neg hne⟩
  · next hk =>
    rw [List.mem_append, List.mem_singleton]
    constructor
    · rintro (he | rfl)
      · exact .inr ⟨he, fun hek => hk (any_key.mpr (hek ▸ key_mem he))⟩
      · exact .inl rfl
    · rintro (rfl | ⟨he, -⟩)
      · exact .inr rfl
      · exact .inl he

theorem keyed_set (h : (keys d).Nodup) : (keys (set d k v)).Nodup := by
  unfold set
  split
  · refine Keyed.map h fun e _ => ?_
    split
    · next hk => exact hk.symm
    · rfl
  · next hk =>
    refine Keyed.concat h fun e he hek => hk (any_key.mpr ?_)
    have hek : e.1 = k := hek
    exact hek ▸ key_mem he

@[simp] theorem update_nil (d : List (κ × ν)) : update d [] = d := rfl

@[simp] theorem update_cons (d : List (κ × ν)) (e : κ × ν) (es : List (κ × ν)) :
    update d (e :: es) = update (set d e.1 e.2) es := rfl

/-- **The entries after assignments to distinct keys.** -/
theorem mem_update (hes : (keys es).Nodup) :
    e ∈ update d es ↔ e ∈ es ∨ e ∈ d ∧ e.1 ∉ keys es := by
  induction es generalizing d with
  | nil => simp [keys]
  | cons x es ih =>
    obtain ⟨hx, hes'⟩ := List.nodup_cons.mp hes
    rw [update_cons, ih hes', mem_set, List.mem_cons, keys_cons, List.mem_cons, not_or]
    constructor
    · rintro (he | ⟨rfl | ⟨he, hne⟩, hnot⟩)
      · exact .inl (.inr he)
      · exact .inl (.inl rfl)
      · exact .inr ⟨he, hne, hnot⟩
    · rintro ((rfl | he) | ⟨he, hne, hnot⟩)
      · exact .inr ⟨.inl rfl, hx⟩
      · exact .inl he
      · exact .inr ⟨.inr ⟨he, hne⟩, hnot⟩

theorem keyed_update (h : (keys d).Nodup) : (keys (update d es)).Nodup := by
  induction es generalizing d with
  | nil => exact h
  | cons x es ih => exact ih (keyed_set h)

end Foundation.Dict
