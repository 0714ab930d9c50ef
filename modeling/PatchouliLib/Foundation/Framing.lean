import PatchouliLib.Foundation.Bytes

/-!
# Self-delimiting encodings

An encoding tells where it ends when no encoding of another value is a beginning
of what follows.  Then values may stand one after the other without separators,
and the whole tells them all.

## Main definitions

* `SelfDelimiting P enc` — the encodings of the values in `P` tell where they end.
* `widthFrame w part` — a byte string behind its length in `w` bytes.
* `lengthFrame part` — a byte string behind its length in eight bytes.

## Main results

* `SelfDelimiting.flatMap_inj` — **a concatenation of encodings tells the values.**
* `SelfDelimiting.widthFrame`, `SelfDelimiting.lengthFrame` — a length frame tells where it
  ends, when the length fits.
-/

namespace Foundation

variable {α β γ : Type*}

/-- The encoding of a value in `P` is no beginning of another one. -/
def SelfDelimiting (P : α → Prop) (enc : α → List β) : Prop :=
  ∀ ⦃a b : α⦄ ⦃r r' : List β⦄, P a → P b → enc a ++ r = enc b ++ r' → a = b ∧ r = r'

namespace SelfDelimiting

variable {P : α → Prop} {enc : α → List β}

/-- The encodings of as many values are told apart from what follows them. -/
theorem flatMap_append_inj (h : SelfDelimiting P enc) {xs ys : List α} {r r' : List β}
    (hxs : ∀ x ∈ xs, P x) (hys : ∀ y ∈ ys, P y) (hlength : xs.length = ys.length)
    (heq : xs.flatMap enc ++ r = ys.flatMap enc ++ r') : xs = ys ∧ r = r' := by
  induction xs generalizing ys with
  | nil =>
    obtain rfl := List.length_eq_zero_iff.mp hlength.symm
    exact ⟨rfl, heq⟩
  | cons x xs ih =>
    cases ys with
    | nil => exact absurd hlength (by simp)
    | cons y ys =>
      rw [List.flatMap_cons, List.flatMap_cons, List.append_assoc, List.append_assoc] at heq
      obtain ⟨rfl, hrest⟩ := h (hxs x List.mem_cons_self) (hys y List.mem_cons_self) heq
      obtain ⟨rfl, hr⟩ := ih (fun x' hx' => hxs x' (List.mem_cons_of_mem _ hx'))
        (fun y' hy' => hys y' (List.mem_cons_of_mem _ hy')) (Nat.succ.inj hlength) hrest
      exact ⟨rfl, hr⟩

/-- **A concatenation of nonempty encodings tells the values.** -/
theorem flatMap_inj (h : SelfDelimiting P enc) (hne : ∀ a, P a → enc a ≠ []) {xs ys : List α}
    (hxs : ∀ x ∈ xs, P x) (hys : ∀ y ∈ ys, P y) (heq : xs.flatMap enc = ys.flatMap enc) :
    xs = ys := by
  induction xs generalizing ys with
  | nil =>
    cases ys with
    | nil => rfl
    | cons y ys =>
      rw [List.flatMap_nil, List.flatMap_cons] at heq
      exact absurd (List.append_eq_nil_iff.mp heq.symm).1 (hne y (hys y List.mem_cons_self))
  | cons x xs ih =>
    cases ys with
    | nil =>
      rw [List.flatMap_nil, List.flatMap_cons] at heq
      exact absurd (List.append_eq_nil_iff.mp heq).1 (hne x (hxs x List.mem_cons_self))
    | cons y ys =>
      rw [List.flatMap_cons, List.flatMap_cons] at heq
      obtain ⟨rfl, hrest⟩ := h (hxs x List.mem_cons_self) (hys y List.mem_cons_self) heq
      rw [ih (fun x' hx' => hxs x' (List.mem_cons_of_mem _ hx'))
        (fun y' hy' => hys y' (List.mem_cons_of_mem _ hy')) hrest]

/-- A concatenation of encodings behind which a stop stands that begins none of them. -/
theorem flatMap_stop_inj (h : SelfDelimiting P enc) {stop : β}
    (hstop : ∀ a r r', P a → enc a ++ r ≠ stop :: r') {xs ys : List α} {r r' : List β}
    (hxs : ∀ x ∈ xs, P x) (hys : ∀ y ∈ ys, P y)
    (heq : xs.flatMap enc ++ stop :: r = ys.flatMap enc ++ stop :: r') : xs = ys ∧ r = r' := by
  induction xs generalizing ys with
  | nil =>
    cases ys with
    | nil => exact ⟨rfl, (List.cons.inj heq).2⟩
    | cons y ys =>
      rw [List.flatMap_nil, List.flatMap_cons, List.append_assoc] at heq
      exact absurd heq.symm (hstop y _ _ (hys y List.mem_cons_self))
  | cons x xs ih =>
    cases ys with
    | nil =>
      rw [List.flatMap_nil, List.flatMap_cons, List.append_assoc] at heq
      exact absurd heq (hstop x _ _ (hxs x List.mem_cons_self))
    | cons y ys =>
      rw [List.flatMap_cons, List.flatMap_cons, List.append_assoc, List.append_assoc] at heq
      obtain ⟨rfl, hrest⟩ := h (hxs x List.mem_cons_self) (hys y List.mem_cons_self) heq
      obtain ⟨rfl, hr⟩ := ih (fun x' hx' => hxs x' (List.mem_cons_of_mem _ hx'))
        (fun y' hy' => hys y' (List.mem_cons_of_mem _ hy')) hrest
      exact ⟨rfl, hr⟩

end SelfDelimiting

/-! ### Length frames -/

/-- A byte string behind its length in `w` bytes. -/
def widthFrame (w : ℕ) (part : Bytes) : Bytes := bigEndian w part.length ++ part

/-- A length frame tells where it ends. -/
theorem SelfDelimiting.widthFrame (w : ℕ) :
    SelfDelimiting (fun part => part.length < 256 ^ w) (Foundation.widthFrame w) := by
  intro a b r r' ha hb h
  rw [Foundation.widthFrame, Foundation.widthFrame, List.append_assoc, List.append_assoc] at h
  obtain ⟨hlength, hrest⟩ := append_inj_of_length h (by rw [length_bigEndian, length_bigEndian])
  exact append_inj_of_length hrest (bigEndian_inj ha hb hlength)

/-- A byte string behind its length in eight bytes. -/
def lengthFrame (part : Bytes) : Bytes := bigEndian 8 part.length ++ part

/-- The length of a byte string fits into eight bytes. -/
def FitsFrame (part : Bytes) : Prop := part.length < 256 ^ 8

theorem lengthFrame_ne_nil (part : Bytes) : lengthFrame part ≠ [] := by
  intro h
  have hlength := congrArg List.length h
  rw [lengthFrame, List.length_append, length_bigEndian, List.length_nil] at hlength
  omega

theorem SelfDelimiting.lengthFrame : SelfDelimiting FitsFrame Foundation.lengthFrame :=
  SelfDelimiting.widthFrame 8

end Foundation
