import PatchouliLib.Foundation.Table
import PatchouliLib.Foundation.Trace

/-!
# Versioned rows

A row carries a version, and whoever changes the row raises it.  A reader that
comes back with a version it has seen can then be told whether the row has been
touched in the meantime, also when the contents are what they were: the version
never returns.

## Main definitions

* `Revised key version a b` — `b` is `a`, or a later version of it.
* `Versioned step P rows key version` — along the steps of a transition system the
  rows of a table only get later versions.

## Main results

* `Revised.trans`, `Revised.eq_of_version` — a version tells the row.
* `Grows.revised` — the row that a row has become.
* `Versioned.grows` — over a run.
* `Versioned.lt_of_changed` — **a row that was changed in between has a later
  version.**
-/

namespace Foundation

variable {σ ε α κ ν : Type}

/-! ### Versions of a row -/

/-- The same row, or a row under its key with a later version. -/
def Revised [LT ν] (key : α → κ) (version : α → ν) (a b : α) : Prop :=
  b = a ∨ key b = key a ∧ version a < version b

namespace Revised

variable [Preorder ν] {key : α → κ} {version : α → ν} {a b c : α}

theorem refl (key : α → κ) (version : α → ν) (a : α) : Revised key version a a := .inl rfl

theorem key_eq (h : Revised key version a b) : key b = key a := by
  rcases h with rfl | ⟨hkey, -⟩
  · rfl
  · exact hkey

theorem version_le (h : Revised key version a b) : version a ≤ version b := by
  rcases h with rfl | ⟨-, hlt⟩
  · exact le_rfl
  · exact hlt.le

theorem trans (h : Revised key version a b) (h' : Revised key version b c) :
    Revised key version a c := by
  rcases h with rfl | ⟨hkey, hlt⟩
  · exact h'
  · exact .inr ⟨h'.key_eq.trans hkey, hlt.trans_le h'.version_le⟩

/-- A row that has kept its version has not been touched. -/
theorem eq_of_version (h : Revised key version a b) (hv : version b = version a) : b = a := by
  rcases h with rfl | ⟨-, hlt⟩
  · rfl
  · exact absurd hv hlt.ne'

theorem lt_of_ne (h : Revised key version a b) (hne : b ≠ a) : version a < version b := by
  rcases h with rfl | ⟨-, hlt⟩
  · exact absurd rfl hne
  · exact hlt

end Revised

/-- The row under the same key is the one that the row has become. -/
theorem Grows.revised [Preorder ν] {key : α → κ} {version : α → ν} {xs ys : List α} {a b : α}
    (h : Grows (Revised key version) xs ys) (hkeyed : Keyed key ys) (ha : a ∈ xs) (hb : b ∈ ys)
    (hkey : key b = key a) : Revised key version a b := by
  obtain ⟨b', hb', hrev⟩ := h.exists_of_mem ha
  obtain rfl : b' = b := hkeyed.eq_of_key hb' hb (hrev.key_eq.trans hkey.symm)
  exact hrev

/-! ### Versions along a run -/

/-- The states in `P` are closed under the steps, their rows have unique keys, and
a step keeps every row or raises its version. -/
structure Versioned [LT ν] (step : σ → ε → σ → Prop) (P : σ → Prop) (rows : σ → List α)
    (key : α → κ) (version : α → ν) : Prop where
  keyed : ∀ s, P s → Keyed key (rows s)
  kept : ∀ s e t, P s → step s e t → P t
  revises : ∀ s e t, P s → step s e t → Grows (Revised key version) (rows s) (rows t)

namespace Versioned

variable [Preorder ν] {step : σ → ε → σ → Prop} {P : σ → Prop} {rows : σ → List α} {key : α → κ}
  {version : α → ν} {s t u v : σ} {events events' : List ε}

theorem holds (h : Versioned step P rows key version) (hrun : Trace step s events t) (hs : P s) :
    P t :=
  hrun.invariant hs h.kept

/-- **A run keeps every row or raises its version.** -/
theorem grows (h : Versioned step P rows key version) (hrun : Trace step s events t) (hs : P s) :
    Grows (Revised key version) (rows s) (rows t) := by
  induction hrun with
  | start => exact .refl (Revised.refl key version) _
  | next hrun hstep ih => exact ih.trans Revised.trans (h.revises _ _ _ (h.holds hrun hs) hstep)

/-- The row that a row has become at the end of a run. -/
theorem revised (h : Versioned step P rows key version) (hrun : Trace step s events t) (hs : P s)
    {a b : α} (ha : a ∈ rows s) (hb : b ∈ rows t) (hkey : key b = key a) :
    Revised key version a b :=
  (h.grows hrun hs).revised (h.keyed t (h.holds hrun hs)) ha hb hkey

/-- **A row that was changed in between has a later version.**  It is read in `s`,
changed from `t` to `u`, and looked at again in `v`. -/
theorem lt_of_changed (h : Versioned step P rows key version) (hs : P s)
    (hrun : Trace step s events t) {e : ε} (hstep : step t e u) (hrun' : Trace step u events' v)
    {a b c d : α} (ha : a ∈ rows s) (hb : b ∈ rows t) (hc : c ∈ rows u) (hd : d ∈ rows v)
    (hba : key b = key a) (hca : key c = key a) (hda : key d = key a) (hne : c ≠ b) :
    version a < version d := by
  have ht : P t := h.holds hrun hs
  have hu : P u := h.kept t e u ht hstep
  have hab : Revised key version a b := h.revised hrun hs ha hb hba
  have hbc : Revised key version b c :=
    (h.revises t e u ht hstep).revised (h.keyed u hu) hb hc (hca.trans hba.symm)
  have hcd : Revised key version c d := h.revised hrun' hu hc hd (hda.trans hca.symm)
  exact hab.version_le.trans_lt ((hbc.lt_of_ne hne).trans_le hcd.version_le)

end Versioned

end Foundation
