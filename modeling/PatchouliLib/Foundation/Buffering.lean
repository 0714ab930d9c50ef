import Mathlib.Data.List.Basic
import PatchouliLib.Foundation.Transaction

/-!
# Bounded buffers

A consumer takes data piece by piece into a buffer and fails when the pieces no
longer fit.  Where the data is cut makes no difference: the consumer takes all of
it, or fails with one error.

## Main definitions

* `Buffering` — a consumer of pieces with a limit.

## Main results

* `Buffering.run` — **a run over the pieces is one step with the whole.**
-/

namespace Foundation

variable {σ α ε : Type}

/-- The consumer `f` pushes pieces as long as there is room for them, and fails with `e`
otherwise.  `Fits` is what its buffer keeps to. -/
structure Buffering (f : σ → List α → Except ε σ) (Fits : σ → Prop) (room : σ → ℕ)
    (push : σ → List α → σ) (e : ε) : Prop where
  step : ∀ s piece, Fits s → f s piece = if piece.length ≤ room s then .ok (push s piece) else .error e
  fits : ∀ s piece, Fits s → piece.length ≤ room s → Fits (push s piece)
  room_push : ∀ s piece, Fits s → piece.length ≤ room s →
    room (push s piece) = room s - piece.length
  push_nil : ∀ s, push s [] = s
  push_append : ∀ s piece piece', push (push s piece) piece' = push s (piece ++ piece')

namespace Buffering

variable {f : σ → List α → Except ε σ} {Fits : σ → Prop} {room : σ → ℕ} {push : σ → List α → σ}
  {e : ε} {s : σ}

/-- **A run over the pieces is one step with the whole.** -/
theorem run (h : Buffering f Fits room push e) (hs : Fits s) (pieces : List (List α)) :
    pieces.foldlM f s = f s pieces.flatten := by
  rw [h.step s _ hs]
  induction pieces generalizing s with
  | nil =>
    rw [List.flatten_nil, List.length_nil, if_pos (Nat.zero_le _), h.push_nil]
    rfl
  | cons piece pieces ih =>
    rw [List.foldlM_cons, h.step s piece hs, List.flatten_cons, List.length_append]
    by_cases hroom : piece.length ≤ room s
    · have hnext := h.room_push s piece hs hroom
      rw [if_pos hroom]
      show pieces.foldlM f (push s piece) = _
      rw [ih (h.fits s piece hs hroom), hnext, h.push_append]
      exact if_congr (by omega) rfl rfl
    · rw [if_neg hroom, if_neg (by omega)]
      rfl

/-- What the buffer keeps to after a step. -/
theorem fits_of_ok (h : Buffering f Fits room push e) (hs : Fits s) {piece : List α} {t : σ}
    (ht : f s piece = .ok t) : Fits t ∧ t = push s piece := by
  rw [h.step s piece hs] at ht
  split at ht
  · next hroom =>
    obtain rfl := Except.ok.inj ht
    exact ⟨h.fits s piece hs hroom, rfl⟩
  · cases ht

end Buffering

end Foundation
