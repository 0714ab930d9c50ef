import Mathlib

/-!
# Runs of a transition system

A run is the list of the states it has visited, the first one included.  An
observer that looks at every state sees a value of some part of it, or nothing;
what it writes down are the values in the order in which they appear, without
repeating the one it has just written.

## Main definitions

* `Run init step visited s` — a run that has visited `visited` and is in `s`.
* `shown observe visited` — what an observer of the run has written down.

## Main results

* `Run.invariant` — what the first state has and every step keeps.
* `Run.related` — a relation that every step is in relates every visited state
  to the last.
* `Run.shown_invariant` — the same for a property of the state and of what has
  been shown.
-/

namespace Foundation

variable {σ α : Type}

/-- A run from an initial state, with the states it has visited. -/
inductive Run (init : σ → Prop) (step : σ → σ → Prop) : List σ → σ → Prop
  | start {s : σ} (h : init s) : Run init step [s] s
  | next {visited : List σ} {s t : σ} (h : Run init step visited s) (hstep : step s t) :
      Run init step (visited ++ [t]) t

/-- Write a value down unless it has just been written. -/
def extend [DecidableEq α] (seen : List α) : Option α → List α
  | none => seen
  | some a => if seen.getLast? = some a then seen else seen ++ [a]

/-- What an observer of the visited states has written down. -/
def shown [DecidableEq α] (observe : σ → Option α) (visited : List σ) : List α :=
  visited.foldl (fun seen s => extend seen (observe s)) []

section

variable [DecidableEq α]

@[simp] theorem extend_none (seen : List α) : extend seen none = seen := rfl

theorem extend_same {seen : List α} {a : α} (h : seen.getLast? = some a) :
    extend seen (some a) = seen :=
  if_pos h

theorem extend_new {seen : List α} {a : α} (h : seen.getLast? ≠ some a) :
    extend seen (some a) = seen ++ [a] :=
  if_neg h

theorem shown_append (observe : σ → Option α) (visited : List σ) (s : σ) :
    shown observe (visited ++ [s]) = extend (shown observe visited) (observe s) := by
  rw [shown, List.foldl_append, List.foldl_cons, List.foldl_nil, shown]

end

variable {init : σ → Prop} {step : σ → σ → Prop} {visited : List σ} {s : σ}

/-- **What the first state has and every step keeps, every run ends with.** -/
theorem Run.invariant {P : σ → Prop} (h : Run init step visited s) (hinit : ∀ s, init s → P s)
    (hstep : ∀ s t, P s → step s t → P t) : P s := by
  induction h with
  | start h => exact hinit _ h
  | next _ hst ih => exact hstep _ _ ih hst

/-- A run has visited the state it is in. -/
theorem Run.mem_visited (h : Run init step visited s) : s ∈ visited := by
  cases h with
  | start h => exact List.mem_singleton_self _
  | next h hstep => exact List.mem_append_right _ (List.mem_singleton_self _)

/-- A visited state ends a run of its own. -/
theorem Run.exists_of_mem (h : Run init step visited s) {t : σ} (ht : t ∈ visited) :
    ∃ visited', Run init step visited' t := by
  induction h with
  | start h =>
    rw [List.mem_singleton.mp ht]
    exact ⟨_, .start h⟩
  | next hrun hst ih =>
    rcases List.mem_append.mp ht with ht | ht
    · exact ih ht
    · rw [List.mem_singleton.mp ht]
      exact ⟨_, .next hrun hst⟩

/-- Every visited state has it too. -/
theorem Run.visited_invariant {P : σ → Prop} (h : Run init step visited s)
    (hinit : ∀ s, init s → P s) (hstep : ∀ s t, P s → step s t → P t) : ∀ t ∈ visited, P t := by
  induction h with
  | start h =>
    intro t ht
    rw [List.mem_singleton.mp ht]
    exact hinit _ h
  | next hrun hst ih =>
    intro t ht
    rcases List.mem_append.mp ht with ht | ht
    · exact ih t ht
    · rw [List.mem_singleton.mp ht]
      exact hstep _ _ (hrun.invariant hinit hstep) hst

/-- **A preorder that every step is in relates every visited state to the
last.** -/
theorem Run.related {R : σ → σ → Prop} (h : Run init step visited s) (hrefl : ∀ s, R s s)
    (htrans : ∀ {s t u}, R s t → R t u → R s u)
    (hstep : ∀ {visited s t}, Run init step visited s → step s t → R s t) :
    ∀ t ∈ visited, R t s := by
  induction h with
  | start h =>
    intro t ht
    rw [List.mem_singleton.mp ht]
    exact hrefl _
  | next hrun hst ih =>
    intro t ht
    rcases List.mem_append.mp ht with ht | ht
    · exact htrans (ih t ht) (hstep hrun hst)
    · rw [List.mem_singleton.mp ht]
      exact hrefl _

/-- **An invariant of the state and of what every observer has written down.** -/
theorem Run.shown_invariant {κ : Type} [DecidableEq α] {P : σ → (κ → List α) → Prop}
    (h : Run init step visited s) (observe : κ → σ → Option α)
    (hinit : ∀ s, init s → P s fun k => extend [] (observe k s))
    (hstep : ∀ s t seen, P s seen → step s t → P t fun k => extend (seen k) (observe k t)) :
    P s fun k => shown (observe k) visited := by
  induction h with
  | start h => exact hinit _ h
  | next _ hst ih =>
    simp only [shown_append]
    exact hstep _ _ _ ih hst

end Foundation
