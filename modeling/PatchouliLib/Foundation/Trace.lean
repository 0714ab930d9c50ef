import Mathlib

/-!
# Traces of a transition system

A trace is the list of the events of a run, oldest first.  It tells what was
called and what was answered, and so what was done between two states.

## Main definitions

* `Trace step s events t` — a run from `s` to `t` with these events.

## Main results

* `Trace.imp` — the runs of a system are runs of a larger one.
* `Trace.append`, `Trace.split` — runs are joined and cut where an event list is.
* `Trace.related`, `Trace.invariant` — what every step is in or keeps.
* `Trace.unmarked` — when every marked event raises a measure that no event
  lowers, a run that ends no higher than it began has no marked event.
* `Trace.exists_first` — what holds in the end but not at the start has come about
  in one step.
* `Trace.none_after`, `Trace.once` — a marked event that leads into an absorbing
  state which admits no marked event happens at most once.
-/

namespace Foundation

variable {σ ε : Type}

/-- A run from `s` to `t` with its events in order. -/
inductive Trace (step : σ → ε → σ → Prop) (s : σ) : List ε → σ → Prop
  | start : Trace step s [] s
  | next {events : List ε} {t u : σ} {e : ε} (h : Trace step s events t) (hstep : step t e u) :
      Trace step s (events ++ [e]) u

namespace Trace

variable {step : σ → ε → σ → Prop} {s t u : σ} {events events' : List ε}

/-- The steps of a run may be steps of another system too. -/
theorem imp {step' : σ → ε → σ → Prop} (h : Trace step s events t)
    (hstep : ∀ s e t, step s e t → step' s e t) : Trace step' s events t := by
  induction h with
  | start => exact .start
  | next _ hst ih => exact .next ih (hstep _ _ _ hst)

theorem append (h : Trace step s events t) (h' : Trace step t events' u) :
    Trace step s (events ++ events') u := by
  induction h' with
  | start => rwa [List.append_nil]
  | next _ hstep ih =>
    rw [← List.append_assoc]
    exact .next ih hstep

/-- A run is cut where its event list is. -/
theorem split (h : Trace step s (events ++ events') u) :
    ∃ t, Trace step s events t ∧ Trace step t events' u := by
  induction events' using List.reverseRecOn generalizing u with
  | nil =>
    rw [List.append_nil] at h
    exact ⟨u, h, .start⟩
  | append_singleton events' e ih =>
    rw [← List.append_assoc] at h
    generalize hall : events ++ events' ++ [e] = all at h
    cases h with
    | start => exact absurd hall (by simp)
    | next h hstep =>
      obtain ⟨rfl, hlast⟩ := List.append_inj' hall rfl
      obtain rfl : e = _ := List.singleton_inj.mp hlast
      obtain ⟨t, h₁, h₂⟩ := ih h
      exact ⟨t, h₁, .next h₂ hstep⟩

/-- The event a run has in the middle is a step of it. -/
theorem split_event {e : ε} (h : Trace step s (events ++ e :: events') u) :
    ∃ t t', Trace step s events t ∧ step t e t' ∧ Trace step t' events' u := by
  have h' : Trace step s (events ++ [e] ++ events') u := by
    rwa [List.append_assoc, List.singleton_append]
  obtain ⟨t', h₁, h₂⟩ := h'.split
  generalize hall : events ++ [e] = all at h₁
  cases h₁ with
  | start => exact absurd hall (by simp)
  | next h₁ hstep =>
    obtain ⟨rfl, hlast⟩ := List.append_inj' hall rfl
    obtain rfl : e = _ := List.singleton_inj.mp hlast
    exact ⟨_, t', h₁, hstep, h₂⟩

/-- **What the first state has and every step keeps, the last state has.** -/
theorem invariant {P : σ → Prop} (h : Trace step s events t) (hs : P s)
    (hstep : ∀ s e t, P s → step s e t → P t) : P t := by
  induction h with
  | start => exact hs
  | next _ hst ih => exact hstep _ _ _ ih hst

/-- **A preorder that every step is in relates the ends of a run.** -/
theorem related {R : σ → σ → Prop} (h : Trace step s events t) (hrefl : ∀ s, R s s)
    (htrans : ∀ {s t u}, R s t → R t u → R s u) (hstep : ∀ s e t, step s e t → R s t) : R s t := by
  induction h with
  | start => exact hrefl s
  | next _ hst ih => exact htrans ih (hstep _ _ _ hst)

/-- **A run that ends no higher than it began has no event that raises the
measure.** -/
theorem unmarked {β : Type} [Preorder β] {P : σ → Prop} (measure : σ → β) (marked : ε → Prop)
    (h : Trace step s events t) (hs : P s) (hkeep : ∀ s e t, P s → step s e t → P t)
    (hmono : ∀ s e t, P s → step s e t → measure s ≤ measure t)
    (hraise : ∀ s e t, P s → step s e t → marked e → measure s < measure t)
    (hend : measure t ≤ measure s) : ∀ e ∈ events, ¬marked e := by
  have hall : measure s ≤ measure t ∧ (measure t ≤ measure s → ∀ e ∈ events, ¬marked e) := by
    clear hend
    induction h with
    | start => exact ⟨le_rfl, fun _ e he => absurd he List.not_mem_nil⟩
    | @next events t u e htrace hst ih =>
      have ht : P t := htrace.invariant hs hkeep
      have hle : measure t ≤ measure u := hmono _ _ _ ht hst
      refine ⟨ih.1.trans hle, fun hend e' he' hmarked => ?_⟩
      rcases List.mem_append.mp he' with he' | he'
      · exact ih.2 (hle.trans hend) e' he' hmarked
      · rw [List.mem_singleton.mp he'] at hmarked
        have hlt : measure t < measure u := hraise _ _ _ ht hst hmarked
        exact absurd (hlt.trans_le (hend.trans ih.1)) (lt_irrefl _)
  exact hall.2 hend

/-- **What holds in the end but not at the start has come about in one step.** -/
theorem exists_first {Q : σ → Prop} (h : Trace step s events t) (hs : ¬Q s) (ht : Q t) :
    ∃ before e after u v, events = before ++ e :: after ∧ Trace step s before u ∧ ¬Q u ∧
      step u e v ∧ Q v ∧ Trace step v after t := by
  induction h with
  | start => exact absurd ht hs
  | @next events t w e htrace hst ih =>
    by_cases hQ : Q t
    · obtain ⟨before, e', after, u, v, rfl, hbefore, hu, hstep, hv, hafter⟩ := ih hQ
      refine ⟨before, e', after ++ [e], u, v, ?_, hbefore, hu, hstep, hv, .next hafter hst⟩
      rw [List.append_assoc, List.cons_append]
    · exact ⟨events, e, [], t, w, rfl, htrace, hQ, hst, ht, .start⟩

/-- From an absorbing state that admits no marked event, none follows. -/
theorem none_after {closed : σ → Prop} {marked : ε → Prop} (h : Trace step s events t)
    (hs : closed s) (hkeep : ∀ s e t, closed s → step s e t → closed t)
    (hno : ∀ s e t, closed s → step s e t → ¬marked e) : ∀ e ∈ events, ¬marked e := by
  induction h with
  | start => exact fun e he => absurd he List.not_mem_nil
  | @next events t u e htrace hst ih =>
    intro e' he'
    rcases List.mem_append.mp he' with he' | he'
    · exact ih e' he'
    · rw [List.mem_singleton.mp he']
      exact hno _ _ _ (htrace.invariant hs hkeep) hst

/-- **A marked event that closes the state happens at most once.** -/
theorem once {P : σ → Prop} (closed : σ → Prop) (marked : ε → Prop) [DecidablePred marked]
    (h : Trace step s events t) (hs : P s) (hP : ∀ s e t, P s → step s e t → P t)
    (hclose : ∀ s e t, P s → step s e t → marked e → closed t)
    (hkeep : ∀ s e t, P s → closed s → step s e t → closed t)
    (hno : ∀ s e t, P s → closed s → step s e t → ¬marked e) :
    (events.filter fun e => decide (marked e)).length ≤ 1 := by
  have hall : ((events.filter fun e => decide (marked e)).length ≤ 1) ∧
      (events.filter (fun e => decide (marked e)) ≠ [] → closed t) := by
    induction h with
    | start => exact ⟨Nat.zero_le _, fun h => absurd rfl h⟩
    | @next events t u e htrace hst ih =>
      have ht : P t := htrace.invariant hs hP
      rw [List.filter_append]
      by_cases hmarked : marked e
      · have hclosed : ¬closed t := fun hc => hno _ _ _ ht hc hst hmarked
        have hnone : events.filter (fun e => decide (marked e)) = [] := by
          by_contra hne
          exact hclosed (ih.2 hne)
        rw [hnone]
        exact ⟨by simp [hmarked], fun _ => hclose _ _ _ ht hst hmarked⟩
      · have hlast : List.filter (fun e => decide (marked e)) [e] = [] := by simp [hmarked]
        rw [hlast, List.append_nil]
        exact ⟨ih.1, fun hne => hkeep _ _ _ ht (ih.2 hne) hst⟩
  exact hall.1

end Trace

end Foundation
