import PatchouliLib.Foundation.Transaction

/-!
# Event logs kept in one table per kind

A log of events whose clock strictly advances may be stored as several tables,
one per kind of event.  Nothing is lost: the concatenation of the tables, sorted
by the clock, is the log.  Replaying the log from the first state gives back
every state it passed through, and the first state itself can be read off the
stored rows, since a row records the value it replaced.

## Main definitions

* `Clocked clock log` — the clock strictly advances along the log.
* `replay step s log` — the states the log passes through from `s`.

## Main results

* `insertionSort_tables` — **the tables, sorted by the clock, are the log.**
* `replay_append` — a log that grows by one event visits one more state.
* `clocked_of_replay` — a log that can be replayed is clocked, and so are its
  states, when every event advances the clock of the state.
* `initial_eq_of_replay` — the first value of a field is the one the first event
  of its kind records, or the last one when there is no such event.
-/

namespace Foundation

variable {ε κ α σ β err : Type}

/-! ### The clock -/

/-- The clock strictly advances along the log. -/
def Clocked (clock : ε → ℤ) (log : List ε) : Prop :=
  log.Pairwise fun a b => clock a < clock b

theorem Clocked.append_singleton {clock : ε → ℤ} {log : List ε} {e : ε} (h : Clocked clock log)
    (he : ∀ a ∈ log, clock a < clock e) : Clocked clock (log ++ [e]) := by
  rw [Clocked, List.pairwise_append]
  refine ⟨h, List.pairwise_singleton _ _, ?_⟩
  intro a ha b hb
  rw [List.mem_singleton.mp hb]
  exact he a ha

theorem Clocked.inj {clock : ε → ℤ} {log : List ε} (h : Clocked clock log) {a b : ε}
    (ha : a ∈ log) (hb : b ∈ log) (hab : clock a = clock b) : a = b := by
  have hne : log.Pairwise fun a b => clock a ≠ clock b := h.imp fun hlt => hlt.ne
  have : Std.Symm fun a b : ε => clock a ≠ clock b := ⟨fun _ _ h => h.symm⟩
  by_contra hab'
  exact List.Pairwise.forall hne ha hb hab' hab

/-- Sorting by the clock undoes every rearrangement of a clocked log. -/
theorem insertionSort_eq_of_perm {clock : ε → ℤ} {rows log : List ε} (hperm : rows.Perm log)
    (hlog : Clocked clock log) :
    rows.insertionSort (fun a b => clock a ≤ clock b) = log := by
  have : Std.Total fun a b : ε => clock a ≤ clock b := ⟨fun a b => le_total _ _⟩
  have : IsTrans ε fun a b => clock a ≤ clock b := ⟨fun _ _ _ => le_trans⟩
  refine @List.Perm.eq_of_pairwise _ (fun a b => clock a ≤ clock b) _ _ ?_
    (List.pairwise_insertionSort _ rows) (hlog.imp le_of_lt)
    ((List.perm_insertionSort _ rows).trans hperm)
  intro a b ha hb hab hba
  have ha' : a ∈ log := hperm.mem_iff.mp ((List.mem_insertionSort _).mp ha)
  exact hlog.inj ha' hb (le_antisymm hab hba)

/-! ### One table per kind -/

/-- Splitting a log by kind rearranges it. -/
theorem perm_flatMap_filter [DecidableEq κ] (kind : ε → κ) :
    ∀ (kinds : List κ) (log : List ε), kinds.Nodup → (∀ e ∈ log, kind e ∈ kinds) →
      (kinds.flatMap fun k => log.filter fun e => kind e = k).Perm log := by
  intro kinds
  induction kinds with
  | nil =>
    intro log _ hall
    cases log with
    | nil => exact List.Perm.nil
    | cons e log => exact absurd (hall e List.mem_cons_self) (List.not_mem_nil)
  | cons k kinds ih =>
    intro log hnodup hall
    obtain ⟨hk, hnodup'⟩ := List.nodup_cons.mp hnodup
    -- the kinds after `k` see only the events that are not of kind `k`
    have hrest : (kinds.flatMap fun k' => log.filter fun e => kind e = k') =
        kinds.flatMap fun k' => (log.filter fun e => !decide (kind e = k)).filter
          fun e => kind e = k' := by
      refine List.flatMap_congr fun k' hk' => ?_
      rw [List.filter_filter]
      refine List.filter_congr fun e _ => ?_
      have hne : k' ≠ k := fun h => hk (h ▸ hk')
      by_cases hek : kind e = k' <;> simp [hek, hne]
    have hsplit := ih (log.filter fun e => !decide (kind e = k)) hnodup' (by
      intro e he
      obtain ⟨hmem, hne⟩ := List.mem_filter.mp he
      have := hall e hmem
      simp only [List.mem_cons] at this
      simpa using this.resolve_left (by simpa using hne))
    rw [List.flatMap_cons, hrest]
    refine (List.Perm.append_left _ hsplit).trans ?_
    exact List.filter_append_perm (fun e => decide (kind e = k)) log

/-- A table that stores the events of one kind gives them back. -/
theorem map_filterMap_eq_filter {f : ε → Option α} {g : α → ε} {p : ε → Bool}
    (hg : ∀ e a, f e = some a → g a = e) (hp : ∀ e, p e = (f e).isSome) (log : List ε) :
    (log.filterMap f).map g = log.filter p := by
  induction log with
  | nil => rfl
  | cons e log ih =>
    cases hfe : f e with
    | none => rw [List.filterMap_cons_none hfe, List.filter_cons_of_neg (by simp [hp, hfe]), ih]
    | some a =>
      rw [List.filterMap_cons_some hfe, List.filter_cons_of_pos (by simp [hp, hfe]), List.map_cons,
        hg e a hfe, ih]

/-- **The tables, sorted by the clock, are the log.** -/
theorem insertionSort_tables [DecidableEq κ] {clock : ε → ℤ} {log : List ε} (kind : ε → κ)
    {kinds : List κ} (hlog : Clocked clock log) (hnodup : kinds.Nodup)
    (hall : ∀ e ∈ log, kind e ∈ kinds) :
    (kinds.flatMap fun k => log.filter fun e => kind e = k).insertionSort
      (fun a b => clock a ≤ clock b) = log :=
  insertionSort_eq_of_perm (perm_flatMap_filter kind kinds log hnodup hall) hlog

/-! ### Replaying -/

/-- The states a log passes through, the first one included. -/
def replay (step : σ → ε → Except err σ) (s : σ) : List ε → Except err (List σ)
  | [] => .ok [s]
  | e :: es => do
    let t ← step s e
    let rest ← replay step t es
    pure (s :: rest)

variable {step : σ → ε → Except err σ}

theorem replay_cons_ok {s : σ} {e : ε} {es : List ε} {states : List σ} :
    replay step s (e :: es) = .ok states ↔
      ∃ t rest, step s e = .ok t ∧ replay step t es = .ok rest ∧ s :: rest = states := by
  simp only [replay, Fallible.bind_ok, Fallible.pure_ok]
  constructor
  · rintro ⟨t, ht, rest, hr, h⟩
    exact ⟨t, rest, ht, hr, h⟩
  · rintro ⟨t, rest, ht, hr, h⟩
    exact ⟨t, ht, rest, hr, h⟩

/-- A log that one step function accepts is accepted by every laxer one, with the
same states. -/
theorem replay_mono {step' : σ → ε → Except err σ}
    (hstep : ∀ s e t, step s e = .ok t → step' s e = .ok t) {s : σ} {log : List ε}
    {states : List σ} (h : replay step s log = .ok states) : replay step' s log = .ok states := by
  induction log generalizing s states with
  | nil => exact h
  | cons e es ih =>
    obtain ⟨t, rest, he, hrest, rfl⟩ := replay_cons_ok.mp h
    exact replay_cons_ok.mpr ⟨t, rest, hstep s e t he, ih hrest, rfl⟩

theorem head?_of_replay {s : σ} {log : List ε} {states : List σ}
    (h : replay step s log = .ok states) : states.head? = some s := by
  cases log with
  | nil => cases h; rfl
  | cons e es =>
    obtain ⟨t, rest, -, -, rfl⟩ := replay_cons_ok.mp h
    rfl

/-- A log whose events advance the clock of the state is clocked, and so are the
states. -/
theorem clocked_of_replay {clock : ε → ℤ} (time : σ → ℤ)
    (hstep : ∀ s e t, step s e = .ok t → time s < clock e ∧ time t = clock e) {s : σ}
    {log : List ε} {states : List σ} (h : replay step s log = .ok states) :
    Clocked clock log ∧ Clocked time states ∧ ∀ e ∈ log, time s < clock e := by
  induction log generalizing s states with
  | nil =>
    cases h
    exact ⟨List.Pairwise.nil, List.pairwise_singleton _ _, fun _ h => absurd h List.not_mem_nil⟩
  | cons e es ih =>
    obtain ⟨t, rest, he, hrest, rfl⟩ := replay_cons_ok.mp h
    obtain ⟨hlt, htime⟩ := hstep s e t he
    obtain ⟨hclocked, hstates, hafter⟩ := ih hrest
    have hlater : ∀ a ∈ es, clock e < clock a := fun a ha => htime ▸ hafter a ha
    refine ⟨List.pairwise_cons.mpr ⟨hlater, hclocked⟩, List.pairwise_cons.mpr ⟨?_, hstates⟩, ?_⟩
    · -- the states after the first are not before `t`
      intro u hu
      have hhead := head?_of_replay hrest
      cases rest with
      | nil => cases hhead
      | cons t' rest =>
        obtain rfl : t' = t := Option.some.inj hhead
        rcases List.mem_cons.mp hu with rfl | hu
        · omega
        · have := (List.pairwise_cons.mp hstates).1 u hu
          omega
    · intro a ha
      rcases List.mem_cons.mp ha with rfl | ha
      · exact hlt
      · exact hlt.trans (hlater a ha)

/-- A log that grows by one event visits one more state. -/
theorem replay_append {s : σ} {log : List ε} {states : List σ} {last next : σ} {e : ε}
    (h : replay step s log = .ok states) (hlast : states.getLast? = some last)
    (hstep : step last e = .ok next) : replay step s (log ++ [e]) = .ok (states ++ [next]) := by
  induction log generalizing s states with
  | nil =>
    cases h
    obtain rfl : s = last := by simpa using hlast
    exact replay_cons_ok.mpr ⟨next, [next], hstep, rfl, rfl⟩
  | cons d es ih =>
    obtain ⟨t, rest, hd, hrest, rfl⟩ := replay_cons_ok.mp h
    have hne : rest ≠ [] := by
      intro hnil
      have := head?_of_replay hrest
      rw [hnil] at this
      cases this
    rw [List.getLast?_cons_of_ne_nil hne] at hlast
    exact replay_cons_ok.mpr ⟨t, rest ++ [next], hd, ih hrest hlast, rfl⟩

/-- What every event keeps, the last state has of the first. -/
theorem replay_invariant {P : σ → Prop} (hstep : ∀ s e t, step s e = .ok t → P s → P t)
    {s : σ} {log : List ε} {states : List σ} (h : replay step s log = .ok states) (hs : P s) :
    ∀ t ∈ states, P t := by
  induction log generalizing s states with
  | nil =>
    cases h
    intro t ht
    rwa [List.mem_singleton.mp ht]
  | cons e es ih =>
    obtain ⟨t, rest, he, hrest, rfl⟩ := replay_cons_ok.mp h
    intro u hu
    rcases List.mem_cons.mp hu with rfl | hu
    · exact hs
    · exact ih hrest (hstep s e t he hs) u hu

/-- **The first value of a field can be read off the log.**  When only the
events of one kind change the field, and each of them records the value it
replaces, the first value is the one the first such event records; without such
an event it is the last value. -/
theorem initial_eq_of_replay (field : σ → β) (p : ε → Bool) (old : ε → β)
    (hold : ∀ s e t, step s e = .ok t → p e = true → old e = field s)
    (hsame : ∀ s e t, step s e = .ok t → p e = false → field t = field s)
    {s last : σ} {log : List ε} {states : List σ} (h : replay step s log = .ok states)
    (hlast : states.getLast? = some last) :
    ((log.filter p).head?.map old).getD (field last) = field s := by
  induction log generalizing s states with
  | nil =>
    cases h
    obtain rfl : s = last := by simpa using hlast
    rfl
  | cons e es ih =>
    obtain ⟨t, rest, he, hrest, rfl⟩ := replay_cons_ok.mp h
    have hne : rest ≠ [] := by
      intro hnil
      have := head?_of_replay hrest
      rw [hnil] at this
      cases this
    rw [List.getLast?_cons_of_ne_nil hne] at hlast
    cases hp : p e with
    | true =>
      rw [List.filter_cons_of_pos (by simpa using hp)]
      exact hold s e t he hp
    | false =>
      rw [List.filter_cons_of_neg (by simp [hp]), ih hrest hlast]
      exact hsame s e t he hp

end Foundation
