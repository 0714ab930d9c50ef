import Mathlib

/-!
# Transactions

A transaction body reads and writes one state and may raise at any point.  It
is a chain of checks, lookups and statements over `StateT σ (Except ε)`; a body
that raises leaves the state as it was, because `commit` throws its partial
state away.

The lemmas read a successful chain backwards, one link at a time, so that a
proof about a successful body never unfolds the monad by hand: `simp only` with
the `_ok` lemmas turns `body s = .ok (a, s')` into the list of what held on the
way.

## Main definitions

* `Tx σ ε α` — a body over the state `σ` that raises `ε` or returns `α`.
* `Fallible.RaisesOnly e x` — `x` raises nothing but `e`.
* `Fallible.Avoids e x` — `x` does not raise `e`.
* `require p e`, `orThrow o e`, `attempt x` — the links that leave the state.
* `reads f`, `writes f` — read a part of the state, replace the state.
* `demand p e`, `lookup f e` — the links that raise for what they read.
* `forEach f xs` — run `f` over a list from left to right.
* `commit x s` — the outcome of the body and the state that is left behind.
* `Keeps R x` — every successful run of `x` is related by `R` to where it began.
* `Fails x` — no run of `x` succeeds.

## Main results

* `bind_ok` — inversion of one link of a successful body.
* `Keeps.bind`, `Keeps.forEach` — the frame rules of a reflexive and transitive
  relation.
* `commit_eq_or` — a committed body either did nothing or ran to its end.
-/

namespace Foundation

universe u

/-- A transaction body over the state `σ`: it raises `ε`, or returns a value and
the state it leaves. -/
abbrev Tx (σ ε α : Type u) : Type u := StateT σ (Except ε) α

variable {σ ε α β : Type u}

/-! ### Bodies without a state -/

namespace Fallible

theorem bind_ok {x : Except ε α} {f : α → Except ε β} {b : β} :
    (x >>= f) = .ok b ↔ ∃ a, x = .ok a ∧ f a = .ok b := by
  cases x with
  | ok a => simp [bind, Except.bind]
  | error e => simp [bind, Except.bind]

@[simp] theorem pure_ok {a b : α} : (pure a : Except ε α) = .ok b ↔ a = b := by
  simp [pure, Except.pure]

@[simp] theorem ok_bind (a : α) (f : α → Except ε β) : ((.ok a : Except ε α) >>= f) = f a := rfl

@[simp] theorem error_bind (e : ε) (f : α → Except ε β) :
    ((.error e : Except ε α) >>= f) = .error e := rfl

/-- Bodies that agree on what comes first. -/
theorem bind_congr {x : Except ε α} {f g : α → Except ε β} (h : ∀ a, x = .ok a → f a = g a) :
    (x >>= f) = x >>= g := by
  cases x with
  | ok a => exact h a rfl
  | error e => rfl

@[simp] theorem throw_eq (e : ε) : (throw e : Except ε α) = .error e := rfl

/-- Bodies with the same results, whatever they raise. -/
theorem toOption_congr {ε' : Type u} {x : Except ε α} {y : Except ε' α}
    (h : ∀ a, x = .ok a ↔ y = .ok a) : x.toOption = y.toOption := by
  cases x with
  | ok a =>
    rw [(h a).mp rfl]
    rfl
  | error e =>
    cases y with
    | ok b => exact nomatch (h b).mpr rfl
    | error e' => rfl

/-- Go on when `p` holds, raise `e` otherwise. -/
def check (p : Prop) [Decidable p] (e : ε) : Except ε PUnit :=
  if p then .ok ⟨⟩ else .error e

@[simp] theorem check_ok {p : Prop} [Decidable p] {e : ε} {w : PUnit} :
    check p e = .ok w ↔ p := by
  unfold check
  split <;> simp_all

theorem check_of {p : Prop} [Decidable p] (hp : p) (e : ε) : check p e = .ok ⟨⟩ :=
  check_ok.mpr hp

theorem check_of_not {p : Prop} [Decidable p] (hp : ¬p) (e : ε) : check p e = .error e :=
  if_neg hp

/-- The value of `o`, or raise `e` when there is none. -/
def get (o : Option α) (e : ε) : Except ε α :=
  match o with
  | some a => .ok a
  | none => .error e

@[simp] theorem get_ok {o : Option α} {e : ε} {a : α} : get o e = .ok a ↔ o = some a := by
  cases o <;> simp [get]

/-- The results of a successful traversal are those of its elements. -/
theorem mem_of_mapM {f : α → Except ε β} {xs : List α} {ys : List β} (h : xs.mapM f = .ok ys)
    {y : β} : y ∈ ys ↔ ∃ x ∈ xs, f x = .ok y := by
  induction xs generalizing ys with
  | nil =>
    rw [List.mapM_nil, pure_ok] at h
    rw [← h]
    simp
  | cons x xs ih =>
    rw [List.mapM_cons, bind_ok] at h
    obtain ⟨first, hfirst, h⟩ := h
    obtain ⟨rest, hrest, h⟩ := bind_ok.mp h
    rw [← pure_ok.mp h, List.mem_cons, ih hrest]
    constructor
    · rintro (rfl | ⟨x', hx', hy⟩)
      · exact ⟨x, List.mem_cons_self, hfirst⟩
      · exact ⟨x', List.mem_cons_of_mem x hx', hy⟩
    · rintro ⟨x', hx', hy⟩
      rcases List.mem_cons.mp hx' with rfl | hx'
      · rw [hfirst] at hy
        exact .inl (Except.ok.inj hy).symm
      · exact .inr ⟨x', hx', hy⟩

/-- A traversal succeeds when it does at every element. -/
theorem mapM_map_ok {δ : Type u} {f : β → Except ε δ} {g : α → β} {h : α → δ} {xs : List α}
    (hxs : ∀ x ∈ xs, f (g x) = .ok (h x)) : (xs.map g).mapM f = .ok (xs.map h) := by
  induction xs with
  | nil => rfl
  | cons x xs ih =>
    have hrest := ih fun x' hx' => hxs x' (List.mem_cons_of_mem x hx')
    rw [List.map_cons, List.mapM_cons, hxs x List.mem_cons_self, hrest]
    rfl

/-- A traversal that changes no element returns them all. -/
theorem mapM_eq_self {f : α → Except ε α} {xs : List α} (h : ∀ x ∈ xs, f x = .ok x) :
    xs.mapM f = .ok xs := by
  have hmap := mapM_map_ok (g := id) (h := id) h
  rwa [List.map_id] at hmap

@[simp] theorem mapError_ok {ε' : Type u} {f : ε → ε'} {x : Except ε α} {a : α} :
    x.mapError f = .ok a ↔ x = .ok a := by
  cases x <;> simp [Except.mapError]

/-- `x` raises nothing but `e`. -/
def RaisesOnly (e : ε) (x : Except ε α) : Prop := ∀ e', x = .error e' → e' = e

namespace RaisesOnly

variable {e : ε}

theorem ok (a : α) : RaisesOnly e (.ok a : Except ε α) := by
  intro e' h
  cases h

theorem check (p : Prop) [Decidable p] : RaisesOnly e (Fallible.check p e) := by
  intro e' h
  unfold Fallible.check at h
  split at h
  · cases h
  · exact (Except.error.inj h).symm

theorem get (o : Option α) : RaisesOnly e (Fallible.get o e) := by
  intro e' h
  cases o with
  | some a => cases h
  | none => exact (Except.error.inj h).symm

theorem bind {x : Except ε α} {f : α → Except ε β} (hx : RaisesOnly e x)
    (hf : ∀ a, RaisesOnly e (f a)) : RaisesOnly e (x >>= f) := by
  intro e' h
  cases x with
  | ok a => exact hf a e' h
  | error e'' =>
    rw [error_bind] at h
    exact hx e' (congrArg Except.error (Except.error.inj h))

theorem mapM {f : α → Except ε β} (hf : ∀ a, RaisesOnly e (f a)) (xs : List α) :
    RaisesOnly e (xs.mapM f) := by
  induction xs with
  | nil =>
    rw [List.mapM_nil]
    exact ok []
  | cons x xs ih =>
    rw [List.mapM_cons]
    exact bind (hf x) fun _ => bind ih fun _ => ok _

end RaisesOnly

/-- `x` does not raise `e`. -/
def Avoids (e : ε) (x : Except ε α) : Prop := x ≠ .error e

namespace Avoids

variable {e : ε}

theorem ok (a : α) : Avoids e (.ok a : Except ε α) := by
  intro h
  cases h

theorem of_raisesOnly {e' : ε} {x : Except ε α} (h : RaisesOnly e' x) (hne : e ≠ e') : Avoids e x :=
  fun hx => hne (h e hx)

theorem check {e' : ε} (p : Prop) [Decidable p] (hne : e ≠ e') : Avoids e (Fallible.check p e') :=
  of_raisesOnly (.check p) hne

theorem get {e' : ε} (o : Option α) (hne : e ≠ e') : Avoids e (Fallible.get o e') :=
  of_raisesOnly (.get o) hne

theorem mapError {ε' : Type u} {f : ε' → ε} {x : Except ε' α} (hf : ∀ e', f e' ≠ e) :
    Avoids e (x.mapError f) := by
  cases x with
  | ok a => exact ok a
  | error e' => exact fun h => hf e' (Except.error.inj h)

theorem bind {x : Except ε α} {f : α → Except ε β} (hx : Avoids e x)
    (hf : ∀ a, x = .ok a → Avoids e (f a)) : Avoids e (x >>= f) := by
  cases x with
  | ok a => exact hf a rfl
  | error e' =>
    rw [Avoids, error_bind]
    exact fun h => hx (congrArg Except.error (Except.error.inj h))

theorem mapM {f : α → Except ε β} (hf : ∀ a, Avoids e (f a)) (xs : List α) :
    Avoids e (xs.mapM f) := by
  induction xs with
  | nil =>
    rw [List.mapM_nil]
    exact ok []
  | cons x xs ih =>
    rw [List.mapM_cons]
    exact bind (hf x) fun _ _ => bind ih fun _ _ => ok _

theorem foldlM {σ : Type u} {f : σ → α → Except ε σ} (hf : ∀ s a, Avoids e (f s a)) (xs : List α)
    (s : σ) : Avoids e (xs.foldlM f s) := by
  induction xs generalizing s with
  | nil => exact ok s
  | cons x xs ih =>
    rw [List.foldlM_cons]
    exact bind (hf s x) fun s' _ => ih s'

end Avoids

end Fallible

/-! ### The links of a body -/

/-- Go on when `p` holds, raise `e` otherwise. -/
def require (p : Prop) [Decidable p] (e : ε) : Tx σ ε PUnit :=
  fun s => if p then .ok (⟨⟩, s) else .error e

/-- The value of `o`, or raise `e` when there is none. -/
def orThrow (o : Option α) (e : ε) : Tx σ ε α :=
  fun s => match o with
    | some a => .ok (a, s)
    | none => .error e

/-- A computation that does not touch the state. -/
def attempt (x : Except ε α) : Tx σ ε α :=
  fun s => match x with
    | .ok a => .ok (a, s)
    | .error e => .error e

/-- Raise `e`. -/
def raise (e : ε) : Tx σ ε α := fun _ => .error e

/-- Read a part of the state. -/
def reads (f : σ → α) : Tx σ ε α := fun s => .ok (f s, s)

/-- Replace the state. -/
def writes (f : σ → σ) : Tx σ ε PUnit := fun s => .ok (⟨⟩, f s)

/-- Go on when the state has `p`, raise `e` otherwise. -/
def demand (p : σ → Prop) [DecidablePred p] (e : ε) : Tx σ ε PUnit :=
  fun s => if p s then .ok (⟨⟩, s) else .error e

/-- What is found in the state, or raise `e` when nothing is. -/
def lookup (f : σ → Option α) (e : ε) : Tx σ ε α :=
  fun s => match f s with
    | some a => .ok (a, s)
    | none => .error e

/-- Run `f` over a list from left to right, stopping at the first error. -/
def forEach (f : α → Tx σ ε PUnit) : List α → Tx σ ε PUnit
  | [] => pure ⟨⟩
  | a :: as => do
    f a
    forEach f as

/-! ### Inversion -/

/-- **One link of a successful body.** -/
theorem bind_ok {x : Tx σ ε α} {f : α → Tx σ ε β} {s : σ} {b : β} {s' : σ} :
    (x >>= f) s = .ok (b, s') ↔ ∃ a t, x s = .ok (a, t) ∧ f a t = .ok (b, s') := by
  change (x s >>= fun p => f p.1 p.2) = .ok (b, s') ↔ _
  rw [Fallible.bind_ok]
  exact ⟨fun ⟨p, hp, hf⟩ => ⟨p.1, p.2, hp, hf⟩, fun ⟨a, t, hx, hf⟩ => ⟨(a, t), hx, hf⟩⟩

@[simp] theorem pure_ok {a b : α} {s s' : σ} :
    (pure a : Tx σ ε α) s = .ok (b, s') ↔ a = b ∧ s = s' := by
  change (Except.ok (a, s) : Except ε (α × σ)) = .ok (b, s') ↔ _
  simp

@[simp] theorem require_ok {p : Prop} [Decidable p] {e : ε} {s s' : σ} {w : PUnit} :
    (require p e : Tx σ ε PUnit) s = .ok (w, s') ↔ p ∧ s = s' := by
  unfold require
  split <;> simp_all

@[simp] theorem orThrow_ok {o : Option α} {e : ε} {a : α} {s s' : σ} :
    (orThrow o e : Tx σ ε α) s = .ok (a, s') ↔ o = some a ∧ s = s' := by
  cases o <;> simp [orThrow]

@[simp] theorem attempt_ok {x : Except ε α} {a : α} {s s' : σ} :
    (attempt x : Tx σ ε α) s = .ok (a, s') ↔ x = .ok a ∧ s = s' := by
  cases x <;> simp [attempt]

@[simp] theorem raise_ok {e : ε} {a : α} {s s' : σ} :
    (raise e : Tx σ ε α) s = .ok (a, s') ↔ False := by
  simp [raise]

@[simp] theorem reads_ok {f : σ → α} {a : α} {s s' : σ} :
    (reads f : Tx σ ε α) s = .ok (a, s') ↔ f s = a ∧ s = s' := by
  simp [reads]

@[simp] theorem writes_ok {f : σ → σ} {s s' : σ} {w : PUnit} :
    (writes f : Tx σ ε PUnit) s = .ok (w, s') ↔ f s = s' := by
  simp [writes]

@[simp] theorem demand_ok {p : σ → Prop} [DecidablePred p] {e : ε} {s s' : σ} {w : PUnit} :
    (demand p e : Tx σ ε PUnit) s = .ok (w, s') ↔ p s ∧ s = s' := by
  unfold demand
  split <;> simp_all

@[simp] theorem lookup_ok {f : σ → Option α} {e : ε} {a : α} {s s' : σ} :
    (lookup f e : Tx σ ε α) s = .ok (a, s') ↔ f s = some a ∧ s = s' := by
  unfold lookup
  cases hf : f s <;> simp

@[simp] theorem forEach_nil {f : α → Tx σ ε PUnit} : forEach f [] = pure ⟨⟩ := rfl

theorem forEach_cons {f : α → Tx σ ε PUnit} {a : α} {as : List α} :
    forEach f (a :: as) = (do f a; forEach f as) := rfl

/-! ### Evaluation of a link -/

theorem bind_run {x : Tx σ ε α} {f : α → Tx σ ε β} {s t : σ} {a : α} (hx : x s = .ok (a, t)) :
    (x >>= f) s = f a t := by
  change (x s >>= fun p => f p.1 p.2) = f a t
  rw [hx]
  rfl

theorem bind_error {x : Tx σ ε α} {f : α → Tx σ ε β} {s : σ} {e : ε} (hx : x s = .error e) :
    (x >>= f) s = .error e := by
  change (x s >>= fun p => f p.1 p.2) = .error e
  rw [hx]
  rfl

theorem require_run {p : Prop} [Decidable p] (hp : p) (e : ε) (s : σ) :
    (require p e : Tx σ ε PUnit) s = .ok (⟨⟩, s) :=
  require_ok.mpr ⟨hp, rfl⟩

theorem require_bind {p : Prop} [Decidable p] (hp : p) (e : ε) {f : PUnit → Tx σ ε β} {s : σ} :
    (require p e >>= f) s = f ⟨⟩ s :=
  bind_run (require_run hp e s)

theorem orThrow_bind {a : α} {e : ε} {f : α → Tx σ ε β} {s : σ} :
    (orThrow (some a) e >>= f) s = f a s := rfl

theorem require_error {p : Prop} [Decidable p] (hp : ¬p) (e : ε) (s : σ) :
    (require p e : Tx σ ε PUnit) s = .error e :=
  if_neg hp

/-! ### Bodies that differ in their errors -/

/-- Two bodies with the same first link have the same results when the rests have. -/
theorem toOption_bind_congr {x : Tx σ ε α} {f g : α → Tx σ ε β} {s : σ}
    (h : ∀ a t, (f a t).toOption = (g a t).toOption) :
    ((x >>= f) s).toOption = ((x >>= g) s).toOption := by
  cases hx : x s with
  | error e => rw [bind_error hx, bind_error hx]
  | ok p => rw [bind_run hx, bind_run hx, h]

/-- A check may raise one error or another. -/
theorem toOption_require_bind {p : Prop} [Decidable p] {e e' : ε} {f g : PUnit → Tx σ ε β} {s : σ}
    (h : p → (f ⟨⟩ s).toOption = (g ⟨⟩ s).toOption) :
    ((require p e >>= f) s).toOption = ((require p e' >>= g) s).toOption := by
  by_cases hp : p
  · rw [require_bind hp, require_bind hp, h hp]
  · rw [bind_error (require_error hp e s), bind_error (require_error hp e' s)]
    rfl

/-! ### Frames -/

/-- Every successful run of `x` ends in a state that `R` relates to the state it
began in. -/
def Keeps (R : σ → σ → Prop) (x : Tx σ ε α) : Prop :=
  ∀ s a s', x s = .ok (a, s') → R s s'

/-- The relations a frame rule is about: doing nothing is allowed, and so is one
allowed change after another. -/
structure IsFrame (R : σ → σ → Prop) : Prop where
  refl : ∀ s, R s s
  trans : ∀ {s t u}, R s t → R t u → R s u

namespace Keeps

variable {R : σ → σ → Prop}

theorem bind (hR : IsFrame R) {x : Tx σ ε α} {f : α → Tx σ ε β} (hx : Keeps R x)
    (hf : ∀ a, Keeps R (f a)) : Keeps R (x >>= f) := by
  intro s b s' h
  obtain ⟨a, t, hxs, hft⟩ := bind_ok.mp h
  exact hR.trans (hx s a t hxs) (hf a t b s' hft)

theorem of_same (hR : IsFrame R) {x : Tx σ ε α} (hx : ∀ s a s', x s = .ok (a, s') → s = s') :
    Keeps R x := by
  intro s a s' h
  rw [← hx s a s' h]
  exact hR.refl s

theorem pure (hR : IsFrame R) (a : α) : Keeps R (Pure.pure a : Tx σ ε α) :=
  of_same hR fun _ _ _ h => (pure_ok.mp h).2

theorem require (hR : IsFrame R) (p : Prop) [Decidable p] (e : ε) :
    Keeps R (Foundation.require p e : Tx σ ε PUnit) :=
  of_same hR fun _ _ _ h => (require_ok.mp h).2

theorem orThrow (hR : IsFrame R) (o : Option α) (e : ε) : Keeps R (Foundation.orThrow o e) :=
  of_same hR fun _ _ _ h => (orThrow_ok.mp h).2

theorem attempt (hR : IsFrame R) (x : Except ε α) : Keeps R (Foundation.attempt x) :=
  of_same hR fun _ _ _ h => (attempt_ok.mp h).2

theorem reads (hR : IsFrame R) (f : σ → α) : Keeps R (Foundation.reads f : Tx σ ε α) :=
  of_same hR fun _ _ _ h => (reads_ok.mp h).2

theorem demand (hR : IsFrame R) (p : σ → Prop) [DecidablePred p] (e : ε) :
    Keeps R (Foundation.demand p e : Tx σ ε PUnit) :=
  of_same hR fun _ _ _ h => (demand_ok.mp h).2

theorem lookup (hR : IsFrame R) (f : σ → Option α) (e : ε) : Keeps R (Foundation.lookup f e) :=
  of_same hR fun _ _ _ h => (lookup_ok.mp h).2

theorem raise (e : ε) : Keeps R (Foundation.raise e : Tx σ ε α) := by
  intro s a s' h
  exact (raise_ok.mp h).elim

theorem writes {f : σ → σ} (hf : ∀ s, R s (f s)) : Keeps R (Foundation.writes f : Tx σ ε PUnit) := by
  intro s a s' h
  rw [← writes_ok.mp h]
  exact hf s

theorem forEach (hR : IsFrame R) {f : α → Tx σ ε PUnit} (hf : ∀ a, Keeps R (f a)) :
    ∀ as, Keeps R (Foundation.forEach f as)
  | [] => pure hR _
  | a :: as => bind hR (hf a) fun _ => forEach hR hf as

/-! What a link has checked may be used by the rest of the body. -/

theorem require_bind {p : Prop} [Decidable p] {e : ε} {f : PUnit → Tx σ ε β}
    (hf : p → Keeps R (f ⟨⟩)) : Keeps R (Foundation.require p e >>= f) := by
  intro s b s' h
  obtain ⟨a, t, hx, hft⟩ := bind_ok.mp h
  obtain ⟨hp, rfl⟩ := require_ok.mp hx
  exact hf hp s b s' hft

theorem attempt_bind {x : Except ε α} {f : α → Tx σ ε β} (hf : ∀ a, x = .ok a → Keeps R (f a)) :
    Keeps R (Foundation.attempt x >>= f) := by
  intro s b s' h
  obtain ⟨a, t, hx, hft⟩ := bind_ok.mp h
  obtain ⟨ha, rfl⟩ := attempt_ok.mp hx
  exact hf a ha s b s' hft

end Keeps

/-! ### Failing bodies -/

/-- No run of `x` succeeds. -/
def Fails (x : Tx σ ε α) : Prop := ∀ s a s', x s ≠ .ok (a, s')

namespace Fails

theorem raise (e : ε) : Fails (Foundation.raise e : Tx σ ε α) :=
  fun _ _ _ h => (raise_ok.mp h).elim

theorem require {p : Prop} [Decidable p] (hp : ¬p) (e : ε) :
    Fails (Foundation.require p e : Tx σ ε PUnit) :=
  fun _ _ _ h => hp (require_ok.mp h).1

/-- A body fails when its first link does. -/
theorem bind_left {x : Tx σ ε α} (hx : Fails x) (f : α → Tx σ ε β) : Fails (x >>= f) := by
  intro s b s' h
  obtain ⟨a, t, hxs, -⟩ := bind_ok.mp h
  exact hx s a t hxs

/-- A body fails when the rest of it does, whatever its first link returns. -/
theorem bind_right {x : Tx σ ε α} {f : α → Tx σ ε β} (hf : ∀ a, Fails (f a)) :
    Fails (x >>= f) := by
  intro s b s' h
  obtain ⟨a, t, -, hft⟩ := bind_ok.mp h
  exact hf a t b s' hft

theorem orThrow_bind {o : Option α} {e : ε} {f : α → Tx σ ε β}
    (hf : ∀ a, o = some a → Fails (f a)) : Fails (Foundation.orThrow o e >>= f) := by
  intro s b s' h
  obtain ⟨a, t, hx, hft⟩ := bind_ok.mp h
  exact hf a (orThrow_ok.mp hx).1 t b s' hft

theorem attempt_bind {x : Except ε α} {f : α → Tx σ ε β}
    (hf : ∀ a, x = .ok a → Fails (f a)) : Fails (Foundation.attempt x >>= f) := by
  intro s b s' h
  obtain ⟨a, t, hx, hft⟩ := bind_ok.mp h
  exact hf a (attempt_ok.mp hx).1 t b s' hft

end Fails

/-! ### Committing -/

/-- Run a body to its end, or raise and leave the state as it was. -/
def commit (x : Tx σ ε α) (s : σ) : Except ε α × σ :=
  match x s with
  | .ok (a, s') => (.ok a, s')
  | .error e => (.error e, s)

theorem commit_of_ok {x : Tx σ ε α} {s s' : σ} {a : α} (h : x s = .ok (a, s')) :
    commit x s = (.ok a, s') := by
  simp only [commit, h]

theorem commit_of_error {x : Tx σ ε α} {s : σ} {e : ε} (h : x s = .error e) :
    commit x s = (.error e, s) := by
  simp only [commit, h]

/-- A body that cannot run to its end leaves the state as it was. -/
theorem commit_refused {x : Tx σ ε α} {s : σ} (h : ∀ a s', x s ≠ .ok (a, s')) :
    ∃ e, commit x s = (.error e, s) := by
  cases hx : x s with
  | ok p => exact absurd hx (h p.1 p.2)
  | error e => exact ⟨e, commit_of_error hx⟩

/-- **A committed body either did nothing or ran to its end.** -/
theorem commit_eq_or (x : Tx σ ε α) (s : σ) :
    (commit x s).2 = s ∨ ∃ a, x s = .ok (a, (commit x s).2) := by
  cases h : x s with
  | ok p => exact .inr ⟨p.1, by rw [commit_of_ok h]⟩
  | error e => exact .inl (by rw [commit_of_error h])

end Foundation
