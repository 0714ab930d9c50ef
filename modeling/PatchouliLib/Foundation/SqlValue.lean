import PatchouliLib.Foundation.Bytes
import PatchouliLib.Foundation.Unordered

/-!
# Stored values

A column of a row holds a value of any storage class, whatever its declared type.  Two
values are compared by what they stand for: an integer equals the real with the same
value, a text is its encoded bytes, and NULL equals nothing.

A query joins the rows of one table to those of another, and a reader that expects one
row at the most takes it out of the result.

## Main definitions

* `SqlValue` — a stored value, with its storage class.
* `SqlValue.SqlEq`, `SqlValue.Matches` — equality of two columns, and with what a reader asks
  for.
* `SqlValue.le` — the order of a sort.
* `SqlValue.IsInt n` — the value equals the integer `n` of the reader.
* `innerJoin`, `outerJoin` — the rows of two tables that belong together.
* `oneOrNone` — the row of a result that has one at the most.

## Main results

* `forall₂_and`, `forall₂_of_map_eq`, `map_eq_of_forall₂` — rows that agree place by place.
* `oneOrNone_innerJoin`, `oneOrNone_outerJoin` — **with unique keys a join looks up the one
  row and the one that belongs to it.**
-/

namespace Foundation

/-! ### Values -/

/-- A stored value, with its storage class. -/
inductive SqlValue where
  | null
  | integer (n : ℤ)
  | real (x : WithBot (WithTop ℚ))
  | text (encoded : Bytes)
  | blob (content : Bytes)
deriving DecidableEq

/-- What a stored value is compared as. -/
inductive Comparand where
  | number (x : WithBot (WithTop ℚ))
  | text (encoded : Bytes)
  | blob (content : Bytes)
deriving DecidableEq

/-- An integer among the reals. -/
def asReal (n : ℤ) : WithBot (WithTop ℚ) := (((n : ℚ) : WithTop ℚ) : WithBot (WithTop ℚ))

theorem asReal_injective {m n : ℤ} (h : asReal m = asReal n) : m = n := by
  unfold asReal at h
  exact_mod_cast WithTop.coe_injective (WithBot.coe_injective h)

namespace SqlValue

/-- The stored form of a text. -/
def ofText (t : Text) : SqlValue := .text (utf8Encode t)

theorem ofText_injective {t t' : Text} (h : ofText t = ofText t') : t = t' :=
  utf8Encode_injective (SqlValue.text.inj h)

/-- The text that a reader gets, when the value is one. -/
def text? : SqlValue → Option Text
  | .text encoded => utf8Decode encoded
  | _ => none

theorem text?_eq_some {v : SqlValue} {t : Text} : v.text? = some t ↔ v = ofText t := by
  cases v with
  | text encoded =>
    constructor
    · intro h
      rw [ofText, utf8Encode_of_utf8Decode h]
    · intro h
      rw [h]
      exact utf8Decode_utf8Encode t
  | null => simp [text?, ofText]
  | integer n => simp [text?, ofText]
  | real x => simp [text?, ofText]
  | blob content => simp [text?, ofText]

/-- The bytes that a reader gets, when the value is a blob. -/
def blob? : SqlValue → Option Bytes
  | .blob content => some content
  | _ => none

theorem blob?_eq_some {v : SqlValue} {content : Bytes} :
    v.blob? = some content ↔ v = .blob content := by
  cases v <;> simp [blob?]

/-- The integer that a reader gets, when the value is one. -/
def int? : SqlValue → Option ℤ
  | .integer n => some n
  | _ => none

theorem int?_eq_some {v : SqlValue} {n : ℤ} : v.int? = some n ↔ v = .integer n := by
  cases v <;> simp [int?]

def comparand : SqlValue → Option Comparand
  | .null => none
  | .integer n => some (.number (asReal n))
  | .real x => some (.number x)
  | .text encoded => some (.text encoded)
  | .blob content => some (.blob content)

/-- Two columns are equal. -/
def SqlEq (v w : SqlValue) : Prop := v.comparand ≠ none ∧ v.comparand = w.comparand

instance : DecidableRel SqlEq := fun v w => by
  unfold SqlEq
  infer_instance

theorem SqlEq.symm {v w : SqlValue} (h : v.SqlEq w) : w.SqlEq v := ⟨h.2 ▸ h.1, h.2.symm⟩

theorem SqlEq.trans {u v w : SqlValue} (h : u.SqlEq v) (h' : v.SqlEq w) : u.SqlEq w :=
  ⟨h.1, h.2.trans h'.2⟩

/-- The value meets the condition of a reader, for whom no value asks for NULL. -/
def Matches (v w : SqlValue) : Prop := v.comparand = w.comparand

instance : DecidableRel Matches := fun v w => by
  unfold Matches
  infer_instance

/-- The value equals the integer `n` of the reader. -/
def IsInt (n : ℤ) (v : SqlValue) : Prop :=
  match v with
  | .integer m => n = m
  | .real x => asReal n = x
  | _ => False

instance (n : ℤ) (v : SqlValue) : Decidable (v.IsInt n) := by
  unfold IsInt
  cases v <;> dsimp only <;> infer_instance

/-- A value equals an integer for the reader when it does in a condition. -/
theorem isInt_iff {n : ℤ} {v : SqlValue} : v.IsInt n ↔ (integer n).SqlEq v := by
  cases v with
  | integer m =>
    constructor
    · rintro rfl
      exact ⟨by simp [comparand], rfl⟩
    · rintro ⟨-, h⟩
      exact asReal_injective (Comparand.number.inj (Option.some.inj h))
  | null => simp [IsInt, SqlEq, comparand]
  | real x => simp [IsInt, SqlEq, comparand]
  | text encoded => simp [IsInt, SqlEq, comparand]
  | blob content => simp [IsInt, SqlEq, comparand]

@[simp] theorem isInt_integer {n m : ℤ} : (integer m).IsInt n ↔ n = m := Iff.rfl

/-- The order of a sort: NULL, numbers, texts by their bytes, blobs. -/
def le (v w : SqlValue) : Prop :=
  match v.comparand, w.comparand with
  | none, _ => True
  | some _, none => False
  | some (.number x), some (.number y) => x ≤ y
  | some (.number _), some _ => True
  | some (.text a), some (.text b) => a ≤ b
  | some (.text _), some (.blob _) => True
  | some (.blob a), some (.blob b) => a ≤ b
  | some _, some _ => False

instance : DecidableRel le := fun v w => by
  unfold le
  split <;> infer_instance

@[simp] theorem ofText_le {t t' : Text} : (ofText t).le (ofText t') ↔ utf8Encode t ≤ utf8Encode t' :=
  Iff.rfl

end SqlValue

/-! ### Results with one row at the most -/

universe u

variable {ε α β : Type u}

/-- The row of a result that has one at the most. -/
def oneOrNone (rows : List α) (e : ε) : Except ε (Option α) :=
  match rows with
  | [] => .ok none
  | [row] => .ok (some row)
  | _ => .error e

theorem oneOrNone_toList (o : Option α) (e : ε) : oneOrNone o.toList e = .ok o := by
  cases o <;> rfl

/-- The condition selects one row at the most. -/
def SelectsOne (p : α → Prop) (rows : List α) : Prop := rows.Pairwise fun a b => ¬(p a ∧ p b)

/-- Rows that no two of which are related: a condition that relates what it selects. -/
theorem SelectsOne.of_pairwise {p : α → Prop} {r : α → α → Prop} {rows : List α}
    (h : rows.Pairwise fun a b => ¬r a b) (hp : ∀ a b, p a → p b → r a b) : SelectsOne p rows :=
  h.imp fun hab hpab => hab (hp _ _ hpab.1 hpab.2)

section

variable {p : α → Prop} [DecidablePred p] {rows : List α}

/-- **A lookup** of the one row that a condition selects. -/
theorem SelectsOne.find?_eq (h : SelectsOne p rows) {a : α} :
    rows.find? (fun row => decide (p row)) = some a ↔ a ∈ rows ∧ p a := by
  constructor
  · intro hfind
    have hpa : p a := by simpa using List.find?_some hfind
    exact ⟨List.mem_of_find?_eq_some hfind, hpa⟩
  · rintro ⟨ha, hpa⟩
    induction rows with
    | nil => cases ha
    | cons b rows ih =>
      obtain ⟨hb, hrows⟩ := List.pairwise_cons.mp h
      rcases List.mem_cons.mp ha with rfl | ha
      · rw [List.find?_cons_of_pos (by simpa using hpa)]
      · have hpb : ¬p b := fun hpb => hb a ha ⟨hpb, hpa⟩
        rw [List.find?_cons_of_neg (by simpa using hpb)]
        exact ih hrows ha

/-- What such a condition selects is the row that a lookup finds. -/
theorem SelectsOne.filter_eq (h : SelectsOne p rows) :
    rows.filter (fun row => decide (p row)) =
      (rows.find? fun row => decide (p row)).toList := by
  induction rows with
  | nil => rfl
  | cons a rows ih =>
    obtain ⟨ha, hrows⟩ := List.pairwise_cons.mp h
    by_cases hpa : p a
    · have hnone : rows.filter (fun row => decide (p row)) = [] := by
        refine List.filter_eq_nil_iff.mpr fun b hb hpb => ha b hb ⟨hpa, ?_⟩
        simpa using hpb
      rw [List.filter_cons_of_pos (by simpa using hpa), hnone,
        List.find?_cons_of_pos (by simpa using hpa), Option.toList_some]
    · rw [List.filter_cons_of_neg (by simpa using hpa),
        List.find?_cons_of_neg (by simpa using hpa)]
      exact ih hrows

end

/-! ### Rows in parallel -/

theorem forall₂_and {R S : α → β → Prop} {xs : List α} {ys : List β}
    (hR : List.Forall₂ R xs ys) (hS : List.Forall₂ S xs ys) :
    List.Forall₂ (fun x y => R x y ∧ S x y) xs ys := by
  induction hR with
  | nil => exact .nil
  | cons hxy _ ih =>
    cases hS with
    | cons hxy' hrest => exact .cons ⟨hxy, hxy'⟩ (ih hrest)

theorem forall₂_of_map_eq {γ : Type u} {f : α → γ} {g : β → γ} {xs : List α} {ys : List β}
    (h : xs.map f = ys.map g) : List.Forall₂ (fun x y => f x = g y) xs ys := by
  have heq : List.Forall₂ (· = ·) (xs.map f) (ys.map g) := by
    rw [List.forall₂_eq_eq_eq]
    exact h
  rw [List.forall₂_map_left_iff, List.forall₂_map_right_iff] at heq
  exact heq

theorem map_eq_of_forall₂ {γ : Type u} {f : α → γ} {g : β → γ} {xs : List α} {ys : List β}
    (h : List.Forall₂ (fun x y => f x = g y) xs ys) : xs.map f = ys.map g := by
  rw [← List.forall₂_eq_eq_eq, List.forall₂_map_left_iff, List.forall₂_map_right_iff]
  exact h

/-! ### Joins -/

/-- The rows of two tables that belong together. -/
def innerJoin (on : α → β → Prop) [∀ a b, Decidable (on a b)] (xs : List α) (ys : List β) :
    List (α × β) :=
  xs.flatMap fun a => (ys.filter fun b => decide (on a b)).map fun b => (a, b)

/-- Every row of a table, with those of the other that belong to it, if any do. -/
def outerJoin (on : α → β → Prop) [∀ a b, Decidable (on a b)] (xs : List α) (ys : List β) :
    List (α × Option β) :=
  xs.flatMap fun a =>
    match ys.filter fun b => decide (on a b) with
    | [] => [(a, none)]
    | matched => matched.map fun b => (a, some b)

section

variable {on : α → β → Prop} [∀ a b, Decidable (on a b)] {xs : List α} {ys : List β}

/-- With unique keys an outer join looks up the row that belongs to each. -/
theorem outerJoin_eq_map (h : ∀ a, SelectsOne (on a) ys) :
    outerJoin on xs ys = xs.map fun a => (a, ys.find? fun b => decide (on a b)) := by
  have hone (a : α) : (match ys.filter fun b => decide (on a b) with
      | [] => [(a, none)]
      | matched => matched.map fun b => (a, some b)) =
      [(a, ys.find? fun b => decide (on a b))] := by
    rw [(h a).filter_eq]
    cases ys.find? fun b => decide (on a b) <;> rfl
  rw [outerJoin, List.map_eq_flatMap]
  exact List.flatMap_congr fun a _ => hone a

/-- With unique keys an inner join keeps the rows that have one. -/
theorem innerJoin_eq_filterMap (h : ∀ a, SelectsOne (on a) ys) :
    innerJoin on xs ys =
      xs.filterMap fun a => (ys.find? fun b => decide (on a b)).map fun b => (a, b) := by
  rw [innerJoin, List.filterMap_eq_flatMap_toList]
  refine List.flatMap_congr fun a _ => ?_
  rw [(h a).filter_eq]
  cases ys.find? fun b => decide (on a b) <;> rfl

variable {p : α → Prop} [DecidablePred p] {e : ε}

/-- **With unique keys an outer join looks up the one row** and the one that belongs to it. -/
theorem oneOrNone_outerJoin (hp : SelectsOne p xs) (hon : ∀ a, SelectsOne (on a) ys) :
    oneOrNone ((outerJoin on xs ys).filter fun row => decide (p row.1)) e =
      .ok ((xs.find? fun a => decide (p a)).map fun a => (a, ys.find? fun b => decide (on a b))) := by
  have hfilter : (outerJoin on xs ys).filter (fun row => decide (p row.1)) =
      ((xs.find? fun a => decide (p a)).map
        fun a => (a, ys.find? fun b => decide (on a b))).toList := by
    rw [outerJoin_eq_map hon, List.filter_map]
    have hcomp : ((fun row : α × Option β => decide (p row.1)) ∘
        fun a => (a, ys.find? fun b => decide (on a b))) = fun a => decide (p a) := rfl
    rw [hcomp, hp.filter_eq]
    cases xs.find? fun a => decide (p a) <;> rfl
  rw [hfilter, oneOrNone_toList]

/-- **With unique keys an inner join looks up the one row** and the one that belongs to it. -/
theorem oneOrNone_innerJoin (hp : SelectsOne p xs) (hon : ∀ a, SelectsOne (on a) ys) :
    oneOrNone ((innerJoin on xs ys).filter fun row => decide (p row.1)) e =
      .ok ((xs.find? fun a => decide (p a)).bind
        fun a => (ys.find? fun b => decide (on a b)).map fun b => (a, b)) := by
  have hfilter : (innerJoin on xs ys).filter (fun row => decide (p row.1)) =
      ((xs.find? fun a => decide (p a)).bind
        fun a => (ys.find? fun b => decide (on a b)).map fun b => (a, b)).toList := by
    have hkept : (innerJoin on xs ys).filter (fun row => decide (p row.1)) =
        innerJoin on (xs.filter fun a => decide (p a)) ys := by
      unfold innerJoin
      induction xs with
      | nil => rfl
      | cons a xs ih =>
        obtain ⟨-, hrest⟩ := List.pairwise_cons.mp hp
        rw [List.flatMap_cons, List.filter_append, ih hrest]
        by_cases hpa : p a
        · rw [List.filter_cons_of_pos (by simpa using hpa), List.flatMap_cons]
          congr 1
          refine List.filter_eq_self.mpr fun row hrow => ?_
          obtain ⟨b, -, rfl⟩ := List.mem_map.mp hrow
          simpa using hpa
        · rw [List.filter_cons_of_neg (by simpa using hpa)]
          have hnone : ((ys.filter fun b => decide (on a b)).map fun b => (a, b)).filter
              (fun row => decide (p row.1)) = [] := by
            refine List.filter_eq_nil_iff.mpr fun row hrow => ?_
            obtain ⟨b, -, rfl⟩ := List.mem_map.mp hrow
            simpa using hpa
          rw [hnone, List.nil_append]
    rw [hkept, innerJoin_eq_filterMap hon, hp.filter_eq]
    cases xs.find? fun a => decide (p a) with
    | none => rfl
    | some a =>
      rw [Option.toList_some, Option.bind_some, List.filterMap_cons]
      cases ys.find? fun b => decide (on a b) <;> rfl
  rw [hfilter, oneOrNone_toList]

end

end Foundation
