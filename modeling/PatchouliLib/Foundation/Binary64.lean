import Mathlib

/-!
# Binary floating point numbers

The finite numbers of the 64-bit format are the rationals `m * 2 ^ e` with a
53-bit `m` and an exponent in range; a zero has a sign, and what is too large is
infinite.  A decimal numeral is rounded to the nearest of them, ties to the even
one, and the text of a number is the shortest decimal that rounds back to it.

## Main definitions

* `Binary64` — the numbers.
* `Binary64.ofDecimal` — the number of a decimal numeral.
* `Binary64.repr` — the shortest text of a number.

## Main results

* `Binary64.eq_one`, `Binary64.repr_one` — the number that equals one, and its text.
-/

namespace Foundation

/-- A number of the 64-bit format. -/
inductive Binary64 where
  | finite (value : ℚ)
  | negativeZero
  | infinite (negative : Bool)
deriving DecidableEq

namespace Binary64

/-- `b ^ e`. -/
def power (b : ℕ) (e : ℤ) : ℚ := if 0 ≤ e then (b ^ e.toNat : ℕ) else 1 / (b ^ (-e).toNat : ℕ)

/-- The nearest integer, ties to the even one. -/
def roundHalfEven (q : ℚ) : ℤ :=
  let low := q.floor
  let rest := q - low
  if rest < 1 / 2 then low
  else if 1 / 2 < rest then low + 1
  else if low % 2 = 0 then low
  else low + 1

/-- The exponent of the last bit of a positive number. -/
def lastBit (q : ℚ) : ℤ :=
  let e : ℤ := q.num.natAbs.log2 - q.den.log2
  max ((if power 2 e ≤ q then e else e - 1) - 52) (-1074)

/-- Round a positive number. -/
def roundPositive (q : ℚ) : Binary64 :=
  let e := lastBit q
  let value := roundHalfEven (q / power 2 e) * power 2 e
  if power 2 1024 ≤ value then infinite false else finite value

def neg : Binary64 → Binary64
  | finite value => if value = 0 then negativeZero else finite (-value)
  | negativeZero => finite 0
  | infinite negative => infinite !negative

/-- The number of `digits * 10 ^ exponent`, with a sign. -/
def ofDecimal (negative : Bool) (digits : ℕ) (exponent : ℤ) : Binary64 :=
  let x := if digits = 0 then finite 0 else roundPositive (digits * power 10 exponent)
  if negative then x.neg else x

/-- The place of the decimal point: `10 ^ (p - 1) ≤ q < 10 ^ p`. -/
def decimalPoint (q : ℚ) : ℤ :=
  if 1 ≤ q then (Nat.toDigits 10 (q.num.natAbs / q.den)).length
  else 1 - (Nat.toDigits 10 ((q.den - 1) / q.num.natAbs)).length

/-- The decimals of `n` digits beside a positive number that round to it, the nearest first. -/
def candidates (q : ℚ) (n : ℕ) : List ℕ :=
  let scale := power 10 (n - decimalPoint q)
  let low := (q * scale).floor.toNat
  let ordered := if (q * scale) - low ≤ 1 / 2 then [low, low + 1] else [low + 1, low]
  ordered.filter fun c => roundPositive (c / scale) = finite q

/-- The shortest digits that round to a positive number, and the place of the point. -/
def shortest (q : ℚ) : List Char × ℤ :=
  match (List.range 17).findSome? fun n => (candidates q (n + 1)).head?.map fun c => (c, n + 1) with
  | some (c, n) =>
    let digits := Nat.toDigits 10 c
    (digits.rdropWhile (· = '0'), decimalPoint q - n + digits.length)
  | none => (['0'], 1)

/-- Digits with a decimal point, or with an exponent when they are far from it. -/
def format (digits : List Char) (point : ℤ) : List Char :=
  if -4 < point ∧ point ≤ 16 then
    if point ≤ 0 then '0' :: '.' :: List.replicate (-point).toNat '0' ++ digits
    else if digits.length ≤ point.toNat then
      digits ++ List.replicate (point.toNat - digits.length) '0' ++ ['.', '0']
    else digits.take point.toNat ++ '.' :: digits.drop point.toNat
  else
    let exponent := point - 1
    let numeral := Nat.toDigits 10 exponent.natAbs
    digits.take 1 ++ (if digits.length ≤ 1 then [] else '.' :: digits.drop 1) ++
      'e' :: (if exponent < 0 then '-' else '+') ::
        (List.replicate (2 - numeral.length) '0' ++ numeral)

/-- `float.__repr__(x)` of a finite number. -/
def repr : Binary64 → Option (List Char)
  | finite value =>
    if value = 0 then some ['0', '.', '0']
    else
      let text := format (shortest |value|).1 (shortest |value|).2
      some (if value < 0 then '-' :: text else text)
  | negativeZero => some ['-', '0', '.', '0']
  | infinite _ => none

/-- `x == i`. -/
def equalsInt : Binary64 → ℤ → Bool
  | finite value, i => value = i
  | negativeZero, i => i = 0
  | infinite _, _ => false

theorem eq_one {x : Binary64} (h : x.equalsInt 1 = true) : x = finite 1 := by
  cases x with
  | finite value =>
    have hvalue : value = ((1 : ℤ) : ℚ) := of_decide_eq_true h
    rw [hvalue, Int.cast_one]
  | negativeZero => exact absurd h (by decide)
  | infinite negative => cases h

theorem repr_one : repr (finite 1) = some ['1', '.', '0'] := by
  decide +kernel

/-- The texts on both sides of the exponent notation, and a number between two decimals. -/
example : [ofDecimal false 1 16, ofDecimal false 12 (-6), ofDecimal true 25 (-1),
      ofDecimal false 1 23].map repr =
    [some ['1', 'e', '+', '1', '6'], some ['1', '.', '2', 'e', '-', '0', '5'],
      some ['-', '2', '.', '5'], some ['1', 'e', '+', '2', '3']] := by
  decide +kernel

end Binary64

end Foundation
