import PatchouliLib.Foundation.Bytes

/-!
# JSON texts

The compact rendering of a JSON value.  Text is escaped either down to ASCII or
only where the grammar demands it.

## Main definitions

* `Json` — JSON values with integer numbers and ordered fields.
* `Json.dumps` — the compact rendering.

## Main results

* `Json.dumps_arr_concat_num_inj` — the rendering of an array tells its last
  number.
-/

namespace Foundation

/-- A JSON value with integer numbers. -/
inductive Json where
  | null
  | bool (value : Bool)
  | num (value : ℤ)
  | str (value : Text)
  | arr (items : List Json)
  | obj (fields : List (Text × Json))

namespace Json

/-- The rendering of an integer. -/
def number (i : ℤ) : Text :=
  if i < 0 then '-' :: Nat.toDigits 10 i.natAbs else Nat.toDigits 10 i.natAbs

/-- `\uXXXX`. -/
def unicodeEscape (n : ℕ) : Text := '\\' :: 'u' :: hex (bigEndian 2 n)

/-- One character of a JSON string. -/
def escape (ensureAscii : Bool) (c : Char) : Text :=
  let n := c.toNat
  if c = '"' then ['\\', '"']
  else if c = '\\' then ['\\', '\\']
  else if n = 10 then ['\\', 'n']
  else if n = 13 then ['\\', 'r']
  else if n = 9 then ['\\', 't']
  else if n = 8 then ['\\', 'b']
  else if n = 12 then ['\\', 'f']
  else if n < 32 then unicodeEscape n
  else if n < 127 ∨ !ensureAscii then [c]
  else if n < 0x10000 then unicodeEscape n
  else
    -- beyond the basic plane a surrogate pair stands for the character
    unicodeEscape (0xd800 + (n - 0x10000) / 1024) ++ unicodeEscape (0xdc00 + (n - 0x10000) % 1024)

/-- A JSON string. -/
def quote (ensureAscii : Bool) (text : Text) : Text :=
  '"' :: text.flatMap (escape ensureAscii) ++ ['"']

mutual

/-- `json.dumps(value, separators=(",", ":"))`. -/
def dumps (ensureAscii : Bool) : Json → Text
  | null => ['n', 'u', 'l', 'l']
  | bool true => ['t', 'r', 'u', 'e']
  | bool false => ['f', 'a', 'l', 's', 'e']
  | num i => number i
  | str text => quote ensureAscii text
  | arr items => '[' :: dumpsItems ensureAscii items ++ [']']
  | obj fields => '{' :: dumpsFields ensureAscii fields ++ ['}']

def dumpsItems (ensureAscii : Bool) : List Json → Text
  | [] => []
  | [item] => dumps ensureAscii item
  | item :: items => dumps ensureAscii item ++ ',' :: dumpsItems ensureAscii items

def dumpsFields (ensureAscii : Bool) : List (Text × Json) → Text
  | [] => []
  | [(name, value)] => quote ensureAscii name ++ ':' :: dumps ensureAscii value
  | (name, value) :: fields =>
    quote ensureAscii name ++ ':' :: dumps ensureAscii value ++ ',' ::
      dumpsFields ensureAscii fields

end

/-- A value or `null`. -/
def ofOption {α : Type} (f : α → Json) : Option α → Json
  | none => null
  | some a => f a

/-! ### Numerals -/

/-- A numeral of a positive number does not start with a zero. -/
theorem toDigits_eq_cons {n : ℕ} (hn : 0 < n) :
    ∃ c cs, Nat.toDigits 10 n = c :: cs ∧ ('1' ≤ c && c ≤ '9') = true := by
  induction n using Nat.strongRecOn with
  | ind n ih =>
    by_cases hlt : n < 10
    · have key : ∀ d < 10, 0 < d → ('1' ≤ d.digitChar && d.digitChar ≤ '9') = true := by decide
      exact ⟨n.digitChar, [], Nat.toDigits_of_lt_base hlt, key n hlt hn⟩
    · obtain ⟨c, cs, hcs, hc⟩ := ih (n / 10) (by omega) (by omega)
      refine ⟨c, cs ++ [(n % 10).digitChar], ?_, hc⟩
      rw [Nat.toDigits_of_base_le (by decide) (by omega), hcs, List.cons_append]

/-! ### The last number of an array -/

theorem number_natCast (n : ℕ) : number n = Nat.toDigits 10 n := by
  have hnonneg : ¬(n : ℤ) < 0 := by omega
  rw [number, if_neg hnonneg, Int.natAbs_natCast]

theorem comma_notMem_number (n : ℕ) : ',' ∉ number n := by
  rw [number_natCast]
  intro h
  have hdigit : (',' : Char).isDigit = true :=
    Nat.isDigit_of_mem_toDigits (by decide) (by decide) h
  exact absurd hdigit (by decide)

theorem number_natCast_inj {m n : ℕ} (h : number m = number n) : m = n := by
  rw [number_natCast, number_natCast] at h
  rw [← Nat.ofDigitChars_ten_toDigits (n := m), h, Nat.ofDigitChars_ten_toDigits]

theorem dumpsItems_concat (ensureAscii : Bool) {items : List Json} (hne : items ≠ [])
    (item : Json) : dumpsItems ensureAscii (items ++ [item]) =
      dumpsItems ensureAscii items ++ ',' :: dumps ensureAscii item := by
  induction items with
  | nil => exact absurd rfl hne
  | cons first items ih =>
    cases items with
    | nil => rfl
    | cons second items =>
      show dumps ensureAscii first ++ ',' :: dumpsItems ensureAscii (second :: items ++ [item]) = _
      rw [ih (List.cons_ne_nil _ _)]
      show _ = dumps ensureAscii first ++ ',' :: dumpsItems ensureAscii (second :: items) ++ _
      rw [List.append_assoc, List.cons_append]

/-- **The rendering of an array tells its last number.** -/
theorem dumps_arr_concat_num_inj {ensureAscii : Bool} {items items' : List Json}
    (hne : items ≠ []) (hne' : items' ≠ []) {m n : ℕ}
    (h : dumps ensureAscii (.arr (items ++ [.num m])) =
      dumps ensureAscii (.arr (items' ++ [.num n]))) : m = n := by
  have hitems : dumpsItems ensureAscii (items ++ [.num m]) =
      dumpsItems ensureAscii (items' ++ [.num n]) := by
    simp only [dumps] at h
    exact List.append_cancel_right (List.cons_injective h)
  rw [dumpsItems_concat _ hne, dumpsItems_concat _ hne'] at hitems
  -- read from the end, the first comma is the one before the last number
  have hreverse := congrArg List.reverse hitems
  simp only [List.reverse_append, List.reverse_cons, List.append_assoc, List.singleton_append]
    at hreverse
  have hm : ',' ∉ (dumps ensureAscii (.num m)).reverse := by
    simpa [dumps] using comma_notMem_number m
  have hn : ',' ∉ (dumps ensureAscii (.num n)).reverse := by
    simpa [dumps] using comma_notMem_number n
  have hsplit := congrArg (List.splitOn ',') hreverse
  rw [List.splitOn_append_cons_self_of_not_mem hm, List.splitOn_append_cons_self_of_not_mem hn]
    at hsplit
  have hlast := List.reverse_injective (List.cons.inj hsplit).1
  simp only [dumps] at hlast
  exact number_natCast_inj hlast

end Json

end Foundation
