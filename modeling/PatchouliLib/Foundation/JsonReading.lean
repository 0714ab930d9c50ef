import PatchouliLib.Foundation.Framing
import PatchouliLib.Foundation.Json

/-!
# Reading JSON texts back

The rendering of a JSON value tells the value.  Every piece of a rendering tells
where it ends: an escaped character by itself, a string by its closing quote, and a
number by what follows it, which is never a digit.

## Main definitions

* `Json.unescape` — read one escaped character.
* `Json.Follows r` — `r` may stand behind a value.

## Main results

* `Json.dumps_append_inj` — a value and what follows it are told apart.
* `Json.dumps_injective` — **the rendering of a value tells the value.**
-/

namespace Foundation

namespace Json

/-! ### Characters -/

/-- Read `\uXXXX`. -/
def readUnit : Text → Option (ℕ × Text)
  | '\\' :: 'u' :: a :: b :: c :: d :: rest =>
    match unhex [a, b, c, d] with
    | [high, low] => some (high.toNat * 256 + low.toNat, rest)
    | _ => none
  | _ => none

/-- The character behind a backslash. -/
def shortEscape (c : Char) : Char :=
  if c = 'n' then '\n' else if c = 'r' then '\r' else if c = 't' then '\t'
  else if c = 'b' then Char.ofNat 8 else if c = 'f' then Char.ofNat 12 else c

/-- Read one escaped character. -/
def unescape (text : Text) : Option (Char × Text) :=
  match text with
  | '\\' :: c :: rest =>
    if c = 'u' then do
      let (unit, rest) ← readUnit text
      if 0xd800 ≤ unit ∧ unit < 0xdc00 then do
        let (low, rest) ← readUnit rest
        pure (Char.ofNat (0x10000 + (unit - 0xd800) * 1024 + (low - 0xdc00)), rest)
      else pure (Char.ofNat unit, rest)
    else some (shortEscape c, rest)
  | c :: rest => some (c, rest)
  | [] => none

theorem readUnit_unicodeEscape {n : ℕ} (hn : n < 0x10000) (rest : Text) :
    readUnit (unicodeEscape n ++ rest) = some (n, rest) := by
  have hbytes : bigEndian 2 n = [UInt8.ofNat (n / 256), UInt8.ofNat (n % 256)] := by
    have hlow : n / 256 % 256 = n / 256 := Nat.mod_eq_of_lt (by omega)
    simp [bigEndian, hlow]
  have hunhex := unhex_hex (bigEndian 2 n)
  rw [hbytes] at hunhex
  rw [unicodeEscape, hbytes]
  simp only [hex, List.cons_append, List.nil_append] at hunhex ⊢
  rw [readUnit, hunhex]
  simp only [UInt8.toNat_ofNat']
  rw [show n / 256 % 2 ^ 8 * 256 + n % 256 % 2 ^ 8 = n by omega]

theorem unescape_unicodeEscape {n : ℕ} (hn : n < 0x10000) (rest : Text) :
    unescape (unicodeEscape n ++ rest) =
      if 0xd800 ≤ n ∧ n < 0xdc00 then do
        let (low, rest) ← readUnit rest
        pure (Char.ofNat (0x10000 + (n - 0xd800) * 1024 + (low - 0xdc00)), rest)
      else pure (Char.ofNat n, rest) := by
  have hread := readUnit_unicodeEscape hn rest
  have htext : unicodeEscape n ++ rest = '\\' :: 'u' :: (hex (bigEndian 2 n) ++ rest) := rfl
  rw [htext] at hread ⊢
  rw [unescape, if_pos rfl, hread]
  rfl

/-- No character is a surrogate. -/
theorem toNat_range (c : Char) : c.toNat < 0xd800 ∨ 0xdfff < c.toNat ∧ c.toNat < 0x110000 := c.valid

theorem eq_of_toNat {c : Char} {n : ℕ} (h : c.toNat = n) : c = Char.ofNat n := by
  rw [← h, Char.ofNat_toNat]

/-- A character that is written as it is. -/
theorem unescape_raw {c : Char} (h : c ≠ '\\') (rest : Text) :
    unescape (c :: rest) = some (c, rest) := by
  unfold unescape
  split
  · next heq => exact absurd (List.cons.inj heq).1 h
  · next heq => rw [(List.cons.inj heq).1, (List.cons.inj heq).2]
  · next heq => cases heq

/-- **Reading inverts escaping.** -/
theorem unescape_escape (ensureAscii : Bool) (c : Char) (rest : Text) :
    unescape (escape ensureAscii c ++ rest) = some (c, rest) := by
  have hrange := toNat_range c
  simp only [escape]
  split
  · next hquote =>
    subst hquote
    rfl
  split
  · next hbackslash =>
    subst hbackslash
    rfl
  next hbackslash =>
  split
  · next h =>
    obtain rfl := eq_of_toNat h
    rfl
  split
  · next h =>
    obtain rfl := eq_of_toNat h
    rfl
  split
  · next h =>
    obtain rfl := eq_of_toNat h
    rfl
  split
  · next h =>
    obtain rfl := eq_of_toNat h
    rfl
  split
  · next h =>
    obtain rfl := eq_of_toNat h
    rfl
  split
  · next hcontrol =>
    rw [unescape_unicodeEscape (by omega), if_neg (by omega), Char.ofNat_toNat]
    rfl
  split
  · exact unescape_raw hbackslash rest
  split
  · next hbasic =>
    rw [unescape_unicodeEscape hbasic, if_neg (by omega), Char.ofNat_toNat]
    rfl
  · -- the two surrogates spell the twenty bits beyond the basic plane
    rw [List.append_assoc, unescape_unicodeEscape (by omega), if_pos (by omega),
      readUnit_unicodeEscape (by omega)]
    have hsum : 0x10000 + (0xd800 + (c.toNat - 0x10000) / 1024 - 0xd800) * 1024 +
        (0xdc00 + (c.toNat - 0x10000) % 1024 - 0xdc00) = c.toNat := by omega
    show some (Char.ofNat _, rest) = _
    rw [hsum, Char.ofNat_toNat]

theorem selfDelimiting_escape (ensureAscii : Bool) :
    SelfDelimiting (fun _ => True) (escape ensureAscii) := by
  intro a b r r' _ _ h
  have hread := congrArg unescape h
  rw [unescape_escape, unescape_escape] at hread
  exact Prod.mk.inj (Option.some.inj hread)

/-- No escaped character begins with a quote. -/
theorem head_escape (ensureAscii : Bool) (c : Char) (rest rest' : Text) :
    escape ensureAscii c ++ rest ≠ '"' :: rest' := by
  intro h
  have hread := congrArg unescape h
  rw [unescape_escape, unescape_raw (by decide)] at hread
  obtain ⟨rfl, -⟩ := Prod.mk.inj (Option.some.inj hread)
  exact absurd (List.cons.inj h).1 (by decide)

/-- A string tells where it ends. -/
theorem quote_append_inj {ensureAscii : Bool} {a b r r' : Text}
    (h : quote ensureAscii a ++ r = quote ensureAscii b ++ r') : a = b ∧ r = r' := by
  simp only [quote, List.cons_append, List.append_assoc, List.nil_append, List.cons.injEq,
    true_and] at h
  exact (selfDelimiting_escape ensureAscii).flatMap_stop_inj
    (fun c rest rest' _ => head_escape ensureAscii c rest rest') (fun _ _ => trivial)
    (fun _ _ => trivial) h

/-! ### Numbers -/

/-- What may stand behind a value: it begins with no digit. -/
def Follows (r : Text) : Prop := r.takeWhile Char.isDigit = []

theorem follows_nil : Follows [] := rfl

theorem follows_cons {c : Char} {r : Text} (h : c.isDigit = false) : Follows (c :: r) := by
  rw [Follows, List.takeWhile_cons_of_neg (by simp [h])]

theorem isDigit_of_mem_toDigits {n : ℕ} {c : Char} (h : c ∈ Nat.toDigits 10 n) :
    c.isDigit = true :=
  Nat.isDigit_of_mem_toDigits (by decide) (by decide) h

theorem toDigits_append_inj {m n : ℕ} {r r' : Text} (hr : Follows r) (hr' : Follows r')
    (h : Nat.toDigits 10 m ++ r = Nat.toDigits 10 n ++ r') : m = n ∧ r = r' := by
  have hdigits := congrArg (List.takeWhile Char.isDigit) h
  rw [List.takeWhile_append_of_pos fun c hc => isDigit_of_mem_toDigits hc,
    List.takeWhile_append_of_pos fun c hc => isDigit_of_mem_toDigits hc, hr, hr', List.append_nil,
    List.append_nil] at hdigits
  have hnumber : m = n := by
    rw [← Nat.ofDigitChars_ten_toDigits (n := m), hdigits, Nat.ofDigitChars_ten_toDigits]
  rw [hnumber] at h
  exact ⟨hnumber, List.append_cancel_left h⟩

/-- A number begins with a sign or a digit. -/
theorem number_head (i : ℤ) : ∃ c rest, number i = c :: rest ∧ (i < 0 ∧ c = '-' ∨
    0 ≤ i ∧ c.isDigit = true) := by
  unfold number
  split
  · next hneg => exact ⟨'-', _, rfl, .inl ⟨hneg, rfl⟩⟩
  · next hnonneg =>
    cases hdigits : Nat.toDigits 10 i.natAbs with
    | nil => exact absurd hdigits Nat.toDigits_ne_nil
    | cons c rest =>
      refine ⟨c, rest, rfl, .inr ⟨by omega, isDigit_of_mem_toDigits (n := i.natAbs) ?_⟩⟩
      rw [hdigits]
      exact List.mem_cons_self

/-- A number is told from what follows it. -/
theorem number_append_inj {i j : ℤ} {r r' : Text} (hr : Follows r) (hr' : Follows r')
    (h : number i ++ r = number j ++ r') : i = j ∧ r = r' := by
  obtain ⟨c, rest, hc, hi⟩ := number_head i
  obtain ⟨c', rest', hc', hj⟩ := number_head j
  have hhead : c = c' := by
    rw [hc, hc'] at h
    exact (List.cons.inj h).1
  rcases hi with ⟨hi, rfl⟩ | ⟨hi, hdigit⟩
  · rcases hj with ⟨hj, -⟩ | ⟨-, hdigit⟩
    · rw [number, number, if_pos hi, if_pos hj] at h
      obtain ⟨habs, hrest⟩ := toDigits_append_inj hr hr' (List.cons.inj h).2
      exact ⟨by omega, hrest⟩
    · rw [← hhead] at hdigit
      exact absurd hdigit (by decide)
  · rcases hj with ⟨-, rfl⟩ | ⟨hj, -⟩
    · rw [hhead] at hdigit
      exact absurd hdigit (by decide)
    · rw [number, number, if_neg (by omega), if_neg (by omega)] at h
      obtain ⟨habs, hrest⟩ := toDigits_append_inj hr hr' h
      exact ⟨by omega, hrest⟩

/-! ### Values -/

/-- The constructor of a value. -/
def kind : Json → ℕ
  | null => 0
  | bool true => 1
  | bool false => 2
  | num _ => 3
  | str _ => 4
  | arr _ => 5
  | obj _ => 6

/-- The constructor that a first character tells. -/
def kindOf (c : Char) : ℕ :=
  if c = 'n' then 0 else if c = 't' then 1 else if c = 'f' then 2
  else if c = '"' then 4 else if c = '[' then 5 else if c = '{' then 6
  else if c = '-' ∨ c.isDigit = true then 3 else 7

/-- The first character of a value tells its constructor. -/
theorem dumps_head (ensureAscii : Bool) (v : Json) :
    ∃ c rest, dumps ensureAscii v = c :: rest ∧ kindOf c = v.kind := by
  cases v with
  | null => exact ⟨'n', _, rfl, rfl⟩
  | bool value =>
    cases value with
    | true => exact ⟨'t', _, rfl, rfl⟩
    | false => exact ⟨'f', _, rfl, rfl⟩
  | num i =>
    obtain ⟨c, rest, hc, hcase⟩ := number_head i
    refine ⟨c, rest, by rw [dumps, hc], ?_⟩
    rcases hcase with ⟨-, rfl⟩ | ⟨-, hdigit⟩
    · rfl
    · have hne : ∀ d : Char, d.isDigit = false → c ≠ d := by
        rintro d hd rfl
        exact absurd hdigit (by simp [hd])
      rw [kindOf, if_neg (hne _ (by decide)), if_neg (hne _ (by decide)),
        if_neg (hne _ (by decide)), if_neg (hne _ (by decide)), if_neg (hne _ (by decide)),
        if_neg (hne _ (by decide)), if_pos (.inr hdigit)]
      rfl
  | str text => exact ⟨'"', _, by rw [dumps, quote, List.cons_append], rfl⟩
  | arr items => exact ⟨'[', _, by rw [dumps, List.cons_append], rfl⟩
  | obj fields => exact ⟨'{', _, by rw [dumps, List.cons_append], rfl⟩

theorem kind_eq {ensureAscii : Bool} {v w : Json} {r r' : Text}
    (h : dumps ensureAscii v ++ r = dumps ensureAscii w ++ r') : v.kind = w.kind := by
  obtain ⟨c, rest, hc, hv⟩ := dumps_head ensureAscii v
  obtain ⟨c', rest', hc', hw⟩ := dumps_head ensureAscii w
  rw [hc, hc'] at h
  rw [← hv, ← hw, (List.cons.inj h).1]

/-- A value does not begin with a character that closes a list. -/
theorem dumps_append_ne_cons {ensureAscii : Bool} {v : Json} {c : Char} {r r' : Text}
    (hc : kindOf c = 7) : dumps ensureAscii v ++ r ≠ c :: r' := by
  intro h
  obtain ⟨c', rest, hhead, hkind⟩ := dumps_head ensureAscii v
  rw [hhead] at h
  rw [(List.cons.inj h).1, hc] at hkind
  cases v with
  | bool value => cases value <;> exact absurd hkind (by simp [kind])
  | _ => exact absurd hkind (by simp [kind])

/-- What stands behind the first item of an array. -/
def itemsTail (ensureAscii : Bool) : List Json → Text
  | [] => []
  | item :: items => ',' :: dumpsItems ensureAscii (item :: items)

/-- What stands behind the first field of an object. -/
def fieldsTail (ensureAscii : Bool) : List (Text × Json) → Text
  | [] => []
  | field :: fields => ',' :: dumpsFields ensureAscii (field :: fields)

theorem dumpsItems_cons (ensureAscii : Bool) (item : Json) (items : List Json) :
    dumpsItems ensureAscii (item :: items) = dumps ensureAscii item ++ itemsTail ensureAscii items := by
  cases items with
  | nil => rw [dumpsItems, itemsTail, List.append_nil]
  | cons next items => rw [dumpsItems, itemsTail]; exact fun h => absurd h (List.cons_ne_nil _ _)

theorem dumpsFields_cons (ensureAscii : Bool) (name : Text) (value : Json)
    (fields : List (Text × Json)) : dumpsFields ensureAscii ((name, value) :: fields) =
      quote ensureAscii name ++ ':' :: dumps ensureAscii value ++ fieldsTail ensureAscii fields := by
  cases fields with
  | nil => rw [dumpsFields, fieldsTail, List.append_nil]
  | cons next fields => rw [dumpsFields, fieldsTail]; exact fun h => absurd h (List.cons_ne_nil _ _)

theorem follows_itemsTail (ensureAscii : Bool) (items : List Json) (r : Text) :
    Follows (itemsTail ensureAscii items ++ ']' :: r) := by
  cases items with
  | nil => exact follows_cons (by decide)
  | cons item items => exact follows_cons (by decide)

theorem follows_fieldsTail (ensureAscii : Bool) (fields : List (Text × Json)) (r : Text) :
    Follows (fieldsTail ensureAscii fields ++ '}' :: r) := by
  cases fields with
  | nil => exact follows_cons (by decide)
  | cons field fields => exact follows_cons (by decide)

mutual

/-- **A value is told from what follows it.** -/
theorem dumps_append_inj (ensureAscii : Bool) : ∀ (v w : Json) {r r' : Text}, Follows r →
    Follows r' → dumps ensureAscii v ++ r = dumps ensureAscii w ++ r' → v = w ∧ r = r'
  | v, w, r, r', hr, hr', h => by
    have hkind := kind_eq h
    match v, w, hkind, h with
    | null, null, _, h => exact ⟨rfl, List.append_cancel_left h⟩
    | bool true, bool true, _, h => exact ⟨rfl, List.append_cancel_left h⟩
    | bool false, bool false, _, h => exact ⟨rfl, List.append_cancel_left h⟩
    | num i, num j, _, h =>
      rw [dumps, dumps] at h
      obtain ⟨rfl, hrest⟩ := number_append_inj hr hr' h
      exact ⟨rfl, hrest⟩
    | str a, str b, _, h =>
      rw [dumps, dumps] at h
      obtain ⟨rfl, hrest⟩ := quote_append_inj h
      exact ⟨rfl, hrest⟩
    | arr xs, arr ys, _, h =>
      simp only [dumps, List.cons_append, List.append_assoc, List.nil_append, List.cons.injEq,
        true_and] at h
      obtain ⟨rfl, hrest⟩ := dumpsItems_append_inj ensureAscii xs ys h
      exact ⟨rfl, hrest⟩
    | obj xs, obj ys, _, h =>
      simp only [dumps, List.cons_append, List.append_assoc, List.nil_append, List.cons.injEq,
        true_and] at h
      obtain ⟨rfl, hrest⟩ := dumpsFields_append_inj ensureAscii xs ys h
      exact ⟨rfl, hrest⟩

/-- The items of an array are told from what follows its bracket. -/
theorem dumpsItems_append_inj (ensureAscii : Bool) : ∀ (xs ys : List Json) {r r' : Text},
    dumpsItems ensureAscii xs ++ ']' :: r = dumpsItems ensureAscii ys ++ ']' :: r' →
      xs = ys ∧ r = r'
  | [], [], _, _, h => ⟨rfl, (List.cons.inj h).2⟩
  | [], y :: ys, _, _, h => by
    rw [dumpsItems_cons, List.append_assoc] at h
    exact absurd h.symm (dumps_append_ne_cons rfl)
  | x :: xs, [], _, _, h => by
    rw [dumpsItems_cons, List.append_assoc] at h
    exact absurd h (dumps_append_ne_cons rfl)
  | x :: xs, y :: ys, _, _, h => by
    rw [dumpsItems_cons, dumpsItems_cons, List.append_assoc, List.append_assoc] at h
    obtain ⟨rfl, htail⟩ := dumps_append_inj ensureAscii x y (follows_itemsTail ensureAscii xs _)
      (follows_itemsTail ensureAscii ys _) h
    match xs, ys, htail with
    | [], [], htail => exact ⟨rfl, (List.cons.inj htail).2⟩
    | [], _ :: _, htail => exact absurd (List.cons.inj htail).1 (by decide)
    | _ :: _, [], htail => exact absurd (List.cons.inj htail).1 (by decide)
    | x' :: xs', y' :: ys', htail =>
      obtain ⟨hitems, hrest⟩ :=
        dumpsItems_append_inj ensureAscii (x' :: xs') (y' :: ys') (List.cons.inj htail).2
      exact ⟨by rw [hitems], hrest⟩

/-- The fields of an object are told from what follows its brace. -/
theorem dumpsFields_append_inj (ensureAscii : Bool) : ∀ (xs ys : List (Text × Json)) {r r' : Text},
    dumpsFields ensureAscii xs ++ '}' :: r = dumpsFields ensureAscii ys ++ '}' :: r' →
      xs = ys ∧ r = r'
  | [], [], _, _, h => ⟨rfl, (List.cons.inj h).2⟩
  | [], (name, value) :: ys, _, _, h => by
    rw [dumpsFields_cons, quote] at h
    exact absurd (List.cons.inj h).1 (by decide)
  | (name, value) :: xs, [], _, _, h => by
    rw [dumpsFields_cons, quote] at h
    exact absurd (List.cons.inj h).1 (by decide)
  | (name, value) :: xs, (name', value') :: ys, _, _, h => by
    rw [dumpsFields_cons, dumpsFields_cons, List.append_assoc, List.append_assoc, List.append_assoc,
      List.append_assoc] at h
    obtain ⟨rfl, hafterName⟩ := quote_append_inj h
    obtain ⟨rfl, htail⟩ := dumps_append_inj ensureAscii value value'
      (follows_fieldsTail ensureAscii xs _) (follows_fieldsTail ensureAscii ys _)
      (List.cons.inj hafterName).2
    match xs, ys, htail with
    | [], [], htail => exact ⟨rfl, (List.cons.inj htail).2⟩
    | [], _ :: _, htail => exact absurd (List.cons.inj htail).1 (by decide)
    | _ :: _, [], htail => exact absurd (List.cons.inj htail).1 (by decide)
    | x' :: xs', y' :: ys', htail =>
      obtain ⟨hfields, hrest⟩ :=
        dumpsFields_append_inj ensureAscii (x' :: xs') (y' :: ys') (List.cons.inj htail).2
      exact ⟨by rw [hfields], hrest⟩

end

/-- **The rendering of a value tells the value.** -/
theorem dumps_injective (ensureAscii : Bool) {v w : Json}
    (h : dumps ensureAscii v = dumps ensureAscii w) : v = w :=
  (dumps_append_inj ensureAscii v w follows_nil follows_nil (by rw [h])).1

/-- The rendering of an object begins with a brace. -/
theorem head?_dumps_obj (ensureAscii : Bool) (fields : List (Text × Json)) :
    (dumps ensureAscii (obj fields)).head? = some '{' := by
  rw [dumps]
  rfl

end Json

end Foundation
