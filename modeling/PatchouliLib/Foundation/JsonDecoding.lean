import PatchouliLib.Foundation.Binary64
import PatchouliLib.Foundation.Dictionary
import PatchouliLib.Foundation.JsonReading
import PatchouliLib.Foundation.Unordered

/-!
# Decoding JSON texts

The decoder reads any JSON text, with whitespace, escapes of all kinds, numbers
with fractions and exponents, and repeated names.  A decoded string is a sequence
of codepoints, among them lone surrogates, and a number is an integer or a
floating point number.  The canonical rendering sorts the fields by name, escapes
down to ASCII and has no whitespace.

## Main definitions

* `JsonValue` — decoded values.
* `JsonValue.loads` — the decoder; a hook makes the fields of an object from its pairs.
* `JsonValue.render` — the canonical rendering.
* `JsonValue.Scalar`, `JsonValue.flatText` — values that are read back, and flat objects of them.

## Main results

* `JsonValue.scanString_codepoints`, `JsonValue.scanNumber_number` — **a rendered text and a
  rendered integer are read back.**
* `JsonValue.loads_flatText`, `JsonValue.render_flatFields` — **a flat object is read back**,
  and its text is its rendering.
* `JsonValue.hook_of_loads` — the fields of an object that is read are made by the hook.
* `JsonValue.render_obj_perm` — the rendering of an object does not depend on the order of
  its fields.
-/

namespace Foundation

/-- A sequence of codepoints, surrogates included. -/
abbrev Codepoints := List ℕ

def Text.codepoints (t : Text) : Codepoints := t.map Char.toNat

/-- The text of codepoints that are no surrogates. -/
def Codepoints.text? (s : Codepoints) : Option Text :=
  s.mapM fun n => if n.isValidChar then some (Char.ofNat n) else none

/-- A decoded value. -/
inductive JsonValue where
  | null
  | bool (value : Bool)
  | int (value : ℤ)
  | float (value : Binary64)
  | str (value : Codepoints)
  | arr (items : List JsonValue)
  | obj (fields : List (Codepoints × JsonValue))

namespace JsonValue

/-! ### Scanning -/

/-- Whitespace. -/
def skipSpace (t : Text) : Text := t.dropWhile fun c => c = ' ' ∨ c = '\t' ∨ c = '\n' ∨ c = '\r'

/-- The value of a hexadecimal digit of either case. -/
def hexadecimal (c : Char) : Option ℕ :=
  if '0' ≤ c ∧ c ≤ '9' then some (c.toNat - 48)
  else if 'a' ≤ c ∧ c ≤ 'f' then some (c.toNat - 87)
  else if 'A' ≤ c ∧ c ≤ 'F' then some (c.toNat - 55)
  else none

/-- The character behind a backslash. -/
def simpleEscape (c : Char) : Option ℕ :=
  if c = '"' then some 34
  else if c = '\\' then some 92
  else if c = '/' then some 47
  else if c = 'b' then some 8
  else if c = 'f' then some 12
  else if c = 'n' then some 10
  else if c = 'r' then some 13
  else if c = 't' then some 9
  else none

/-- The number of four hexadecimal digits. -/
def hexadecimalUnit (a b c d : Char) : Option ℕ := do
  some ((((← hexadecimal a) * 16 + (← hexadecimal b)) * 16 + (← hexadecimal c)) * 16 +
    (← hexadecimal d))

/-- Units in front of what is scanned behind them. -/
def prepend (units : List ℕ) (x : Option (List ℕ × Text)) : Option (List ℕ × Text) :=
  x.map fun y => (units ++ y.1, y.2)

/-- The units of a string up to its closing quote. -/
def scanUnits : Text → Option (List ℕ × Text)
  | '"' :: rest => some ([], rest)
  | '\\' :: 'u' :: a :: b :: c :: d :: rest =>
    (hexadecimalUnit a b c d).bind fun unit => prepend [unit] (scanUnits rest)
  | '\\' :: c :: rest => (simpleEscape c).bind fun unit => prepend [unit] (scanUnits rest)
  | c :: rest => if c.toNat < 32 ∨ c = '\\' then none else prepend [c.toNat] (scanUnits rest)
  | [] => none

def isHigh (n : ℕ) : Bool := 0xd800 ≤ n && n < 0xdc00
def isLow (n : ℕ) : Bool := 0xdc00 ≤ n && n < 0xe000

/-- A high surrogate and a low one behind it are one codepoint. -/
def joinSurrogates : List ℕ → Codepoints
  | high :: low :: rest =>
    if isHigh high && isLow low then
      (0x10000 + (high - 0xd800) * 1024 + (low - 0xdc00)) :: joinSurrogates rest
    else high :: joinSurrogates (low :: rest)
  | units => units

/-- A string behind its opening quote. -/
def scanString (t : Text) : Option (Codepoints × Text) :=
  (scanUnits t).map fun (units, rest) => (joinSurrogates units, rest)

/-- The digits at the beginning of a text, and what follows them. -/
def scanDigits (t : Text) : Text × Text := (t.takeWhile Char.isDigit, t.dropWhile Char.isDigit)

/-- `(\.[0-9]+)?`. -/
def scanFraction : Text → Option Text × Text
  | '.' :: rest =>
    let (digits, rest') := scanDigits rest
    if digits = [] then (none, '.' :: rest) else (some digits, rest')
  | t => (none, t)

/-- `([eE][-+]?[0-9]+)?`. -/
def scanExponent (t : Text) : Option ℤ × Text :=
  match t with
  | mark :: rest =>
    if mark = 'e' ∨ mark = 'E' then
      let (sign, behind) : ℤ × Text := match rest with
        | '-' :: behind => (-1, behind)
        | '+' :: behind => (1, behind)
        | _ => (1, rest)
      let (digits, rest') := scanDigits behind
      if digits = [] then (none, t) else (some (sign * Nat.ofDigitChars 10 digits 0), rest')
    else (none, t)
  | [] => (none, [])

def scanSign : Text → Bool × Text
  | '-' :: rest => (true, rest)
  | t => (false, t)

/-- `0|[1-9][0-9]*`. -/
def scanInteger : Text → Option (Text × Text)
  | '0' :: rest => some (['0'], rest)
  | c :: rest => if c.isDigit then some (scanDigits (c :: rest)) else none
  | [] => none

/-- The number of a sign, digits, a fraction and an exponent: without the last two an integer. -/
def numberOf (negative : Bool) (digits : Text) : Option Text → Option ℤ → JsonValue
  | none, none =>
    let value := Nat.ofDigitChars 10 digits 0
    int (if negative then -value else value)
  | fraction, exponent =>
    let decimals := fraction.getD []
    float (Binary64.ofDecimal negative (Nat.ofDigitChars 10 (digits ++ decimals) 0)
      (exponent.getD 0 - decimals.length))

def scanNumber (t : Text) : Option (JsonValue × Text) :=
  (scanInteger (scanSign t).2).map fun (digits, rest) =>
    let (fraction, rest) := scanFraction rest
    let (exponent, rest) := scanExponent rest
    (numberOf (scanSign t).1 digits fraction exponent, rest)

/-- The fields an object has, from its pairs in the order of the text. -/
abbrev Hook := List (Codepoints × JsonValue) → Option (List (Codepoints × JsonValue))

mutual

/-- One value.  The fuel bounds the number of values and separators still to be read. -/
def scanOnce (hook : Hook) : ℕ → Text → Option (JsonValue × Text)
  | 0, _ => none
  | fuel + 1, t =>
    match t with
    | '"' :: rest => (scanString rest).map fun (s, rest) => (str s, rest)
    | '{' :: rest =>
      match skipSpace rest with
      | '}' :: rest => (hook []).map fun fields => (obj fields, rest)
      | rest => scanPairs hook fuel [] rest
    | '[' :: rest =>
      match skipSpace rest with
      | ']' :: rest => some (arr [], rest)
      | rest => scanItems hook fuel [] rest
    | 'n' :: 'u' :: 'l' :: 'l' :: rest => some (null, rest)
    | 't' :: 'r' :: 'u' :: 'e' :: rest => some (bool true, rest)
    | 'f' :: 'a' :: 'l' :: 's' :: 'e' :: rest => some (bool false, rest)
    | t => scanNumber t

/-- The pairs of an object. -/
def scanPairs (hook : Hook) : ℕ → List (Codepoints × JsonValue) → Text →
    Option (JsonValue × Text)
  | fuel + 1, pairs, '"' :: rest => do
    let (name, rest) ← scanString rest
    match skipSpace rest with
    | ':' :: rest =>
      let (value, rest) ← scanOnce hook fuel (skipSpace rest)
      match skipSpace rest with
      | '}' :: rest => (hook (pairs ++ [(name, value)])).map fun fields => (obj fields, rest)
      | ',' :: rest => scanPairs hook fuel (pairs ++ [(name, value)]) (skipSpace rest)
      | _ => none
    | _ => none
  | _, _, _ => none

/-- The items of an array. -/
def scanItems (hook : Hook) : ℕ → List JsonValue → Text → Option (JsonValue × Text)
  | fuel + 1, items, t => do
    let (value, rest) ← scanOnce hook fuel t
    match skipSpace rest with
    | ']' :: rest => some (arr (items ++ [value]), rest)
    | ',' :: rest => scanItems hook fuel (items ++ [value]) (skipSpace rest)
    | _ => none
  | _, _, _ => none

end

/-- The last of the values of a name counts. -/
def lastPairs : Hook := fun pairs => some (Dict.update [] pairs)

/-- No name may come twice. -/
def uniquePairs : Hook := fun pairs => if (Dict.keys pairs).Nodup then some pairs else none

/-- `json.loads(text, object_pairs_hook=hook)` without the constants that are no JSON. -/
def loads (hook : Hook) (t : Text) : Option JsonValue := do
  let (value, rest) ← scanOnce hook (t.length + 1) (skipSpace t)
  if skipSpace rest = [] then some value else none

/-- The fields of an object. -/
def fields? : JsonValue → Option (List (Codepoints × JsonValue))
  | obj fields => some fields
  | _ => none

/-- The codepoints of a string. -/
def str? : JsonValue → Option Codepoints
  | str value => some value
  | _ => none

/-- The number of an integer, which a truth value is not. -/
def int? : JsonValue → Option ℤ
  | int value => some value
  | _ => none

/-- The value of a field. -/
def field? (fields : List (Codepoints × JsonValue)) (name : Text) : Option JsonValue :=
  (fields.find? fun field => decide (field.1 = name.codepoints)).map Prod.snd

/-! ### Rendering -/

/-- One codepoint of a string, escaped down to ASCII. -/
def escapeCodepoint (n : ℕ) : Text :=
  if 0xd800 ≤ n ∧ n < 0xe000 then Json.unicodeEscape n else Json.escape true (Char.ofNat n)

def quote (s : Codepoints) : Text := '"' :: s.flatMap escapeCodepoint ++ ['"']

/-- Values with commas between them. -/
def joinComma : List Text → Text
  | [] => []
  | [t] => t
  | t :: ts => t ++ ',' :: joinComma ts

/-- The rendered fields of an object, sorted by name. -/
def renderObject (fields : List (Codepoints × Text)) : Text :=
  '{' :: joinComma ((fields.insertionSort fun a b => a.1 ≤ b.1).map fun field =>
    quote field.1 ++ ':' :: field.2) ++ ['}']

mutual

/-- `json.dumps(value, allow_nan=False, separators=(",", ":"), sort_keys=True)`. -/
def render : JsonValue → Option Text
  | null => some ['n', 'u', 'l', 'l']
  | bool true => some ['t', 'r', 'u', 'e']
  | bool false => some ['f', 'a', 'l', 's', 'e']
  | int value => some (Json.number value)
  | float value => value.repr
  | str value => some (quote value)
  | arr items => (renderItems items).map fun texts => '[' :: joinComma texts ++ [']']
  | obj fields => (renderFields fields).map renderObject

def renderItems : List JsonValue → Option (List Text)
  | [] => some []
  | item :: items => do
    let text ← render item
    let texts ← renderItems items
    some (text :: texts)

def renderFields : List (Codepoints × JsonValue) → Option (List (Codepoints × Text))
  | [] => some []
  | (name, value) :: fields => do
    let text ← render value
    let texts ← renderFields fields
    some ((name, text) :: texts)

end

/-- `value == i` of a number that is no truth value. -/
def equalsInt : JsonValue → ℤ → Bool
  | int value, i => value = i
  | float value, i => value.equalsInt i
  | _, _ => false

/-- Two values equal one. -/
theorem equalsInt_one {value : JsonValue} :
    value.equalsInt 1 = true ↔ value = int 1 ∨ value = float (.finite 1) := by
  constructor
  · intro h
    cases value with
    | int value => exact .inl (congrArg int (of_decide_eq_true h))
    | float value => exact .inr (congrArg float (Binary64.eq_one h))
    | _ => cases h
  · rintro (rfl | rfl)
    · rfl
    · decide

/-! ### Strings -/

theorem hexadecimal_hexDigit {n : ℕ} (hn : n < 16) : hexadecimal (hexDigit n) = some n := by
  have key : ∀ n < 16, hexadecimal (hexDigit n) = some n := by decide
  exact key n hn

/-- The units that stand for a character. -/
def unitsOf (c : Char) : List ℕ :=
  if c.toNat < 0x10000 then [c.toNat]
  else [0xd800 + (c.toNat - 0x10000) / 1024, 0xdc00 + (c.toNat - 0x10000) % 1024]

theorem scanUnits_unicodeEscape {n : ℕ} (hn : n < 0x10000) (t : Text) :
    scanUnits (Json.unicodeEscape n ++ t) = prepend [n] (scanUnits t) := by
  have hbytes : bigEndian 2 n = [UInt8.ofNat (n / 256), UInt8.ofNat (n % 256)] := by
    have hhigh : n / 256 % 256 = n / 256 := Nat.mod_eq_of_lt (by omega)
    simp [bigEndian, hhigh]
  have hhigh : (UInt8.ofNat (n / 256)).toNat = n / 256 := by
    rw [UInt8.toNat_ofNat']
    omega
  have hlow : (UInt8.ofNat (n % 256)).toNat = n % 256 := by
    rw [UInt8.toNat_ofNat']
    omega
  have hsum : ((n / 256 / 16 * 16 + n / 256 % 16) * 16 + n % 256 / 16) * 16 + n % 256 % 16 = n := by
    omega
  rw [Json.unicodeEscape, hbytes]
  simp only [hex, hhigh, hlow, List.cons_append, List.nil_append, scanUnits, hexadecimalUnit]
  rw [hexadecimal_hexDigit (by omega), hexadecimal_hexDigit (by omega),
    hexadecimal_hexDigit (by omega), hexadecimal_hexDigit (by omega)]
  simp only [Option.bind_eq_bind, Option.bind_some, hsum]

/-- A character that stands for itself. -/
theorem scanUnits_raw {c : Char} (hquote : c ≠ '"') (hbackslash : c ≠ '\\') (hc : ¬c.toNat < 32)
    (t : Text) : scanUnits (c :: t) = prepend [c.toNat] (scanUnits t) := by
  have hplain : ¬(c.toNat < 32 ∨ c = '\\') := by
    rw [not_or]
    exact ⟨hc, hbackslash⟩
  rw [scanUnits, if_neg hplain]
  · exact fun h => hquote h
  · exact fun _ _ _ _ _ h => absurd h hbackslash
  · exact fun _ _ h => absurd h hbackslash

/-- **An escaped character is read back.** -/
theorem scanUnits_escape (c : Char) (t : Text) :
    scanUnits (Json.escape true c ++ t) = prepend (unitsOf c) (scanUnits t) := by
  have hrange := Json.toNat_range c
  simp only [Json.escape]
  split
  · next h =>
    subst h
    simp [scanUnits, simpleEscape, unitsOf]
  next hquote =>
  split
  · next h =>
    subst h
    simp [scanUnits, simpleEscape, unitsOf]
  next hbackslash =>
  split
  · next h =>
    simp [scanUnits, simpleEscape, unitsOf, h]
  split
  · next h =>
    simp [scanUnits, simpleEscape, unitsOf, h]
  split
  · next h =>
    simp [scanUnits, simpleEscape, unitsOf, h]
  split
  · next h =>
    simp [scanUnits, simpleEscape, unitsOf, h]
  split
  · next h =>
    simp [scanUnits, simpleEscape, unitsOf, h]
  split
  · next hcontrol =>
    rw [scanUnits_unicodeEscape (by omega), unitsOf, if_pos (by omega)]
  next hcontrol =>
  split
  · next hascii =>
    have hsmall : c.toNat < 0x10000 := by
      simp only [Bool.not_true, Bool.false_eq_true, or_false] at hascii
      omega
    rw [unitsOf, if_pos hsmall]
    exact scanUnits_raw hquote hbackslash hcontrol t
  split
  · next hbasic => rw [scanUnits_unicodeEscape hbasic, unitsOf, if_pos hbasic]
  · next hbasic =>
    -- beyond the basic plane the two surrogates are read one after the other
    rw [List.append_assoc, scanUnits_unicodeEscape (by omega), scanUnits_unicodeEscape (by omega),
      unitsOf, if_neg hbasic, prepend, prepend, prepend, Option.map_map]
    rfl

/-- The units of a text are joined to its characters. -/
theorem joinSurrogates_unitsOf (t : Text) : joinSurrogates (t.flatMap unitsOf) = t.codepoints := by
  induction t with
  | nil => rfl
  | cons c t ih =>
    have hrange := Json.toNat_range c
    rw [List.flatMap_cons, Text.codepoints, List.map_cons, ← Text.codepoints, ← ih, unitsOf]
    split
    · next hbasic =>
      -- no character is a surrogate, so it is joined with nothing
      have hhigh : isHigh c.toNat = false := by
        simp only [isHigh, Bool.and_eq_false_iff, decide_eq_false_iff_not]
        omega
      cases hunits : t.flatMap unitsOf with
      | nil => rfl
      | cons low rest =>
        rw [List.singleton_append, joinSurrogates, hhigh]
        rfl
    · next hbasic =>
      have hhigh : isHigh (0xd800 + (c.toNat - 0x10000) / 1024) = true := by
        simp only [isHigh, Bool.and_eq_true, decide_eq_true_eq]
        omega
      have hlow : isLow (0xdc00 + (c.toNat - 0x10000) % 1024) = true := by
        simp only [isLow, Bool.and_eq_true, decide_eq_true_eq]
        omega
      have hsum : 0x10000 + (0xd800 + (c.toNat - 0x10000) / 1024 - 0xd800) * 1024 +
          (0xdc00 + (c.toNat - 0x10000) % 1024 - 0xdc00) = c.toNat := by omega
      rw [List.cons_append, List.singleton_append, joinSurrogates, hhigh, hlow, hsum]
      rfl

theorem flatMap_escapeCodepoint (t : Text) :
    t.codepoints.flatMap escapeCodepoint = t.flatMap (Json.escape true) := by
  rw [Text.codepoints, List.flatMap_map]
  refine List.flatMap_congr fun c hc => ?_
  have hrange := Json.toNat_range c
  rw [escapeCodepoint, if_neg (by omega), Char.ofNat_toNat]

/-- **A rendered text is read back.** -/
theorem scanString_codepoints (t rest : Text) :
    scanString (t.codepoints.flatMap escapeCodepoint ++ '"' :: rest) = some (t.codepoints, rest) := by
  have hunits : scanUnits (t.flatMap (Json.escape true) ++ '"' :: rest) =
      some (t.flatMap unitsOf, rest) := by
    induction t with
    | nil => rfl
    | cons c t ih =>
      rw [List.flatMap_cons, List.append_assoc, scanUnits_escape, ih]
      rfl
  rw [flatMap_escapeCodepoint, scanString, hunits, Option.map_some]
  dsimp only
  rw [joinSurrogates_unitsOf]

/-- **A codepoint sequence is that of at most one text.** -/
theorem text?_eq_some {s : Codepoints} {t : Text} :
    Codepoints.text? s = some t ↔ t.codepoints = s := by
  have hchar {n : ℕ} {c : Char} :
      (if n.isValidChar then some (Char.ofNat n) else none) = some c ↔ c.toNat = n := by
    constructor
    · intro h
      split at h
      · next hn =>
        rw [← Option.some.inj h, Char.toNat_ofNat, if_pos hn]
      · cases h
    · rintro rfl
      rw [if_pos (show c.toNat.isValidChar from c.valid), Char.ofNat_toNat]
  rw [Codepoints.text?]
  induction s generalizing t with
  | nil =>
    cases t with
    | nil => exact ⟨fun _ => rfl, fun _ => rfl⟩
    | cons c t => simp [Text.codepoints]
  | cons n s ih =>
    rw [List.mapM_cons]
    simp only [Option.bind_eq_bind, Option.bind_eq_some_iff, hchar, ih, Option.pure_def,
      Option.some.injEq]
    cases t with
    | nil => simp [Text.codepoints]
    | cons c t =>
      simp only [Text.codepoints, List.map_cons, List.cons.injEq]
      constructor
      · rintro ⟨c', hc, t', ht, rfl, rfl⟩
        exact ⟨hc, ht⟩
      · rintro ⟨hc, ht⟩
        exact ⟨c, hc, t, ht, rfl, rfl⟩

theorem codepoints_injective {t t' : Text} (h : t.codepoints = t'.codepoints) : t = t' :=
  Option.some.inj ((text?_eq_some.mpr rfl).symm.trans (text?_eq_some.mpr h.symm))

/-! ### Flat objects -/

/-- What may stand behind a number. -/
def EndsNumber (t : Text) : Prop := ∃ c rest, t = c :: rest ∧ (c = ',' ∨ c = '}')

theorem scanDigits_toDigits (n : ℕ) {rest : Text} (h : EndsNumber rest) :
    scanDigits (Nat.toDigits 10 n ++ rest) = (Nat.toDigits 10 n, rest) := by
  obtain ⟨c, rest, rfl, hc⟩ := h
  have hstop : c.isDigit = false := by rcases hc with rfl | rfl <;> decide
  have hdigits : ∀ d ∈ Nat.toDigits 10 n, d.isDigit = true := fun d hd =>
    Json.isDigit_of_mem_toDigits hd
  rw [scanDigits, List.takeWhile_append_of_pos hdigits, List.dropWhile_append_of_pos hdigits,
    List.takeWhile_cons_of_neg (by simp [hstop]), List.dropWhile_cons_of_neg (by simp [hstop]),
    List.append_nil]

/-- **A rendered integer is read back.** -/
theorem scanNumber_number (i : ℤ) {rest : Text} (h : EndsNumber rest) :
    scanNumber (Json.number i ++ rest) = some (int i, rest) := by
  have hinteger (n : ℕ) :
      scanInteger (Nat.toDigits 10 n ++ rest) = some (Nat.toDigits 10 n, rest) := by
    rcases Nat.eq_zero_or_pos n with rfl | hn
    · rfl
    · have hscan := scanDigits_toDigits n h
      obtain ⟨c, cs, hcs, hc⟩ := Json.toDigits_eq_cons hn
      have hdigit : c.isDigit = true := Json.isDigit_of_mem_toDigits (n := n) (by simp [hcs])
      have hzero : c ≠ '0' := by
        rintro rfl
        exact absurd hc (by decide)
      rw [hcs, List.cons_append] at hscan ⊢
      rw [scanInteger, if_pos hdigit, hscan]
      exact fun heq => hzero heq
  have hfraction : scanFraction rest = (none, rest) := by
    obtain ⟨c, rest, rfl, rfl | rfl⟩ := h <;> rfl
  have hexponent : scanExponent rest = (none, rest) := by
    obtain ⟨c, rest, rfl, rfl | rfl⟩ := h <;> rfl
  have hvalue : Nat.ofDigitChars 10 (Nat.toDigits 10 i.natAbs) 0 = i.natAbs :=
    Nat.ofDigitChars_ten_toDigits
  rw [Json.number]
  split
  · next hneg =>
    have hsign : scanSign ('-' :: Nat.toDigits 10 i.natAbs ++ rest) =
        (true, Nat.toDigits 10 i.natAbs ++ rest) := rfl
    rw [scanNumber, hsign, hinteger, Option.map_some]
    simp only [hfraction, hexponent, numberOf, hvalue, if_true]
    rw [Int.ofNat_natAbs_of_nonpos (by omega), neg_neg]
  · next hnonneg =>
    have hsign : scanSign (Nat.toDigits 10 i.natAbs ++ rest) =
        (false, Nat.toDigits 10 i.natAbs ++ rest) := by
      cases hdigits : Nat.toDigits 10 i.natAbs with
      | nil => exact absurd hdigits Nat.toDigits_ne_nil
      | cons c cs =>
        have hdigit : c.isDigit = true := Json.isDigit_of_mem_toDigits (n := i.natAbs) (by simp [hdigits])
        have hminus : c ≠ '-' := by
          rintro rfl
          exact absurd hdigit (by decide)
        rw [List.cons_append, scanSign]
        exact fun _ heq => absurd heq (by simp [hminus])
    rw [scanNumber, hsign, hinteger, Option.map_some]
    simp only [hfraction, hexponent, numberOf, hvalue, Bool.false_eq_true, if_false]
    rw [Int.natAbs_of_nonneg (by omega)]

variable {hook : Hook}

theorem skipSpace_cons {c : Char} (h : ¬(c = ' ' ∨ c = '\t' ∨ c = '\n' ∨ c = '\r')) (t : Text) :
    skipSpace (c :: t) = c :: t :=
  List.dropWhile_cons_of_neg (by simpa using h)

/-- A value that begins like a number is scanned as one. -/
theorem scanOnce_number {fuel : ℕ} {c : Char} {t : Text} (hc : c = '-' ∨ c.isDigit = true) :
    scanOnce hook (fuel + 1) (skipSpace (c :: t)) = scanNumber (c :: t) := by
  have hfirst : ∀ d : Char, d.isDigit = false → d ≠ '-' → c ≠ d := by
    rintro d hdigit hminus rfl
    rcases hc with hc | hc
    · exact hminus hc
    · rw [hdigit] at hc
      cases hc
  have hspace : ¬(c = ' ' ∨ c = '\t' ∨ c = '\n' ∨ c = '\r') := by
    simp only [not_or]
    exact ⟨hfirst _ (by decide) (by decide), hfirst _ (by decide) (by decide),
      hfirst _ (by decide) (by decide), hfirst _ (by decide) (by decide)⟩
  -- a number begins with none of the other marks
  rw [skipSpace_cons hspace, scanOnce]
  all_goals
    intro _ heq
    exact hfirst _ (by decide) (by decide) (List.cons.inj heq).1

/-- The pairs of an object are handed to the hook. -/
theorem hook_of_scanPairs {fuel : ℕ} {pairs : List (Codepoints × JsonValue)} {t rest : Text}
    {fields : List (Codepoints × JsonValue)}
    (h : scanPairs hook fuel pairs t = some (obj fields, rest)) :
    ∃ pairs, hook pairs = some fields := by
  induction fuel generalizing pairs t with
  | zero =>
    rw [scanPairs.eq_def] at h
    cases h
  | succ fuel ih =>
    rw [scanPairs.eq_def] at h
    split at h
    · next fuel pairs rest heq =>
      simp only [Option.bind_eq_bind, Option.bind_eq_some_iff] at h
      obtain ⟨⟨name, behind⟩, -, h⟩ := h
      split at h
      · simp only [Option.bind_eq_some_iff] at h
        obtain ⟨⟨value, behind⟩, -, h⟩ := h
        split at h
        · obtain ⟨made, hmade, heq⟩ := Option.map_eq_some_iff.mp h
          exact ⟨_, obj.inj (Prod.mk.inj heq).1 ▸ hmade⟩
        · obtain ⟨rfl⟩ := heq
          exact ih h
        · cases h
      · cases h
    · cases h

theorem scanItems_ne_obj {fuel : ℕ} {items : List JsonValue} {t rest : Text}
    {fields : List (Codepoints × JsonValue)} :
    scanItems hook fuel items t ≠ some (obj fields, rest) := by
  induction fuel generalizing items t with
  | zero =>
    rw [scanItems.eq_def]
    exact fun h => nomatch h
  | succ fuel ih =>
    intro h
    rw [scanItems.eq_def] at h
    simp only [Option.bind_eq_bind, Option.bind_eq_some_iff] at h
    obtain ⟨⟨value, behind⟩, -, h⟩ := h
    split at h
    · cases h
    · exact ih h
    · cases h

theorem numberOf_ne_obj (negative : Bool) (digits : Text) (fraction : Option Text)
    (exponent : Option ℤ) (fields : List (Codepoints × JsonValue)) :
    numberOf negative digits fraction exponent ≠ obj fields := by
  unfold numberOf
  split <;> exact fun h => nomatch h

/-- **The fields of an object that is read are made by the hook.** -/
theorem hook_of_loads {t : Text} {fields : List (Codepoints × JsonValue)}
    (h : loads hook t = some (obj fields)) : ∃ pairs, hook pairs = some fields := by
  simp only [loads, Option.bind_eq_bind, Option.bind_eq_some_iff] at h
  obtain ⟨⟨value, rest⟩, hscan, h⟩ := h
  obtain rfl : value = obj fields := by
    split at h
    · exact Option.some.inj h
    · cases h
  rw [scanOnce.eq_def] at hscan
  split at hscan
  · cases hscan
  next fuel t heq =>
  split at hscan
  · obtain ⟨_, -, heq⟩ := Option.map_eq_some_iff.mp hscan
    cases heq
  · split at hscan
    · obtain ⟨made, hmade, heq⟩ := Option.map_eq_some_iff.mp hscan
      exact ⟨_, obj.inj (Prod.mk.inj heq).1 ▸ hmade⟩
    · exact hook_of_scanPairs hscan
  · split at hscan
    · cases hscan
    · exact absurd hscan scanItems_ne_obj
  · cases hscan
  · cases hscan
  · cases hscan
  · obtain ⟨scanned, -, heq⟩ := Option.map_eq_some_iff.mp hscan
    exact absurd (Prod.mk.inj heq).1 (numberOf_ne_obj _ _ _ _ _)

/-- A value whose rendering is read back when a comma or a brace follows. -/
structure Scalar where
  value : JsonValue
  rendered : Text
  render_eq : render value = some rendered
  scan_eq : ∀ hook fuel rest, EndsNumber rest →
    scanOnce hook (fuel + 1) (skipSpace (rendered ++ rest)) = some (value, rest)

namespace Scalar

def text (t : Text) : Scalar where
  value := str t.codepoints
  rendered := quote t.codepoints
  render_eq := rfl
  scan_eq hook fuel rest _ := by
    have hquote : quote t.codepoints ++ rest =
        '"' :: (t.codepoints.flatMap escapeCodepoint ++ '"' :: rest) := by
      simp [quote]
    rw [hquote, skipSpace_cons (by decide), scanOnce, scanString_codepoints]
    rfl

def int (i : ℤ) : Scalar where
  value := .int i
  rendered := Json.number i
  render_eq := rfl
  scan_eq hook fuel rest h := by
    obtain ⟨c, cs, hcs, hc⟩ := Json.number_head i
    have hnumber := scanNumber_number i h
    rw [hcs, List.cons_append] at hnumber ⊢
    rw [scanOnce_number (hc.imp And.right And.right), hnumber]

/-- The floating point number that equals one. -/
def floatOne : Scalar where
  value := .float (.finite 1)
  rendered := ['1', '.', '0']
  render_eq := Binary64.repr_one
  scan_eq hook fuel rest h := by
    have hone : Binary64.ofDecimal false 10 (-1) = .finite 1 := by decide +kernel
    have hscan : scanNumber ('1' :: '.' :: '0' :: rest) =
        some (.float (Binary64.ofDecimal false 10 (-1)), rest) := by
      obtain ⟨c, rest, rfl, rfl | rfl⟩ := h <;> rfl
    show scanOnce hook (fuel + 1) (skipSpace ('1' :: '.' :: '0' :: rest)) = _
    rw [scanOnce_number (.inr (by decide)), hscan, hone]

end Scalar

/-- The fields of a flat object. -/
def flatFields (fields : List (Text × Scalar)) : List (Codepoints × JsonValue) :=
  fields.map fun field => (field.1.codepoints, field.2.value)

/-- The text of one field. -/
def fieldText (field : Text × Scalar) : Text :=
  quote field.1.codepoints ++ ':' :: field.2.rendered

/-- The text of a flat object. -/
def flatText (fields : List (Text × Scalar)) : Text :=
  '{' :: joinComma (fields.map fieldText) ++ ['}']

/-- **The rendered fields are read back.** -/
theorem scanPairs_joinComma {fields : List (Text × Scalar)} (hne : fields ≠ []) {fuel : ℕ}
    (hfuel : fields.length < fuel) (pairs : List (Codepoints × JsonValue)) (rest : Text) :
    scanPairs hook fuel pairs (joinComma (fields.map fieldText) ++ '}' :: rest) =
      (hook (pairs ++ flatFields fields)).map fun fields => (obj fields, rest) := by
  induction fields generalizing fuel pairs with
  | nil => exact absurd rfl hne
  | cons field fields ih =>
    obtain ⟨fuel, rfl⟩ := Nat.exists_eq_add_of_le' (Nat.one_le_of_lt hfuel)
    obtain ⟨fuel, rfl⟩ : ∃ k, fuel = k + 1 := by
      rw [List.length_cons] at hfuel
      exact Nat.exists_eq_add_of_le' (by omega)
    have hquote (behind : Text) : fieldText field ++ behind =
        '"' :: (field.1.codepoints.flatMap escapeCodepoint ++
          '"' :: ':' :: (field.2.rendered ++ behind)) := by
      simp [fieldText, quote]
    have hcolon (behind : Text) : skipSpace (':' :: behind) = ':' :: behind :=
      skipSpace_cons (by decide) _
    cases fields with
    | nil =>
      have hend : EndsNumber ('}' :: rest) := ⟨'}', rest, rfl, .inr rfl⟩
      rw [List.map_singleton, joinComma, hquote, scanPairs, scanString_codepoints]
      simp only [Option.bind_eq_bind, Option.bind_some, hcolon, field.2.scan_eq _ _ _ hend]
      rw [skipSpace_cons (by decide)]
      rfl
    | cons next fields =>
      have hend (behind : Text) : EndsNumber (',' :: behind) := ⟨',', behind, rfl, .inl rfl⟩
      have hjoin : joinComma ((field :: next :: fields).map fieldText) ++ '}' :: rest =
          fieldText field ++ ',' :: (joinComma ((next :: fields).map fieldText) ++ '}' :: rest) := by
        simp [joinComma]
      have hmore : skipSpace (joinComma ((next :: fields).map fieldText) ++ '}' :: rest) =
          joinComma ((next :: fields).map fieldText) ++ '}' :: rest := by
        obtain ⟨t, ht⟩ : ∃ t, joinComma ((next :: fields).map fieldText) = '"' :: t := by
          cases fields with
          | nil => exact ⟨_, rfl⟩
          | cons other fields => exact ⟨_, rfl⟩
        rw [ht]
        exact skipSpace_cons (by decide) _
      rw [hjoin, hquote, scanPairs, scanString_codepoints]
      simp only [Option.bind_eq_bind, Option.bind_some, hcolon, field.2.scan_eq _ _ _ (hend _)]
      rw [skipSpace_cons (by decide)]
      change scanPairs hook (fuel + 1) (pairs ++ [(field.1.codepoints, field.2.value)])
        (skipSpace (joinComma ((next :: fields).map fieldText) ++ '}' :: rest)) = _
      rw [hmore, ih (List.cons_ne_nil _ _) (by simpa using hfuel), List.append_assoc]
      rfl

/-- **The text of a flat object is read back.** -/
theorem loads_flatText {fields : List (Text × Scalar)} (hne : fields ≠ []) :
    loads hook (flatText fields) = (hook (flatFields fields)).map obj := by
  have hlength : ∀ texts : List Text, (∀ t ∈ texts, t ≠ []) → texts.length ≤ (joinComma texts).length := by
    intro texts
    induction texts with
    | nil => exact fun _ => Nat.le_refl 0
    | cons t texts ih =>
      intro hall
      have ht := List.length_pos_iff.mpr (hall t List.mem_cons_self)
      have htexts := ih fun x hx => hall x (List.mem_cons_of_mem t hx)
      cases texts with
      | nil =>
        rw [joinComma, List.length_singleton]
        exact ht
      | cons t' texts =>
        rw [List.length_cons] at htexts ⊢
        rw [joinComma, List.length_append, List.length_cons]
        · rw [List.length_cons]
          omega
        · exact List.cons_ne_nil t' texts
  have hfuel : fields.length < (flatText fields).length := by
    have hfields := hlength (fields.map fieldText) fun t ht => by
      obtain ⟨field, -, rfl⟩ := List.mem_map.mp ht
      exact List.cons_ne_nil _ _
    rw [List.length_map] at hfields
    rw [flatText, List.cons_append, List.length_cons, List.length_append]
    omega
  obtain ⟨t, ht⟩ : ∃ t, joinComma (fields.map fieldText) ++ ['}'] = '"' :: t := by
    obtain ⟨field, fields, rfl⟩ := List.exists_cons_of_ne_nil hne
    cases fields with
    | nil => exact ⟨_, rfl⟩
    | cons other fields => exact ⟨_, rfl⟩
  have hpairs : scanPairs hook (flatText fields).length []
      (joinComma (fields.map fieldText) ++ ['}']) =
        (hook ([] ++ flatFields fields)).map fun fields => (obj fields, []) :=
    scanPairs_joinComma hne hfuel [] []
  have htext : flatText fields = '{' :: '"' :: t := by
    rw [flatText, List.cons_append, ht]
  rw [List.nil_append, ht] at hpairs
  rw [loads]
  generalize (flatText fields).length = fuel at hpairs ⊢
  rw [htext, skipSpace_cons (by decide), scanOnce, skipSpace_cons (by decide)]
  change (scanPairs hook fuel [] ('"' :: t)).bind _ = _
  rw [hpairs]
  cases hook (flatFields fields) <;> rfl

/-- The text of a flat object tells its fields. -/
theorem flatText_inj {fields fields' : List (Text × Scalar)} (hne : fields ≠ [])
    (hne' : fields' ≠ []) (h : flatText fields = flatText fields') :
    flatFields fields = flatFields fields' := by
  have hloads : loads some (flatText fields) = some (obj (flatFields fields)) :=
    loads_flatText hne
  rw [h, loads_flatText hne'] at hloads
  exact (obj.inj (Option.some.inj hloads)).symm

/-! ### Rendering objects -/

/-- The rendered fields of a flat object. -/
theorem renderFields_flatFields (fields : List (Text × Scalar)) :
    renderFields (flatFields fields) =
      some (fields.map fun field => (field.1.codepoints, field.2.rendered)) := by
  induction fields with
  | nil => rfl
  | cons field fields ih =>
    have hvalue := field.2.render_eq
    rw [flatFields] at ih
    rw [flatFields, List.map_cons, renderFields, hvalue, ih]
    rfl

/-- **The text of a flat object is its canonical rendering** when its names are sorted. -/
theorem render_flatFields {fields : List (Text × Scalar)}
    (hsorted : fields.Pairwise fun a b => a.1.codepoints ≤ b.1.codepoints) :
    render (obj (flatFields fields)) = some (flatText fields) := by
  have hpairwise : (fields.map fun field => (field.1.codepoints, field.2.rendered)).Pairwise
      fun a b => a.1 ≤ b.1 := List.pairwise_map.mpr hsorted
  rw [render, renderFields_flatFields, Option.map_some, renderObject, hpairwise.insertionSort_eq,
    List.map_map]
  rfl

/-- The rendering of fields names them. -/
theorem keys_of_renderFields {fields : List (Codepoints × JsonValue)}
    {texts : List (Codepoints × Text)} (h : renderFields fields = some texts) :
    texts.map Prod.fst = Dict.keys fields := by
  induction fields generalizing texts with
  | nil =>
    obtain rfl := Option.some.inj h
    rfl
  | cons field fields ih =>
    obtain ⟨name, value⟩ := field
    rw [renderFields] at h
    simp only [Option.bind_eq_bind, Option.bind_eq_some_iff, Option.some.injEq] at h
    obtain ⟨text, -, texts, htexts, rfl⟩ := h
    rw [List.map_cons, ih htexts, Dict.keys_cons]

theorem renderFields_perm {fields fields' : List (Codepoints × JsonValue)}
    (h : fields.Perm fields') {texts : List (Codepoints × Text)}
    (htexts : renderFields fields = some texts) :
    ∃ texts', renderFields fields' = some texts' ∧ texts.Perm texts' := by
  induction h generalizing texts with
  | nil => exact ⟨texts, htexts, .refl _⟩
  | cons field h ih =>
    obtain ⟨name, value⟩ := field
    rw [renderFields] at htexts
    simp only [Option.bind_eq_bind, Option.bind_eq_some_iff, Option.some.injEq] at htexts
    obtain ⟨text, hvalue, texts, htexts, rfl⟩ := htexts
    obtain ⟨texts', htexts', hperm⟩ := ih htexts
    refine ⟨(name, text) :: texts', ?_, hperm.cons _⟩
    rw [renderFields, hvalue, htexts']
    rfl
  | swap field field' fields =>
    obtain ⟨name, value⟩ := field
    obtain ⟨name', value'⟩ := field'
    simp only [renderFields, Option.bind_eq_bind, Option.bind_eq_some_iff, Option.some.injEq] at htexts
    obtain ⟨text', hvalue', _, ⟨text, hvalue, texts, htexts, rfl⟩, rfl⟩ := htexts
    refine ⟨(name, text) :: (name', text') :: texts, ?_, .swap _ _ _⟩
    simp only [renderFields, hvalue, hvalue', htexts]
    rfl
  | trans _ _ ih ih' =>
    obtain ⟨texts', htexts', hperm⟩ := ih htexts
    obtain ⟨texts'', htexts'', hperm'⟩ := ih' htexts'
    exact ⟨texts'', htexts'', hperm.trans hperm'⟩

/-- **The rendering of an object does not depend on the order of its fields.** -/
theorem render_obj_perm {fields fields' : List (Codepoints × JsonValue)}
    (hkeys : (Dict.keys fields).Nodup) (h : fields.Perm fields') {t : Text}
    (ht : render (obj fields) = some t) : render (obj fields') = some t := by
  rw [render] at ht ⊢
  obtain ⟨texts, htexts, rfl⟩ := Option.map_eq_some_iff.mp ht
  obtain ⟨texts', htexts', hperm⟩ := renderFields_perm h htexts
  have hnodup : (texts.map Prod.fst).Nodup := by
    rw [keys_of_renderFields htexts]
    exact hkeys
  have hsame : texts.insertionSort (fun a b => a.1 ≤ b.1) =
      texts'.insertionSort fun a b => a.1 ≤ b.1 :=
    insertionSort_eq_of_perm_of_antisymm hperm fun a ha b hb hab hba =>
      List.inj_on_of_nodup_map hnodup ha hb (le_antisymm hab hba)
  rw [htexts', Option.map_some, renderObject, renderObject, hsame]

end JsonValue

end Foundation
