import PatchouliLib.Foundation.JsonDecoding

/-!
# JSON texts with a layout

A layout puts whitespace at the beginning of each line and behind each colon.  The decoder
reads a value that was written with any layout, with text escaped down to ASCII or not, as
long as no object of it has a name twice.

## Main definitions

* `Layout` — the whitespace, at each depth.
* `Json.write` — a value written with a layout.
* `JsonValue.ofJson` — the decoded value.

## Main results

* `Json.dumps_eq_write` — the compact rendering has the empty layout.
* `JsonValue.scanString_flatMap` — an escaped text is read back.
* `JsonValue.loads_write` — **what was written is read back.**
* `JsonValue.ofJson_injective` — a decoded value tells the value.
-/

namespace Foundation

/-- Whitespace of the grammar. -/
def IsJsonSpace (c : Char) : Prop := c = ' ' ∨ c = '\t' ∨ c = '\n' ∨ c = '\r'

instance : DecidablePred IsJsonSpace := fun c => by
  unfold IsJsonSpace
  infer_instance

/-- A text of whitespace. -/
def IsBlank (t : Text) : Prop := ∀ c ∈ t, IsJsonSpace c

instance : DecidablePred IsBlank := fun t => by
  unfold IsBlank
  infer_instance

/-- The whitespace of a text. -/
structure Layout where
  /-- What begins a line at this depth. -/
  newline : ℕ → Text
  /-- What stands behind a colon. -/
  gap : Text
  newline_blank : ∀ depth, IsBlank (newline depth)
  gap_blank : IsBlank gap

namespace Layout

/-- `separators=(",", ":")`. -/
def compact : Layout where
  newline _ := []
  gap := []
  newline_blank _ _ h := absurd h List.not_mem_nil
  gap_blank _ h := absurd h List.not_mem_nil

/-- `indent=width`. -/
def indented (width : ℕ) : Layout where
  newline depth := '\n' :: List.replicate (width * depth) ' '
  gap := [' ']
  newline_blank depth c h := by
    rcases List.mem_cons.mp h with rfl | h
    · exact .inr (.inr (.inl rfl))
    · exact .inl (List.eq_of_mem_replicate h)
  gap_blank := by decide

end Layout

namespace Json

mutual

/-- `json.dumps(value)` with this layout. -/
def write (l : Layout) (ensureAscii : Bool) (depth : ℕ) : Json → Text
  | null => ['n', 'u', 'l', 'l']
  | bool true => ['t', 'r', 'u', 'e']
  | bool false => ['f', 'a', 'l', 's', 'e']
  | num i => number i
  | str text => quote ensureAscii text
  | arr [] => ['[', ']']
  | arr (item :: items) =>
    '[' :: (l.newline (depth + 1) ++ (write l ensureAscii (depth + 1) item ++
      (writeItems l ensureAscii (depth + 1) items ++ (l.newline depth ++ [']']))))
  | obj [] => ['{', '}']
  | obj ((name, value) :: fields) =>
    '{' :: (l.newline (depth + 1) ++ (quote ensureAscii name ++ ':' :: (l.gap ++
      (write l ensureAscii (depth + 1) value ++
        (writeFields l ensureAscii (depth + 1) fields ++ (l.newline depth ++ ['}']))))))

/-- The items behind the first one. -/
def writeItems (l : Layout) (ensureAscii : Bool) (depth : ℕ) : List Json → Text
  | [] => []
  | item :: items =>
    ',' :: (l.newline depth ++ (write l ensureAscii depth item ++
      writeItems l ensureAscii depth items))

/-- The fields behind the first one. -/
def writeFields (l : Layout) (ensureAscii : Bool) (depth : ℕ) : List (Text × Json) → Text
  | [] => []
  | (name, value) :: fields =>
    ',' :: (l.newline depth ++ (quote ensureAscii name ++ ':' :: (l.gap ++
      (write l ensureAscii depth value ++ writeFields l ensureAscii depth fields))))

end

mutual

/-- No object has a name twice. -/
def Distinct : Json → Prop
  | arr items => DistinctItems items
  | obj fields => (Dict.keys fields).Nodup ∧ DistinctFields fields
  | _ => True

def DistinctItems : List Json → Prop
  | [] => True
  | item :: items => Distinct item ∧ DistinctItems items

def DistinctFields : List (Text × Json) → Prop
  | [] => True
  | (_, value) :: fields => Distinct value ∧ DistinctFields fields

end

theorem distinctFields_iff {fields : List (Text × Json)} :
    DistinctFields fields ↔ ∀ field ∈ fields, field.2.Distinct := by
  induction fields with
  | nil => simp [DistinctFields]
  | cons field fields ih => rw [DistinctFields, ih, List.forall_mem_cons]

/-! ### The compact layout -/

mutual

theorem write_compact (ensureAscii : Bool) (depth : ℕ) :
    ∀ v, write .compact ensureAscii depth v = dumps ensureAscii v
  | null => rfl
  | bool true => rfl
  | bool false => rfl
  | num _ => rfl
  | str _ => rfl
  | arr [] => rfl
  | arr (item :: items) => by
    have hitems := writeItems_compact ensureAscii (depth + 1) items
    have hitem := write_compact ensureAscii (depth + 1) item
    rw [write, dumps, dumpsItems_cons, hitem, hitems]
    simp [Layout.compact]
  | obj [] => rfl
  | obj ((name, value) :: fields) => by
    have hfields := writeFields_compact ensureAscii (depth + 1) fields
    have hvalue := write_compact ensureAscii (depth + 1) value
    rw [write, dumps, dumpsFields_cons, hvalue, hfields]
    simp [Layout.compact]

theorem writeItems_compact (ensureAscii : Bool) (depth : ℕ) :
    ∀ items, writeItems .compact ensureAscii depth items = itemsTail ensureAscii items
  | [] => rfl
  | item :: items => by
    have hitems := writeItems_compact ensureAscii depth items
    have hitem := write_compact ensureAscii depth item
    rw [writeItems, hitem, hitems, itemsTail, dumpsItems_cons]
    rfl

theorem writeFields_compact (ensureAscii : Bool) (depth : ℕ) :
    ∀ fields, writeFields .compact ensureAscii depth fields = fieldsTail ensureAscii fields
  | [] => rfl
  | (name, value) :: fields => by
    have hfields := writeFields_compact ensureAscii depth fields
    have hvalue := write_compact ensureAscii depth value
    rw [writeFields, hvalue, hfields, fieldsTail, dumpsFields_cons]
    simp [Layout.compact]

end

/-- **The compact rendering has the empty layout.** -/
theorem dumps_eq_write (ensureAscii : Bool) (v : Json) :
    dumps ensureAscii v = write .compact ensureAscii 0 v := (write_compact ensureAscii 0 v).symm

end Json

/-- A written value begins with no whitespace and closes nothing. -/
theorem Json.write_head (l : Layout) (ensureAscii : Bool) (depth : ℕ) (v : Json) :
    ∃ c t, Json.write l ensureAscii depth v = c :: t ∧ ¬IsJsonSpace c ∧ c ≠ ']' := by
  match v with
  | .null => exact ⟨'n', _, rfl, by decide, by decide⟩
  | .bool true => exact ⟨'t', _, rfl, by decide, by decide⟩
  | .bool false => exact ⟨'f', _, rfl, by decide, by decide⟩
  | .str text => exact ⟨'"', _, rfl, by decide, by decide⟩
  | .arr [] => exact ⟨'[', _, rfl, by decide, by decide⟩
  | .arr (item :: items) =>
    rw [Json.write]
    exact ⟨'[', _, rfl, by decide, by decide⟩
  | .obj [] => exact ⟨'{', _, rfl, by decide, by decide⟩
  | .obj ((name, value) :: fields) =>
    rw [Json.write]
    exact ⟨'{', _, rfl, by decide, by decide⟩
  | .num i =>
    obtain ⟨c, t, hnumber, hc⟩ := Json.number_head i
    have hfirst : c = '-' ∨ c.isDigit = true := hc.imp And.right And.right
    refine ⟨c, t, by rw [Json.write, hnumber], ?_, ?_⟩
    · rintro (rfl | rfl | rfl | rfl) <;> exact absurd hfirst (by decide)
    · rintro rfl
      exact absurd hfirst (by decide)

namespace JsonValue

/-! ### Decoded values -/

mutual

/-- The value that a written value is decoded to. -/
def ofJson : Json → JsonValue
  | .null => null
  | .bool value => bool value
  | .num i => int i
  | .str text => str text.codepoints
  | .arr items => arr (ofItems items)
  | .obj fields => obj (ofFields fields)

def ofItems : List Json → List JsonValue
  | [] => []
  | item :: items => ofJson item :: ofItems items

def ofFields : List (Text × Json) → List (Codepoints × JsonValue)
  | [] => []
  | (name, value) :: fields => (name.codepoints, ofJson value) :: ofFields fields

end

mutual

/-- **A decoded value tells the value.** -/
theorem ofJson_inj : ∀ {v w : Json}, ofJson v = ofJson w → v = w
  | .null, w, h => by cases w <;> cases h; rfl
  | .bool _, w, h => by cases w <;> cases h; rfl
  | .num _, w, h => by cases w <;> cases h; rfl
  | .str t, w, h => by
    cases w with
    | str t' => rw [codepoints_injective (str.inj h)]
    | _ => cases h
  | .arr items, w, h => by
    cases w with
    | arr items' => rw [ofItems_inj (arr.inj h)]
    | _ => cases h
  | .obj fields, w, h => by
    cases w with
    | obj fields' => rw [ofFields_inj (obj.inj h)]
    | _ => cases h

theorem ofItems_inj : ∀ {xs ys : List Json}, ofItems xs = ofItems ys → xs = ys
  | [], ys, h => by cases ys <;> cases h; rfl
  | x :: xs, ys, h => by
    cases ys with
    | nil => cases h
    | cons y ys => rw [ofJson_inj (List.cons.inj h).1, ofItems_inj (List.cons.inj h).2]

theorem ofFields_inj : ∀ {xs ys : List (Text × Json)}, ofFields xs = ofFields ys → xs = ys
  | [], ys, h => by cases ys <;> cases h; rfl
  | (name, value) :: xs, ys, h => by
    cases ys with
    | nil => cases h
    | cons y ys =>
      obtain ⟨hfirst, hrest⟩ := List.cons.inj h
      obtain ⟨hname, hvalue⟩ := Prod.mk.inj hfirst
      rw [ofFields_inj hrest, codepoints_injective hname, ofJson_inj hvalue]

end

theorem ofJson_injective : Function.Injective ofJson := fun _ _ => ofJson_inj

theorem ofFields_eq_map (fields : List (Text × Json)) :
    ofFields fields = fields.map fun field => (field.1.codepoints, ofJson field.2) := by
  induction fields with
  | nil => rfl
  | cons field fields ih => rw [ofFields, ih, List.map_cons]

/-- A field of the decoded value is the decoded field of the value. -/
theorem field?_ofFields (fields : List (Text × Json)) (name : Text) :
    field? (ofFields fields) name =
      (fields.find? fun field => decide (field.1 = name)).map fun field => ofJson field.2 := by
  induction fields with
  | nil => rfl
  | cons field fields ih =>
    rw [field?] at ih ⊢
    rw [ofFields, List.find?_cons, List.find?_cons]
    by_cases hname : field.1 = name
    · rw [decide_eq_true hname, decide_eq_true (congrArg Text.codepoints hname)]
      rfl
    · have hpoints : field.1.codepoints ≠ name.codepoints := fun h => hname (codepoints_injective h)
      rw [decide_eq_false hname, decide_eq_false hpoints]
      exact ih

theorem keys_ofFields (fields : List (Text × Json)) :
    Dict.keys (ofFields fields) = (Dict.keys fields).map Text.codepoints := by
  induction fields with
  | nil => rfl
  | cons field fields ih =>
    obtain ⟨name, value⟩ := field
    rw [ofFields, Dict.keys_cons, Dict.keys_cons, List.map_cons, ih]

theorem nodup_keys_ofFields {fields : List (Text × Json)} (h : (Dict.keys fields).Nodup) :
    (Dict.keys (ofFields fields)).Nodup := by
  rw [keys_ofFields]
  exact h.map fun _ _ => codepoints_injective

/-! ### Whitespace -/

theorem skipSpace_blank {w : Text} (hw : IsBlank w) (t : Text) : skipSpace (w ++ t) = skipSpace t :=
  List.dropWhile_append_of_pos fun c hc => decide_eq_true (hw c hc)

theorem skipSpace_of_head {c : Char} (hc : ¬IsJsonSpace c) (t : Text) :
    skipSpace (c :: t) = c :: t := skipSpace_cons hc t

theorem skipSpace_write (l : Layout) (ensureAscii : Bool) (depth : ℕ) (v : Json) (t : Text) :
    skipSpace (Json.write l ensureAscii depth v ++ t) = Json.write l ensureAscii depth v ++ t := by
  obtain ⟨c, cs, hwrite, hspace, -⟩ := Json.write_head l ensureAscii depth v
  rw [hwrite]
  exact skipSpace_of_head hspace _

/-- What may stand behind a value. -/
def Ends (t : Text) : Prop :=
  ∀ c ∈ t.head?, c.isDigit = false ∧ c ≠ '.' ∧ c ≠ 'e' ∧ c ≠ 'E'

theorem ends_cons {c : Char} (h : c.isDigit = false ∧ c ≠ '.' ∧ c ≠ 'e' ∧ c ≠ 'E') (t : Text) :
    Ends (c :: t) := by
  intro c' hc'
  rwa [← Option.some.inj hc']

theorem ends_blank {w : Text} (hw : IsBlank w) {t : Text} (ht : Ends t) : Ends (w ++ t) := by
  cases w with
  | nil => exact ht
  | cons c w =>
    refine ends_cons ?_ _
    rcases hw c List.mem_cons_self with rfl | rfl | rfl | rfl <;> decide

/-! ### Texts and numbers -/

/-- The units that are read from a character. -/
def unitsRead : Bool → Char → List ℕ
  | true, c => unitsOf c
  | false, c => [c.toNat]

theorem scanUnits_escapeAny (ensureAscii : Bool) (c : Char) (t : Text) :
    scanUnits (Json.escape ensureAscii c ++ t) = prepend (unitsRead ensureAscii c) (scanUnits t) := by
  cases ensureAscii with
  | true =>
    rw [unitsRead]
    exact scanUnits_escape c t
  | false =>
    by_cases hascii : c.toNat < 127
    · -- these characters are escaped alike
      have hsame : Json.escape false c = Json.escape true c := by
        simp only [Json.escape, hascii, true_or, if_true]
      have hunits : unitsRead false c = unitsOf c := by
        rw [unitsRead, unitsOf, if_pos (by omega)]
      rw [hsame, hunits]
      exact scanUnits_escape c t
    · have hraw : Json.escape false c = [c] := by
        have hquote : c ≠ '"' := by
          rintro rfl
          exact hascii (by decide)
        have hbackslash : c ≠ '\\' := by
          rintro rfl
          exact hascii (by decide)
        simp only [Json.escape]
        rw [if_neg hquote, if_neg hbackslash, if_neg (by omega), if_neg (by omega),
          if_neg (by omega), if_neg (by omega), if_neg (by omega), if_neg (by omega),
          if_pos (.inr rfl)]
      rw [hraw, unitsRead]
      refine scanUnits_raw ?_ ?_ (by omega) t
      · rintro rfl
        exact hascii (by decide)
      · rintro rfl
        exact hascii (by decide)

/-- Units that are no surrogates are joined with nothing. -/
theorem joinSurrogates_codepoints (t : Text) : joinSurrogates t.codepoints = t.codepoints := by
  induction t with
  | nil => rfl
  | cons c t ih =>
    have hrange := Json.toNat_range c
    have hhigh : isHigh c.toNat = false := by
      simp only [isHigh, Bool.and_eq_false_iff, decide_eq_false_iff_not]
      omega
    rw [Text.codepoints, List.map_cons, ← Text.codepoints]
    cases hunits : Text.codepoints t with
    | nil => rfl
    | cons low rest =>
      rw [joinSurrogates, hhigh]
      rw [hunits] at ih
      simp only [Bool.false_and, Bool.false_eq_true, if_false, ih]

/-- **An escaped text is read back.** -/
theorem scanString_flatMap (ensureAscii : Bool) (t rest : Text) :
    scanString (t.flatMap (Json.escape ensureAscii) ++ '"' :: rest) =
      some (t.codepoints, rest) := by
  have hunits : scanUnits (t.flatMap (Json.escape ensureAscii) ++ '"' :: rest) =
      some (t.flatMap (unitsRead ensureAscii), rest) := by
    induction t with
    | nil => rfl
    | cons c t ih =>
      rw [List.flatMap_cons, List.append_assoc, scanUnits_escapeAny, ih]
      rfl
  rw [scanString, hunits, Option.map_some]
  dsimp only
  cases ensureAscii with
  | true =>
    have hflat : t.flatMap (unitsRead true) = t.flatMap unitsOf :=
      List.flatMap_congr fun c _ => by rw [unitsRead]
    rw [hflat, joinSurrogates_unitsOf]
  | false =>
    have hflat : t.flatMap (unitsRead false) = t.codepoints := by
      rw [Text.codepoints, List.map_eq_flatMap]
      exact List.flatMap_congr fun c _ => by rw [unitsRead]
    rw [hflat, joinSurrogates_codepoints]

theorem scanDigits_of_ends (n : ℕ) {rest : Text} (h : Ends rest) :
    scanDigits (Nat.toDigits 10 n ++ rest) = (Nat.toDigits 10 n, rest) := by
  have hdigits : ∀ d ∈ Nat.toDigits 10 n, d.isDigit = true := fun d hd =>
    Json.isDigit_of_mem_toDigits hd
  rw [scanDigits, List.takeWhile_append_of_pos hdigits, List.dropWhile_append_of_pos hdigits]
  cases rest with
  | nil => rw [List.takeWhile_nil, List.dropWhile_nil, List.append_nil]
  | cons c rest =>
    have hstop := (h c rfl).1
    rw [List.takeWhile_cons_of_neg (by simp [hstop]), List.dropWhile_cons_of_neg (by simp [hstop]),
      List.append_nil]

theorem scanInteger_of_ends (n : ℕ) {rest : Text} (h : Ends rest) :
    scanInteger (Nat.toDigits 10 n ++ rest) = some (Nat.toDigits 10 n, rest) := by
  rcases Nat.eq_zero_or_pos n with rfl | hn
  · rfl
  · have hscan := scanDigits_of_ends n h
    obtain ⟨c, cs, hcs, hc⟩ := Json.toDigits_eq_cons hn
    have hdigit : c.isDigit = true := Json.isDigit_of_mem_toDigits (n := n) (by simp [hcs])
    have hzero : c ≠ '0' := by
      rintro rfl
      exact absurd hc (by decide)
    rw [hcs, List.cons_append] at hscan ⊢
    rw [scanInteger, if_pos hdigit, hscan]
    exact fun heq => hzero heq

/-- **A written integer is read back.** -/
theorem scanNumber_of_ends (i : ℤ) {rest : Text} (h : Ends rest) :
    scanNumber (Json.number i ++ rest) = some (int i, rest) := by
  have hfraction : scanFraction rest = (none, rest) := by
    cases rest with
    | nil => rfl
    | cons c rest =>
      rw [scanFraction]
      exact fun _ heq => absurd (List.cons.inj heq).1 (h c rfl).2.1
  have hexponent : scanExponent rest = (none, rest) := by
    cases rest with
    | nil => rfl
    | cons c rest =>
      unfold scanExponent
      exact if_neg (not_or.mpr (h c rfl).2.2)
  have hvalue : Nat.ofDigitChars 10 (Nat.toDigits 10 i.natAbs) 0 = i.natAbs :=
    Nat.ofDigitChars_ten_toDigits
  rw [Json.number]
  split
  · next hneg =>
    have hsign : scanSign ('-' :: Nat.toDigits 10 i.natAbs ++ rest) =
        (true, Nat.toDigits 10 i.natAbs ++ rest) := rfl
    rw [scanNumber, hsign, scanInteger_of_ends _ h, Option.map_some]
    simp only [hfraction, hexponent, numberOf, hvalue, if_true]
    rw [Int.ofNat_natAbs_of_nonpos (by omega), neg_neg]
  · next hnonneg =>
    have hsign : scanSign (Nat.toDigits 10 i.natAbs ++ rest) =
        (false, Nat.toDigits 10 i.natAbs ++ rest) := by
      cases hdigits : Nat.toDigits 10 i.natAbs with
      | nil => exact absurd hdigits Nat.toDigits_ne_nil
      | cons c cs =>
        have hdigit : c.isDigit = true :=
          Json.isDigit_of_mem_toDigits (n := i.natAbs) (by simp [hdigits])
        have hminus : c ≠ '-' := by
          rintro rfl
          exact absurd hdigit (by decide)
        rw [List.cons_append, scanSign]
        exact fun _ heq => absurd heq (by simp [hminus])
    rw [scanNumber, hsign, scanInteger_of_ends _ h, Option.map_some]
    simp only [hfraction, hexponent, numberOf, hvalue, Bool.false_eq_true, if_false]
    rw [Int.natAbs_of_nonneg (by omega)]

/-! ### Arrays and objects -/

variable {hook : Hook}

/-- A hook that keeps the pairs as they are when no name comes twice. -/
def KeepsDistinct (hook : Hook) : Prop := ∀ pairs, (Dict.keys pairs).Nodup → hook pairs = some pairs

theorem keepsDistinct_uniquePairs : KeepsDistinct uniquePairs := fun _ h => if_pos h

/-- Pairs with names of their own are added one by one. -/
theorem update_distinct {pairs d : List (Codepoints × JsonValue)}
    (h : (Dict.keys (d ++ pairs)).Nodup) : Dict.update d pairs = d ++ pairs := by
  induction pairs generalizing d with
  | nil => rw [Dict.update_nil, List.append_nil]
  | cons pair pairs ih =>
    have hassoc : d ++ pair :: pairs = d ++ [pair] ++ pairs := by simp
    have hnew : pair.1 ∉ Dict.keys d := by
      intro hmem
      rw [Dict.keys, List.map_append, List.nodup_append] at h
      exact h.2.2 _ hmem _ List.mem_cons_self rfl
    have hset : Dict.set d pair.1 pair.2 = d ++ [pair] := by
      have habsent : d.any (·.1 = pair.1) = false :=
        Bool.eq_false_iff.mpr fun hany => hnew (Dict.any_key.mp hany)
      rw [Dict.set, habsent]
      rfl
    rw [Dict.update_cons, hset, ih (by rwa [← hassoc]), hassoc]

theorem keepsDistinct_lastPairs : KeepsDistinct lastPairs := fun pairs h => by
  rw [lastPairs, update_distinct (d := []) h, List.nil_append]

/-- What follows an item of an array. -/
def afterItem (hook : Hook) (fuel : ℕ) (items : List JsonValue) (t : Text) :
    Option (JsonValue × Text) :=
  match skipSpace t with
  | ']' :: rest => some (arr items, rest)
  | ',' :: rest => scanItems hook fuel items (skipSpace rest)
  | _ => none

/-- What follows a field of an object. -/
def afterField (hook : Hook) (fuel : ℕ) (pairs : List (Codepoints × JsonValue)) (t : Text) :
    Option (JsonValue × Text) :=
  match skipSpace t with
  | '}' :: rest => (hook pairs).map fun fields => (obj fields, rest)
  | ',' :: rest => scanPairs hook fuel pairs (skipSpace rest)
  | _ => none

theorem afterItem_close {fuel : ℕ} {items : List JsonValue} {w : Text} (hw : IsBlank w)
    (rest : Text) : afterItem hook fuel items (w ++ ']' :: rest) = some (arr items, rest) := by
  have hskip : skipSpace (w ++ ']' :: rest) = ']' :: rest := by
    rw [skipSpace_blank hw]
    exact skipSpace_of_head (by decide) rest
  rw [afterItem, hskip]
  rfl

theorem afterItem_comma {fuel : ℕ} {items : List JsonValue} (rest : Text) :
    afterItem hook fuel items (',' :: rest) = scanItems hook fuel items (skipSpace rest) := by
  rw [afterItem, skipSpace_of_head (by decide) rest]
  rfl

theorem afterField_close {fuel : ℕ} {pairs : List (Codepoints × JsonValue)} {w : Text}
    (hw : IsBlank w) (rest : Text) : afterField hook fuel pairs (w ++ '}' :: rest) =
      (hook pairs).map fun fields => (obj fields, rest) := by
  have hskip : skipSpace (w ++ '}' :: rest) = '}' :: rest := by
    rw [skipSpace_blank hw]
    exact skipSpace_of_head (by decide) rest
  rw [afterField, hskip]
  rfl

theorem afterField_comma {fuel : ℕ} {pairs : List (Codepoints × JsonValue)} (rest : Text) :
    afterField hook fuel pairs (',' :: rest) = scanPairs hook fuel pairs (skipSpace rest) := by
  rw [afterField, skipSpace_of_head (by decide) rest]
  rfl

/-- One item of an array. -/
theorem scanItems_item {fuel : ℕ} {items : List JsonValue} {t rest : Text} {value : JsonValue}
    (h : scanOnce hook fuel t = some (value, rest)) :
    scanItems hook (fuel + 1) items t = afterItem hook fuel (items ++ [value]) rest := by
  rw [scanItems, h]
  rfl

/-- One field of an object. -/
theorem scanPairs_field {fuel : ℕ} {pairs : List (Codepoints × JsonValue)} (ensureAscii : Bool)
    (name : Text) {gap t rest : Text} (hgap : IsBlank gap) {value : JsonValue}
    (hstart : skipSpace t = t) (h : scanOnce hook fuel t = some (value, rest)) :
    scanPairs hook (fuel + 1) pairs (Json.quote ensureAscii name ++ ':' :: (gap ++ t)) =
      afterField hook fuel (pairs ++ [(name.codepoints, value)]) rest := by
  have hquote : Json.quote ensureAscii name ++ ':' :: (gap ++ t) =
      '"' :: (name.flatMap (Json.escape ensureAscii) ++ '"' :: ':' :: (gap ++ t)) := by
    simp [Json.quote]
  have hcolon : skipSpace (':' :: (gap ++ t)) = ':' :: (gap ++ t) :=
    skipSpace_of_head (by decide) _
  have hvalue : skipSpace (gap ++ t) = t := (skipSpace_blank hgap t).trans hstart
  rw [hquote, scanPairs, scanString_flatMap]
  simp only [Option.bind_eq_bind, Option.bind_some, hcolon, hvalue, h]
  rfl

theorem scanOnce_arr {fuel : ℕ} {t rest : Text} {c : Char} (hc : c ≠ ']')
    (h : skipSpace rest = c :: t) :
    scanOnce hook (fuel + 1) ('[' :: rest) = scanItems hook fuel [] (c :: t) := by
  rw [scanOnce, h]
  split
  · next heq => exact absurd (List.cons.inj heq).1 hc
  · rfl

theorem scanOnce_obj {fuel : ℕ} {t rest : Text} {c : Char} (hc : c ≠ '}')
    (h : skipSpace rest = c :: t) :
    scanOnce hook (fuel + 1) ('{' :: rest) = scanPairs hook fuel [] (c :: t) := by
  rw [scanOnce, h]
  split
  · next heq => exact absurd (List.cons.inj heq).1 hc
  · rfl

theorem ends_items (l : Layout) (ensureAscii : Bool) (depth : ℕ) (items : List Json) {w : Text}
    (hw : IsBlank w) (rest : Text) :
    Ends (Json.writeItems l ensureAscii depth items ++ (w ++ ']' :: rest)) := by
  cases items with
  | nil =>
    rw [Json.writeItems]
    exact ends_blank hw (ends_cons (by decide) rest)
  | cons item items =>
    rw [Json.writeItems]
    exact ends_cons (by decide) _

theorem ends_fields (l : Layout) (ensureAscii : Bool) (depth : ℕ) (fields : List (Text × Json))
    {w : Text} (hw : IsBlank w) (rest : Text) :
    Ends (Json.writeFields l ensureAscii depth fields ++ (w ++ '}' :: rest)) := by
  cases fields with
  | nil =>
    rw [Json.writeFields]
    exact ends_blank hw (ends_cons (by decide) rest)
  | cons field fields =>
    obtain ⟨name, value⟩ := field
    rw [Json.writeFields]
    exact ends_cons (by decide) _

mutual

/-- **A written value is scanned**, whatever layout it has. -/
theorem scanOnce_write (hhook : KeepsDistinct hook) (l : Layout) (ensureAscii : Bool) :
    ∀ (v : Json) (depth : ℕ) {fuel : ℕ} {rest : Text}, v.Distinct → Ends rest →
      (Json.write l ensureAscii depth v).length < fuel →
      scanOnce hook fuel (Json.write l ensureAscii depth v ++ rest) = some (ofJson v, rest)
  | .null, _, fuel + 1, _, _, _, _ => by rw [Json.write]; rfl
  | .bool true, _, fuel + 1, _, _, _, _ => by rw [Json.write]; rfl
  | .bool false, _, fuel + 1, _, _, _, _ => by rw [Json.write]; rfl
  | .num i, _, fuel + 1, rest, _, hrest, _ => by
    obtain ⟨c, cs, hcs, hc⟩ := Json.number_head i
    have hfirst : c = '-' ∨ c.isDigit = true := hc.imp And.right And.right
    have hspace : ¬IsJsonSpace c := by
      rintro (rfl | rfl | rfl | rfl) <;> exact absurd hfirst (by decide)
    have hnumber := scanNumber_of_ends i hrest
    have hscan := @scanOnce_number hook fuel c (cs ++ rest) hfirst
    rw [skipSpace_of_head hspace] at hscan
    rw [Json.write, hcs, List.cons_append, hscan, ← List.cons_append, ← hcs, hnumber, ofJson]
  | .str text, _, fuel + 1, rest, _, _, _ => by
    have hquote : Json.quote ensureAscii text ++ rest =
        '"' :: (text.flatMap (Json.escape ensureAscii) ++ '"' :: rest) := by
      simp [Json.quote]
    rw [Json.write, hquote, scanOnce, scanString_flatMap, ofJson]
    rfl
  | .arr [], _, fuel + 1, _, _, _, _ => by rw [Json.write]; rfl
  | .arr (item :: items), depth, fuel + 1, rest, hdistinct, _, hfuel => by
    have hitem : item.Distinct := hdistinct.1
    have hitems : Json.DistinctItems items := hdistinct.2
    rw [Json.write] at hfuel ⊢
    simp only [List.length_cons, List.length_append, List.length_nil] at hfuel
    obtain ⟨fuel, rfl⟩ : ∃ n, fuel = n + 1 := Nat.exists_eq_add_of_le' (by omega)
    obtain ⟨c, cs, hwrite, -, hc⟩ := Json.write_head l ensureAscii (depth + 1) item
    have hends := ends_items l ensureAscii (depth + 1) items (l.newline_blank depth) rest
    have hfirst := scanOnce_write hhook l ensureAscii item (depth + 1) hitem hends
      (by omega : _ < fuel)
    have hrest : afterItem hook fuel [ofJson item] (Json.writeItems l ensureAscii (depth + 1) items ++
        (l.newline depth ++ ']' :: rest)) = some (arr ([ofJson item] ++ ofItems items), rest) :=
      afterItem_write hhook l ensureAscii items (depth + 1) hitems (l.newline_blank depth) (by omega)
    have hskip := skipSpace_write l ensureAscii (depth + 1) item
      (Json.writeItems l ensureAscii (depth + 1) items ++ (l.newline depth ++ ']' :: rest))
    rw [← skipSpace_blank (l.newline_blank (depth + 1))] at hskip
    simp only [List.cons_append, List.append_assoc, List.nil_append]
    rw [hwrite] at hskip hfirst ⊢
    rw [List.cons_append] at hskip hfirst ⊢
    rw [scanOnce_arr hc hskip, scanItems_item hfirst, List.nil_append, hrest, ofJson, ofItems]
    rfl
  | .obj [], _, fuel + 1, _, _, _, _ => by
    rw [Json.write, ofJson, ofFields]
    change (hook []).map _ = _
    rw [hhook [] List.nodup_nil]
    rfl
  | .obj ((name, value) :: fields), depth, fuel + 1, rest, hdistinct, _, hfuel => by
    obtain ⟨hkeys, hvalue, hfields⟩ := hdistinct
    rw [Json.write] at hfuel ⊢
    simp only [List.length_cons, List.length_append, List.length_nil] at hfuel
    obtain ⟨fuel, rfl⟩ : ∃ n, fuel = n + 1 := Nat.exists_eq_add_of_le' (by omega)
    have hends := ends_fields l ensureAscii (depth + 1) fields (l.newline_blank depth) rest
    have hfirst := scanOnce_write hhook l ensureAscii value (depth + 1) hvalue hends
      (by omega : _ < fuel)
    have hrest : afterField hook fuel [(name.codepoints, ofJson value)]
        (Json.writeFields l ensureAscii (depth + 1) fields ++ (l.newline depth ++ '}' :: rest)) =
        some (obj ([(name.codepoints, ofJson value)] ++ ofFields fields), rest) :=
      afterField_write hhook l ensureAscii fields (depth + 1) hfields (l.newline_blank depth)
        (nodup_keys_ofFields hkeys) (by omega)
    have hfield := @scanPairs_field hook fuel [] ensureAscii name _ _ _ l.gap_blank _
      (skipSpace_write l ensureAscii (depth + 1) value _) hfirst
    have hskip : skipSpace (l.newline (depth + 1) ++ (Json.quote ensureAscii name ++ ':' ::
        (l.gap ++ (Json.write l ensureAscii (depth + 1) value ++
          (Json.writeFields l ensureAscii (depth + 1) fields ++
            (l.newline depth ++ '}' :: rest)))))) =
        '"' :: (name.flatMap (Json.escape ensureAscii) ++ '"' :: ':' ::
          (l.gap ++ (Json.write l ensureAscii (depth + 1) value ++
            (Json.writeFields l ensureAscii (depth + 1) fields ++
              (l.newline depth ++ '}' :: rest))))) := by
      rw [skipSpace_blank (l.newline_blank (depth + 1)), Json.quote]
      simp only [List.cons_append, List.append_assoc, List.nil_append]
      exact skipSpace_of_head (by decide) _
    simp only [List.cons_append, List.append_assoc, List.nil_append]
    rw [scanOnce_obj (by decide) hskip]
    rw [Json.quote] at hfield
    simp only [List.cons_append, List.append_assoc, List.nil_append] at hfield
    rw [hfield, hrest, ofJson, ofFields]
    rfl

/-- The items behind the first one are scanned. -/
theorem afterItem_write (hhook : KeepsDistinct hook) (l : Layout) (ensureAscii : Bool) :
    ∀ (items : List Json) (depth : ℕ) {fuel : ℕ} {acc : List JsonValue} {w rest : Text},
      Json.DistinctItems items → IsBlank w →
      (Json.writeItems l ensureAscii depth items).length < fuel →
      afterItem hook fuel acc (Json.writeItems l ensureAscii depth items ++ (w ++ ']' :: rest)) =
        some (arr (acc ++ ofItems items), rest)
  | [], _, _, acc, _, rest, _, hw, _ => by
    rw [Json.writeItems, List.nil_append, afterItem_close hw, ofItems, List.append_nil]
  | item :: items, depth, fuel + 1, acc, w, rest, hdistinct, hw, hfuel => by
    rw [Json.writeItems] at hfuel ⊢
    simp only [List.length_cons, List.length_append] at hfuel
    have hends := ends_items l ensureAscii depth items hw rest
    have hfirst := scanOnce_write hhook l ensureAscii item depth hdistinct.1 hends
      (by omega : _ < fuel)
    have hrest : afterItem hook fuel (acc ++ [ofJson item])
        (Json.writeItems l ensureAscii depth items ++ (w ++ ']' :: rest)) =
        some (arr (acc ++ [ofJson item] ++ ofItems items), rest) :=
      afterItem_write hhook l ensureAscii items depth hdistinct.2 hw (by omega)
    simp only [List.cons_append, List.append_assoc]
    rw [afterItem_comma, skipSpace_blank (l.newline_blank depth), skipSpace_write,
      scanItems_item hfirst, hrest, ofItems, List.append_assoc]
    rfl

/-- The fields behind the first one are scanned. -/
theorem afterField_write (hhook : KeepsDistinct hook) (l : Layout) (ensureAscii : Bool) :
    ∀ (fields : List (Text × Json)) (depth : ℕ) {fuel : ℕ}
      {acc : List (Codepoints × JsonValue)} {w rest : Text},
      Json.DistinctFields fields → IsBlank w → (Dict.keys (acc ++ ofFields fields)).Nodup →
      (Json.writeFields l ensureAscii depth fields).length < fuel →
      afterField hook fuel acc
          (Json.writeFields l ensureAscii depth fields ++ (w ++ '}' :: rest)) =
        some (obj (acc ++ ofFields fields), rest)
  | [], _, _, acc, _, rest, _, hw, hkeys, _ => by
    rw [ofFields, List.append_nil] at hkeys ⊢
    rw [Json.writeFields, List.nil_append, afterField_close hw, hhook acc hkeys]
    rfl
  | (name, value) :: fields, depth, fuel + 1, acc, w, rest, hdistinct, hw, hkeys, hfuel => by
    rw [Json.writeFields] at hfuel ⊢
    simp only [List.length_cons, List.length_append] at hfuel
    have happend : acc ++ ofFields ((name, value) :: fields) =
        acc ++ [(name.codepoints, ofJson value)] ++ ofFields fields := by
      rw [ofFields]
      simp
    rw [happend] at hkeys
    have hends := ends_fields l ensureAscii depth fields hw rest
    have hfirst := scanOnce_write hhook l ensureAscii value depth hdistinct.1 hends
      (by omega : _ < fuel)
    have hrest : afterField hook fuel (acc ++ [(name.codepoints, ofJson value)])
        (Json.writeFields l ensureAscii depth fields ++ (w ++ '}' :: rest)) =
        some (obj (acc ++ [(name.codepoints, ofJson value)] ++ ofFields fields), rest) :=
      afterField_write hhook l ensureAscii fields depth hdistinct.2 hw hkeys (by omega)
    have hfield := @scanPairs_field hook fuel acc ensureAscii name _ _ _ l.gap_blank _
      (skipSpace_write l ensureAscii depth value _) hfirst
    have hskip (t : Text) : skipSpace (Json.quote ensureAscii name ++ t) =
        Json.quote ensureAscii name ++ t := by
      rw [Json.quote]
      exact skipSpace_of_head (by decide) _
    simp only [List.cons_append, List.append_assoc]
    rw [afterField_comma, skipSpace_blank (l.newline_blank depth), hskip, hfield, hrest, happend]

end

/-- **What was written is read back.** -/
theorem loads_write (hhook : KeepsDistinct hook) (l : Layout) (ensureAscii : Bool) {v : Json}
    (hdistinct : v.Distinct) {behind : Text} (hbehind : IsBlank behind) :
    loads hook (Json.write l ensureAscii 0 v ++ behind) = some (ofJson v) := by
  have hends : Ends behind := by
    rw [← List.append_nil behind]
    exact ends_blank hbehind fun _ h => absurd h (by simp)
  have hfuel : (Json.write l ensureAscii 0 v).length <
      (Json.write l ensureAscii 0 v ++ behind).length + 1 := by
    rw [List.length_append]
    omega
  have hskip : skipSpace behind = [] := by
    have hall := skipSpace_blank hbehind []
    rwa [List.append_nil] at hall
  rw [loads, skipSpace_write, scanOnce_write hhook l ensureAscii v 0 hdistinct hends hfuel]
  simp only [Option.bind_eq_bind, Option.bind_some, hskip, if_true]

end JsonValue

end Foundation
