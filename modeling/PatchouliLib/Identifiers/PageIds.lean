import PatchouliLib.Foundation.Calendar
import PatchouliLib.Foundation.Transaction
import PatchouliLib.Platform

/-!
# Occurrence times and Page identifiers

A time is a signed number of microseconds since the epoch, in the range of the
calendar.  Its canonical spelling is the UTC wire text with six fraction digits;
the parser accepts any RFC 3339 spelling with a known offset.  A Page identifier
is the floored millisecond, a slug of the creation title, and from the second
collision on an ordinal.

## Main definitions

* `canonicalUtcWire`, `parseOccurrenceTime` — the wire text of a time and its parser.
* `pageIdTimestampPrefix`, `slugifyCreationTitle`, `generatePageId` — the
  generator.
* `validatePageId`, `pageIdRegistryDigest` — the syntax check and the registry key.

## Main results

* `parseOccurrenceTime_format` — **parsing the wire text of a time
  gives the time back.**
-/

namespace PatchouliLib

open Foundation

/-! ### Decimal numerals -/

/-- The `w` last decimal digits of `n`. -/
def decimal : ℕ → ℕ → Text
  | 0, _ => []
  | w + 1, n => Char.ofNat (48 + n / 10 ^ w % 10) :: decimal w n

/-- `[0-9]`. -/
def isDigit (c : Char) : Bool := '0' ≤ c && c ≤ '9'

/-- `int(text)` of a text of digits. -/
def readDigits (cs : Text) : Option ℕ :=
  cs.foldlM (fun n c => if isDigit c then some (n * 10 + (c.toNat - 48)) else none) 0

/-! ### Times -/

def microsecondsPerSecond : ℤ := 1000000
def microsecondsPerDay : ℤ := 86400 * microsecondsPerSecond

/-- The ordinal of 1970-01-01. -/
def epochOrdinal : ℤ := 719163

def minUtcMicroseconds : ℤ := (1 - epochOrdinal) * microsecondsPerDay
def maxUtcMicroseconds : ℤ := (maxOrdinal - epochOrdinal + 1) * microsecondsPerDay - 1

/-- The times the calendar can spell. -/
def InUtcRange (u : ℤ) : Prop := minUtcMicroseconds ≤ u ∧ u ≤ maxUtcMicroseconds

instance (u : ℤ) : Decidable (InUtcRange u) := by
  unfold InUtcRange
  infer_instance

/-- A validated instant and its canonical spelling. -/
structure OccurrenceTime where
  utcMicroseconds : ℤ
  canonicalUtc : Text
deriving DecidableEq, Repr

/-- `YYYY-MM-DDTHH:MM:SS.ffffffZ`. -/
def formatUtcMicroseconds (u : ℤ) : Text :=
  let days := u / microsecondsPerDay
  let dayMicroseconds := (u % microsecondsPerDay).toNat
  let date := Date.ofOrdinal (epochOrdinal + days).toNat
  let seconds := dayMicroseconds / 1000000
  let microseconds := dayMicroseconds % 1000000
  decimal 4 date.year ++ '-' :: decimal 2 date.month ++ '-' :: decimal 2 date.day ++
    'T' :: decimal 2 (seconds / 3600) ++ ':' :: decimal 2 (seconds % 3600 / 60) ++
    ':' :: decimal 2 (seconds % 3600 % 60) ++ '.' :: decimal 6 microseconds ++ ['Z']

/-- Format an accepted time as canonical RFC 3339. -/
def canonicalUtcWire (u : ℤ) : Except Err Text :=
  if InUtcRange u then .ok (formatUtcMicroseconds u) else .error .invalidOccurrenceTime

/-- The groups of the RFC 3339 pattern. -/
structure Rfc3339Match where
  year : ℕ
  month : ℕ
  day : ℕ
  hour : ℕ
  minute : ℕ
  second : ℕ
  fraction : Text
  offset : Text

/-- `(?:\.(?P<fraction>[0-9]{1,6}))?` and what follows it. -/
def matchFraction : Text → Option (Text × Text)
  | '.' :: rest =>
    let fraction := rest.takeWhile isDigit
    if 1 ≤ fraction.length ∧ fraction.length ≤ 6 then
      some (fraction, rest.dropWhile isDigit)
    else none
  | rest => some ([], rest)

/-- `[Zz]|[+-][0-9]{2}:[0-9]{2}`. -/
def isOffset : Text → Bool
  | ['Z'] | ['z'] => true
  | [sign, h1, h2, ':', m1, m2] =>
    (sign = '+' || sign = '-') && isDigit h1 && isDigit h2 && isDigit m1 && isDigit m2
  | _ => false

/-- `_RFC3339_PATTERN.fullmatch(value)`. -/
def matchRfc3339 : Text → Option Rfc3339Match
  | y1 :: y2 :: y3 :: y4 :: '-' :: o1 :: o2 :: '-' :: d1 :: d2 :: t :: h1 :: h2 :: ':' :: m1 ::
      m2 :: ':' :: s1 :: s2 :: rest => do
    guard (t = 'T' ∨ t = 't')
    let year ← readDigits [y1, y2, y3, y4]
    let month ← readDigits [o1, o2]
    let day ← readDigits [d1, d2]
    let hour ← readDigits [h1, h2]
    let minute ← readDigits [m1, m2]
    let second ← readDigits [s1, s2]
    let (fraction, offset) ← matchFraction rest
    guard (isOffset offset)
    some ⟨year, month, day, hour, minute, second, fraction, offset⟩
  | _ => none

/-- The date of a civil time, or an error when there is no such time. -/
def validateCivilTime (year month day hour minute second : ℕ) : Except Err Date :=
  if hour ≤ 23 ∧ minute ≤ 59 ∧ second ≤ 59 ∧ (Date.mk year month day).Valid then
    .ok ⟨year, month, day⟩
  else .error .invalidOccurrenceTime

/-- The seconds by which a matched offset is ahead of UTC. -/
def offsetSeconds : Text → Except Err ℤ
  | [sign, h1, h2, ':', m1, m2] =>
    match readDigits [h1, h2], readDigits [m1, m2] with
    | some hour, some minute =>
      if hour > 23 ∨ minute > 59 ∨ (sign = '-' ∧ hour = 0 ∧ minute = 0) then
        .error .invalidOccurrenceTime
      else
        .ok ((if sign = '+' then 1 else -1) * (hour * 3600 + minute * 60))
    | _, _ => .error .invalidOccurrenceTime
  | _ => .ok 0

/-- Parse strict RFC 3339 input and normalize it to signed UTC microseconds. -/
def parseOccurrenceTime (value : Text) : Except Err OccurrenceTime := do
  let m ← Fallible.get (matchRfc3339 value) .invalidOccurrenceTime
  let localDate ← validateCivilTime m.year m.month m.day m.hour m.minute m.second
  let microseconds := (readDigits (m.fraction.rightpad 6 '0')).getD 0
  let offset ← offsetSeconds m.offset
  let localDays : ℤ := localDate.toOrdinal - epochOrdinal
  let localSeconds : ℤ := localDays * 86400 + m.hour * 3600 + m.minute * 60 + m.second
  let utcMicroseconds := (localSeconds - offset) * microsecondsPerSecond + microseconds
  Fallible.check (InUtcRange utcMicroseconds) .invalidOccurrenceTime
  pure ⟨utcMicroseconds, formatUtcMicroseconds utcMicroseconds⟩

/-! ### Page identifiers -/

def pageIdScheme : Text := "page-v1"
def maxBaseSlugBytes : ℕ := 48
def maxPageIdBytes : ℕ := 80
def maxCollisionOrdinal : ℕ := 9999999999
def timestampPrefixBytes : ℕ := 19
def registryDomain : Bytes := utf8Encode "patchouli-page-id-v1" ++ [0]

/-- A generated identifier and the components that are stored beside it. -/
structure GeneratedPageId where
  value : Text
  timestampPrefix : Text
  baseSlug : Text
  collisionOrdinal : ℕ
deriving DecidableEq, Repr

/-- Floor to the earlier millisecond and format `YYYYMMDDtHHMMSSmmmz`. -/
def pageIdTimestampPrefix (u : ℤ) : Except Err Text := do
  Fallible.check (InUtcRange u) .invalidOccurrenceTime
  let canonical := formatUtcMicroseconds (u / 1000 * 1000)
  let slice := fun (i j : ℕ) => (canonical.drop i).take (j - i)
  pure (slice 0 4 ++ slice 5 7 ++ slice 8 10 ++ 't' :: slice 11 13 ++ slice 14 16 ++ slice 17 19 ++
    slice 20 23 ++ ['z'])

/-- The state of the slug loop. -/
structure SlugState where
  output : Text := []
  separatorPending : Bool := false
  asciiAlphanumericSeen : Bool := false
deriving DecidableEq, Repr

/-- Map one character of the title, or none when it is a separator. -/
def slugCharacter (c : Char) : Option Char :=
  if 'A' ≤ c ∧ c ≤ 'Z' then some (Char.ofNat (c.toNat + 32))
  else if ('a' ≤ c ∧ c ≤ 'z') ∨ isDigit c then some c
  else none

/-- One round of the slug loop. -/
def slugStep (s : SlugState) (c : Char) : SlugState :=
  match slugCharacter c with
  | none => { s with separatorPending := true }
  | some mapped =>
    let output := if s.separatorPending ∧ s.output ≠ [] ∧ s.output.length < maxBaseSlugBytes then
      s.output ++ ['-'] else s.output
    let output := if output.length < maxBaseSlugBytes then output ++ [mapped] else output
    ⟨output, false, true⟩

/-- The deterministic ASCII slug of a creation title. -/
def slugifyCreationTitle [Platform] (title : Text) : Text :=
  let s := title.foldl slugStep {}
  let slug := s.output.rdropWhile (· = '-')
  if s.asciiAlphanumericSeen ∧ slug ≠ [] then slug
  else "page-" ++ (hex (sha256 (utf8Encode title))).take 12

/-- `[a-z0-9]`. -/
def isSlugCharacter (c : Char) : Bool := ('a' ≤ c && c ≤ 'z') || isDigit c

/-- `[a-z0-9]+(?:-[a-z0-9]+)*`; the flag says whether a hyphen or the end may
stand here. -/
def matchSlug : Bool → Text → Bool
  | mayStop, [] => mayStop
  | mayStop, c :: cs =>
    if c = '-' then mayStop && matchSlug false cs else isSlugCharacter c && matchSlug true cs

def isValidBaseSlug (value : Text) : Bool :=
  1 ≤ value.length && value.length ≤ maxBaseSlugBytes && matchSlug false value

/-- `[2-9]|[1-9][0-9]{1,9}`. -/
def isOrdinalText : Text → Bool
  | [c] => '2' ≤ c && c ≤ '9'
  | c :: cs => '1' ≤ c && c ≤ '9' && cs.all isDigit && cs.length ≤ 9
  | [] => false

/-- `_PREFIX_PATTERN.fullmatch(value)` with a real civil time. -/
def isValidTimestampPrefix : Text → Bool
  | [y1, y2, y3, y4, o1, o2, d1, d2, 't', h1, h2, m1, m2, s1, s2, f1, f2, f3, 'z'] =>
    match readDigits [y1, y2, y3, y4], readDigits [o1, o2], readDigits [d1, d2],
      readDigits [h1, h2], readDigits [m1, m2], readDigits [s1, s2], readDigits [f1, f2, f3] with
    | some year, some month, some day, some hour, some minute, some second, some _ =>
      (validateCivilTime year month day hour minute second).toBool
    | _, _, _, _, _, _, _ => false
  | _ => false

/-- `value.rpartition("-")` when there is a hyphen. -/
def splitLastHyphen (value : Text) : Option (Text × Text) :=
  match (value.reverse.dropWhile (· ≠ '-')) with
  | [] => none
  | _ :: before => some (before.reverse, (value.reverse.takeWhile (· ≠ '-')).reverse)

/-- The part of a Page identifier after its prefix and hyphen. -/
def isSlugAndSuffix (text : Text) : Bool :=
  isValidBaseSlug text ||
    match splitLastHyphen text with
    | none => false
    | some (base, ordinal) =>
      isValidBaseSlug base && isOrdinalText ordinal &&
        (readDigits ordinal).any (· ≤ maxCollisionOrdinal)

/-- Validate the opaque page-v1 syntax. -/
def validatePageId (value : Text) : Except Err Text :=
  if 1 ≤ value.length ∧ value.length ≤ maxPageIdBytes ∧ value.all (·.toNat < 128) ∧
      timestampPrefixBytes + 1 < value.length ∧
      value[timestampPrefixBytes]? = some '-' ∧
      isValidTimestampPrefix (value.take timestampPrefixBytes) ∧
      isSlugAndSuffix (value.drop (timestampPrefixBytes + 1)) then
    .ok value
  else .error .invalidPageId

/-- The suffix of a collision ordinal. -/
def ordinalSuffix (ordinal : ℕ) : Text :=
  if ordinal = 1 then [] else '-' :: Nat.toDigits 10 ordinal

/-- Generate a page-v1 identifier and return its persisted components. -/
def generatePageId [Platform] (occurrenceTime : OccurrenceTime) (title : Text)
    (collisionOrdinal : ℕ) : Except Err GeneratedPageId := do
  let canonical ← canonicalUtcWire occurrenceTime.utcMicroseconds
  Fallible.check (occurrenceTime.canonicalUtc = canonical) .invalidOccurrenceTime
  Fallible.check (1 ≤ collisionOrdinal ∧ collisionOrdinal ≤ maxCollisionOrdinal) .invalidPageId
  let timestampPrefix ← pageIdTimestampPrefix occurrenceTime.utcMicroseconds
  let slug := slugifyCreationTitle title
  let value := timestampPrefix ++ '-' :: slug ++ ordinalSuffix collisionOrdinal
  let _ ← validatePageId value
  pure ⟨value, timestampPrefix, slug, collisionOrdinal⟩

/-- Hash validated identifier text with the page-v1 domain separator. -/
def pageIdRegistryDigest [Platform] (identifierText : Text) : Except Err Bytes := do
  let validated ← validatePageId identifierText
  pure (sha256 (registryDomain ++ utf8Encode validated))

/-! ### The round trip of a time -/

theorem toNat_ofNat_digit {d : ℕ} (hd : d < 10) : (Char.ofNat (48 + d)).toNat = 48 + d := by
  have key : ∀ d < 10, (Char.ofNat (48 + d)).toNat = 48 + d := by decide
  exact key d hd

theorem isDigit_ofNat {d : ℕ} (hd : d < 10) : isDigit (Char.ofNat (48 + d)) = true := by
  have key : ∀ d < 10, isDigit (Char.ofNat (48 + d)) = true := by decide
  exact key d hd

theorem all_isDigit_decimal (w n : ℕ) : ∀ c ∈ decimal w n, isDigit c = true := by
  induction w with
  | zero => simp [decimal]
  | succ w ih =>
    intro c hc
    rcases List.mem_cons.mp hc with rfl | hc
    · exact isDigit_ofNat (Nat.mod_lt _ (by decide))
    · exact ih c hc

@[simp] theorem length_decimal (w n : ℕ) : (decimal w n).length = w := by
  induction w with
  | zero => rfl
  | succ w ih => rw [decimal, List.length_cons, ih]

/-- Reading the digits of a number adds its low part to what was read before. -/
theorem foldlM_decimal (w n acc : ℕ) :
    (decimal w n).foldlM (fun n c => if isDigit c then some (n * 10 + (c.toNat - 48)) else none)
      acc = some (acc * 10 ^ w + n % 10 ^ w) := by
  induction w generalizing acc with
  | zero => simp [decimal, Nat.mod_one]
  | succ w ih =>
    have hd : n / 10 ^ w % 10 < 10 := Nat.mod_lt _ (by decide)
    rw [decimal, List.foldlM_cons, isDigit_ofNat hd, toNat_ofNat_digit hd]
    simp only [↓reduceIte, Option.bind_eq_bind, Option.bind_some, ih]
    rw [Nat.pow_succ, Nat.mod_mul, Nat.add_sub_cancel_left]
    congr 1
    ring

theorem readDigits_decimal {w n : ℕ} (h : n < 10 ^ w) : readDigits (decimal w n) = some n := by
  rw [readDigits, foldlM_decimal, Nat.mod_eq_of_lt h, Nat.zero_mul, Nat.zero_add]

theorem matchFraction_decimal {f : ℕ} :
    matchFraction ('.' :: decimal 6 f ++ ['Z']) = some (decimal 6 f, ['Z']) := by
  have hz : isDigit 'Z' = false := by decide
  have hall := all_isDigit_decimal 6 f
  rw [List.cons_append, matchFraction, List.takeWhile_append_of_pos hall,
    List.dropWhile_append_of_pos hall]
  simp [hz]

/-- The pattern finds the fields the formatter wrote. -/
theorem matchRfc3339_decimal {year month day hour minute second : ℕ} (fraction : ℕ)
    (hy : year < 10000) (ho : month < 100) (hd : day < 100) (hh : hour < 100) (hm : minute < 100)
    (hs : second < 100) :
    matchRfc3339 (decimal 4 year ++ '-' :: decimal 2 month ++ '-' :: decimal 2 day ++
      'T' :: decimal 2 hour ++ ':' :: decimal 2 minute ++ ':' :: decimal 2 second ++
      '.' :: decimal 6 fraction ++ ['Z']) =
    some ⟨year, month, day, hour, minute, second, decimal 6 fraction, ['Z']⟩ := by
  change (do
    guard ('T' = 'T' ∨ 'T' = 't')
    let year ← readDigits (decimal 4 year)
    let month ← readDigits (decimal 2 month)
    let day ← readDigits (decimal 2 day)
    let hour ← readDigits (decimal 2 hour)
    let minute ← readDigits (decimal 2 minute)
    let second ← readDigits (decimal 2 second)
    let (fraction, offset) ← matchFraction ('.' :: decimal 6 fraction ++ ['Z'])
    guard (isOffset offset)
    some (Rfc3339Match.mk year month day hour minute second fraction offset)) = _
  rw [readDigits_decimal (w := 4) (by omega), readDigits_decimal (w := 2) (by omega),
    readDigits_decimal (w := 2) (by omega), readDigits_decimal (w := 2) (by omega),
    readDigits_decimal (w := 2) (by omega), readDigits_decimal (w := 2) (by omega),
    matchFraction_decimal]
  rfl

/-- **Parsing the wire text of a time gives the time back.** -/
theorem parseOccurrenceTime_format {u : ℤ} (hu : InUtcRange u) :
    parseOccurrenceTime (formatUtcMicroseconds u) = .ok ⟨u, formatUtcMicroseconds u⟩ := by
  obtain ⟨hlow, hhigh⟩ := hu
  simp only [minUtcMicroseconds, maxUtcMicroseconds, microsecondsPerDay, microsecondsPerSecond,
    epochOrdinal, maxOrdinal] at hlow hhigh
  -- the ordinal of the day is in the calendar, and its date is a real one
  have h1 : 1 ≤ (epochOrdinal + u / microsecondsPerDay).toNat := by
    simp only [microsecondsPerDay, microsecondsPerSecond, epochOrdinal]
    omega
  have h2 : (epochOrdinal + u / microsecondsPerDay).toNat ≤ maxOrdinal := by
    simp only [microsecondsPerDay, microsecondsPerSecond, epochOrdinal, maxOrdinal]
    omega
  have hvalid := Date.valid_ofOrdinal h1 h2
  have hordinal := Date.toOrdinal_ofOrdinal h1 h2
  obtain ⟨-, hy, -, ho, -, hd⟩ := hvalid
  have hdays : ∀ leap m, daysInMonth leap m ≤ 31 := by
    intro leap m
    unfold daysInMonth
    split <;> (try split) <;> omega
  have hd31 := hd.trans (hdays _ _)
  generalize hdate : Date.ofOrdinal (epochOrdinal + u / microsecondsPerDay).toNat = date at *
  generalize hmicro : (u % microsecondsPerDay).toNat = t
  have ht : t < 86400000000 := by
    rw [← hmicro]
    simp only [microsecondsPerDay, microsecondsPerSecond]
    omega
  have hformat : formatUtcMicroseconds u =
      decimal 4 date.year ++ '-' :: decimal 2 date.month ++ '-' :: decimal 2 date.day ++
        'T' :: decimal 2 (t / 1000000 / 3600) ++ ':' :: decimal 2 (t / 1000000 % 3600 / 60) ++
        ':' :: decimal 2 (t / 1000000 % 3600 % 60) ++ '.' :: decimal 6 (t % 1000000) ++ ['Z'] := by
    rw [← hdate, ← hmicro]
    rfl
  have hmatch := matchRfc3339_decimal (t % 1000000) (by omega : date.year < 10000)
    (by omega : date.month < 100) (by omega : date.day < 100)
    (by omega : t / 1000000 / 3600 < 100) (by omega : t / 1000000 % 3600 / 60 < 100)
    (by omega : t / 1000000 % 3600 % 60 < 100)
  rw [← hformat] at hmatch
  have hcivil : validateCivilTime date.year date.month date.day (t / 1000000 / 3600)
      (t / 1000000 % 3600 / 60) (t / 1000000 % 3600 % 60) = .ok date := by
    rw [validateCivilTime, if_pos ⟨by omega, by omega, by omega, by
      rw [← hdate]; exact Date.valid_ofOrdinal h1 h2⟩]
  have hfraction : (readDigits ((decimal 6 (t % 1000000)).rightpad 6 '0')).getD 0 =
      t % 1000000 := by
    rw [List.rightpad, length_decimal, Nat.sub_self, List.replicate_zero, List.append_nil,
      readDigits_decimal (by omega)]
    rfl
  have hvalue : (((date.toOrdinal : ℤ) - epochOrdinal) * 86400 + (t / 1000000 / 3600 : ℕ) * 3600 +
      (t / 1000000 % 3600 / 60 : ℕ) * 60 + (t / 1000000 % 3600 % 60 : ℕ) - 0) *
      microsecondsPerSecond + (t % 1000000 : ℕ) = u := by
    rw [hordinal]
    simp only [microsecondsPerDay, microsecondsPerSecond, epochOrdinal] at hmicro ⊢
    omega
  have hrange : InUtcRange u := by
    simp only [InUtcRange, minUtcMicroseconds, maxUtcMicroseconds, microsecondsPerDay,
      microsecondsPerSecond, epochOrdinal, maxOrdinal]
    omega
  simp only [parseOccurrenceTime, hmatch, Fallible.get, hcivil, hfraction, offsetSeconds,
    Fallible.ok_bind, hvalue, Fallible.check_of hrange]
  rfl

theorem canonicalUtcWire_ok {u : ℤ} {t : Text} :
    canonicalUtcWire u = .ok t ↔ InUtcRange u ∧ formatUtcMicroseconds u = t := by
  unfold canonicalUtcWire
  split <;> simp_all

end PatchouliLib
