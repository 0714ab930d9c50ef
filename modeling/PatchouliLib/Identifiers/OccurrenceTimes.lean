import PatchouliLib.Identifiers.CollisionOrdinals

/-!
# The occurrence times the parser accepts

An RFC 3339 text is put together from its parts: the digits of the local date
and time, up to six fraction digits, and an offset.  The parts name an instant
when the date is one of the calendar, the clock is one of a day and the offset
is known.  The parser accepts the texts whose instant lies in the calendar, and
returns that instant with its canonical text.

## Main definitions

* `Rfc3339`, `Rfc3339.text` — the parts of a text, and the text.
* `Rfc3339.WellFormed`, `Rfc3339.Real` — the grammar, and when the parts name an instant.
* `Rfc3339.instant`, `Denotes` — the instant of the parts, and of a text.
* `InCalendar` — the instants of the days of the calendar.

## Main results

* `parseOccurrenceTime_ok` — **the parser reads the instant a text denotes.**
* `parseOccurrenceTime_exact` — **the canonical text of a time is read back, it
  denotes what the parsed text denotes, and no other text is accepted than those
  of the grammar with an instant in the calendar.**
-/

namespace PatchouliLib

open Foundation

/-! ### Numerals -/

/-- `[0-9]{w}`. -/
def IsNumeral (w : ℕ) (t : Text) : Prop := t.length = w ∧ ∀ c ∈ t, isDigit c = true

/-- The number that digits name. -/
def numeralValue (t : Text) : ℕ := Nat.ofDigitChars 10 t 0

theorem readDigits_eq {cs : Text} (h : ∀ c ∈ cs, isDigit c = true) :
    readDigits cs = some (numeralValue cs) := by
  have hfold : ∀ (rest : Text) (n : ℕ), (∀ c ∈ rest, isDigit c = true) →
      rest.foldlM (fun n c => if isDigit c then some (n * 10 + (c.toNat - 48)) else none) n =
        some (Nat.ofDigitChars 10 rest n) := by
    intro rest
    induction rest with
    | nil => exact fun _ _ => rfl
    | cons c rest ih =>
      intro n hrest
      rw [List.foldlM_cons, if_pos (hrest c List.mem_cons_self), Nat.ofDigitChars_cons,
        Nat.mul_comm 10 n]
      exact ih _ fun x hx => hrest x (List.mem_cons_of_mem c hx)
  exact hfold cs 0 h

/-- Only digits are read. -/
theorem isDigit_of_readDigits {cs : Text} {n : ℕ} (h : readDigits cs = some n) :
    ∀ c ∈ cs, isDigit c = true := by
  have hfold : ∀ (rest : Text) (n m : ℕ),
      rest.foldlM (fun n c => if isDigit c then some (n * 10 + (c.toNat - 48)) else none) n =
        some m → ∀ c ∈ rest, isDigit c = true := by
    intro rest
    induction rest with
    | nil => exact fun _ _ _ c hc => absurd hc List.not_mem_nil
    | cons d rest ih =>
      intro n m hread c hc
      rw [List.foldlM_cons] at hread
      by_cases hd : isDigit d = true
      · rw [if_pos hd] at hread
        rcases List.mem_cons.mp hc with rfl | hc
        · exact hd
        · exact ih _ _ hread c hc
      · rw [if_neg hd] at hread
        cases hread
  exact hfold cs 0 n h

theorem readDigits_eq_some {cs : Text} {n : ℕ} :
    readDigits cs = some n ↔ (∀ c ∈ cs, isDigit c = true) ∧ numeralValue cs = n := by
  constructor
  · intro h
    have hdigits := isDigit_of_readDigits h
    rw [readDigits_eq hdigits] at h
    exact ⟨hdigits, Option.some.inj h⟩
  · rintro ⟨hdigits, rfl⟩
    exact readDigits_eq hdigits

theorem IsNumeral.two {t : Text} (h : IsNumeral 2 t) : ∃ a b, t = [a, b] :=
  List.length_eq_two.mp h.1

theorem IsNumeral.four {t : Text} (h : IsNumeral 4 t) : ∃ a b c d, t = [a, b, c, d] := by
  obtain ⟨hlength, -⟩ := h
  match t, hlength with
  | [a, b, c, d], _ => exact ⟨a, b, c, d, rfl⟩

/-- A numeral of zeros names zero, and no other does. -/
theorem numeralValue_eq_zero {t : Text} (h : ∀ c ∈ t, isDigit c = true) :
    numeralValue t = 0 ↔ ∀ c ∈ t, c = '0' := by
  induction t using List.reverseRecOn with
  | nil => simp [numeralValue]
  | append_singleton t c ih =>
    have hc := h c (by simp)
    have ht := ih fun x hx => h x (by simp [hx])
    rw [numeralValue, Nat.ofDigitChars_append, Nat.ofDigitChars_cons, Nat.ofDigitChars_nil,
      Nat.add_eq_zero_iff, Nat.mul_eq_zero]
    have hzero : c.toNat - '0'.toNat = 0 ↔ c = '0' := by
      constructor
      · intro hsub
        rw [isDigit, Bool.and_eq_true, decide_eq_true_eq, decide_eq_true_eq] at hc
        have hlow : '0'.toNat ≤ c.toNat := hc.1
        exact Char.toNat_inj.mp (by omega)
      · rintro rfl
        rfl
    rw [numeralValue] at ht
    rw [hzero, ht, List.forall_mem_append, List.forall_mem_singleton]
    simp

/-! ### The grammar -/

/-- The offset of an RFC 3339 text. -/
inductive Rfc3339Offset
  | zulu (mark : Char)
  | numeric (sign : Char) (hour minute : Text)

namespace Rfc3339Offset

def text : Rfc3339Offset → Text
  | zulu mark => [mark]
  | numeric sign hour minute => sign :: hour ++ ':' :: minute

/-- `[Zz]|[+-][0-9]{2}:[0-9]{2}`. -/
def WellFormed : Rfc3339Offset → Prop
  | zulu mark => mark = 'Z' ∨ mark = 'z'
  | numeric sign hour minute => (sign = '+' ∨ sign = '-') ∧ IsNumeral 2 hour ∧ IsNumeral 2 minute

/-- The offset is a known one of less than a day. -/
def Real : Rfc3339Offset → Prop
  | zulu _ => True
  | numeric sign hour minute => numeralValue hour ≤ 23 ∧ numeralValue minute ≤ 59 ∧
      (numeric sign hour minute).text ≠ "-00:00"

/-- The seconds by which local time is ahead of UTC. -/
def seconds : Rfc3339Offset → ℤ
  | zulu _ => 0
  | numeric sign hour minute =>
    (if sign = '+' then 1 else -1) * (numeralValue hour * 3600 + numeralValue minute * 60)

end Rfc3339Offset

/-- The parts of an RFC 3339 text. -/
structure Rfc3339 where
  year : Text
  month : Text
  day : Text
  mark : Char
  hour : Text
  minute : Text
  second : Text
  fraction : Text
  offset : Rfc3339Offset

namespace Rfc3339

/-- The fraction with its point, when there is one. -/
def fractionText (fraction : Text) : Text := if fraction = [] then [] else '.' :: fraction

/-- The text of the parts. -/
def text (p : Rfc3339) : Text :=
  p.year ++ '-' :: p.month ++ '-' :: p.day ++ p.mark :: p.hour ++ ':' :: p.minute ++
    ':' :: p.second ++ fractionText p.fraction ++ p.offset.text

/-- The grammar of the parts. -/
structure WellFormed (p : Rfc3339) : Prop where
  year : IsNumeral 4 p.year
  month : IsNumeral 2 p.month
  day : IsNumeral 2 p.day
  mark : p.mark = 'T' ∨ p.mark = 't'
  hour : IsNumeral 2 p.hour
  minute : IsNumeral 2 p.minute
  second : IsNumeral 2 p.second
  fraction : p.fraction.length ≤ 6 ∧ ∀ c ∈ p.fraction, isDigit c = true
  offset : p.offset.WellFormed

/-- The local date. -/
def date (p : Rfc3339) : Date :=
  ⟨numeralValue p.year, numeralValue p.month, numeralValue p.day⟩

/-- The parts name an instant. -/
structure Real (p : Rfc3339) : Prop where
  date : p.date.Valid
  hour : numeralValue p.hour ≤ 23
  minute : numeralValue p.minute ≤ 59
  second : numeralValue p.second ≤ 59
  offset : p.offset.Real

/-- The microseconds that the fraction digits name. -/
def microseconds (p : Rfc3339) : ℕ :=
  numeralValue p.fraction * 10 ^ (6 - p.fraction.length)

/-- The instant of the parts, in microseconds since the epoch. -/
def instant (p : Rfc3339) : ℤ :=
  ((p.date.toOrdinal - epochOrdinal) * 86400 + numeralValue p.hour * 3600 +
    numeralValue p.minute * 60 + numeralValue p.second - p.offset.seconds) *
    microsecondsPerSecond + p.microseconds

/-- The groups the pattern finds in the text. -/
def groups (p : Rfc3339) : Rfc3339Match :=
  ⟨numeralValue p.year, numeralValue p.month, numeralValue p.day, numeralValue p.hour,
    numeralValue p.minute, numeralValue p.second, p.fraction, p.offset.text⟩

end Rfc3339

/-- The text names the instant. -/
def Denotes (s : Text) (u : ℤ) : Prop :=
  ∃ p : Rfc3339, p.WellFormed ∧ p.text = s ∧ p.Real ∧ p.instant = u

/-- The instant is on one of the days of the years 1 to 9999. -/
def InCalendar (u : ℤ) : Prop :=
  ∃ d : Date, d.Valid ∧ (d.toOrdinal - epochOrdinal) * microsecondsPerDay ≤ u ∧
    u < (d.toOrdinal - epochOrdinal + 1) * microsecondsPerDay

/-! ### The pattern -/

theorem isOffset_iff {t : Text} :
    isOffset t = true ↔ ∃ offset : Rfc3339Offset, offset.WellFormed ∧ offset.text = t := by
  constructor
  · intro h
    unfold isOffset at h
    split at h
    · exact ⟨.zulu 'Z', .inl rfl, rfl⟩
    · exact ⟨.zulu 'z', .inr rfl, rfl⟩
    · next sign h1 h2 m1 m2 =>
      simp only [Bool.and_eq_true, Bool.or_eq_true, decide_eq_true_eq] at h
      obtain ⟨⟨⟨⟨hsign, hh1⟩, hh2⟩, hm1⟩, hm2⟩ := h
      exact ⟨.numeric sign [h1, h2] [m1, m2], ⟨hsign, ⟨rfl, by simp [hh1, hh2]⟩,
        ⟨rfl, by simp [hm1, hm2]⟩⟩, rfl⟩
    · cases h
  · rintro ⟨offset, hformed, rfl⟩
    cases offset with
    | zulu mark => rcases hformed with rfl | rfl <;> rfl
    | numeric sign hour minute =>
      obtain ⟨hsign, hhour, hminute⟩ := hformed
      obtain ⟨h1, h2, rfl⟩ := hhour.two
      obtain ⟨m1, m2, rfl⟩ := hminute.two
      have hh := hhour.2
      have hm := hminute.2
      simp only [List.forall_mem_cons] at hh hm
      have hmatch : isOffset [sign, h1, h2, ':', m1, m2] = true := by
        rcases hsign with rfl | rfl <;> simp [isOffset, hh, hm]
      exact hmatch

/-- An offset does not begin with a digit or a point. -/
theorem Rfc3339Offset.WellFormed.text_eq_cons {offset : Rfc3339Offset} (h : offset.WellFormed) :
    ∃ c cs, offset.text = c :: cs ∧ isDigit c = false ∧ c ≠ '.' := by
  cases offset with
  | zulu mark => exact ⟨mark, [], rfl, by rcases h with rfl | rfl <;> decide⟩
  | numeric sign hour minute =>
    exact ⟨sign, _, rfl, by rcases h.1 with rfl | rfl <;> decide⟩

/-- The pattern splits the fraction off the offset. -/
theorem matchFraction_text {fraction : Text} {offset : Rfc3339Offset}
    (hfraction : fraction.length ≤ 6 ∧ ∀ c ∈ fraction, isDigit c = true)
    (hoffset : offset.WellFormed) :
    matchFraction (Rfc3339.fractionText fraction ++ offset.text) =
      some (fraction, offset.text) := by
  obtain ⟨c, cs, htext, hdigit, hpoint⟩ := hoffset.text_eq_cons
  obtain ⟨hlength, hdigits⟩ := hfraction
  rw [htext]
  by_cases hempty : fraction = []
  · rw [hempty, Rfc3339.fractionText, if_pos rfl, List.nil_append]
    unfold matchFraction
    split
    · next heq => exact absurd (List.cons.inj heq).1 hpoint
    · rfl
  · have hpositive : 1 ≤ fraction.length := List.length_pos_iff.mpr hempty
    rw [Rfc3339.fractionText, if_neg hempty, List.cons_append, matchFraction,
      List.takeWhile_append_of_pos hdigits, List.dropWhile_append_of_pos hdigits,
      List.takeWhile_cons_of_neg (by simp [hdigit]), List.dropWhile_cons_of_neg (by simp [hdigit]),
      List.append_nil, if_pos ⟨hpositive, hlength⟩]

theorem text_of_matchFraction {rest fraction offset : Text}
    (h : matchFraction rest = some (fraction, offset)) :
    (fraction.length ≤ 6 ∧ ∀ c ∈ fraction, isDigit c = true) ∧
      Rfc3339.fractionText fraction ++ offset = rest := by
  unfold matchFraction at h
  split at h
  · next rest =>
    dsimp only at h
    split at h
    · next hlength =>
      obtain ⟨rfl, rfl⟩ := Prod.mk.inj (Option.some.inj h)
      refine ⟨⟨hlength.2, fun c hc => List.mem_takeWhile_imp hc⟩, ?_⟩
      rw [Rfc3339.fractionText, if_neg (List.length_pos_iff.mp hlength.1), List.cons_append,
        List.takeWhile_append_dropWhile]
    · cases h
  · obtain ⟨rfl, rfl⟩ := Prod.mk.inj (Option.some.inj h)
    exact ⟨⟨Nat.zero_le _, fun c hc => absurd hc List.not_mem_nil⟩, rfl⟩

/-- **The pattern finds the parts of the texts of the grammar**, and matches no other. -/
theorem matchRfc3339_eq_some {s : Text} {m : Rfc3339Match} :
    matchRfc3339 s = some m ↔ ∃ p : Rfc3339, p.WellFormed ∧ p.text = s ∧ p.groups = m := by
  constructor
  · intro h
    unfold matchRfc3339 at h
    split at h
    · next y1 y2 y3 y4 o1 o2 d1 d2 t h1 h2 m1 m2 s1 s2 rest =>
      simp only [Option.bind_eq_bind, Option.bind_eq_some_iff, readDigits_eq_some,
        Option.guard_eq_some', Option.some.injEq, Prod.exists] at h
      obtain ⟨-, hmark, year, ⟨hyear, rfl⟩, month, ⟨hmonth, rfl⟩, day, ⟨hday, rfl⟩, hour,
        ⟨hhour, rfl⟩, minute, ⟨hminute, rfl⟩, second, ⟨hsecond, rfl⟩, fraction, offset,
        hfraction, -, hoffset, rfl⟩ := h
      obtain ⟨hdigits, htext⟩ := text_of_matchFraction hfraction
      obtain ⟨offset, hformed, rfl⟩ := isOffset_iff.mp hoffset
      refine ⟨⟨[y1, y2, y3, y4], [o1, o2], [d1, d2], t, [h1, h2], [m1, m2], [s1, s2], fraction,
        offset⟩, ⟨⟨rfl, hyear⟩, ⟨rfl, hmonth⟩, ⟨rfl, hday⟩, hmark, ⟨rfl, hhour⟩, ⟨rfl, hminute⟩,
        ⟨rfl, hsecond⟩, hdigits, hformed⟩, ?_, rfl⟩
      rw [Rfc3339.text, ← htext, List.append_assoc]
      rfl
    · cases h
  · rintro ⟨p, hp, rfl, rfl⟩
    obtain ⟨year, month, day, mark, hour, minute, second, fraction, offset⟩ := p
    obtain ⟨hyear, hmonth, hday, hmark, hhour, hminute, hsecond, hfraction, hoffset⟩ := hp
    obtain ⟨y1, y2, y3, y4, rfl⟩ := hyear.four
    obtain ⟨o1, o2, rfl⟩ := hmonth.two
    obtain ⟨d1, d2, rfl⟩ := hday.two
    obtain ⟨h1, h2, rfl⟩ := hhour.two
    obtain ⟨m1, m2, rfl⟩ := hminute.two
    obtain ⟨s1, s2, rfl⟩ := hsecond.two
    change matchRfc3339 (y1 :: y2 :: y3 :: y4 :: '-' :: o1 :: o2 :: '-' :: d1 :: d2 :: mark :: h1 ::
      h2 :: ':' :: m1 :: m2 :: ':' :: s1 :: s2 ::
        (Rfc3339.fractionText fraction ++ offset.text)) = _
    rw [matchRfc3339, readDigits_eq hyear.2, readDigits_eq hmonth.2, readDigits_eq hday.2, readDigits_eq hhour.2,
      readDigits_eq hminute.2, readDigits_eq hsecond.2, matchFraction_text hfraction hoffset]
    have hmatch : isOffset offset.text = true := isOffset_iff.mpr ⟨offset, hoffset, rfl⟩
    simp [guard, hmark, hmatch, Rfc3339.groups]

/-! ### The parser -/

theorem numeralValue_zeros (n : ℕ) (t : Text) :
    numeralValue (t ++ List.replicate n '0') = numeralValue t * 10 ^ n := by
  rw [numeralValue, Nat.ofDigitChars_append, Nat.ofDigitChars_replicate_zero, numeralValue,
    Nat.mul_comm]

/-- The digits are filled up with zeros on the right. -/
theorem readDigits_rightpad {fraction : Text} (h : ∀ c ∈ fraction, isDigit c = true) :
    readDigits (fraction.rightpad 6 '0') =
      some (numeralValue fraction * 10 ^ (6 - fraction.length)) := by
  have hdigits : ∀ c ∈ fraction.rightpad 6 '0', isDigit c = true := by
    intro c hc
    rcases List.mem_append.mp hc with hc | hc
    · exact h c hc
    · rw [List.eq_of_mem_replicate hc]
      decide
  rw [readDigits_eq hdigits, List.rightpad, numeralValue_zeros]

/-- The offset of a text is read when it is a known one. -/
theorem offsetSeconds_ok {offset : Rfc3339Offset} (h : offset.WellFormed) {n : ℤ} :
    offsetSeconds offset.text = .ok n ↔ offset.Real ∧ offset.seconds = n := by
  cases offset with
  | zulu mark => exact ⟨fun h => ⟨trivial, Except.ok.inj h⟩, fun h => congrArg Except.ok h.2⟩
  | numeric sign hour minute =>
    obtain ⟨hsign, hhour, hminute⟩ := h
    obtain ⟨h1, h2, rfl⟩ := hhour.two
    obtain ⟨m1, m2, rfl⟩ := hminute.two
    have hzero : (sign = '-' ∧ numeralValue [h1, h2] = 0 ∧ numeralValue [m1, m2] = 0) ↔
        (Rfc3339Offset.numeric sign [h1, h2] [m1, m2]).text = "-00:00" := by
      rw [numeralValue_eq_zero hhour.2, numeralValue_eq_zero hminute.2]
      simp [Rfc3339Offset.text, and_assoc]
    change offsetSeconds [sign, h1, h2, ':', m1, m2] = .ok n ↔ _
    rw [offsetSeconds, readDigits_eq hhour.2, readDigits_eq hminute.2]
    dsimp only
    split
    · next hbad =>
      rw [hzero] at hbad
      constructor
      · intro h
        cases h
      rintro ⟨⟨hlow, hhigh, hknown⟩, -⟩
      rcases hbad with hbad | hbad | hbad
      · omega
      · omega
      · exact absurd hbad hknown
    · next hgood =>
      rw [hzero] at hgood
      simp only [not_or, not_lt] at hgood
      exact ⟨fun h => ⟨hgood, Except.ok.inj h⟩, fun h => congrArg Except.ok h.2⟩

/-- **The parser reads the instant a text denotes.** -/
theorem parseOccurrenceTime_ok {s : Text} {t : OccurrenceTime} :
    parseOccurrenceTime s = .ok t ↔ Denotes s t.utcMicroseconds ∧ InUtcRange t.utcMicroseconds ∧
      t.canonicalUtc = formatUtcMicroseconds t.utcMicroseconds := by
  have hcivil {year month day hour minute second : ℕ} {date : Date} :
      validateCivilTime year month day hour minute second = .ok date ↔
        (hour ≤ 23 ∧ minute ≤ 59 ∧ second ≤ 59 ∧ (Date.mk year month day).Valid) ∧
          ⟨year, month, day⟩ = date := by
    unfold validateCivilTime
    split
    · next h => simp [h]
    · next h => simp [h]
  simp only [parseOccurrenceTime, Fallible.bind_ok, Fallible.get_ok, Fallible.check_ok,
    Fallible.pure_ok, matchRfc3339_eq_some, hcivil, exists_const]
  constructor
  · rintro ⟨_, ⟨p, hp, rfl, rfl⟩, _, ⟨⟨hhour, hminute, hsecond, hdate⟩, rfl⟩, offset, hoffset,
      hrange, rfl⟩
    obtain ⟨hreal, rfl⟩ := (offsetSeconds_ok hp.offset).mp hoffset
    have hmicroseconds : (readDigits (p.groups.fraction.rightpad 6 '0')).getD 0 =
        p.microseconds := by
      rw [Rfc3339.groups, readDigits_rightpad hp.fraction.2]
      rfl
    rw [hmicroseconds] at hrange ⊢
    exact ⟨⟨p, hp, rfl, ⟨hdate, hhour, hminute, hsecond, hreal⟩, rfl⟩, hrange, rfl⟩
  · rintro ⟨⟨p, hp, rfl, hreal, hinstant⟩, hrange, hcanonical⟩
    have hmicroseconds : (readDigits (p.groups.fraction.rightpad 6 '0')).getD 0 =
        p.microseconds := by
      rw [Rfc3339.groups, readDigits_rightpad hp.fraction.2]
      rfl
    refine ⟨p.groups, ⟨p, hp, rfl, rfl⟩, p.date,
      ⟨⟨hreal.hour, hreal.minute, hreal.second, hreal.date⟩, rfl⟩, p.offset.seconds,
      (offsetSeconds_ok hp.offset).mpr ⟨hreal.offset, rfl⟩, ?_⟩
    rw [hmicroseconds]
    obtain ⟨u, canonical⟩ := t
    obtain rfl : canonical = formatUtcMicroseconds u := hcanonical
    obtain rfl : p.instant = u := hinstant
    exact ⟨hrange, rfl⟩

/-- The times the calendar can spell are those of its days. -/
theorem inUtcRange_iff {u : ℤ} : InUtcRange u ↔ InCalendar u := by
  constructor
  · rintro ⟨hlow, hhigh⟩
    simp only [minUtcMicroseconds, maxUtcMicroseconds, microsecondsPerDay, microsecondsPerSecond,
      epochOrdinal, maxOrdinal] at hlow hhigh
    have h1 : 1 ≤ (epochOrdinal + u / microsecondsPerDay).toNat := by
      simp only [microsecondsPerDay, microsecondsPerSecond, epochOrdinal]
      omega
    have h2 : (epochOrdinal + u / microsecondsPerDay).toNat ≤ maxOrdinal := by
      simp only [microsecondsPerDay, microsecondsPerSecond, epochOrdinal, maxOrdinal]
      omega
    refine ⟨_, Date.valid_ofOrdinal h1 h2, ?_⟩
    rw [Date.toOrdinal_ofOrdinal h1 h2]
    simp only [microsecondsPerDay, microsecondsPerSecond, epochOrdinal]
    omega
  · rintro ⟨d, hd, hlow, hhigh⟩
    obtain ⟨h1, h2⟩ := hd.toOrdinal_mem
    simp only [InUtcRange, minUtcMicroseconds, maxUtcMicroseconds, microsecondsPerDay,
      microsecondsPerSecond, epochOrdinal, maxOrdinal] at hlow hhigh h2 ⊢
    omega

theorem canonicalUtcWire_iff {u : ℤ} {wire : Text} :
    canonicalUtcWire u = .ok wire ↔ parseOccurrenceTime wire = .ok ⟨u, wire⟩ := by
  rw [canonicalUtcWire_ok]
  constructor
  · rintro ⟨hu, rfl⟩
    exact parseOccurrenceTime_format hu
  · intro h
    obtain ⟨-, hu, hcanonical⟩ := parseOccurrenceTime_ok.mp h
    exact ⟨hu, hcanonical.symm⟩

/-- **Canonical texts and accepted texts.**  The canonical text of a time in the calendar is read
back.  The canonical text of an accepted text denotes the same instant, parses to the same value
and is its own canonical text.  Accepted are the texts of the grammar that denote an instant in
the calendar. -/
theorem parseOccurrenceTime_exact :
    (∀ u, InCalendar u → ∃ wire, canonicalUtcWire u = .ok wire ∧
      ∃ t, parseOccurrenceTime wire = .ok t ∧ t.utcMicroseconds = u) ∧
    (∀ s t, parseOccurrenceTime s = .ok t →
      Denotes s t.utcMicroseconds ∧ Denotes t.canonicalUtc t.utcMicroseconds ∧
      parseOccurrenceTime t.canonicalUtc = .ok t ∧
      canonicalUtcWire t.utcMicroseconds = .ok t.canonicalUtc) ∧
    ∀ s, (∃ t, parseOccurrenceTime s = .ok t) ↔
      ∃ p : Rfc3339, p.WellFormed ∧ p.text = s ∧ p.Real ∧ InCalendar p.instant := by
  refine ⟨fun u hu => ?_, fun s t h => ?_, fun s => ?_⟩
  · have hrange := inUtcRange_iff.mpr hu
    exact ⟨_, canonicalUtcWire_ok.mpr ⟨hrange, rfl⟩, _, parseOccurrenceTime_format hrange, rfl⟩
  · obtain ⟨hdenotes, hrange, hcanonical⟩ := parseOccurrenceTime_ok.mp h
    have hback := parseOccurrenceTime_format hrange
    rw [← hcanonical] at hback
    exact ⟨hdenotes, (parseOccurrenceTime_ok.mp hback).1, hback, canonicalUtcWire_iff.mpr hback⟩
  · constructor
    · rintro ⟨t, h⟩
      obtain ⟨⟨p, hp, htext, hreal, hinstant⟩, hrange, -⟩ := parseOccurrenceTime_ok.mp h
      rw [← hinstant] at hrange
      exact ⟨p, hp, htext, hreal, inUtcRange_iff.mp hrange⟩
    · rintro ⟨p, hp, htext, hreal, hcalendar⟩
      exact ⟨⟨p.instant, formatUtcMicroseconds p.instant⟩, parseOccurrenceTime_ok.mpr
        ⟨⟨p, hp, htext, hreal, rfl⟩, inUtcRange_iff.mpr hcalendar, rfl⟩⟩

/-- A leap day that is read with an offset behind UTC is the next day in UTC. -/
example : parseOccurrenceTime "2024-02-29T23:30:00.5-01:00" =
    .ok ⟨1709253000500000, "2024-03-01T00:30:00.500000Z"⟩ := by
  decide +kernel

end PatchouliLib
