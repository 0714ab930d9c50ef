import PatchouliLib.Identifiers.OccurrenceTimes

/-!
# The Page identifiers the check accepts

A Page identifier is the civil time of a millisecond, a slug and from the second
collision on an ordinal.  The syntax check accepts the identifiers the generator
can return, and no others: every civil time is that of a millisecond in the
calendar, a slug is the slug of the title that spells it, and an ordinal has one
numeral.  The text of a later millisecond stands behind that of an earlier one.

## Main definitions

* `CivilTime`, `CivilTime.text` — a civil time to the millisecond and its prefix.
* `CivilTime.milliseconds` — the milliseconds since the epoch.

## Main results

* `CivilTime.text_lt` — **a later millisecond has a greater prefix.**
* `slugifyCreationTitle_eq_self` — **a slug is its own slug.**
* `toDigits_of_isOrdinalText` — an ordinal text is the numeral of its number.
* `pageIds_exact` — **accepted are the identifiers that can be generated**, and their
  texts are ordered by their milliseconds.
-/

namespace PatchouliLib

open Foundation

/-! ### Numerals of one width -/

theorem ofNat_digit_lt {d e : ℕ} (h : d < e) (he : e < 10) :
    Char.ofNat (48 + d) < Char.ofNat (48 + e) := by
  have key : ∀ e < 10, ∀ d < e, Char.ofNat (48 + d) < Char.ofNat (48 + e) := by decide
  exact key e he d h

/-- Numerals of one width are ordered as the numbers they name. -/
theorem decimal_append_lt {w a b : ℕ} (h : a % 10 ^ w < b % 10 ^ w) (x y : Text) :
    decimal w a ++ x < decimal w b ++ y := by
  induction w with
  | zero => simp [Nat.mod_one] at h
  | succ w ih =>
    have ha : a / 10 ^ w % 10 < 10 := Nat.mod_lt _ (by decide)
    have hb : b / 10 ^ w % 10 < 10 := Nat.mod_lt _ (by decide)
    have halow : a % 10 ^ w < 10 ^ w := Nat.mod_lt _ (by positivity)
    have hblow : b % 10 ^ w < 10 ^ w := Nat.mod_lt _ (by positivity)
    rw [Nat.mod_pow_succ, Nat.mod_pow_succ] at h
    rw [decimal, decimal, List.cons_append, List.cons_append, List.cons_lt_cons_iff]
    -- the first digit decides, or the numerals behind it do
    rcases Nat.lt_trichotomy (a / 10 ^ w % 10) (b / 10 ^ w % 10) with hlt | heq | hlt
    · exact .inl (ofNat_digit_lt hlt hb)
    · rw [heq] at h
      exact .inr ⟨by rw [heq], ih (by omega)⟩
    · have hmul := Nat.mul_le_mul_left (10 ^ w) (Nat.succ_le_of_lt hlt)
      rw [Nat.mul_succ] at hmul
      omega

theorem decimal_append_lt_of {w a b : ℕ} (ha : a < 10 ^ w) (hb : b < 10 ^ w) {x y : Text}
    (h : a < b ∨ a = b ∧ x < y) : decimal w a ++ x < decimal w b ++ y := by
  rcases h with h | ⟨rfl, h⟩
  · refine decimal_append_lt ?_ x y
    rwa [Nat.mod_eq_of_lt ha, Nat.mod_eq_of_lt hb]
  · exact List.append_left_lt h

/-- Only the low part of a number is spelled. -/
theorem decimal_mul_add (w k n : ℕ) : decimal w (10 ^ w * k + n) = decimal w n := by
  induction w generalizing k with
  | zero => rfl
  | succ w ih =>
    have hsplit : 10 ^ (w + 1) * k + n = 10 ^ w * (10 * k) + n := by ring
    have hdigit : (10 ^ w * (10 * k) + n) / 10 ^ w % 10 = n / 10 ^ w % 10 := by
      rw [Nat.mul_add_div (by positivity), Nat.mul_add_mod]
    rw [hsplit, decimal, decimal, hdigit, ih]

theorem numeralValue_cons (c : Char) (cs : Text) :
    numeralValue (c :: cs) = 10 ^ cs.length * (c.toNat - 48) + numeralValue cs := by
  rw [numeralValue, Nat.ofDigitChars_cons, Nat.ofDigitChars_eq_ofDigitChars_zero, Nat.mul_zero,
    Nat.zero_add]
  rfl

theorem isDigit_iff {c : Char} : isDigit c = true ↔ 48 ≤ c.toNat ∧ c.toNat ≤ 57 := by
  rw [isDigit, Bool.and_eq_true, decide_eq_true_eq, decide_eq_true_eq]
  rfl

theorem numeralValue_lt {t : Text} (h : ∀ c ∈ t, isDigit c = true) :
    numeralValue t < 10 ^ t.length := by
  induction t with
  | nil => exact Nat.one_pos
  | cons c cs ih =>
    have hrest := ih fun x hx => h x (List.mem_cons_of_mem c hx)
    obtain ⟨hlow, hhigh⟩ := isDigit_iff.mp (h c List.mem_cons_self)
    have hmul : 10 ^ cs.length * (c.toNat - 48) ≤ 10 ^ cs.length * 9 :=
      Nat.mul_le_mul_left _ (by omega)
    rw [numeralValue_cons, List.length_cons, Nat.pow_succ]
    omega

/-- A text of digits is the numeral of its value. -/
theorem decimal_numeralValue {w : ℕ} {t : Text} (h : IsNumeral w t) :
    decimal w (numeralValue t) = t := by
  obtain ⟨rfl, hdigits⟩ := h
  induction t with
  | nil => rfl
  | cons c cs ih =>
    have hcs := fun x hx => hdigits x (List.mem_cons_of_mem c hx)
    have hbound := numeralValue_lt hcs
    obtain ⟨hlow, hhigh⟩ := isDigit_iff.mp (hdigits c List.mem_cons_self)
    have hdigit : Char.ofNat (48 + (c.toNat - 48) % 10) = c := by
      rw [Nat.mod_eq_of_lt (by omega), Nat.add_sub_cancel' hlow, Char.ofNat_toNat]
    rw [numeralValue_cons, List.length_cons, decimal, decimal_mul_add, ih hcs,
      Nat.mul_add_div (by positivity), Nat.div_eq_of_lt hbound, Nat.add_zero, hdigit]

/-! ### Civil times -/

/-- A civil time to the millisecond. -/
structure CivilTime where
  date : Date
  hour : ℕ
  minute : ℕ
  second : ℕ
  millisecond : ℕ

namespace CivilTime

structure Valid (c : CivilTime) : Prop where
  date : c.date.Valid
  hour : c.hour ≤ 23
  minute : c.minute ≤ 59
  second : c.second ≤ 59
  millisecond : c.millisecond ≤ 999

/-- `YYYYMMDDtHHMMSSmmmz`. -/
def text (c : CivilTime) : Text :=
  decimal 4 c.date.year ++ (decimal 2 c.date.month ++ (decimal 2 c.date.day ++ 't' ::
    (decimal 2 c.hour ++ (decimal 2 c.minute ++ (decimal 2 c.second ++
      (decimal 3 c.millisecond ++ ['z']))))))

/-- The milliseconds since the epoch. -/
def milliseconds (c : CivilTime) : ℤ :=
  ((c.date.toOrdinal - epochOrdinal) * 86400 + c.hour * 3600 + c.minute * 60 + c.second) * 1000 +
    c.millisecond

/-- A civil time is that of a millisecond in the calendar. -/
theorem Valid.inUtcRange {c : CivilTime} (h : c.Valid) : InUtcRange (c.milliseconds * 1000) := by
  obtain ⟨h1, h2⟩ := h.date.toOrdinal_mem
  obtain ⟨-, hhour, hminute, hsecond, hmillisecond⟩ := h
  simp only [InUtcRange, minUtcMicroseconds, maxUtcMicroseconds, milliseconds, microsecondsPerDay,
    microsecondsPerSecond, epochOrdinal, maxOrdinal] at h2 ⊢
  omega

/-- The order of the fields, from the year to the millisecond. -/
def Precedes (c c' : CivilTime) : Prop :=
  c.date.year < c'.date.year ∨ c.date.year = c'.date.year ∧
    (c.date.month < c'.date.month ∨ c.date.month = c'.date.month ∧
      (c.date.day < c'.date.day ∨ c.date.day = c'.date.day ∧
        (c.hour < c'.hour ∨ c.hour = c'.hour ∧
          (c.minute < c'.minute ∨ c.minute = c'.minute ∧
            (c.second < c'.second ∨ c.second = c'.second ∧ c.millisecond < c'.millisecond)))))

theorem Valid.day_le {c : CivilTime} (h : c.Valid) : c.date.day ≤ 31 := by
  have hdays : ∀ leap m, daysInMonth leap m ≤ 31 := by
    intro leap m
    unfold daysInMonth
    split <;> (try split) <;> omega
  exact h.date.2.2.2.2.2.trans (hdays _ _)

/-- The fields of a later millisecond are later. -/
theorem precedes_of_milliseconds {c c' : CivilTime} (h : c.Valid) (h' : c'.Valid)
    (hlt : c.milliseconds < c'.milliseconds) : c.Precedes c' := by
  have hafter := Date.toOrdinal_lt h'.date h.date
  obtain ⟨-, hhour, hminute, hsecond, hmillisecond⟩ := h
  obtain ⟨-, hhour', hminute', hsecond', hmillisecond'⟩ := h'
  unfold milliseconds at hlt
  rcases Date.precedes_trichotomy c.date c'.date with hbefore | hsame | hbehind
  · -- an earlier date decides
    rcases hbefore with hyear | ⟨hyear, hmonth | ⟨hmonth, hday⟩⟩
    · exact .inl hyear
    · exact .inr ⟨hyear, .inl hmonth⟩
    · exact .inr ⟨hyear, .inr ⟨hmonth, .inl hday⟩⟩
  · -- on one date the clock does
    rw [hsame] at hlt
    refine .inr ⟨by rw [hsame], .inr ⟨by rw [hsame], .inr ⟨by rw [hsame], ?_⟩⟩⟩
    omega
  · have hordinal := hafter hbehind
    omega

/-- **A later millisecond has a greater prefix.** -/
theorem text_lt {c c' : CivilTime} (h : c.Valid) (h' : c'.Valid)
    (hlt : c.milliseconds < c'.milliseconds) (x y : Text) : c.text ++ x < c'.text ++ y := by
  have hprecedes := precedes_of_milliseconds h h' hlt
  have hday := h.day_le
  have hday' := h'.day_le
  obtain ⟨⟨-, hy, -, hm, -, -⟩, hhour, hminute, hsecond, hmillisecond⟩ := h
  obtain ⟨⟨-, hy', -, hm', -, -⟩, hhour', hminute', hsecond', hmillisecond'⟩ := h'
  simp only [text, List.append_assoc, List.cons_append]
  refine decimal_append_lt_of (by omega) (by omega) (hprecedes.imp_right (And.imp_right fun h => ?_))
  refine decimal_append_lt_of (by omega) (by omega) (h.imp_right (And.imp_right fun h => ?_))
  refine decimal_append_lt_of (by omega) (by omega) (h.imp_right (And.imp_right fun h => ?_))
  refine List.cons_lt_cons_self.mpr ?_
  refine decimal_append_lt_of (by omega) (by omega) (h.imp_right (And.imp_right fun h => ?_))
  refine decimal_append_lt_of (by omega) (by omega) (h.imp_right (And.imp_right fun h => ?_))
  refine decimal_append_lt_of (by omega) (by omega) (h.imp_right (And.imp_right fun h => ?_))
  exact decimal_append_lt_of (by omega) (by omega) (.inl h)

theorem eq_of_milliseconds {c c' : CivilTime} (h : c.Valid) (h' : c'.Valid)
    (heq : c.milliseconds = c'.milliseconds) : c = c' := by
  have hbefore := Date.toOrdinal_lt h.date h'.date
  have hafter := Date.toOrdinal_lt h'.date h.date
  obtain ⟨-, hhour, hminute, hsecond, hmillisecond⟩ := h
  obtain ⟨-, hhour', hminute', hsecond', hmillisecond'⟩ := h'
  unfold milliseconds at heq
  rcases Date.precedes_trichotomy c.date c'.date with hlt | hsame | hlt
  · have hordinal := hbefore hlt
    omega
  · obtain ⟨date, hour, minute, second, millisecond⟩ := c
    obtain ⟨date', hour', minute', second', millisecond'⟩ := c'
    obtain rfl : date = date' := hsame
    simp only [mk.injEq, true_and] at *
    omega
  · have hordinal := hafter hlt
    omega

end CivilTime

/-- The digits of a microsecond begin with those of its millisecond. -/
theorem decimal_microseconds (n : ℕ) : decimal 6 n = decimal 3 (n / 1000) ++ decimal 3 n := by
  simp [decimal, Nat.div_div_eq_div_mul]

/-- **The prefix of a time is the civil time of its floored millisecond.** -/
theorem pageIdTimestampPrefix_eq {u : ℤ} (hu : InUtcRange u) :
    ∃ c : CivilTime, c.Valid ∧ c.milliseconds = u / 1000 ∧
      pageIdTimestampPrefix u = .ok c.text := by
  generalize hfloor : u / 1000 * 1000 = v
  have hv : InUtcRange v := by
    simp only [InUtcRange, minUtcMicroseconds, maxUtcMicroseconds, microsecondsPerDay,
      microsecondsPerSecond, epochOrdinal, maxOrdinal] at hu ⊢
    omega
  obtain ⟨hlow, hhigh⟩ := hv
  simp only [minUtcMicroseconds, maxUtcMicroseconds, microsecondsPerDay, microsecondsPerSecond,
    epochOrdinal, maxOrdinal] at hlow hhigh
  have h1 : 1 ≤ (epochOrdinal + v / microsecondsPerDay).toNat := by
    simp only [microsecondsPerDay, microsecondsPerSecond, epochOrdinal]
    omega
  have h2 : (epochOrdinal + v / microsecondsPerDay).toNat ≤ maxOrdinal := by
    simp only [microsecondsPerDay, microsecondsPerSecond, epochOrdinal, maxOrdinal]
    omega
  have hdate := Date.valid_ofOrdinal h1 h2
  have hordinal := Date.toOrdinal_ofOrdinal h1 h2
  generalize hday : Date.ofOrdinal (epochOrdinal + v / microsecondsPerDay).toNat = date at *
  generalize hmicro : (v % microsecondsPerDay).toNat = t
  have ht : t < 86400000000 := by
    rw [← hmicro]
    simp only [microsecondsPerDay, microsecondsPerSecond]
    omega
  refine ⟨⟨date, t / 1000000 / 3600, t / 1000000 % 3600 / 60, t / 1000000 % 3600 % 60,
    t % 1000000 / 1000⟩, ⟨hdate, ?_, ?_, ?_, ?_⟩, ?_, ?_⟩
  · dsimp only
    omega
  · dsimp only
    omega
  · dsimp only
    omega
  · dsimp only
    omega
  · simp only [CivilTime.milliseconds, hordinal]
    simp only [microsecondsPerDay, microsecondsPerSecond, epochOrdinal] at hmicro h1 ⊢
    omega
  · have hformat : formatUtcMicroseconds v =
        decimal 4 date.year ++ '-' :: decimal 2 date.month ++ '-' :: decimal 2 date.day ++
          'T' :: decimal 2 (t / 1000000 / 3600) ++ ':' :: decimal 2 (t / 1000000 % 3600 / 60) ++
          ':' :: decimal 2 (t / 1000000 % 3600 % 60) ++ '.' :: decimal 6 (t % 1000000) ++
          ['Z'] := by
      rw [← hday, ← hmicro]
      rfl
    rw [pageIdTimestampPrefix, Fallible.check_of hu, Fallible.ok_bind, hfloor, hformat,
      decimal_microseconds, CivilTime.text]
    refine congrArg Except.ok ?_
    dsimp only
    generalize t % 1000000 = microsecond
    generalize t / 1000000 % 3600 % 60 = second
    generalize t / 1000000 % 3600 / 60 = minute
    generalize t / 1000000 / 3600 = hour
    simp [decimal]

/-- The prefix of the millisecond of a civil time. -/
theorem CivilTime.Valid.pageIdTimestampPrefix_eq {c : CivilTime} (h : c.Valid) :
    pageIdTimestampPrefix (c.milliseconds * 1000) = .ok c.text := by
  obtain ⟨c', h', hmilliseconds, htext⟩ := PatchouliLib.pageIdTimestampPrefix_eq h.inUtcRange
  rw [Int.mul_ediv_cancel _ (by decide)] at hmilliseconds
  rw [htext, CivilTime.eq_of_milliseconds h' h hmilliseconds]

/-- **The prefixes the check accepts are those of the civil times.** -/
theorem exists_civilTime {timestampPrefix : Text}
    (h : isValidTimestampPrefix timestampPrefix = true) :
    ∃ c : CivilTime, c.Valid ∧ c.text = timestampPrefix := by
  unfold isValidTimestampPrefix at h
  split at h
  · next y1 y2 y3 y4 o1 o2 d1 d2 h1 h2 m1 m2 s1 s2 f1 f2 f3 =>
    split at h
    · next year month day hour minute second f hyear hmonth hday hhour hminute hsecond hf =>
      rw [readDigits_eq_some] at hyear hmonth hday hhour hminute hsecond hf
      obtain ⟨hyear, rfl⟩ := hyear
      obtain ⟨hmonth, rfl⟩ := hmonth
      obtain ⟨hday, rfl⟩ := hday
      obtain ⟨hhour, rfl⟩ := hhour
      obtain ⟨hminute, rfl⟩ := hminute
      obtain ⟨hsecond, rfl⟩ := hsecond
      unfold validateCivilTime at h
      split at h
      · next hcivil =>
        obtain ⟨hhour23, hminute59, hsecond59, hdate⟩ := hcivil
        have hmillisecond := numeralValue_lt hf.1
        rw [show 10 ^ [f1, f2, f3].length = 1000 by norm_num] at hmillisecond
        refine ⟨⟨⟨numeralValue [y1, y2, y3, y4], numeralValue [o1, o2], numeralValue [d1, d2]⟩,
          numeralValue [h1, h2], numeralValue [m1, m2], numeralValue [s1, s2],
          numeralValue [f1, f2, f3]⟩, ⟨hdate, hhour23, hminute59, hsecond59, ?_⟩, ?_⟩
        · dsimp only
          omega
        dsimp only [CivilTime.text]
        rw [decimal_numeralValue (w := 4) ⟨rfl, hyear⟩, decimal_numeralValue (w := 2) ⟨rfl, hmonth⟩,
          decimal_numeralValue (w := 2) ⟨rfl, hday⟩, decimal_numeralValue (w := 2) ⟨rfl, hhour⟩,
          decimal_numeralValue (w := 2) ⟨rfl, hminute⟩,
          decimal_numeralValue (w := 2) ⟨rfl, hsecond⟩, decimal_numeralValue (w := 3) ⟨rfl, hf.1⟩]
        rfl
      · cases h
    · cases h
  · cases h

/-! ### Slugs -/

theorem ne_hyphen_of_isSlugCharacter {c : Char} (h : isSlugCharacter c = true) : c ≠ '-' := by
  rintro rfl
  exact absurd h (by decide)

theorem slugCharacter_eq_self {c : Char} (h : isSlugCharacter c = true) :
    slugCharacter c = some c := by
  rw [isSlugCharacter, Bool.or_eq_true, Bool.and_eq_true, decide_eq_true_eq, decide_eq_true_eq] at h
  have hcapital : ¬('A' ≤ c ∧ c ≤ 'Z') := by
    rintro ⟨hlow, hhigh⟩
    have hlow' : 65 ≤ c.toNat := hlow
    have hhigh' : c.toNat ≤ 90 := hhigh
    rcases h with ⟨h, -⟩ | h
    · have hletter : 97 ≤ c.toNat := h
      omega
    · have hdigit := isDigit_iff.mp h
      omega
  rw [slugCharacter, if_neg hcapital, if_pos h]

/-- A slug that is read from here on: what is pending and what may come. -/
structure SlugState.Reads (s : SlugState) (mayStop : Bool) : Prop where
  stop : mayStop = true → s.separatorPending = false ∧ s.output ≠ []
  pending : s.separatorPending = true → s.output ≠ []
  seen : s.output ≠ [] → s.asciiAlphanumericSeen = true

/-- The text that is written so far, with the pending separator. -/
def SlugState.written (s : SlugState) : Text :=
  s.output ++ if s.separatorPending then ['-'] else []

/-- **The loop copies a slug.** -/
theorem foldl_slugStep {rest : Text} {s : SlugState} {mayStop : Bool} (hs : s.Reads mayStop)
    (hrest : matchSlug mayStop rest = true)
    (hlength : s.written.length + rest.length ≤ maxBaseSlugBytes) :
    (rest.foldl slugStep s).output = s.written ++ rest ∧
      (s.written ++ rest ≠ [] → (rest.foldl slugStep s).asciiAlphanumericSeen = true) := by
  induction rest generalizing s mayStop with
  | nil =>
    obtain ⟨hpending, hne⟩ := hs.stop hrest
    have hwritten : s.written = s.output := by
      rw [SlugState.written, hpending]
      exact List.append_nil _
    rw [hwritten, List.append_nil]
    exact ⟨rfl, hs.seen⟩
  | cons c rest ih =>
    rw [matchSlug] at hrest
    by_cases hc : c = '-'
    · -- a hyphen is pending until the next character
      subst hc
      rw [if_pos rfl, Bool.and_eq_true] at hrest
      obtain ⟨hmay, hrest⟩ := hrest
      obtain ⟨hpending, hne⟩ := hs.stop hmay
      have hwritten : s.written = s.output := by
        rw [SlugState.written, hpending]
        exact List.append_nil _
      have hstep : slugStep s '-' = { s with separatorPending := true } := rfl
      have hnext : (slugStep s '-').written = s.written ++ ['-'] := by
        rw [hstep, hwritten]
        rfl
      have hreads : (slugStep s '-').Reads false := by
        rw [hstep]
        exact ⟨fun h => absurd h (by decide), fun _ => hne, hs.seen⟩
      rw [List.length_cons] at hlength
      have := ih hreads hrest (by rw [hnext, List.length_append, List.length_singleton]; omega)
      rwa [hnext, List.append_assoc, List.singleton_append] at this
    · rw [if_neg hc, Bool.and_eq_true] at hrest
      obtain ⟨hslug, hrest⟩ := hrest
      rw [List.length_cons] at hlength
      have hstep : slugStep s c = ⟨s.written ++ [c], false, true⟩ := by
        have hroom : s.written.length < maxBaseSlugBytes := by omega
        have houtput : (if s.separatorPending ∧ s.output ≠ [] ∧
            s.output.length < maxBaseSlugBytes then s.output ++ ['-'] else s.output) =
            s.written := by
          rw [SlugState.written] at hroom ⊢
          by_cases hpending : s.separatorPending = true
          · have hne := hs.pending hpending
            rw [if_pos hpending, List.length_append, List.length_singleton] at hroom
            rw [if_pos ⟨hpending, hne, by omega⟩, if_pos hpending]
          · rw [if_neg fun h => hpending h.1, if_neg hpending, List.append_nil]
        rw [slugStep, slugCharacter_eq_self hslug]
        dsimp only
        rw [houtput, if_pos hroom]
      have hnext : (slugStep s c).written = s.written ++ [c] := by
        rw [hstep]
        exact List.append_nil _
      have hreads : (slugStep s c).Reads true := by
        rw [hstep]
        exact ⟨fun _ => ⟨rfl, by simp⟩, fun _ => by simp, fun _ => rfl⟩
      have := ih hreads hrest (by rw [hnext, List.length_append, List.length_singleton]; omega)
      rwa [hnext, List.append_assoc, List.singleton_append] at this

/-- A slug does not end in a hyphen. -/
theorem matchSlug_concat_hyphen (mayStop : Bool) (t : Text) :
    matchSlug mayStop (t ++ ['-']) = false := by
  induction t generalizing mayStop with
  | nil =>
    rw [List.nil_append, matchSlug, if_pos rfl, matchSlug, Bool.and_false]
  | cons c t ih =>
    rw [List.cons_append, matchSlug]
    split
    · rw [ih, Bool.and_false]
    · rw [ih, Bool.and_false]

/-- **A slug is its own slug.** -/
theorem slugifyCreationTitle_eq_self [Platform] {slug : Text} (h : isValidBaseSlug slug = true) :
    slugifyCreationTitle slug = slug := by
  rw [isValidBaseSlug, Bool.and_eq_true, Bool.and_eq_true, decide_eq_true_eq,
    decide_eq_true_eq] at h
  obtain ⟨⟨hpositive, hlength⟩, hmatch⟩ := h
  have hne : slug ≠ [] := List.length_pos_iff.mp hpositive
  have hreads : SlugState.Reads {} false :=
    ⟨fun h => absurd h (by decide), fun h => absurd h (by decide), fun h => absurd rfl h⟩
  have hstart : (SlugState.written {}).length = 0 := rfl
  obtain ⟨houtput, hseen⟩ := foldl_slugStep hreads hmatch (by omega)
  have hwritten : SlugState.written {} ++ slug = slug := rfl
  rw [hwritten] at houtput hseen
  have htrim : slug.rdropWhile (· = '-') = slug := by
    rw [List.rdropWhile_eq_self_iff]
    intro hslug hlast
    have hsplit := List.dropLast_append_getLast hslug
    rw [of_decide_eq_true hlast] at hsplit
    rw [← hsplit, matchSlug_concat_hyphen] at hmatch
    cases hmatch
  rw [slugifyCreationTitle, houtput, htrim, if_pos ⟨hseen hne, hne⟩]

/-! ### Ordinals -/

theorem numeralValue_append (t : Text) (c : Char) :
    numeralValue (t ++ [c]) = 10 * numeralValue t + (c.toNat - 48) := by
  rw [numeralValue, Nat.ofDigitChars_append, Nat.ofDigitChars_cons, Nat.ofDigitChars_nil]
  rfl

theorem digitChar_of_isDigit {c : Char} (h : isDigit c = true) :
    (c.toNat - 48).digitChar = c ∧ c.toNat - 48 < 10 := by
  obtain ⟨hlow, hhigh⟩ := isDigit_iff.mp h
  have key : ∀ d < 10, d.digitChar = Char.ofNat (48 + d) := by decide
  refine ⟨?_, by omega⟩
  rw [key _ (by omega), Nat.add_sub_cancel' hlow, Char.ofNat_toNat]

/-- **A text of digits without a leading zero is the numeral of its value.** -/
theorem toDigits_numeralValue {c : Char} {cs : Text} (hc : ('1' ≤ c && c ≤ '9') = true)
    (hcs : ∀ d ∈ cs, isDigit d = true) :
    Nat.toDigits 10 (numeralValue (c :: cs)) = c :: cs ∧ 0 < numeralValue (c :: cs) := by
  rw [Bool.and_eq_true, decide_eq_true_eq, decide_eq_true_eq] at hc
  have hlow : 49 ≤ c.toNat := hc.1
  have hhigh : c.toNat ≤ 57 := hc.2
  have hdigit : isDigit c = true := isDigit_iff.mpr ⟨by omega, hhigh⟩
  induction cs using List.reverseRecOn with
  | nil =>
    obtain ⟨hchar, hlt⟩ := digitChar_of_isDigit hdigit
    have hvalue : numeralValue [c] = c.toNat - 48 := by
      rw [numeralValue_cons]
      simp [numeralValue]
    rw [hvalue, Nat.toDigits_of_lt_base hlt, hchar]
    exact ⟨rfl, by omega⟩
  | append_singleton cs d ih =>
    obtain ⟨hfront, hpositive⟩ := ih fun x hx => hcs x (by simp [hx])
    obtain ⟨hchar, hlt⟩ := digitChar_of_isDigit (hcs d (by simp))
    rw [← List.cons_append, numeralValue_append]
    generalize numeralValue (c :: cs) = n at hfront hpositive
    rw [Nat.toDigits_of_base_le (by decide) (by omega), Nat.mul_add_div (by decide),
      Nat.div_eq_of_lt hlt, Nat.add_zero, hfront, Nat.mul_add_mod, Nat.mod_eq_of_lt hlt, hchar]
    exact ⟨rfl, by omega⟩

/-- **An ordinal text is the numeral of its number.** -/
theorem toDigits_of_isOrdinalText {ds : Text} (h : isOrdinalText ds = true) {n : ℕ}
    (hn : readDigits ds = some n) : 2 ≤ n ∧ Nat.toDigits 10 n = ds := by
  obtain ⟨hdigits, rfl⟩ := readDigits_eq_some.mp hn
  unfold isOrdinalText at h
  split at h
  · next c =>
    have hc : ('1' ≤ c && c ≤ '9') = true := by
      rw [Bool.and_eq_true, decide_eq_true_eq, decide_eq_true_eq] at h ⊢
      exact ⟨Char.le_trans (by decide) h.1, h.2⟩
    rw [Bool.and_eq_true, decide_eq_true_eq, decide_eq_true_eq] at h
    have hlow : 50 ≤ c.toNat := h.1
    have hvalue : numeralValue [c] = c.toNat - 48 := by
      rw [numeralValue_cons]
      simp [numeralValue]
    exact ⟨by omega, (toDigits_numeralValue hc fun d hd => absurd hd List.not_mem_nil).1⟩
  · next c cs hne =>
    rw [Bool.and_eq_true, Bool.and_eq_true] at h
    obtain ⟨⟨hc, hcs⟩, -⟩ := h
    rw [List.all_eq_true] at hcs
    obtain ⟨htoDigits, -⟩ := toDigits_numeralValue hc hcs
    refine ⟨?_, htoDigits⟩
    -- with a second digit the number is at least ten
    obtain ⟨d, ds, rfl⟩ := List.exists_cons_of_ne_nil (by simpa using hne)
    rw [Bool.and_eq_true, decide_eq_true_eq, decide_eq_true_eq] at hc
    have hlow : 49 ≤ c.toNat := hc.1
    have hpower : 10 ≤ 10 ^ (d :: ds).length := Nat.le_self_pow (by simp) 10
    rw [numeralValue_cons]
    have hmul : 10 ^ (d :: ds).length * 1 ≤ 10 ^ (d :: ds).length * (c.toNat - 48) :=
      Nat.mul_le_mul_left _ (by omega)
    omega
  · cases h

/-! ### Generated identifiers -/

variable [Platform]

omit [Platform] in
/-- The accepted time of a civil time. -/
theorem exists_occurrenceTime {c : CivilTime} (h : c.Valid) :
    ∃ wire t, parseOccurrenceTime wire = .ok t ∧ t.utcMicroseconds = c.milliseconds * 1000 ∧
      canonicalUtcWire t.utcMicroseconds = .ok t.canonicalUtc :=
  ⟨_, _, parseOccurrenceTime_format h.inUtcRange, rfl,
    canonicalUtcWire_ok.mpr ⟨h.inUtcRange, rfl⟩⟩

/-- An identifier that is put together from accepted parts is generated. -/
theorem generatePageId_of {t : OccurrenceTime} {title timestampPrefix value v : Text} {n : ℕ}
    (hwire : canonicalUtcWire t.utcMicroseconds = .ok t.canonicalUtc)
    (hn : 1 ≤ n ∧ n ≤ maxCollisionOrdinal)
    (hstamp : pageIdTimestampPrefix t.utcMicroseconds = .ok timestampPrefix)
    (hvalue : timestampPrefix ++ '-' :: slugifyCreationTitle title ++ ordinalSuffix n = value)
    (hvalid : validatePageId value = .ok v) :
    generatePageId t title n =
      .ok ⟨value, timestampPrefix, slugifyCreationTitle title, n⟩ := by
  simp only [generatePageId, hwire, hstamp, hvalue, hvalid, Fallible.ok_bind, Fallible.check_of,
    Fallible.check_of hn]
  rfl

omit [Platform] in
/-- What the check has found. -/
theorem exists_parts_of_validatePageId {s v : Text} (h : validatePageId s = .ok v) :
    s.length ≤ maxPageIdBytes ∧ ∃ timestampPrefix rest,
      s = timestampPrefix ++ '-' :: rest ∧ isValidTimestampPrefix timestampPrefix = true ∧
      isSlugAndSuffix rest = true := by
  unfold validatePageId at h
  split at h
  · next hchecks =>
    obtain ⟨-, hmax, -, hlength, hhyphen, hstamp, hrest⟩ := hchecks
    refine ⟨hmax, _, _, ?_, hstamp, hrest⟩
    obtain ⟨hlt, hget⟩ := List.getElem?_eq_some_iff.mp hhyphen
    rw [← hget, List.getElem_cons_drop, List.take_append_drop]
  · cases h

/-- **Accepted identifiers are generated.** -/
theorem exists_generatePageId_of_validatePageId {s v : Text} (h : validatePageId s = .ok v) :
    ∃ wire t title n g, parseOccurrenceTime wire = .ok t ∧ 1 ≤ n ∧ n ≤ maxCollisionOrdinal ∧
      generatePageId t title n = .ok g ∧ g.value = s := by
  obtain ⟨-, timestampPrefix, rest, hs, hstamp, hrest⟩ := exists_parts_of_validatePageId h
  obtain ⟨c, hc, rfl⟩ := exists_civilTime hstamp
  obtain ⟨wire, t, hparse, htime, hwire⟩ := exists_occurrenceTime hc
  have hstamp : pageIdTimestampPrefix t.utcMicroseconds = .ok c.text := by
    rw [htime, hc.pageIdTimestampPrefix_eq]
  have hgenerate (title : Text) (n : ℕ) (hn : 1 ≤ n ∧ n ≤ maxCollisionOrdinal)
      (hvalue : slugifyCreationTitle title ++ ordinalSuffix n = rest) :
      ∃ wire t title n g, parseOccurrenceTime wire = .ok t ∧ 1 ≤ n ∧ n ≤ maxCollisionOrdinal ∧
        generatePageId t title n = .ok g ∧ g.value = s := by
    have hjoin : c.text ++ '-' :: slugifyCreationTitle title ++ ordinalSuffix n = s := by
      rw [List.append_assoc, List.cons_append, hvalue, hs]
    exact ⟨wire, t, title, n, _, hparse, hn.1, hn.2, generatePageId_of hwire hn hstamp hjoin h, rfl⟩
  rw [isSlugAndSuffix, Bool.or_eq_true] at hrest
  rcases hrest with hslug | hsuffix
  · -- the whole rest is the slug of a first identifier
    refine hgenerate rest 1 ⟨Nat.le_refl 1, by decide⟩ ?_
    rw [slugifyCreationTitle_eq_self hslug, ordinalSuffix, if_pos rfl, List.append_nil]
  · -- a shorter slug has an ordinal behind it
    cases hsplit : splitLastHyphen rest with
    | none =>
      rw [hsplit] at hsuffix
      cases hsuffix
    | some parts =>
      obtain ⟨base, ordinal⟩ := parts
      rw [hsplit] at hsuffix
      simp only [Bool.and_eq_true] at hsuffix
      obtain ⟨⟨hbase, hordinal⟩, hmax⟩ := hsuffix
      rw [Option.any_eq_true] at hmax
      obtain ⟨n, hread, hle⟩ := hmax
      obtain ⟨htwo, hdigits⟩ := toDigits_of_isOrdinalText hordinal hread
      refine hgenerate base n ⟨by omega, of_decide_eq_true hle⟩ ?_
      rw [slugifyCreationTitle_eq_self hbase, ordinalSuffix, if_neg (by omega), hdigits]
      exact (eq_of_splitLastHyphen hsplit).symm

/-- The prefix of a generated identifier is that of its civil time. -/
theorem civilTime_of_generatePageId {t : OccurrenceTime} {title : Text} {n : ℕ}
    {g : GeneratedPageId} (h : generatePageId t title n = .ok g) :
    ∃ c : CivilTime, c.Valid ∧ c.milliseconds = t.utcMicroseconds / 1000 ∧
      g.timestampPrefix = c.text ∧ ∃ rest, g.value = c.text ++ rest := by
  obtain ⟨hwire, -, hstamp, -, hfields⟩ := generatePageId_ok h
  obtain ⟨c, hc, hmilliseconds, htext⟩ := pageIdTimestampPrefix_eq (canonicalUtcWire_ok.mp hwire).1
  have hsame : g.timestampPrefix = c.text := Except.ok.inj (hstamp.symm.trans htext)
  refine ⟨c, hc, hmilliseconds, hsame, '-' :: slugifyCreationTitle title ++ ordinalSuffix n, ?_⟩
  rw [hfields, ← hsame, List.append_assoc]

/-- **Accepted are the identifiers that can be generated.**  They are short, and the identifiers
of two times are ordered as the milliseconds of the times, with one prefix for one millisecond. -/
theorem pageIds_exact :
    (∀ s, (∃ v, validatePageId s = .ok v) ↔
      ∃ wire t title n g, parseOccurrenceTime wire = .ok t ∧ 1 ≤ n ∧ n ≤ maxCollisionOrdinal ∧
        generatePageId t title n = .ok g ∧ g.value = s) ∧
    (∀ t title n g, generatePageId t title n = .ok g →
      (utf8Encode g.value).length ≤ maxPageIdBytes ∧ validatePageId g.value = .ok g.value) ∧
    ∀ t title n g t' title' n' g', generatePageId t title n = .ok g →
      generatePageId t' title' n' = .ok g' →
      (g.timestampPrefix = g'.timestampPrefix ↔
        t.utcMicroseconds / 1000 = t'.utcMicroseconds / 1000) ∧
      (g.timestampPrefix < g'.timestampPrefix ↔
        t.utcMicroseconds / 1000 < t'.utcMicroseconds / 1000) ∧
      (t.utcMicroseconds / 1000 < t'.utcMicroseconds / 1000 → g.value < g'.value) := by
  have hvalid {t title n g} (h : generatePageId t title n = .ok g) :
      validatePageId g.value = .ok g.value := by
    obtain ⟨-, -, -, ⟨v, hv⟩, -⟩ := generatePageId_ok h
    obtain ⟨rfl, -⟩ := validatePageId_ok hv
    exact hv
  refine ⟨fun s => ⟨fun ⟨v, h⟩ => exists_generatePageId_of_validatePageId h, ?_⟩,
    fun t title n g h => ⟨?_, hvalid h⟩, fun t title n g t' title' n' g' h h' => ?_⟩
  · rintro ⟨wire, t, title, n, g, -, -, -, h, rfl⟩
    exact ⟨g.value, hvalid h⟩
  · obtain ⟨-, hascii, -⟩ := validatePageId_ok (hvalid h)
    rw [length_utf8Encode_of_ascii hascii]
    exact (exists_parts_of_validatePageId (hvalid h)).1
  · obtain ⟨c, hc, hmilliseconds, hstamp, rest, hvalue⟩ := civilTime_of_generatePageId h
    obtain ⟨c', hc', hmilliseconds', hstamp', rest', hvalue'⟩ := civilTime_of_generatePageId h'
    rw [hstamp, hstamp', hvalue, hvalue', ← hmilliseconds, ← hmilliseconds']
    have hlt {d d' : CivilTime} (hd : d.Valid) (hd' : d'.Valid)
        (h : d.milliseconds < d'.milliseconds) : d.text < d'.text := by
      have := CivilTime.text_lt hd hd' h [] []
      rwa [List.append_nil, List.append_nil] at this
    refine ⟨⟨fun heq => ?_, fun heq => ?_⟩, ⟨fun htext => ?_, hlt hc hc'⟩,
      fun h => CivilTime.text_lt hc hc' h rest rest'⟩
    · rcases Int.lt_trichotomy c.milliseconds c'.milliseconds with h | h | h
      · exact absurd (heq ▸ hlt hc hc' h) (List.lt_irrefl _)
      · exact h
      · exact absurd (heq ▸ hlt hc' hc h) (List.lt_irrefl _)
    · rw [CivilTime.eq_of_milliseconds hc hc' heq]
    · rcases Int.lt_trichotomy c.milliseconds c'.milliseconds with h | h | h
      · exact h
      · rw [CivilTime.eq_of_milliseconds hc hc' h] at htext
        exact absurd htext (List.lt_irrefl _)
      · exact absurd (List.lt_trans htext (hlt hc' hc h)) (List.lt_irrefl _)

end PatchouliLib
