import PatchouliLib.Foundation.Json
import PatchouliLib.Identifiers.PageIds

/-!
# The identifiers of a title

A title and a time have one identifier for every collision ordinal.  When the
first of them is well formed, all of them are: the suffix is a numeral without
leading zeros, it is short enough, and the parser splits it off again.

## Main results

* `readDigits_toDigits` — reading a numeral gives the number back.
* `splitLastHyphen_append` — the suffix is split off again.
* `exists_generatePageId` — **a title that has a first identifier has one for
  every ordinal.**
-/

namespace PatchouliLib

open Foundation

/-! ### Numerals -/

theorem isDigit_eq_isDigit (c : Char) : isDigit c = c.isDigit := by
  rw [Bool.eq_iff_iff]
  simp only [isDigit, Char.isDigit, Bool.and_eq_true, decide_eq_true_eq, Char.le_def]

theorem isDigit_of_mem_toDigits {n : ℕ} {c : Char} (h : c ∈ Nat.toDigits 10 n) :
    isDigit c = true := by
  rw [isDigit_eq_isDigit]
  exact Nat.isDigit_of_mem_toDigits (by decide) (by decide) h

theorem isDigit_digitChar {d : ℕ} (hd : d < 10) :
    isDigit d.digitChar = true ∧ d.digitChar.toNat - 48 = d := by
  have key : ∀ d < 10, isDigit d.digitChar = true ∧ d.digitChar.toNat - 48 = d := by decide
  exact key d hd

/-- **Reading a numeral gives the number back.** -/
theorem readDigits_toDigits (n : ℕ) : readDigits (Nat.toDigits 10 n) = some n := by
  induction n using Nat.strongRecOn with
  | ind n ih =>
    by_cases hn : n < 10
    · obtain ⟨hdigit, hvalue⟩ := isDigit_digitChar hn
      rw [Nat.toDigits_of_lt_base hn]
      simp [readDigits, hdigit, hvalue]
    · -- the last digit is read after the others
      have hmod : n % 10 < 10 := Nat.mod_lt _ (by decide)
      obtain ⟨hdigit, hvalue⟩ := isDigit_digitChar hmod
      have hfirst := ih (n / 10) (by omega)
      rw [readDigits] at hfirst ⊢
      rw [Nat.toDigits_of_base_le (by decide) (by omega), List.foldlM_append, hfirst]
      simp only [Option.bind_eq_bind, Option.bind_some, List.foldlM_cons, List.foldlM_nil, hdigit,
        ↓reduceIte, hvalue]
      show some (n / 10 * 10 + n % 10) = some n
      rw [Nat.div_add_mod']

/-- The numerals of the collision ordinals are ordinal texts. -/
theorem isOrdinalText_toDigits {n : ℕ} (hlow : 2 ≤ n) (hhigh : n ≤ maxCollisionOrdinal) :
    isOrdinalText (Nat.toDigits 10 n) = true := by
  by_cases hlt : n < 10
  · have key : ∀ d < 10, 2 ≤ d → isOrdinalText [d.digitChar] = true := by decide
    rw [Nat.toDigits_of_lt_base hlt]
    exact key n hlt hlow
  · have hlength : (Nat.toDigits 10 n).length ≤ 10 := by
      rw [Nat.length_toDigits_le_iff (by decide) (by decide)]
      exact Nat.lt_succ_of_le hhigh
    have hlong : ¬(Nat.toDigits 10 n).length ≤ 1 := by
      rw [Nat.length_toDigits_le_iff (by decide) (by decide)]
      exact hlt
    obtain ⟨c, cs, hcs, hc⟩ := Json.toDigits_eq_cons (by omega : 0 < n)
    have hdigits : cs.all isDigit = true := by
      refine List.all_eq_true.mpr fun d hd => isDigit_of_mem_toDigits (n := n) ?_
      rw [hcs]
      exact List.mem_cons_of_mem c hd
    rw [hcs, List.length_cons] at hlength hlong
    rw [hcs]
    cases cs with
    | nil => exact absurd (Nat.le_refl 1) hlong
    | cons d ds =>
      have hshort : decide ((d :: ds).length ≤ 9) = true := decide_eq_true (by omega)
      rw [isOrdinalText, hc, hdigits, hshort]
      · rfl
      · exact List.cons_ne_nil d ds

/-- An ordinal text is a numeral. -/
theorem isDigit_of_isOrdinalText {ds : Text} (h : isOrdinalText ds = true) :
    ds ≠ [] ∧ ∀ d ∈ ds, isDigit d = true := by
  have hfirst : ∀ {low c : Char}, '0' ≤ low → (low ≤ c && c ≤ '9') = true → isDigit c = true := by
    intro low c hlow hc
    rw [Bool.and_eq_true, decide_eq_true_eq, decide_eq_true_eq] at hc
    rw [isDigit, Bool.and_eq_true, decide_eq_true_eq, decide_eq_true_eq]
    exact ⟨Char.le_trans hlow hc.1, hc.2⟩
  cases ds with
  | nil => exact absurd h (by decide)
  | cons c cs =>
    refine ⟨List.cons_ne_nil c cs, fun d hd => ?_⟩
    cases cs with
    | nil =>
      rw [List.mem_singleton.mp hd]
      exact hfirst (by decide) h
    | cons d' ds =>
      rw [isOrdinalText, Bool.and_eq_true, Bool.and_eq_true] at h
      · obtain ⟨⟨hc, hall⟩, -⟩ := h
        rcases List.mem_cons.mp hd with rfl | hd
        · exact hfirst (by decide) hc
        · exact List.all_eq_true.mp hall d hd
      · exact List.cons_ne_nil d' ds

/-! ### Slugs -/

theorem isSlugCharacter_of_isDigit {c : Char} (h : isDigit c = true) : isSlugCharacter c = true := by
  rw [isSlugCharacter, h, Bool.or_true]

theorem ne_hyphen_of_isDigit {c : Char} (h : isDigit c = true) : c ≠ '-' := by
  rintro rfl
  exact absurd h (by decide)

theorem matchSlug_digits {ds : Text} (h : ∀ d ∈ ds, isDigit d = true) : matchSlug true ds = true := by
  induction ds with
  | nil => rfl
  | cons d ds ih =>
    have hd := h d List.mem_cons_self
    have hds := ih fun e he => h e (List.mem_cons_of_mem d he)
    rw [matchSlug, if_neg (ne_hyphen_of_isDigit hd), isSlugCharacter_of_isDigit hd, hds]
    rfl

/-- A slug with a numeral behind a hyphen is a slug. -/
theorem matchSlug_append {mayStop : Bool} {base : Text} {d : Char} {ds : Text}
    (hbase : matchSlug mayStop base = true) (h : ∀ c ∈ d :: ds, isDigit c = true) :
    matchSlug mayStop (base ++ '-' :: d :: ds) = true := by
  induction base generalizing mayStop with
  | nil =>
    have hd := h d List.mem_cons_self
    have hds := matchSlug_digits fun e he => h e (List.mem_cons_of_mem d he)
    rw [matchSlug] at hbase
    rw [List.nil_append, matchSlug, if_pos rfl, hbase, matchSlug, if_neg (ne_hyphen_of_isDigit hd),
      isSlugCharacter_of_isDigit hd, hds]
    rfl
  | cons c base ih =>
    rw [matchSlug] at hbase
    rw [List.cons_append, matchSlug]
    split at hbase
    · next hc =>
      rw [Bool.and_eq_true] at hbase
      rw [if_pos hc, hbase.1, ih hbase.2]
      rfl
    · next hc =>
      rw [Bool.and_eq_true] at hbase
      rw [if_neg hc, hbase.1, ih hbase.2]
      rfl

theorem length_slugStep {s : SlugState} (h : s.output.length ≤ maxBaseSlugBytes) (c : Char) :
    (slugStep s c).output.length ≤ maxBaseSlugBytes := by
  unfold slugStep
  split
  · exact h
  · -- a character is added only while there is room for it
    have hhyphen : ∀ out : Text, out.length ≤ maxBaseSlugBytes →
        ∀ c, (if out.length < maxBaseSlugBytes then out ++ [c] else out).length ≤
          maxBaseSlugBytes := by
      intro out hout c
      split
      · rw [List.length_append, List.length_singleton]
        omega
      · exact hout
    dsimp only
    refine hhyphen _ ?_ _
    split
    · next hroom =>
      rw [List.length_append, List.length_singleton]
      omega
    · exact h

theorem length_foldl_slugStep (title : Text) {s : SlugState}
    (h : s.output.length ≤ maxBaseSlugBytes) :
    (title.foldl slugStep s).output.length ≤ maxBaseSlugBytes := by
  induction title generalizing s with
  | nil => exact h
  | cons c title ih => exact ih (length_slugStep h c)

theorem length_slugifyCreationTitle [Platform] (title : Text) :
    (slugifyCreationTitle title).length ≤ maxBaseSlugBytes := by
  have hloop := length_foldl_slugStep title (s := {}) (Nat.zero_le _)
  unfold slugifyCreationTitle
  dsimp only
  split
  · exact (List.IsPrefix.length_le (List.rdropWhile_prefix _ _)).trans hloop
  · rw [List.length_append]
    have htake := List.length_take_le 12 (hex (sha256 (utf8Encode title)))
    show 5 + _ ≤ 48
    omega

/-- The suffix is split off again. -/
theorem splitLastHyphen_append (base : Text) {ds : Text} (h : ∀ d ∈ ds, isDigit d = true) :
    splitLastHyphen (base ++ '-' :: ds) = some (base, ds) := by
  have hds : ∀ d ∈ ds.reverse, decide (d ≠ '-') = true := fun d hd =>
    decide_eq_true (ne_hyphen_of_isDigit (h d (List.mem_reverse.mp hd)))
  have hreverse : (base ++ '-' :: ds).reverse = ds.reverse ++ '-' :: base.reverse := by simp
  have hstop : decide ('-' ≠ '-') = false := by decide
  rw [splitLastHyphen, hreverse, List.dropWhile_append_of_pos hds, List.takeWhile_append_of_pos hds,
    List.dropWhile_cons_of_neg (by simp), List.takeWhile_cons_of_neg (by simp)]
  simp

theorem eq_of_splitLastHyphen {text base ds : Text} (h : splitLastHyphen text = some (base, ds)) :
    text = base ++ '-' :: ds := by
  have hsplit := List.takeWhile_append_dropWhile (p := fun c => decide (c ≠ '-')) (l := text.reverse)
  have hstop := List.head?_dropWhile_not (fun c => decide (c ≠ '-')) text.reverse
  unfold splitLastHyphen at h
  split at h
  · cases h
  · next c before hdrop =>
    rw [hdrop] at hsplit hstop
    obtain rfl : c = '-' := by simpa using hstop
    obtain ⟨rfl, rfl⟩ := Prod.mk.inj (Option.some.inj h)
    have hreverse := congrArg List.reverse hsplit
    rw [List.reverse_reverse, List.reverse_append, List.reverse_cons] at hreverse
    calc
      text = before.reverse ++ ['-'] ++ _ := hreverse.symm
      _ = before.reverse ++ '-' :: _ := by rw [List.append_assoc, List.singleton_append]

/-- A short text of a slug and a suffix is a slug. -/
theorem isValidBaseSlug_of_isSlugAndSuffix {text : Text} (h : isSlugAndSuffix text = true)
    (hlength : text.length ≤ maxBaseSlugBytes) : isValidBaseSlug text = true := by
  rw [isSlugAndSuffix, Bool.or_eq_true] at h
  rcases h with h | h
  · exact h
  · split at h
    · cases h
    · next base ordinal hsplit =>
      rw [Bool.and_eq_true, Bool.and_eq_true] at h
      obtain ⟨⟨hbase, hordinal⟩, -⟩ := h
      obtain ⟨hne, hdigits⟩ := isDigit_of_isOrdinalText hordinal
      obtain ⟨d, ds, rfl⟩ := List.exists_cons_of_ne_nil hne
      obtain rfl := eq_of_splitLastHyphen hsplit
      rw [isValidBaseSlug, Bool.and_eq_true] at hbase
      rw [isValidBaseSlug, matchSlug_append hbase.2 hdigits]
      simp only [Bool.and_true, Bool.and_eq_true, decide_eq_true_eq]
      refine ⟨?_, hlength⟩
      rw [List.length_append, List.length_cons]
      omega

/-- The identifiers of a slug pass the check of their last part. -/
theorem isSlugAndSuffix_ordinalSuffix {slug : Text} (h : isValidBaseSlug slug = true) {n : ℕ}
    (hlow : 1 ≤ n) (hhigh : n ≤ maxCollisionOrdinal) :
    isSlugAndSuffix (slug ++ ordinalSuffix n) = true := by
  unfold ordinalSuffix
  split
  · rw [List.append_nil, isSlugAndSuffix, h, Bool.true_or]
  · next hne =>
    have hordinal := isOrdinalText_toDigits (by omega : 2 ≤ n) hhigh
    rw [isSlugAndSuffix, splitLastHyphen_append slug fun _ => isDigit_of_mem_toDigits]
    simp [h, hordinal, readDigits_toDigits, hhigh]

/-! ### Generated identifiers -/

variable [Platform]

omit [Platform] in
theorem length_pageIdTimestampPrefix {u : ℤ} {timestampPrefix : Text}
    (h : pageIdTimestampPrefix u = .ok timestampPrefix) :
    timestampPrefix.length = timestampPrefixBytes := by
  have hlength : (formatUtcMicroseconds (u / 1000 * 1000)).length = 27 := by
    simp [formatUtcMicroseconds]
  simp only [pageIdTimestampPrefix, Fallible.bind_ok, Fallible.check_ok, Fallible.pure_ok,
    exists_const] at h
  obtain ⟨-, rfl⟩ := h
  simp [hlength, timestampPrefixBytes]

/-- What the generator has checked, and what it returns. -/
theorem generatePageId_ok {occurrence : OccurrenceTime} {title : Text} {n : ℕ}
    {generated : GeneratedPageId} (h : generatePageId occurrence title n = .ok generated) :
    canonicalUtcWire occurrence.utcMicroseconds = .ok occurrence.canonicalUtc ∧
      (1 ≤ n ∧ n ≤ maxCollisionOrdinal) ∧
      pageIdTimestampPrefix occurrence.utcMicroseconds = .ok generated.timestampPrefix ∧
      (∃ v, validatePageId generated.value = .ok v) ∧
      generated = ⟨generated.timestampPrefix ++ '-' :: slugifyCreationTitle title ++ ordinalSuffix n,
        generated.timestampPrefix, slugifyCreationTitle title, n⟩ := by
  simp only [generatePageId, Fallible.bind_ok, Fallible.check_ok, Fallible.pure_ok,
    exists_and_left, and_assoc, exists_const] at h
  obtain ⟨canonical, hwire, hcanonical, hlow, hhigh, timestampPrefix, hlead, v, hvalid, rfl⟩ := h
  rw [hcanonical]
  exact ⟨hwire, ⟨hlow, hhigh⟩, hlead, ⟨v, hvalid⟩, rfl⟩

omit [Platform] in
theorem all_ascii_ordinalSuffix (n : ℕ) : (ordinalSuffix n).all (·.toNat < 128) = true := by
  unfold ordinalSuffix
  split
  · rfl
  · refine List.all_eq_true.mpr fun c hc => ?_
    rcases List.mem_cons.mp hc with rfl | hc
    · decide
    · have hdigit := isDigit_of_mem_toDigits hc
      rw [isDigit, Bool.and_eq_true, decide_eq_true_eq, decide_eq_true_eq] at hdigit
      have hle : c.toNat ≤ '9'.toNat := hdigit.2
      rw [decide_eq_true_eq]
      exact hle.trans_lt (by decide)

omit [Platform] in
theorem length_ordinalSuffix {n : ℕ} (h : n ≤ maxCollisionOrdinal) :
    (ordinalSuffix n).length ≤ 11 := by
  unfold ordinalSuffix
  split
  · exact Nat.zero_le _
  · have hlength : (Nat.toDigits 10 n).length ≤ 10 := by
      rw [Nat.length_toDigits_le_iff (by decide) (by decide)]
      exact Nat.lt_succ_of_le h
    rw [List.length_cons]
    omega

omit [Platform] in
theorem validatePageId_ok {value v : Text} (h : validatePageId value = .ok v) :
    v = value ∧ value.all (·.toNat < 128) = true ∧
      isValidTimestampPrefix (value.take timestampPrefixBytes) = true ∧
      isSlugAndSuffix (value.drop (timestampPrefixBytes + 1)) = true := by
  unfold validatePageId at h
  split at h
  · next hchecks =>
    obtain ⟨-, -, hascii, -, -, hlead, hslug⟩ := hchecks
    exact ⟨(Except.ok.inj h).symm, hascii, hlead, hslug⟩
  · cases h

/-- **A title that has a first identifier has one for every ordinal.** -/
theorem exists_generatePageId {occurrence : OccurrenceTime} {title : Text} {base : GeneratedPageId}
    (hbase : generatePageId occurrence title 1 = .ok base) {n : ℕ} (hlow : 1 ≤ n)
    (hhigh : n ≤ maxCollisionOrdinal) :
    ∃ generated, generatePageId occurrence title n = .ok generated := by
  obtain ⟨hwire, -, hlead, ⟨v, hvalid⟩, hfields⟩ := generatePageId_ok hbase
  have hlength := length_pageIdTimestampPrefix hlead
  generalize base.timestampPrefix = timestampPrefix at hlead hlength hfields
  have hvalue : base.value = timestampPrefix ++ '-' :: slugifyCreationTitle title := by
    rw [hfields]
    exact List.append_nil _
  have hsplit : ∀ rest : Text, (timestampPrefix ++ '-' :: rest).take timestampPrefixBytes =
      timestampPrefix ∧ (timestampPrefix ++ '-' :: rest).drop (timestampPrefixBytes + 1) = rest ∧
      (timestampPrefix ++ '-' :: rest)[timestampPrefixBytes]? = some '-' := by
    intro rest
    rw [← hlength]
    refine ⟨List.take_left' rfl, ?_, ?_⟩
    · rw [← List.drop_drop, List.drop_left' rfl]
      rfl
    · rw [List.getElem?_append_right (Nat.le_refl _), Nat.sub_self]
      rfl
  -- the slug of the first identifier is a slug
  rw [hvalue] at hvalid
  obtain ⟨-, hascii, hstamp, hslug⟩ := validatePageId_ok hvalid
  rw [(hsplit _).1] at hstamp
  rw [(hsplit _).2.1] at hslug
  have hshort := length_slugifyCreationTitle title
  have hbaseSlug := isValidBaseSlug_of_isSlugAndSuffix hslug hshort
  have hpositive : 1 ≤ (slugifyCreationTitle title).length := by
    rw [isValidBaseSlug, Bool.and_eq_true, Bool.and_eq_true, decide_eq_true_eq] at hbaseSlug
    exact hbaseSlug.1.1
  -- so the whole identifier passes the check
  have hcheck : validatePageId
      (timestampPrefix ++ '-' :: slugifyCreationTitle title ++ ordinalSuffix n) =
      .ok (timestampPrefix ++ '-' :: slugifyCreationTitle title ++ ordinalSuffix n) := by
    have hsuffix := length_ordinalSuffix hhigh
    have htotal : (timestampPrefix ++ '-' :: (slugifyCreationTitle title ++ ordinalSuffix n)).length =
        20 + (slugifyCreationTitle title).length + (ordinalSuffix n).length := by
      rw [List.length_append, List.length_cons, List.length_append, hlength, timestampPrefixBytes]
      omega
    have hall : (timestampPrefix ++ '-' :: (slugifyCreationTitle title ++ ordinalSuffix n)).all
        (·.toNat < 128) = true := by
      rw [← List.cons_append, ← List.append_assoc, List.all_append, hascii,
        all_ascii_ordinalSuffix]
      rfl
    rw [List.append_assoc, List.cons_append, validatePageId, if_pos]
    rw [(hsplit _).1, (hsplit _).2.1, (hsplit _).2.2, htotal]
    simp only [maxBaseSlugBytes, timestampPrefixBytes, maxPageIdBytes] at hshort ⊢
    refine ⟨by omega, by omega, hall, by omega, trivial, hstamp, ?_⟩
    exact isSlugAndSuffix_ordinalSuffix hbaseSlug hlow hhigh
  simp only [generatePageId, hwire, hlead, hcheck, Fallible.ok_bind, Fallible.check_of,
    Fallible.check_of (And.intro hlow hhigh)]
  exact ⟨_, rfl⟩

end PatchouliLib
