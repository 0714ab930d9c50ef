import PatchouliLib.Foundation.Grams
import PatchouliLib.Identifiers.PageIdSyntax

/-!
# The slug of a title

The slug of a title is built in one pass with a pending separator and a cap on the
length.  Said without the pass: the words of a title are the maximal runs of its
ASCII letters and digits; the slug is their lower case, joined with hyphens, cut to
the cap, without a hyphen at the end.

## Main definitions

* `joinedWords`, `referenceSlug` — the slug, from the words of the title.
* `joinStep` — the pass without the cap.

## Main results

* `foldl_slugStep_eq_take` — the cap cuts what the pass without it writes.
* `foldl_joinStep_eq` — **the pass joins the words.**
* `slugifyCreationTitle_eq_reference` — **the slug is the slug of the words.**
* `isValidBaseSlug_slugifyCreationTitle` — every slug is in the grammar.
-/

namespace PatchouliLib

open Foundation Foundation.Grams

/-! ### The reference -/

/-- An ASCII letter or digit. -/
def isAsciiAlphanumeric (c : Char) : Bool :=
  ('A' ≤ c && c ≤ 'Z') || ('a' ≤ c && c ≤ 'z') || isDigit c

/-- The lower case of an ASCII letter. -/
def asciiLower (c : Char) : Char := if 'A' ≤ c ∧ c ≤ 'Z' then Char.ofNat (c.toNat + 32) else c

/-- The words of a title in lower case. -/
def slugWords (title : Text) : List Text :=
  (runs isAsciiAlphanumeric title).map fun run => run.map asciiLower

/-- The words of a title, joined with hyphens. -/
def joinedWords (title : Text) : Text := ['-'].intercalate (slugWords title)

/-- The slug of the words of a title, or of its digest when it has none. -/
def referenceSlug [Platform] (title : Text) : Text :=
  if title.any isAsciiAlphanumeric then
    ((joinedWords title).take maxBaseSlugBytes).rdropWhile (· = '-')
  else "page-" ++ (hex (sha256 (utf8Encode title))).take 12

/-! ### The pass -/

theorem slugCharacter_eq (c : Char) :
    slugCharacter c = if isAsciiAlphanumeric c then some (asciiLower c) else none := by
  unfold slugCharacter isAsciiAlphanumeric asciiLower
  by_cases hupper : 'A' ≤ c ∧ c ≤ 'Z'
  · rw [if_pos hupper, if_pos hupper, if_pos]
    simp [hupper]
  · rw [if_neg hupper, if_neg hupper]
    refine if_congr ?_ rfl rfl
    rw [Bool.or_eq_true, Bool.or_eq_true, Bool.and_eq_true, Bool.and_eq_true]
    simp only [decide_eq_true_eq]
    tauto

/-- One round of the pass without the cap: what is written, and the pending separator. -/
def joinStep (s : Text × Bool) (c : Char) : Text × Bool :=
  if isAsciiAlphanumeric c then
    (s.1 ++ (if s.2 = true ∧ s.1 ≠ [] then ['-'] else []) ++ [asciiLower c], false)
  else (s.1, true)

/-- One more character, as long as there is room. -/
theorem concat_of_room (full : Text) (c : Char) (room : ℕ) :
    (if (full.take room).length < room then full.take room ++ [c] else full.take room) =
      (full ++ [c]).take room := by
  rw [List.length_take]
  by_cases hroom : full.length < room
  · rw [if_pos (by omega), List.take_of_length_le hroom.le, List.take_of_length_le]
    rw [List.length_append, List.length_singleton]
    exact hroom
  · rw [if_neg (by omega), List.take_append_of_le_length (by omega)]

/-- One round writes the first characters of what the round without the cap writes. -/
theorem slugStep_eq_take {s : SlugState} {full : Text}
    (hs : s.output = full.take maxBaseSlugBytes) (c : Char) :
    (slugStep s c).output = (joinStep (full, s.separatorPending) c).1.take maxBaseSlugBytes ∧
      (slugStep s c).separatorPending = (joinStep (full, s.separatorPending) c).2 := by
  rw [slugStep, slugCharacter_eq, joinStep]
  by_cases hc : isAsciiAlphanumeric c = true
  · rw [if_pos hc, if_pos hc]
    dsimp only
    refine ⟨?_, rfl⟩
    have hempty : s.output ≠ [] ↔ full ≠ [] := by
      rw [hs, Ne, List.take_eq_nil_iff, maxBaseSlugBytes]
      simp
    have hseparator : (if s.separatorPending = true ∧ s.output ≠ [] ∧
        s.output.length < maxBaseSlugBytes then s.output ++ ['-'] else s.output) =
        (full ++ if s.separatorPending = true ∧ full ≠ [] then ['-'] else []).take
          maxBaseSlugBytes := by
      by_cases hpending : s.separatorPending = true ∧ full ≠ []
      · rw [if_pos hpending, ← concat_of_room, ← hs]
        refine if_congr ?_ rfl rfl
        exact ⟨fun h => h.2.2, fun h => ⟨hpending.1, hempty.mpr hpending.2, h⟩⟩
      · rw [if_neg hpending, List.append_nil, ← hs]
        exact if_neg fun h => hpending ⟨h.1, hempty.mp h.2.1⟩
    rw [hseparator]
    exact concat_of_room _ _ _
  · rw [if_neg hc, if_neg hc]
    exact ⟨hs, rfl⟩

/-- **The cap cuts what the pass without it writes.** -/
theorem foldl_slugStep_eq_take (title : Text) {s : SlugState} {full : Text}
    (hs : s.output = full.take maxBaseSlugBytes) :
    (title.foldl slugStep s).output =
      (title.foldl joinStep (full, s.separatorPending)).1.take maxBaseSlugBytes := by
  induction title generalizing s full with
  | nil => exact hs
  | cons c title ih =>
    obtain ⟨houtput, hpending⟩ := slugStep_eq_take hs c
    rw [List.foldl_cons, List.foldl_cons, ih houtput, hpending]

/-- A letter or digit is seen when there is one. -/
theorem foldl_slugStep_seen (title : Text) (s : SlugState) :
    (title.foldl slugStep s).asciiAlphanumericSeen =
      (s.asciiAlphanumericSeen || title.any isAsciiAlphanumeric) := by
  induction title generalizing s with
  | nil => rw [List.foldl_nil, List.any_nil, Bool.or_false]
  | cons c title ih =>
    have hstep : (slugStep s c).asciiAlphanumericSeen =
        (s.asciiAlphanumericSeen || isAsciiAlphanumeric c) := by
      rw [slugStep, slugCharacter_eq]
      by_cases hc : isAsciiAlphanumeric c = true
      · rw [if_pos hc, hc, Bool.or_true]
      · rw [if_neg hc, Bool.eq_false_iff.mpr hc, Bool.or_false]
    rw [List.foldl_cons, ih, hstep, List.any_cons, Bool.or_assoc]

/-! ### The words -/

/-- A title that begins with a word. -/
theorem slugWords_cons_of_pos {c : Char} (hc : isAsciiAlphanumeric c = true) (rest : Text) :
    slugWords (c :: rest) =
      (asciiLower c :: (rest.takeWhile isAsciiAlphanumeric).map asciiLower) ::
        slugWords (rest.dropWhile isAsciiAlphanumeric) := by
  rw [slugWords, runs, if_pos hc, List.map_cons]
  rfl

theorem slugWords_cons_of_neg {c : Char} (hc : ¬isAsciiAlphanumeric c = true) (rest : Text) :
    slugWords (c :: rest) = slugWords rest := by
  rw [slugWords, runs, if_neg hc]
  rfl

/-- The letters of a run are appended one by one. -/
theorem foldl_joinStep_run {run : Text} (hrun : ∀ c ∈ run, isAsciiAlphanumeric c = true)
    (full : Text) : run.foldl joinStep (full, false) = (full ++ run.map asciiLower, false) := by
  induction run generalizing full with
  | nil => rw [List.foldl_nil, List.map_nil, List.append_nil]
  | cons c run ih =>
    obtain ⟨hc, hrun⟩ := List.forall_mem_cons.mp hrun
    have hstep : joinStep (full, false) c = (full ++ [asciiLower c], false) := by
      rw [joinStep, if_pos hc, if_neg fun h => absurd h.1 Bool.false_ne_true, List.append_nil]
    rw [List.foldl_cons, hstep, ih hrun, List.map_cons, List.append_assoc, List.singleton_append]

/-- A separator is pending, or what comes first is none of a word. -/
def AtBoundary (pending : Bool) (rest : Text) : Prop :=
  pending = true ∨ ∀ c ∈ rest.head?, isAsciiAlphanumeric c = false

theorem atBoundary_dropWhile (title : Text) : AtBoundary false (title.dropWhile isAsciiAlphanumeric) := by
  right
  intro c hc
  have hhead := List.head?_dropWhile_not isAsciiAlphanumeric title
  rw [hc] at hhead
  simpa using hhead

/-- Behind a word every further word follows a hyphen. -/
theorem foldl_joinStep_rest {rest full : Text} {pending : Bool} (hfull : full ≠ [])
    (hboundary : AtBoundary pending rest) :
    (rest.foldl joinStep (full, pending)).1 = full ++ (slugWords rest).flatMap ('-' :: ·) := by
  induction rest using runs.induct isAsciiAlphanumeric generalizing full pending with
  | case1 => rw [slugWords, runs, List.map_nil, List.flatMap_nil, List.append_nil, List.foldl_nil]
  | case2 c rest hc ih =>
    have hpending : pending = true := by
      refine hboundary.resolve_right fun h => ?_
      rw [h c rfl] at hc
      cases hc
    have hstep : joinStep (full, pending) c = (full ++ ['-'] ++ [asciiLower c], false) := by
      rw [joinStep, if_pos hc, if_pos ⟨hpending, hfull⟩]
    have hrun := foldl_joinStep_run
      (fun d (hd : d ∈ rest.takeWhile isAsciiAlphanumeric) => List.mem_takeWhile_imp hd)
      (full ++ ['-'] ++ [asciiLower c])
    have hsplit := List.takeWhile_append_dropWhile (p := isAsciiAlphanumeric) (l := rest)
    rw [slugWords_cons_of_pos hc, List.foldl_cons, hstep, ← hsplit, List.foldl_append, hrun,
      ih (by simp) (atBoundary_dropWhile rest), hsplit, List.flatMap_cons]
    simp
  | case3 c rest hc ih =>
    have hstep : joinStep (full, pending) c = (full, true) := by
      rw [joinStep, if_neg hc]
    rw [List.foldl_cons, hstep, ih hfull (.inl rfl), slugWords_cons_of_neg hc]

/-- Joined words, word by word. -/
theorem intercalate_hyphen (word : Text) (words : List Text) :
    ['-'].intercalate (word :: words) = word ++ words.flatMap ('-' :: ·) := by
  induction words generalizing word with
  | nil => rw [List.intercalate_singleton, List.flatMap_nil, List.append_nil]
  | cons next words ih =>
    rw [List.intercalate_cons_of_ne_nil (List.cons_ne_nil _ _), ih, List.flatMap_cons,
      List.append_assoc]
    rfl

/-- **The pass joins the words.** -/
theorem foldl_joinStep_eq (title : Text) (pending : Bool) :
    (title.foldl joinStep ([], pending)).1 = joinedWords title := by
  induction title generalizing pending with
  | nil => rw [joinedWords, slugWords, runs]; rfl
  | cons c title ih =>
    by_cases hc : isAsciiAlphanumeric c = true
    · have hstep : joinStep ([], pending) c = ([asciiLower c], false) := by
        rw [joinStep, if_pos hc, if_neg fun h => h.2 rfl]
        rfl
      have hrun := foldl_joinStep_run
        (fun d (hd : d ∈ title.takeWhile isAsciiAlphanumeric) => List.mem_takeWhile_imp hd)
        [asciiLower c]
      have hsplit := List.takeWhile_append_dropWhile (p := isAsciiAlphanumeric) (l := title)
      rw [joinedWords, slugWords_cons_of_pos hc, intercalate_hyphen, List.foldl_cons, hstep, ← hsplit,
        List.foldl_append, hrun, foldl_joinStep_rest (by simp) (atBoundary_dropWhile title), hsplit]
      rfl
    · have hstep : joinStep ([], pending) c = ([], true) := by
        rw [joinStep, if_neg hc]
      rw [List.foldl_cons, hstep, ih, joinedWords, joinedWords, slugWords_cons_of_neg hc]

/-! ### The grammar -/

theorem isSlugCharacter_asciiLower {c : Char} (hc : isAsciiAlphanumeric c = true) :
    isSlugCharacter (asciiLower c) = true := by
  have hsmall : c.toNat < 128 := by
    simp only [isAsciiAlphanumeric, isDigit, Bool.or_eq_true, Bool.and_eq_true, decide_eq_true_eq,
      Char.le_def, UInt32.le_iff_toNat_le] at hc
    show c.val.toNat < 128
    rcases hc with (hc | hc) | hc
    · exact hc.2.trans_lt (by decide)
    · exact hc.2.trans_lt (by decide)
    · exact hc.2.trans_lt (by decide)
  have hall : ∀ n < 128, isAsciiAlphanumeric (Char.ofNat n) = true →
      isSlugCharacter (asciiLower (Char.ofNat n)) = true := by
    decide +kernel
  have hlower := hall c.toNat hsmall
  rw [Char.ofNat_toNat] at hlower
  exact hlower hc

/-- The characters of a word are read in one go. -/
theorem matchSlug_word {word : Text} (hne : word ≠ []) (hword : ∀ c ∈ word, isSlugCharacter c = true)
    (mayStop : Bool) (rest : Text) : matchSlug mayStop (word ++ rest) = matchSlug true rest := by
  induction word generalizing mayStop with
  | nil => exact absurd rfl hne
  | cons c word ih =>
    obtain ⟨hc, hword⟩ := List.forall_mem_cons.mp hword
    rw [List.cons_append, matchSlug, if_neg (ne_hyphen_of_isSlugCharacter hc), hc, Bool.true_and]
    cases word with
    | nil => rfl
    | cons d word => exact ih (List.cons_ne_nil d word) hword true

/-- The words of a title are not empty, and are of the characters of a slug. -/
theorem slugWords_valid {title word : Text} (h : word ∈ slugWords title) :
    word ≠ [] ∧ ∀ c ∈ word, isSlugCharacter c = true := by
  induction title using runs.induct isAsciiAlphanumeric with
  | case1 =>
    rw [slugWords, runs] at h
    exact absurd h List.not_mem_nil
  | case2 c rest hc ih =>
    rw [slugWords_cons_of_pos hc] at h
    rcases List.mem_cons.mp h with rfl | h
    · refine ⟨List.cons_ne_nil _ _, List.forall_mem_cons.mpr ⟨isSlugCharacter_asciiLower hc, ?_⟩⟩
      intro d hd
      obtain ⟨e, he, rfl⟩ := List.mem_map.mp hd
      exact isSlugCharacter_asciiLower (List.mem_takeWhile_imp he)
    · exact ih h
  | case3 c rest hc ih =>
    rw [slugWords_cons_of_neg hc] at h
    exact ih h

theorem slugWords_ne_nil {title : Text} (h : title.any isAsciiAlphanumeric = true) :
    slugWords title ≠ [] := by
  induction title with
  | nil => cases h
  | cons c title ih =>
    by_cases hc : isAsciiAlphanumeric c = true
    · rw [slugWords_cons_of_pos hc]
      exact List.cons_ne_nil _ _
    · rw [slugWords_cons_of_neg hc]
      rw [List.any_cons, Bool.eq_false_iff.mpr hc, Bool.false_or] at h
      exact ih h

/-- Further words are in the grammar. -/
theorem matchSlug_flatMap {words : List Text}
    (hwords : ∀ word ∈ words, word ≠ [] ∧ ∀ c ∈ word, isSlugCharacter c = true) :
    matchSlug true (words.flatMap ('-' :: ·)) = true := by
  induction words with
  | nil => rfl
  | cons word words ih =>
    obtain ⟨⟨hne, hword⟩, hwords⟩ := List.forall_mem_cons.mp hwords
    rw [List.flatMap_cons, List.cons_append, matchSlug, if_pos rfl, Bool.true_and,
      matchSlug_word hne hword]
    exact ih hwords

/-- The joined words are in the grammar, but for their length. -/
theorem matchSlug_joinedWords {title : Text} (h : title.any isAsciiAlphanumeric = true) :
    matchSlug false (joinedWords title) = true := by
  have hvalid (word : Text) (hword : word ∈ slugWords title) := slugWords_valid hword
  rw [joinedWords]
  cases hwords : slugWords title with
  | nil => exact absurd hwords (slugWords_ne_nil h)
  | cons word words =>
    rw [hwords] at hvalid
    obtain ⟨⟨hne, hword⟩, hrest⟩ := List.forall_mem_cons.mp hvalid
    rw [intercalate_hyphen, matchSlug_word hne hword]
    exact matchSlug_flatMap hrest

/-- **A beginning that does not end in a hyphen is in the grammar.** -/
theorem matchSlug_of_prefix {text slug : Text} {mayStop : Bool} (h : matchSlug mayStop text = true)
    (hbegins : slug <+: text) (hlast : slug.getLast? ≠ some '-')
    (hempty : slug = [] → mayStop = true) :
    matchSlug mayStop slug = true := by
  induction slug generalizing text mayStop with
  | nil => exact hempty rfl
  | cons c slug ih =>
    obtain ⟨rest, rfl⟩ := hbegins
    rw [List.cons_append, matchSlug] at h
    rw [matchSlug]
    by_cases hc : c = '-'
    · rw [if_pos hc, Bool.and_eq_true] at h ⊢
      have hne : slug ≠ [] := by
        rintro rfl
        exact hlast (by rw [hc]; rfl)
      rw [List.getLast?_cons_of_ne_nil hne] at hlast
      exact ⟨h.1, ih h.2 (List.prefix_append _ _) hlast fun hnil => absurd hnil hne⟩
    · rw [if_neg hc, Bool.and_eq_true] at h ⊢
      have hlast' : slug.getLast? ≠ some '-' := by
        cases slug with
        | nil =>
          intro hnone
          cases hnone
        | cons d slug => rwa [List.getLast?_cons_of_ne_nil (List.cons_ne_nil d slug)] at hlast
      exact ⟨h.1, ih h.2 (List.prefix_append _ _) hlast' fun _ => rfl⟩

/-! ### Slugs -/

/-- The first characters of the joined words, without a hyphen at the end. -/
def cutWords (title : Text) : Text :=
  ((joinedWords title).take maxBaseSlugBytes).rdropWhile (· = '-')

/-- The first character of a slug is none of its hyphens. -/
theorem cutWords_ne_nil {title : Text} (h : title.any isAsciiAlphanumeric = true) :
    cutWords title ≠ [] := by
  have hmatch := matchSlug_joinedWords h
  rw [cutWords]
  cases hwords : joinedWords title with
  | nil =>
    rw [hwords] at hmatch
    cases hmatch
  | cons c rest =>
    rw [hwords, matchSlug] at hmatch
    intro hnil
    have hhyphen : c = '-' := by
      have hall := List.rdropWhile_eq_nil_iff.mp hnil c
        (by rw [maxBaseSlugBytes, List.take_succ_cons]; exact List.mem_cons_self)
      exact of_decide_eq_true hall
    rw [if_pos hhyphen, Bool.false_and] at hmatch
    cases hmatch

/-- **The words of a title make a slug.** -/
theorem isValidBaseSlug_cutWords {title : Text} (h : title.any isAsciiAlphanumeric = true) :
    isValidBaseSlug (cutWords title) = true := by
  have hne := cutWords_ne_nil h
  have hbegins : cutWords title <+: joinedWords title :=
    (List.rdropWhile_prefix _ _).trans (List.take_prefix _ _)
  have hlast : (cutWords title).getLast? ≠ some '-' := by
    intro hhyphen
    rw [List.getLast?_eq_some_getLast hne] at hhyphen
    refine List.rdropWhile_last_not _ _ hne ?_
    exact decide_eq_true (Option.some.inj hhyphen)
  have hlength : (cutWords title).length ≤ maxBaseSlugBytes :=
    (List.rdropWhile_prefix _ _).length_le.trans (List.length_take_le _ _)
  rw [isValidBaseSlug, Bool.and_eq_true, Bool.and_eq_true, decide_eq_true_iff, decide_eq_true_iff]
  refine ⟨⟨List.length_pos_iff.mpr hne, hlength⟩, ?_⟩
  exact matchSlug_of_prefix (matchSlug_joinedWords h) hbegins hlast fun hnil => absurd hnil hne

section

variable [Platform]

/-- **The slug is the slug of the words.** -/
theorem slugifyCreationTitle_eq_reference (title : Text) :
    slugifyCreationTitle title = referenceSlug title := by
  have houtput : (title.foldl slugStep {}).output = (joinedWords title).take maxBaseSlugBytes := by
    rw [@foldl_slugStep_eq_take title {} [] rfl, foldl_joinStep_eq]
  have hseen : (title.foldl slugStep {}).asciiAlphanumericSeen = title.any isAsciiAlphanumeric :=
    (foldl_slugStep_seen title {}).trans (Bool.false_or _)
  rw [slugifyCreationTitle, referenceSlug, houtput, hseen]
  refine if_congr ⟨fun h => h.1, fun h => ⟨h, cutWords_ne_nil h⟩⟩ rfl rfl

omit [Platform] in
/-- The fallback is in the grammar. -/
theorem isValidBaseSlug_fallback {digest : Bytes} (h : digest.length = 32) :
    isValidBaseSlug ("page-" ++ (hex digest).take 12) = true := by
  have hdigit : ∀ n < 16, isSlugCharacter (hexDigit n) = true := by decide
  have hlength : ((hex digest).take 12).length = 12 := by
    rw [List.length_take, length_hex, h]
    rfl
  have hne : (hex digest).take 12 ≠ [] := by
    intro hnil
    rw [hnil] at hlength
    cases hlength
  have hword : ∀ c ∈ (hex digest).take 12, isSlugCharacter c = true := by
    intro c hc
    obtain ⟨n, hn, rfl⟩ := exists_of_mem_hex (List.mem_of_mem_take hc)
    exact hdigit n hn
  have hmatch := matchSlug_word hne hword false []
  rw [List.append_nil] at hmatch
  rw [isValidBaseSlug, Bool.and_eq_true, Bool.and_eq_true, decide_eq_true_iff, decide_eq_true_iff,
    List.length_append, hlength]
  exact ⟨by decide, hmatch⟩

/-- **Every slug is in the grammar.** -/
theorem isValidBaseSlug_slugifyCreationTitle
    (h32 : ∀ content : Bytes, (sha256 content).length = 32) (title : Text) :
    isValidBaseSlug (slugifyCreationTitle title) = true := by
  rw [slugifyCreationTitle_eq_reference, referenceSlug]
  split
  · next h => exact isValidBaseSlug_cutWords h
  · exact isValidBaseSlug_fallback (h32 _)

/-- **The slug of a title** is the slug of its words, every slug is in the grammar, and the slug of
words is its own slug. -/
theorem slugifyCreationTitle_exact (h32 : ∀ content : Bytes, (sha256 content).length = 32) :
    (∀ title, slugifyCreationTitle title = referenceSlug title) ∧
      (∀ title, isValidBaseSlug (slugifyCreationTitle title) = true) ∧
      ∀ title, title.any isAsciiAlphanumeric = true →
        slugifyCreationTitle (slugifyCreationTitle title) = slugifyCreationTitle title :=
  ⟨slugifyCreationTitle_eq_reference, isValidBaseSlug_slugifyCreationTitle h32, fun title _ =>
    slugifyCreationTitle_eq_self (isValidBaseSlug_slugifyCreationTitle h32 title)⟩

end

section Sample

attribute [local instance] shaPlatform

theorem slugifyCreationTitle_exact_sample :
    slugifyCreationTitle "Über Lean 4: Notes" = "ber-lean-4-notes" ∧
      isValidBaseSlug (slugifyCreationTitle "Über Lean 4: Notes") = true ∧
      slugifyCreationTitle (slugifyCreationTitle "Über Lean 4: Notes") =
        slugifyCreationTitle "Über Lean 4: Notes" := by
  obtain ⟨hreference, hvalid, hself⟩ := slugifyCreationTitle_exact Sha256.length_digest
  exact ⟨by decide +kernel, hvalid _, hself _ (by decide +kernel)⟩

end Sample

end PatchouliLib
