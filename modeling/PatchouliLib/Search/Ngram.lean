import PatchouliLib.Search.Grams

/-!
# Han grams and words

The older extraction cuts a text into runs.  A run of Han characters gives its
grams of one, two and three codepoints; a word is a maximal run of letters and
digits, with the marks that follow them.  Everything else separates runs.

## Main definitions

* `isHan` — the fixed classification.
* `termsInOrder` — the terms of a text in the order in which they are met.
* `extractTermFrequencies` — the distinct terms with the number of their occurrences.

## Main results

* `mem_termsInOrder_han` — the Han terms are the grams of Han characters.
* `extractTermFrequencies_ok` — every term that is met is returned, and no other.
-/

namespace PatchouliLib

open Foundation Foundation.Grams

/-- The tables of the standard library that tell letters, digits and marks. -/
class CharacterTables where
  /-- `character.isalnum()`. -/
  isAlnum : Char → Bool
  /-- `unicodedata.category(character).startswith("M")`. -/
  isMark : Char → Bool

def maxInputBytes : ℕ := 2 * 1024 * 1024
def maxNormalizedBytes : ℕ := 4 * maxInputBytes

/-! ### Han characters -/

def hanRanges : List (ℕ × ℕ) :=
  [(0x3007, 0x3007), (0x3400, 0x4DBF), (0x4E00, 0x9FFF), (0xF900, 0xFAFF), (0x20000, 0x2A6DF),
    (0x2A700, 0x2B73F), (0x2B740, 0x2B81F), (0x2B820, 0x2CEAF), (0x2CEB0, 0x2EBEF),
    (0x2EBF0, 0x2EE5F), (0x2F800, 0x2FA1F), (0x30000, 0x3134F), (0x31350, 0x323AF)]

/-- The last range that starts at or below the codepoint holds it. -/
def isHan (character : Char) : Bool :=
  match (hanRanges.takeWhile (·.1 ≤ character.toNat)).getLast? with
  | none => false
  | some range => character.toNat ≤ range.2

/-! ### Terms -/

inductive TermKind where
  | han1
  | han2
  | han3
  | word
deriving DecidableEq, Repr

/-- The spelling of a kind. -/
def TermKind.label : TermKind → Text
  | .han1 => "han1"
  | .han2 => "han2"
  | .han3 => "han3"
  | .word => "word"

/-- `("han1", "han2", "han3")[width - 1]`. -/
def hanKind (width : ℕ) : TermKind :=
  if width = 1 then .han1 else if width = 2 then .han2 else .han3

theorem hanKind_ne_word (width : ℕ) : hanKind width ≠ .word := by
  unfold hanKind
  split
  · decide
  · split <;> decide

/-- A literal normalized term and its overlapping occurrence count. -/
structure TermFrequency where
  kind : TermKind
  text : Text
  frequency : ℕ
deriving DecidableEq, Repr

def TermFrequency.key (term : TermFrequency) : TermKind × Text := (term.kind, term.text)

/-- The terms of a run of Han characters, the short ones first. -/
def hanTerms (run : Text) : List (TermKind × Text) :=
  (byWidth 3 run).map fun gram => (hanKind gram.length, gram)

section Extraction

variable [CharacterTables]

/-- A word goes on with a letter, a digit or a mark that is no Han character. -/
def continuesWord (following : Char) : Bool :=
  !isHan following && (CharacterTables.isAlnum following || CharacterTables.isMark following)

/-- The terms of a text in the order in which they are met. -/
def termsInOrder : Text → List (TermKind × Text)
  | [] => []
  | character :: rest =>
    if isHan character then
      hanTerms (character :: rest.takeWhile isHan) ++ termsInOrder (rest.dropWhile isHan)
    else if CharacterTables.isAlnum character then
      (.word, character :: rest.takeWhile continuesWord) ::
        termsInOrder (rest.dropWhile continuesWord)
    else termsInOrder rest
termination_by text => text.length
decreasing_by
  · exact Nat.lt_succ_of_le (List.length_dropWhile_le isHan rest)
  · exact Nat.lt_succ_of_le (List.length_dropWhile_le continuesWord rest)
  · exact Nat.lt_succ_self rest.length

/-- What lies between two runs has no Han character. -/
theorem runs_isHan_dropWhile (text : Text) :
    runs isHan (text.dropWhile continuesWord) = runs isHan text := by
  conv_rhs => rw [← List.takeWhile_append_dropWhile (p := continuesWord) (l := text)]
  refine (runs_append_of_none ?_ _).symm
  intro character hcharacter
  have hword := List.mem_takeWhile_imp hcharacter
  rw [continuesWord, Bool.and_eq_true, Bool.not_eq_true'] at hword
  exact hword.1

/-- Han terms come from the runs of Han characters. -/
theorem mem_termsInOrder {kind : TermKind} {term text : Text} (hkind : kind ≠ .word) :
    (kind, term) ∈ termsInOrder text ↔ ∃ run ∈ runs isHan text, (kind, term) ∈ hanTerms run := by
  induction text using termsInOrder.induct with
  | case1 => simp [termsInOrder, runs]
  | case2 character rest hhan ih =>
    rw [termsInOrder, if_pos hhan, runs, if_pos hhan, List.mem_append, ih]
    simp only [List.mem_cons, exists_eq_or_imp]
  | case3 character rest hhan halnum ih =>
    have hne : (kind, term) ≠ (TermKind.word, character :: rest.takeWhile continuesWord) :=
      fun h => hkind (Prod.mk.inj h).1
    rw [termsInOrder, if_neg hhan, if_pos halnum, runs, if_neg hhan, List.mem_cons, ih,
      runs_isHan_dropWhile]
    simp only [hne, false_or]
  | case4 character rest hhan halnum ih =>
    rw [termsInOrder, if_neg hhan, if_neg halnum, runs, if_neg hhan, ih]

/-- **The Han terms are the grams of Han characters.** -/
theorem mem_termsInOrder_han {kind : TermKind} {term text : Text} (hkind : kind ≠ .word) :
    (kind, term) ∈ termsInOrder text ↔
      kind = hanKind term.length ∧ IsGram 3 term text ∧ ∀ c ∈ term, isHan c := by
  rw [mem_termsInOrder hkind, ← mem_runs_grams]
  simp only [hanTerms, List.mem_map, Prod.mk.injEq]
  constructor
  · rintro ⟨run, hrun, gram, hgram, rfl, rfl⟩
    exact ⟨rfl, run, hrun, mem_byWidth.mp hgram⟩
  · rintro ⟨rfl, run, hrun, hgram⟩
    exact ⟨run, hrun, term, mem_byWidth.mpr hgram, rfl, rfl⟩

/-! ### Counting -/

/-- `add(kind, term)`. -/
def addTerm (counts : List TermFrequency) (key : TermKind × Text) :
    Except Err (List TermFrequency) :=
  if counts.any (·.key = key) then
    .ok (counts.map fun term =>
      if term.key = key then { term with frequency := term.frequency + 1 } else term)
  else if counts.length < maxUniqueTerms then .ok (counts ++ [⟨key.1, key.2, 1⟩])
  else .error .validation

def TermKind.rank : TermKind → ℕ
  | .han1 => 1
  | .han2 => 2
  | .han3 => 3
  | .word => 4

/-- The order of `sorted(counts.items())`. -/
def termLe (a b : TermFrequency) : Prop :=
  a.kind.rank < b.kind.rank ∨ a.kind.rank = b.kind.rank ∧ a.text ≤ b.text

instance : DecidableRel termLe := fun a b => by
  unfold termLe
  infer_instance

omit [CharacterTables] in
/-- One term is counted. -/
theorem addTerm_keys {counts counts' : List TermFrequency} {key : TermKind × Text}
    (h : addTerm counts key = .ok counts') (key' : TermKind × Text) :
    key' ∈ counts'.map (·.key) ↔ key' ∈ counts.map (·.key) ∨ key' = key := by
  unfold addTerm at h
  by_cases hseen : counts.any (·.key = key)
  · rw [if_pos hseen, Except.ok.injEq] at h
    subst h
    have hmem : key ∈ counts.map (·.key) := by simpa using hseen
    have hkeys : (counts.map fun term =>
        if term.key = key then { term with frequency := term.frequency + 1 } else term).map
          (·.key) = counts.map (·.key) := by
      rw [List.map_map]
      refine List.map_congr_left fun term _ => ?_
      rw [Function.comp_apply]
      split <;> rfl
    rw [hkeys]
    constructor
    · exact .inl
    · rintro (hkey | rfl)
      · exact hkey
      · exact hmem
  · rw [if_neg hseen] at h
    by_cases hroom : counts.length < maxUniqueTerms
    · rw [if_pos hroom, Except.ok.injEq] at h
      subst h
      rw [List.map_append, List.mem_append, List.map_singleton, List.mem_singleton]
      rfl
    · rw [if_neg hroom] at h
      cases h

omit [CharacterTables] in
/-- All terms are counted. -/
theorem foldlM_addTerm_keys {terms : List (TermKind × Text)} {counts counts' : List TermFrequency}
    (h : terms.foldlM addTerm counts = .ok counts') (key : TermKind × Text) :
    key ∈ counts'.map (·.key) ↔ key ∈ counts.map (·.key) ∨ key ∈ terms := by
  induction terms generalizing counts with
  | nil =>
    rw [List.foldlM_nil, Fallible.pure_ok] at h
    subst h
    simp
  | cons term terms ih =>
    rw [List.foldlM_cons] at h
    obtain ⟨mid, hmid, h⟩ := Fallible.bind_ok.mp h
    rw [ih h, addTerm_keys hmid, List.mem_cons, or_assoc]

variable [Platform]

/-- `_normalize`. -/
def normalizeText (value : FieldValue) : Except Err Text :=
  normalizeWithin maxInputBytes maxNormalizedBytes value

/-- Sorted, counted Han grams and non-Han alphanumeric runs. -/
def extractTermFrequencies (value : FieldValue) : Except Err (List TermFrequency) := do
  let normalized ← normalizeText value
  let counts ← (termsInOrder normalized).foldlM addTerm []
  pure (counts.insertionSort termLe)

/-- Every term that is met is returned, and no other. -/
theorem extractTermFrequencies_ok {value : FieldValue} {terms : List TermFrequency}
    (h : extractTermFrequencies value = .ok terms) :
    ∃ normalized, normalizeText value = .ok normalized ∧
      ∀ key, key ∈ terms.map (·.key) ↔ key ∈ termsInOrder normalized := by
  obtain ⟨normalized, hnormal, h⟩ := Fallible.bind_ok.mp h
  obtain ⟨counts, hcounts, h⟩ := Fallible.bind_ok.mp h
  rw [Fallible.pure_ok] at h
  subst h
  refine ⟨normalized, hnormal, fun key => ?_⟩
  rw [((List.perm_insertionSort termLe counts).map _).mem_iff, foldlM_addTerm_keys hcounts]
  simp

/-- The Han terms of a text. -/
theorem mem_extractTermFrequencies {value : FieldValue} {terms : List TermFrequency}
    {normalized : Text} (h : extractTermFrequencies value = .ok terms)
    (hnormal : normalizeText value = .ok normalized) {kind : TermKind} {text : Text}
    (hkind : kind ≠ .word) :
    (kind, text) ∈ terms.map (·.key) ↔
      kind = hanKind text.length ∧ IsGram 3 text normalized ∧ ∀ c ∈ text, isHan c := by
  obtain ⟨normalized', hnormal', hterms⟩ := extractTermFrequencies_ok h
  rw [hnormal, Except.ok.injEq] at hnormal'
  subst hnormal'
  rw [hterms, mem_termsInOrder_han hkind]

end Extraction

end PatchouliLib
