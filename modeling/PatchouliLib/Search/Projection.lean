import PatchouliLib.Search.Ngram

/-!
# The projection of a page and its candidate terms

A page is stored as three columns of terms: the Han grams of every field and the
short grams of its other runs.  A query looks for one term of every keyword.  The
normal form of a keyword may begin and end inside the runs of a field; the term is
chosen so that the field has it all the same.

## Main definitions

* `encodedTerms` — the terms of one field.
* `projectPageText` — the columns of a page.
* `candidateTerm`, `candidateMatchExpression` — the terms a query looks for.

## Main results

* `mem_encodedTerms` — every gram of one class is stored.
* `candidateTerm_gram` — a candidate is a gram of the keyword, of one class.
* `candidateTerm_sound` — **a field that contains the keyword has its candidate term.**
-/

namespace PatchouliLib

open Foundation Foundation.Grams Foundation.Budget

def maxIndexablePageTextBytes : ℕ := maxInputBytes
def maxExperimentQueryBytes : ℕ := 32 * 1024
def maxExperimentKeywords : ℕ := 256

/-! ### Terms -/

/-- `f"{term.kind}{term.text.encode('utf-8').hex()}"`. -/
def encodedTerm (kind : TermKind) (text : Text) : Text := kind.label ++ hex (utf8Encode text)

/-- `f"c{width}{gram.encode('utf-8').hex()}"`. -/
def shortToken (gram : Text) : Text :=
  'c' :: Nat.toDigits 10 gram.length ++ hex (utf8Encode gram)

theorem isAlphanum_of_mem_encodedTerm {kind : TermKind} {text : Text} {c : Char}
    (h : c ∈ encodedTerm kind text) : c.isAlphanum := by
  rw [encodedTerm, List.mem_append] at h
  rcases h with h | h
  · cases kind <;> revert c <;> decide
  · exact isAlphanum_of_mem_hex h

theorem isAlphanum_of_mem_shortToken {gram : Text} {c : Char} (h : c ∈ shortToken gram) :
    c.isAlphanum := by
  simp only [shortToken, List.cons_append, List.mem_cons, List.mem_append] at h
  rcases h with rfl | h | h
  · decide
  · rw [Char.isAlphanum, Json.isDigit_of_mem_toDigits h, Bool.or_true]
  · exact isAlphanum_of_mem_hex h

/-- The short grams of the runs without a Han character. -/
def shortTokens (normalized : Text) : List Text :=
  (runs (fun character => !isHan character) normalized).flatMap fun run =>
    (byWidth 3 run).map shortToken

theorem mem_shortTokens {normalized token : Text} :
    token ∈ shortTokens normalized ↔
      ∃ gram, (IsGram 3 gram normalized ∧ ∀ c ∈ gram, !isHan c) ∧ shortToken gram = token := by
  simp only [shortTokens, List.mem_flatMap, List.mem_map, mem_byWidth, ← mem_runs_grams]
  constructor
  · rintro ⟨run, hrun, gram, hgram, rfl⟩
    exact ⟨gram, ⟨run, hrun, hgram⟩, rfl⟩
  · rintro ⟨gram, ⟨run, hrun, hgram⟩, rfl⟩
    exact ⟨run, hrun, gram, hgram, rfl⟩

/-- `max(items, key=...)`: the first of the largest. -/
def pickMax {α : Type} (lt : α → α → Bool) : List α → Option α
  | [] => none
  | x :: xs => some (xs.foldl (fun best y => if lt best y then y else best) x)

theorem mem_of_pickMax {α : Type} {lt : α → α → Bool} {xs : List α} {x : α}
    (h : pickMax lt xs = some x) : x ∈ xs := by
  cases xs with
  | nil => cases h
  | cons y ys =>
    rw [pickMax, Option.some.injEq] at h
    subst h
    induction ys generalizing y with
    | nil => exact List.mem_singleton_self y
    | cons z zs ih =>
      rw [List.foldl_cons]
      have hstep := ih (if lt y z then z else y)
      rcases List.mem_cons.mp hstep with hhead | htail
      · rw [hhead]
        split
        · exact List.mem_cons_of_mem y List.mem_cons_self
        · exact List.mem_cons_self
      · exact List.mem_cons_of_mem y (List.mem_cons_of_mem z htail)

/-- The key of `max` over Han terms: the width, then the text. -/
def hanTermLt (a b : TermFrequency) : Bool :=
  a.kind.rank < b.kind.rank ∨ a.kind.rank = b.kind.rank ∧ a.text < b.text

/-- `int(token[1])`. -/
def tokenWidth (token : Text) : ℕ := (token.getD 1 '0').toNat - '0'.toNat

/-- The key of `max` over short tokens: the width, then the token. -/
def shortTokenLt (a b : Text) : Bool :=
  tokenWidth a < tokenWidth b ∨ tokenWidth a = tokenWidth b ∧ a < b

section Fields

variable [CharacterTables] [Platform]

/-- Encode 1/2/3-codepoint grams within each non-Han run, including symbols. -/
def nonHanShortTerms (value : Text) : Except Err (List Text) := do
  let normalized ← normalizeText (.str value)
  insertAll maxUniqueTerms .validation [] (shortTokens normalized)

/-- The terms of one field. -/
def encodedTerms (value : Text) : Except Err (List Text) := do
  let frequencies ← extractTermFrequencies (.str value)
  let terms := (frequencies.filter (·.kind ≠ .word)).map fun term => encodedTerm term.kind term.text
  let shortTerms ← nonHanShortTerms value
  let terms := terms.dedup ∪ shortTerms
  Fallible.check (terms.length ≤ maxUniqueTerms) .validation
  pure terms

/-- The term that a query looks for to find a keyword. -/
def candidateTerm (keyword : Text) : Except Err Text := do
  Fallible.check (keyword ≠ []) .validation
  let frequencies ← extractTermFrequencies (.str keyword)
  match pickMax hanTermLt (frequencies.filter (·.kind ≠ .word)) with
  | some chosen => pure (encodedTerm chosen.kind chosen.text)
  | none => do
    let shortTerms ← nonHanShortTerms keyword
    Fallible.get (pickMax shortTokenLt shortTerms) .validation

omit [CharacterTables] in
theorem nonHanShortTerms_ok {value normalized : Text} {terms : List Text}
    (h : nonHanShortTerms value = .ok terms) (hnormal : normalizeText (.str value) = .ok normalized)
    (token : Text) :
    token ∈ terms ↔
      ∃ gram, (IsGram 3 gram normalized ∧ ∀ c ∈ gram, !isHan c) ∧ shortToken gram = token := by
  rw [nonHanShortTerms, hnormal, Fallible.ok_bind] at h
  obtain ⟨hcollects, -⟩ := insertAll_ok Collects.empty (Nat.zero_le _) h
  rw [hcollects.mem_iff, Set.empty_union, Set.mem_ofPred_eq, mem_shortTokens]

/-- **Every gram of one class is stored.** -/
theorem mem_encodedTerms {value normalized : Text} {terms : List Text}
    (h : encodedTerms value = .ok terms) (hnormal : normalizeText (.str value) = .ok normalized)
    (token : Text) :
    token ∈ terms ↔ ∃ gram, IsGram 3 gram normalized ∧
      ((∀ c ∈ gram, isHan c) ∧ encodedTerm (hanKind gram.length) gram = token ∨
        (∀ c ∈ gram, !isHan c) ∧ shortToken gram = token) := by
  obtain ⟨frequencies, hfrequencies, h⟩ := Fallible.bind_ok.mp h
  obtain ⟨shortTerms, hshort, h⟩ := Fallible.bind_ok.mp h
  obtain ⟨_, -, h⟩ := Fallible.bind_ok.mp h
  rw [Fallible.pure_ok] at h
  subst h
  have hhan : ∀ kind text, kind ≠ TermKind.word → ((kind, text) ∈ frequencies.map (·.key) ↔
      kind = hanKind text.length ∧ IsGram 3 text normalized ∧ ∀ c ∈ text, isHan c) :=
    fun _ _ hkind => mem_extractTermFrequencies hfrequencies hnormal hkind
  rw [List.mem_union_iff, List.mem_dedup, nonHanShortTerms_ok hshort hnormal, List.mem_map]
  constructor
  · rintro (⟨term, hterm, rfl⟩ | ⟨gram, ⟨hgram, hall⟩, rfl⟩)
    · rw [List.mem_filter, decide_eq_true_eq] at hterm
      obtain ⟨hkind, hgram, hall⟩ := (hhan term.kind term.text hterm.2).mp
        (List.mem_map_of_mem hterm.1)
      exact ⟨term.text, hgram, .inl ⟨hall, by rw [← hkind]⟩⟩
    · exact ⟨gram, hgram, .inr ⟨hall, rfl⟩⟩
  · rintro ⟨gram, hgram, ⟨hall, rfl⟩ | ⟨hall, rfl⟩⟩
    · have hkind := hanKind_ne_word gram.length
      obtain ⟨term, hterm, hkey⟩ := List.mem_map.mp ((hhan _ gram hkind).mpr ⟨rfl, hgram, hall⟩)
      obtain ⟨hkey, htext⟩ := Prod.mk.inj hkey
      refine .inl ⟨term, ?_, by rw [hkey, htext]⟩
      rw [List.mem_filter, decide_eq_true_eq, hkey]
      exact ⟨hterm, hkind⟩
    · exact .inr ⟨gram, ⟨hgram, hall⟩, rfl⟩

/-- A candidate is a gram of the keyword, of one class. -/
theorem candidateTerm_gram {keyword normalized token : Text} (h : candidateTerm keyword = .ok token)
    (hnormal : normalizeText (.str keyword) = .ok normalized) :
    ∃ gram, IsGram 3 gram normalized ∧
      ((∀ c ∈ gram, isHan c) ∧ encodedTerm (hanKind gram.length) gram = token ∨
        (∀ c ∈ gram, !isHan c) ∧ shortToken gram = token) := by
  obtain ⟨_, -, h⟩ := Fallible.bind_ok.mp h
  obtain ⟨frequencies, hfrequencies, h⟩ := Fallible.bind_ok.mp h
  cases hchosen : pickMax hanTermLt (frequencies.filter (·.kind ≠ .word)) with
  | some chosen =>
    rw [hchosen, Fallible.pure_ok] at h
    have hmem := mem_of_pickMax hchosen
    rw [List.mem_filter, decide_eq_true_eq] at hmem
    obtain ⟨hkind, hgram, hall⟩ := (mem_extractTermFrequencies hfrequencies hnormal hmem.2).mp
      (List.mem_map_of_mem hmem.1)
    exact ⟨chosen.text, hgram, .inl ⟨hall, by rw [← hkind, h]⟩⟩
  | none =>
    rw [hchosen] at h
    obtain ⟨shortTerms, hshort, h⟩ := Fallible.bind_ok.mp h
    rw [Fallible.get_ok] at h
    obtain ⟨gram, ⟨hgram, hall⟩, htoken⟩ :=
      (nonHanShortTerms_ok hshort hnormal token).mp (mem_of_pickMax h)
    exact ⟨gram, hgram, .inr ⟨hall, htoken⟩⟩

/-- The terms of a field have the candidate of a keyword it contains. -/
theorem candidateTerm_mem {keyword value token inKeyword inField : Text} {terms : List Text}
    (hcandidate : candidateTerm keyword = .ok token)
    (hkeyword : normalizeText (.str keyword) = .ok inKeyword)
    (hterms : encodedTerms value = .ok terms)
    (hfield : normalizeText (.str value) = .ok inField) (hcontains : inKeyword <:+: inField) :
    token ∈ terms := by
  obtain ⟨gram, hgram, hclass⟩ := candidateTerm_gram hcandidate hkeyword
  exact (mem_encodedTerms hterms hfield token).mpr ⟨gram, hgram.of_contained hcontains, hclass⟩

/-- A stored term has no blank. -/
theorem not_mem_of_mem_encodedTerms {value token : Text} {terms : List Text}
    (h : encodedTerms value = .ok terms) (htoken : token ∈ terms) : ' ' ∉ token := by
  obtain ⟨frequencies, hfrequencies, -⟩ := Fallible.bind_ok.mp h
  obtain ⟨normalized, hnormal, -⟩ := extractTermFrequencies_ok hfrequencies
  obtain ⟨gram, -, ⟨-, rfl⟩ | ⟨-, rfl⟩⟩ := (mem_encodedTerms h hnormal token).mp htoken
  · exact fun hblank => absurd (isAlphanum_of_mem_encodedTerm hblank) (by decide)
  · exact fun hblank => absurd (isAlphanum_of_mem_shortToken hblank) (by decide)

/-! ### A page -/

/-- The text of a page: its title, the body of an old one, and its files; a file
that is not text contributes its name only. -/
structure PageText where
  title : Text
  body : Option FieldValue
  textFiles : List (Text × FieldValue)
  opaqueFileNames : List Text

/-- Generated full-text columns for one page. -/
structure LiteralPageProjection where
  titleTerms : Text
  bodyTerms : Text
  fileTerms : Text
deriving DecidableEq

/-- The state of the loop over the files. -/
structure ProjectionLoop where
  seenNames : List Text
  totalBytes : ℕ
  fileTerms : List Text

/-- The key of a safe name that was not seen before. -/
def validatedFileName (name : Text) (seen : List Text) : Except Err (List Text) := do
  let normalized ← normalizeFileName name
  Fallible.check (normalized = name) .validation
  let key := Platform.casefold (← normalizeText (.str name))
  Fallible.check (key ∉ seen) .validation
  pure (key :: seen)

/-- A text file adds the terms of its name and of its content. -/
def projectTextFile (s : ProjectionLoop) (entry : Text × FieldValue) :
    Except Err ProjectionLoop := do
  let (name, content) := entry
  let seenNames ← validatedFileName name s.seenNames
  let normalizedContent ← normalizeText content
  let totalBytes := s.totalBytes + (utf8Encode name).length + (utf8Encode normalizedContent).length
  Fallible.check (totalBytes ≤ maxIndexablePageTextBytes) .validation
  let nameTerms ← encodedTerms name
  let contentTerms ← encodedTerms normalizedContent
  let fileTerms := (s.fileTerms ∪ nameTerms) ∪ contentTerms
  Fallible.check (fileTerms.length ≤ maxUniqueTerms) .validation
  pure ⟨seenNames, totalBytes, fileTerms⟩

/-- Another file adds the terms of its name. -/
def projectOpaqueFile (s : ProjectionLoop) (name : Text) : Except Err ProjectionLoop := do
  let seenNames ← validatedFileName name s.seenNames
  let totalBytes := s.totalBytes + (utf8Encode name).length
  Fallible.check (totalBytes ≤ maxIndexablePageTextBytes) .validation
  let nameTerms ← encodedTerms name
  let fileTerms := s.fileTerms ∪ nameTerms
  Fallible.check (fileTerms.length ≤ maxUniqueTerms) .validation
  pure ⟨seenNames, totalBytes, fileTerms⟩

/-- `" ".join(sorted(terms))`. -/
def joinTerms (terms : List Text) : Text := [' '].intercalate (terms.insertionSort tokenLe)

/-- The body, or an empty one. -/
def normalizeBody : Option FieldValue → Except Err Text
  | none => pure []
  | some body => normalizeText body

/-- Project explicitly labelled text, with no partial index. -/
def projectPageText (page : PageText) : Except Err LiteralPageProjection := do
  Fallible.check (page.title ≠ []) .validation
  Fallible.check (page.textFiles.length + page.opaqueFileNames.length ≤ maxFilesPerPage) .validation
  let normalizedTitle ← normalizeText (.str page.title)
  let normalizedBody ← normalizeBody page.body
  let totalBytes := (utf8Encode normalizedTitle).length + (utf8Encode normalizedBody).length
  Fallible.check (totalBytes ≤ maxIndexablePageTextBytes) .validation
  let s ← page.textFiles.foldlM projectTextFile ⟨[], totalBytes, []⟩
  let s ← page.opaqueFileNames.foldlM projectOpaqueFile s
  let titleTerms ← encodedTerms normalizedTitle
  let bodyTerms ← encodedTerms normalizedBody
  Fallible.check ((titleTerms ∪ bodyTerms ∪ s.fileTerms).length ≤ maxUniqueTerms) .validation
  pure ⟨joinTerms titleTerms, joinTerms bodyTerms, joinTerms s.fileTerms⟩

/-- A column of a projection with the fields that are stored in it. -/
inductive PageText.Stores (page : PageText) (projection : LiteralPageProjection) :
    Text → FieldValue → Prop where
  | title : Stores page projection projection.titleTerms (.str page.title)
  | body {body : FieldValue} (h : page.body = some body) :
      Stores page projection projection.bodyTerms body
  | fileName {name : Text} {content : FieldValue} (h : (name, content) ∈ page.textFiles) :
      Stores page projection projection.fileTerms (.str name)
  | fileText {name : Text} {content : FieldValue} (h : (name, content) ∈ page.textFiles) :
      Stores page projection projection.fileTerms content
  | opaqueFileName {name : Text} (h : name ∈ page.opaqueFileNames) :
      Stores page projection projection.fileTerms (.str name)

/-- A term list holds the candidates of the keywords that a field contains. -/
def CoversField (terms : List Text) (value : FieldValue) : Prop :=
  ∀ keyword token inKeyword inField, candidateTerm keyword = .ok token →
    normalizeText (.str keyword) = .ok inKeyword → normalizeText value = .ok inField →
    inKeyword <:+: inField → token ∈ terms

theorem CoversField.mono {terms terms' : List Text} {value : FieldValue}
    (h : CoversField terms value) (hsub : terms ⊆ terms') : CoversField terms' value :=
  fun keyword token inKeyword inField hcandidate hkeyword hfield hcontains =>
    hsub (h keyword token inKeyword inField hcandidate hkeyword hfield hcontains)

/-- The terms of a text cover it. -/
theorem CoversField.of_encodedTerms {value : Text} {terms : List Text}
    (h : encodedTerms value = .ok terms) : CoversField terms (.str value) :=
  fun _ _ _ _ hcandidate hkeyword hfield hcontains =>
    candidateTerm_mem hcandidate hkeyword h hfield hcontains

/-- The terms of a normal form cover the field it is the normal form of. -/
theorem CoversField.of_normalized
    (hidempotent : ∀ text : Text, normalForm (normalForm text) = normalForm text)
    {value : FieldValue} {normalized : Text} {terms : List Text}
    (hnormal : normalizeText value = .ok normalized) (h : encodedTerms normalized = .ok terms) :
    CoversField terms value := by
  intro keyword token inKeyword inField hcandidate hkeyword hfield hcontains
  rw [hnormal, Except.ok.injEq] at hfield
  subst hfield
  -- normalizing again changes nothing
  obtain ⟨frequencies, hfrequencies, -⟩ := Fallible.bind_ok.mp h
  obtain ⟨again, hagain, -⟩ := extractTermFrequencies_ok hfrequencies
  obtain ⟨text, -, htext⟩ := normalizeWithin_ok hnormal
  obtain ⟨text', htext', hnormal'⟩ := normalizeWithin_ok hagain
  have hsame : again = normalized := by
    rw [← hnormal', ← Option.some.inj htext', ← htext, hidempotent]
  rw [hsame] at hagain
  exact candidateTerm_mem hcandidate hkeyword h hagain hcontains

/-- No stored term has a blank. -/
def Unbroken (terms : List Text) : Prop := ∀ token ∈ terms, ' ' ∉ token

omit [CharacterTables] [Platform] in
theorem Unbroken.union {terms terms' : List Text} (h : Unbroken terms) (h' : Unbroken terms') :
    Unbroken (terms ∪ terms') := by
  intro token htoken
  rcases List.mem_union_iff.mp htoken with htoken | htoken
  · exact h token htoken
  · exact h' token htoken

theorem unbroken_encodedTerms {value : Text} {terms : List Text}
    (h : encodedTerms value = .ok terms) : Unbroken terms :=
  fun _ => not_mem_of_mem_encodedTerms h

omit [CharacterTables] [Platform] in
/-- A column is read back term by term. -/
theorem mem_splitOn_joinTerms {terms : List Text} {token : Text} (hterms : Unbroken terms)
    (htoken : token ∈ terms) : token ∈ (joinTerms terms).splitOn ' ' := by
  have hsorted : token ∈ terms.insertionSort tokenLe := (List.mem_insertionSort tokenLe).mpr htoken
  rw [joinTerms, List.splitOn_intercalate ' ']
  · exact hsorted
  · exact fun token' htoken' => hterms token' ((List.mem_insertionSort tokenLe).mp htoken')
  · exact List.ne_nil_of_mem hsorted

/-- A text file keeps what is there and is covered. -/
theorem projectTextFile_ok
    (hidempotent : ∀ text : Text, normalForm (normalForm text) = normalForm text)
    {s s' : ProjectionLoop} {entry : Text × FieldValue} (h : projectTextFile s entry = .ok s') :
    s.fileTerms ⊆ s'.fileTerms ∧ (Unbroken s.fileTerms → Unbroken s'.fileTerms) ∧
      CoversField s'.fileTerms (.str entry.1) ∧ CoversField s'.fileTerms entry.2 := by
  obtain ⟨name, content⟩ := entry
  simp only [projectTextFile, Fallible.bind_ok, Fallible.check_ok, Fallible.pure_ok,
    exists_and_left, exists_const] at h
  obtain ⟨seenNames, -, normalized, hnormal, -, nameTerms, hname, contentTerms, hcontent, -, rfl⟩ := h
  refine ⟨?_, ?_, ?_, ?_⟩
  · exact fun token htoken => List.mem_union_iff.mpr (.inl (List.mem_union_iff.mpr (.inl htoken)))
  · exact fun hs => (hs.union (unbroken_encodedTerms hname)).union (unbroken_encodedTerms hcontent)
  · refine (CoversField.of_encodedTerms hname).mono fun token htoken => ?_
    exact List.mem_union_iff.mpr (.inl (List.mem_union_iff.mpr (.inr htoken)))
  · refine (CoversField.of_normalized hidempotent hnormal hcontent).mono fun token htoken => ?_
    exact List.mem_union_iff.mpr (.inr htoken)

/-- Another file keeps what is there, and its name is covered. -/
theorem projectOpaqueFile_ok {s s' : ProjectionLoop} {name : Text}
    (h : projectOpaqueFile s name = .ok s') :
    s.fileTerms ⊆ s'.fileTerms ∧ (Unbroken s.fileTerms → Unbroken s'.fileTerms) ∧
      CoversField s'.fileTerms (.str name) := by
  simp only [projectOpaqueFile, Fallible.bind_ok, Fallible.check_ok, Fallible.pure_ok,
    exists_and_left, exists_const] at h
  obtain ⟨seenNames, -, -, nameTerms, hname, -, rfl⟩ := h
  refine ⟨?_, ?_, ?_⟩
  · exact fun token htoken => List.mem_union_iff.mpr (.inl htoken)
  · exact fun hs => hs.union (unbroken_encodedTerms hname)
  · refine (CoversField.of_encodedTerms hname).mono fun token htoken => ?_
    exact List.mem_union_iff.mpr (.inr htoken)

omit [CharacterTables] [Platform] in
/-- A loop over files whose rounds keep what is there covers every file. -/
theorem foldlM_covers {α : Type} {step : ProjectionLoop → α → Except Err ProjectionLoop}
    (Covered : List Text → α → Prop)
    (hmono : ∀ terms terms' x, terms ⊆ terms' → Covered terms x → Covered terms' x)
    (hstep : ∀ s s' x, step s x = .ok s' → s.fileTerms ⊆ s'.fileTerms ∧
      (Unbroken s.fileTerms → Unbroken s'.fileTerms) ∧ Covered s'.fileTerms x)
    {xs : List α} {s s' : ProjectionLoop} (h : xs.foldlM step s = .ok s') :
    s.fileTerms ⊆ s'.fileTerms ∧ (Unbroken s.fileTerms → Unbroken s'.fileTerms) ∧
      ∀ x ∈ xs, Covered s'.fileTerms x := by
  induction xs generalizing s with
  | nil =>
    rw [List.foldlM_nil, Fallible.pure_ok] at h
    subst h
    exact ⟨List.Subset.refl _, id, fun x hx => absurd hx List.not_mem_nil⟩
  | cons x xs ih =>
    rw [List.foldlM_cons] at h
    obtain ⟨mid, hmid, h⟩ := Fallible.bind_ok.mp h
    obtain ⟨hsub, hunbroken, hx⟩ := hstep s mid x hmid
    obtain ⟨hsub', hunbroken', hxs⟩ := ih h
    refine ⟨List.Subset.trans hsub hsub', fun hs => hunbroken' (hunbroken hs), ?_⟩
    intro y hy
    rcases List.mem_cons.mp hy with rfl | hy
    · exact hmono _ _ _ hsub' hx
    · exact hxs y hy

/-- Every field of a page is covered by its column. -/
theorem projectPageText_covers
    (hidempotent : ∀ text : Text, normalForm (normalForm text) = normalForm text)
    {page : PageText} {projection : LiteralPageProjection}
    (h : projectPageText page = .ok projection) {column : Text} {value : FieldValue}
    (hstores : page.Stores projection column value) :
    ∃ terms, CoversField terms value ∧ Unbroken terms ∧ joinTerms terms = column := by
  simp only [projectPageText, Fallible.bind_ok, Fallible.check_ok, Fallible.pure_ok,
    exists_and_left, exists_const] at h
  obtain ⟨-, -, normalizedTitle, htitle, normalizedBody, hbody, -, sText, htext, s, hopaque,
    titleTerms, htitleTerms, bodyTerms, hbodyTerms, -, rfl⟩ := h
  obtain ⟨-, hunbroken, htexts⟩ := foldlM_covers
    (fun terms (entry : Text × FieldValue) =>
      CoversField terms (.str entry.1) ∧ CoversField terms entry.2)
    (fun _ _ _ hsub hcovers => ⟨hcovers.1.mono hsub, hcovers.2.mono hsub⟩)
    (fun _ _ _ => projectTextFile_ok hidempotent) htext
  obtain ⟨hsub, hunbroken', hopaques⟩ := foldlM_covers
    (fun terms name => CoversField terms (.str name))
    (fun _ _ _ hsub hcovers => CoversField.mono hcovers hsub) (fun _ _ _ => projectOpaqueFile_ok) hopaque
  have hfiles : Unbroken s.fileTerms :=
    hunbroken' (hunbroken fun token htoken => absurd htoken List.not_mem_nil)
  cases hstores with
  | title =>
    exact ⟨titleTerms, .of_normalized hidempotent htitle htitleTerms,
      unbroken_encodedTerms htitleTerms, rfl⟩
  | body hbodyValue =>
    rw [hbodyValue] at hbody
    exact ⟨bodyTerms, .of_normalized hidempotent hbody hbodyTerms,
      unbroken_encodedTerms hbodyTerms, rfl⟩
  | fileName hmem => exact ⟨s.fileTerms, (htexts _ hmem).1.mono hsub, hfiles, rfl⟩
  | fileText hmem => exact ⟨s.fileTerms, (htexts _ hmem).2.mono hsub, hfiles, rfl⟩
  | opaqueFileName hmem => exact ⟨s.fileTerms, hopaques _ hmem, hfiles, rfl⟩

/-! ### A query -/

/-- One round of the loop over the keywords. -/
def candidateStep (s : ℕ × List Text) (keyword : Text) : Except Err (ℕ × List Text) := do
  Fallible.check (keyword ≠ []) .validation
  let totalBytes := s.1 + (utf8Encode keyword).length
  Fallible.check (totalBytes ≤ maxExperimentQueryBytes) .validation
  let token ← candidateTerm keyword
  pure (totalBytes, if token ∈ s.2 then s.2 else s.2 ++ [token])

/-- `" OR ".join(f'"{token}"' for token in sorted(tokens))`. -/
def matchExpression (tokens : List Text) : Text :=
  List.intercalate (" OR " : Text) ((tokens.insertionSort tokenLe).map fun token => '"' :: token ++ ['"'])

/-- Generate only safe, service-owned tokens for recall. -/
def candidateMatchExpression (keywords : List Text) : Except Err Text := do
  Fallible.check (1 ≤ keywords.length ∧ keywords.length ≤ maxExperimentKeywords) .validation
  let s ← keywords.foldlM candidateStep (0, [])
  pure (matchExpression s.2)

/-- The tokens are the candidates of the keywords. -/
theorem foldlM_candidateStep_ok {keywords : List Text} {s s' : ℕ × List Text}
    (h : keywords.foldlM candidateStep s = .ok s') :
    (∀ token ∈ s.2, token ∈ s'.2) ∧
      ∀ keyword ∈ keywords, ∃ token ∈ s'.2, candidateTerm keyword = .ok token := by
  induction keywords generalizing s with
  | nil =>
    rw [List.foldlM_nil, Fallible.pure_ok] at h
    subst h
    exact ⟨fun token htoken => htoken, fun keyword hkeyword => absurd hkeyword List.not_mem_nil⟩
  | cons keyword keywords ih =>
    rw [List.foldlM_cons] at h
    obtain ⟨mid, hmid, h⟩ := Fallible.bind_ok.mp h
    simp only [candidateStep, Fallible.bind_ok, Fallible.check_ok, Fallible.pure_ok,
      exists_and_left, exists_const] at hmid
    obtain ⟨-, -, token, htoken, rfl⟩ := hmid
    obtain ⟨hkeep, hall⟩ := ih h
    have hsub : ∀ token' ∈ s.2, token' ∈ s'.2 := by
      intro token' htoken'
      refine hkeep token' ?_
      dsimp only
      split
      · exact htoken'
      · exact List.mem_append_left _ htoken'
    have hnew : token ∈ s'.2 := by
      refine hkeep token ?_
      dsimp only
      split
      · assumption
      · exact List.mem_append_right _ (List.mem_singleton_self token)
    refine ⟨hsub, ?_⟩
    intro keyword' hkeyword'
    rcases List.mem_cons.mp hkeyword' with rfl | hkeyword'
    · exact ⟨token, hnew, htoken⟩
    · exact hall keyword' hkeyword'

/-- **A field that contains the keyword has its candidate term**: the term that is
chosen for a keyword is one of the terms stored for every field whose normal form
contains the normal form of the keyword, and a query looks for the term of each of
its keywords. -/
theorem candidateTerm_sound
    (hidempotent : ∀ text : Text, normalForm (normalForm text) = normalForm text) :
    (∀ page projection column value keyword token inKeyword inField,
      projectPageText page = .ok projection → page.Stores projection column value →
      candidateTerm keyword = .ok token → normalizeText (.str keyword) = .ok inKeyword →
      normalizeText value = .ok inField → inKeyword <:+: inField →
      token ∈ column.splitOn ' ') ∧
    ∀ keywords expression, candidateMatchExpression keywords = .ok expression →
      ∃ tokens, expression = matchExpression tokens ∧
        ∀ keyword ∈ keywords, ∃ token ∈ tokens, candidateTerm keyword = .ok token := by
  refine ⟨?_, ?_⟩
  · intro page projection column value keyword token inKeyword inField hpage hstores hcandidate
      hkeyword hfield hcontains
    obtain ⟨terms, hcovers, hunbroken, rfl⟩ := projectPageText_covers hidempotent hpage hstores
    exact mem_splitOn_joinTerms hunbroken
      (hcovers keyword token inKeyword inField hcandidate hkeyword hfield hcontains)
  · intro keywords expression h
    simp only [candidateMatchExpression, Fallible.bind_ok, Fallible.check_ok, Fallible.pure_ok,
      exists_and_left, exists_const] at h
    obtain ⟨-, s, hs, rfl⟩ := h
    exact ⟨s.2, rfl, (foldlM_candidateStep_ok hs).2⟩

end Fields

section Sample

/-- The tables for ASCII letters and digits. -/
@[reducible] def asciiTables : CharacterTables where
  isAlnum := Char.isAlphanum
  isMark _ := false

attribute [local instance] asciiPlatform asciiTables

/-- Lower case has no capitals. -/
theorem normalForm_idempotent_ascii (text : Text) :
    normalForm (normalForm text) = normalForm text := by
  have hlower : ∀ n < 26, ¬('A' ≤ Char.ofNat (n + 65 + 32) ∧ Char.ofNat (n + 65 + 32) ≤ 'Z') := by
    decide
  change List.map _ (List.map _ text) = List.map _ text
  rw [List.map_map]
  refine List.map_congr_left fun c _ => ?_
  rw [Function.comp_apply]
  by_cases hc : 'A' ≤ c ∧ c ≤ 'Z'
  · have hlow : 65 ≤ c.toNat := hc.1
    have hhigh : c.toNat ≤ 90 := hc.2
    have hnot := hlower (c.toNat - 65) (by omega)
    rw [Nat.sub_add_cancel hlow] at hnot
    rw [if_pos hc, if_neg hnot]
  · rw [if_neg hc, if_neg hc]

/-- A page with a title in two scripts. -/
def twoScripts : PageText := ⟨"Ab永乐大典-7", none, [], []⟩

/-- Read on keywords that begin and end inside runs. -/
theorem candidateTerm_sound_sample :
    candidateTerm "B永乐" = .ok "han2e6b0b8e4b990" ∧
    ∀ projection, projectPageText twoScripts = .ok projection →
      ("han2e6b0b8e4b990" : Text) ∈ projection.titleTerms.splitOn ' ' := by
  have hcandidate : candidateTerm "B永乐" = .ok "han2e6b0b8e4b990" := by decide +kernel
  refine ⟨hcandidate, ?_⟩
  intro projection hpage
  exact (candidateTerm_sound normalForm_idempotent_ascii).1 twoScripts projection _ _ "B永乐" _
    "b永乐" "ab永乐大典-7" hpage .title hcandidate (by decide +kernel) (by decide +kernel)
    ⟨"a", "大典-7", by decide +kernel⟩

end Sample

end PatchouliLib
