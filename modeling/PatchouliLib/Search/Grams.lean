import PatchouliLib.Foundation.Grams
import PatchouliLib.Foundation.JsonReading
import PatchouliLib.Search.Literal

/-!
# The grams of a field

A field is cut into chunks of 4096 codepoints.  Every chunk is read with the two
codepoints that follow it, and a window that was read before is skipped while the
cache has room.  None of this is seen in the result: a field gives the tokens of
its distinct grams, in order, and it fails exactly when there are too many of them.

## Main definitions

* `FieldValue`, `normalizeField` — a field as text or as bytes.
* `encodedFieldGrams` — the tokens of such a field.
* `GramLoop.Covers` — what the loop has collected after some windows.

## Main results

* `encodedGram_inj`, `isAlphanum_of_mem_encodedGram` — the spelling of a gram.
* `GramLoop.Covers.step_ok`, `GramLoop.Covers.run_ok` — one window, and all of them.
* `encodedFieldGrams_exact` — **the tokens are those of the distinct grams.**
-/

namespace PatchouliLib

open Foundation Foundation.Grams Foundation.Budget

/-! ### The spelling of a gram -/

theorem isAlphanum_of_mem_hex {bytes : Bytes} {c : Char} (h : c ∈ hex bytes) : c.isAlphanum := by
  have hdigit : ∀ n < 16, (hexDigit n).isAlphanum := by decide
  obtain ⟨n, hn, rfl⟩ := exists_of_mem_hex h
  exact hdigit n hn

/-- A token consists of ASCII letters and digits. -/
theorem isAlphanum_of_mem_encodedGram {gram : Text} {c : Char} (h : c ∈ encodedGram gram) :
    c.isAlphanum := by
  simp only [encodedGram, List.cons_append, List.mem_cons, List.mem_append] at h
  rcases h with rfl | h | rfl | h
  · decide
  · rw [Char.isAlphanum, Json.isDigit_of_mem_toDigits h, Bool.or_true]
  · decide
  · exact isAlphanum_of_mem_hex h

/-- A token tells its gram. -/
theorem encodedGram_inj {a b : Text} (h : encodedGram a = encodedGram b) : a = b := by
  simp only [encodedGram, List.cons_append, List.cons.injEq, true_and] at h
  have hx : ∀ rest : Text, Json.Follows ('x' :: rest) := fun _ => rfl
  obtain ⟨-, hrest⟩ := Json.toDigits_append_inj (hx _) (hx _) h
  exact utf8Encode_injective (hex_injective (List.cons.inj hrest).2)

instance : Std.Total tokenLe := ⟨fun a b => le_total a b⟩

instance : IsTrans Text tokenLe := ⟨fun _ _ _ hab hbc => le_trans hab hbc⟩

theorem tokenLe_antisymm {a b : Text} (hab : tokenLe a b) (hba : tokenLe b a) : a = b :=
  le_antisymm hab hba

/-! ### The loop over the windows -/

theorem addGram_eq : addGram = insertWithin maxUniqueTerms .validation := by
  funext rawGrams gram
  unfold addGram insertWithin
  by_cases hgram : gram ∈ rawGrams
  · rw [if_pos hgram, if_pos hgram]
  · rw [if_neg hgram, if_neg hgram]

/-- One round, with its window named. -/
theorem gramStep_eq (normalized : Text) (s : GramLoop) (start : ℕ) :
    gramStep normalized s start =
      if window gramChunkCodepoints 3 normalized start ∈ s.cachedChunks then .ok s
      else insertAll maxUniqueTerms .validation s.rawGrams
          (windowGrams (window gramChunkCodepoints 3 normalized start)) >>= fun rawGrams =>
        pure ⟨rawGrams, if s.cachedChunks.length < maxCachedGramChunks
          then window gramChunkCodepoints 3 normalized start :: s.cachedChunks
          else s.cachedChunks⟩ := by
  unfold insertAll
  rw [← addGram_eq]
  rfl

/-- The grams that start in the chunks already read. -/
def gramsFrom (normalized : Text) (done : List ℕ) : Set Text :=
  {gram | ∃ start ∈ done, gram ∈ windowGrams (window gramChunkCodepoints 3 normalized start)}

theorem gramsFrom_append (normalized : Text) (done : List ℕ) (start : ℕ) :
    gramsFrom normalized (done ++ [start]) = gramsFrom normalized done ∪
      {gram | gram ∈ windowGrams (window gramChunkCodepoints 3 normalized start)} := by
  ext gram
  simp only [gramsFrom, Set.mem_union, Set.mem_ofPred_eq, List.mem_append, List.mem_singleton]
  constructor
  · rintro ⟨start', hstart | rfl, hgram⟩
    · exact .inl ⟨start', hstart, hgram⟩
    · exact .inr hgram
  · rintro (⟨start', hstart, hgram⟩ | hgram)
    · exact ⟨start', .inl hstart, hgram⟩
    · exact ⟨start, .inr rfl, hgram⟩

/-- All chunks together hold the grams of the field. -/
theorem gramsFrom_chunkStarts (normalized : Text) :
    gramsFrom normalized (chunkStarts normalized.length) = {gram | IsGram 3 gram normalized} := by
  ext gram
  exact mem_windows (by decide : 0 < gramChunkCodepoints)

/-- What the loop has collected: the grams of the chunks already read, within the
budget, and among them those of every cached window. -/
structure GramLoop.Covers (normalized : Text) (done : List ℕ) (s : GramLoop) : Prop where
  collects : Collects (gramsFrom normalized done) s.rawGrams
  within : s.rawGrams.length ≤ maxUniqueTerms
  cached : ∀ chunk ∈ s.cachedChunks, ∀ gram ∈ windowGrams chunk, gram ∈ s.rawGrams

namespace GramLoop.Covers

variable {normalized : Text} {done : List ℕ} {s s' : GramLoop} {start : ℕ}

theorem initial (normalized : Text) : Covers normalized [] {} := by
  refine ⟨?_, Nat.zero_le _, fun chunk hchunk => absurd hchunk List.not_mem_nil⟩
  have hnone : gramsFrom normalized [] = ∅ := by
    refine Set.eq_empty_of_forall_notMem ?_
    rintro gram ⟨start, hstart, -⟩
    exact List.not_mem_nil hstart
  rw [hnone]
  exact Collects.empty

/-- A window in the cache adds nothing. -/
theorem skip (h : Covers normalized done s)
    (hcached : window gramChunkCodepoints 3 normalized start ∈ s.cachedChunks) :
    Covers normalized (done ++ [start]) s := by
  refine ⟨?_, h.within, h.cached⟩
  rw [gramsFrom_append, Set.union_eq_left.mpr]
  · exact h.collects
  · intro gram hgram
    exact (h.collects.mem_iff gram).mp (h.cached _ hcached gram hgram)

/-- **One window is read.** -/
theorem step_ok (h : Covers normalized done s) (hok : gramStep normalized s start = .ok s') :
    Covers normalized (done ++ [start]) s' := by
  rw [gramStep_eq] at hok
  by_cases hcached : window gramChunkCodepoints 3 normalized start ∈ s.cachedChunks
  · rw [if_pos hcached, Except.ok.injEq] at hok
    exact hok ▸ h.skip hcached
  · rw [if_neg hcached] at hok
    obtain ⟨rawGrams, hall, hok⟩ := Fallible.bind_ok.mp hok
    rw [Fallible.pure_ok] at hok
    subst hok
    obtain ⟨hcollects, hwithin⟩ := insertAll_ok h.collects h.within hall
    rw [← gramsFrom_append] at hcollects
    -- what was collected before is still there
    have hkeep : ∀ gram ∈ s.rawGrams, gram ∈ rawGrams := by
      intro gram hgram
      rw [hcollects.mem_iff, gramsFrom_append]
      exact .inl ((h.collects.mem_iff gram).mp hgram)
    have hnew : ∀ gram ∈ windowGrams (window gramChunkCodepoints 3 normalized start),
        gram ∈ rawGrams := by
      intro gram hgram
      rw [hcollects.mem_iff, gramsFrom_append]
      exact .inr hgram
    refine ⟨hcollects, hwithin, ?_⟩
    intro chunk hchunk gram hgram
    by_cases hroom : s.cachedChunks.length < maxCachedGramChunks
    · simp only [if_pos hroom, List.mem_cons] at hchunk
      rcases hchunk with rfl | hchunk
      · exact hnew gram hgram
      · exact hkeep gram (h.cached chunk hchunk gram hgram)
    · simp only [if_neg hroom] at hchunk
      exact hkeep gram (h.cached chunk hchunk gram hgram)

/-- A window that cannot be read has too many new grams. -/
theorem step_error {e : Err} (h : Covers normalized done s)
    (herror : gramStep normalized s start = .error e) :
    maxUniqueTerms < (gramsFrom normalized (done ++ [start])).ncard := by
  rw [gramStep_eq] at herror
  by_cases hcached : window gramChunkCodepoints 3 normalized start ∈ s.cachedChunks
  · rw [if_pos hcached] at herror
    cases herror
  · rw [if_neg hcached] at herror
    rcases Fallible.bind_error.mp herror with herror | ⟨rawGrams, -, herror⟩
    · rw [gramsFrom_append]
      exact (insertAll_error h.collects h.within herror).2
    · cases herror

/-- **All windows are read.** -/
theorem run_ok {starts : List ℕ} (h : Covers normalized done s)
    (hok : starts.foldlM (gramStep normalized) s = .ok s') :
    Covers normalized (done ++ starts) s' := by
  induction starts generalizing done s with
  | nil =>
    rw [List.foldlM_nil, Fallible.pure_ok] at hok
    rwa [List.append_nil, ← hok]
  | cons start starts ih =>
    rw [List.foldlM_cons] at hok
    obtain ⟨mid, hmid, hok⟩ := Fallible.bind_ok.mp hok
    have hrest := ih (h.step_ok hmid) hok
    rwa [List.append_assoc] at hrest

theorem run_error {starts : List ℕ} {e : Err} (h : Covers normalized done s)
    (herror : starts.foldlM (gramStep normalized) s = .error e) :
    ∃ read, read <+: starts ∧ maxUniqueTerms < (gramsFrom normalized (done ++ read)).ncard := by
  induction starts generalizing done s with
  | nil =>
    rw [List.foldlM_nil] at herror
    cases herror
  | cons start starts ih =>
    rw [List.foldlM_cons] at herror
    rcases Fallible.bind_error.mp herror with herror | ⟨mid, hmid, herror⟩
    · exact ⟨[start], List.prefix_append [start] starts, h.step_error herror⟩
    · obtain ⟨read, hread, hlt⟩ := ih (h.step_ok hmid) herror
      refine ⟨start :: read, (List.cons_prefix_cons).mpr ⟨rfl, hread⟩, ?_⟩
      rwa [List.append_assoc] at hlt

end GramLoop.Covers

/-! ### A whole field -/

section Field

variable [Platform]

/-- A field is text, or bytes that spell text. -/
inductive FieldValue where
  | str (value : Text)
  | bytes (value : Bytes)
deriving DecidableEq

/-- The text of a value: its own, or the one its bytes spell. -/
def FieldValue.text? : FieldValue → Option Text
  | .str text => some text
  | .bytes data => utf8Decode data

/-- The text of a value within the limit. -/
def FieldValue.decode (maxInput : ℕ) : FieldValue → Except Err Text
  | .str text => do
    Fallible.check (text.length ≤ maxInput) .validation
    Fallible.check ((utf8Encode text).length ≤ maxInput) .validation
    pure text
  | .bytes data => do
    Fallible.check (data.length ≤ maxInput) .validation
    Fallible.get (utf8Decode data) .validation

omit [Platform] in
theorem FieldValue.decode_ok {maxInput : ℕ} {value : FieldValue} {text : Text}
    (h : value.decode maxInput = .ok text) : value.text? = some text := by
  cases value with
  | str text' =>
    simp only [decode, Fallible.bind_ok, Fallible.check_ok, Fallible.pure_ok, exists_and_left,
      exists_const] at h
    rw [text?, h.2.2]
  | bytes data =>
    simp only [decode, Fallible.bind_ok, Fallible.check_ok, Fallible.get_ok, exists_and_left,
      exists_const] at h
    exact h.2

/-- Strict UTF-8 text normalized as NFC, casefold, then NFC, with the limits on its
size before and after. -/
def normalizeWithin (maxInput maxNormalized : ℕ) (value : FieldValue) : Except Err Text := do
  let text ← value.decode maxInput
  let normalized := normalForm text
  Fallible.check (normalized.length ≤ maxNormalized) .validation
  Fallible.check ((utf8Encode normalized).length ≤ maxNormalized) .validation
  pure normalized

/-- What is accepted is the normal form of the text. -/
theorem normalizeWithin_ok {maxInput maxNormalized : ℕ} {value : FieldValue} {normalized : Text}
    (h : normalizeWithin maxInput maxNormalized value = .ok normalized) :
    ∃ text, value.text? = some text ∧ normalForm text = normalized := by
  simp only [normalizeWithin, Fallible.bind_ok, Fallible.check_ok, Fallible.pure_ok,
    exists_and_left, exists_const] at h
  obtain ⟨text, htext, -, -, h⟩ := h
  exact ⟨text, FieldValue.decode_ok htext, h⟩

/-- `normalize_literal` of this search. -/
def normalizeField (value : FieldValue) : Except Err Text :=
  normalizeWithin maxFileBytes maxNormalizedFieldBytes value

theorem normalizeField_str (value : Text) : normalizeField (.str value) = normalizeLiteral value := by
  simp only [normalizeField, normalizeWithin, FieldValue.decode, normalizeLiteral, bind_assoc,
    pure_bind]

/-- Unique, sorted grams from one whole normalized field. -/
def encodedFieldGrams (value : FieldValue) : Except Err (List Text) := do
  let normalized ← normalizeField value
  let s ← (chunkStarts normalized.length).foldlM (gramStep normalized) {}
  pure ((s.rawGrams.map encodedGram).insertionSort tokenLe)

theorem encodedFieldGrams_eq {value : FieldValue} {normalized : Text}
    (hnormal : normalizeField value = .ok normalized) :
    encodedFieldGrams value =
      (chunkStarts normalized.length).foldlM (gramStep normalized) {} >>= fun s =>
        pure ((s.rawGrams.map encodedGram).insertionSort tokenLe) := by
  rw [encodedFieldGrams, hnormal]
  rfl

theorem encodedFieldGrams_str (value : Text) :
    encodedFieldGrams (.str value) = encodedGrams value := by
  rw [encodedFieldGrams, normalizeField_str]
  rfl

/-- The tokens of the distinct grams of a text, in order. -/
structure TokensOf (normalized : Text) (tokens : List Text) : Prop where
  sorted : tokens.Pairwise tokenLe
  nodup : tokens.Nodup
  mem_iff : ∀ token, token ∈ tokens ↔ ∃ gram, IsGram 3 gram normalized ∧ encodedGram gram = token

omit [Platform] in
/-- There is one such list. -/
theorem TokensOf.unique {normalized : Text} {tokens tokens' : List Text}
    (h : TokensOf normalized tokens) (h' : TokensOf normalized tokens') : tokens = tokens' := by
  have hperm : tokens.Perm tokens' := by
    rw [List.perm_ext_iff_of_nodup h.nodup h'.nodup]
    intro token
    rw [h.mem_iff, h'.mem_iff]
  exact hperm.eq_of_pairwise (fun a b _ _ => tokenLe_antisymm) h.sorted h'.sorted

omit [Platform] in
/-- The grams of a text, spelled and sorted. -/
theorem TokensOf.of_collects {normalized : Text} {rawGrams : List Text}
    (h : Collects {gram | IsGram 3 gram normalized} rawGrams) :
    TokensOf normalized ((rawGrams.map encodedGram).insertionSort tokenLe) := by
  refine ⟨List.pairwise_insertionSort tokenLe _, ?_, ?_⟩
  · rw [(List.perm_insertionSort tokenLe _).nodup_iff]
    exact h.nodup.map fun _ _ => encodedGram_inj
  · intro token
    rw [List.mem_insertionSort, List.mem_map]
    exact exists_congr fun gram => and_congr_left fun _ => h.mem_iff gram

theorem encodedFieldGrams_ok {value : FieldValue} {normalized : Text} {tokens : List Text}
    (hnormal : normalizeField value = .ok normalized) (h : encodedFieldGrams value = .ok tokens) :
    {gram | IsGram 3 gram normalized}.ncard ≤ maxUniqueTerms ∧ TokensOf normalized tokens := by
  rw [encodedFieldGrams_eq hnormal] at h
  obtain ⟨s, hs, h⟩ := Fallible.bind_ok.mp h
  rw [Fallible.pure_ok] at h
  subst h
  have hcovers := (GramLoop.Covers.initial normalized).run_ok hs
  rw [List.nil_append] at hcovers
  have hcollects := hcovers.collects
  rw [gramsFrom_chunkStarts] at hcollects
  rw [← hcollects.length_eq]
  exact ⟨hcovers.within, TokensOf.of_collects hcollects⟩

theorem encodedFieldGrams_error {value : FieldValue} {normalized : Text} {e : Err}
    (hnormal : normalizeField value = .ok normalized) (h : encodedFieldGrams value = .error e) :
    maxUniqueTerms < {gram | IsGram 3 gram normalized}.ncard := by
  rw [encodedFieldGrams_eq hnormal] at h
  rcases Fallible.bind_error.mp h with h | ⟨s, -, h⟩
  · obtain ⟨read, hread, hlt⟩ := (GramLoop.Covers.initial normalized).run_error h
    refine hlt.trans_le (Set.ncard_le_ncard ?_ (finite_isGram 3 normalized))
    rw [← gramsFrom_chunkStarts]
    rintro gram ⟨start, hstart, hgram⟩
    exact ⟨start, hread.subset hstart, hgram⟩
  · cases h

/-- **The tokens are those of the distinct grams**: a field whose normal form is
within the limits gives the sorted spellings of all its distinct grams of one, two
and three codepoints, each spelled as one token of ASCII letters and digits that no
other gram has, and it fails exactly when the grams are more than the budget. -/
theorem encodedFieldGrams_exact {value : FieldValue} {normalized : Text}
    (hnormal : normalizeField value = .ok normalized) :
    (∀ tokens, encodedFieldGrams value = .ok tokens ↔
      {gram | IsGram 3 gram normalized}.ncard ≤ maxUniqueTerms ∧ TokensOf normalized tokens) ∧
    ((∃ e, encodedFieldGrams value = .error e) ↔
      maxUniqueTerms < {gram | IsGram 3 gram normalized}.ncard) ∧
    (∀ a b, encodedGram a = encodedGram b → a = b) ∧
    ∀ gram, encodedGram gram ≠ [] ∧ ∀ c ∈ encodedGram gram, c.isAlphanum := by
  have herror : (∃ e, encodedFieldGrams value = .error e) ↔
      maxUniqueTerms < {gram | IsGram 3 gram normalized}.ncard := by
    constructor
    · rintro ⟨e, h⟩
      exact encodedFieldGrams_error hnormal h
    · intro hlt
      cases h : encodedFieldGrams value with
      | error e => exact ⟨e, rfl⟩
      | ok tokens => exact absurd (encodedFieldGrams_ok hnormal h).1 (Nat.not_le_of_lt hlt)
  refine ⟨?_, herror, fun _ _ => encodedGram_inj, fun gram => ⟨List.cons_ne_nil _ _, ?_⟩⟩
  · intro tokens
    constructor
    · exact encodedFieldGrams_ok hnormal
    · rintro ⟨hle, htokens⟩
      cases h : encodedFieldGrams value with
      | error e => exact absurd (herror.mp ⟨e, h⟩) (Nat.not_lt_of_le hle)
      | ok tokens' => rw [(encodedFieldGrams_ok hnormal h).2.unique htokens]
  · exact fun c => isAlphanum_of_mem_encodedGram

end Field

section Sample

attribute [local instance] asciiPlatform

/-- Read on a field that repeats a gram and is spelled with a capital. -/
theorem encodedFieldGrams_exact_sample :
    encodedFieldGrams (.bytes [65, 98, 97, 98]) = .ok ["g1x61", "g1x62", "g2x6162", "g2x6261",
      "g3x616261", "g3x626162"] ∧
    ¬∃ e, encodedFieldGrams (.bytes [65, 98, 97, 98]) = .error e := by
  have hexact := @encodedFieldGrams_exact asciiPlatform (.bytes [65, 98, 97, 98]) "abab"
    (by decide +kernel)
  have hok : encodedFieldGrams (.bytes [65, 98, 97, 98]) = .ok ["g1x61", "g1x62", "g2x6162",
      "g2x6261", "g3x616261", "g3x626162"] := by decide +kernel
  refine ⟨hok, ?_⟩
  rw [hexact.2.1, Nat.not_lt]
  exact ((hexact.1 _).mp hok).1

end Sample

end PatchouliLib
