import PatchouliLib.Foundation.Bytes
import PatchouliLib.Foundation.Transaction

/-!
# MIME parameters

Before a header is handed to a parser that keeps one of several parameters of a
name, a scanner goes through its parameter section and refuses names that come
twice.  It reads quoted values, so a semicolon between quotes separates nothing.

## Main definitions

* `requireUniqueMimeParameters` — the scanner.
* `MimeParameter` — a parameter of the grammar, with the blanks around its parts.

## Main results

* `scanQuoted_ok`, `scanParameter_ok` — what the parts of the scanner read.
* `scanParameters_ok` — **the sections that are read through**, parameter by parameter.
* `requireUniqueMimeParameters_ok` — the accepted headers.
-/

namespace PatchouliLib

open Foundation

/-! ### The scanner -/

/-- The errors of the scanner, by what they complain about. -/
inductive MimeError where
  | boundedHeader
  | separator
  | parameterName
  | extendedParameter
  | assignment
  | missingValue
  | quotedEscape
  | quotedValue
  | unterminatedValue
  | tokenValue
  | suffix
  | duplicateParameter
deriving DecidableEq, Repr

def maxMimeHeaderBytes : ℕ := 1024

def semicolon : UInt8 := 0x3b
def equalsSign : UInt8 := 0x3d
def quotationMark : UInt8 := 0x22
def backslash : UInt8 := 0x5c
def asterisk : UInt8 := 0x2a

def mimeTokenBytes : Bytes :=
  ("!#$%&'*+-.^_`|~0123456789ABCDEFGHIJKLMNOPQRSTUVWXYZabcdefghijklmnopqrstuvwxyz" : Text).map
    fun c => UInt8.ofNat c.toNat

def isMimeToken (b : UInt8) : Bool := mimeTokenBytes.contains b
def isBlank (b : UInt8) : Bool := b = 0x20 || b = 0x09

/-- What a quoted value may hold without an escape. -/
def isQuotable (b : UInt8) : Bool := 0x20 ≤ b && b ≠ 0x7f && b ≠ quotationMark && b ≠ backslash

/-- What may stand behind a backslash. -/
def isEscapable (b : UInt8) : Bool := b ≠ 0x00 && b ≠ 0x0d && b ≠ 0x0a

/-- `bytes.lower()` of one byte. -/
def lowerByte (b : UInt8) : UInt8 := if 0x41 ≤ b ∧ b ≤ 0x5a then b + 0x20 else b

def lowerBytes (name : Bytes) : Bytes := name.map lowerByte

def skipBlanks (text : Bytes) : Bytes := text.dropWhile isBlank

/-- What follows a quoted value, from behind its opening mark. -/
def scanQuoted : Bytes → Except MimeError Bytes
  | [] => .error .unterminatedValue
  | b :: rest =>
    if b = backslash then
      match rest with
      | [] => .error .quotedEscape
      | escaped :: rest => if isEscapable escaped then scanQuoted rest else .error .quotedEscape
    else if b = quotationMark then .ok rest
    else if b = 0x0d ∨ b = 0x0a ∨ b < 0x20 ∨ b = 0x7f then .error .quotedValue
    else scanQuoted rest
termination_by structural text => text

/-- What follows a value. -/
def scanValue : Bytes → Except MimeError Bytes
  | [] => .error .missingValue
  | b :: rest =>
    if b = quotationMark then scanQuoted rest
    else if (b :: rest).takeWhile isMimeToken = [] then .error .tokenValue
    else .ok ((b :: rest).dropWhile isMimeToken)

/-- What follows an equals sign. -/
def scanAssignment : Bytes → Except MimeError Bytes
  | [] => .error .assignment
  | b :: rest => if b = equalsSign then .ok rest else .error .assignment

/-- The name of a parameter in lower case, and what follows the parameter. -/
def scanParameter (text : Bytes) : Except MimeError (Bytes × Bytes) := do
  let text := skipBlanks text
  let name := text.takeWhile isMimeToken
  Fallible.check (name ≠ []) .parameterName
  -- an extended name could carry a second value of the same parameter
  Fallible.check (asterisk ∉ lowerBytes name) .extendedParameter
  let text ← scanAssignment (skipBlanks (text.dropWhile isMimeToken))
  let text ← scanValue (skipBlanks text)
  let rest := skipBlanks text
  Fallible.check (∀ b ∈ rest.head?, b = semicolon) .suffix
  pure (lowerBytes name, rest)

/-! ### The grammar -/

def IsBlank (text : Bytes) : Prop := ∀ b ∈ text, isBlank b = true

/-- `1*tchar`. -/
def IsToken (text : Bytes) : Prop := text ≠ [] ∧ ∀ b ∈ text, isMimeToken b = true

/-- The bytes between two quotation marks: each stands for itself or behind a backslash. -/
inductive QuotedBody : Bytes → Prop
  | nil : QuotedBody []
  | plain {b : UInt8} {body : Bytes} (hb : isQuotable b = true) (h : QuotedBody body) :
      QuotedBody (b :: body)
  | escaped {b : UInt8} {body : Bytes} (hb : isEscapable b = true) (h : QuotedBody body) :
      QuotedBody (backslash :: b :: body)

/-- `"…"`. -/
def IsQuoted (text : Bytes) : Prop :=
  ∃ body, QuotedBody body ∧ text = quotationMark :: body ++ [quotationMark]

/-- A parameter with the blanks around its parts. -/
structure MimeParameter where
  before : Bytes
  name : Bytes
  afterName : Bytes
  beforeValue : Bytes
  value : Bytes
  after : Bytes
  before_blank : IsBlank before
  name_token : IsToken name
  afterName_blank : IsBlank afterName
  beforeValue_blank : IsBlank beforeValue
  value_valid : IsToken value ∨ IsQuoted value
  after_blank : IsBlank after

namespace MimeParameter

/-- A parameter behind its semicolon. -/
def body (p : MimeParameter) : Bytes :=
  p.before ++ (p.name ++ (p.afterName ++ equalsSign :: (p.beforeValue ++ (p.value ++ p.after))))

def text (p : MimeParameter) : Bytes := semicolon :: p.body

/-- Names are compared in lower case. -/
def key (p : MimeParameter) : Bytes := lowerBytes p.name

end MimeParameter

/-! ### What is read -/

/-- A longest run ends where the next byte does not belong to it. -/
theorem span_append {p : UInt8 → Bool} {xs rest : Bytes} (hxs : ∀ b ∈ xs, p b = true)
    (hrest : ∀ b ∈ rest.head?, p b = false) :
    (xs ++ rest).takeWhile p = xs ∧ (xs ++ rest).dropWhile p = rest := by
  rw [List.takeWhile_append_of_pos hxs, List.dropWhile_append_of_pos hxs]
  cases rest with
  | nil => exact ⟨List.append_nil xs, rfl⟩
  | cons b rest =>
    have hb : p b = false := hrest b rfl
    rw [List.takeWhile_cons_of_neg (by simp [hb]), List.dropWhile_cons_of_neg (by simp [hb])]
    exact ⟨List.append_nil xs, rfl⟩

/-- What is left by a run begins with no byte of it. -/
theorem head?_dropWhile {p : UInt8 → Bool} {text : Bytes} :
    ∀ b ∈ (text.dropWhile p).head?, p b = false := by
  intro b hb
  induction text with
  | nil => cases hb
  | cons c text ih =>
    cases hc : p c with
    | true =>
      rw [List.dropWhile_cons_of_pos hc] at hb
      exact ih hb
    | false =>
      rw [List.dropWhile_cons_of_neg (by simp [hc])] at hb
      obtain rfl := Option.some.inj hb
      exact hc

theorem skipBlanks_append {blanks rest : Bytes} (h : IsBlank blanks)
    (hrest : ∀ b ∈ rest.head?, isBlank b = false) : skipBlanks (blanks ++ rest) = rest :=
  (span_append h hrest).2

theorem exists_blanks (text : Bytes) :
    ∃ blanks, IsBlank blanks ∧ text = blanks ++ skipBlanks text :=
  ⟨text.takeWhile isBlank, fun _ hb => List.mem_takeWhile_imp hb,
    List.takeWhile_append_dropWhile.symm⟩

theorem isQuotable_iff {b : UInt8} :
    isQuotable b = true ↔
      b ≠ backslash ∧ b ≠ quotationMark ∧ ¬(b = 0x0d ∨ b = 0x0a ∨ b < 0x20 ∨ b = 0x7f) := by
  simp only [isQuotable, Bool.and_eq_true, decide_eq_true_eq, UInt8.le_iff_toNat_le,
    UInt8.lt_iff_toNat_lt]
  constructor
  · rintro ⟨⟨⟨hspace, hdelete⟩, hmark⟩, hbackslash⟩
    refine ⟨hbackslash, hmark, ?_⟩
    rintro (rfl | rfl | hcontrol | hdelete')
    · exact absurd hspace (by decide)
    · exact absurd hspace (by decide)
    · omega
    · exact hdelete hdelete'
  · rintro ⟨hbackslash, hmark, hcontrol⟩
    simp only [not_or, Nat.not_lt] at hcontrol
    exact ⟨⟨⟨hcontrol.2.2.1, hcontrol.2.2.2⟩, hmark⟩, hbackslash⟩

/-- **A quoted value is read up to its closing mark.** -/
theorem scanQuoted_ok {text rest : Bytes} :
    scanQuoted text = .ok rest ↔ ∃ body, QuotedBody body ∧ text = body ++ quotationMark :: rest := by
  constructor
  · intro h
    fun_induction scanQuoted text with
    | case1 => cases h
    | case2 => cases h
    | case3 escaped rest' hescaped ih =>
      obtain ⟨body, hbody, rfl⟩ := ih h
      exact ⟨_, hbody.escaped hescaped, rfl⟩
    | case4 => cases h
    | case5 => exact ⟨[], .nil, congrArg _ (Except.ok.inj h)⟩
    | case6 => cases h
    | case7 b rest' hbackslash hmark hcontrol ih =>
      obtain ⟨body, hbody, rfl⟩ := ih h
      exact ⟨b :: body, hbody.plain (isQuotable_iff.mpr ⟨hbackslash, hmark, hcontrol⟩), rfl⟩
  · rintro ⟨body, hbody, rfl⟩
    induction hbody with
    | nil =>
      rw [List.nil_append, scanQuoted.eq_def]
      simp only [if_neg (show quotationMark ≠ backslash by decide), if_true]
    | plain hb h ih =>
      obtain ⟨hbackslash, hmark, hcontrol⟩ := isQuotable_iff.mp hb
      rw [List.cons_append, scanQuoted.eq_def]
      simp only [if_neg hbackslash, if_neg hmark, if_neg hcontrol]
      exact ih
    | escaped hb h ih =>
      rw [List.cons_append, List.cons_append, scanQuoted.eq_def]
      simp only [if_true, if_pos hb]
      exact ih

/-- **A value is read** up to the byte that no longer belongs to it. -/
theorem scanValue_ok {text rest : Bytes} :
    scanValue text = .ok rest ↔
      ∃ value, text = value ++ rest ∧
        (IsQuoted value ∨ IsToken value ∧ ∀ b ∈ rest.head?, isMimeToken b = false) := by
  constructor
  · intro h
    cases text with
    | nil => cases h
    | cons b text =>
      rw [scanValue] at h
      split at h
      · next hmark =>
        subst hmark
        obtain ⟨body, hbody, rfl⟩ := scanQuoted_ok.mp h
        exact ⟨quotationMark :: body ++ [quotationMark], by simp, .inl ⟨body, hbody, rfl⟩⟩
      split at h
      · cases h
      · next hne =>
        obtain rfl := Except.ok.inj h
        exact ⟨_, List.takeWhile_append_dropWhile.symm,
          .inr ⟨⟨hne, fun _ hb => List.mem_takeWhile_imp hb⟩, head?_dropWhile⟩⟩
  · rintro ⟨value, rfl, ⟨body, hbody, rfl⟩ | ⟨⟨hne, htoken⟩, hrest⟩⟩
    · rw [List.append_assoc, List.cons_append, scanValue, if_pos rfl]
      exact scanQuoted_ok.mpr ⟨body, hbody, rfl⟩
    · obtain ⟨b, value, rfl⟩ := List.exists_cons_of_ne_nil hne
      obtain ⟨htake, hdrop⟩ := span_append htoken hrest
      have hmark : b ≠ quotationMark := by
        rintro rfl
        exact absurd (htoken quotationMark List.mem_cons_self) (by decide)
      rw [List.cons_append] at htake hdrop ⊢
      rw [scanValue, if_neg hmark, htake, if_neg hne, hdrop]

theorem scanAssignment_ok {text rest : Bytes} :
    scanAssignment text = .ok rest ↔ text = equalsSign :: rest := by
  cases text with
  | nil => simp [scanAssignment]
  | cons b text =>
    rw [scanAssignment]
    split
    · next hb => simp [hb]
    · next hb => simp [hb]

theorem mem_lowerBytes_asterisk {name : Bytes} : asterisk ∈ lowerBytes name ↔ asterisk ∈ name := by
  have hlower : ∀ b, lowerByte b = asterisk ↔ b = asterisk := by
    intro b
    rw [lowerByte, asterisk, ← UInt8.toNat_inj, ← UInt8.toNat_inj]
    split
    · next hupper =>
      have hlow := UInt8.le_iff_toNat_le.mp hupper.1
      have hhigh := UInt8.le_iff_toNat_le.mp hupper.2
      rw [UInt8.toNat_add]
      simp only [UInt8.reduceToNat] at hlow hhigh ⊢
      omega
    · rfl
  rw [lowerBytes, List.mem_map]
  constructor
  · rintro ⟨b, hb, heq⟩
    exact (hlower b).mp heq ▸ hb
  · exact fun h => ⟨asterisk, h, rfl⟩

theorem isMimeToken_of_isBlank {b : UInt8} (h : isBlank b = true) : isMimeToken b = false := by
  simp only [isBlank, Bool.or_eq_true, decide_eq_true_eq] at h
  rcases h with rfl | rfl <;> decide

theorem head?_cons {p : UInt8 → Bool} {b : UInt8} {rest : Bytes} (hb : p b = false) :
    ∀ c ∈ (b :: rest).head?, p c = false := by
  intro c hc
  obtain rfl := Option.some.inj hc
  exact hb

/-- A token begins with no blank. -/
theorem head?_token {token rest : Bytes} (h : IsToken token) :
    ∀ b ∈ (token ++ rest).head?, isBlank b = false := by
  obtain ⟨b, token, rfl⟩ := List.exists_cons_of_ne_nil h.1
  refine head?_cons (Bool.eq_false_iff.mpr fun hblank => ?_)
  have htoken := h.2 b List.mem_cons_self
  rw [isMimeToken_of_isBlank hblank] at htoken
  cases htoken

/-- A run of blanks hides no byte of another run. -/
theorem head?_blanks {p : UInt8 → Bool} {blanks rest : Bytes} (h : IsBlank blanks)
    (hp : ∀ b, isBlank b = true → p b = false) (hrest : ∀ b ∈ rest.head?, p b = false) :
    ∀ b ∈ (blanks ++ rest).head?, p b = false := by
  cases blanks with
  | nil => exact hrest
  | cons c blanks =>
    intro b hb
    obtain rfl := Option.some.inj hb
    exact hp _ (h _ List.mem_cons_self)

/-- **A parameter is read** up to the next semicolon or to the end. -/
theorem scanParameter_ok {text rest key : Bytes} :
    scanParameter text = .ok (key, rest) ↔
      (∀ b ∈ rest.head?, b = semicolon) ∧
        ∃ p : MimeParameter, asterisk ∉ p.name ∧ key = p.key ∧ text = p.body ++ rest := by
  simp only [scanParameter, Fallible.bind_ok, Fallible.check_ok, Fallible.pure_ok, exists_and_left,
    exists_const, scanAssignment_ok, scanValue_ok, Prod.mk.injEq, mem_lowerBytes_asterisk]
  constructor
  · rintro ⟨hname, hextended, text₂, htext₂, text₃, ⟨value, hvalue, hvalid⟩, hsuffix, rfl, rfl⟩
    obtain ⟨before, hbefore, htext⟩ := exists_blanks text
    obtain ⟨afterName, hafterName, htext₁⟩ :=
      exists_blanks ((skipBlanks text).dropWhile isMimeToken)
    obtain ⟨beforeValue, hbeforeValue, htext₂'⟩ := exists_blanks text₂
    obtain ⟨after, hafter, htext₃⟩ := exists_blanks text₃
    refine ⟨hsuffix, ⟨before, _, afterName, beforeValue, value, after, hbefore,
      ⟨hname, fun _ hb => List.mem_takeWhile_imp hb⟩, hafterName, hbeforeValue,
      hvalid.symm.imp_left And.left, hafter⟩, hextended, rfl, ?_⟩
    have hspan := @List.takeWhile_append_dropWhile _ isMimeToken (skipBlanks text)
    rw [htext₁, htext₂, htext₂', hvalue, htext₃] at hspan
    rw [MimeParameter.body]
    conv_lhs => rw [htext, ← hspan]
    simp only [List.append_assoc, List.cons_append]
  · rintro ⟨hsuffix, p, hextended, rfl, rfl⟩
    have hrest {q : UInt8 → Bool} (hq : q semicolon = false) : ∀ b ∈ rest.head?, q b = false :=
      fun b hb => hsuffix b hb ▸ hq
    have hblank : ∀ b, isBlank b = true → isMimeToken b = false := fun _ => isMimeToken_of_isBlank
    have hname : ∀ b ∈ (p.name ++ (p.afterName ++ equalsSign :: (p.beforeValue ++
        (p.value ++ (p.after ++ rest))))).head?, isBlank b = false :=
      head?_token p.name_token
    have hafterName : ∀ b ∈ (p.afterName ++ equalsSign :: (p.beforeValue ++
        (p.value ++ (p.after ++ rest)))).head?, isMimeToken b = false :=
      head?_blanks p.afterName_blank hblank (head?_cons rfl)
    have hvalue : ∀ b ∈ (p.value ++ (p.after ++ rest)).head?, isBlank b = false := by
      rcases p.value_valid with htoken | ⟨body, -, hquoted⟩
      · exact head?_token htoken
      · rw [hquoted]
        exact head?_cons rfl
    have hbody : skipBlanks (p.body ++ rest) = p.name ++ (p.afterName ++ equalsSign ::
        (p.beforeValue ++ (p.value ++ (p.after ++ rest)))) := by
      simp only [MimeParameter.body, List.append_assoc, List.cons_append]
      exact skipBlanks_append p.before_blank hname
    obtain ⟨htake, hdrop⟩ := span_append p.name_token.2 hafterName
    rw [hbody, htake, hdrop, skipBlanks_append p.afterName_blank (head?_cons rfl)]
    refine ⟨p.name_token.1, hextended, _, rfl, p.after ++ rest, ⟨p.value, ?_, ?_⟩, ?_, rfl, ?_⟩
    · exact skipBlanks_append p.beforeValue_blank hvalue
    · refine p.value_valid.symm.imp_right fun htoken => ⟨htoken, ?_⟩
      exact head?_blanks p.after_blank hblank (hrest rfl)
    · rw [skipBlanks_append p.after_blank (hrest rfl)]
      exact hsuffix
    · exact skipBlanks_append p.after_blank (hrest rfl)
/-- A semicolon between quotation marks separates nothing. -/
example :
    scanParameter (utf8Encode " Name = \"a;b\\\"\" ; other=c") =
      .ok (utf8Encode "name", utf8Encode "; other=c") := by
  decide +kernel

/-! ### The parameter section -/

/-- The loop goes on behind what it has read. -/
theorem length_scanParameter {text rest key : Bytes} (h : scanParameter text = .ok (key, rest)) :
    rest.length < text.length := by
  obtain ⟨-, p, -, -, rfl⟩ := scanParameter_ok.mp h
  have hname := List.length_pos_iff.mpr p.name_token.1
  rw [MimeParameter.body]
  simp only [List.length_append, List.length_cons]
  omega

/-- Every semicolon is followed by a parameter of a new name. -/
def scanParameters (seen : List Bytes) : Bytes → Except MimeError PUnit.{1}
  | [] => .ok ⟨⟩
  | b :: text =>
    if b = semicolon then
      match h : scanParameter text with
      | .error e => .error e
      | .ok (name, rest) =>
        have := length_scanParameter h
        if name ∈ seen then .error .duplicateParameter else scanParameters (name :: seen) rest
    else .error .separator
termination_by text => text.length

/-- Reject duplicate parameters without splitting quoted semicolons. -/
def requireUniqueMimeParameters (value : Bytes) : Except MimeError PUnit.{1} := do
  Fallible.check (value ≠ [] ∧ value.length ≤ maxMimeHeaderBytes) .boundedHeader
  scanParameters [] (value.dropWhile (· ≠ semicolon))

/-- Parameters without an extended name, with different names. -/
def DistinctParameters (params : List MimeParameter) : Prop :=
  (∀ p ∈ params, asterisk ∉ p.name) ∧ (params.map MimeParameter.key).Nodup

theorem distinctParameters_nil : DistinctParameters [] :=
  ⟨fun _ hp => absurd hp List.not_mem_nil, List.nodup_nil⟩

theorem distinctParameters_cons {p : MimeParameter} {params : List MimeParameter} :
    DistinctParameters (p :: params) ↔
      asterisk ∉ p.name ∧ DistinctParameters params ∧ ∀ q ∈ params, q.key ≠ p.key := by
  simp only [DistinctParameters, List.forall_mem_cons, List.map_cons, List.nodup_cons,
    List.mem_map, not_exists, not_and]
  exact ⟨fun ⟨⟨hp, hparams⟩, hnew, hnodup⟩ => ⟨hp, ⟨hparams, hnodup⟩, hnew⟩,
    fun ⟨hp, ⟨hparams, hnodup⟩, hnew⟩ => ⟨⟨hp, hparams⟩, hnew, hnodup⟩⟩

/-- What begins a section. -/
theorem head?_flatMap_text (params : List MimeParameter) :
    ∀ b ∈ (params.flatMap MimeParameter.text).head?, b = semicolon := by
  intro b hb
  cases params with
  | nil => cases hb
  | cons p params => exact (Option.some.inj hb).symm

/-- The first parameter of a section is the one that is scanned. -/
theorem scanParameter_of_section {params : List MimeParameter} (h : DistinctParameters params)
    {b : UInt8} {text : Bytes} (htext : b :: text = params.flatMap MimeParameter.text) :
    ∃ p rest, params = p :: rest ∧
      scanParameter text = .ok (p.key, rest.flatMap MimeParameter.text) := by
  cases params with
  | nil => cases htext
  | cons p rest =>
    obtain ⟨hp, -, -⟩ := distinctParameters_cons.mp h
    rw [List.flatMap_cons, MimeParameter.text, List.cons_append] at htext
    refine ⟨p, rest, rfl, ?_⟩
    rw [(List.cons.inj htext).2]
    exact scanParameter_ok.mpr ⟨head?_flatMap_text rest, p, hp, rfl, rfl⟩

/-- **The sections that are read through.** -/
theorem scanParameters_ok {seen : List Bytes} {text : Bytes} {w : PUnit} :
    scanParameters seen text = .ok w ↔
      ∃ params, DistinctParameters params ∧ (∀ p ∈ params, p.key ∉ seen) ∧
        text = params.flatMap MimeParameter.text := by
  fun_induction scanParameters seen text with
  | case1 seen =>
    refine ⟨fun _ => ⟨[], distinctParameters_nil, ?_, rfl⟩, fun _ => rfl⟩
    exact fun _ hp => absurd hp List.not_mem_nil
  | case2 seen text e hscan =>
    -- the text does not begin with a parameter
    constructor
    · exact fun h => nomatch h
    · rintro ⟨params, hdistinct, -, htext⟩
      obtain ⟨p, rest, -, hp⟩ := scanParameter_of_section hdistinct htext
      rw [hp] at hscan
      cases hscan
  | case3 seen text name rest hscan _ hseen =>
    constructor
    · exact fun h => nomatch h
    · rintro ⟨params, hdistinct, hnew, htext⟩
      obtain ⟨p, rest, rfl, hp⟩ := scanParameter_of_section hdistinct htext
      rw [hp] at hscan
      obtain ⟨rfl, -⟩ := Prod.mk.inj (Except.ok.inj hscan)
      exact absurd hseen (hnew p List.mem_cons_self)
  | case4 seen text name rest hscan _ hseen ih =>
    rw [ih]
    constructor
    · rintro ⟨params, hdistinct, hnew, rfl⟩
      obtain ⟨-, p, hp, rfl, rfl⟩ := scanParameter_ok.mp hscan
      refine ⟨p :: params, distinctParameters_cons.mpr ⟨hp, hdistinct, fun q hq heq => ?_⟩, ?_, rfl⟩
      · exact hnew q hq (heq ▸ List.mem_cons_self)
      · rintro q hq
        rcases List.mem_cons.mp hq with rfl | hq
        · exact hseen
        · exact fun hmem => hnew q hq (List.mem_cons_of_mem _ hmem)
    · rintro ⟨params, hdistinct, hnew, htext⟩
      obtain ⟨p, rest, rfl, hp⟩ := scanParameter_of_section hdistinct htext
      obtain ⟨-, hdistinct, hother⟩ := distinctParameters_cons.mp hdistinct
      rw [hp] at hscan
      obtain ⟨rfl, rfl⟩ := Prod.mk.inj (Except.ok.inj hscan)
      refine ⟨rest, hdistinct, fun q hq hmem => ?_, rfl⟩
      rcases List.mem_cons.mp hmem with heq | hmem
      · exact hother q hq heq
      · exact hnew q (List.mem_cons_of_mem p hq) hmem
  | case5 seen b text hb =>
    constructor
    · exact fun h => nomatch h
    · rintro ⟨params, -, -, htext⟩
      exact absurd (head?_flatMap_text params b (htext ▸ rfl)) hb

/-- A header value whose parameter section follows the grammar. -/
def FollowsMimeGrammar (value : Bytes) : Prop :=
  ∃ media params, semicolon ∉ media ∧ DistinctParameters params ∧
    value = media ++ params.flatMap MimeParameter.text

/-- **The accepted headers**: those of the grammar that are neither empty nor too long. -/
theorem requireUniqueMimeParameters_ok (value : Bytes) :
    requireUniqueMimeParameters value = .ok ⟨⟩ ↔
      value ≠ [] ∧ value.length ≤ maxMimeHeaderBytes ∧ FollowsMimeGrammar value := by
  simp only [requireUniqueMimeParameters, Fallible.bind_ok, Fallible.check_ok, exists_and_left,
    exists_const, scanParameters_ok, and_assoc]
  refine and_congr_right fun _ => and_congr_right fun _ => ?_
  constructor
  · rintro ⟨params, hdistinct, -, hsection⟩
    refine ⟨value.takeWhile (· ≠ semicolon), params, fun hmem => ?_, hdistinct, ?_⟩
    · have hne := List.mem_takeWhile_imp (p := fun b => decide (b ≠ semicolon)) hmem
      exact absurd rfl (of_decide_eq_true hne)
    · rw [← hsection, List.takeWhile_append_dropWhile]
  · rintro ⟨media, params, hmedia, hdistinct, rfl⟩
    refine ⟨params, hdistinct, fun _ _ => List.not_mem_nil, ?_⟩
    refine (span_append (fun b hb => ?_) fun b hb => ?_).2
    · exact decide_eq_true fun heq => hmedia (heq ▸ hb)
    · rw [head?_flatMap_text params b hb]
      rfl

/-- The empty header is refused, although it has no parameters. -/
theorem requireUniqueMimeParameters_nil :
    ([] : Bytes).length ≤ maxMimeHeaderBytes ∧ FollowsMimeGrammar [] ∧
      requireUniqueMimeParameters [] ≠ .ok ⟨⟩ :=
  ⟨by decide, ⟨[], [], List.not_mem_nil, distinctParameters_nil, rfl⟩, fun h => nomatch h⟩

end PatchouliLib
