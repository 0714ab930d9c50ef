import Mathlib

/-!
# Bytes and text

Byte strings, their fixed-width big-endian numerals, their hexadecimal spelling
and the UTF-8 codec.  A digest input is a concatenation of such pieces, and it
identifies the pieces when every piece but the last has a known width: that is
what `append_inj_of_length` and the injectivity lemmas below are for.

## Main definitions

* `Bytes`, `Text` — byte strings and sequences of codepoints.
* `bigEndian w n` — the `w`-byte big-endian numeral of `n`.
* `signedBigEndian i` — the eight-byte two's complement numeral of `i`.
* `hex bs` — the lower-case hexadecimal spelling of `bs`, `unhex` its inverse.
* `utf8Encode`, `utf8Decode` — the strict UTF-8 codec.

## Main results

* `bigEndian_inj`, `signedBigEndian_inj`, `hex_injective` — the spellings are
  injective on the numbers that fit.
* `utf8Decode_utf8Encode`, `utf8Encode_of_utf8Decode` — the codec is a bijection
  between texts and the byte strings it accepts.
-/

namespace Foundation

/-- A byte string. -/
abbrev Bytes := List UInt8

/-- A sequence of Unicode codepoints. -/
abbrev Text := List Char

instance : Coe String Text := ⟨String.toList⟩

instance (priority := 2000) Text.lawfulBEq : LawfulBEq Text := inferInstance

instance (priority := 2000) Bytes.lawfulBEq : LawfulBEq Bytes := inferInstance

/-- What holds of every codepoint of a text is decided along the text. -/
instance (priority := 2000) Text.decidableForall (p : Char → Prop) [DecidablePred p] (t : Text) :
    Decidable (∀ c ∈ t, p c) :=
  List.decidableBAll p t

/-- Two concatenations agree piece by piece when their first pieces are equally
long. -/
theorem append_inj_of_length {α : Type*} {a a' b b' : List α} (h : a ++ b = a' ++ b')
    (hl : a.length = a'.length) : a = a' ∧ b = b' :=
  List.append_inj h hl

/-! ### Big-endian numerals -/

/-- The `w`-byte big-endian numeral of `n`. -/
def bigEndian : ℕ → ℕ → Bytes
  | 0, _ => []
  | w + 1, n => UInt8.ofNat (n / 256 ^ w % 256) :: bigEndian w n

@[simp] theorem length_bigEndian (w n : ℕ) : (bigEndian w n).length = w := by
  induction w with
  | zero => rfl
  | succ w ih => rw [bigEndian, List.length_cons, ih]

/-- Equal numerals have equal remainders: the digits below position `w` are all
there. -/
theorem mod_eq_of_bigEndian_eq {w n m : ℕ} (h : bigEndian w n = bigEndian w m) :
    n % 256 ^ w = m % 256 ^ w := by
  induction w with
  | zero => simp [Nat.mod_one]
  | succ w ih =>
    rw [bigEndian, bigEndian, List.cons.injEq] at h
    have hlow := ih h.2
    have hhigh : n / 256 ^ w % 256 = m / 256 ^ w % 256 := by
      have := congrArg UInt8.toNat h.1
      rw [UInt8.toNat_ofNat', UInt8.toNat_ofNat'] at this
      simpa using this
    rw [Nat.pow_succ, Nat.mod_mul, Nat.mod_mul, hlow, hhigh]

theorem bigEndian_inj {w n m : ℕ} (hn : n < 256 ^ w) (hm : m < 256 ^ w)
    (h : bigEndian w n = bigEndian w m) : n = m := by
  have := mod_eq_of_bigEndian_eq h
  rwa [Nat.mod_eq_of_lt hn, Nat.mod_eq_of_lt hm] at this

/-- The eight-byte two's complement numeral of `i`. -/
def signedBigEndian (i : ℤ) : Bytes := bigEndian 8 (i % 2 ^ 64).toNat

@[simp] theorem length_signedBigEndian (i : ℤ) : (signedBigEndian i).length = 8 :=
  length_bigEndian _ _

theorem signedBigEndian_inj {i j : ℤ} (hi : -2 ^ 63 ≤ i ∧ i < 2 ^ 63)
    (hj : -2 ^ 63 ≤ j ∧ j < 2 ^ 63) (h : signedBigEndian i = signedBigEndian j) : i = j := by
  have hmod := bigEndian_inj (w := 8) (by omega) (by omega) h
  omega

/-! ### Hexadecimal -/

/-- The lower-case hexadecimal digit of a number below sixteen. -/
def hexDigit (n : ℕ) : Char :=
  if n < 10 then Char.ofNat (48 + n) else Char.ofNat (87 + n)

theorem hexDigit_inj {n m : ℕ} (hn : n < 16) (hm : m < 16) (h : hexDigit n = hexDigit m) :
    n = m := by
  have key : ∀ a < 16, ∀ b < 16, hexDigit a = hexDigit b → a = b := by decide
  exact key n hn m hm h

/-- The lower-case hexadecimal spelling of a byte string. -/
def hex : Bytes → Text
  | [] => []
  | b :: bs => hexDigit (b.toNat / 16) :: hexDigit (b.toNat % 16) :: hex bs

@[simp] theorem length_hex (bs : Bytes) : (hex bs).length = 2 * bs.length := by
  induction bs with
  | nil => rfl
  | cons b bs ih =>
    simp only [hex, List.length_cons, ih]
    omega

/-- A hexadecimal text is of digits. -/
theorem exists_of_mem_hex {bs : Bytes} {c : Char} (h : c ∈ hex bs) : ∃ n < 16, hexDigit n = c := by
  induction bs with
  | nil => exact absurd h List.not_mem_nil
  | cons b bs ih =>
    have hb := b.toNat_lt
    rw [hex, List.mem_cons, List.mem_cons] at h
    rcases h with rfl | rfl | h
    · exact ⟨b.toNat / 16, by omega, rfl⟩
    · exact ⟨b.toNat % 16, by omega, rfl⟩
    · exact ih h

theorem hex_injective {a b : Bytes} (h : hex a = hex b) : a = b := by
  induction a generalizing b with
  | nil =>
    cases b with
    | nil => rfl
    | cons _ _ => simp [hex] at h
  | cons x xs ih =>
    cases b with
    | nil => simp [hex] at h
    | cons y ys =>
      simp only [hex, List.cons.injEq] at h
      obtain ⟨hhigh, hlow, hrest⟩ := h
      have hx := x.toNat_lt
      have hy := y.toNat_lt
      have h1 := hexDigit_inj (by omega) (by omega) hhigh
      have h2 := hexDigit_inj (by omega) (by omega) hlow
      rw [UInt8.toNat_inj.mp (by omega : x.toNat = y.toNat), ih hrest]

/-- The value of a lower-case hexadecimal digit. -/
def hexValue (c : Char) : ℕ := if c.toNat < 97 then c.toNat - 48 else c.toNat - 87

/-- The byte string that a hexadecimal text spells. -/
def unhex : Text → Bytes
  | high :: low :: rest => UInt8.ofNat (hexValue high * 16 + hexValue low) :: unhex rest
  | _ => []

theorem hexValue_hexDigit {n : ℕ} (hn : n < 16) : hexValue (hexDigit n) = n := by
  have key : ∀ a < 16, hexValue (hexDigit a) = a := by decide
  exact key n hn

@[simp] theorem unhex_hex (bs : Bytes) : unhex (hex bs) = bs := by
  induction bs with
  | nil => rfl
  | cons b bs ih =>
    have hb := b.toNat_lt
    have hdigits : b.toNat / 16 * 16 + b.toNat % 16 = b.toNat := by omega
    rw [hex, unhex, hexValue_hexDigit (by omega), hexValue_hexDigit (by omega), hdigits, ih,
      UInt8.ofNat_toNat]

/-- A text of digits is spelled again by what it spells. -/
theorem hex_unhex {text : Text} (hdigits : ∀ c ∈ text, ∃ n < 16, hexDigit n = c)
    (heven : text.length % 2 = 0) : hex (unhex text) = text := by
  induction text using unhex.induct with
  | case1 high low rest ih =>
    obtain ⟨n, hn, rfl⟩ := hdigits high (by simp)
    obtain ⟨m, hm, rfl⟩ := hdigits low (by simp)
    rw [List.length_cons, List.length_cons] at heven
    have hrest := ih (fun c hc => hdigits c (by simp [hc])) (by omega)
    have hbyte : (UInt8.ofNat (n * 16 + m)).toNat = n * 16 + m := by
      rw [UInt8.toNat_ofNat']
      omega
    rw [unhex, hexValue_hexDigit hn, hexValue_hexDigit hm, hex, hbyte, hrest]
    congr <;> omega
  | case2 text htext =>
    match text, htext with
    | [], _ => rfl
    | [_], _ => exact absurd heven (by simp)
    | high :: low :: rest, htext => exact absurd rfl (htext high low rest)

theorem length_unhex {text : Text} (hdigits : ∀ c ∈ text, ∃ n < 16, hexDigit n = c)
    (heven : text.length % 2 = 0) : (unhex text).length = text.length / 2 := by
  have hlength := congrArg List.length (hex_unhex hdigits heven)
  rw [length_hex] at hlength
  omega

/-! ### UTF-8 -/

/-- The UTF-8 encoding of a text. -/
def utf8Encode (t : Text) : Bytes := (String.ofList t).toByteArray.data.toList

/-- Strict UTF-8 decoding. -/
def utf8Decode (bs : Bytes) : Option Text :=
  (ByteArray.mk bs.toArray).utf8Decode?.map Array.toList

@[simp] theorem utf8Decode_utf8Encode (t : Text) : utf8Decode (utf8Encode t) = some t := by
  have h : ((⟨(String.ofList t).toByteArray.data⟩ : ByteArray)) = t.utf8Encode :=
    String.toByteArray_ofList
  rw [utf8Decode, utf8Encode, Array.toArray_toList, h, List.utf8Decode?_utf8Encode]
  rfl

theorem utf8Encode_of_utf8Decode {bs : Bytes} {t : Text} (h : utf8Decode bs = some t) :
    utf8Encode t = bs := by
  obtain ⟨cs, hcs, rfl⟩ := Option.map_eq_some_iff.mp h
  have hget := ByteArray.utf8Encode_get_utf8Decode? (b := ByteArray.mk bs.toArray)
    (h := by rw [hcs]; rfl)
  simp only [hcs, Option.get_some] at hget
  rw [utf8Encode, String.toByteArray_ofList, hget]

/-- The encoding goes character by character. -/
theorem utf8Encode_eq_flatMap (t : Text) : utf8Encode t = t.flatMap String.utf8EncodeChar := by
  rw [utf8Encode, String.toByteArray_ofList, List.utf8Encode, List.data_toByteArray]

/-- A character takes at least one byte. -/
theorem length_le_length_utf8Encode (t : Text) : t.length ≤ (utf8Encode t).length := by
  rw [utf8Encode_eq_flatMap, List.length_flatMap]
  induction t with
  | nil => exact Nat.le_refl 0
  | cons c t ih =>
    have hc : 1 ≤ (String.utf8EncodeChar c).length := by
      rw [String.length_utf8EncodeChar]
      exact Char.utf8Size_pos c
    simp only [List.map_cons, List.sum_cons, List.length_cons]
    omega

/-- An ASCII text has one byte for each character. -/
theorem length_utf8Encode_of_ascii {t : Text} (h : t.all (·.toNat < 128) = true) :
    (utf8Encode t).length = t.length := by
  rw [utf8Encode_eq_flatMap, List.length_flatMap]
  induction t with
  | nil => rfl
  | cons c t ih =>
    rw [List.all_cons, Bool.and_eq_true, decide_eq_true_eq] at h
    have hc : (String.utf8EncodeChar c).length = 1 := by
      rw [String.length_utf8EncodeChar]
      exact Char.utf8Size_eq_one_iff.mpr (Nat.le_of_lt_succ h.1)
    rw [List.map_cons, List.sum_cons, List.length_cons, hc, ih h.2]
    omega

theorem utf8Encode_injective {t u : Text} (h : utf8Encode t = utf8Encode u) : t = u := by
  have := congrArg utf8Decode h
  simpa using this

end Foundation
