import PatchouliLib.Foundation.Bytes

/-!
# Base64 with the URL alphabet

The unpadded spelling of a byte string in groups of three bytes.  A decoder that
ignores the unused low bits of the last digit is made strict by encoding again.

## Main definitions

* `base64UrlEncode`, `base64UrlDecode` — the codec.
* `b64decode` — the lenient decoder, which also reads the standard alphabet and padding.

## Main results

* `base64UrlDecode_encode` — **decoding an encoding gives the bytes back.**
* `base64UrlEncode_of_decode` — a text that decodes is the encoding of its bytes.
* `filter_encode_eq_some` — a decoder that is right on encodings is made strict by encoding
  again, however lenient it is.
* `length_base64UrlEncode`, `isUrlDigit_of_mem` — the length and the characters of an encoding.
-/

namespace Foundation

/-- The digit `d` of the URL alphabet. -/
def base64Digit (d : ℕ) : Char :=
  if d < 26 then Char.ofNat (65 + d)
  else if d < 52 then Char.ofNat (97 + (d - 26))
  else if d < 62 then Char.ofNat (48 + (d - 52))
  else if d = 62 then '-'
  else '_'

/-- The value of a digit of the URL alphabet. -/
def base64Value (c : Char) : Option ℕ :=
  let n := c.toNat
  if 65 ≤ n ∧ n ≤ 90 then some (n - 65)
  else if 97 ≤ n ∧ n ≤ 122 then some (n - 97 + 26)
  else if 48 ≤ n ∧ n ≤ 57 then some (n - 48 + 52)
  else if c = '-' then some 62
  else if c = '_' then some 63
  else none

theorem base64Value_digit {d : ℕ} (hd : d < 64) : base64Value (base64Digit d) = some d := by
  have key : ∀ d < 64, base64Value (base64Digit d) = some d := by decide
  exact key d hd

/-- The `k` digits of `n`, the highest first. -/
def base64Digits : ℕ → ℕ → Text
  | 0, _ => []
  | k + 1, n => base64Digit (n / 64 ^ k % 64) :: base64Digits k n

/-- `base64.urlsafe_b64encode(data).rstrip(b"=")`. -/
def base64UrlEncode : Bytes → Text
  | a :: b :: c :: rest =>
    base64Digits 4 (a.toNat * 65536 + b.toNat * 256 + c.toNat) ++ base64UrlEncode rest
  | [a, b] => base64Digits 3 ((a.toNat * 256 + b.toNat) * 4)
  | [a] => base64Digits 2 (a.toNat * 16)
  | [] => []

/-- The bytes a text of digits spells, whatever its unused bits are. -/
def base64Raw : Text → Option Bytes
  | d1 :: d2 :: d3 :: d4 :: rest => do
    let n := ((← base64Value d1) * 64 + (← base64Value d2)) * 64 + (← base64Value d3)
    let m := n * 64 + (← base64Value d4)
    let tail ← base64Raw rest
    some (UInt8.ofNat (m / 65536) :: UInt8.ofNat (m / 256 % 256) :: UInt8.ofNat (m % 256) :: tail)
  | [d1, d2, d3] => do
    let n := (((← base64Value d1) * 64 + (← base64Value d2)) * 64 + (← base64Value d3)) / 4
    some [UInt8.ofNat (n / 256), UInt8.ofNat (n % 256)]
  | [d1, d2] => do
    let n := ((← base64Value d1) * 64 + (← base64Value d2)) / 16
    some [UInt8.ofNat n]
  | [_] => none
  | [] => some []

/-- The strict decoder. -/
def base64UrlDecode (value : Text) : Option Bytes :=
  (base64Raw value).filter fun bytes => base64UrlEncode bytes = value

theorem ofNat_toNat_eq {a : UInt8} {n : ℕ} (h : n = a.toNat) : UInt8.ofNat n = a := by
  rw [h, UInt8.ofNat_toNat]

theorem base64Raw_encode (bytes : Bytes) : base64Raw (base64UrlEncode bytes) = some bytes := by
  fun_induction base64UrlEncode bytes with
  | case1 a b c rest ih =>
    have ha := a.toNat_lt
    have hb := b.toNat_lt
    have hc := c.toNat_lt
    simp only [base64Digits, List.cons_append, List.nil_append, base64Raw, ih,
      base64Value_digit (Nat.mod_lt _ (by decide)), Option.bind_eq_bind, Option.bind_some]
    congr 2
    · exact ofNat_toNat_eq (by omega)
    · congr 1
      · exact ofNat_toNat_eq (by omega)
      · congr 1
        exact ofNat_toNat_eq (by omega)
  | case2 a b =>
    have ha := a.toNat_lt
    have hb := b.toNat_lt
    simp only [base64Digits, base64Raw, base64Value_digit (Nat.mod_lt _ (by decide)),
      Option.bind_eq_bind, Option.bind_some]
    congr 2
    · exact ofNat_toNat_eq (by omega)
    · congr 1
      exact ofNat_toNat_eq (by omega)
  | case3 a =>
    have ha := a.toNat_lt
    simp only [base64Digits, base64Raw, base64Value_digit (Nat.mod_lt _ (by decide)),
      Option.bind_eq_bind, Option.bind_some]
    congr 2
    exact ofNat_toNat_eq (by omega)
  | case4 => rfl

/-- **Decoding an encoding gives the bytes back.** -/
theorem base64UrlDecode_encode (bytes : Bytes) :
    base64UrlDecode (base64UrlEncode bytes) = some bytes := by
  rw [base64UrlDecode, base64Raw_encode, Option.filter_some, if_pos (by simp)]

/-- A text that decodes is the encoding of its bytes. -/
theorem base64UrlEncode_of_decode {value : Text} {bytes : Bytes}
    (h : base64UrlDecode value = some bytes) : base64UrlEncode bytes = value := by
  obtain ⟨-, h⟩ := Option.filter_eq_some_iff.mp h
  exact of_decide_eq_true h

theorem base64UrlEncode_injective {a b : Bytes} (h : base64UrlEncode a = base64UrlEncode b) :
    a = b := by
  have := base64UrlDecode_encode a
  rw [h, base64UrlDecode_encode] at this
  exact (Option.some.inj this).symm

/-! ### Lenient decoders -/

/-- `base64.b64decode(value + padding, altchars=b"-_", validate=True)`: the two last digits are
also read in the standard alphabet, and as much padding may stand at the end as the text needs. -/
def b64decode (value : Text) : Option Bytes :=
  let digits := (value.rdropWhile (· = '=')).map fun c =>
    if c = '+' then '-' else if c = '/' then '_' else c
  if value.length - digits.length ≤ (4 - digits.length % 4) % 4 then base64Raw digits else none

/-- A decoder that is right on encodings is made strict by encoding again. -/
theorem filter_encode_eq_some {raw : Text → Option Bytes}
    (hraw : ∀ bytes, raw (base64UrlEncode bytes) = some bytes) {value : Text} {bytes : Bytes} :
    (raw value).filter (fun bytes => base64UrlEncode bytes = value) = some bytes ↔
      base64UrlEncode bytes = value := by
  constructor
  · intro h
    obtain ⟨-, h⟩ := Option.filter_eq_some_iff.mp h
    exact of_decide_eq_true h
  · rintro rfl
    rw [hraw, Option.filter_some, if_pos (by simp)]

theorem base64UrlDecode_eq_some {value : Text} {bytes : Bytes} :
    base64UrlDecode value = some bytes ↔ base64UrlEncode bytes = value :=
  filter_encode_eq_some base64Raw_encode

/-! ### The texts of the encodings -/

/-- `[A-Za-z0-9_-]`. -/
def isUrlDigit (c : Char) : Bool := (base64Value c).isSome

theorem isUrlDigit_of_mem {bytes : Bytes} {c : Char} (h : c ∈ base64UrlEncode bytes) :
    isUrlDigit c = true := by
  have hdigits : ∀ k n, ∀ c ∈ base64Digits k n, isUrlDigit c = true := by
    intro k n
    induction k with
    | zero => exact fun c hc => absurd hc List.not_mem_nil
    | succ k ih =>
      intro c hc
      rcases List.mem_cons.mp hc with rfl | hc
      · rw [isUrlDigit, base64Value_digit (Nat.mod_lt _ (by decide))]
        rfl
      · exact ih c hc
  fun_induction base64UrlEncode bytes with
  | case1 a b c rest ih =>
    rcases List.mem_append.mp h with h | h
    · exact hdigits _ _ _ h
    · exact ih h
  | case2 a b => exact hdigits _ _ _ h
  | case3 a => exact hdigits _ _ _ h
  | case4 => exact absurd h List.not_mem_nil

/-- No digit is a point, padding, or a digit of the standard alphabet. -/
theorem ne_of_isUrlDigit {c d : Char} (h : isUrlDigit c = true) (hd : base64Value d = none) :
    c ≠ d := by
  rintro rfl
  rw [isUrlDigit, hd] at h
  cases h

/-- A point tells one encoding from the next. -/
theorem point_notMem_base64UrlEncode (bytes : Bytes) : '.' ∉ base64UrlEncode bytes := fun h =>
  ne_of_isUrlDigit (isUrlDigit_of_mem h) (by decide) rfl

theorem isAscii_of_isUrlDigit {c : Char} (h : isUrlDigit c = true) : c.toNat < 128 := by
  by_contra hlarge
  have h45 : c ≠ '-' := by
    rintro rfl
    exact hlarge (by decide)
  have h95 : c ≠ '_' := by
    rintro rfl
    exact hlarge (by decide)
  rw [isUrlDigit, base64Value] at h
  rw [if_neg (by omega), if_neg (by omega), if_neg (by omega), if_neg h45, if_neg h95] at h
  cases h

theorem length_base64Digits (k n : ℕ) : (base64Digits k n).length = k := by
  induction k with
  | zero => rfl
  | succ k ih => rw [base64Digits, List.length_cons, ih]

/-- Three bytes take four digits. -/
theorem length_base64UrlEncode (bytes : Bytes) :
    (base64UrlEncode bytes).length = (4 * bytes.length + 2) / 3 := by
  fun_induction base64UrlEncode bytes with
  | case1 a b c rest ih =>
    rw [List.length_append, length_base64Digits, ih]
    simp only [List.length_cons]
    omega
  | case2 a b => rw [length_base64Digits, List.length_cons, List.length_singleton]
  | case3 a => rw [length_base64Digits, List.length_singleton]
  | case4 => rfl

/-- The lenient decoder is right on encodings. -/
theorem b64decode_encode (bytes : Bytes) : b64decode (base64UrlEncode bytes) = some bytes := by
  have hdigit {c : Char} (hc : c ∈ base64UrlEncode bytes) := isUrlDigit_of_mem hc
  have hpadding : (base64UrlEncode bytes).rdropWhile (· = '=') = base64UrlEncode bytes := by
    rw [List.rdropWhile_eq_self_iff]
    intro hne hlast
    exact ne_of_isUrlDigit (hdigit (List.getLast_mem hne)) (by decide) (of_decide_eq_true hlast)
  have hmap : (base64UrlEncode bytes).map (fun c =>
      if c = '+' then '-' else if c = '/' then '_' else c) = base64UrlEncode bytes := by
    conv_rhs => rw [← List.map_id (base64UrlEncode bytes)]
    refine List.map_congr_left fun c hc => ?_
    rw [if_neg (ne_of_isUrlDigit (hdigit hc) (by decide)),
      if_neg (ne_of_isUrlDigit (hdigit hc) (by decide)), id]
  rw [b64decode, hpadding, hmap, if_pos (by rw [Nat.sub_self]; exact Nat.zero_le _), base64Raw_encode]

end Foundation
