import PatchouliLib.Foundation.Base64
import PatchouliLib.Foundation.Framing
import PatchouliLib.Foundation.JsonDecoding
import PatchouliLib.Foundation.Transaction
import PatchouliLib.Platform

/-!
# Pagination cursors

A cursor is the key of the last row of a page, bound to the request that the page
answers and authenticated under a secret.  The request is reduced to a digest, so
a cursor says nothing about it, and a cursor of one request is refused under
another.

## Main definitions

* `CursorBinding` — the request context of a cursor, within its bounds.
* `CursorCodec.encode`, `CursorCodec.decode` — the codec.
* `CursorCodec.cursorOf` — the cursor of a binding, a key and a version.
* `SpellsVersion` — the payload spells its version in one digit.

## Main results

* `CursorCodec.decode_ok` — **the accepted texts**: the cursors of the binding, with the version
  spelled as an integer or as a floating point number.
* `CursorBinding.material_injective` — the framed request tells the binding.
* `CursorCodec.decode_issued` — **a cursor is read back under its binding, and refused under
  every other.**
* `CursorCodec.encode_iff_spellsVersion` — an accepted text is the issued one exactly when it
  spells the version in one digit.
-/

namespace PatchouliLib

open Foundation

/-! ### Bindings -/

def cursorVersion : ℕ := 1
def minCursorSecretBytes : ℕ := 32
def maxCursorIdentityBytes : ℕ := 4096
def maxCursorLength : ℕ := 4096
def cursorPrefix : Text := "plc1"
def maxRouteIdentityBytes : ℕ := 128
def maxScopeIdBytes : ℕ := 255
def maxInternalKeyCharacters : ℕ := 255
def tagBytes : ℕ := 32

def authenticationDomain : Bytes :=
  utf8Encode "patchouli-lib:retrieval-cursor:authentication:v1" ++ [0]

def bindingDomain : Bytes := utf8Encode "patchouli-lib:retrieval-cursor:binding:v1" ++ [0]
def requestIdentityDomain : Bytes := utf8Encode "patchouli-lib:retrieval-cursor:request:v1" ++ [0]

/-- What the codec raises: an error of its caller, or of the cursor. -/
inductive CursorError where
  | value
  | invalidCursor
deriving DecidableEq, Repr

def IsBoundedText (value : Text) : Prop :=
  value ≠ [] ∧ (utf8Encode value).length ≤ maxScopeIdBytes

instance (value : Text) : Decidable (IsBoundedText value) := by
  unfold IsBoundedText
  infer_instance

def isLowerOrDigit (c : Char) : Bool := ('a' ≤ c && c ≤ 'z') || ('0' ≤ c && c ≤ '9')
def isRouteSeparator (c : Char) : Bool := c = '.' || c = '_' || c = '-'

/-- `[a-z0-9]*(?:[._-][a-z0-9]+)*` behind a letter, digit or separator. -/
def isRouteRest : Bool → Text → Bool
  | letter, [] => letter
  | letter, c :: rest =>
    if isLowerOrDigit c then isRouteRest true rest
    else letter && isRouteSeparator c && isRouteRest false rest

/-- `^[a-z][a-z0-9]*(?:[._-][a-z0-9]+)*$`. -/
def isRouteIdentity : Text → Bool
  | [] => false
  | c :: rest => 'a' ≤ c && c ≤ 'z' && isRouteRest true rest

/-- `MAX_PAGE_LIMIT`. -/
def CursorBinding.maxPageLimit : ℕ := 100

/-- Normalized request context that an issued cursor cannot cross. -/
@[ext] structure CursorBinding where
  callerId : Text
  policyVersion : ℕ
  sectionId : Option Text
  routeIdentity : Text
  limit : ℕ
  queryIdentity : Bytes
  filtersIdentity : Bytes
  sortIdentity : Bytes
  caller_bounded : IsBoundedText callerId
  section_bounded : ∀ s ∈ sectionId, IsBoundedText s
  route_canonical : isRouteIdentity routeIdentity = true
  route_bounded : routeIdentity.length ≤ maxRouteIdentityBytes
  policy_range : 1 ≤ policyVersion ∧ policyVersion ≤ 2 ^ 63 - 1
  limit_range : 1 ≤ limit ∧ limit ≤ CursorBinding.maxPageLimit
  query_bounded : queryIdentity.length ≤ maxCursorIdentityBytes
  filters_bounded : filtersIdentity.length ≤ maxCursorIdentityBytes
  sort_bounded : sortIdentity.length ≤ maxCursorIdentityBytes

/-- A codec holds a secret of at least 256 bits. -/
structure CursorCodec where
  secret : Bytes
  secret_long : minCursorSecretBytes ≤ secret.length

def framedBytes (values : List Bytes) : Bytes := values.flatMap (widthFrame 4)

def framedDigest [Platform] (domain : Bytes) (values : List Bytes) : Bytes :=
  sha256 (domain ++ framedBytes values)

namespace CursorBinding

/-- What the request identity is a digest of. -/
def requestMaterial (binding : CursorBinding) : Bytes :=
  requestIdentityDomain ++
    framedBytes [binding.queryIdentity, binding.filtersIdentity, binding.sortIdentity]

def sectionIdentity (binding : CursorBinding) : Bytes :=
  match binding.sectionId with
  | none => [0]
  | some s => 1 :: utf8Encode s

/-- What the binding digest is an authentication code of. -/
def material [Platform] (binding : CursorBinding) : Bytes :=
  let requestIdentity := framedDigest requestIdentityDomain
    [binding.queryIdentity, binding.filtersIdentity, binding.sortIdentity]
  bindingDomain ++ framedBytes [
    utf8Encode binding.callerId,
    utf8Encode (Nat.toDigits 10 binding.policyVersion),
    binding.sectionIdentity,
    utf8Encode binding.routeIdentity,
    utf8Encode (Nat.toDigits 10 binding.limit),
    requestIdentity]

end CursorBinding

/-! ### The codec -/

section Codec

variable [Platform]

def base64urlDecode (value : Text) : Except CursorError Bytes := do
  Fallible.check (value ≠ [] ∧ value.all isUrlDigit = true ∧ value.length % 4 ≠ 1) .invalidCursor
  let decoded ← Fallible.get (b64decode value) .invalidCursor
  Fallible.check (base64UrlEncode decoded = value) .invalidCursor
  pure decoded

def requireInternalKey (value : Codepoints) : Except CursorError PUnit.{1} := do
  Fallible.check (value ≠ [] ∧ value.length ≤ maxInternalKeyCharacters) .value
  -- a lone surrogate has no encoding
  Fallible.check (value.text?.isSome = true) .value

def canonicalPayload (payload : List (Codepoints × JsonValue)) : Option Bytes :=
  (JsonValue.render (.obj payload)).map utf8Encode

/-- The text behind whose point the tag stands. -/
def authenticated (payload : Bytes) : Text := cursorPrefix ++ '.' :: base64UrlEncode payload

namespace CursorCodec

def bindingDigest (codec : CursorCodec) (binding : CursorBinding) : Bytes :=
  hmacSha256 codec.secret binding.material

def authenticationTag (codec : CursorCodec) (text : Text) : Bytes :=
  hmacSha256 codec.secret (authenticationDomain ++ utf8Encode text)

/-- Return a deterministic cursor for one normalized request context. -/
def encode (codec : CursorCodec) (binding : CursorBinding) (lastKey : Codepoints) :
    Except CursorError Text := do
  requireInternalKey lastKey
  let payload ← Fallible.get (canonicalPayload [
    (Text.codepoints "b", .str (base64UrlEncode (codec.bindingDigest binding)).codepoints),
    (Text.codepoints "k", .str lastKey),
    (Text.codepoints "v", .int cursorVersion)]) .value
  let tag := codec.authenticationTag (authenticated payload)
  let token := authenticated payload ++ '.' :: base64UrlEncode tag
  Fallible.check (token.length ≤ maxCursorLength) .value
  pure token

/-- The payload of a cursor with a valid tag. -/
def verifiedPayload (codec : CursorCodec) (cursor : Text) : Except CursorError Bytes := do
  Fallible.check (cursor ≠ [] ∧ cursor.length ≤ maxCursorLength) .invalidCursor
  match cursor.splitOn '.' with
  | [pre, encodedPayload, encodedTag] =>
    Fallible.check (pre = cursorPrefix) .invalidCursor
    let payload ← base64urlDecode encodedPayload
    let tag ← base64urlDecode encodedTag
    Fallible.check (tag.length = tagBytes) .invalidCursor
    let expectedTag := codec.authenticationTag (pre ++ '.' :: encodedPayload)
    Fallible.check (tag = expectedTag) .invalidCursor
    pure payload
  | _ => throw .invalidCursor

end CursorCodec

/-- The fields of a payload: it is the canonical spelling of an object with three fields. -/
def payloadFields (payload : Bytes) : Except CursorError (List (Codepoints × JsonValue)) := do
  let text ← Fallible.get (utf8Decode payload) .invalidCursor
  let value ← Fallible.get (JsonValue.loads JsonValue.lastPairs text) .invalidCursor
  let fields ← Fallible.get value.fields? .invalidCursor
  Fallible.check ((Dict.keys fields).toFinset =
    {Text.codepoints "b", Text.codepoints "k", Text.codepoints "v"}) .invalidCursor
  Fallible.check (canonicalPayload fields = some payload) .invalidCursor
  pure fields

/-- Verify one untrusted cursor and return its internal key. -/
def CursorCodec.decode (codec : CursorCodec) (cursor : Text) (binding : CursorBinding) :
    Except CursorError Codepoints := do
  let payload ← codec.verifiedPayload cursor
  let fields ← payloadFields payload
  let version ← Fallible.get (JsonValue.field? fields "v") .invalidCursor
  Fallible.check (version.equalsInt cursorVersion = true) .invalidCursor
  let encodedBinding ← Fallible.get ((JsonValue.field? fields "b").bind JsonValue.str?)
    .invalidCursor
  let lastKey ← Fallible.get ((JsonValue.field? fields "k").bind JsonValue.str?) .invalidCursor
  let encodedBinding ← Fallible.get encodedBinding.text? .invalidCursor
  let suppliedBinding ← base64urlDecode encodedBinding
  Fallible.check (suppliedBinding = codec.bindingDigest binding) .invalidCursor
  (requireInternalKey lastKey).mapError fun _ => .invalidCursor
  pure lastKey

end Codec

/-! ### The framed request -/

theorem utf8_toDigits_inj {n m : ℕ}
    (h : utf8Encode (Nat.toDigits 10 n) = utf8Encode (Nat.toDigits 10 m)) : n = m := by
  rw [← Nat.ofDigitChars_ten_toDigits (n := n), utf8Encode_injective h,
    Nat.ofDigitChars_ten_toDigits]

theorem length_utf8_toDigits_le {n w : ℕ} (hw : 0 < w) (h : n < 10 ^ w) :
    (utf8Encode (Nat.toDigits 10 n)).length ≤ w := by
  have hascii : (Nat.toDigits 10 n).all (·.toNat < 128) = true := by
    refine List.all_eq_true.mpr fun c hc => decide_eq_true ?_
    have hdigit : c.isDigit = true := Json.isDigit_of_mem_toDigits hc
    have hnine : c.toNat ≤ 57 := (Char.isDigit_iff_toNat.mp hdigit).2
    omega
  rw [length_utf8Encode_of_ascii hascii]
  exact Nat.toDigits_length 10 n w hw h

theorem isAscii_of_isRouteRest {route : Text} {letter : Bool} (h : isRouteRest letter route = true) :
    route.all (·.toNat < 128) = true := by
  have hletter {c : Char} (hc : isLowerOrDigit c = true) : c.toNat < 128 := by
    simp only [isLowerOrDigit, Bool.or_eq_true, Bool.and_eq_true, decide_eq_true_eq, Char.le_def,
      UInt32.le_iff_toNat_le] at hc
    rcases hc with ⟨-, hc⟩ | ⟨-, hc⟩ <;> exact Nat.lt_of_le_of_lt hc (by decide)
  have hseparator {c : Char} (hc : isRouteSeparator c = true) : c.toNat < 128 := by
    simp only [isRouteSeparator, Bool.or_eq_true, decide_eq_true_eq] at hc
    rcases hc with (rfl | rfl) | rfl <;> decide
  induction route generalizing letter with
  | nil => rfl
  | cons c route ih =>
    rw [isRouteRest] at h
    rw [List.all_cons, Bool.and_eq_true, decide_eq_true_eq]
    split at h
    · next hc => exact ⟨hletter hc, ih h⟩
    · simp only [Bool.and_eq_true] at h
      exact ⟨hseparator h.1.2, ih h.2⟩

namespace CursorBinding

theorem length_route_le (binding : CursorBinding) :
    (utf8Encode binding.routeIdentity).length ≤ maxRouteIdentityBytes := by
  have hcanonical := binding.route_canonical
  have hascii : binding.routeIdentity.all (·.toNat < 128) = true := by
    cases hroute : binding.routeIdentity with
    | nil => rfl
    | cons c rest =>
      rw [hroute, isRouteIdentity, Bool.and_eq_true] at hcanonical
      have hfirst : isRouteRest true (c :: rest) = true := by
        have hlower : isLowerOrDigit c = true := by
          rw [isLowerOrDigit, hcanonical.1, Bool.true_or]
        rw [isRouteRest, if_pos hlower]
        exact hcanonical.2
      exact isAscii_of_isRouteRest hfirst
  rw [length_utf8Encode_of_ascii hascii]
  exact binding.route_bounded

theorem sectionIdentity_inj {binding binding' : CursorBinding}
    (h : binding.sectionIdentity = binding'.sectionIdentity) :
    binding.sectionId = binding'.sectionId := by
  unfold sectionIdentity at h
  cases hs : binding.sectionId with
  | none =>
    cases hs' : binding'.sectionId with
    | none => rfl
    | some s' =>
      rw [hs, hs'] at h
      cases h
  | some s =>
    cases hs' : binding'.sectionId with
    | none =>
      rw [hs, hs'] at h
      cases h
    | some s' =>
      rw [hs, hs'] at h
      rw [utf8Encode_injective (List.cons.inj h).2]

theorem length_sectionIdentity_le (binding : CursorBinding) :
    binding.sectionIdentity.length ≤ maxScopeIdBytes + 1 := by
  unfold sectionIdentity
  cases hs : binding.sectionId with
  | none => exact Nat.le_add_left 1 _
  | some s => exact Nat.succ_le_succ (binding.section_bounded s hs).2

/-- The inner frames tell the identities of the request. -/
theorem requestMaterial_inj {binding binding' : CursorBinding}
    (h : binding.requestMaterial = binding'.requestMaterial) :
    binding.queryIdentity = binding'.queryIdentity ∧
      binding.filtersIdentity = binding'.filtersIdentity ∧
      binding.sortIdentity = binding'.sortIdentity := by
  have hfits (b : CursorBinding) :
      ∀ part ∈ [b.queryIdentity, b.filtersIdentity, b.sortIdentity], part.length < 256 ^ 4 := by
    have hlt : maxCursorIdentityBytes < 256 ^ 4 := by decide
    simp only [List.forall_mem_cons, List.not_mem_nil, IsEmpty.forall_iff, implies_true, and_true]
    exact ⟨b.query_bounded.trans_lt hlt, b.filters_bounded.trans_lt hlt, b.sort_bounded.trans_lt hlt⟩
  have hframes := List.append_cancel_left h
  have hall (b : CursorBinding) : [b.queryIdentity, b.filtersIdentity, b.sortIdentity].flatMap
      (widthFrame 4) ++ [] = framedBytes [b.queryIdentity, b.filtersIdentity, b.sortIdentity] :=
    List.append_nil _
  have hparts := (SelfDelimiting.flatMap_append_inj (.widthFrame 4) (hfits binding)
    (hfits binding') rfl ((hall binding).trans (hframes.trans (hall binding').symm))).1
  simp only [List.cons.injEq, and_true] at hparts
  exact hparts

end CursorBinding

/-! ### What the decoder accepts -/

theorem base64urlDecode_ok {value : Text} {bytes : Bytes} :
    base64urlDecode value = .ok bytes ↔ base64UrlEncode bytes = value ∧ bytes ≠ [] := by
  simp only [base64urlDecode, Fallible.bind_ok, Fallible.check_ok, Fallible.get_ok,
    Fallible.pure_ok, exists_and_left, exists_const]
  constructor
  · rintro ⟨⟨hne, -, -⟩, decoded, -, hvalue, rfl⟩
    refine ⟨hvalue, ?_⟩
    rintro rfl
    exact hne hvalue.symm
  · rintro ⟨rfl, hne⟩
    have hlength := length_base64UrlEncode bytes
    have hpos := List.length_pos_iff.mpr hne
    refine ⟨⟨?_, ?_, by omega⟩, bytes, b64decode_encode bytes, rfl, rfl⟩
    · intro h
      rw [h, List.length_nil] at hlength
      omega
    · exact List.all_eq_true.mpr fun c hc => isUrlDigit_of_mem hc

theorem requireInternalKey_ok {value : Codepoints} {w : PUnit} :
    requireInternalKey value = .ok w ↔
      ∃ key : Text, value = key.codepoints ∧ key ≠ [] ∧ key.length ≤ maxInternalKeyCharacters := by
  simp only [requireInternalKey, Fallible.bind_ok, Fallible.check_ok, exists_and_left, exists_const,
    Option.isSome_iff_exists, JsonValue.text?_eq_some]
  constructor
  · rintro ⟨⟨hne, hlength⟩, key, rfl⟩
    rw [Text.codepoints, List.length_map] at hlength
    exact ⟨key, rfl, fun h => hne (by rw [h]; rfl), hlength⟩
  · rintro ⟨key, rfl, hne, hlength⟩
    refine ⟨⟨fun h => hne (List.map_eq_nil_iff.mp h), ?_⟩, key, rfl⟩
    rwa [Text.codepoints, List.length_map]

/-- The payload of a digest, a key and a version. -/
def payloadScalars (digest key : Text) (version : JsonValue.Scalar) :
    List (Text × JsonValue.Scalar) :=
  [("b", .text digest), ("k", .text key), ("v", version)]

/-- The two spellings of the version: as an integer and as a floating point number. -/
def IsVersion (version : JsonValue.Scalar) : Prop :=
  version = .int 1 ∨ version = .floatOne

theorem canonicalPayload_payloadScalars (digest key : Text) (version : JsonValue.Scalar) :
    canonicalPayload (JsonValue.flatFields (payloadScalars digest key version)) =
      some (utf8Encode (JsonValue.flatText (payloadScalars digest key version))) := by
  have hsorted : (payloadScalars digest key version).Pairwise
      fun a b => a.1.codepoints ≤ b.1.codepoints := by
    simp only [payloadScalars, List.pairwise_cons, List.mem_cons, List.not_mem_nil, or_false,
      forall_eq_or_imp, forall_eq, List.Pairwise.nil, and_true, IsEmpty.forall_iff, implies_true]
    decide
  rw [canonicalPayload, JsonValue.render_flatFields hsorted, Option.map_some]

/-- A field that is looked up is one of the fields. -/
theorem field?_eq_some {fields : List (Codepoints × JsonValue)} (hkeys : (Dict.keys fields).Nodup)
    {name : Text} {value : JsonValue} :
    JsonValue.field? fields name = some value ↔ (name.codepoints, value) ∈ fields := by
  rw [JsonValue.field?, Option.map_eq_some_iff]
  constructor
  · rintro ⟨⟨name', value'⟩, hfind, rfl⟩
    obtain ⟨hmem, rfl⟩ := (Dict.find?_key hkeys).mp hfind
    exact hmem
  · intro hmem
    exact ⟨_, (Dict.find?_key hkeys).mpr ⟨hmem, rfl⟩, rfl⟩

/-- The assignments of the decoder leave the names distinct. -/
theorem nodup_of_payloadFields {payload : Bytes} {fields : List (Codepoints × JsonValue)}
    (h : payloadFields payload = .ok fields) : (Dict.keys fields).Nodup := by
  simp only [payloadFields, Fallible.bind_ok, Fallible.get_ok, Fallible.check_ok, Fallible.pure_ok,
    exists_and_left, exists_const] at h
  obtain ⟨text, -, value, hloads, fields', hfields, -, -, rfl⟩ := h
  cases value with
  | obj fields'' =>
    obtain rfl := Option.some.inj hfields
    obtain ⟨pairs, hpairs⟩ := JsonValue.hook_of_loads hloads
    obtain rfl := Option.some.inj hpairs
    exact Dict.keyed_update List.nodup_nil
  | _ => cases hfields

/-- **The payload spells its three fields**, in whatever order they were read. -/
theorem canonicalPayload_of_payloadFields {payload : Bytes}
    {fields : List (Codepoints × JsonValue)} (h : payloadFields payload = .ok fields)
    {binding key version : JsonValue} (hbinding : JsonValue.field? fields "b" = some binding)
    (hkey : JsonValue.field? fields "k" = some key)
    (hversion : JsonValue.field? fields "v" = some version) :
    canonicalPayload [(Text.codepoints "b", binding), (Text.codepoints "k", key),
      (Text.codepoints "v", version)] = some payload := by
  have hkeys := nodup_of_payloadFields h
  rw [field?_eq_some hkeys] at hbinding hkey hversion
  simp only [payloadFields, Fallible.bind_ok, Fallible.get_ok, Fallible.check_ok, Fallible.pure_ok,
    exists_and_left, exists_const] at h
  obtain ⟨_, -, _, -, fields', -, hnames, hpayload, rfl⟩ := h
  obtain ⟨text, htext, rfl⟩ := Option.map_eq_some_iff.mp hpayload
  have hperm : fields'.Perm [(Text.codepoints "b", binding), (Text.codepoints "k", key),
      (Text.codepoints "v", version)] := by
    have hdistinct : (Dict.keys [(Text.codepoints "b", binding), (Text.codepoints "k", key),
        (Text.codepoints "v", version)]).Nodup := by
      simp only [Dict.keys, List.map_cons, List.map_nil]
      decide
    refine (Dict.perm_iff hkeys hdistinct).mpr fun e => ⟨fun he => ?_, fun he => ?_⟩
    · have hname : e.1 ∈ (Dict.keys fields').toFinset := List.mem_toFinset.mpr (Dict.key_mem he)
      rw [hnames, Finset.mem_insert, Finset.mem_insert, Finset.mem_singleton] at hname
      rcases hname with hname | hname | hname
      · rw [Dict.eq_of_mem hkeys he hbinding hname]
        simp
      · rw [Dict.eq_of_mem hkeys he hkey hname]
        simp
      · rw [Dict.eq_of_mem hkeys he hversion hname]
        simp
    · rcases List.mem_cons.mp he with rfl | he
      · exact hbinding
      rcases List.mem_cons.mp he with rfl | he
      · exact hkey
      obtain rfl := List.mem_singleton.mp he
      exact hversion
  rw [canonicalPayload, JsonValue.render_obj_perm hkeys hperm htext, Option.map_some]

/-- The payload of three scalars is read back. -/
theorem payloadFields_payloadScalars (digest key : Text) (version : JsonValue.Scalar) :
    payloadFields (utf8Encode (JsonValue.flatText (payloadScalars digest key version))) =
      .ok (JsonValue.flatFields (payloadScalars digest key version)) := by
  have hne : payloadScalars digest key version ≠ [] := List.cons_ne_nil _ _
  have hupdate : JsonValue.lastPairs (JsonValue.flatFields (payloadScalars digest key version)) =
      some (JsonValue.flatFields (payloadScalars digest key version)) := rfl
  simp only [payloadFields, Fallible.bind_ok, Fallible.get_ok, Fallible.check_ok, Fallible.pure_ok,
    exists_and_left, exists_const]
  refine ⟨_, utf8Decode_utf8Encode _, .obj (JsonValue.flatFields (payloadScalars digest key version)),
    ?_, _, rfl, ?_, canonicalPayload_payloadScalars digest key version, rfl⟩
  · rw [JsonValue.loads_flatText hne, hupdate, Option.map_some]
  · rfl

/-- The payload tells the digest of its binding. -/
theorem payloadScalars_inj {digest digest' key key' : Text} {version version' : JsonValue.Scalar}
    (h : JsonValue.flatText (payloadScalars digest key version) =
      JsonValue.flatText (payloadScalars digest' key' version')) : digest = digest' := by
  have hfields := JsonValue.flatText_inj (List.cons_ne_nil _ _) (List.cons_ne_nil _ _) h
  have hfirst := (List.cons.inj hfields).1
  exact JsonValue.codepoints_injective (JsonValue.str.inj (Prod.mk.inj hfirst).2)

/-- The points of a cursor are the two between its parts. -/
theorem splitOn_authenticated (payload : Bytes) (rest : Text) :
    (authenticated payload ++ '.' :: rest).splitOn '.' =
      cursorPrefix :: base64UrlEncode payload :: rest.splitOn '.' := by
  rw [authenticated, List.append_assoc, List.cons_append,
    List.splitOn_append_cons_self_of_not_mem (by decide),
    List.splitOn_append_cons_self_of_not_mem (point_notMem_base64UrlEncode payload)]

theorem authenticated_inj {payload payload' : Bytes} {rest rest' : Text}
    (h : authenticated payload ++ '.' :: rest = authenticated payload' ++ '.' :: rest') :
    payload = payload' := by
  have hsplit := congrArg (List.splitOn '.') h
  rw [splitOn_authenticated, splitOn_authenticated] at hsplit
  exact base64UrlEncode_injective (List.cons.inj (List.cons.inj hsplit).2).1

section Accepted

variable [Platform]

namespace CursorCodec

/-- The cursor of a payload. -/
def cursorOf (codec : CursorCodec) (payload : Bytes) : Text :=
  authenticated payload ++ '.' :: base64UrlEncode (codec.authenticationTag (authenticated payload))

/-- The payload of a binding, a key and a version. -/
def payloadOf (codec : CursorCodec) (binding : CursorBinding) (key : Text)
    (version : JsonValue.Scalar) : Bytes :=
  utf8Encode (JsonValue.flatText
    (payloadScalars (base64UrlEncode (codec.bindingDigest binding)) key version))

variable {codec : CursorCodec} {binding : CursorBinding} {cursor : Text}

/-- **The texts with a valid tag.** -/
theorem verifiedPayload_ok (h32 : ∀ key message, (hmacSha256 key message).length = 32)
    {payload : Bytes} :
    codec.verifiedPayload cursor = .ok payload ↔
      cursor = codec.cursorOf payload ∧ payload ≠ [] ∧ cursor.length ≤ maxCursorLength := by
  simp only [verifiedPayload, Fallible.bind_ok, Fallible.check_ok, exists_and_left, exists_const]
  constructor
  · rintro ⟨⟨-, hlength⟩, h⟩
    split at h
    · next pre encodedPayload encodedTag hsplit =>
      simp only [Fallible.bind_ok, Fallible.check_ok, Fallible.pure_ok, exists_and_left,
        exists_const, base64urlDecode_ok] at h
      obtain ⟨rfl, payload', ⟨rfl, hne⟩, tag, ⟨rfl, -⟩, -, rfl, rfl⟩ := h
      have hcursor := @List.intercalate_splitOn _ cursor _ _ '.'
      rw [hsplit] at hcursor
      refine ⟨?_, hne, hlength⟩
      rw [← hcursor]
      simp [List.intercalate, cursorOf, authenticated]
    · cases h
  · rintro ⟨rfl, hne, hlength⟩
    have hsplit : (codec.cursorOf payload).splitOn '.' = [cursorPrefix, base64UrlEncode payload,
        base64UrlEncode (codec.authenticationTag (authenticated payload))] := by
      rw [cursorOf, splitOn_authenticated,
        List.splitOn_eq_singleton (point_notMem_base64UrlEncode _)]
    have htag : codec.authenticationTag (authenticated payload) ≠ [] := by
      intro h
      have hlength := h32 codec.secret (authenticationDomain ++ utf8Encode (authenticated payload))
      rw [← authenticationTag, h] at hlength
      cases hlength
    refine ⟨⟨List.cons_ne_nil _ _, hlength⟩, ?_⟩
    rw [hsplit]
    simp only [Fallible.bind_ok, Fallible.check_ok, Fallible.pure_ok, exists_and_left, exists_const,
      base64urlDecode_ok]
    exact ⟨trivial, payload, ⟨rfl, hne⟩, _, ⟨rfl, htag⟩, h32 _ _, rfl, rfl⟩

theorem length_cursorOf (h32 : ∀ key message, (hmacSha256 key message).length = 32)
    (payload : Bytes) :
    (codec.cursorOf payload).length = (4 * payload.length + 2) / 3 + 49 := by
  rw [cursorOf, authenticated, List.length_append, List.length_append, List.length_cons,
    List.length_cons, length_base64UrlEncode, length_base64UrlEncode, authenticationTag, h32]
  have hprefixed : cursorPrefix.length = 4 := rfl
  omega

/-- **The issued texts.** -/
theorem encode_ok {key : Codepoints} :
    codec.encode binding key = .ok cursor ↔
      ∃ text : Text, key = text.codepoints ∧ text ≠ [] ∧
        text.length ≤ maxInternalKeyCharacters ∧
        cursor = codec.cursorOf (codec.payloadOf binding text (.int 1)) ∧
        cursor.length ≤ maxCursorLength := by
  have hpayload (text : Text) := canonicalPayload_payloadScalars
    (base64UrlEncode (codec.bindingDigest binding)) text (.int 1)
  simp only [encode, Fallible.bind_ok, Fallible.check_ok, Fallible.get_ok, Fallible.pure_ok,
    exists_and_left, exists_const, requireInternalKey_ok]
  constructor
  · rintro ⟨⟨text, rfl, hne, hlength⟩, payload, hcanonical, hbounded, rfl⟩
    obtain rfl := Option.some.inj ((hpayload text).symm.trans hcanonical)
    exact ⟨text, rfl, hne, hlength, rfl, hbounded⟩
  · rintro ⟨text, rfl, hne, hlength, rfl, hbounded⟩
    exact ⟨⟨text, rfl, hne, hlength⟩, _, hpayload text, hbounded, rfl⟩

/-- **The accepted texts**: the version has two spellings. -/
theorem decode_ok (h32 : ∀ key message, (hmacSha256 key message).length = 32) {key : Codepoints} :
    codec.decode cursor binding = .ok key ↔
      ∃ (text : Text) (version : JsonValue.Scalar), IsVersion version ∧ key = text.codepoints ∧
        text ≠ [] ∧ text.length ≤ maxInternalKeyCharacters ∧
        cursor = codec.cursorOf (codec.payloadOf binding text version) ∧
        cursor.length ≤ maxCursorLength := by
  simp only [decode, Fallible.bind_ok, Fallible.check_ok, Fallible.get_ok, Fallible.pure_ok,
    Fallible.mapError_ok, exists_and_left, exists_const, verifiedPayload_ok h32,
    requireInternalKey_ok, base64urlDecode_ok, JsonValue.text?_eq_some]
  constructor
  · rintro ⟨payload, ⟨rfl, -, hbounded⟩, fields, hfields, value, hvalue, hversion, _, hb, key', hk,
      digest, rfl, bytes, ⟨rfl, -⟩, rfl, ⟨text, rfl, hne, hlength⟩, rfl⟩
    obtain ⟨b, hb, hbstr⟩ := Option.bind_eq_some_iff.mp hb
    obtain ⟨k, hk, hkstr⟩ := Option.bind_eq_some_iff.mp hk
    obtain rfl : b = .str (base64UrlEncode (codec.bindingDigest binding)).codepoints := by
      cases b <;> cases hbstr
      rfl
    obtain rfl : k = .str text.codepoints := by
      cases k <;> cases hkstr
      rfl
    obtain ⟨version, hisVersion, rfl⟩ : ∃ version : JsonValue.Scalar,
        IsVersion version ∧ version.value = value := by
      rcases JsonValue.equalsInt_one.mp hversion with rfl | rfl
      · exact ⟨.int 1, .inl rfl, rfl⟩
      · exact ⟨.floatOne, .inr rfl, rfl⟩
    have hpayload := canonicalPayload_of_payloadFields hfields hb hk hvalue
    obtain rfl := Option.some.inj ((canonicalPayload_payloadScalars _ _ version).symm.trans hpayload)
    exact ⟨text, version, hisVersion, rfl, hne, hlength, rfl, hbounded⟩
  · rintro ⟨text, version, hversion, rfl, hne, hlength, rfl, hbounded⟩
    have hpayload : codec.payloadOf binding text version ≠ [] := by
      intro h
      have hempty := congrArg utf8Decode h
      rw [payloadOf, utf8Decode_utf8Encode] at hempty
      cases hempty
    have hdigest : codec.bindingDigest binding ≠ [] := by
      intro h
      have hlength := h32 codec.secret binding.material
      rw [← bindingDigest, h] at hlength
      cases hlength
    refine ⟨_, ⟨rfl, hpayload, hbounded⟩, _, payloadFields_payloadScalars _ _ _, version.value, rfl,
      ?_, _, rfl, _, rfl, _, rfl, _, ⟨rfl, hdigest⟩, rfl, ⟨text, rfl, hne, hlength⟩, rfl⟩
    rcases hversion with rfl | rfl
    · rfl
    · exact JsonValue.equalsInt_one.mpr (.inr rfl)

end CursorCodec

namespace CursorBinding

/-- **The framed request tells the binding.** -/
theorem material_injective {binding binding' : CursorBinding}
    (hsha : Set.InjOn sha256 {binding.requestMaterial, binding'.requestMaterial})
    (h : binding.material = binding'.material) : binding = binding' := by
  let scope (b : CursorBinding) : List Bytes := [
    utf8Encode b.callerId, utf8Encode (Nat.toDigits 10 b.policyVersion), b.sectionIdentity,
    utf8Encode b.routeIdentity, utf8Encode (Nat.toDigits 10 b.limit)]
  have hfits (b : CursorBinding) : ∀ part ∈ scope b, part.length < 256 ^ 4 := by
    have hpolicy : b.policyVersion < 10 ^ 19 := by
      have hrange := b.policy_range
      omega
    have hlimit : b.limit < 10 ^ 19 := by
      have hrange := b.limit_range
      rw [maxPageLimit] at hrange
      omega
    simp only [scope, List.forall_mem_cons, List.not_mem_nil, IsEmpty.forall_iff, implies_true,
      and_true]
    exact ⟨b.caller_bounded.2.trans_lt (by decide),
      (length_utf8_toDigits_le (by decide) hpolicy).trans_lt (by decide),
      b.length_sectionIdentity_le.trans_lt (by decide), b.length_route_le.trans_lt (by decide),
      (length_utf8_toDigits_le (by decide) hlimit).trans_lt (by decide)⟩
  have hmaterial (b : CursorBinding) : b.material =
      bindingDomain ++ ((scope b).flatMap (widthFrame 4) ++ widthFrame 4 (sha256 b.requestMaterial)) := by
    simp [material, scope, framedBytes, framedDigest, requestMaterial]
  rw [hmaterial, hmaterial] at h
  obtain ⟨hscope, hdigest⟩ := SelfDelimiting.flatMap_append_inj (.widthFrame 4)
    (hfits binding) (hfits binding') rfl (List.append_cancel_left h)
  -- the last frame has nothing behind it, so its length need not fit
  have hdigest := (append_inj_of_length hdigest (by rw [length_bigEndian, length_bigEndian])).2
  obtain ⟨hquery, hfilters, hsort⟩ := requestMaterial_inj (hsha (.inl rfl) (.inr rfl) hdigest)
  simp only [scope, List.cons.injEq, and_true] at hscope
  obtain ⟨hcaller, hpolicy, hsection, hroute, hlimit⟩ := hscope
  exact CursorBinding.ext (utf8Encode_injective hcaller) (utf8_toDigits_inj hpolicy)
    (sectionIdentity_inj hsection) (utf8Encode_injective hroute) (utf8_toDigits_inj hlimit)
    hquery hfilters hsort

end CursorBinding

/-! ### Round trip and canonicity -/

namespace CursorCodec

/-- A rejection says nothing about its reason. -/
theorem decode_raisesOnly (codec : CursorCodec) (cursor : Text) (binding : CursorBinding) :
    Fallible.RaisesOnly .invalidCursor (codec.decode cursor binding) := by
  have hdecode (value : Text) : Fallible.RaisesOnly .invalidCursor (base64urlDecode value) :=
    .bind (.check _) fun _ => .bind (.get _) fun _ => .bind (.check _) fun _ => .ok _
  have hverified : Fallible.RaisesOnly .invalidCursor (codec.verifiedPayload cursor) := by
    refine .bind (.check _) fun _ => ?_
    split
    · exact .bind (.check _) fun _ => .bind (hdecode _) fun _ => .bind (hdecode _) fun _ =>
        .bind (.check _) fun _ => .bind (.check _) fun _ => .ok _
    · exact fun _ h => (Except.error.inj h).symm
  have hfields (payload : Bytes) : Fallible.RaisesOnly .invalidCursor (payloadFields payload) :=
    .bind (.get _) fun _ => .bind (.get _) fun _ => .bind (.get _) fun _ =>
      .bind (.check _) fun _ => .bind (.check _) fun _ => .ok _
  have hkey (value : Codepoints) : Fallible.RaisesOnly .invalidCursor
      ((requireInternalKey value).mapError fun _ => CursorError.invalidCursor) := by
    intro e h
    cases hvalue : requireInternalKey value with
    | ok _ =>
      rw [hvalue] at h
      cases h
    | error _ =>
      rw [hvalue] at h
      exact (Except.error.inj h).symm
  exact .bind hverified fun _ => .bind (hfields _) fun _ => .bind (.get _) fun _ =>
    .bind (.check _) fun _ => .bind (.get _) fun _ => .bind (.get _) fun _ =>
    .bind (.get _) fun _ => .bind (hdecode _) fun _ => .bind (.check _) fun _ =>
    .bind (hkey _) fun _ => .ok _

/-- **A cursor is read back under its binding, and refused under every other.** -/
theorem decode_issued (h32 : ∀ key message, (hmacSha256 key message).length = 32)
    {codec : CursorCodec} {binding : CursorBinding} {key : Codepoints} {cursor : Text}
    (h : codec.encode binding key = .ok cursor) :
    codec.decode cursor binding = .ok key ∧
      ∀ binding' : CursorBinding, binding' ≠ binding →
        Set.InjOn sha256 {binding.requestMaterial, binding'.requestMaterial} →
        Set.InjOn (hmacSha256 codec.secret) {binding.material, binding'.material} →
        codec.decode cursor binding' = .error .invalidCursor := by
  obtain ⟨text, hkey, hne, hlength, hcursor, hbounded⟩ := encode_ok.mp h
  refine ⟨(decode_ok h32).mpr ⟨text, .int 1, .inl rfl, hkey, hne, hlength, hcursor, hbounded⟩, ?_⟩
  intro binding' hbinding hsha hhmac
  cases hdecode : codec.decode cursor binding' with
  | error e => rw [codec.decode_raisesOnly cursor binding' e hdecode]
  | ok key' =>
    obtain ⟨text', version, -, -, -, -, hcursor', -⟩ := (decode_ok h32).mp hdecode
    have hpayload := utf8Encode_injective (authenticated_inj (hcursor.symm.trans hcursor'))
    have hdigest := base64UrlEncode_injective (payloadScalars_inj hpayload)
    have hmaterial := hhmac (.inl rfl) (.inr rfl) hdigest
    exact absurd (CursorBinding.material_injective hsha hmaterial).symm hbinding

end CursorCodec

/-- The payload of a cursor spells its version in one digit. -/
def SpellsVersion (cursor : Text) : Prop :=
  ∃ front tag : Text,
    cursor = authenticated (utf8Encode (front ++ ['"', 'v', '"', ':', '1', '\x7d'])) ++ '.' :: tag

omit [Platform] in
/-- The payload ends with its version. -/
theorem flatText_payloadScalars (digest key : Text) (version : JsonValue.Scalar) :
    ∃ front : Text, JsonValue.flatText (payloadScalars digest key version) =
      front ++ ['"', 'v', '"', ':'] ++ version.rendered ++ ['\x7d'] := by
  refine ⟨'\x7b' :: JsonValue.fieldText ("b", .text digest) ++
    ',' :: JsonValue.fieldText ("k", .text key) ++ [','], ?_⟩
  have hname : JsonValue.quote (Text.codepoints ['v']) = ['"', 'v', '"'] := by decide
  simp [JsonValue.flatText, payloadScalars, JsonValue.joinComma, JsonValue.fieldText, hname]

/-- **An accepted text is the issued one exactly when it spells the version in one digit.** -/
theorem CursorCodec.encode_iff_spellsVersion
    (h32 : ∀ key message, (hmacSha256 key message).length = 32)
    {codec : CursorCodec} {binding : CursorBinding} {key : Codepoints} {cursor : Text}
    (h : codec.decode cursor binding = .ok key) :
    codec.encode binding key = .ok cursor ↔ SpellsVersion cursor := by
  constructor
  · intro h
    obtain ⟨text, -, -, -, rfl, -⟩ := encode_ok.mp h
    obtain ⟨front, hfront⟩ := flatText_payloadScalars
      (base64UrlEncode (codec.bindingDigest binding)) text (.int 1)
    refine ⟨front, base64UrlEncode (codec.authenticationTag
      (authenticated (codec.payloadOf binding text (.int 1)))), ?_⟩
    have hone : (JsonValue.Scalar.int 1).rendered = ['1'] := by decide
    rw [cursorOf, payloadOf, hfront, hone, List.append_assoc, List.append_assoc]
    rfl
  · rintro ⟨front, tag, hcursor⟩
    obtain ⟨text, version, hversion, hkey, hne, hlength, hissued, hbounded⟩ := (decode_ok h32).mp h
    obtain ⟨front', hfront⟩ := flatText_payloadScalars
      (base64UrlEncode (codec.bindingDigest binding)) text version
    have hpayload := authenticated_inj (hissued.symm.trans hcursor)
    rw [payloadOf, hfront] at hpayload
    have htext := congrArg List.reverse (utf8Encode_injective hpayload)
    rcases hversion with rfl | rfl
    · exact encode_ok.mpr ⟨text, hkey, hne, hlength, hissued, hbounded⟩
    · -- a floating point number ends with another digit
      simp [JsonValue.Scalar.floatOne] at htext

end Accepted

section Sample

attribute [local instance] hmacPlatform

def sampleCodec : CursorCodec := ⟨List.replicate 32 7, by decide⟩

/-- The request for the first page of the Sections. -/
def sampleBinding : CursorBinding where
  callerId := "reader"
  policyVersion := 1
  sectionId := none
  routeIdentity := "retrieval.sections"
  limit := 50
  queryIdentity := []
  filtersIdentity := []
  sortIdentity := []
  caller_bounded := by decide +kernel
  section_bounded := fun _ h => nomatch h
  route_canonical := by decide +kernel
  route_bounded := by decide
  policy_range := by decide
  limit_range := by decide
  query_bounded := by decide
  filters_bounded := by decide
  sort_bounded := by decide

/-- The same request with another page size. -/
def sampleOtherBinding : CursorBinding :=
  { sampleBinding with limit := 51, limit_range := by decide }

def sampleCursor (version : JsonValue.Scalar) : Text :=
  sampleCodec.cursorOf (sampleCodec.payloadOf sampleBinding "notes" version)

theorem length_sampleCursor :
    (sampleCursor (.int 1)).length ≤ maxCursorLength ∧
      (sampleCursor .floatOne).length ≤ maxCursorLength := by
  rw [sampleCursor, sampleCursor, CursorCodec.length_cursorOf fun _ _ => Sha256.length_hmac _ _,
    CursorCodec.length_cursorOf fun _ _ => Sha256.length_hmac _ _]
  decide +kernel

theorem decode_issued_sample :
    sampleCodec.decode (sampleCursor (.int 1)) sampleBinding = .ok (Text.codepoints "notes") ∧
      sampleCodec.decode (sampleCursor (.int 1)) sampleOtherBinding = .error .invalidCursor := by
  have hissued : sampleCodec.encode sampleBinding (Text.codepoints "notes") =
      .ok (sampleCursor (.int 1)) :=
    CursorCodec.encode_ok.mpr ⟨"notes", rfl, by decide, by decide, rfl, length_sampleCursor.1⟩
  have hdistinct : hmacSha256 sampleCodec.secret sampleBinding.material ≠
      hmacSha256 sampleCodec.secret sampleOtherBinding.material := by decide +kernel
  obtain ⟨hread, hrefused⟩ := CursorCodec.decode_issued Sha256.length_hmac hissued
  refine ⟨hread, hrefused sampleOtherBinding ?_ ?_ (Set.injOn_pair.mpr fun h => absurd h hdistinct)⟩
  · exact fun h => absurd (congrArg CursorBinding.limit h) (by decide)
  · show Set.InjOn _ {sampleBinding.requestMaterial, sampleBinding.requestMaterial}
    rw [Set.pair_eq_singleton]
    exact Set.injOn_singleton _ _

/-- The version may be a floating point number. -/
theorem decode_floatOne_sample :
    sampleCodec.decode (sampleCursor .floatOne) sampleBinding = .ok (Text.codepoints "notes") :=
  (CursorCodec.decode_ok Sha256.length_hmac).mpr
    ⟨"notes", .floatOne, .inr rfl, rfl, by decide, by decide, rfl, length_sampleCursor.2⟩

/-- **Two texts are accepted for one key**: the second one is not issued. -/
theorem decode_ne_encode :
    ∃ cursor key, sampleCodec.decode cursor sampleBinding = .ok key ∧
      sampleCodec.encode sampleBinding key ≠ .ok cursor := by
  refine ⟨sampleCursor .floatOne, Text.codepoints "notes", decode_floatOne_sample, fun h => ?_⟩
  obtain ⟨text, -, -, -, hcursor, -⟩ := CursorCodec.encode_ok.mp h
  have hpayload := utf8Encode_injective (authenticated_inj hcursor)
  have hfields := JsonValue.flatText_inj (List.cons_ne_nil _ _) (List.cons_ne_nil _ _) hpayload
  -- the values of the version differ
  have hversion := congrArg (fun fields => fields.getLast?.map Prod.snd) hfields
  exact JsonValue.noConfusion (Option.some.inj hversion)

theorem encode_iff_spellsVersion_sample :
    (sampleCodec.encode sampleBinding (Text.codepoints "notes") = .ok (sampleCursor .floatOne) ↔
      SpellsVersion (sampleCursor .floatOne)) :=
  CursorCodec.encode_iff_spellsVersion Sha256.length_hmac decode_floatOne_sample

end Sample

end PatchouliLib
