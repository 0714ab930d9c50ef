import PatchouliLib.Foundation.Base64
import PatchouliLib.Foundation.JsonDecoding
import PatchouliLib.Platform

/-!
# Administrator sessions

A session string carries its fields as a JSON object behind which an
authentication code stands.  There are two kinds under one secret: the password
session and the master session, which names an identity and a generation.  What
keeps them apart is the set of their fields.

## Main definitions

* `AdminSessionCodec.issue`, `AdminSessionCodec.issueMaster` — a new session string.
* `AdminSessionCodec.verify`, `AdminSessionCodec.verifyMaster` — the verifiers.
* `FitsSession` — the bound on the size of a string that is read.

## Main results

* `AdminSessionCodec.decodeVerifiedPayload_sign` — a signed payload is read back.
* `AdminSessionCodec.sessions_exact` — **an issued string that is short enough is accepted as
  what it is exactly until it expires**, and never as the other kind.
-/

namespace PatchouliLib.Session

open Foundation

def sessionVersion : ℤ := 1
def masterSessionVersion : ℤ := 2
def maxEncodedSessionBytes : ℕ := 512

structure AdminSession where
  expiresAt : ℤ
  csrfToken : Text
deriving DecidableEq

structure MasterAdminSession extends AdminSession where
  identityId : Text
  sessionGeneration : ℤ
deriving DecidableEq

/-- A codec holds a secret and the time a session lasts. -/
structure AdminSessionCodec where
  signingSecret : Bytes
  ttlSeconds : ℤ
  secret_long : 32 ≤ signingSecret.length
  ttl_range : 300 ≤ ttlSeconds ∧ ttlSeconds ≤ 86400

/-- `int(clock())`: the fraction of a time is cut off. -/
def integerSecond (time : ℚ) : ℤ := if 0 ≤ time then ⌊time⌋ else ⌈time⌉

namespace AdminSessionCodec

/-! ### The codec -/

def validIdentityId (value : Text) : Bool :=
  value.length = 32 && value.all fun c => ('0' ≤ c && c ≤ '9') || ('a' ≤ c && c ≤ 'f')

def validGeneration (value : ℤ) : Bool := 1 ≤ value && value ≤ 2 ^ 63 - 1

def validCsrf (value : Text) : Bool :=
  value.all (·.toNat < 128) && 32 ≤ value.length && value.length ≤ 128

/-- `json.dumps(fields, separators=(",", ":"), sort_keys=True).encode("utf-8")`. -/
def dumps (fields : List (Codepoints × JsonValue)) : Option Bytes :=
  (JsonValue.render (.obj fields)).map utf8Encode

section Sign

variable [Platform]

def sign (codec : AdminSessionCodec) (payload : Bytes) : Text :=
  let encodedPayload := base64UrlEncode payload
  let signature := hmacSha256 codec.signingSecret (utf8Encode encodedPayload)
  encodedPayload ++ '.' :: base64UrlEncode signature

/-- Issue a password session. -/
def issue (codec : AdminSessionCodec) (clock : ℚ) (csrfToken : Text) :
    Option (Text × AdminSession) := do
  let session : AdminSession := ⟨integerSecond clock + codec.ttlSeconds, csrfToken⟩
  let payload ← dumps [
    (Text.codepoints "csrf", .str session.csrfToken.codepoints),
    (Text.codepoints "exp", .int session.expiresAt),
    (Text.codepoints "v", .int sessionVersion)]
  some (codec.sign payload, session)

/-- Issue a v2 cookie after the caller has authenticated a master token. -/
def issueMaster (codec : AdminSessionCodec) (clock : ℚ) (csrfToken identityId : Text)
    (sessionGeneration : ℤ) : Option (Text × MasterAdminSession) := do
  guard (validIdentityId identityId = true ∧ validGeneration sessionGeneration = true)
  guard (validCsrf csrfToken = true)
  let session : MasterAdminSession :=
    ⟨⟨integerSecond clock + codec.ttlSeconds, csrfToken⟩, identityId, sessionGeneration⟩
  let payload ← dumps [
    (Text.codepoints "csrf", .str session.csrfToken.codepoints),
    (Text.codepoints "exp", .int session.expiresAt),
    (Text.codepoints "gen", .int session.sessionGeneration),
    (Text.codepoints "identity_id", .str session.identityId.codepoints),
    (Text.codepoints "mode", .str (Text.codepoints "master")),
    (Text.codepoints "v", .int masterSessionVersion)]
  some (codec.sign payload, session)

end Sign

/-- `_decode` of unpadded digits. -/
def decode (value : Text) : Option Bytes := do
  guard (value ≠ [] ∧ value.all isUrlDigit = true)
  let decoded ← b64decode value
  guard (base64UrlEncode decoded = value)
  some decoded

/-- `value.split(".", 1)` into two. -/
def splitPoint (value : Text) : Option (Text × Text) :=
  match value.dropWhile (· ≠ '.') with
  | [] => none
  | _ :: rest => some (value.takeWhile (· ≠ '.'), rest)

/-- The bytes are taken for UTF-8 without a mark. -/
def detectsUtf8 (payload : Bytes) : Bool :=
  !([0x00, 0x00, 0xfe, 0xff] : Bytes).isPrefixOf payload &&
  !([0xff, 0xfe] : Bytes).isPrefixOf payload &&
  !([0xfe, 0xff] : Bytes).isPrefixOf payload &&
  !([0xef, 0xbb, 0xbf] : Bytes).isPrefixOf payload &&
  match payload with
  | [a, b] => a ≠ 0 && b ≠ 0
  | a :: b :: _ :: _ :: _ => a ≠ 0 && b ≠ 0
  | _ => true

/-- `json.loads(payload, object_pairs_hook=_unique_object)` of bytes.  What becomes of the other
encodings is left open. -/
def loadsBytes (other : Bytes → Option JsonValue) (payload : Bytes) : Option JsonValue :=
  if detectsUtf8 payload = true then
    match utf8Decode payload with
    | some text => JsonValue.loads JsonValue.uniquePairs text
    | none => other payload
  else other payload

/-- The number of a field. -/
def intField (fields : List (Codepoints × JsonValue)) (name : Text) : Option ℤ :=
  (JsonValue.field? fields name).bind JsonValue.int?

/-- The text of a field. -/
def textField (fields : List (Codepoints × JsonValue)) (name : Text) : Option Text :=
  ((JsonValue.field? fields name).bind JsonValue.str?).bind Codepoints.text?

section Verify

variable [Platform] (other : Bytes → Option JsonValue)

def decodeVerifiedPayload (codec : AdminSessionCodec) (encodedSession : Text) :
    Option JsonValue := do
  guard (encodedSession ≠ [] ∧ (utf8Encode encodedSession).length ≤ maxEncodedSessionBytes)
  let (encodedPayload, encodedSignature) ← splitPoint encodedSession
  let payload ← decode encodedPayload
  let signature ← decode encodedSignature
  let expected := hmacSha256 codec.signingSecret (utf8Encode encodedPayload)
  guard (signature = expected)
  loadsBytes other payload

/-- Verify only legacy v1 password cookies; v2 is never admitted here. -/
def verify (codec : AdminSessionCodec) (encodedSession : Text) (clock : ℚ) :
    Option AdminSession := do
  let decoded ← codec.decodeVerifiedPayload other encodedSession
  let fields ← decoded.fields?
  guard ((Dict.keys fields).toFinset =
    {Text.codepoints "csrf", Text.codepoints "exp", Text.codepoints "v"})
  guard (intField fields "v" = some sessionVersion)
  let expiresAt ← intField fields "exp"
  guard (integerSecond clock < expiresAt)
  let csrfToken ← textField fields "csrf"
  guard (validCsrf csrfToken = true)
  some ⟨expiresAt, csrfToken⟩

/-- Verify a v2 cookie, but do not admit it as an authenticated session. -/
def verifyMaster (codec : AdminSessionCodec) (encodedSession : Text) (clock : ℚ) :
    Option MasterAdminSession := do
  let decoded ← codec.decodeVerifiedPayload other encodedSession
  let fields ← decoded.fields?
  guard ((Dict.keys fields).toFinset =
    {Text.codepoints "csrf", Text.codepoints "exp", Text.codepoints "gen",
      Text.codepoints "identity_id", Text.codepoints "mode", Text.codepoints "v"})
  guard (intField fields "v" = some masterSessionVersion)
  guard (textField fields "mode" = some "master")
  let expiresAt ← intField fields "exp"
  guard (integerSecond clock < expiresAt)
  let csrfToken ← textField fields "csrf"
  guard (validCsrf csrfToken = true)
  let identityId ← textField fields "identity_id"
  guard (validIdentityId identityId = true)
  let generation ← intField fields "gen"
  guard (validGeneration generation = true)
  some ⟨⟨expiresAt, csrfToken⟩, identityId, generation⟩

end Verify

/-! ### Signed payloads -/

/-- The strings that are read at all. -/
def FitsSession (value : Text) : Prop := (utf8Encode value).length ≤ maxEncodedSessionBytes

instance (value : Text) : Decidable (FitsSession value) := by
  unfold FitsSession
  infer_instance

theorem decode_eq_some {value : Text} {bytes : Bytes} :
    decode value = some bytes ↔ base64UrlEncode bytes = value ∧ bytes ≠ [] := by
  simp only [decode, Option.bind_eq_bind, Option.bind_eq_some_iff, Option.guard_eq_some',
    Option.some.injEq]
  constructor
  · rintro ⟨_, ⟨hne, -⟩, decoded, -, _, hvalue, rfl⟩
    refine ⟨hvalue, ?_⟩
    rintro rfl
    exact hne hvalue.symm
  · rintro ⟨rfl, hne⟩
    refine ⟨⟨⟩, ⟨fun h => hne (base64UrlEncode_injective h), ?_⟩, bytes, b64decode_encode bytes,
      ⟨⟩, rfl, rfl⟩
    exact List.all_eq_true.mpr fun c hc => isUrlDigit_of_mem hc

theorem splitPoint_encode (bytes : Bytes) (rest : Text) :
    splitPoint (base64UrlEncode bytes ++ '.' :: rest) = some (base64UrlEncode bytes, rest) := by
  have hpoint : ∀ c ∈ base64UrlEncode bytes, decide (c ≠ '.') = true := fun c hc =>
    decide_eq_true fun h => point_notMem_base64UrlEncode bytes (h ▸ hc)
  rw [splitPoint, List.dropWhile_append_of_pos hpoint, List.takeWhile_append_of_pos hpoint]
  simp

section Signed

variable [Platform] {other : Bytes → Option JsonValue} {codec codec' : AdminSessionCodec}
  {payload : Bytes} {value : JsonValue}

/-- Whoever reads a signed payload reads its object. -/
theorem loadsBytes_of_sign
    (h : codec'.decodeVerifiedPayload other (codec.sign payload) = some value) :
    FitsSession (codec.sign payload) ∧ loadsBytes other payload = some value := by
  simp only [decodeVerifiedPayload, Option.bind_eq_bind, Option.bind_eq_some_iff,
    Option.guard_eq_some', decode_eq_some] at h
  obtain ⟨_, ⟨-, hfits⟩, parts, hparts, payload', ⟨hpayload, -⟩, _, -, _, -, h⟩ := h
  rw [sign, splitPoint_encode] at hparts
  obtain rfl := Option.some.inj hparts
  obtain rfl := base64UrlEncode_injective hpayload
  exact ⟨hfits, h⟩

/-- **A signed payload is read back** when it is short enough. -/
theorem decodeVerifiedPayload_sign (h32 : ∀ key message, (hmacSha256 key message).length = 32)
    (hne : payload ≠ []) :
    codec.decodeVerifiedPayload other (codec.sign payload) = some value ↔
      FitsSession (codec.sign payload) ∧ loadsBytes other payload = some value := by
  refine ⟨loadsBytes_of_sign, fun ⟨hfits, h⟩ => ?_⟩
  have hsignature : hmacSha256 codec.signingSecret (utf8Encode (base64UrlEncode payload)) ≠ [] := by
    intro hempty
    have hlength := h32 codec.signingSecret (utf8Encode (base64UrlEncode payload))
    rw [hempty] at hlength
    cases hlength
  have hsign : codec.sign payload ≠ [] := by
    rw [sign]
    simp
  simp only [decodeVerifiedPayload, Option.bind_eq_bind, Option.bind_eq_some_iff,
    Option.guard_eq_some', decode_eq_some]
  refine ⟨⟨⟩, ⟨hsign, hfits⟩, (_, _), splitPoint_encode _ _, payload, ⟨rfl, hne⟩, _,
    ⟨rfl, hsignature⟩, ⟨⟩, rfl, h⟩

end Signed

/-- **The text of a flat object is read back from its bytes.** -/
theorem loadsBytes_flatText (other : Bytes → Option JsonValue)
    {fields : List (Text × JsonValue.Scalar)} (hne : fields ≠ [])
    (hkeys : (Dict.keys (JsonValue.flatFields fields)).Nodup) :
    loadsBytes other (utf8Encode (JsonValue.flatText fields)) =
      some (.obj (JsonValue.flatFields fields)) := by
  have hbytes : ∃ rest, utf8Encode (JsonValue.flatText fields) = 0x7b :: 0x22 :: rest := by
    obtain ⟨field, fields, rfl⟩ := List.exists_cons_of_ne_nil hne
    obtain ⟨t, ht⟩ : ∃ t, JsonValue.flatText (field :: fields) = '\x7b' :: '"' :: t := by
      cases fields with
      | nil => exact ⟨_, rfl⟩
      | cons other fields => exact ⟨_, rfl⟩
    refine ⟨utf8Encode t, ?_⟩
    rw [ht, utf8Encode_eq_flatMap, utf8Encode_eq_flatMap, List.flatMap_cons, List.flatMap_cons]
    rfl
  have hdetects : detectsUtf8 (utf8Encode (JsonValue.flatText fields)) = true := by
    obtain ⟨rest, hrest⟩ := hbytes
    rw [hrest]
    rcases rest with _ | ⟨_, _ | ⟨_, _⟩⟩ <;> rfl
  rw [loadsBytes, if_pos hdetects, utf8Decode_utf8Encode]
  change JsonValue.loads JsonValue.uniquePairs (JsonValue.flatText fields) = _
  rw [JsonValue.loads_flatText hne, JsonValue.uniquePairs, if_pos hkeys, Option.map_some]

/-! ### Issued sessions -/

def passwordScalars (session : AdminSession) : List (Text × JsonValue.Scalar) :=
  [("csrf", .text session.csrfToken), ("exp", .int session.expiresAt), ("v", .int sessionVersion)]

def masterScalars (session : MasterAdminSession) : List (Text × JsonValue.Scalar) :=
  [("csrf", .text session.csrfToken), ("exp", .int session.expiresAt),
    ("gen", .int session.sessionGeneration), ("identity_id", .text session.identityId),
    ("mode", .text "master"), ("v", .int masterSessionVersion)]

theorem dumps_flatFields {fields : List (Text × JsonValue.Scalar)}
    (hsorted : fields.Pairwise fun a b => a.1.codepoints ≤ b.1.codepoints) :
    dumps (JsonValue.flatFields fields) = some (utf8Encode (JsonValue.flatText fields)) := by
  rw [dumps, JsonValue.render_flatFields hsorted, Option.map_some]

theorem dumps_passwordScalars (session : AdminSession) :
    dumps (JsonValue.flatFields (passwordScalars session)) =
      some (utf8Encode (JsonValue.flatText (passwordScalars session))) := by
  have hnames : ((passwordScalars session).map fun field => field.1.codepoints).Pairwise
      (· ≤ ·) := by
    simp only [passwordScalars, List.map_cons, List.map_nil]
    decide
  exact dumps_flatFields (List.pairwise_map.mp hnames)

theorem dumps_masterScalars (session : MasterAdminSession) :
    dumps (JsonValue.flatFields (masterScalars session)) =
      some (utf8Encode (JsonValue.flatText (masterScalars session))) := by
  have hnames : ((masterScalars session).map fun field => field.1.codepoints).Pairwise
      (· ≤ ·) := by
    simp only [masterScalars, List.map_cons, List.map_nil]
    decide
  exact dumps_flatFields (List.pairwise_map.mp hnames)

theorem utf8_flatText_ne_nil (fields : List (Text × JsonValue.Scalar)) :
    utf8Encode (JsonValue.flatText fields) ≠ [] := by
  intro h
  have hempty := congrArg utf8Decode h
  rw [utf8Decode_utf8Encode] at hempty
  cases hempty

theorem loads_passwordScalars (other : Bytes → Option JsonValue) (session : AdminSession) :
    loadsBytes other (utf8Encode (JsonValue.flatText (passwordScalars session))) =
      some (.obj (JsonValue.flatFields (passwordScalars session))) := by
  refine loadsBytes_flatText other (List.cons_ne_nil _ _) ?_
  simp only [passwordScalars, JsonValue.flatFields, Dict.keys, List.map_cons, List.map_nil]
  decide

theorem loads_masterScalars (other : Bytes → Option JsonValue) (session : MasterAdminSession) :
    loadsBytes other (utf8Encode (JsonValue.flatText (masterScalars session))) =
      some (.obj (JsonValue.flatFields (masterScalars session))) := by
  refine loadsBytes_flatText other (List.cons_ne_nil _ _) ?_
  simp only [masterScalars, JsonValue.flatFields, Dict.keys, List.map_cons, List.map_nil]
  decide

/-- A character of the URL alphabet is one of its digits. -/
theorem exists_of_isUrlDigit {c : Char} (h : isUrlDigit c = true) :
    ∃ d < 64, base64Digit d = c := by
  have key : ∀ n < 128, isUrlDigit (Char.ofNat n) = true →
      ∃ d < 64, base64Digit d = Char.ofNat n := by decide +kernel
  have hc := key c.toNat (isAscii_of_isUrlDigit h)
  rw [Char.ofNat_toNat] at hc
  exact hc h

theorem isAscii_of_urlDigits {text : Text} (h : text.all isUrlDigit = true) :
    text.all (·.toNat < 128) = true :=
  List.all_eq_true.mpr fun c hc => decide_eq_true (isAscii_of_isUrlDigit (List.all_eq_true.mp h c hc))

/-- An option that is one value under a condition. -/
theorem eq_ite_of_eq_some {α : Type} {x : Option α} {a : α} {p : Prop} [Decidable p]
    (h : ∀ b, x = some b ↔ b = a ∧ p) : x = if p then some a else none := by
  split
  · next hp => exact (h a).mpr ⟨rfl, hp⟩
  · next hp => exact Option.eq_none_iff_forall_ne_some.mpr fun b hb => hp ((h b).mp hb).2

theorem validCsrf_of_urlDigits {csrfToken : Text} (hdigits : csrfToken.all isUrlDigit = true)
    (hlength : 32 ≤ csrfToken.length ∧ csrfToken.length ≤ 128) : validCsrf csrfToken = true := by
  rw [validCsrf, isAscii_of_urlDigits hdigits, decide_eq_true hlength.1, decide_eq_true hlength.2]
  rfl

section Issued

variable [Platform] {other : Bytes → Option JsonValue} {codec codec' : AdminSessionCodec}

def passwordText (codec : AdminSessionCodec) (session : AdminSession) : Text :=
  codec.sign (utf8Encode (JsonValue.flatText (passwordScalars session)))

def masterText (codec : AdminSessionCodec) (session : MasterAdminSession) : Text :=
  codec.sign (utf8Encode (JsonValue.flatText (masterScalars session)))

theorem issue_eq (clock : ℚ) (csrfToken : Text) :
    codec.issue clock csrfToken =
      some (codec.passwordText ⟨integerSecond clock + codec.ttlSeconds, csrfToken⟩,
        ⟨integerSecond clock + codec.ttlSeconds, csrfToken⟩) := by
  have hdumps := dumps_passwordScalars ⟨integerSecond clock + codec.ttlSeconds, csrfToken⟩
  simp only [issue, Option.bind_eq_bind, Option.bind_eq_some_iff]
  exact ⟨_, hdumps, rfl⟩

theorem issueMaster_eq (clock : ℚ) {csrfToken identityId : Text} {generation : ℤ}
    (hidentity : validIdentityId identityId = true) (hgeneration : validGeneration generation = true)
    (hcsrf : validCsrf csrfToken = true) :
    codec.issueMaster clock csrfToken identityId generation =
      some (codec.masterText
          ⟨⟨integerSecond clock + codec.ttlSeconds, csrfToken⟩, identityId, generation⟩,
        ⟨⟨integerSecond clock + codec.ttlSeconds, csrfToken⟩, identityId, generation⟩) := by
  have hdumps := dumps_masterScalars
    ⟨⟨integerSecond clock + codec.ttlSeconds, csrfToken⟩, identityId, generation⟩
  simp only [issueMaster, Option.bind_eq_bind, Option.bind_eq_some_iff, Option.guard_eq_some']
  exact ⟨⟨⟩, ⟨hidentity, hgeneration⟩, ⟨⟩, hcsrf, _, hdumps, rfl⟩

/-- **The strings the password verifier accepts**, among the password sessions. -/
theorem verify_passwordText (h32 : ∀ key message, (hmacSha256 key message).length = 32)
    {session found : AdminSession} (hcsrf : validCsrf session.csrfToken = true) {clock : ℚ} :
    codec.verify other (codec.passwordText session) clock = some found ↔
      found = session ∧ FitsSession (codec.passwordText session) ∧
        integerSecond clock < session.expiresAt := by
  have hexp : intField (JsonValue.flatFields (passwordScalars session)) "exp" =
      some session.expiresAt := rfl
  have htoken : textField (JsonValue.flatFields (passwordScalars session)) "csrf" =
      some session.csrfToken := JsonValue.text?_eq_some.mpr rfl
  simp only [verify, passwordText, Option.bind_eq_bind, Option.bind_eq_some_iff,
    Option.guard_eq_some', decodeVerifiedPayload_sign h32 (utf8_flatText_ne_nil _),
    loads_passwordScalars, Option.some.injEq]
  constructor
  · rintro ⟨_, ⟨hfits, rfl⟩, fields, hfields, _, -, _, -, expiresAt, hexp', _, hlt, csrf, htoken', _,
      -, rfl⟩
    obtain rfl := Option.some.inj hfields
    obtain rfl := Option.some.inj (hexp.symm.trans hexp')
    obtain rfl := Option.some.inj (htoken.symm.trans htoken')
    exact ⟨rfl, hfits, hlt⟩
  · rintro ⟨rfl, hfits, hlt⟩
    exact ⟨_, ⟨hfits, rfl⟩, _, rfl, ⟨⟩, rfl, ⟨⟩, rfl, _, hexp, ⟨⟩, hlt, _, htoken, ⟨⟩, hcsrf, rfl⟩

/-- **The strings the master verifier accepts**, among the master sessions. -/
theorem verifyMaster_masterText (h32 : ∀ key message, (hmacSha256 key message).length = 32)
    {session found : MasterAdminSession} (hcsrf : validCsrf session.csrfToken = true)
    (hidentity : validIdentityId session.identityId = true)
    (hgeneration : validGeneration session.sessionGeneration = true) {clock : ℚ} :
    codec.verifyMaster other (codec.masterText session) clock = some found ↔
      found = session ∧ FitsSession (codec.masterText session) ∧
        integerSecond clock < session.expiresAt := by
  have hexp : intField (JsonValue.flatFields (masterScalars session)) "exp" =
      some session.expiresAt := rfl
  have hgen : intField (JsonValue.flatFields (masterScalars session)) "gen" =
      some session.sessionGeneration := rfl
  have htoken : textField (JsonValue.flatFields (masterScalars session)) "csrf" =
      some session.csrfToken := JsonValue.text?_eq_some.mpr rfl
  have hid : textField (JsonValue.flatFields (masterScalars session)) "identity_id" =
      some session.identityId := JsonValue.text?_eq_some.mpr rfl
  have hmode : textField (JsonValue.flatFields (masterScalars session)) "mode" = some "master" :=
    JsonValue.text?_eq_some.mpr rfl
  simp only [verifyMaster, masterText, Option.bind_eq_bind, Option.bind_eq_some_iff,
    Option.guard_eq_some', decodeVerifiedPayload_sign h32 (utf8_flatText_ne_nil _),
    loads_masterScalars, Option.some.injEq]
  constructor
  · rintro ⟨_, ⟨hfits, rfl⟩, fields, hfields, _, -, _, -, _, -, expiresAt, hexp', _, hlt, csrf,
      htoken', _, -, identityId, hid', _, -, generation, hgen', _, -, rfl⟩
    obtain rfl := Option.some.inj hfields
    obtain rfl := Option.some.inj (hexp.symm.trans hexp')
    obtain rfl := Option.some.inj (htoken.symm.trans htoken')
    obtain rfl := Option.some.inj (hid.symm.trans hid')
    obtain rfl := Option.some.inj (hgen.symm.trans hgen')
    exact ⟨rfl, hfits, hlt⟩
  · rintro ⟨rfl, hfits, hlt⟩
    exact ⟨_, ⟨hfits, rfl⟩, _, rfl, ⟨⟩, rfl, ⟨⟩, rfl, ⟨⟩, hmode, _, hexp, ⟨⟩, hlt, _, htoken, ⟨⟩,
      hcsrf, _, hid, ⟨⟩, hidentity, _, hgen, ⟨⟩, hgeneration, rfl⟩

/-- The master verifier admits no password session. -/
theorem verifyMaster_passwordText (session : AdminSession) (clock : ℚ) :
    codec'.verifyMaster other (codec.passwordText session) clock = none := by
  rw [Option.eq_none_iff_forall_ne_some]
  intro found h
  simp only [verifyMaster, Option.bind_eq_bind, Option.bind_eq_some_iff, Option.guard_eq_some'] at h
  obtain ⟨value, hdecoded, fields, hfields, _, hkeys, -⟩ := h
  have hloads := (loadsBytes_of_sign hdecoded).2
  rw [loads_passwordScalars] at hloads
  obtain rfl := Option.some.inj hloads
  obtain rfl := Option.some.inj hfields
  simp only [passwordScalars, JsonValue.flatFields, Dict.keys, List.map_cons, List.map_nil] at hkeys
  exact absurd hkeys (by decide)

/-- The password verifier admits no master session. -/
theorem verify_masterText (session : MasterAdminSession) (clock : ℚ) :
    codec'.verify other (codec.masterText session) clock = none := by
  rw [Option.eq_none_iff_forall_ne_some]
  intro found h
  simp only [verify, Option.bind_eq_bind, Option.bind_eq_some_iff, Option.guard_eq_some'] at h
  obtain ⟨value, hdecoded, fields, hfields, _, hkeys, -⟩ := h
  have hloads := (loadsBytes_of_sign hdecoded).2
  rw [loads_masterScalars] at hloads
  obtain rfl := Option.some.inj hloads
  obtain rfl := Option.some.inj hfields
  simp only [masterScalars, JsonValue.flatFields, Dict.keys, List.map_cons, List.map_nil] at hkeys
  exact absurd hkeys (by decide)

/-! ### The size of an issued string -/

/-- A signed payload of at most 351 bytes is read. -/
theorem fitsSession_sign (h32 : ∀ key message, (hmacSha256 key message).length = 32)
    (payload : Bytes) : FitsSession (codec.sign payload) ↔ payload.length ≤ 351 := by
  have hascii : (codec.sign payload).all (·.toNat < 128) = true := by
    have hdigits (bytes : Bytes) : (base64UrlEncode bytes).all (·.toNat < 128) = true :=
      List.all_eq_true.mpr fun c hc =>
        decide_eq_true (isAscii_of_isUrlDigit (isUrlDigit_of_mem hc))
    rw [sign, List.all_append, List.all_cons, hdigits, hdigits]
    rfl
  rw [FitsSession, length_utf8Encode_of_ascii hascii, sign, List.length_append, List.length_cons,
    length_base64UrlEncode, length_base64UrlEncode, h32, maxEncodedSessionBytes]
  omega

omit [Platform] in
/-- The digits of the URL alphabet stand for themselves. -/
theorem quote_urlDigits {text : Text} (h : text.all isUrlDigit = true) :
    JsonValue.quote text.codepoints = '"' :: text ++ ['"'] := by
  have hescape : ∀ c ∈ text, Json.escape true c = [c] := by
    intro c hc
    have hdigit := List.all_eq_true.mp h c hc
    obtain ⟨d, hd, rfl⟩ : ∃ d < 64, base64Digit d = c := exists_of_isUrlDigit hdigit
    have key : ∀ d < 64, Json.escape true (base64Digit d) = [base64Digit d] := by decide
    exact key d hd
  rw [JsonValue.quote, JsonValue.flatMap_escapeCodepoint, List.flatMap_congr hescape,
    List.flatMap_singleton']

omit [Platform] in
theorem length_number_le {i : ℤ} {w : ℕ} (hw : 0 < w) (h : i.natAbs < 10 ^ w) :
    (Json.number i).length ≤ w + 1 ∧ (Json.number i).all (·.toNat < 128) = true := by
  have hlength := Nat.toDigits_length 10 i.natAbs w hw h
  have hascii : (Nat.toDigits 10 i.natAbs).all (·.toNat < 128) = true := by
    refine List.all_eq_true.mpr fun c hc => decide_eq_true ?_
    have hdigit : c.isDigit = true := Json.isDigit_of_mem_toDigits hc
    have hnine : c.toNat ≤ 57 := (Char.isDigit_iff_toNat.mp hdigit).2
    omega
  rw [Json.number]
  split
  · rw [List.length_cons, List.all_cons, hascii]
    exact ⟨by omega, rfl⟩
  · exact ⟨by omega, hascii⟩

omit [Platform] in
/-- A flat object is as long as its names and values, with four marks a field. -/
theorem flatText_bounded {fields : List (Text × JsonValue.Scalar)}
    (h : ∀ field ∈ fields, field.1.all isUrlDigit = true ∧
      field.2.rendered.all (·.toNat < 128) = true) :
    (JsonValue.flatText fields).all (·.toNat < 128) = true ∧
      (JsonValue.flatText fields).length ≤
        2 + (fields.map fun field => field.1.length + field.2.rendered.length + 4).sum := by
  have hfield : ∀ field ∈ fields, (JsonValue.fieldText field).all (·.toNat < 128) = true ∧
      (JsonValue.fieldText field).length = field.1.length + field.2.rendered.length + 3 := by
    intro field hmem
    obtain ⟨hname, hvalue⟩ := h field hmem
    have hascii : field.1.all (·.toNat < 128) = true := isAscii_of_urlDigits hname
    rw [JsonValue.fieldText, quote_urlDigits hname]
    constructor
    · simp only [List.cons_append, List.all_cons, List.all_append, hascii, hvalue]
      rfl
    · simp only [List.length_append, List.length_cons, List.length_nil]
      omega
  have hjoin : (JsonValue.joinComma (fields.map JsonValue.fieldText)).all (·.toNat < 128) = true ∧
      (JsonValue.joinComma (fields.map JsonValue.fieldText)).length ≤
        (fields.map fun field => field.1.length + field.2.rendered.length + 4).sum := by
    clear h
    induction fields with
    | nil => exact ⟨rfl, Nat.le_refl 0⟩
    | cons field fields ih =>
      obtain ⟨hascii, hlength⟩ := hfield field List.mem_cons_self
      obtain ⟨hascii', hlength'⟩ := ih fun f hf => hfield f (List.mem_cons_of_mem _ hf)
      cases fields with
      | nil =>
        rw [List.map_singleton, JsonValue.joinComma]
        refine ⟨hascii, ?_⟩
        simp only [List.map_cons, List.map_nil, List.sum_cons, List.sum_nil]
        omega
      | cons next fields =>
        rw [List.map_cons, List.map_cons, JsonValue.joinComma, ← List.map_cons, List.all_append,
          List.all_cons, hascii, hascii', List.length_append, List.length_cons]
        · refine ⟨rfl, ?_⟩
          simp only [List.map_cons, List.sum_cons] at hlength' ⊢
          omega
        · exact List.cons_ne_nil _ _
  rw [JsonValue.flatText]
  constructor
  · simp only [List.cons_append, List.all_cons, List.all_append, hjoin.1]
    rfl
  · simp only [List.cons_append, List.length_append, List.length_cons, List.length_nil]
    omega

omit [Platform] in
theorem rendered_text {text : Text} (h : text.all isUrlDigit = true) :
    (JsonValue.Scalar.text text).rendered.all (·.toNat < 128) = true ∧
      (JsonValue.Scalar.text text).rendered.length = text.length + 2 := by
  have hrendered : (JsonValue.Scalar.text text).rendered = '"' :: text ++ ['"'] :=
    quote_urlDigits h
  rw [hrendered]
  constructor
  · simp only [List.cons_append, List.all_cons, List.all_append, isAscii_of_urlDigits h]
    rfl
  · simp

omit [Platform] in
theorem rendered_int {i : ℤ} {w : ℕ} (hw : 0 < w) (h : i.natAbs < 10 ^ w) :
    (JsonValue.Scalar.int i).rendered.all (·.toNat < 128) = true ∧
      (JsonValue.Scalar.int i).rendered.length ≤ w + 1 :=
  (length_number_le hw h).symm

/-- A password session is short enough unless its time has more than a hundred digits. -/
theorem fits_passwordText (h32 : ∀ key message, (hmacSha256 key message).length = 32)
    {session : AdminSession} (hdigits : session.csrfToken.all isUrlDigit = true)
    (hlength : session.csrfToken.length ≤ 128) (hexp : session.expiresAt.natAbs < 10 ^ 100) :
    FitsSession (codec.passwordText session) := by
  obtain ⟨hcsrf, hcsrfLength⟩ := rendered_text hdigits
  obtain ⟨hexp, hexpLength⟩ := rendered_int (by decide) hexp
  obtain ⟨hv, hvLength⟩ := rendered_int (i := sessionVersion) (w := 1) (by decide) (by decide)
  have hbounded : (JsonValue.flatText (passwordScalars session)).all (·.toNat < 128) = true ∧
      (JsonValue.flatText (passwordScalars session)).length ≤ 2 + ((passwordScalars session).map
        fun field => field.1.length + field.2.rendered.length + 4).sum := by
    refine flatText_bounded ?_
    simp only [passwordScalars, List.forall_mem_cons, List.not_mem_nil, IsEmpty.forall_iff,
      implies_true, and_true]
    exact ⟨⟨by decide, hcsrf⟩, ⟨by decide, hexp⟩, ⟨by decide, hv⟩⟩
  rw [passwordText, fitsSession_sign h32, length_utf8Encode_of_ascii hbounded.1]
  refine hbounded.2.trans ?_
  simp only [passwordScalars, List.map_cons, List.map_nil, List.sum_cons, List.sum_nil,
    hcsrfLength, String.reduceToList, List.length_cons, List.length_nil]
  omega

omit [Platform] in
theorem urlDigits_of_validIdentityId {value : Text} (h : validIdentityId value = true) :
    value.all isUrlDigit = true ∧ value.length = 32 := by
  rw [validIdentityId, Bool.and_eq_true, decide_eq_true_eq] at h
  refine ⟨List.all_eq_true.mpr fun c hc => ?_, h.1⟩
  have hdigit := List.all_eq_true.mp h.2 c hc
  simp only [Bool.or_eq_true, Bool.and_eq_true, decide_eq_true_eq, Char.le_def,
    UInt32.le_iff_toNat_le] at hdigit
  have key : ∀ n < 128, (48 ≤ n ∧ n ≤ 57) ∨ (97 ≤ n ∧ n ≤ 102) →
      isUrlDigit (Char.ofNat n) = true := by decide +kernel
  have hrange : (48 ≤ c.toNat ∧ c.toNat ≤ 57) ∨ (97 ≤ c.toNat ∧ c.toNat ≤ 102) := hdigit
  have hc := key c.toNat (by omega) hrange
  rwa [Char.ofNat_toNat] at hc

/-- A master session is short enough likewise. -/
theorem fits_masterText (h32 : ∀ key message, (hmacSha256 key message).length = 32)
    {session : MasterAdminSession} (hdigits : session.csrfToken.all isUrlDigit = true)
    (hlength : session.csrfToken.length ≤ 128) (hexp : session.expiresAt.natAbs < 10 ^ 100)
    (hidentity : validIdentityId session.identityId = true)
    (hgeneration : validGeneration session.sessionGeneration = true) :
    FitsSession (codec.masterText session) := by
  obtain ⟨hidentity, hidentityLength⟩ := urlDigits_of_validIdentityId hidentity
  have hgen : session.sessionGeneration.natAbs < 10 ^ 19 := by
    simp only [validGeneration, Bool.and_eq_true, decide_eq_true_eq] at hgeneration
    omega
  obtain ⟨hcsrf, hcsrfLength⟩ := rendered_text hdigits
  obtain ⟨hid, hidLength⟩ := rendered_text hidentity
  obtain ⟨hexp, hexpLength⟩ := rendered_int (by decide) hexp
  obtain ⟨hgen, hgenLength⟩ := rendered_int (by decide) hgen
  obtain ⟨hmode, hmodeLength⟩ := @rendered_text "master" (by decide)
  obtain ⟨hv, hvLength⟩ := rendered_int (i := masterSessionVersion) (w := 1) (by decide) (by decide)
  have hbounded : (JsonValue.flatText (masterScalars session)).all (·.toNat < 128) = true ∧
      (JsonValue.flatText (masterScalars session)).length ≤ 2 + ((masterScalars session).map
        fun field => field.1.length + field.2.rendered.length + 4).sum := by
    refine flatText_bounded ?_
    simp only [masterScalars, List.forall_mem_cons, List.not_mem_nil, IsEmpty.forall_iff,
      implies_true, and_true]
    exact ⟨⟨by decide, hcsrf⟩, ⟨by decide, hexp⟩, ⟨by decide, hgen⟩, ⟨by decide, hid⟩,
      ⟨by decide, hmode⟩, ⟨by decide, hv⟩⟩
  rw [masterText, fitsSession_sign h32, length_utf8Encode_of_ascii hbounded.1]
  refine hbounded.2.trans ?_
  simp only [masterScalars, List.map_cons, List.map_nil, List.sum_cons, List.sum_nil,
    hcsrfLength, hidLength, hmodeLength]
  simp only [String.reduceToList, List.length_cons, List.length_nil]
  omega

/-- **An issued string that is short enough is accepted as what it is exactly until it expires**,
and never as the other kind. -/
theorem sessions_exact (h32 : ∀ key message, (hmacSha256 key message).length = 32)
    (other : Bytes → Option JsonValue) (codec : AdminSessionCodec) (issuedAt : ℚ)
    (csrfToken : Text) (hdigits : csrfToken.all isUrlDigit = true)
    (hlength : 32 ≤ csrfToken.length ∧ csrfToken.length ≤ 128) :
    (∃ value session, codec.issue issuedAt csrfToken = some (value, session) ∧
      session = ⟨integerSecond issuedAt + codec.ttlSeconds, csrfToken⟩ ∧
      (session.expiresAt.natAbs < 10 ^ 100 → FitsSession value) ∧
      (∀ clock, codec.verify other value clock =
        if FitsSession value ∧ integerSecond clock < session.expiresAt then some session
        else none) ∧
      ∀ clock, codec.verifyMaster other value clock = none) ∧
    ∀ identityId generation, validIdentityId identityId = true →
      validGeneration generation = true →
      ∃ value session, codec.issueMaster issuedAt csrfToken identityId generation =
          some (value, session) ∧
        session = ⟨⟨integerSecond issuedAt + codec.ttlSeconds, csrfToken⟩, identityId,
          generation⟩ ∧
        (session.expiresAt.natAbs < 10 ^ 100 → FitsSession value) ∧
        (∀ clock, codec.verifyMaster other value clock =
          if FitsSession value ∧ integerSecond clock < session.expiresAt then some session
          else none) ∧
        ∀ clock, codec.verify other value clock = none := by
  have hcsrf := validCsrf_of_urlDigits hdigits hlength
  constructor
  · refine ⟨_, _, issue_eq issuedAt csrfToken, rfl, fits_passwordText h32 hdigits hlength.2,
      fun clock => eq_ite_of_eq_some fun found => ?_, verifyMaster_passwordText _⟩
    exact verify_passwordText h32 hcsrf
  · intro identityId generation hidentity hgeneration
    refine ⟨_, _, issueMaster_eq issuedAt hidentity hgeneration hcsrf, rfl,
      fun hexp => fits_masterText h32 hdigits hlength.2 hexp hidentity hgeneration,
      fun clock => eq_ite_of_eq_some fun found => ?_, verify_masterText _⟩
    exact verifyMaster_masterText h32 hcsrf hidentity hgeneration

end Issued

section Sample

attribute [local instance] hmacPlatform

def sampleSessionCodec : AdminSessionCodec := ⟨List.replicate 32 9, 300, by decide, by decide⟩

theorem sessions_exact_sample :
    ∃ value session,
      sampleSessionCodec.issue (3 / 2) (List.replicate 32 'a') = some (value, session) ∧
      sampleSessionCodec.verify (fun _ => none) value (601 / 2) = some session ∧
      sampleSessionCodec.verify (fun _ => none) value 301 = none := by
  obtain ⟨⟨value, session, hissued, rfl, hfits, hverify, -⟩, -⟩ :=
    sessions_exact (fun _ _ => Sha256.length_hmac _ _) (fun _ => none) sampleSessionCodec (3 / 2)
      (List.replicate 32 'a') (by decide) (by decide)
  have hexp : integerSecond (3 / 2) + sampleSessionCodec.ttlSeconds = 301 := by decide +kernel
  rw [hexp] at hissued hfits hverify
  refine ⟨value, _, hissued, ?_, ?_⟩
  · rw [hverify, if_pos]
    exact ⟨hfits (by decide), by decide +kernel⟩
  · rw [hverify, if_neg]
    exact fun h => absurd h.2 (by decide +kernel)

/-- A session whose time takes 271 digits. -/
def lateSession : AdminSession := ⟨2 ^ 900 + 300, List.replicate 128 'a'⟩

theorem not_fits_lateSession : ¬FitsSession (sampleSessionCodec.passwordText lateSession) := by
  rw [passwordText, fitsSession_sign fun _ _ => Sha256.length_hmac _ _, utf8Encode_eq_flatMap]
  decide +kernel

/-- **A time may take too many digits**: the session is refused before it expires. -/
theorem verify_eq_none_of_late_clock :
    ∃ (codec : AdminSessionCodec) (csrfToken : Text) (clock : ℚ) (value : Text)
      (session : AdminSession),
      csrfToken.all isUrlDigit = true ∧ 32 ≤ csrfToken.length ∧ csrfToken.length ≤ 128 ∧
        codec.issue clock csrfToken = some (value, session) ∧
        integerSecond clock < session.expiresAt ∧
        codec.verify (fun _ => none) value clock = none := by
  have hexp : integerSecond (2 ^ 900) = 2 ^ 900 := by decide +kernel
  have hissued : sampleSessionCodec.issue (2 ^ 900) lateSession.csrfToken =
      some (sampleSessionCodec.passwordText lateSession, lateSession) := by
    rw [issue_eq, hexp]
    rfl
  have hcsrf : validCsrf lateSession.csrfToken = true := by decide +kernel
  refine ⟨sampleSessionCodec, lateSession.csrfToken, 2 ^ 900, _, _, by decide +kernel,
    by decide +kernel, by decide +kernel, hissued, ?_, ?_⟩
  · rw [hexp]
    decide +kernel
  · refine Option.eq_none_iff_forall_ne_some.mpr fun found hfound => not_fits_lateSession ?_
    exact ((verify_passwordText (fun _ _ => Sha256.length_hmac _ _) hcsrf).mp hfound).2.1

end Sample

end AdminSessionCodec

end PatchouliLib.Session
