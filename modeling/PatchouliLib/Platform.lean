import PatchouliLib.Foundation.Sha256

/-!
# What the code takes from outside

The digest functions, the Unicode tables and the Markdown tokenizer are not part
of the repository.  They are the fields of `Platform`, and every definition that
calls one of them takes the platform as an instance argument.  A result that
needs more than the type of such a function says so in a hypothesis of its own.

The file also holds the exceptions the modelled functions raise.
-/

namespace PatchouliLib

open Foundation

/-- An inline child of a Markdown token. -/
structure InlineToken where
  type : Text
  content : Text
deriving DecidableEq, Repr

/-- A block token of the Markdown tokenizer. -/
structure MarkdownToken where
  type : Text
  tag : Text
  children : List InlineToken
deriving DecidableEq, Repr

/-- The functions of the standard library and of third-party packages that are
used as they are. -/
class Platform where
  /-- `hashlib.sha256(data).digest()`. -/
  sha256 : Bytes → Bytes
  /-- `hmac.new(key, data, sha256).digest()`. -/
  hmacSha256 : Bytes → Bytes → Bytes
  /-- `hashlib.pbkdf2_hmac("sha256", password, salt, iterations, dklen=32)`. -/
  pbkdf2HmacSha256 : Bytes → Bytes → ℕ → Bytes
  /-- `unicodedata.normalize("NFC", text)`. -/
  nfc : Text → Text
  /-- `text.casefold()`. -/
  casefold : Text → Text
  /-- `text.upper()`. -/
  upper : Text → Text
  /-- `text.lower()`. -/
  lower : Text → Text
  /-- `unicodedata.unidata_version`. -/
  unidataVersion : Text
  /-- `unicodedata.category(character)` is one of `Cc`, `Cf`, `Cs`, `Zl`, `Zp`. -/
  isControlOrFormat : Char → Bool
  /-- `MarkdownIt("commonmark").parse(text)`. -/
  parseMarkdown : Text → List MarkdownToken

export Platform (sha256 hmacSha256 pbkdf2HmacSha256 nfc)

/-- A platform that is right about ASCII text and keeps the bytes it digests. -/
@[reducible] def asciiPlatform : Platform where
  sha256 := id
  hmacSha256 key data := key ++ data
  pbkdf2HmacSha256 password salt _ := (password ++ salt).take 32
  nfc := id
  casefold := List.map fun c => if 'A' ≤ c ∧ c ≤ 'Z' then Char.ofNat (c.toNat + 32) else c
  upper := List.map fun c => if 'a' ≤ c ∧ c ≤ 'z' then Char.ofNat (c.toNat - 32) else c
  lower := List.map fun c => if 'A' ≤ c ∧ c ≤ 'Z' then Char.ofNat (c.toNat + 32) else c
  unidataVersion := "15.0.0"
  isControlOrFormat c := c.toNat < 32 || c.toNat = 127
  parseMarkdown _ := []

/-- The same with the digest function itself. -/
@[reducible] def shaPlatform : Platform := { asciiPlatform with sha256 := Sha256.digest }

/-- The same with the authentication code itself. -/
@[reducible] def hmacPlatform : Platform := { shaPlatform with hmacSha256 := Sha256.hmac }

/-- The exceptions of the modelled functions, under the source's names. -/
inductive Err where
  | invalidOccurrenceTime
  | invalidPageTitle
  | invalidPageId
  | invalidPageUid
  | invalidRevisionId
  | identifierGeneration
  | validation
  | integrity
  | authentication
  | authorization
  | idempotencyConflict
  | idempotencyPersistence
  | archiveNotFound
  | archivePreconditionRequired
  | archivePreconditionFailed
  | archiveUnsupportedRevisionFormat
  | archiveOccurrenceUnchanged
  | archiveLifecycleUnchanged
  | archivePersistence
  | archiveIdentifierExhausted
  | archiveReplayCorrupt
  | pageMembershipHistory
  | fileSetCreateIdentifierExhausted
  | fileSetPageNotFound
  | fileSetPreconditionFailed
  | fileSetWriteNotFound
  | fileSetWritePreconditionRequired
  | fileSetWritePersistence
  | fileSetReadNotFound
  | fileSetReadPersistence
  | pageMoveNotFound
  | masterFileSetConflict
  | masterFileSetNotFound
  | masterPageMoveConflict
  | pageTitleNotFound
  | pageTitleVersionConflict
  | pageTitlePersistence
  | apiError (status : ℕ) (code : Text)
  | textClassification
  | searchIndexUnavailable
  | searchIndexProjection
  | searchScope
  | resourceNotFound
  | credentialExpiry
  | credentialPersistence
  | credentialLifecycle
  | policyConflict
  | grantVersionConflict
  | scopeEditorRequired
  | invalidOnboardingTicket
  | masterTokenAlreadyInitialized
  | tagNotFound
  | tagValidation
  | tagBatchConflict
  | runtime
deriving DecidableEq, Repr

end PatchouliLib
