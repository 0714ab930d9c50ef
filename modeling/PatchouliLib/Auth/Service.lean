import PatchouliLib.Foundation.Base64
import PatchouliLib.Storage.Statements

/-!
# Authentication and authorization

A bearer token names a credential by its selector and proves knowledge of a
secret.  The caller behind it is authorized either by an exact Section grant or
by the policy of the credential on the target Library.  Everything is decided on
the state of the surrounding transaction.

## Main definitions

* `parseToken` — the syntax of a bearer token.
* `authenticate` — the caller and credential of a token; it may note the time of
  use.
* `resolveLibraryPolicy` — the rights of a credential over a Library.
* `authorizeContent`, `requireOperator`, `authorizePageMove` — the gates of the
  services.
-/

namespace PatchouliLib

open Foundation

/-! ### Tokens -/

def tokenVersion : ℕ := 1
def tokenPrefix : Text := "plb1"
def selectorBytes : ℕ := 16
def secretBytes : ℕ := 32
def verifierDomain : Bytes := utf8Encode "patchouli-lib:opaque-bearer-token:v1" ++ [0]

/-- Public lookup metadata and the non-reversible verifier for one token. -/
structure ParsedToken where
  selector : Text
  verifier : Bytes
deriving DecidableEq

/-- A component of the given number of bytes, in its only spelling. -/
def decodeComponent (value : Text) (expectedBytes : ℕ) : Option Bytes :=
  (base64UrlDecode value).filter (·.length = expectedBytes)

/-- Strictly parse a token. -/
def parseToken [Platform] (value : Text) : Option ParsedToken :=
  match value.splitOn '.' with
  | [pre, encodedSelector, encodedSecret] => do
    guard (pre = tokenPrefix)
    let selector ← decodeComponent encodedSelector selectorBytes
    let secret ← decodeComponent encodedSecret secretBytes
    some ⟨encodedSelector, sha256 (verifierDomain ++ selector ++ secret)⟩
  | _ => none

/-! ### Authentication -/

def lastUsedCoalesceMicroseconds : ℤ := 5 * 60 * 1000000

/-- A caller and the credential it presented. -/
structure AuthenticatedCaller where
  caller : Caller
  credential : Credential
deriving DecidableEq

def AuthenticatedCaller.key (a : AuthenticatedCaller) : CredentialKey :=
  ⟨a.credential.id, a.caller.id, a.caller.libraryId⟩

def getCaller (libraryId callerId : Id) (s : Store) : Option Caller :=
  s.auth.callers.find? fun c => c.libraryId = libraryId ∧ c.id = callerId

/-- A credential that may be used now. -/
def Credential.IsActive (c : Credential) (now : ℤ) : Prop :=
  c.revokedAt = none ∧ c.rotatedAt = none ∧ c.createdAt ≤ now ∧ ∀ e ∈ c.expiresAt, now < e

instance (c : Credential) (now : ℤ) : Decidable (c.IsActive now) := by
  unfold Credential.IsActive
  infer_instance

/-- The caller and the credential of a token, before its use is noted. -/
def verifyToken [Platform] (tokenValue : Text) (now : ℤ) (s : Store) :
    Except Err AuthenticatedCaller := do
  let parsed ← Fallible.get (parseToken tokenValue) .authentication
  let stored ← Fallible.get (s.auth.credentials.find? fun c => c.selector = parsed.selector)
    .authentication
  Fallible.check (stored.verifier = parsed.verifier ∧ stored.tokenVersion = tokenVersion)
    .authentication
  let caller ← Fallible.get (getCaller stored.libraryId stored.callerId s) .authentication
  Fallible.check (caller.disabledAt = none ∧ stored.IsActive now ∧
    (stored.expiresAt = none → caller.kind = .agent)) .authentication
  pure ⟨caller, stored⟩

/-- The use of a credential is noted at most every few minutes. -/
def Credential.touchDue (c : Credential) (now : ℤ) : Bool :=
  let baseline := (c.lastUsedAt.filter (· ≠ 0)).getD c.createdAt
  baseline + lastUsedCoalesceMicroseconds ≤ now && c.updatedAt ≤ now

def Credential.touch (c : Credential) (now : ℤ) : Credential :=
  { c with lastUsedAt := some now, updatedAt := now }

/-- The row is the one whose use is noted. -/
def Credential.isUsable (c credential : Credential) : Bool :=
  c.id = credential.id && c.callerId = credential.callerId && c.libraryId = credential.libraryId &&
    c.revokedAt = none && c.rotatedAt = none

def AuthTables.touchCredentialLastUsed (credential : Credential) (now : ℤ) (t : AuthTables) :
    AuthTables :=
  { t with
    credentials := t.credentials.map fun c => if c.isUsable credential then c.touch now else c }

def Store.touchCredentialLastUsed (credential : Credential) (now : ℤ) (s : Store) : Store :=
  { s with auth := s.auth.touchCredentialLastUsed credential now }

/-- Authenticate against current transaction-visible state. -/
def authenticate [Platform] (tokenValue : Text) (now : ℤ) : Write AuthenticatedCaller := do
  let a ← query (verifyToken tokenValue now)
  if a.credential.touchDue now then
    modifyStore (.touchCredentialLastUsed a.credential now)
    pure { a with credential := a.credential.touch now }
  else pure a

/-! ### Policies -/

/-- The policy of a credential on one Library. -/
inductive LibraryPolicy where
  | legacySection
  | libraryGrants (read write : Bool)
deriving DecidableEq

/-- The Section marker allows nothing by itself. -/
def LibraryPolicy.allows : LibraryPolicy → LibraryAction → Bool
  | .legacySection, _ => false
  | .libraryGrants read _, .read => read
  | .libraryGrants _ write, .write => write

/-- Evaluate one action's selected set. -/
def libraryScopeAllows (mode : AccessMode) (selected : Bool) : Bool :=
  match mode with
  | .include => selected
  | .exclude => !selected

/-- The row of `credential_library_policies` in grants mode, when there is one. -/
def libraryGrantPolicy (key : CredentialKey) (s : Store) : Option CredentialLibraryPolicy :=
  s.auth.credentialLibraryPolicies.find? fun p => p.owner = key ∧ p.mode = .libraryGrants

/-- The action is selected on the Library for this credential. -/
def selectsLibrary (key : CredentialKey) (targetLibraryId : Id) (action : LibraryAction)
    (s : Store) : Bool :=
  s.auth.credentialLibraryGrants.any fun g =>
    g.owner = key && g.targetLibraryId = targetLibraryId && g.action = action

/-- The credential is active and its caller is an enabled agent. -/
def isActiveAgentCredential (key : CredentialKey) (activeAt : ℤ) (s : Store) : Bool :=
  s.auth.credentials.any fun c => c.key = key && c.IsActive activeAt &&
    s.auth.callers.any fun k =>
      k.id = c.callerId && k.libraryId = c.libraryId && k.kind = .agent && k.disabledAt = none

/-- The rights a policy gives on one Library. -/
def libraryRights (policy : CredentialLibraryPolicy) (targetLibraryId : Id) (s : Store) :
    LibraryPolicy :=
  if s.library.libraries.any (·.id = targetLibraryId) then
    .libraryGrants
      (libraryScopeAllows policy.readMode (selectsLibrary policy.owner targetLibraryId .read s))
      (libraryScopeAllows policy.writeMode (selectsLibrary policy.owner targetLibraryId .write s))
  else .libraryGrants false false

/-- Resolve policy only for this exact active Agent credential identity. -/
def resolveLibraryPolicy (key : CredentialKey) (targetLibraryId : Id) (activeAt : ℤ)
    (s : Store) : Except Err (Option LibraryPolicy) := do
  Fallible.check (0 ≤ activeAt) .validation
  if isActiveAgentCredential key activeAt s then
    match libraryGrantPolicy key s with
    | none => pure (some .legacySection)
    | some policy => pure (some (libraryRights policy targetLibraryId s))
  else pure none

def getGrant (libraryId callerId sectionId : Id) (action : SectionAction) (s : Store) :
    Option SectionGrant :=
  s.auth.sectionGrants.find? fun g =>
    g.libraryId = libraryId ∧ g.callerId = callerId ∧ g.sectionId = sectionId ∧ g.action = action

/-! ### Gates -/

/-- The decision of `authorize_content` on an authenticated caller. -/
def contentDecision (a : AuthenticatedCaller) (libraryId sectionId : Id) (action : SectionAction)
    (now : ℤ) (s : Store) : Except Err PUnit := do
  Fallible.check (a.caller.kind = .agent) .authorization
  let policy ← resolveLibraryPolicy a.key libraryId now s
  let policy ← Fallible.get policy .authentication
  match policy with
  | .legacySection => do
    Fallible.check (a.caller.libraryId = libraryId) .authorization
    Fallible.check ((getGrant libraryId a.caller.id sectionId action s).isSome) .authorization
  | .libraryGrants read write =>
    Fallible.check ((match action with
      | .query | .pageRead => read
      | .archiveWrite => write) = true) .authorization

/-- Authenticate and authorize against current transaction-visible state. -/
def authorizeContent [Platform] (tokenValue : Text) (libraryId sectionId : Id)
    (action : SectionAction) (now : ℤ) : Write AuthenticatedCaller := do
  let a ← authenticate tokenValue now
  let _ ← query (contentDecision a libraryId sectionId action now)
  pure a

def requireOperator [Platform] (tokenValue : Text) (libraryId : Id) (now : ℤ) :
    Write AuthenticatedCaller := do
  let a ← authenticate tokenValue now
  require (a.caller.libraryId = libraryId ∧ a.caller.kind = .operator) .authorization
  pure a

/-- The decision of `authorize_page_move` on an authenticated caller. -/
def moveDecision (a : AuthenticatedCaller) (libraryId : Id) (now : ℤ) (s : Store) :
    Except Err PUnit := do
  Fallible.check (a.caller.kind = .agent) .authorization
  let policy ← resolveLibraryPolicy a.key libraryId now s
  let policy ← Fallible.get policy .authentication
  match policy with
  | .legacySection => .error .authorization
  | .libraryGrants _ write => Fallible.check (write = true) .authorization

def authorizePageMove [Platform] (tokenValue : Text) (libraryId : Id) (now : ℤ) :
    Write AuthenticatedCaller := do
  let a ← authenticate tokenValue now
  let _ ← query (moveDecision a libraryId now)
  pure a

end PatchouliLib
