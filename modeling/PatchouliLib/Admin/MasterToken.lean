import PatchouliLib.Admin.Service
import PatchouliLib.Auth.Repository

/-!
# The master token

The one administrator proves knowledge of a token whose salted hash is stored.
Replacing the token raises the session generation, and with it every session and
every ticket of an earlier generation ends.

## Main definitions

* `hashPassword`, `passwordMatches` — the stored form of a token.
* `initializeMaster`, `rotateMasterToken`, `recoverMasterToken` — the writes of
  the identity.
-/

namespace PatchouliLib

open Foundation

variable [Platform]

/-! ### Passwords -/

def defaultPasswordIterations : ℕ := 600000
def minPasswordIterations : ℕ := 300000
def maxPasswordIterations : ℕ := 1000000
def passwordSaltBytes : ℕ := 16
def passwordDigestBytes : ℕ := 32

omit [Platform] in
/-- The bytes of a password of an admissible length. -/
def passwordBytes (password : Text) : Except Err Bytes :=
  let value := utf8Encode password
  if 12 ≤ value.length ∧ value.length ≤ 1024 then .ok value else .error .validation

def hashPassword (password : Text) (salt : Bytes) : Except Err Text := do
  let value ← passwordBytes password
  Fallible.check (salt.length = passwordSaltBytes) .validation
  let digest := pbkdf2HmacSha256 value salt defaultPasswordIterations
  pure (passwordScheme ++ '$' :: Nat.toDigits 10 defaultPasswordIterations ++
    '$' :: base64UrlEncode salt ++ '$' :: base64UrlEncode digest)

omit [Platform] in
/-- The iterations, the salt and the digest of a stored hash. -/
def parsePasswordHash (encodedHash : Text) : Except Err (ℕ × Bytes × Bytes) := do
  Fallible.check (encodedHash.length ≤ 256) .validation
  match encodedHash.splitOn '$' with
  | [scheme, rawIterations, encodedSalt, encodedDigest] => do
    let iterations ← Fallible.get (readDigits rawIterations) .validation
    let salt ← Fallible.get (base64UrlDecode encodedSalt) .validation
    let digest ← Fallible.get (base64UrlDecode encodedDigest) .validation
    Fallible.check (scheme = passwordScheme ∧ Nat.toDigits 10 iterations = rawIterations ∧
      minPasswordIterations ≤ iterations ∧ iterations ≤ maxPasswordIterations ∧
      salt.length = passwordSaltBytes ∧ digest.length = passwordDigestBytes) .validation
    pure (iterations, salt, digest)
  | _ => .error .validation

def passwordMatches (candidate encodedHash : Text) : Bool :=
  match passwordBytes candidate, parsePasswordHash encodedHash with
  | .ok value, .ok (iterations, salt, expected) => pbkdf2HmacSha256 value salt iterations = expected
  | _, _ => false

/-! ### The identity -/

def maxSqliteInteger : ℤ := 2 ^ 63 - 1

/-- `_valid_time`. -/
def IsValidTime (value : ℤ) : Prop := 0 ≤ value ∧ value ≤ maxSqliteInteger

instance (value : ℤ) : Decidable (IsValidTime value) := by
  unfold IsValidTime
  infer_instance

def hashNewToken (value : Text) (salt : Bytes) : Except Err Text := do
  let length := (utf8Encode value).length
  Fallible.check (32 ≤ length ∧ length ≤ 1024) .validation
  hashPassword value salt

/-- Non-secret identity and generation for session admission checks. -/
structure MasterTokenState where
  identityId : Id
  sessionGeneration : ℕ
deriving DecidableEq

def MasterIdentity.state (m : MasterIdentity) : MasterTokenState :=
  ⟨m.identityId, m.sessionGeneration⟩

omit [Platform] in
/-- The stored identity, when its row is well formed. -/
def currentMaster (s : Store) : Option MasterIdentity :=
  s.auth.masterIdentity.filter fun m => 1 ≤ m.sessionGeneration ∧ IsValidTime m.updatedAt

/-- Persist the first identity in the caller's authorized transaction. -/
def initializeMaster (token : Text) (salt : Bytes) (identityId : Id) (now : ℤ) :
    Write MasterTokenState := do
  require (IsValidTime now) .validation
  let verifier ← attempt (hashNewToken token salt)
  require (IsOpaqueId identityId) .validation
  let present ← query fun s => pure s.auth.masterIdentity.isSome
  require (present = false) .masterTokenAlreadyInitialized
  insertMasterIdentity ⟨identityId, verifier, 1, now, now⟩
  pure ⟨identityId, 1⟩

/-- Replace the verifier and increment the generation in one CAS write. -/
def replaceToken (stored : MasterIdentity) (newToken : Text) (salt : Bytes) (now : ℤ) :
    Write (Option MasterTokenState) := do
  require (IsValidTime now ∧ stored.updatedAt ≤ now) .validation
  require ((stored.sessionGeneration : ℤ) < maxSqliteInteger) .validation
  require (passwordMatches newToken stored.tokenVerifier = false) .validation
  let newVerifier ← attempt (hashNewToken newToken salt)
  let replaced : MasterIdentity :=
    { stored with
      tokenVerifier := newVerifier
      sessionGeneration := stored.sessionGeneration + 1
      updatedAt := now }
  let matched ← updateMasterIdentity stored replaced
  pure (if matched then some replaced.state else none)

def rotateMasterToken (oldToken newToken : Text) (salt : Bytes) (now : ℤ) :
    Write (Option MasterTokenState) := do
  let stored ← query fun s => pure (currentMaster s)
  match stored with
  | none => pure none
  | some stored =>
    if passwordMatches oldToken stored.tokenVerifier then replaceToken stored newToken salt now
    else pure none

/-- Reset a lost token using local database access, not an HTTP session. -/
def recoverMasterToken (newToken : Text) (salt : Bytes) (now : ℤ) :
    Write (Option MasterTokenState) := do
  let stored ← query fun s => pure (currentMaster s)
  match stored with
  | none => pure none
  | some stored => replaceToken stored newToken salt now

end PatchouliLib
