import PatchouliLib.Admin.Service
import PatchouliLib.Auth.Repository

/-!
# The administrator's changes to agents

The master identity provisions an agent, rotates and revokes its credentials,
edits the Libraries a credential may read and write, and disables the agent.  An
operator may revoke a credential of its own Library.

Two forms edit the same policy.  The scope form carries the revision of the
scope it was filled from; the form of one Library carries a digest of the rights
it showed, which counts the earlier edits of these rights in the audit log.

## Main definitions

* `provisionAgentInTransaction` — a new agent with a credential and a policy.
* `rotateAgentCredentialAsMaster` — a new credential with the policy of the old.
* `setAgentScopeAsMaster`, `setAgentGrantsAsMaster` — the two editors.
* `revokeAgentCredentialAsMaster`, `revokeAgentCredential` — the revocations.
* `targetLibraryGrantsDigest` — the token of the form of one Library.
-/

namespace PatchouliLib

open Foundation

/-! ### Lifetimes and scopes -/

structure MasterCredentialLifetime where
  neverExpires : Bool
  credentialTtlSeconds : Option ℕ

/-- `_expires_at`. -/
def credentialExpiresAt (now : ℤ) (ttlSeconds : ℕ) : Except Err ℤ := do
  let expiresAt := now + ttlSeconds * microsecondsPerSecond
  Fallible.check (expiresAt ≤ maxRfc3339TimestampMicroseconds) .validation
  pure expiresAt

def masterCredentialExpiry (now : ℤ) (lifetime : MasterCredentialLifetime) :
    Except Err (Option ℤ) :=
  if lifetime.neverExpires then pure none
  else do
    let ttl ← Fallible.get lifetime.credentialTtlSeconds .validation
    let expiresAt ← credentialExpiresAt now ttl
    pure (some expiresAt)

/-- Modes and selected Libraries, as a form submits them. -/
structure MasterLibraryScope where
  readMode : AccessMode
  writeMode : AccessMode
  readLibraries : List Id
  writeLibraries : List Id

/-- A selected Library with the action it is selected for. -/
abbrev Selection := Id × LibraryAction

def MasterLibraryScope.selections (scope : MasterLibraryScope) : List Selection :=
  scope.readLibraries.map (·, .read) ++ scope.writeLibraries.map (·, .write)

/-- Every selected Library exists. -/
def requireLibraries (selections : List Selection) : Write PUnit := do
  let known ← query fun s => pure (selections.all fun l => s.hasLibrary l.1)
  require (known = true) .resourceNotFound

def insertSelections (owner : CredentialKey) (selections : List Selection) : Write PUnit :=
  forEach (fun l : Selection => insertCredentialLibraryGrant
    ⟨owner.credentialId, owner.callerId, owner.homeLibraryId, l.1, l.2⟩) selections

/-- The policy of a new credential, at its first revision. -/
def insertScope (owner : CredentialKey) (readMode writeMode : AccessMode)
    (selections : List Selection) : Write PUnit := do
  insertCredentialLibraryPolicy ⟨owner.credentialId, owner.callerId, owner.homeLibraryId,
    .libraryGrants, readMode, writeMode, 0⟩
  insertSelections owner selections

/-! ### Provisioning -/

structure MasterProvisionAgent where
  lifetime : MasterCredentialLifetime
  scope : MasterLibraryScope
  homeLibraryId : Option Id
  agentName : Text
  agentDescription : Text
  grants : List Selection

structure ProvisionEntropy where
  callerId : Id
  issue : IssueEntropy
  auditId : Id

structure DeliveredCredential where
  value : Text
  libraryId : Id
  callerId : Id
  credentialId : Id
deriving DecidableEq

/-- `ORDER BY created_at, id`. -/
def Library.le (a b : Library) : Prop :=
  a.createdAt < b.createdAt ∨ (a.createdAt = b.createdAt ∧ a.id ≤ b.id)

instance : DecidableRel Library.le := fun a b => by
  unfold Library.le
  infer_instance

def oldestLibrary (s : Store) : Option Id :=
  ((s.library.libraries.insertionSort Library.le).head?).map (·.id)

section

variable [Platform]

/-- Issue within an authorized transaction; caller owns admission and commit. -/
def provisionAgentInTransaction (request : MasterProvisionAgent) (now : ℤ) (identityId : Id)
    (sessionGeneration : ℕ) (sessionFingerprint : Bytes) (entropy : ProvisionEntropy) :
    Write DeliveredCredential := do
  let home ← query fun s => pure (request.homeLibraryId <|> oldestLibrary s)
  let homeLibraryId ← orThrow home .resourceNotFound
  let known ← query fun s => pure (s.hasLibrary homeLibraryId)
  require (known = true) .resourceNotFound
  let selections := if request.grants = [] then request.scope.selections else request.grants
  requireLibraries selections
  let caller : Caller :=
    { id := entropy.callerId, libraryId := homeLibraryId, kind := .agent
      name := request.agentName, description := request.agentDescription, policyVersion := 1
      createdAt := now, updatedAt := now, disabledAt := none }
  insertCaller caller
  let expiresAt ← attempt (masterCredentialExpiry now request.lifetime)
  let issued ← issueCredential caller expiresAt now entropy.issue
  insertScope issued.credential.key request.scope.readMode request.scope.writeMode selections
  insertMasterAuditEvent ⟨entropy.auditId, identityId, sessionGeneration, sessionFingerprint,
    "auth.agent.provision", "caller", caller.id, now⟩
  pure ⟨issued.value, caller.libraryId, caller.id, issued.credential.id⟩

/-- Issue one Agent credential with an explicit, default-deny Library policy. -/
def provisionAgentAsMaster (session : MasterAdminSession) (time : ℤ)
    (request : MasterProvisionAgent) (now : ℤ) (entropy : ProvisionEntropy) :
    Write DeliveredCredential := do
  requireMasterSession session time
  provisionAgentInTransaction request now session.identityId session.sessionGeneration
    session.auditFingerprint entropy

/-! ### Credentials that may be edited -/

/-- The agent and its credential. -/
def agentCredential (key : CredentialKey) : Write (Caller × Credential) := do
  let caller ← query fun s => pure (getCaller key.homeLibraryId key.callerId s)
  let current ← query fun s => pure (getCredential key s)
  let caller ← orThrow (caller.filter (·.kind = .agent)) .resourceNotFound
  let current ← orThrow current .resourceNotFound
  pure (caller, current)

/-- The agent and its credential, which are both active. -/
def activeAgentCredential (key : CredentialKey) (now : ℤ) : Write (Caller × Credential) := do
  let (caller, current) ← agentCredential key
  require (caller.disabledAt = none ∧ current.IsActive now) .credentialLifecycle
  pure (caller, current)

/-- The stored scope of a credential in grants mode. -/
def requireScope (key : CredentialKey) (e : Err) : Write CredentialLibraryScope := do
  let scope ← query fun s => pure (getCredentialLibraryScope key s)
  orThrow scope e

/-! ### Rotation -/

/-- Replace one active Library-scoped Agent Token without changing its grants. -/
def rotateAgentCredentialAsMaster (session : MasterAdminSession) (time : ℤ) (key : CredentialKey)
    (lifetime : MasterCredentialLifetime) (now : ℤ) (entropy : IssueEntropy) (auditId : Id) :
    Write DeliveredCredential := do
  requireMasterSession session time
  let (caller, current) ← activeAgentCredential key now
  -- Legacy Section grants belong to the caller, not this credential.
  let scope ← requireScope key .policyConflict
  let existing ← query fun s => pure (listCredentialLibrarySelections key s)
  let expiresAt ← attempt (masterCredentialExpiry now lifetime)
  let replacement ← issueCredential caller expiresAt now entropy
  insertScope ⟨replacement.credential.id, key.callerId, key.homeLibraryId⟩ scope.readMode
    scope.writeMode (existing.flatMap fun e => e.actions.map (e.libraryId, ·))
  let rotated ← markCredentialRotated current replacement.credential.id now
  let _ ← orThrow rotated .credentialLifecycle
  addMasterSuccess session auditId "auth.agent_credential.rotate" "credential" key.credentialId now
  pure ⟨replacement.value, key.homeLibraryId, key.callerId, replacement.credential.id⟩

/-! ### The scope editor -/

structure MasterSetAgentLibraryScope where
  scope : MasterLibraryScope
  expectedScopeRevision : ℕ

/-- Two lists hold the same Libraries. -/
def SameLibraries (a b : List Id) : Prop := (∀ x ∈ a, x ∈ b) ∧ ∀ x ∈ b, x ∈ a

instance (a b : List Id) : Decidable (SameLibraries a b) := by
  unfold SameLibraries
  infer_instance

/-- The submitted scope is the stored one. -/
def CredentialLibraryScope.Is (scope : CredentialLibraryScope) (request : MasterLibraryScope) :
    Prop :=
  scope.readMode = request.readMode ∧ scope.writeMode = request.writeMode ∧
    SameLibraries scope.readLibraries request.readLibraries ∧
    SameLibraries scope.writeLibraries request.writeLibraries

instance (scope : CredentialLibraryScope) (request : MasterLibraryScope) :
    Decidable (scope.Is request) := by
  unfold CredentialLibraryScope.Is
  infer_instance

def scopeUpdateAction : Text := "auth.agent_credential.scope_update"

/-- Atomically replace both selection policies, guarding stale and ABA forms. -/
def setAgentScopeAsMaster (session : MasterAdminSession) (time : ℤ) (key : CredentialKey)
    (request : MasterSetAgentLibraryScope) (now : ℤ) (auditId : Id) : Write Bool := do
  requireMasterSession session time
  let _ ← activeAgentCredential key now
  let scope ← requireScope key .policyConflict
  require (scope.revision = request.expectedScopeRevision) .grantVersionConflict
  requireLibraries request.scope.selections
  if scope.Is request.scope then pure false
  else do
    updateCredentialLibraryPolicies key.credentialId fun p =>
      { p with
        readMode := request.scope.readMode
        writeMode := request.scope.writeMode
        scopeRevision := scope.revision + 1 }
    deleteCredentialLibraryGrants (·.credentialId = key.credentialId)
    insertSelections key request.scope.selections
    addMasterSuccess session auditId scopeUpdateAction "credential" key.credentialId now
    pure true

/-! ### The editor of one Library -/

/-- A set of actions. -/
structure ActionSet where
  read : Bool
  write : Bool
deriving DecidableEq

def ActionSet.has (a : ActionSet) : LibraryAction → Bool
  | .read => a.read
  | .write => a.write

/-- `sorted(action.value for action in actions)`. -/
def ActionSet.values (a : ActionSet) : List Text :=
  (if a.read then [LibraryAction.read.wire] else []) ++
    if a.write then [LibraryAction.write.wire] else []

/-- The actions of one set that are not in the other. -/
def ActionSet.without (a b : ActionSet) : List LibraryAction :=
  [LibraryAction.read, .write].filter fun action => a.has action && !b.has action

/-- `f"{int(READ in actions)}{int(WRITE in actions)}"`. -/
def ActionSet.bits (a : ActionSet) : Text :=
  [if a.read then '1' else '0', if a.write then '1' else '0']

def grantsDigestDomain : Bytes := utf8Encode "patchouli-target-library-grants-v1" ++ [0]

/-- Stable comparison token for one target Library's read/write state. -/
def targetLibraryGrantsDigest (key : CredentialKey) (targetLibraryId : Id) (actions : ActionSet)
    (revision : ℕ) : Text :=
  hex (sha256 (grantsDigestDomain ++ utf8Encode (Json.dumps true (.arr
    [.str key.homeLibraryId, .str key.callerId, .str key.credentialId, .str targetLibraryId,
      .arr (actions.values.map .str), .num revision]))))

end

def grantsUpdateAction : Text := "auth.agent_credential.grants_update"

/-- The audit row is of an edit of the rights of this credential on this
Library. -/
def MasterAuditEvent.isGrantsUpdate (a : MasterAuditEvent) (credentialId targetLibraryId : Id) :
    Bool :=
  a.action = grantsUpdateAction && a.targetType = "credential_library_grant" &&
    a.targetId.take opaqueIdLength = credentialId &&
    match a.targetId.splitOn ':' with
    | [credential, target, _, _] => credential = credentialId && target = targetLibraryId
    | _ => false

/-- Count committed grant-change events: `grant_revisions_for_credentials` of one
credential, at one Library. -/
def grantRevision (credentialId targetLibraryId : Id) (s : Store) : ℕ :=
  (s.audit.masterAuditEvents.filter (·.isGrantsUpdate credentialId targetLibraryId)).length

/-- The rights of a credential on one Library, as the listing has them. -/
def currentActions (key : CredentialKey) (targetLibraryId : Id) (s : Store) : ActionSet :=
  let listed (action : LibraryAction) : Bool :=
    (listCredentialLibraryGrants key s).any fun e =>
      e.libraryId = targetLibraryId && e.actions.contains action
  ⟨listed .read, listed .write⟩

/-- A scope edit of this credential was audited. -/
def hasScopeUpdate (credentialId : Id) (s : Store) : Bool :=
  s.audit.masterAuditEvents.any fun a =>
    a.action = scopeUpdateAction && a.targetType = "credential" && a.targetId = credentialId

/-- The target of the audit row of an edit. -/
def grantsUpdateTarget (credentialId targetLibraryId : Id) (old new : ActionSet) : Text :=
  credentialId ++ ':' :: targetLibraryId ++ ':' :: old.bits ++ ':' :: new.bits

/-- Replace the rights on one Library row by row. -/
def replaceActions (key : CredentialKey) (targetLibraryId : Id) (existing desired : ActionSet) :
    Write PUnit := do
  forEach (fun action => deleteCredentialLibraryGrants fun g =>
    g.owner = key && g.targetLibraryId = targetLibraryId && g.action = action)
    (existing.without desired)
  insertSelections key ((desired.without existing).map (targetLibraryId, ·))

section

variable [Platform]

structure MasterSetAgentLibraryGrants where
  expectedDigest : Text
  actions : ActionSet

/-- Replace grants on one active Library-mode Token, with stale-form protection. -/
def setAgentGrantsAsMaster (session : MasterAdminSession) (time : ℤ) (key : CredentialKey)
    (targetLibraryId : Id) (request : MasterSetAgentLibraryGrants) (now : ℤ) (auditId : Id) :
    Write Bool := do
  requireMasterSession session time
  let _ ← activeAgentCredential key now
  let scope ← requireScope key .policyConflict
  require (scope.readMode = .include ∧ scope.writeMode = .include) .scopeEditorRequired
  let edited ← query fun s => pure (hasScopeUpdate key.credentialId s)
  require (edited = false) .scopeEditorRequired
  let known ← query fun s => pure (s.hasLibrary targetLibraryId)
  require (known = true) .resourceNotFound
  let existing ← query fun s => pure (currentActions key targetLibraryId s)
  let revision ← query fun s => pure (grantRevision key.credentialId targetLibraryId s)
  require (targetLibraryGrantsDigest key targetLibraryId existing revision =
    request.expectedDigest) .grantVersionConflict
  if request.actions = existing then pure false
  else do
    replaceActions key targetLibraryId existing request.actions
    updateCredentialLibraryPolicies key.credentialId fun p =>
      { p with scopeRevision := p.scopeRevision + 1 }
    addMasterSuccess session auditId grantsUpdateAction "credential_library_grant"
      (grantsUpdateTarget key.credentialId targetLibraryId existing request.actions) now
    pure true

/-! ### Revocation -/

/-- Revoke one exact Agent credential without impersonating an operator. -/
def revokeAgentCredentialAsMaster (session : MasterAdminSession) (time : ℤ) (key : CredentialKey)
    (now : ℤ) (auditId : Id) : Write Bool := do
  requireMasterSession session time
  let (_, credential) ← agentCredential key
  if credential.revokedAt ≠ none ∨ credential.rotatedAt ≠ none then pure false
  else do
    let revoked ← revokeCredential credential now
    require (revoked.any (·.revokedAt = some now) = true) .credentialLifecycle
    addMasterSuccess session auditId "auth.agent_credential.revoke" "credential" key.credentialId
      now
    pure true

/-- `OperatorService.revoke_credential`. -/
def operatorRevokeCredential (actorToken : Text) (key : CredentialKey) (requestId : Text)
    (now : ℤ) (auditId : Id) : Write Credential := do
  let actor ← requireOperator actorToken key.homeLibraryId now
  let current ← query fun s => pure (getCredential key s)
  let current ← orThrow current .credentialLifecycle
  if current.revokedAt ≠ none ∨ current.rotatedAt ≠ none then pure current
  else do
    let revoked ← revokeCredential current now
    let revoked ← orThrow revoked .credentialLifecycle
    insertAuditEvent
      { id := auditId, libraryId := actor.caller.libraryId
        actorHomeLibraryId := actor.caller.libraryId, actorCallerId := actor.caller.id
        actorCredentialId := actor.credential.id, sectionId := none, sectionAction := none
        action := "auth.credential.revoke", resourceType := "credential"
        resourceId := current.id, requestId := requestId, policyVersionBefore := none
        policyVersionAfter := none, occurredAt := now }
    pure revoked

structure RevokeAgentCredential where
  libraryName : Text
  callerId : Id
  credentialId : Id
  operatorToken : Text

def revokeAgentCredential (request : RevokeAgentCredential) (requestId : Text) (now : ℤ)
    (auditId : Id) : Write PUnit := do
  let library ← query fun s => pure (s.library.libraries.find? (·.name = request.libraryName))
  let library ← orThrow library .resourceNotFound
  let caller ← query fun s => pure (getCaller library.id request.callerId s)
  let _ ← orThrow (caller.filter (·.kind = .agent)) .resourceNotFound
  let _ ← operatorRevokeCredential request.operatorToken
    ⟨request.credentialId, request.callerId, library.id⟩ requestId now auditId
  pure ⟨⟩

/-- Disable one Agent identity and all its credentials without erasing history. -/
def disableAgentAsMaster (session : MasterAdminSession) (time : ℤ) (libraryId callerId : Id)
    (clock : ℤ) (auditId : Id) : Write Bool := do
  requireMasterSession session time
  let caller ← query fun s => pure (getCaller libraryId callerId s)
  let caller ← orThrow (caller.filter (·.kind = .agent)) .resourceNotFound
  if caller.disabledAt ≠ none then pure false
  else do
    let now := max clock caller.updatedAt
    let disabled ← disableCaller libraryId callerId now
    require (disabled.any (·.disabledAt = some now) = true) .credentialLifecycle
    addMasterSuccess session auditId "auth.agent_identity.disable" "caller" callerId now
    pure true

end

end PatchouliLib
