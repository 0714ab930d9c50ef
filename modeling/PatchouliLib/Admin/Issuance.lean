import PatchouliLib.Admin.Agents
import PatchouliLib.Storage.Frames

/-!
# What the issue of a credential writes

A new credential brings one row, the value that may be revealed, a policy and the
rows of its selections.  No other row of these tables is touched.  A rotation
issues one and retires the row it replaces.

## Main definitions

* `Rotates` — what a rotation finds and writes.

## Main results

* `issueCredential_ok` — the row of a new credential of an agent.
* `insertScope_ok` — its policy and its selections.
* `provisionAgentInTransaction_ok` — **a new agent has one new credential.**
* `rotateAgentCredentialAsMaster_ok` — **a rotation copies the modes and the
  selections of an active credential, and retires it.**
-/

namespace PatchouliLib

open Foundation

/-! ### Admission -/

theorem agentCredential_ok {key : CredentialKey} {c c' : Connection} {found : Caller × Credential} :
    agentCredential key c = .ok (found, c') ↔
      getCaller key.homeLibraryId key.callerId c.store = some found.1 ∧ found.1.kind = .agent ∧
        getCredential key c.store = some found.2 ∧ c = c' := by
  obtain ⟨caller, current⟩ := found
  simp only [agentCredential, query_bind, bind_ok, orThrow_ok, pure_ok, Option.filter_eq_some_iff,
    decide_eq_true_eq, Prod.mk.injEq, and_assoc, exists_and_left, exists_eq_left']
  constructor
  · rintro ⟨_, hcaller, hkind, _, hcurrent, rfl, rfl, rfl⟩
    exact ⟨hcaller, hkind, hcurrent, rfl⟩
  · rintro ⟨hcaller, hkind, hcurrent, rfl⟩
    exact ⟨caller, hcaller, hkind, current, hcurrent, rfl, rfl, rfl⟩

/-- The agent is enabled and its credential is active. -/
structure ActiveAgent (key : CredentialKey) (now : ℤ) (k : Caller) (d : Credential) (s : Store) :
    Prop where
  caller : getCaller key.homeLibraryId key.callerId s = some k
  agent : k.kind = .agent
  enabled : k.disabledAt = none
  current : getCredential key s = some d
  active : d.IsActive now

theorem activeAgentCredential_ok {key : CredentialKey} {now : ℤ} {c c' : Connection}
    {found : Caller × Credential} (h : activeAgentCredential key now c = .ok (found, c')) :
    ActiveAgent key now found.1 found.2 c.store ∧ c = c' := by
  simp only [activeAgentCredential, bind_ok, require_ok, pure_ok, agentCredential_ok] at h
  obtain ⟨_, _, ⟨hcaller, hkind, hcurrent, rfl⟩, _, _, ⟨⟨henabled, hactive⟩, rfl⟩, rfl, rfl⟩ := h
  exact ⟨⟨hcaller, hkind, henabled, hcurrent, hactive⟩, rfl⟩

theorem requireScope_ok {key : CredentialKey} {e : Err} {c c' : Connection}
    {scope : CredentialLibraryScope} : requireScope key e c = .ok (scope, c') ↔
      getCredentialLibraryScope key c.store = some scope ∧ c = c' := by
  simp only [requireScope, query_bind, orThrow_ok]

theorem requireLibraries_ok {selections : List Selection} {c c' : Connection} {w : PUnit} :
    requireLibraries selections c = .ok (w, c') ↔
      (∀ l ∈ selections, c.store.hasLibrary l.1 = true) ∧ c = c' := by
  simp only [requireLibraries, query_bind, require_ok, List.all_eq_true]

/-! ### Selections and policies -/

/-- The row of a selection. -/
def selectionRow (owner : CredentialKey) (l : Selection) : CredentialLibraryGrant :=
  ⟨owner.credentialId, owner.callerId, owner.homeLibraryId, l.1, l.2⟩

@[simp] theorem selectionRow_owner (owner : CredentialKey) (l : Selection) :
    (selectionRow owner l).owner = owner := rfl

theorem insertSelections_ok {owner : CredentialKey} {selections : List Selection}
    {c c' : Connection} {w : PUnit} (h : insertSelections owner selections c = .ok (w, c')) :
    c'.store = c.store.modifyAuth fun t =>
      { t with credentialLibraryGrants :=
          t.credentialLibraryGrants ++ selections.map (selectionRow owner) } := by
  induction selections generalizing c with
  | nil =>
    obtain ⟨-, rfl⟩ := pure_ok.mp h
    simp [Store.modifyAuth]
  | cons l selections ih =>
    obtain ⟨_, c₁, hinsert, hrest⟩ := bind_ok.mp h
    simp only [insertCredentialLibraryGrant, bind_ok, constraint_ok, modifyStore_ok,
      exists_eq_left', and_assoc, exists_and_left, exists_const] at hinsert
    obtain ⟨-, -, -, rfl⟩ := hinsert
    rw [ih hrest]
    simp only [Store.modifyAuth, List.map_cons, List.append_assoc, List.singleton_append]
    rfl

theorem insertScope_ok {owner : CredentialKey} {readMode writeMode : AccessMode}
    {selections : List Selection} {c c' : Connection} {w : PUnit}
    (h : insertScope owner readMode writeMode selections c = .ok (w, c')) :
    c'.store = c.store.modifyAuth fun t =>
      { t with
        credentialLibraryPolicies := t.credentialLibraryPolicies ++
          [⟨owner.credentialId, owner.callerId, owner.homeLibraryId, .libraryGrants, readMode,
            writeMode, 0⟩]
        credentialLibraryGrants :=
          t.credentialLibraryGrants ++ selections.map (selectionRow owner) } := by
  obtain ⟨_, c₁, hinsert, hrest⟩ := bind_ok.mp h
  simp only [insertCredentialLibraryPolicy, bind_ok, constraint_ok, modifyStore_ok,
    exists_eq_left', and_assoc, exists_and_left, exists_const] at hinsert
  obtain ⟨-, -, -, rfl⟩ := hinsert
  rw [insertSelections_ok hrest]
  rfl

/-! ### Credentials -/

theorem insertCredential_ok {k : Credential} {c c' : Connection} {w : PUnit}
    (h : insertCredential k c = .ok (w, c')) :
    (∀ k' ∈ c.store.auth.credentials, k'.id ≠ k.id) ∧
      c' = { c with store := c.store.modifyAuth fun t =>
        { t with credentials := t.credentials ++ [k] } } := by
  simp only [insertCredential, bind_ok, constraint_ok, modifyStore_ok, exists_eq_left', and_assoc,
    exists_and_left, exists_const] at h
  obtain ⟨-, -, -, hkeys, rfl⟩ := h
  exact ⟨fun k' hk' => (hkeys k' hk').1, rfl⟩

theorem insertAgentTokenValue_ok {v : AgentTokenValue} {c c' : Connection} {w : PUnit}
    (h : insertAgentTokenValue v c = .ok (w, c')) :
    c' = { c with store := c.store.modifyAuth fun t =>
      { t with agentTokenValues := t.agentTokenValues ++ [v] } } := by
  simp only [insertAgentTokenValue, bind_ok, constraint_ok, modifyStore_ok, exists_eq_left',
    and_assoc, exists_and_left, exists_const] at h
  obtain ⟨-, -, -, -, rfl⟩ := h
  rfl

/-- What is known of a new credential row. -/
structure Credential.IsIssued (k : Credential) (caller : Caller) (expiresAt : Option ℤ)
    (createdAt : ℤ) (entropy : IssueEntropy) : Prop where
  key : k.key = ⟨entropy.credentialId, caller.id, caller.libraryId⟩
  times : k.createdAt = createdAt ∧ k.expiresAt = expiresAt
  unexpired : ∀ e ∈ expiresAt, createdAt < e
  active : k.revokedAt = none ∧ k.rotatedAt = none

section

variable [Platform] {caller : Caller} {expiresAt : Option ℤ} {createdAt : ℤ}
  {entropy : IssueEntropy} {c c' : Connection} {issued : IssuedCredential}

/-- **The row of a new credential of an agent, and its value.** -/
theorem issueCredential_ok (hkind : caller.kind = .agent)
    (h : issueCredential caller expiresAt createdAt entropy c = .ok (issued, c')) :
    issued.credential.IsIssued caller expiresAt createdAt entropy ∧
      (∀ k ∈ c.store.auth.credentials, k.id ≠ issued.credential.id) ∧
      c'.store = c.store.modifyAuth fun t =>
        { t with
          credentials := t.credentials ++ [issued.credential]
          agentTokenValues :=
            t.agentTokenValues ++ [⟨issued.credential.id, issued.value⟩] } := by
  simp only [issueCredential, hkind, bind_ok, require_ok, orThrow_ok, pure_ok, and_assoc,
    exists_and_left, exists_eq_left', exists_const, addAgentCredentialWithValue] at h
  obtain ⟨-, hexpires, -, token, -, k, d, ⟨_, -, -, -, -, _, c₁, hinsert, _, c₂, hvalue, rfl, rfl⟩,
    rfl, rfl⟩ := h
  obtain ⟨hnew, rfl⟩ := insertCredential_ok hinsert
  rw [insertAgentTokenValue_ok hvalue]
  exact ⟨⟨rfl, ⟨rfl, rfl⟩, fun e he => (hexpires e he).1, rfl, rfl⟩, hnew, rfl⟩

/-- **A new agent has one new credential, and no ticket is touched.** -/
theorem provisionAgentInTransaction_ok {request : MasterProvisionAgent} {now : ℤ} {identityId : Id}
    {sessionGeneration : ℕ} {sessionFingerprint : Bytes} {entropy : ProvisionEntropy}
    {d : DeliveredCredential}
    (h : provisionAgentInTransaction request now identityId sessionGeneration sessionFingerprint
      entropy c = .ok (d, c')) :
    ∃ k : Credential, k.id = d.credentialId ∧ k.id = entropy.issue.credentialId ∧
      k.createdAt = now ∧ (∀ k' ∈ c.store.auth.credentials, k'.id ≠ k.id) ∧
      c'.store.auth.credentials = c.store.auth.credentials ++ [k] ∧
      c'.store.auth.onboardingTickets = c.store.auth.onboardingTickets := by
  simp only [provisionAgentInTransaction, requireLibraries, insertCaller, insertMasterAuditEvent,
    bind_ok, query_ok, require_ok, orThrow_ok, attempt_ok, constraint_ok, modifyStore_ok, pure_ok,
    Fallible.pure_ok, and_assoc, exists_and_left, exists_eq_left', exists_const] at h
  obtain ⟨home, -, -, -, -, -, -, expiresAt, -, issued, c₁, hissue, _, c₂, hscope, -, rfl, rfl⟩ := h
  obtain ⟨hissued, hnew, hc₁⟩ := issueCredential_ok rfl hissue
  have hid : issued.credential.id = entropy.issue.credentialId :=
    congrArg CredentialKey.credentialId hissued.key
  refine ⟨issued.credential, rfl, hid, hissued.times.1, hnew, ?_, ?_⟩
  · show c₂.store.auth.credentials = _
    rw [insertScope_ok hscope, hc₁]
    rfl
  · show c₂.store.auth.onboardingTickets = _
    rw [insertScope_ok hscope, hc₁]
    rfl

/-! ### Rotation -/

/-- The identity of a delivered credential. -/
def DeliveredCredential.key (d : DeliveredCredential) : CredentialKey :=
  ⟨d.credentialId, d.callerId, d.libraryId⟩

omit [Platform] in
theorem markCredentialRotated_ok {credential : Credential} {replacementId : Id} {rotatedAt : ℤ}
    {found : Credential}
    (h : markCredentialRotated credential replacementId rotatedAt c = .ok (some found, c')) :
    c'.store.library = c.store.library ∧ c'.store.auth.callers = c.store.auth.callers ∧
      c'.store.auth.credentials = c.store.auth.credentials.map (fun k =>
        if k.isUsable credential then k.rotate replacementId rotatedAt else k) ∧
      c'.store.auth.credentialLibraryPolicies = c.store.auth.credentialLibraryPolicies ∧
      c'.store.auth.credentialLibraryGrants = c.store.auth.credentialLibraryGrants := by
  simp only [markCredentialRotated, updateCredentials, deleteAgentTokenValue, bind_ok, query_ok,
    constraint_ok, modifyStore_ok, pure_ok, Fallible.pure_ok, and_assoc, exists_and_left,
    exists_eq_left', exists_const] at h
  obtain ⟨-, -, h⟩ := h
  split at h
  · simp only [bind_ok, query_ok, modifyStore_ok, Fallible.pure_ok, exists_eq_left',
      exists_const] at h
    obtain ⟨-, rfl⟩ := h
    exact ⟨rfl, rfl, rfl, rfl, rfl⟩
  · cases (pure_ok.mp h).1

/-- What a rotation finds and writes: the new credential `k` takes over the scope
of the credential `old`, which is retired. -/
structure Rotates (key : CredentialKey) (now : ℤ) (d : DeliveredCredential) (caller : Caller)
    (old k : Credential) (scope : CredentialLibraryScope) (s t : Store) : Prop where
  found : ActiveAgent key now caller old s
  stored : getCredentialLibraryScope key s = some scope
  replacement : k.key = d.key ∧ d.key = ⟨k.id, key.callerId, key.homeLibraryId⟩
  active : k.IsActive now
  fresh : ∀ k' ∈ s.auth.credentials, k'.id ≠ k.id
  library : t.library = s.library
  callers : t.auth.callers = s.auth.callers
  credentials : t.auth.credentials = (s.auth.credentials ++ [k]).map fun k' =>
    if k'.isUsable old then k'.rotate k.id now else k'
  policies : t.auth.credentialLibraryPolicies = s.auth.credentialLibraryPolicies ++
    [⟨k.id, key.callerId, key.homeLibraryId, .libraryGrants, scope.readMode, scope.writeMode, 0⟩]
  grants : t.auth.credentialLibraryGrants = s.auth.credentialLibraryGrants ++
    ((listCredentialLibrarySelections key s).flatMap fun e => e.actions.map (e.libraryId, ·)).map
      (selectionRow d.key)

/-- **A rotation copies the modes and the selections of an active credential, and
retires it.** -/
theorem rotateAgentCredentialAsMaster_ok {session : MasterAdminSession} {time : ℤ}
    {key : CredentialKey} {lifetime : MasterCredentialLifetime} {now : ℤ} {auditId : Id}
    {d : DeliveredCredential}
    (h : rotateAgentCredentialAsMaster session time key lifetime now entropy auditId c =
      .ok (d, c')) :
    ∃ caller old k scope, k.id = entropy.credentialId ∧
      Rotates key now d caller old k scope c.store c'.store := by
  unfold rotateAgentCredentialAsMaster at h
  obtain ⟨_, _, hsession, h⟩ := bind_ok.mp h
  obtain ⟨-, rfl⟩ := requireMasterSession_ok.mp hsession
  obtain ⟨⟨caller, old⟩, _, hadmit, h⟩ := bind_ok.mp h
  obtain ⟨hfound, rfl⟩ := activeAgentCredential_ok hadmit
  obtain ⟨scope, _, hread, h⟩ := bind_ok.mp h
  obtain ⟨hscope, rfl⟩ := requireScope_ok.mp hread
  simp only [query_bind, addMasterSuccess, bind_ok, attempt_ok, orThrow_ok, pure_ok, and_assoc,
    exists_and_left, exists_eq_left'] at h
  obtain ⟨expiresAt, -, issued, c₁, hissue, _, c₂, hinsert, _, c₃, hmark, _, rfl, _, c₄, haudit,
    rfl, rfl⟩ := h
  obtain ⟨hissued, hfresh, hc₁⟩ := issueCredential_ok hfound.agent hissue
  have hc₂ := insertScope_ok hinsert
  obtain ⟨hlibrary, hcallers, hcredentials, hpolicies, hgrants⟩ := markCredentialRotated_ok hmark
  obtain ⟨-, rfl⟩ := insertMasterAuditEvent_ok.mp haudit
  have hcaller : caller.libraryId = key.homeLibraryId ∧ caller.id = key.callerId := by
    simpa using List.find?_some hfound.caller
  have hkey := hissued.key
  rw [hcaller.1, hcaller.2] at hkey
  refine ⟨caller, old, issued.credential, scope, congrArg CredentialKey.credentialId hkey, hfound,
    hscope, ⟨?_, rfl⟩, ?_, hfresh, ?_, ?_, ?_, ?_, ?_⟩
  · rw [hkey]
    show _ = (⟨issued.credential.key.credentialId, _, _⟩ : CredentialKey)
    rw [hkey]
  · exact ⟨hissued.active.1, hissued.active.2, hissued.times.1.le, by
      rw [hissued.times.2]
      exact hissued.unexpired⟩
  · show c₃.store.library = _
    rw [hlibrary, hc₂, hc₁]
    rfl
  · show c₃.store.auth.callers = _
    rw [hcallers, hc₂, hc₁]
    rfl
  · show c₃.store.auth.credentials = _
    rw [hcredentials, hc₂, hc₁]
    rfl
  · show c₃.store.auth.credentialLibraryPolicies = _
    rw [hpolicies, hc₂, hc₁]
    rfl
  · show c₃.store.auth.credentialLibraryGrants = _
    rw [hgrants, hc₂, hc₁]
    rfl

end

end PatchouliLib
