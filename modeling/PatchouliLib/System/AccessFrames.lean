import PatchouliLib.Auth.Onboarding
import PatchouliLib.Admin.MasterToken
import PatchouliLib.Storage.AuthFrames
import PatchouliLib.System.Operations

/-!
# Frames of the access operations

An operation on callers, credentials, policies, tickets and the master identity
is a chain of few statements.  What the statements keep, the operations keep.  A
relation may single out the credentials whose policies it allows to change and
the tickets it allows to come; then an operation keeps it when the operation is
on others.

## Main definitions

* `TablesFrame P T S` — the statements, as changes of the access tables, keep `S`.
* `Aside S` — the access tables change as `S` allows, and no Page is marked.

## Main results

* `AuthFrame.keeps_redeem`, `AuthFrame.keeps_setAgentScopeAsMaster`, … — every
  access operation keeps what its statements keep.
* `TablesFrame.authFrame` — what the statements keep in the access tables.
* `Aside.elsewhere` — the access services are among the rest of the application.
-/

namespace PatchouliLib

open Foundation

/-! ### The issue of a credential -/

section

variable [Platform]

theorem addAgentCredentialWithValue_ok {credential k : Credential} {tokenValue : Text}
    {c c' : Connection} (h : addAgentCredentialWithValue credential tokenValue c = .ok (k, c')) :
    k = credential ∧ ∃ w w' c₁, insertCredential credential c = .ok (w, c₁) ∧
      insertAgentTokenValue ⟨credential.id, tokenValue⟩ c₁ = .ok (w', c') := by
  simp only [addAgentCredentialWithValue, bind_ok, pure_ok, orThrow_ok, require_ok, and_assoc,
    exists_and_left, exists_eq_left', exists_const] at h
  obtain ⟨_, -, -, -, -, w, c₁, hinsert, w', _, hvalue, rfl, rfl⟩ := h
  exact ⟨rfl, w, w', c₁, hinsert, hvalue⟩

/-- The credential of an issue has the identifier it was handed. -/
theorem issueCredential_id {caller : Caller} {expiresAt : Option ℤ} {createdAt : ℤ}
    {entropy : IssueEntropy} {c c' : Connection} {issued : IssuedCredential}
    (h : issueCredential caller expiresAt createdAt entropy c = .ok (issued, c')) :
    issued.credential.id = entropy.credentialId := by
  simp only [issueCredential, bind_ok, require_ok, orThrow_ok, and_assoc, exists_and_left,
    exists_eq_left', exists_const] at h
  obtain ⟨-, -, -, token, -, h⟩ := h
  cases hkind : caller.kind with
  | agent =>
    simp only [hkind, bind_ok, pure_ok] at h
    obtain ⟨_, _, hadd, rfl, -⟩ := h
    rw [(addAgentCredentialWithValue_ok hadd).1]
  | operator =>
    simp only [hkind, bind_ok, pure_ok] at h
    obtain ⟨_, _, -, rfl, -⟩ := h
    rfl

end

namespace AuthFrame

variable {P T : Id → Prop} {R : Connection → Connection → Prop}

/-! ### Sessions and lookups -/

theorem keeps_requireMasterSession (hR : AuthFrame P T R) (session : MasterAdminSession) (time : ℤ) :
    Keeps R (requireMasterSession session time) :=
  hR.bind (hR.query _) fun _ => hR.require _ _

theorem keeps_addMasterSuccess (hR : AuthFrame P T R) (session : MasterAdminSession) (eventId : Id)
    (action targetType targetId : Text) (occurredAt : ℤ) :
    Keeps R (addMasterSuccess session eventId action targetType targetId occurredAt) :=
  hR.insertMasterAuditEvent _

theorem keeps_requireLibraries (hR : AuthFrame P T R) (selections : List Selection) :
    Keeps R (requireLibraries selections) :=
  hR.bind (hR.query _) fun _ => hR.require _ _

theorem keeps_agentCredential (hR : AuthFrame P T R) (key : CredentialKey) :
    Keeps R (agentCredential key) := by
  refine hR.bind (hR.query _) fun _ => hR.bind (hR.query _) fun _ => ?_
  exact hR.bind (hR.orThrow _ _) fun _ => hR.bind (hR.orThrow _ _) fun _ => hR.pure _

theorem keeps_activeAgentCredential (hR : AuthFrame P T R) (key : CredentialKey) (now : ℤ) :
    Keeps R (activeAgentCredential key now) :=
  hR.bind (hR.keeps_agentCredential _) fun _ => hR.bind (hR.require _ _) fun _ => hR.pure _

theorem keeps_requireScope (hR : AuthFrame P T R) (key : CredentialKey) (e : Err) :
    Keeps R (requireScope key e) :=
  hR.bind (hR.query _) fun _ => hR.orThrow _ _

/-! ### Credentials -/

theorem keeps_insertSelections (hR : AuthFrame P T R) {owner : CredentialKey}
    (howner : P owner.credentialId) (selections : List Selection) :
    Keeps R (insertSelections owner selections) :=
  .forEach hR.toIsFrame (fun _ => hR.insertCredentialLibraryGrant _ howner) _

theorem keeps_insertScope (hR : AuthFrame P T R) {owner : CredentialKey}
    (howner : P owner.credentialId) (readMode writeMode : AccessMode)
    (selections : List Selection) : Keeps R (insertScope owner readMode writeMode selections) :=
  hR.bind (hR.insertCredentialLibraryPolicy _ howner) fun _ =>
    hR.keeps_insertSelections howner _

theorem keeps_revokeCredential (hR : AuthFrame P T R) (credential : Credential) (revokedAt : ℤ) :
    Keeps R (revokeCredential credential revokedAt) := by
  refine hR.bind (hR.updateCredentials fun c _ => ?_) fun matched => ?_
  · exact ⟨rfl, rfl, rfl, rfl, fun _ => by simp [Credential.revoke], fun h => h⟩
  · split
    · exact hR.bind (hR.deleteAgentTokenValue _) fun _ => hR.query _
    · exact hR.query _

theorem keeps_markCredentialRotated (hR : AuthFrame P T R) (credential : Credential)
    (replacementId : Id) (rotatedAt : ℤ) :
    Keeps R (markCredentialRotated credential replacementId rotatedAt) := by
  refine hR.bind (hR.updateCredentials fun c _ => ?_) fun matched => ?_
  · exact ⟨rfl, rfl, rfl, rfl, fun _ => by simp [Credential.rotate],
      fun _ => by simp [Credential.rotate]⟩
  · split
    · exact hR.bind (hR.deleteAgentTokenValue _) fun _ => hR.query _
    · exact hR.pure _

theorem keeps_disableCaller (hR : AuthFrame P T R) (libraryId callerId : Id) (disabledAt : ℤ) :
    Keeps R (disableCaller libraryId callerId disabledAt) :=
  hR.bind (hR.updateCallerDisabled _ _ _) fun _ => hR.query _

variable [Platform]

theorem keeps_requireOperator (hR : AuthFrame P T R) (tokenValue : Text) (libraryId : Id) (now : ℤ) :
    Keeps R (requireOperator tokenValue libraryId now) :=
  hR.bind (hR.authenticate _ _) fun _ => hR.bind (hR.require _ _) fun _ => hR.pure _

theorem keeps_addAgentCredentialWithValue (hR : AuthFrame P T R) (credential : Credential)
    (tokenValue : Text) : Keeps R (addAgentCredentialWithValue credential tokenValue) := by
  refine hR.bind (hR.orThrow _ _) fun _ => hR.bind (hR.require _ _) fun _ => ?_
  refine hR.bind (hR.insertCredential _) fun _ => ?_
  exact hR.bind (hR.insertAgentTokenValue _) fun _ => hR.pure _

theorem keeps_issueCredential (hR : AuthFrame P T R) (caller : Caller) (expiresAt : Option ℤ)
    (createdAt : ℤ) (entropy : IssueEntropy) :
    Keeps R (issueCredential caller expiresAt createdAt entropy) := by
  refine hR.bind (hR.require _ _) fun _ => hR.bind (hR.require _ _) fun _ => ?_
  refine hR.bind (hR.require _ _) fun _ => hR.bind (hR.orThrow _ _) fun issued => ?_
  cases caller.kind with
  | agent => exact hR.bind (hR.keeps_addAgentCredentialWithValue _ _) fun _ => hR.pure _
  | operator => exact hR.bind (hR.insertCredential _) fun _ => hR.pure _

/-! ### The master identity and its tickets -/

theorem keeps_initializeMaster (hR : AuthFrame P T R) (token : Text) (salt : Bytes)
    (identityId : Id) (now : ℤ) : Keeps R (initializeMaster token salt identityId now) := by
  refine hR.bind (hR.require _ _) fun _ => hR.bind (hR.attempt _) fun _ => ?_
  refine hR.bind (hR.require _ _) fun _ => hR.bind (hR.query _) fun _ => ?_
  refine hR.bind (hR.require _ _) fun _ => hR.bind (hR.insertMasterIdentity _) fun _ => ?_
  exact hR.pure _

theorem keeps_replaceToken (hR : AuthFrame P T R) (stored : MasterIdentity) (newToken : Text)
    (salt : Bytes) (now : ℤ) : Keeps R (replaceToken stored newToken salt now) := by
  refine hR.bind (hR.require _ _) fun _ => hR.bind (hR.require _ _) fun _ => ?_
  refine hR.bind (hR.require _ _) fun _ => hR.bind (hR.attempt _) fun _ => ?_
  exact hR.bind (hR.updateMasterIdentity ⟨rfl, Nat.le_succ _⟩) fun _ => hR.pure _

theorem keeps_rotateMasterToken (hR : AuthFrame P T R) (oldToken newToken : Text) (salt : Bytes)
    (now : ℤ) : Keeps R (rotateMasterToken oldToken newToken salt now) := by
  refine hR.bind (hR.query _) fun stored => ?_
  cases stored with
  | none => exact hR.pure _
  | some stored =>
    dsimp only
    split
    · exact hR.keeps_replaceToken _ _ _ _
    · exact hR.pure _

theorem keeps_recoverMasterToken (hR : AuthFrame P T R) (newToken : Text) (salt : Bytes) (now : ℤ) :
    Keeps R (recoverMasterToken newToken salt now) := by
  refine hR.bind (hR.query _) fun stored => ?_
  cases stored with
  | none => exact hR.pure _
  | some stored => exact hR.keeps_replaceToken _ _ _ _

theorem keeps_createTicket (hR : AuthFrame P T R) (session : MasterAdminSession) (code : Text)
    {ticketId : Id} (hticket : T ticketId) (now : ℤ) (auditId : Id) :
    Keeps R (createTicket session code ticketId now auditId) := by
  refine hR.bind (hR.query _) fun _ => hR.bind (hR.require _ _) fun _ => ?_
  refine hR.bind (hR.insertOnboardingTicket _ hticket) fun _ => ?_
  exact hR.bind (hR.keeps_addMasterSuccess _ _ _ _ _ _) fun _ => hR.pure _

theorem keeps_admitTicket (hR : AuthFrame P T R) (code : Text) (now : ℤ) :
    Keeps R (admitTicket code now) := by
  refine hR.bind (hR.require _ _) fun _ => hR.bind (hR.query _) fun _ => ?_
  refine hR.bind (hR.orThrow _ _) fun _ => hR.bind (hR.query _) fun _ => ?_
  exact hR.bind (hR.require _ _) fun _ => hR.pure _

/-! ### Agents -/

theorem keeps_provisionAgentInTransaction (hR : AuthFrame P T R) (request : MasterProvisionAgent)
    (now : ℤ) (identityId : Id) (sessionGeneration : ℕ) (sessionFingerprint : Bytes)
    {entropy : ProvisionEntropy} (hid : P entropy.issue.credentialId) :
    Keeps R (provisionAgentInTransaction request now identityId sessionGeneration
      sessionFingerprint entropy) := by
  refine hR.bind (hR.query _) fun _ => hR.bind (hR.orThrow _ _) fun home => ?_
  refine hR.bind (hR.query _) fun _ => hR.bind (hR.require _ _) fun _ => ?_
  refine hR.bind (hR.keeps_requireLibraries _) fun _ => hR.bind (hR.insertCaller _) fun _ => ?_
  refine hR.bind (hR.attempt _) fun _ => ?_
  intro c result c' h
  obtain ⟨issued, c₁, hissue, h⟩ := bind_ok.mp h
  have howner : P issued.credential.key.credentialId := by
    have hissued := issueCredential_id hissue
    rw [← hissued] at hid
    exact hid
  refine hR.trans (hR.keeps_issueCredential _ _ _ _ _ _ _ hissue) ?_
  refine hR.bind (hR.keeps_insertScope howner _ _ _) (fun _ => ?_) _ _ _ h
  exact hR.bind (hR.insertMasterAuditEvent _) fun _ => hR.pure _

theorem keeps_provisionAgentAsMaster (hR : AuthFrame P T R) (session : MasterAdminSession)
    (time : ℤ) (request : MasterProvisionAgent) (now : ℤ) {entropy : ProvisionEntropy}
    (hid : P entropy.issue.credentialId) :
    Keeps R (provisionAgentAsMaster session time request now entropy) :=
  hR.bind (hR.keeps_requireMasterSession _ _) fun _ =>
    hR.keeps_provisionAgentInTransaction _ _ _ _ _ hid

theorem keeps_redeem (hR : AuthFrame P T R) (code : Text) (request : MasterProvisionAgent)
    (now : ℤ) {entropy : ProvisionEntropy} (hid : P entropy.issue.credentialId) :
    Keeps R (redeem code request now entropy) := by
  refine hR.bind (hR.keeps_admitTicket _ _) fun ticket => ?_
  refine hR.bind (hR.keeps_provisionAgentInTransaction _ _ _ _ _ hid) fun result => ?_
  exact hR.bind (hR.consumeOnboardingTicket _ _ _) fun _ => hR.pure _

theorem keeps_rotateAgentCredentialAsMaster (hR : AuthFrame P T R) (session : MasterAdminSession)
    (time : ℤ) (key : CredentialKey) (lifetime : MasterCredentialLifetime) (now : ℤ)
    {entropy : IssueEntropy} (hid : P entropy.credentialId) (auditId : Id) :
    Keeps R (rotateAgentCredentialAsMaster session time key lifetime now entropy auditId) := by
  refine hR.bind (hR.keeps_requireMasterSession _ _) fun _ => ?_
  refine hR.bind (hR.keeps_activeAgentCredential _ _) fun current => ?_
  refine hR.bind (hR.keeps_requireScope _ _) fun scope => ?_
  refine hR.bind (hR.query _) fun _ => hR.bind (hR.attempt _) fun _ => ?_
  intro c result c' h
  obtain ⟨replacement, c₁, hissue, h⟩ := bind_ok.mp h
  have howner : P (⟨replacement.credential.id, key.callerId, key.homeLibraryId⟩ :
      CredentialKey).credentialId := by
    rw [issueCredential_id hissue]
    exact hid
  refine hR.trans (hR.keeps_issueCredential _ _ _ _ _ _ _ hissue) ?_
  refine hR.bind (hR.keeps_insertScope howner _ _ _) (fun _ => ?_) _ _ _ h
  refine hR.bind (hR.keeps_markCredentialRotated _ _ _) fun _ => ?_
  refine hR.bind (hR.orThrow _ _) fun _ => ?_
  exact hR.bind (hR.keeps_addMasterSuccess _ _ _ _ _ _) fun _ => hR.pure _

omit [Platform] in
theorem keeps_setAgentScopeAsMaster (hR : AuthFrame P T R) (session : MasterAdminSession)
    (time : ℤ) {key : CredentialKey} (hkey : P key.credentialId)
    (request : MasterSetAgentLibraryScope) (now : ℤ) (auditId : Id) :
    Keeps R (setAgentScopeAsMaster session time key request now auditId) := by
  refine hR.bind (hR.keeps_requireMasterSession _ _) fun _ => ?_
  refine hR.bind (hR.keeps_activeAgentCredential _ _) fun _ => ?_
  refine hR.bind (hR.keeps_requireScope _ _) fun scope => ?_
  refine hR.bind (hR.require _ _) fun _ => hR.bind (hR.keeps_requireLibraries _) fun _ => ?_
  split
  · exact hR.pure _
  · refine hR.bind (hR.updateCredentialLibraryPolicies _ _ hkey) fun _ => ?_
    refine hR.bind (hR.deleteCredentialLibraryGrants _ fun g hg => ?_) fun _ => ?_
    · rw [of_decide_eq_true hg]
      exact hkey
    · refine hR.bind (hR.keeps_insertSelections hkey _) fun _ => ?_
      exact hR.bind (hR.keeps_addMasterSuccess _ _ _ _ _ _) fun _ => hR.pure _

omit [Platform] in
theorem keeps_replaceActions (hR : AuthFrame P T R) {key : CredentialKey} (hkey : P key.credentialId)
    (targetLibraryId : Id) (existing desired : ActionSet) :
    Keeps R (replaceActions key targetLibraryId existing desired) := by
  refine hR.bind (.forEach hR.toIsFrame (fun action => ?_) _) fun _ => ?_
  · refine hR.deleteCredentialLibraryGrants _ fun g hg => ?_
    have howner : g.owner = key := by
      simp only [Bool.and_eq_true, decide_eq_true_eq] at hg
      exact hg.1.1
    rw [← howner] at hkey
    exact hkey
  · exact hR.keeps_insertSelections hkey _

theorem keeps_setAgentGrantsAsMaster (hR : AuthFrame P T R) (session : MasterAdminSession)
    (time : ℤ) {key : CredentialKey} (hkey : P key.credentialId) (targetLibraryId : Id)
    (request : MasterSetAgentLibraryGrants) (now : ℤ) (auditId : Id) :
    Keeps R (setAgentGrantsAsMaster session time key targetLibraryId request now auditId) := by
  refine hR.bind (hR.keeps_requireMasterSession _ _) fun _ => ?_
  refine hR.bind (hR.keeps_activeAgentCredential _ _) fun _ => ?_
  refine hR.bind (hR.keeps_requireScope _ _) fun scope => hR.bind (hR.require _ _) fun _ => ?_
  refine hR.bind (hR.query _) fun _ => hR.bind (hR.require _ _) fun _ => ?_
  refine hR.bind (hR.query _) fun _ => hR.bind (hR.require _ _) fun _ => ?_
  refine hR.bind (hR.query _) fun _ => hR.bind (hR.query _) fun _ => ?_
  refine hR.bind (hR.require _ _) fun _ => ?_
  split
  · exact hR.pure _
  · refine hR.bind (hR.keeps_replaceActions hkey _ _ _) fun _ => ?_
    refine hR.bind (hR.updateCredentialLibraryPolicies _ _ hkey) fun _ => ?_
    exact hR.bind (hR.keeps_addMasterSuccess _ _ _ _ _ _) fun _ => hR.pure _

omit [Platform] in
theorem keeps_revokeAgentCredentialAsMaster (hR : AuthFrame P T R) (session : MasterAdminSession)
    (time : ℤ) (key : CredentialKey) (now : ℤ) (auditId : Id) :
    Keeps R (revokeAgentCredentialAsMaster session time key now auditId) := by
  refine hR.bind (hR.keeps_requireMasterSession _ _) fun _ => ?_
  refine hR.bind (hR.keeps_agentCredential _) fun current => ?_
  dsimp only
  split
  · exact hR.pure _
  · refine hR.bind (hR.keeps_revokeCredential _ _) fun _ => hR.bind (hR.require _ _) fun _ => ?_
    exact hR.bind (hR.keeps_addMasterSuccess _ _ _ _ _ _) fun _ => hR.pure _

theorem keeps_operatorRevokeCredential (hR : AuthFrame P T R) (actorToken : Text)
    (key : CredentialKey) (requestId : Text) (now : ℤ) (auditId : Id) :
    Keeps R (operatorRevokeCredential actorToken key requestId now auditId) := by
  refine hR.bind (hR.keeps_requireOperator _ _ _) fun actor => ?_
  refine hR.bind (hR.query _) fun _ => hR.bind (hR.orThrow _ _) fun current => ?_
  split
  · exact hR.pure _
  · refine hR.bind (hR.keeps_revokeCredential _ _) fun _ => hR.bind (hR.orThrow _ _) fun _ => ?_
    exact hR.bind (hR.insertAuditEvent _ rfl) fun _ => hR.pure _

theorem keeps_revokeAgentCredential (hR : AuthFrame P T R) (request : RevokeAgentCredential)
    (requestId : Text) (now : ℤ) (auditId : Id) :
    Keeps R (revokeAgentCredential request requestId now auditId) := by
  refine hR.bind (hR.query _) fun _ => hR.bind (hR.orThrow _ _) fun _ => ?_
  refine hR.bind (hR.query _) fun _ => hR.bind (hR.orThrow _ _) fun _ => ?_
  exact hR.bind (hR.keeps_operatorRevokeCredential _ _ _ _ _) fun _ => hR.pure _

omit [Platform] in
theorem keeps_disableAgentAsMaster (hR : AuthFrame P T R) (session : MasterAdminSession) (time : ℤ)
    (libraryId callerId : Id) (clock : ℤ) (auditId : Id) :
    Keeps R (disableAgentAsMaster session time libraryId callerId clock auditId) := by
  refine hR.bind (hR.keeps_requireMasterSession _ _) fun _ => ?_
  refine hR.bind (hR.query _) fun _ => hR.bind (hR.orThrow _ _) fun caller => ?_
  split
  · exact hR.pure _
  · refine hR.bind (hR.keeps_disableCaller _ _ _) fun _ => hR.bind (hR.require _ _) fun _ => ?_
    exact hR.bind (hR.keeps_addMasterSuccess _ _ _ _ _ _) fun _ => hR.pure _

end AuthFrame

/-! ### Relations on the access tables -/

/-- The statements of the access services, as changes of the access tables, keep
`S`. -/
structure TablesFrame (P T : Id → Prop) (S : AuthTables → AuthTables → Prop) : Prop where
  refl : ∀ t, S t t
  trans : ∀ {t u v}, S t u → S u v → S t v
  callers : ∀ (t : AuthTables) rows, S t { t with callers := rows }
  insertCredential : ∀ (t : AuthTables) k, (∀ k' ∈ t.credentials, k'.id ≠ k.id) →
    S t { t with credentials := t.credentials ++ [k] }
  updateCredentials : ∀ (t : AuthTables) f, (∀ k : Credential, k.Evolves (f k)) →
    S t { t with credentials := t.credentials.map f }
  agentTokenValues : ∀ (t : AuthTables) rows, S t { t with agentTokenValues := rows }
  insertPolicy : ∀ (t : AuthTables) p, P p.credentialId →
    S t { t with credentialLibraryPolicies := t.credentialLibraryPolicies ++ [p] }
  updatePolicies : ∀ (t : AuthTables) f,
    (∀ p ∈ t.credentialLibraryPolicies, f p = p ∨ P p.credentialId ∧ (f p).owner = p.owner) →
      S t { t with credentialLibraryPolicies := t.credentialLibraryPolicies.map f }
  insertGrant : ∀ (t : AuthTables) g, P g.credentialId →
    S t { t with credentialLibraryGrants := t.credentialLibraryGrants ++ [g] }
  deleteGrants : ∀ (t : AuthTables) (p : CredentialLibraryGrant → Bool),
    (∀ g, p g = true → P g.credentialId) →
    S t { t with credentialLibraryGrants := t.credentialLibraryGrants.filter fun g => !p g }
  masterIdentity : ∀ (t : AuthTables) m, S t { t with masterIdentity := m }
  insertTicket : ∀ (t : AuthTables) x, T x.id →
    S t { t with onboardingTickets := t.onboardingTickets ++ [x] }
  updateTickets : ∀ (t : AuthTables) f, (∀ x : OnboardingTicket, (f x).id = x.id) →
    S t { t with onboardingTickets := t.onboardingTickets.map f }

/-- A transaction of the access services marks no Page, changes the access tables
as `S` allows and adds audit rows. -/
structure Aside (S : AuthTables → AuthTables → Prop) (c c' : Connection) : Prop where
  dirtied : c'.dirtied = c.dirtied
  library : c'.store.library = c.store.library
  content : c'.store.content = c.store.content
  history : c'.store.history = c.store.history
  receipts : c'.store.receipts = c.store.receipts
  auth : S c.store.auth c'.store.auth
  masterAudits : c.store.audit.masterAuditEvents <+: c'.store.audit.masterAuditEvents
  authAudits : ∃ added, c'.store.audit.authAuditEvents = c.store.audit.authAuditEvents ++ added ∧
    ∀ a ∈ added, ¬a.IsLibraryLifecycle ∧ ∀ a' ∈ c.store.audit.authAuditEvents, a'.id ≠ a.id

theorem Aside.of_auth {S : AuthTables → AuthTables → Prop} (c : Connection)
    {f : AuthTables → AuthTables} (hf : S c.store.auth (f c.store.auth)) :
    Aside S c { c with store := c.store.modifyAuth f } :=
  ⟨rfl, rfl, rfl, rfl, rfl, hf, List.prefix_rfl, [], (List.append_nil _).symm,
    fun _ h => absurd h List.not_mem_nil⟩

theorem Aside.modifyAuth {S : AuthTables → AuthTables → Prop} {f : AuthTables → AuthTables}
    (hf : ∀ t, S t (f t)) : Keeps (Aside S) (modifyStore (.modifyAuth f)) :=
  .writes fun c => .of_auth c (hf _)

namespace TablesFrame

variable {P T : Id → Prop} {S : AuthTables → AuthTables → Prop}

theorem isFrame (hS : TablesFrame P T S) : IsFrame (Aside S) where
  refl c := Aside.of_auth (f := id) c (hS.refl _)
  trans {c d e} h h' := by
    obtain ⟨added, hadded, hnew⟩ := h.authAudits
    obtain ⟨added', hadded', hnew'⟩ := h'.authAudits
    refine
      { dirtied := h'.dirtied.trans h.dirtied
        library := h'.library.trans h.library
        content := h'.content.trans h.content
        history := h'.history.trans h.history
        receipts := h'.receipts.trans h.receipts
        auth := hS.trans h.auth h'.auth
        masterAudits := h.masterAudits.trans h'.masterAudits
        authAudits := ⟨added ++ added', ?_, fun a ha => ?_⟩ }
    · rw [hadded', hadded, List.append_assoc]
    · rcases List.mem_append.mp ha with ha | ha
      · exact hnew a ha
      · refine ⟨(hnew' a ha).1, fun a' ha' => (hnew' a ha).2 a' ?_⟩
        rw [hadded]
        exact List.mem_append_left _ ha'

theorem keeps_forgetValues (hS : TablesFrame P T S) (p : AuthTables → Id → Bool) :
    Keeps (Aside S) (modifyStore (.modifyAuth fun t => t.forgetValues (p t))) :=
  Aside.modifyAuth fun t => hS.agentTokenValues t _

theorem keeps_authenticate [Platform] (hS : TablesFrame P T S) (tokenValue : Text) (now : ℤ) :
    Keeps (Aside S) (authenticate tokenValue now) := by
  refine hS.isFrame.bind (hS.isFrame.query _) fun a => ?_
  split
  · refine hS.isFrame.bind (.writes fun c => Aside.of_auth c ?_) fun _ => hS.isFrame.pure _
    refine hS.updateCredentials _ _ fun k => ?_
    split
    · exact k.evolves_touch now
    · exact .refl k
  · exact hS.isFrame.pure _

theorem keeps_updateCallerDisabled (hS : TablesFrame P T S) (libraryId callerId : Id)
    (disabledAt : ℤ) : Keeps (Aside S) (updateCallerDisabled libraryId callerId disabledAt) := by
  refine hS.isFrame.bind (hS.isFrame.constraint _) fun _ => ?_
  refine hS.isFrame.bind (hS.isFrame.query _) fun matched => ?_
  split
  · refine hS.isFrame.bind (Aside.modifyAuth fun t => hS.callers t _) fun _ => ?_
    exact hS.keeps_forgetValues _
  · exact hS.isFrame.pure _

theorem keeps_insertCredential (hS : TablesFrame P T S) (k : Credential) :
    Keeps (Aside S) (PatchouliLib.insertCredential k) := by
  intro c w c' h
  simp only [PatchouliLib.insertCredential, bind_ok, constraint_ok, modifyStore_ok, and_assoc,
    exists_and_left, exists_eq_left', exists_const] at h
  obtain ⟨-, -, -, hkeys, rfl⟩ := h
  exact Aside.of_auth c (hS.insertCredential _ k fun k' hk' => (hkeys k' hk').1)

theorem keeps_updateCredentials (hS : TablesFrame P T S) {p : Credential → Bool}
    {set : Credential → Credential} (hset : ∀ k, p k = true → k.Evolves (set k)) :
    Keeps (Aside S) (PatchouliLib.updateCredentials p set) := by
  refine hS.isFrame.bind (hS.isFrame.query _) fun rows => ?_
  refine hS.isFrame.bind (hS.isFrame.constraint _) fun _ => ?_
  refine hS.isFrame.bind (hS.isFrame.constraint _) fun _ => ?_
  refine hS.isFrame.bind (Aside.modifyAuth fun t => hS.updateCredentials t _ fun k => ?_) fun _ => ?_
  · split
    · next hp => exact hset k hp
    · exact .refl k
  · exact hS.isFrame.bind (hS.keeps_forgetValues _) fun _ => hS.isFrame.pure _

theorem keeps_updateCredentialLibraryPolicies (hS : TablesFrame P T S) {credentialId : Id}
    (hid : P credentialId) (set : CredentialLibraryPolicy → CredentialLibraryPolicy) :
    Keeps (Aside S) (updateCredentialLibraryPolicies credentialId set) := by
  intro c w c' h
  simp only [updateCredentialLibraryPolicies, bind_ok, constraint_ok, modifyStore_ok, and_assoc,
    exists_and_left, exists_eq_left', exists_const] at h
  obtain ⟨hallowed, rfl⟩ := h
  refine Aside.of_auth c (hS.updatePolicies _ _ fun p hp => ?_)
  split
  · next hrow =>
    rw [← hrow] at hid
    exact .inr ⟨hid, (hallowed p hp hrow).1⟩
  · exact .inl rfl

theorem keeps_updateMasterIdentity (hS : TablesFrame P T S) (stored new : MasterIdentity) :
    Keeps (Aside S) (updateMasterIdentity stored new) := by
  refine hS.isFrame.bind (hS.isFrame.query _) fun current => ?_
  split
  · refine hS.isFrame.bind (hS.isFrame.constraint _) fun _ => ?_
    refine hS.isFrame.bind (Aside.modifyAuth fun t => hS.masterIdentity t _) fun _ => ?_
    exact hS.isFrame.pure _
  · exact hS.isFrame.pure _

theorem keeps_insertMasterAuditEvent (hS : TablesFrame P T S) (a : MasterAuditEvent) :
    Keeps (Aside S) (insertMasterAuditEvent a) := by
  intro c w c' h
  obtain ⟨-, rfl⟩ := insertMasterAuditEvent_ok.mp h
  exact { hS.isFrame.refl c with masterAudits := List.prefix_append _ _ }

theorem keeps_insertAuditEvent (hS : TablesFrame P T S) {a : AuditEvent}
    (ha : ¬a.IsLibraryLifecycle) : Keeps (Aside S) (insertAuditEvent a) := by
  intro c w c' h
  obtain ⟨hnew, rfl⟩ := insertAuditEvent_ok.mp h
  refine { hS.isFrame.refl c with authAudits := ⟨[a], rfl, fun a' ha' => ?_⟩ }
  rw [List.mem_singleton.mp ha']
  exact ⟨ha, hnew⟩

/-- **What the statements keep in the access tables, they keep at the side of
everything else.** -/
theorem authFrame (hS : TablesFrame P T S) : AuthFrame P T (Aside S) where
  toIsFrame := hS.isFrame
  authenticate := hS.keeps_authenticate
  insertCaller k := by
    refine hS.isFrame.bind (hS.isFrame.constraint _) fun _ => ?_
    refine hS.isFrame.bind (hS.isFrame.constraint _) fun _ => ?_
    exact Aside.modifyAuth fun t => hS.callers t _
  updateCallerDisabled := hS.keeps_updateCallerDisabled
  insertCredential := hS.keeps_insertCredential
  updateCredentials := hS.keeps_updateCredentials
  insertAgentTokenValue v := by
    refine hS.isFrame.bind (hS.isFrame.constraint _) fun _ => ?_
    refine hS.isFrame.bind (hS.isFrame.constraint _) fun _ => ?_
    exact Aside.modifyAuth fun t => hS.agentTokenValues t _
  deleteAgentTokenValue _ := hS.keeps_forgetValues _
  insertCredentialLibraryPolicy p hp := by
    refine hS.isFrame.bind (hS.isFrame.constraint _) fun _ => ?_
    refine hS.isFrame.bind (hS.isFrame.constraint _) fun _ => ?_
    exact Aside.modifyAuth fun t => hS.insertPolicy t p hp
  updateCredentialLibraryPolicies _ set hid := hS.keeps_updateCredentialLibraryPolicies hid set
  insertCredentialLibraryGrant g hg := by
    refine hS.isFrame.bind (hS.isFrame.constraint _) fun _ => ?_
    refine hS.isFrame.bind (hS.isFrame.constraint _) fun _ => ?_
    exact Aside.modifyAuth fun t => hS.insertGrant t g hg
  deleteCredentialLibraryGrants p hp := Aside.modifyAuth fun t => hS.deleteGrants t p hp
  insertMasterIdentity m := by
    refine hS.isFrame.bind (hS.isFrame.constraint _) fun _ => ?_
    exact Aside.modifyAuth fun t => hS.masterIdentity t _
  updateMasterIdentity _ := hS.keeps_updateMasterIdentity _ _
  insertOnboardingTicket t ht := by
    refine hS.isFrame.bind (hS.isFrame.constraint _) fun _ => ?_
    refine hS.isFrame.bind (hS.isFrame.constraint _) fun _ => ?_
    exact Aside.modifyAuth fun a => hS.insertTicket a t ht
  consumeOnboardingTicket id consumedAt credentialId := by
    refine hS.isFrame.bind (hS.isFrame.constraint _) fun _ => ?_
    refine Aside.modifyAuth fun a => hS.updateTickets a _ fun t => ?_
    split <;> rfl
  insertMasterAuditEvent := hS.keeps_insertMasterAuditEvent
  insertAuditEvent a ha := by
    refine hS.keeps_insertAuditEvent fun h => ?_
    rcases h with h | h
    · exact absurd (ha.symm.trans h) (by decide)
    · exact absurd (ha.symm.trans h) (by decide)

end TablesFrame

/-- The credentials keep their place and their identity, new ones have a new
identifier. -/
structure SameCredentials (t u : AuthTables) : Prop where
  identity : t.credentials.map Credential.identity <+: u.credentials.map Credential.identity
  ids : (t.credentials.map (·.id)).Nodup → (u.credentials.map (·.id)).Nodup

theorem SameCredentials.of_eq {t u : AuthTables} (h : u.credentials = t.credentials) :
    SameCredentials t u where
  identity := by rw [h]
  ids hids := by rwa [h]

theorem SameCredentials.tablesFrame {P T : Id → Prop} : TablesFrame P T SameCredentials where
  refl _ := .of_eq rfl
  trans h h' := ⟨h.identity.trans h'.identity, fun hids => h'.ids (h.ids hids)⟩
  callers _ _ := .of_eq rfl
  insertCredential t k hk := by
    refine ⟨?_, fun hids => ?_⟩
    · rw [List.map_append]
      exact List.prefix_append _ _
    · have hkeyed : Keyed (fun k : Credential => k.id) t.credentials := hids
      exact hkeyed.concat hk
  updateCredentials t f hf := by
    have hid : ∀ k ∈ t.credentials, (f k).id = k.id := fun k _ =>
      congrArg CredentialKey.credentialId (hf k).key
    have hidentity : (t.credentials.map f).map Credential.identity =
        t.credentials.map Credential.identity := by
      rw [List.map_map]
      refine List.map_congr_left fun k _ => ?_
      have hkey := (hf k).key
      simp only [Credential.key, CredentialKey.mk.injEq] at hkey
      simp [Credential.identity, hkey]
    refine ⟨?_, fun hids => ?_⟩
    · rw [hidentity]
    · have hkeyed : Keyed (fun k : Credential => k.id) t.credentials := hids
      exact hkeyed.map hid
  agentTokenValues _ _ := .of_eq rfl
  insertPolicy _ _ _ := .of_eq rfl
  updatePolicies _ _ _ := .of_eq rfl
  insertGrant _ _ _ := .of_eq rfl
  deleteGrants _ _ _ := .of_eq rfl
  masterIdentity _ _ := .of_eq rfl
  insertTicket _ _ _ := .of_eq rfl
  updateTickets _ _ _ := .of_eq rfl

/-- **The access services are among the rest of the application.** -/
theorem Aside.elsewhere {c c' : Connection} (h : Aside SameCredentials c c') : ElsewhereOn c c' where
  content := h.content
  history := h.history
  books l x b hb := by
    unfold Store.hasBook at hb ⊢
    rwa [h.library]
  idempotencyRecords := by
    rw [h.receipts]
  masterAudits := h.masterAudits
  authAudits := h.authAudits
  credentials := h.auth.identity
  credentialIds := h.auth.ids

end PatchouliLib
