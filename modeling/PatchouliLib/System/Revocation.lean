import PatchouliLib.System.Access

/-!
# Revoking a credential

A revocation reads its clock before it waits for the write lock, and stamps the
row with that reading.  A use of the credential that was noted in between has a
later time, and then the constraints of the row refuse the revocation.  When the
clock reading is not behind the row, the revocation commits, and no token of the
credential is accepted ever after.

## Main definitions

* `Revocation` — a request of the administrator or of an operator.
* `Revocation.InTime` — the clock reading is not behind the creation of the
  credential nor behind its last noted use.
* `Refused` — no authentication with the credential succeeds any more.

## Main results

* `checks_revoke_iff` — when the constraints accept the revoked row.
* `verifyToken_of_revoked` — a token of a retired credential is refused.
* `revocation_settles_iff` — **a revocation commits and settles the credential
  exactly when it is in time.**
-/

namespace PatchouliLib

open Foundation

/-! ### The revoked row -/

/-- The constraints accept the revoked row exactly when the clock is not behind
it. -/
theorem checks_revoke_iff {c : Credential} (h : c.Checks) (hrotated : c.rotatedAt = none) {now : ℤ} :
    (c.revoke now).Checks ↔ c.createdAt ≤ now ∧ ∀ u ∈ c.lastUsedAt, u ≤ now := by
  constructor
  · intro hrow
    exact ⟨hrow.created.2, fun u hu => (hrow.lastUsed u hu).2.2⟩
  · rintro ⟨hcreated, hused⟩
    exact
      { id := h.id
        selector := h.selector
        tokenVersion := h.tokenVersion
        created := ⟨h.created.1, hcreated⟩
        expires := h.expires
        lastUsed := fun u hu => ⟨(h.lastUsed u hu).1, (h.lastUsed u hu).2.1, hused u hu⟩
        revoked := fun r hr => by
          obtain rfl := Option.some_inj.mp hr
          exact ⟨hcreated, le_rfl⟩
        rotated := fun r hr => absurd hr (by simp [Credential.revoke, hrotated])
        rotation := by
          rcases h.rotation with hnone | ⟨hsome, -⟩
          · exact .inl hnone
          · simp [hrotated] at hsome
        rotationTarget := h.rotationTarget }

section

variable {c : Credential} {now : ℤ} {conn : Connection} {p : Credential → Bool}
  {set : Credential → Credential}

/-- An UPDATE of one row. -/
theorem updateCredentials_row (set : Credential → Credential)
    (hrows : conn.store.auth.credentials.filter p = [c])
    (hchecks : (set c).Checks) (htarget : (set c).rotatedToCredentialId = none) :
    ∃ conn', updateCredentials p set conn = .ok (1, conn') ∧
      conn'.store.auth.credentials =
        conn.store.auth.credentials.map (fun k => if p k then set k else k) ∧
      conn'.store.audit = conn.store.audit := by
  have hrun : ∃ conn', updateCredentials p set conn = .ok (1, conn') := by
    simp only [updateCredentials, bind_ok, query_ok, constraint_ok, modifyStore_ok, pure_ok,
      Fallible.pure_ok, exists_eq_left', and_assoc, exists_and_left, exists_const, hrows,
      List.mem_singleton, forall_eq, htarget, Option.mem_def, reduceCtorEq, IsEmpty.forall_iff,
      implies_true, true_and, List.length_singleton]
    exact ⟨hchecks, _, rfl⟩
  obtain ⟨conn', hrun⟩ := hrun
  refine ⟨conn', hrun, ?_⟩
  simp only [updateCredentials, bind_ok, query_ok, constraint_ok, modifyStore_ok, pure_ok,
    Fallible.pure_ok, exists_eq_left', and_assoc, exists_and_left, exists_const] at hrun
  obtain ⟨-, -, -, rfl⟩ := hrun
  exact ⟨rfl, rfl⟩

theorem updateCredentials_error (hrows : conn.store.auth.credentials.filter p = [c])
    (hchecks : ¬(set c).Checks) : updateCredentials p set conn = .error .integrity := by
  unfold updateCredentials
  rw [query_bind, hrows]
  refine bind_error (constraint_error fun h => hchecks ?_)
  exact h c (List.mem_singleton.mpr rfl)

/-- The rows that are usable as an active row of a sound table. -/
theorem AuthSound.filter_isUsable (hs : AuthSound conn.store)
    (hc : c ∈ conn.store.auth.credentials) (hactive : c.revokedAt = none ∧ c.rotatedAt = none) :
    conn.store.auth.credentials.filter (·.isUsable c) = [c] := by
  refine hs.credentials.filter_eq_singleton hc ?_ fun d hd husable => hs.eq_of_isUsable hc hd husable
  simp [Credential.isUsable, hactive]

theorem revokeCredential_run (hs : AuthSound conn.store) (hc : c ∈ conn.store.auth.credentials)
    (hactive : c.revokedAt = none ∧ c.rotatedAt = none) (hchecks : (c.revoke now).Checks) :
    ∃ conn', revokeCredential c now conn = .ok (some (c.revoke now), conn') ∧
      c.revoke now ∈ conn'.store.auth.credentials ∧ conn'.store.audit = conn.store.audit := by
  have htarget : (c.revoke now).rotatedToCredentialId = none := by
    rcases (hs.credentialChecks c hc).rotation with h | h
    · exact h.2
    · simp [hactive] at h
  obtain ⟨conn₁, hupdate, hrows, haudit⟩ :=
    updateCredentials_row (·.revoke now) (hs.filter_isUsable hc hactive) hchecks htarget
  have husable : c.isUsable c = true := by simp [Credential.isUsable, hactive]
  have hmem : c.revoke now ∈ conn₁.store.auth.credentials := by
    rw [hrows]
    exact List.mem_map.mpr ⟨c, hc, by rw [if_pos husable]⟩
  have hsound : AuthSound conn₁.store := by
    refine (advances_updateCredentials (fun k _ => ?_) _ _ _ hupdate).sound hs
    exact ⟨rfl, rfl, rfl, rfl, fun _ => by simp [Credential.revoke], fun h => h⟩
  have hfound : getCredential c.key conn₁.store = some (c.revoke now) :=
    hsound.getCredential_eq.mpr ⟨hmem, rfl⟩
  refine ⟨{ conn₁ with store := conn₁.store.modifyAuth (·.forgetValues fun id => id = c.id) },
    ?_, hmem, haudit⟩
  unfold revokeCredential
  rw [bind_run hupdate, if_pos rfl]
  rw [← hfound]
  rfl

theorem revokeCredential_error (hs : AuthSound conn.store) (hc : c ∈ conn.store.auth.credentials)
    (hactive : c.revokedAt = none ∧ c.rotatedAt = none) (hchecks : ¬(c.revoke now).Checks) :
    revokeCredential c now conn = .error .integrity := by
  unfold revokeCredential
  exact bind_error (updateCredentials_error (hs.filter_isUsable hc hactive) hchecks)

end

section

variable [Platform]

/-! ### Requests -/

/-- A request to revoke the credential of an agent. -/
inductive Revocation where
  | asMaster (session : MasterAdminSession) (time : ℤ) (key : CredentialKey) (now : ℤ)
      (auditId : Id)
  | asOperator (request : RevokeAgentCredential) (requestId : Text) (now : ℤ) (auditId : Id)

namespace Revocation

def op : Revocation → AccessOperation
  | asMaster session time key now auditId =>
    .revokeAgentCredentialAsMaster session time key now auditId
  | asOperator request requestId now auditId =>
    .revokeAgentCredential request requestId now auditId

/-- The clock reading of the request. -/
def now : Revocation → ℤ
  | asMaster _ _ _ now _ => now
  | asOperator _ _ now _ => now

/-- What a revocation answers. -/
def answer : Revocation → AccessAnswer
  | asMaster _ _ _ _ _ => .changed true
  | asOperator _ _ _ _ => .done

/-- The Library that an operator names. -/
def library (request : RevokeAgentCredential) (s : Store) : Option Library :=
  s.library.libraries.find? (·.name = request.libraryName)

/-- The session is current, or the token is that of an operator of the Library. -/
def Admitted : Revocation → Store → Prop
  | asMaster session time _ _ _, s =>
    time < session.expiresAt ∧ isSessionGenerationCurrent session s = true
  | asOperator request _ now _, s =>
    ∃ a l, verifyToken request.operatorToken now s = .ok a ∧ library request s = some l ∧
      a.caller.libraryId = l.id ∧ a.caller.kind = .operator

/-- The request names this credential. -/
def Names (c : Credential) (s : Store) : Revocation → Prop
  | asMaster _ _ key _ _ => key = c.key
  | asOperator request _ _ _ => ∃ l, library request s = some l ∧
      c.key = ⟨request.credentialId, request.callerId, l.id⟩

/-- The random identifier of the audit row is new. -/
def AuditFresh (s : Store) : Revocation → Prop
  | asMaster _ _ _ _ auditId => ∀ a ∈ s.audit.masterAuditEvents, a.id ≠ auditId
  | asOperator _ _ _ auditId => ∀ a ∈ s.audit.authAuditEvents, a.id ≠ auditId

/-- The clock reading is not behind the creation of the credential nor behind its
last noted use. -/
def InTime (r : Revocation) (c : Credential) : Prop :=
  c.createdAt ≤ r.now ∧ ∀ u ∈ c.lastUsedAt, u ≤ r.now

end Revocation

/-- The row is that of an agent's credential which is neither revoked nor
rotated. -/
structure ActiveAgentRow (c : Credential) (s : Store) : Prop where
  mem : c ∈ s.auth.credentials
  agent : ∃ k, getCaller c.libraryId c.callerId s = some k ∧ k.kind = .agent
  active : c.revokedAt = none ∧ c.rotatedAt = none

/-! ### The two requests -/

variable {c : Credential} {now : ℤ}

omit [Platform] in
theorem revokeAgentCredentialAsMaster_eq {conn : Connection} (hs : AuthSound conn.store)
    (hc : ActiveAgentRow c conn.store) {session : MasterAdminSession} {time : ℤ} {auditId : Id}
    (hadmitted : time < session.expiresAt ∧ isSessionGenerationCurrent session conn.store = true) :
    revokeAgentCredentialAsMaster session time c.key now auditId conn =
      (do
        let revoked ← revokeCredential c now
        require (revoked.any (·.revokedAt = some now) = true) .credentialLifecycle
        addMasterSuccess session auditId "auth.agent_credential.revoke" "credential" c.id now
        pure true : Write Bool) conn := by
  obtain ⟨k, hcaller, hagent⟩ := hc.agent
  have hsession : requireMasterSession session time conn = .ok (⟨⟩, conn) := by
    rw [requireMasterSession, query_bind]
    exact require_run hadmitted _ _
  have hcurrent : agentCredential c.key conn = .ok ((k, c), conn) := by
    have hcaller' : getCaller c.key.homeLibraryId c.key.callerId conn.store = some k := hcaller
    have hcredential : getCredential c.key conn.store = some c :=
      hs.getCredential_eq.mpr ⟨hc.mem, rfl⟩
    rw [agentCredential, query_bind, query_bind, hcaller', hcredential]
    simp only [Option.filter_some, hagent, decide_true, if_true]
    rfl
  unfold revokeAgentCredentialAsMaster
  rw [bind_run hsession, bind_run hcurrent]
  simp only [hc.active, ne_eq, not_true_eq_false, or_self, if_false]
  rfl

omit [Platform] in
/-- An audit row with a new identifier is written. -/
theorem insertMasterAuditEvent_run {a : MasterAuditEvent} {conn : Connection}
    (h : ∀ a' ∈ conn.store.audit.masterAuditEvents, a'.id ≠ a.id) :
    ∃ conn', insertMasterAuditEvent a conn = .ok (⟨⟩, conn') ∧ conn'.store.auth = conn.store.auth :=
  ⟨_, insertMasterAuditEvent_ok.mpr ⟨h, rfl⟩, rfl⟩

omit [Platform] in
theorem insertAuditEvent_run {a : AuditEvent} {conn : Connection}
    (h : ∀ a' ∈ conn.store.audit.authAuditEvents, a'.id ≠ a.id) :
    ∃ conn', insertAuditEvent a conn = .ok (⟨⟩, conn') ∧ conn'.store.auth = conn.store.auth :=
  ⟨_, insertAuditEvent_ok.mpr ⟨h, rfl⟩, rfl⟩

/-- The use that an authentication notes is that of one row. -/
theorem authenticate_run {tokenValue : Text} {conn : Connection} {a : AuthenticatedCaller}
    (h : verifyToken tokenValue now conn.store = .ok a) :
    ∃ a' conn', authenticate tokenValue now conn = .ok (a', conn') ∧ a'.caller = a.caller ∧
      conn'.store.audit = conn.store.audit ∧
      ∀ k ∈ conn.store.auth.credentials, k.id ≠ a.credential.id → k ∈ conn'.store.auth.credentials := by
  have hquery : query (verifyToken tokenValue now) conn = .ok (a, conn) := query_ok.mpr ⟨h, rfl⟩
  by_cases hdue : a.credential.touchDue now = true
  · refine ⟨{ a with credential := a.credential.touch now },
      { conn with store := conn.store.touchCredentialLastUsed a.credential now }, ?_, rfl, rfl, ?_⟩
    · unfold authenticate
      rw [bind_run hquery, if_pos hdue]
      rfl
    · intro k hk hne
      have hnot : ¬k.isUsable a.credential = true := by simp [Credential.isUsable, hne]
      exact List.mem_map.mpr ⟨k, hk, by rw [if_neg hnot]⟩
  · refine ⟨a, conn, ?_, rfl, rfl, fun k hk _ => hk⟩
    unfold authenticate
    rw [bind_run hquery, if_neg hdue]
    rfl

/-- The row of the audit of an operator's revocation. -/
def operatorRevocationAudit (actor : AuthenticatedCaller) (c : Credential) (requestId : Text)
    (now : ℤ) (auditId : Id) : AuditEvent :=
  { id := auditId, libraryId := actor.caller.libraryId
    actorHomeLibraryId := actor.caller.libraryId, actorCallerId := actor.caller.id
    actorCredentialId := actor.credential.id, sectionId := none, sectionAction := none
    action := "auth.credential.revoke", resourceType := "credential"
    resourceId := c.id, requestId := requestId, policyVersionBefore := none
    policyVersionAfter := none, occurredAt := now }

theorem operatorRevokeCredential_eq (conn : Connection) (hs : AuthSound conn.store)
    (hc : ActiveAgentRow c conn.store) {a : AuthenticatedCaller} {actorToken : Text}
    (hverify : verifyToken actorToken now conn.store = .ok a)
    (hlibrary : a.caller.libraryId = c.libraryId) (hoperator : a.caller.kind = .operator)
    (requestId : Text) (auditId : Id) :
    ∃ actor conn₁, AuthSound conn₁.store ∧ c ∈ conn₁.store.auth.credentials ∧
      conn₁.store.audit = conn.store.audit ∧
      operatorRevokeCredential actorToken c.key requestId now auditId conn =
        (do
          let revoked ← revokeCredential c now
          let revoked ← orThrow revoked .credentialLifecycle
          insertAuditEvent (operatorRevocationAudit actor c requestId now auditId)
          pure revoked : Write Credential) conn₁ := by
  obtain ⟨actor, conn₁, hauth, hcaller, haudit, hkept⟩ := authenticate_run hverify
  have hs₁ : AuthSound conn₁.store := (advances_authenticate _ _ _ _ _ hauth).sound hs
  have hc₁ : c ∈ conn₁.store.auth.credentials := by
    -- the operator's own credential has another caller
    refine hkept c hc.mem fun hid => ?_
    obtain ⟨hmem, hactor, -⟩ := verifyToken_ok hverify
    obtain ⟨k, hagent, hkind⟩ := hc.agent
    rw [hs.credentials.eq_of_key hc.mem hmem hid, hactor, Option.some_inj] at hagent
    rw [← hagent, hoperator] at hkind
    cases hkind
  have hrequire : requireOperator actorToken c.key.homeLibraryId now conn = .ok (actor, conn₁) := by
    unfold requireOperator
    rw [bind_run hauth, require_bind (by rw [hcaller]; exact ⟨hlibrary, hoperator⟩)]
    rfl
  refine ⟨actor, conn₁, hs₁, hc₁, haudit, ?_⟩
  have hcredential : getCredential c.key conn₁.store = some c :=
    hs₁.getCredential_eq.mpr ⟨hc₁, rfl⟩
  unfold operatorRevokeCredential
  rw [bind_run hrequire, query_bind, hcredential, orThrow_bind]
  simp only [hc.active, ne_eq, not_true_eq_false, or_self, if_false]
  rfl

/-! ### The outcome of a request -/

/-- **The body of an admitted request ends with the revoked row, or the
constraints refuse it.** -/
theorem Revocation.body_eq {r : Revocation} {s : Store} (hs : AuthSound s)
    (hadmitted : r.Admitted s) (hnames : r.Names c s) (hc : ActiveAgentRow c s)
    (hfresh : r.AuditFresh s) :
    (r.InTime c → ∃ conn', r.op.body ⟨s, []⟩ = .ok (r.answer, conn') ∧
      c.revoke r.now ∈ conn'.store.auth.credentials) ∧
    (¬r.InTime c → r.op.body ⟨s, []⟩ = .error .integrity) := by
  have hchecks : (c.revoke r.now).Checks ↔ r.InTime c :=
    checks_revoke_iff (hs.credentialChecks c hc.mem) hc.active.2
  cases r with
  | asMaster session time key now auditId =>
    obtain rfl : key = c.key := hnames
    have heq : revokeAgentCredentialAsMaster session time c.key now auditId ⟨s, []⟩ = _ :=
      revokeAgentCredentialAsMaster_eq hs hc hadmitted
    refine ⟨fun hin => ?_, fun hnot => ?_⟩
    · obtain ⟨conn₁, hrevoke, hmem, haudit⟩ : ∃ conn₁ : Connection,
          revokeCredential c now ⟨s, []⟩ = .ok (some (c.revoke now), conn₁) ∧
            c.revoke now ∈ conn₁.store.auth.credentials ∧ conn₁.store.audit = s.audit :=
        revokeCredential_run hs hc.mem hc.active (hchecks.mpr hin)
      obtain ⟨conn₂, haudited, hauth⟩ : ∃ conn₂, addMasterSuccess session auditId
          "auth.agent_credential.revoke" "credential" c.id now conn₁ = .ok (⟨⟩, conn₂) ∧
            conn₂.store.auth = conn₁.store.auth :=
        insertMasterAuditEvent_run (by rw [haudit]; exact hfresh)
      refine ⟨conn₂, accessAnswer_ok.mpr ⟨true, ?_, rfl⟩, ?_⟩
      · rw [heq, bind_run hrevoke, require_bind (by simp [Credential.revoke]), bind_run haudited]
        rfl
      · rw [hauth]
        exact hmem
    · refine bind_error ?_
      rw [heq]
      exact bind_error (revokeCredential_error hs hc.mem hc.active fun h => hnot (hchecks.mp h))
  | asOperator request requestId now auditId =>
    change (c.revoke now).Checks ↔ _ at hchecks
    obtain ⟨a, l, hverify, hlibrary, howner, hoperator⟩ := hadmitted
    obtain ⟨l', hlibrary', hkey⟩ := hnames
    obtain rfl : l = l' := Option.some_inj.mp (hlibrary.symm.trans hlibrary')
    have hid : c.libraryId = l.id := congrArg CredentialKey.homeLibraryId hkey
    have hcallerId : c.callerId = request.callerId := congrArg CredentialKey.callerId hkey
    obtain ⟨actor, conn₁, hs₁, hc₁, haudit, heq⟩ := operatorRevokeCredential_eq ⟨s, []⟩ hs hc hverify
      (howner.trans hid.symm) hoperator requestId auditId
    obtain ⟨k, hagent, hkind⟩ := hc.agent
    rw [hid, hcallerId] at hagent
    -- the lookups before the operator's service is called
    have hcalled : PatchouliLib.revokeAgentCredential request requestId now auditId ⟨s, []⟩ =
        (do
          let _ ← operatorRevokeCredential request.operatorToken c.key requestId now auditId
          pure ⟨⟩ : Write PUnit) ⟨s, []⟩ := by
      have hfound : s.library.libraries.find? (·.name = request.libraryName) = some l := hlibrary
      unfold PatchouliLib.revokeAgentCredential
      rw [query_bind, hfound, orThrow_bind, query_bind, hagent, hkey]
      simp only [Option.filter_some, hkind, decide_true, if_true]
      rfl
    refine ⟨fun hin => ?_, fun hnot => ?_⟩
    · obtain ⟨conn₂, hrevoke, hmem, haudit₂⟩ :=
        revokeCredential_run hs₁ hc₁ hc.active (hchecks.mpr hin)
      obtain ⟨conn₃, haudited, hauth⟩ : ∃ conn₃,
          insertAuditEvent (operatorRevocationAudit actor c requestId now auditId) conn₂ =
            .ok (⟨⟩, conn₃) ∧ conn₃.store.auth = conn₂.store.auth :=
        insertAuditEvent_run (by rw [haudit₂, haudit]; exact hfresh)
      refine ⟨conn₃, accessAnswer_ok.mpr ⟨⟨⟩, ?_, rfl⟩, ?_⟩
      · have hoperated : operatorRevokeCredential request.operatorToken c.key requestId now auditId
            ⟨s, []⟩ = .ok (c.revoke now, conn₃) := by
          rw [heq, bind_run hrevoke, orThrow_bind, bind_run haudited]
          rfl
        rw [hcalled, bind_run hoperated]
        rfl
      · rw [hauth]
        exact hmem
    · refine bind_error ?_
      rw [hcalled]
      refine bind_error ?_
      rw [heq]
      exact bind_error (revokeCredential_error hs₁ hc₁ hc.active fun h => hnot (hchecks.mp h))

/-! ### Afterwards -/

/-- The token names the credential. -/
def IsTokenOf (tokenValue : Text) (c : Credential) : Prop :=
  ∃ parsed, parseToken tokenValue = some parsed ∧ parsed.selector = c.selector

/-- No authentication with the credential succeeds any more. -/
def Refused (c : Credential) (db : Db) : Prop :=
  ∀ events db', AccessTrace db events db' → ∀ tokenValue now, IsTokenOf tokenValue c →
    (AccessOperation.authenticate tokenValue now).commit db' = (.error .authentication, db')

/-- A token of a retired credential is refused. -/
theorem verifyToken_of_revoked {s : Store} (hs : AuthSound s) {d : Credential}
    (hd : d ∈ s.auth.credentials) (hrevoked : d.revokedAt ≠ none) {tokenValue : Text}
    (htoken : IsTokenOf tokenValue d) (now : ℤ) :
    verifyToken tokenValue now s = .error .authentication := by
  cases h : verifyToken tokenValue now s with
  | error e => rw [verifyToken_raises tokenValue now s e h]
  | ok a =>
    obtain ⟨parsed, hparsed, hselector⟩ := htoken
    obtain ⟨hmem, -, -, hactive, parsed', hparsed', hselector'⟩ := verifyToken_ok h
    rw [hparsed, Option.some_inj] at hparsed'
    rw [← hparsed', hselector] at hselector'
    -- the selector is unique, so the verified row is the retired one
    obtain rfl := hs.selectors.eq_of_key hmem hd hselector'
    exact absurd hactive.1 hrevoked

/-- A revoked row stays revoked along every run. -/
theorem refused_of_revoked {db : Db} (hs : AccessSound db)
    (hmem : c.revoke now ∈ db.store.auth.credentials) : Refused c db := by
  intro events db' htrace tokenValue now' htoken
  obtain ⟨d, hd, hevolves⟩ := htrace.grows.credentials.exists_of_mem hmem
  have hrevoked : d.revokedAt ≠ none := hevolves.revoked (by simp [Credential.revoke])
  have htoken' : IsTokenOf tokenValue d := by
    obtain ⟨parsed, hparsed, hselector⟩ := htoken
    exact ⟨parsed, hparsed, hselector.trans hevolves.selector.symm⟩
  refine AccessOperation.commit_of_error (bind_error (bind_error ?_))
  have hverify := verifyToken_of_revoked (hs.trace htrace).auth hd hrevoked htoken' now'
  simp only [query, hverify]

/-- **A revocation commits and settles the credential exactly when it is in
time.** -/
theorem revocation_settles_iff {events : List AccessEvent} {db : Db} (h : AccessRun events db)
    {r : Revocation} {c : Credential} (hadmitted : r.Admitted db.store)
    (hnames : r.Names c db.store) (hc : ActiveAgentRow c db.store)
    (hfresh : r.AuditFresh db.store) :
    ((r.op.commit db).1 = .ok r.answer ∧ Refused c (r.op.commit db).2) ↔ r.InTime c := by
  obtain ⟨hrun, hfail⟩ := Revocation.body_eq h.sound.auth hadmitted hnames hc hfresh
  constructor
  · rintro ⟨hcommit, -⟩
    by_contra hnot
    rw [AccessOperation.commit_of_error (hfail hnot)] at hcommit
    cases hcommit
  · intro hin
    obtain ⟨conn', hbody, hmem⟩ := hrun hin
    have hcommit := AccessOperation.commit_of_ok h.sound hbody
    have hsound : AccessSound (r.op.commit db).2 := h.sound.step (.access r.op db)
    rw [hcommit] at hsound ⊢
    exact ⟨rfl, refused_of_revoked hsound hmem⟩

end

/-! ### A use that comes in between -/

section Sample

attribute [local instance] asciiPlatform

def sampleAgentCaller : Caller :=
  ⟨sampleIdOf 'd', sampleHomeLibrary.id, .agent, "Reader", "", 1, 0, 0, none⟩

/-- The credential, as its use has left it. -/
def sampleAgentCredential : Credential :=
  { id := sampleIdOf 'e', libraryId := sampleHomeLibrary.id, callerId := sampleIdOf 'd'
    selector := "AAAAAAAAAAAAAAAAAAAAAA", tokenVersion := 1
    verifier := verifierDomain ++ List.replicate 48 0, expiresAt := none, createdAt := 0
    updatedAt := 400000000, lastUsedAt := some 400000000, revokedAt := none, rotatedAt := none
    rotatedToCredentialId := none }

theorem sampleAgentCredential_active : ActiveAgentRow sampleAgentCredential sampleUsed.store where
  mem := by decide +kernel
  agent := ⟨sampleAgentCaller, by decide +kernel, rfl⟩
  active := ⟨rfl, rfl⟩

/-- A revocation that has read its clock at `now`. -/
def sampleRevocation (now : ℤ) : Revocation :=
  .asMaster sampleMasterSession 0 sampleCredentialKey now (sampleIdOf '3')

theorem sampleRevocation_admitted (now : ℤ) :
    (sampleRevocation now).Admitted sampleUsed.store ∧
      (sampleRevocation now).AuditFresh sampleUsed.store := by
  have hstate : (isSessionGenerationCurrent sampleMasterSession sampleUsed.store = true) ∧
      ∀ a ∈ sampleUsed.store.audit.masterAuditEvents, a.id ≠ sampleIdOf '3' := by
    decide +kernel
  exact ⟨⟨by decide, hstate.1⟩, hstate.2⟩

/-- The revocation has read its clock just before the credential was used, and the
constraints refuse it. -/
theorem revocation_refused_sampleUsed :
    AccessRun (sampleRedeemedEvents ++ [.access sampleUse (sampleUse.commit sampleRedeemed).1])
        sampleUsed ∧
      (sampleRevocation 399999999).Admitted sampleUsed.store ∧
      (sampleRevocation 399999999).Names sampleAgentCredential sampleUsed.store ∧
      ActiveAgentRow sampleAgentCredential sampleUsed.store ∧
      (sampleRevocation 399999999).AuditFresh sampleUsed.store ∧
      ((sampleRevocation 399999999).op.commit sampleUsed).1 = .error .integrity := by
  obtain ⟨hadmitted, hfresh⟩ := sampleRevocation_admitted 399999999
  exact ⟨sampleUsedRun, hadmitted, rfl, sampleAgentCredential_active, hfresh, by decide +kernel⟩

/-- A revocation that has read its clock after the use settles the credential. -/
theorem revocation_settles_sampleUsed :
    ((sampleRevocation 400000001).op.commit sampleUsed).1 = .ok (.changed true) ∧
      Refused sampleAgentCredential ((sampleRevocation 400000001).op.commit sampleUsed).2 := by
  obtain ⟨hadmitted, hfresh⟩ := sampleRevocation_admitted 400000001
  have hnames : (sampleRevocation 400000001).Names sampleAgentCredential sampleUsed.store := rfl
  exact (revocation_settles_iff sampleUsedRun hadmitted hnames sampleAgentCredential_active
    hfresh).mpr ⟨by decide, by decide⟩

end Sample

end PatchouliLib
