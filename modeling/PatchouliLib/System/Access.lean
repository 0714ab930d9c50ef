import PatchouliLib.Foundation.Trace
import PatchouliLib.System.AccessFrames

/-!
# Runs of the access services

Administrators, operators and agents call the access services in any order, each
in one immediate transaction, while Pages are written, the search index is
rebuilt and the rest of the application adds Libraries, callers and credentials.
A run is the list of what was called and answered.

## Main definitions

* `AccessOperation` — an operation on callers, credentials, policies, tickets or
  the master identity, with its clock readings and random identifiers.
* `AccessElsewhere s t` — what the other transactions may do to the access tables.
* `AccessStep`, `AccessRun` — the steps and the runs, with their events.

## Main results

* `AccessStep.step` — a run of the access services is a run of the system.
* `AccessStep.cases` — **a step changes nothing, or it is an operation whose body
  has succeeded, or it leaves the policies and the tickets alone.**
* `AccessRun.sound` — the constraints hold in every state of a run.
* `AccessOperation.commit_of_ok` — a body that succeeds is committed.
-/

namespace PatchouliLib

open Foundation

section

variable [Platform]

/-! ### Operations -/

/-- An access operation, as it was called. -/
inductive AccessOperation where
  | authenticate (tokenValue : Text) (now : ℤ)
  | initializeMaster (token : Text) (salt : Bytes) (identityId : Id) (now : ℤ)
  | rotateMasterToken (oldToken newToken : Text) (salt : Bytes) (now : ℤ)
  | recoverMasterToken (newToken : Text) (salt : Bytes) (now : ℤ)
  | createTicket (session : MasterAdminSession) (code : Text) (ticketId : Id) (now : ℤ)
      (auditId : Id)
  | redeem (code : Text) (request : MasterProvisionAgent) (now : ℤ) (entropy : ProvisionEntropy)
  | provisionAgentAsMaster (session : MasterAdminSession) (time : ℤ)
      (request : MasterProvisionAgent) (now : ℤ) (entropy : ProvisionEntropy)
  | rotateAgentCredentialAsMaster (session : MasterAdminSession) (time : ℤ) (key : CredentialKey)
      (lifetime : MasterCredentialLifetime) (now : ℤ) (entropy : IssueEntropy) (auditId : Id)
  | setAgentScopeAsMaster (session : MasterAdminSession) (time : ℤ) (key : CredentialKey)
      (request : MasterSetAgentLibraryScope) (now : ℤ) (auditId : Id)
  | setAgentGrantsAsMaster (session : MasterAdminSession) (time : ℤ) (key : CredentialKey)
      (targetLibraryId : Id) (request : MasterSetAgentLibraryGrants) (now : ℤ) (auditId : Id)
  | revokeAgentCredentialAsMaster (session : MasterAdminSession) (time : ℤ) (key : CredentialKey)
      (now : ℤ) (auditId : Id)
  | revokeAgentCredential (request : RevokeAgentCredential) (requestId : Text) (now : ℤ)
      (auditId : Id)
  | disableAgentAsMaster (session : MasterAdminSession) (time : ℤ) (libraryId callerId : Id)
      (clock : ℤ) (auditId : Id)

/-- What an access operation answers. -/
inductive AccessAnswer where
  | caller (a : AuthenticatedCaller)
  | identity (state : Option MasterTokenState)
  | ticket (t : DeliveredTicket)
  | credential (d : DeliveredCredential)
  | changed (changed : Bool)
  | done
deriving DecidableEq

/-- Answer with the result of a body. -/
def accessAnswer {α : Type} (f : α → AccessAnswer) (x : Write α) : Write AccessAnswer := do
  let a ← x
  pure (f a)

/-- The body of an access operation. -/
def AccessOperation.body : AccessOperation → Write AccessAnswer
  | authenticate tokenValue now => accessAnswer .caller (PatchouliLib.authenticate tokenValue now)
  | initializeMaster token salt identityId now =>
    accessAnswer (fun state => .identity (some state))
      (PatchouliLib.initializeMaster token salt identityId now)
  | rotateMasterToken oldToken newToken salt now =>
    accessAnswer .identity (PatchouliLib.rotateMasterToken oldToken newToken salt now)
  | recoverMasterToken newToken salt now =>
    accessAnswer .identity (PatchouliLib.recoverMasterToken newToken salt now)
  | createTicket session code ticketId now auditId =>
    accessAnswer .ticket (PatchouliLib.createTicket session code ticketId now auditId)
  | redeem code request now entropy =>
    accessAnswer .credential (PatchouliLib.redeem code request now entropy)
  | provisionAgentAsMaster session time request now entropy =>
    accessAnswer .credential (PatchouliLib.provisionAgentAsMaster session time request now entropy)
  | rotateAgentCredentialAsMaster session time key lifetime now entropy auditId =>
    accessAnswer .credential
      (PatchouliLib.rotateAgentCredentialAsMaster session time key lifetime now entropy auditId)
  | setAgentScopeAsMaster session time key request now auditId =>
    accessAnswer .changed (PatchouliLib.setAgentScopeAsMaster session time key request now auditId)
  | setAgentGrantsAsMaster session time key targetLibraryId request now auditId =>
    accessAnswer .changed
      (PatchouliLib.setAgentGrantsAsMaster session time key targetLibraryId request now auditId)
  | revokeAgentCredentialAsMaster session time key now auditId =>
    accessAnswer .changed (PatchouliLib.revokeAgentCredentialAsMaster session time key now auditId)
  | revokeAgentCredential request requestId now auditId =>
    accessAnswer (fun _ => .done) (PatchouliLib.revokeAgentCredential request requestId now auditId)
  | disableAgentAsMaster session time libraryId callerId clock auditId =>
    accessAnswer .changed
      (PatchouliLib.disableAgentAsMaster session time libraryId callerId clock auditId)

/-- The transaction of an access operation. -/
def AccessOperation.commit (op : AccessOperation) (db : Db) : Except Err AccessAnswer × Db :=
  immediateTransaction op.body db

omit [Platform] in
theorem accessAnswer_ok {α : Type} {f : α → AccessAnswer} {x : Write α} {c c' : Connection}
    {r : AccessAnswer} : accessAnswer f x c = .ok (r, c') ↔ ∃ a, x c = .ok (a, c') ∧ f a = r := by
  unfold accessAnswer
  rw [bind_ok]
  constructor
  · rintro ⟨a, c₁, hx, hpure⟩
    obtain ⟨rfl, rfl⟩ := pure_ok.mp hpure
    exact ⟨a, hx, rfl⟩
  · rintro ⟨a, hx, rfl⟩
    exact ⟨a, c', hx, pure_ok.mpr ⟨rfl, rfl⟩⟩

/-! ### What an operation keeps -/

/-- The credential whose policy an operation may write. -/
def AccessOperation.policyTarget : AccessOperation → Option Id
  | redeem _ _ _ entropy => some entropy.issue.credentialId
  | provisionAgentAsMaster _ _ _ _ entropy => some entropy.issue.credentialId
  | rotateAgentCredentialAsMaster _ _ _ _ _ entropy _ => some entropy.credentialId
  | setAgentScopeAsMaster _ _ key _ _ _ => some key.credentialId
  | setAgentGrantsAsMaster _ _ key _ _ _ _ => some key.credentialId
  | _ => none

/-- The ticket an operation may bring. -/
def AccessOperation.ticketTarget : AccessOperation → Option Id
  | createTicket _ _ ticketId _ _ => some ticketId
  | _ => none

namespace AuthFrame

variable {P T : Id → Prop} {R : Connection → Connection → Prop}

omit [Platform] in
theorem keeps_accessAnswer (hR : AuthFrame P T R) {α : Type} {f : α → AccessAnswer} {x : Write α}
    (hx : Keeps R x) : Keeps R (accessAnswer f x) :=
  hR.bind hx fun _ => hR.pure _

/-- **What the statements keep, the body of every access operation keeps.** -/
theorem keeps_body (hR : AuthFrame P T R) (op : AccessOperation)
    (hP : ∀ id ∈ op.policyTarget, P id) (hT : ∀ id ∈ op.ticketTarget, T id) : Keeps R op.body := by
  cases op with
  | authenticate => exact hR.keeps_accessAnswer (hR.authenticate _ _)
  | initializeMaster => exact hR.keeps_accessAnswer (hR.keeps_initializeMaster _ _ _ _)
  | rotateMasterToken => exact hR.keeps_accessAnswer (hR.keeps_rotateMasterToken _ _ _ _)
  | recoverMasterToken => exact hR.keeps_accessAnswer (hR.keeps_recoverMasterToken _ _ _)
  | createTicket =>
    exact hR.keeps_accessAnswer (hR.keeps_createTicket _ _ (hT _ rfl) _ _)
  | redeem => exact hR.keeps_accessAnswer (hR.keeps_redeem _ _ _ (hP _ rfl))
  | provisionAgentAsMaster =>
    exact hR.keeps_accessAnswer (hR.keeps_provisionAgentAsMaster _ _ _ _ (hP _ rfl))
  | rotateAgentCredentialAsMaster =>
    exact hR.keeps_accessAnswer (hR.keeps_rotateAgentCredentialAsMaster _ _ _ _ _ (hP _ rfl) _)
  | setAgentScopeAsMaster =>
    exact hR.keeps_accessAnswer (hR.keeps_setAgentScopeAsMaster _ _ (hP _ rfl) _ _ _)
  | setAgentGrantsAsMaster =>
    exact hR.keeps_accessAnswer (hR.keeps_setAgentGrantsAsMaster _ _ (hP _ rfl) _ _ _ _)
  | revokeAgentCredentialAsMaster =>
    exact hR.keeps_accessAnswer (hR.keeps_revokeAgentCredentialAsMaster _ _ _ _ _)
  | revokeAgentCredential => exact hR.keeps_accessAnswer (hR.keeps_revokeAgentCredential _ _ _ _)
  | disableAgentAsMaster =>
    exact hR.keeps_accessAnswer (hR.keeps_disableAgentAsMaster _ _ _ _ _ _)

end AuthFrame

theorem advances_accessBody (op : AccessOperation) : Keeps AuthAdvancesOn op.body :=
  (AuthAdvances.authFrame (P := fun _ => True) (T := fun _ => True)).keeps_body op
    (fun _ _ => trivial) fun _ _ => trivial

theorem aside_accessBody (op : AccessOperation) : Keeps (Aside SameCredentials) op.body :=
  (SameCredentials.tablesFrame (P := fun _ => True) (T := fun _ => True)).authFrame.keeps_body op
    (fun _ _ => trivial) fun _ _ => trivial

/-! ### The rest of the application -/

/-- What the other transactions may do to the access tables: these advance, but
policies, tickets and the master identity stay. -/
structure AccessElsewhere (s t : Store) : Prop extends AuthAdvances s t where
  policies : t.auth.credentialLibraryPolicies = s.auth.credentialLibraryPolicies
  grants : t.auth.credentialLibraryGrants = s.auth.credentialLibraryGrants
  tickets : t.auth.onboardingTickets = s.auth.onboardingTickets
  masterIdentity : t.auth.masterIdentity = s.auth.masterIdentity

def AccessElsewhereOn (c c' : Connection) : Prop := AccessElsewhere c.store c'.store

omit [Platform] in
/-- A statement on other tables. -/
theorem AccessElsewhere.of_eq {s t : Store} (hlib : t.library = s.library) (hauth : t.auth = s.auth)
    (haudits : s.audit.masterAuditEvents <+: t.audit.masterAuditEvents) : AccessElsewhere s t where
  toAuthAdvances := .of_eq hlib hauth haudits
  policies := congrArg _ hauth
  grants := congrArg _ hauth
  tickets := congrArg _ hauth
  masterIdentity := congrArg _ hauth

omit [Platform] in
theorem AccessElsewhere.refl (s : Store) : AccessElsewhere s s := .of_eq rfl rfl List.prefix_rfl

omit [Platform] in
theorem AccessElsewhere.isFrame : IsFrame AccessElsewhereOn where
  refl c := .refl c.store
  trans h h' :=
    { toAuthAdvances := AuthAdvances.isFrame.trans h.toAuthAdvances h'.toAuthAdvances
      policies := h'.policies.trans h.policies
      grants := h'.grants.trans h.grants
      tickets := h'.tickets.trans h.tickets
      masterIdentity := h'.masterIdentity.trans h.masterIdentity }

omit [Platform] in
/-- **It looks at no Page.** -/
theorem AccessElsewhere.blindFrame : BlindFrame AccessElsewhereOn where
  toReceiptFrame := .of_receipts AccessElsewhere.isFrame fun _ _ => .of_eq rfl rfl List.prefix_rfl
  content _ _ _ _ _ := .of_eq rfl rfl List.prefix_rfl
  marks _ _ := .refl _
  insertAuditEvent a c _ c' h := by
    obtain ⟨-, rfl⟩ := insertAuditEvent_ok.mp h
    exact .of_eq rfl rfl List.prefix_rfl
  insertMasterAuditEvent a c _ c' h := by
    obtain ⟨-, rfl⟩ := insertMasterAuditEvent_ok.mp h
    exact .of_eq rfl rfl (List.prefix_append _ _)
  pages _ _ := .of_eq rfl rfl List.prefix_rfl
  history _ _ := .of_eq rfl rfl List.prefix_rfl

theorem accessElsewhere_authenticate (tokenValue : Text) (now : ℤ) :
    Keeps AccessElsewhereOn (authenticate tokenValue now) := by
  intro c a c' h
  have hadvances := advances_authenticate _ _ _ _ _ h
  obtain ⟨a₀, c₀, hquery, h⟩ := bind_ok.mp h
  obtain ⟨-, rfl⟩ := query_ok.mp hquery
  split at h
  · simp only [bind_ok, modifyStore_ok, pure_ok, exists_eq_left', exists_const] at h
    obtain ⟨-, rfl⟩ := h
    exact ⟨hadvances, rfl, rfl, rfl, rfl⟩
  · obtain ⟨-, rfl⟩ := pure_ok.mp h
    exact .refl _

/-- **The operations on Pages are among the other transactions.** -/
theorem accessElsewhere_body (op : Operation) : Keeps AccessElsewhereOn op.body :=
  (AccessElsewhere.blindFrame.statementFrame accessElsewhere_authenticate).operationFrame.keeps_body
    op

/-! ### Runs -/

/-- What a step is seen as from outside. -/
inductive AccessEvent where
  | access (op : AccessOperation) (result : Except Err AccessAnswer)
  | other

/-- One transaction on the database. -/
inductive AccessStep : Db → AccessEvent → Db → Prop
  | access (op : AccessOperation) (db : Db) :
      AccessStep db (.access op (op.commit db).1) (op.commit db).2
  | operation (op : Operation) (db : Db) : AccessStep db .other (op.commit db).2
  | rebuild (createdAt completedAt : ℤ) (db : Db) :
      AccessStep db .other (rebuildDatabase createdAt completedAt db).2
  | elsewhere {α : Type} (body : Write α) (h : Keeps ElsewhereOn body)
      (h' : Keeps AccessElsewhereOn body) (db : Db) :
      AccessStep db .other (immediateTransaction body db).2

/-- A run of the access services. -/
abbrev AccessTrace : Db → List AccessEvent → Db → Prop := Trace AccessStep

/-- A run from the freshly migrated database. -/
abbrev AccessRun : List AccessEvent → Db → Prop := AccessTrace Db.migrated

namespace AccessStep

variable {db db' : Db} {e : AccessEvent}

/-- **A step of the access services is a step of the system.** -/
theorem step (h : AccessStep db e db') : Step db db' := by
  cases h with
  | access op db =>
    exact .elsewhere op.body (fun c a c' hbody => (aside_accessBody op c a c' hbody).elsewhere) db
  | operation op db => exact .operation op db
  | rebuild createdAt completedAt db => exact .rebuild createdAt completedAt db
  | elsewhere body h _ db => exact .elsewhere body h db

/-- **A step changes nothing, or it is an operation whose body has succeeded, or
it leaves the policies and the tickets alone.** -/
theorem cases (h : AccessStep db e db') :
    (∃ op err, e = .access op (.error err) ∧ db' = db) ∨
      (∃ op a c, e = .access op (.ok a) ∧ op.body ⟨db.store, []⟩ = .ok (a, c) ∧
        db'.store = c.store) ∨
      (e = .other ∧ AccessElsewhere db.store db'.store) := by
  cases h with
  | access op db =>
    rcases immediateTransaction_eq_or op.body db with ⟨err, hcommit⟩ | ⟨a, c, db₁, hbody, hstore, -, hcommit⟩
    · left
      refine ⟨op, err, ?_, ?_⟩
      · rw [AccessOperation.commit, hcommit]
      · rw [AccessOperation.commit, hcommit]
    · right
      left
      refine ⟨op, a, c, ?_, hbody, ?_⟩
      · rw [AccessOperation.commit, hcommit]
      · rw [AccessOperation.commit, hcommit]
        exact hstore
  | operation op db =>
    refine .inr (.inr ⟨rfl, ?_⟩)
    rcases immediateTransaction_eq_or op.body db with ⟨err, hcommit⟩ | ⟨a, c, db₁, hbody, hstore, -, hcommit⟩
    · rw [Operation.commit, hcommit]
      exact .refl _
    · rw [Operation.commit, hcommit]
      show AccessElsewhere db.store db₁.store
      rw [hstore]
      exact accessElsewhere_body op _ _ _ hbody
  | rebuild createdAt completedAt db =>
    refine .inr (.inr ⟨rfl, ?_⟩)
    unfold rebuildDatabase
    split
    · exact .refl _
    · exact .refl _
  | elsewhere body _ h' db =>
    refine .inr (.inr ⟨rfl, ?_⟩)
    rcases immediateTransaction_eq_or body db with ⟨err, hcommit⟩ | ⟨a, c, db₁, hbody, hstore, -, hcommit⟩
    · rw [hcommit]
      exact .refl _
    · rw [hcommit]
      show AccessElsewhere db.store db₁.store
      rw [hstore]
      exact h' _ _ _ hbody

/-- The access tables advance with every step. -/
theorem advances (h : AccessStep db e db') : AuthAdvances db.store db'.store := by
  rcases h.cases with ⟨_, _, -, rfl⟩ | ⟨op, a, c, -, hbody, hstore⟩ | ⟨-, h⟩
  · exact AuthAdvances.isFrame.refl ⟨db'.store, []⟩
  · rw [hstore]
    exact advances_accessBody op _ _ _ hbody
  · exact h.toAuthAdvances

end AccessStep

/-! ### Reachable databases -/

/-- The constraints and the deferred foreign keys hold. -/
structure AccessSound (db : Db) : Prop where
  auth : AuthSound db.store
  keys : DeferredForeignKeys db.store

theorem AccessSound.step {db db' : Db} {e : AccessEvent} (h : AccessSound db)
    (hstep : AccessStep db e db') : AccessSound db' where
  auth := hstep.advances.sound h.auth
  keys := by
    cases hstep with
    | access op db => exact deferredForeignKeys_immediateTransaction op.body h.keys
    | operation op db => exact deferredForeignKeys_immediateTransaction op.body h.keys
    | rebuild createdAt completedAt db =>
      unfold rebuildDatabase
      split
      · exact h.keys
      · exact h.keys
    | elsewhere body _ _ db => exact deferredForeignKeys_immediateTransaction body h.keys

theorem AccessSound.trace {db db' : Db} {events : List AccessEvent} (h : AccessSound db)
    (htrace : AccessTrace db events db') : AccessSound db' :=
  htrace.invariant h fun _ _ _ hs hstep => hs.step hstep

omit [Platform] in
theorem AccessSound.migrated : AccessSound Db.migrated where
  auth := AuthSound.empty
  keys := by
    constructor <;> exact fun _ h => absurd h List.not_mem_nil

/-- **The constraints hold in every state of a run.** -/
theorem AccessRun.sound {events : List AccessEvent} {db : Db} (h : AccessRun events db) :
    AccessSound db :=
  AccessSound.migrated.trace h

/-- The access tables have grown along a run. -/
theorem AccessTrace.grows {db db' : Db} {events : List AccessEvent}
    (h : AccessTrace db events db') : AuthGrows db.store db'.store :=
  h.related (R := fun db db' => AuthGrows db.store db'.store) (fun db => .refl db.store)
    AuthGrows.trans fun _ _ _ hstep => hstep.advances.grows

/-- **A body that succeeds is committed.** -/
theorem AccessOperation.commit_of_ok {op : AccessOperation} {db : Db} (h : AccessSound db)
    {a : AccessAnswer} {c : Connection} (hbody : op.body ⟨db.store, []⟩ = .ok (a, c)) :
    op.commit db = (.ok a, ⟨c.store, db.search⟩) := by
  have haside := aside_accessBody op _ _ _ hbody
  have hkeys : DeferredForeignKeys c.store := h.keys.of_content haside.content
  have hfinish : finishTransaction a c db.search = .ok (a, ⟨c.store, db.search⟩) := by
    -- no Page is marked, so the index is not written
    have hmarks : db.search.markAll c.dirtied = db.search := by
      rw [haside.dirtied]
      rfl
    rw [finishTransaction, hmarks, flushDirtySince, if_pos (.inl le_rfl)]
    show (Fallible.check _ _ >>= _) = _
    rw [Fallible.check_of hkeys]
    rfl
  simp only [AccessOperation.commit, immediateTransaction, runTransaction, hbody,
    Fallible.ok_bind, hfinish]

/-- The body of an operation that has answered. -/
theorem AccessOperation.body_of_commit {op : AccessOperation} {db : Db} {a : AccessAnswer}
    (h : (op.commit db).1 = .ok a) :
    ∃ c, op.body ⟨db.store, []⟩ = .ok (a, c) ∧ (op.commit db).2.store = c.store := by
  rcases immediateTransaction_eq_or op.body db with ⟨e, hcommit⟩ | ⟨b, c, db₁, hbody, hstore, -, hcommit⟩
  · rw [AccessOperation.commit, hcommit] at h
    cases h
  · rw [AccessOperation.commit, hcommit] at h ⊢
    obtain rfl : b = a := Except.ok.inj h
    exact ⟨c, hbody, hstore⟩

/-- An operation that is refused changes nothing. -/
theorem AccessOperation.commit_of_error {op : AccessOperation} {db : Db} {e : Err}
    (h : op.body ⟨db.store, []⟩ = .error e) : op.commit db = (.error e, db) := by
  simp only [AccessOperation.commit, immediateTransaction, runTransaction, h,
    Fallible.error_bind]

end

/-! ### A small run

The administrator token is set, a Library is added, and a ticket is issued and
redeemed; the new agent then authenticates.  The results about runs are shown to
speak about something on this run. -/

section Sample

attribute [local instance] asciiPlatform

def sampleIdOf (c : Char) : Id := List.replicate opaqueIdLength c

def sampleMasterSession : MasterAdminSession := ⟨sampleIdOf 'a', 1, 1000000, []⟩

def sampleHomeLibrary : Library := ⟨sampleIdOf 'b', "Home", 0⟩

def sampleInitialize : AccessOperation :=
  .initializeMaster (List.replicate 32 'x') (List.replicate 16 1) sampleMasterSession.identityId 0

/-- Add the first Library. -/
def foundHome : Write PUnit := do
  constraint fun s => s.library.libraries = []
  modifyStore fun s => { s with library := { s.library with libraries := [sampleHomeLibrary] } }

theorem elsewhere_foundHome : Keeps ElsewhereOn foundHome := by
  intro c _ c' h
  simp only [foundHome, bind_ok, constraint_ok, modifyStore_ok, exists_eq_left', and_assoc,
    exists_and_left, exists_const] at h
  obtain ⟨-, rfl⟩ := h
  exact
    { content := rfl
      history := rfl
      books := fun _ _ _ hb => hb
      idempotencyRecords := List.prefix_rfl
      masterAudits := List.prefix_rfl
      authAudits := ⟨[], (List.append_nil _).symm, fun _ h => absurd h List.not_mem_nil⟩
      credentials := List.prefix_rfl
      credentialIds := fun h => h }

theorem accessElsewhere_foundHome : Keeps AccessElsewhereOn foundHome := by
  intro c _ c' h
  simp only [foundHome, bind_ok, constraint_ok, modifyStore_ok, exists_eq_left', and_assoc,
    exists_and_left, exists_const] at h
  obtain ⟨hnone, rfl⟩ := h
  refine ⟨⟨?_, fun hs => ?_⟩, rfl, rfl, rfl, rfl⟩
  · refine { AuthGrows.refl c.store with libraries := ?_ }
    rw [hnone]
    exact .nil _
  · refine { hs with libraryIds := fun l hl => ?_ }
    rw [List.mem_singleton.mp hl]
    decide

def sampleTicketCode : Text := "ABCDEFGHIJKLMNOP"

def sampleCreateTicket : AccessOperation :=
  .createTicket sampleMasterSession sampleTicketCode (sampleIdOf 'c') 0 (sampleIdOf '1')

/-- A new agent that may read the Library. -/
def sampleAgent : MasterProvisionAgent :=
  { lifetime := ⟨true, none⟩
    scope := ⟨.include, .include, [sampleHomeLibrary.id], []⟩
    homeLibraryId := none
    agentName := "Reader"
    agentDescription := ""
    grants := [] }

def sampleEntropy : ProvisionEntropy :=
  ⟨sampleIdOf 'd', ⟨sampleIdOf 'e', List.replicate 16 0, List.replicate 32 0⟩, sampleIdOf '2'⟩

def sampleRedeem : AccessOperation := .redeem sampleTicketCode sampleAgent 0 sampleEntropy

def sampleCredentialKey : CredentialKey := ⟨sampleIdOf 'e', sampleIdOf 'd', sampleHomeLibrary.id⟩

def sampleUse : AccessOperation := .authenticate sampleToken 400000000

def sampleInitialized : Db := (sampleInitialize.commit Db.migrated).2

def sampleHoused : Db := (immediateTransaction foundHome sampleInitialized).2

def sampleTicketed : Db := (sampleCreateTicket.commit sampleHoused).2

def sampleRedeemed : Db := (sampleRedeem.commit sampleTicketed).2

def sampleUsed : Db := (sampleUse.commit sampleRedeemed).2

def sampleRedeemedEvents : List AccessEvent :=
  [.access sampleInitialize (sampleInitialize.commit Db.migrated).1, .other,
    .access sampleCreateTicket (sampleCreateTicket.commit sampleHoused).1,
    .access sampleRedeem (sampleRedeem.commit sampleTicketed).1]

theorem sampleRedeemedRun : AccessRun sampleRedeemedEvents sampleRedeemed := by
  have hinitialized : AccessRun [.access sampleInitialize (sampleInitialize.commit Db.migrated).1]
      sampleInitialized := .next .start (.access sampleInitialize _)
  have hhoused := Trace.next hinitialized
    (.elsewhere foundHome elsewhere_foundHome accessElsewhere_foundHome sampleInitialized)
  have hticketed := Trace.next hhoused (.access sampleCreateTicket sampleHoused)
  exact .next hticketed (.access sampleRedeem sampleTicketed)

theorem sampleUsedRun : AccessRun
    (sampleRedeemedEvents ++ [.access sampleUse (sampleUse.commit sampleRedeemed).1]) sampleUsed :=
  .next sampleRedeemedRun (.access sampleUse sampleRedeemed)

end Sample

end PatchouliLib
