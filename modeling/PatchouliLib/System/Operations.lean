import PatchouliLib.Database
import PatchouliLib.Foundation.Run
import PatchouliLib.System.Advances

/-!
# The system

A freshly migrated database is changed by transactions only.  An operation on
Pages is one immediate transaction; the rebuild of the search index is another.
The other transactions of the application, which write Libraries, credentials,
policies, tags and Skills, are any bodies that leave the content tables and the
history alone.

## Main definitions

* `Operation` — an operation of the services, the administrator or the browser,
  with its clock readings and the identifiers it is handed.
* `Operation.body`, `Operation.commit` — its body and its transaction.
* `Elsewhere s t` — what the other transactions of the application may change.
* `Step`, `PageRun` — the steps of the database and its runs.

## Main results

* `immediateTransaction_eq_or` — a transaction leaves the database as it was, or
  its body has run to the end.
* `OperationFrame.keeps_body` — what the writes keep, the body of every operation
  keeps.
* `advances_body` — every operation makes at most one valid change.
-/

namespace PatchouliLib

open Foundation

section

variable [Platform]

/-! ### Operations -/

/-- An operation, as it was called. -/
inductive Operation where
  | createArchive (tokenValue : Text) (command : CreateArchiveCommand) (keyDigest : Bytes)
      (clock : ℤ) (fresh : Fresh)
  | appendRevision (tokenValue : Text) (command : AppendArchiveRevisionCommand)
      (keyDigest : Bytes) (clock : ℤ) (fresh : Fresh)
  | correctArchiveOccurrence (tokenValue : Text) (command : CorrectArchiveOccurrenceCommand)
      (keyDigest : Bytes) (clock : ℤ) (fresh : Fresh)
  | transitionArchiveLifecycle (tokenValue : Text) (command : ArchiveLifecycleCommand)
      (keyDigest : Bytes) (action : LifecycleAction) (clock : ℤ) (fresh : Fresh)
  | restorePageAsOperator (tokenValue : Text) (command : ArchiveLifecycleCommand)
      (keyDigest : Bytes) (clock : ℤ) (fresh : Fresh)
  | appendFileSet (tokenValue : Text) (command : FileSetAppendCommand) (keyDigest : Bytes)
      (clock : ℤ) (fresh : Fresh)
  | createFileSet (tokenValue : Text) (command : FileSetCreateCommand) (keyDigest : Bytes)
      (clock : ℤ) (fresh : Fresh)
  | movePage (tokenValue : Text) (command : PageMoveCommand) (keyDigest : Bytes) (clock : ℤ)
      (fresh : Fresh)
  | transitionPage (tokenValue : Text) (command : PageLifecycleCommand) (keyDigest : Bytes)
      (clock : ℤ) (fresh : Fresh)
  | changePageLifecycleAsMaster (session : MasterAdminSession) (time : ℤ)
      (request : MasterLifecycleRequest) (action : LifecycleAction) (clock : ℤ) (fresh : Fresh)
  | updatePageTitleAsMaster (session : MasterAdminSession) (time : ℤ)
      (request : MasterTitleRequest) (clock : ℤ) (fresh : Fresh)
  | correctPageOccurrenceAsMaster (session : MasterAdminSession) (time : ℤ)
      (request : MasterOccurrenceRequest) (clock : ℤ) (fresh : Fresh)
  | movePageAsMaster (session : MasterAdminSession) (time : ℤ) (command : PageMoveCommand)
      (keyDigest : Bytes) (now : ℤ) (fresh : Fresh)
  | writeFileSetAsMaster (session : MasterAdminSession) (time : ℤ)
      (command : MasterFileSetCommand) (keyDigest : Bytes) (now : ℤ) (fresh : Fresh)
  | savePage (session : MasterAdminSession) (time : ℤ) (keyDigest : Bytes)
      (request : SaveRequest) (readings : Readings) (fresh : Fresh)
  | restoreRevision (session : MasterAdminSession) (time : ℤ) (keyDigest : Bytes)
      (request : RestoreRequest) (readings : Readings) (fresh : Fresh)

/-- What an operation answers. -/
inductive Answer where
  | service (result : ServiceResult)
  | etag (etag : Text)
  | title
  | occurrence (changed : Bool)
  | move (result : MasterPageMoveResult)
  | fileSet (result : MasterFileSetResult)
  | workspace (response : WorkspaceSaveResponse) (replayed : Bool)

/-- Answer with the result of a body. -/
def answer {α : Type} (f : α → Answer) (x : Write α) : Write Answer := do
  let a ← x
  pure (f a)

/-- The body of an operation. -/
def Operation.body : Operation → Write Answer
  | createArchive tokenValue command keyDigest clock fresh =>
    answer .service (PatchouliLib.createArchive tokenValue command keyDigest clock fresh)
  | appendRevision tokenValue command keyDigest clock fresh =>
    answer .service (PatchouliLib.appendRevision tokenValue command keyDigest clock fresh)
  | correctArchiveOccurrence tokenValue command keyDigest clock fresh =>
    answer .service (PatchouliLib.correctArchiveOccurrence tokenValue command keyDigest clock fresh)
  | transitionArchiveLifecycle tokenValue command keyDigest action clock fresh =>
    answer .service
      (PatchouliLib.transitionArchiveLifecycle tokenValue command keyDigest action clock fresh)
  | restorePageAsOperator tokenValue command keyDigest clock fresh =>
    answer .service (PatchouliLib.restorePageAsOperator tokenValue command keyDigest clock fresh)
  | appendFileSet tokenValue command keyDigest clock fresh =>
    answer .service (PatchouliLib.appendFileSet tokenValue command keyDigest clock fresh)
  | createFileSet tokenValue command keyDigest clock fresh =>
    answer .service (PatchouliLib.createFileSet tokenValue command keyDigest clock fresh)
  | movePage tokenValue command keyDigest clock fresh =>
    answer .service (PatchouliLib.movePage tokenValue command keyDigest clock fresh)
  | transitionPage tokenValue command keyDigest clock fresh =>
    answer .service (PatchouliLib.transitionPage tokenValue command keyDigest clock fresh)
  | changePageLifecycleAsMaster session time request action clock fresh =>
    answer .etag (PatchouliLib.changePageLifecycleAsMaster session time request action clock fresh)
  | updatePageTitleAsMaster session time request clock fresh =>
    answer (fun _ => .title)
      (PatchouliLib.updatePageTitleAsMaster session time request clock fresh)
  | correctPageOccurrenceAsMaster session time request clock fresh =>
    answer .occurrence
      (PatchouliLib.correctPageOccurrenceAsMaster session time request clock fresh)
  | movePageAsMaster session time command keyDigest now fresh =>
    answer .move (PatchouliLib.movePageAsMaster session time command keyDigest now fresh)
  | writeFileSetAsMaster session time command keyDigest now fresh =>
    answer .fileSet (PatchouliLib.writeFileSetAsMaster session time command keyDigest now fresh)
  | savePage session time keyDigest request readings fresh =>
    answer (fun r => .workspace r.1 r.2)
      (PatchouliLib.savePage session time keyDigest request readings fresh)
  | restoreRevision session time keyDigest request readings fresh =>
    answer (fun r => .workspace r.1 r.2)
      (PatchouliLib.restoreRevision session time keyDigest request readings fresh)

/-- The transaction of an operation. -/
def Operation.commit (op : Operation) (db : Db) : Except Err Answer × Db :=
  immediateTransaction op.body db

namespace OperationFrame

variable {Q A : Connection → Connection → Prop}

theorem keeps_answer (hF : OperationFrame Q A) {α : Type} {f : α → Answer} {x : Write α}
    (hx : Keeps A x) : Keeps A (answer f x) :=
  hF.bind_right hx fun _ => hF.service.pure _

/-- **What the writes keep, the body of every operation keeps.** -/
theorem keeps_body (hF : OperationFrame Q A) (op : Operation) : Keeps A op.body := by
  cases op with
  | createArchive => exact hF.keeps_answer (hF.keeps_createArchive _ _ _ _ _)
  | appendRevision => exact hF.keeps_answer (hF.keeps_appendRevision _ _ _ _ _)
  | correctArchiveOccurrence => exact hF.keeps_answer (hF.keeps_correctArchiveOccurrence _ _ _ _ _)
  | transitionArchiveLifecycle =>
    exact hF.keeps_answer (hF.keeps_transitionArchiveLifecycle _ _ _ _ _ _)
  | restorePageAsOperator => exact hF.keeps_answer (hF.keeps_restorePageAsOperator _ _ _ _ _)
  | appendFileSet => exact hF.keeps_answer (hF.keeps_appendFileSet _ _ _ _ _)
  | createFileSet => exact hF.keeps_answer (hF.keeps_createFileSet _ _ _ _ _)
  | movePage => exact hF.keeps_answer (hF.keeps_movePage _ _ _ _ _)
  | transitionPage => exact hF.keeps_answer (hF.keeps_transitionPage _ _ _ _ _)
  | changePageLifecycleAsMaster =>
    exact hF.keeps_answer (hF.keeps_changePageLifecycleAsMaster _ _ _ _ _ _)
  | updatePageTitleAsMaster => exact hF.keeps_answer (hF.keeps_updatePageTitleAsMaster _ _ _ _ _)
  | correctPageOccurrenceAsMaster =>
    exact hF.keeps_answer (hF.keeps_correctPageOccurrenceAsMaster _ _ _ _ _)
  | movePageAsMaster => exact hF.keeps_answer (hF.keeps_movePageAsMaster _ _ _ _ _ _)
  | writeFileSetAsMaster => exact hF.keeps_answer (hF.keeps_writeFileSetAsMaster _ _ _ _ _ _)
  | savePage => exact hF.keeps_answer (hF.keeps_savePage _ _ _ _ _ _)
  | restoreRevision => exact hF.keeps_answer (hF.keeps_restoreRevision _ _ _ _ _ _)

end OperationFrame

/-- **Every operation makes at most one valid change.** -/
theorem advances_body (op : Operation) : Keeps AdvancesOn op.body :=
  advancesFrame.keeps_body op

/-! ### Transactions -/

/-- **A transaction leaves the database as it was, or its body has run to the
end.** -/
theorem immediateTransaction_eq_or {α : Type} (body : Write α) (db : Db) :
    (∃ e, immediateTransaction body db = (.error e, db)) ∨
      ∃ a c db', body ⟨db.store, []⟩ = .ok (a, c) ∧ db'.store = c.store ∧
        finishTransaction a c db.search = .ok (a, db') ∧
        immediateTransaction body db = (.ok a, db') := by
  cases hrun : runTransaction body db with
  | error e => exact .inl ⟨e, by simp only [immediateTransaction, hrun]⟩
  | ok p =>
    obtain ⟨⟨a, c⟩, hbody, hfinish⟩ := Fallible.bind_ok.mp hrun
    have hp : p.1 = a ∧ p.2.store = c.store := by
      simp only [finishTransaction, Fallible.bind_ok, Fallible.pure_ok] at hfinish
      obtain ⟨_, -, _, -, rfl⟩ := hfinish
      exact ⟨rfl, rfl⟩
    obtain ⟨rfl, hstore⟩ := hp
    exact .inr ⟨p.1, c, p.2, hbody, hstore, hfinish, by simp only [immediateTransaction, hrun]⟩

/-- The deferred foreign keys hold after a commit when they held before. -/
theorem deferredForeignKeys_immediateTransaction {α : Type} (body : Write α) {db : Db}
    (h : DeferredForeignKeys db.store) :
    DeferredForeignKeys (immediateTransaction body db).2.store := by
  rcases immediateTransaction_eq_or body db with ⟨err, hcommit⟩ | ⟨a, c, db₁, -, hstore, hfinish, hcommit⟩
  · rw [hcommit]
    exact h
  · rw [hcommit]
    show DeferredForeignKeys db₁.store
    simp only [finishTransaction, Fallible.bind_ok, Fallible.check_ok, exists_and_left,
      exists_const] at hfinish
    obtain ⟨_, -, hkeys, -⟩ := hfinish
    rw [hstore]
    exact hkeys

/-! ### The rest of the application -/

/-- The columns of a credential that never change. -/
def Credential.identity (c : Credential) : Id × Id × Id := (c.id, c.callerId, c.libraryId)

/-- The audit row is of a delete or a restore through the Library routes. -/
def AuditEvent.IsLibraryLifecycle (a : AuditEvent) : Prop :=
  a.action = LifecycleAction.libraryAuditAction .delete ∨
    a.action = LifecycleAction.libraryAuditAction .restore

/-- What the other transactions of the application may change: Libraries,
Sections and Books are added, credentials come and are used, kept responses and
audit rows of other subjects accumulate. -/
structure Elsewhere (s t : Store) : Prop where
  content : t.content = s.content
  history : t.history = s.history
  books : ∀ l x b, s.hasBook l x b = true → t.hasBook l x b = true
  idempotencyRecords : s.receipts.idempotencyRecords <+: t.receipts.idempotencyRecords
  masterAudits : s.audit.masterAuditEvents <+: t.audit.masterAuditEvents
  authAudits : ∃ added, t.audit.authAuditEvents = s.audit.authAuditEvents ++ added ∧
    ∀ a ∈ added, ¬a.IsLibraryLifecycle ∧ ∀ a' ∈ s.audit.authAuditEvents, a'.id ≠ a.id
  credentials : s.auth.credentials.map Credential.identity <+:
    t.auth.credentials.map Credential.identity
  credentialIds : (s.auth.credentials.map (·.id)).Nodup → (t.auth.credentials.map (·.id)).Nodup

/-- The frame of the other transactions. -/
def ElsewhereOn (c c' : Connection) : Prop := Elsewhere c.store c'.store

/-! ### Runs -/

/-- One transaction on the database. -/
inductive Step : Db → Db → Prop
  | operation (op : Operation) (db : Db) : Step db (op.commit db).2
  | rebuild (createdAt completedAt : ℤ) (db : Db) :
      Step db (rebuildDatabase createdAt completedAt db).2
  | elsewhere {α : Type} (body : Write α) (h : Keeps ElsewhereOn body) (db : Db) :
      Step db (immediateTransaction body db).2

/-- The freshly migrated database. -/
def Db.migrated : Db := {}

/-- A run from the freshly migrated database. -/
abbrev PageRun : List Db → Db → Prop := Run (· = Db.migrated) Step

/-- **The deferred foreign keys hold in every state of a run.** -/
theorem PageRun.deferredForeignKeys {visited : List Db} {db : Db} (h : PageRun visited db) :
    DeferredForeignKeys db.store := by
  refine h.invariant (P := fun db => DeferredForeignKeys db.store) ?_ ?_
  · rintro s rfl
    constructor <;> exact fun _ h => absurd h List.not_mem_nil
  · intro s t hs hstep
    cases hstep with
    | operation op => exact deferredForeignKeys_immediateTransaction op.body hs
    | rebuild createdAt completedAt =>
      unfold rebuildDatabase
      split
      · exact hs
      · exact hs
    | elsewhere body => exact deferredForeignKeys_immediateTransaction body hs

end

/-! ### A small Library

One Library with two Books, an agent that may write it and the master.  The
results about runs are shown to speak about something on runs that begin with
it. -/

section Sample

attribute [local instance] asciiPlatform

def sampleToken : Text := "plb1.AAAAAAAAAAAAAAAAAAAAAA.AAAAAAAAAAAAAAAAAAAAAAAAAAAAAAAAAAAAAAAAAAA"

def sampleLibrary : LibraryTables where
  libraries := [⟨"lib", "Library", 0⟩]
  sections := [⟨"sec", "lib", "Section"⟩]
  books := [⟨"one", "lib", "sec", "One"⟩, ⟨"two", "lib", "sec", "Two"⟩]

def sampleAuth : AuthTables where
  callers := [⟨"agent", "lib", .agent, "Agent", "", 1, 0, 0, none⟩]
  credentials := [⟨"cred", "lib", "agent", "AAAAAAAAAAAAAAAAAAAAAA", 1,
    verifierDomain ++ List.replicate 48 0, none, 0, 0, none, none, none, none⟩]
  credentialLibraryPolicies := [⟨"cred", "agent", "lib", .libraryGrants, .exclude, .exclude, 1⟩]
  masterIdentity := some ⟨"master", "", 1, 0, 0⟩

/-- Found the Library in an empty database. -/
def foundLibrary : Write PUnit := do
  constraint fun s => s.library.books = [] ∧ s.auth.credentials = []
  modifyStore fun s => { s with library := sampleLibrary, auth := sampleAuth }

theorem elsewhere_foundLibrary : Keeps ElsewhereOn foundLibrary := by
  intro c _ c' h
  simp only [foundLibrary, bind_ok, constraint_ok, modifyStore_ok, exists_eq_left', and_assoc,
    exists_and_left, exists_const] at h
  obtain ⟨hbooks, hcredentials, rfl⟩ := h
  refine
    { content := rfl
      history := rfl
      books := fun l x b hb => ?_
      idempotencyRecords := List.prefix_rfl
      masterAudits := List.prefix_rfl
      authAudits := ⟨[], (List.append_nil _).symm, fun _ h => absurd h List.not_mem_nil⟩
      credentials := ?_
      credentialIds := fun _ => (by decide : (sampleAuth.credentials.map (·.id)).Nodup) }
  · simp [Store.hasBook, hbooks] at hb
  · rw [hcredentials]
    exact List.nil_prefix

def sampleSession : MasterAdminSession := ⟨"master", 1, 1000000, []⟩

def samplePageKey : PageKey := ⟨"lib", List.replicate 16 7⟩

def samplePageId : Text := "19700101t000000001z-notes"

/-- The agent creates a Page in the first Book. -/
def sampleCreate : Operation :=
  .createArchive sampleToken
    { libraryId := "lib", sectionId := "sec", bookId := "one", title := "Notes"
      occurredAt := none, contentMd := utf8Encode "hello", source := ⟨"chat", none, none⟩
      requestId := "create" }
    [1] 1000
    { sourceId := "source", auditId := "audit-1", pageUids := [samplePageKey.pageUid]
      revisionIds := ["rev_00000000000000000000000000000001"] }

/-- The database with the Library, and then with the Page. -/
def sampleFounded : Db := (immediateTransaction foundLibrary Db.migrated).2

def sampleCreated : Db := (sampleCreate.commit sampleFounded).2

theorem sampleRun : PageRun [Db.migrated, sampleFounded, sampleCreated] sampleCreated := by
  have hstart : PageRun [Db.migrated] Db.migrated := .start rfl
  have hfounded : PageRun [Db.migrated, sampleFounded] sampleFounded :=
    .next hstart (.elsewhere foundLibrary elsewhere_foundLibrary _)
  exact .next hfounded (.operation sampleCreate _)

end Sample

end PatchouliLib
