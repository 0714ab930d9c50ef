import PatchouliLib.Admin.MergeOrder
import PatchouliLib.System.Appends
import PatchouliLib.System.ConditionalWrites

/-!
# Saves of the browser

A save of the browser has no precondition: it merges its changes into whatever Revision
is current when it runs.  Nothing that it does not mention is lost, and it tells whether
the Page has changed since the browser has read it.  Its response is kept under its key,
and is the answer of every later call with this key.

## Main definitions

* `ReceiptsKept s t` — no receipt of the browser is dropped.
* `BrowserSave` — a save, as it is called.
* `SavedOver` — what a save over a Page leaves behind.
* `SaveStep` — the steps of a run that drop no receipt.

## Main results

* `commit_save` — a save is answered from its receipt, or it leaves one.
* `commit_retried` — **the answer of a save whose receipt is there.**
* `saves_comm` — **saves that mention different files commute.**
* `browserSaves_exact` — the whole law of the saves.
-/

namespace PatchouliLib

open Foundation

section

variable [Platform]

/-! ### Kept receipts -/

omit [Platform] in
/-- No receipt of the browser is dropped. -/
def ReceiptsKept (s t : Store) : Prop :=
  s.receipts.workspaceSaveReceipts <+: t.receipts.workspaceSaveReceipts

/-- The frame on the authority of an open transaction. -/
def ReceiptsKeptOn (c c' : Connection) : Prop := ReceiptsKept c.store c'.store

namespace ReceiptsKept

omit [Platform] in
theorem refl (s : Store) : ReceiptsKept s s := List.prefix_rfl

omit [Platform] in
theorem isFrame : IsFrame ReceiptsKeptOn where
  refl c := refl c.store
  trans h h' := List.IsPrefix.trans h h'

omit [Platform] in
theorem receiptFrame : ReceiptFrame ReceiptsKeptOn where
  toIsFrame := isFrame
  insertIdempotencyRecord _ :=
    isFrame.bind (isFrame.constraint _) fun _ => .writes fun c => refl c.store
  insertMasterFileSetReceipt _ := by
    refine isFrame.bind (isFrame.constraint _) fun _ => isFrame.bind (isFrame.constraint _) fun _ => ?_
    exact isFrame.bind (isFrame.constraint _) fun _ => .writes fun c => refl c.store
  insertMasterMoveReceipt _ := by
    refine isFrame.bind (isFrame.constraint _) fun _ => isFrame.bind (isFrame.constraint _) fun _ => ?_
    exact isFrame.bind (isFrame.constraint _) fun _ => .writes fun c => refl c.store
  insertWorkspaceSaveReceipt _ :=
    isFrame.bind (isFrame.constraint _) fun _ => .writes fun _ => List.prefix_append _ _

omit [Platform] in
theorem blindFrame : BlindFrame ReceiptsKeptOn where
  toReceiptFrame := receiptFrame
  content c _ _ _ _ := refl c.store
  marks c _ := refl c.store
  insertAuditEvent _ c _ c' h := by
    obtain ⟨-, rfl⟩ := insertAuditEvent_ok.mp h
    exact refl c.store
  insertMasterAuditEvent _ c _ c' h := by
    obtain ⟨-, rfl⟩ := insertMasterAuditEvent_ok.mp h
    exact refl c.store
  pages c _ := refl c.store
  history c _ := refl c.store

theorem keeps_authenticate (tokenValue : Text) (now : ℤ) :
    Keeps ReceiptsKeptOn (authenticate tokenValue now) := by
  intro c a c' h
  obtain ⟨auth, rfl⟩ := sameButAuth_authenticate tokenValue now c a c' h
  exact refl c.store

/-- **No operation drops a receipt.** -/
theorem keeps_body (op : Operation) : Keeps ReceiptsKeptOn op.body :=
  (blindFrame.statementFrame keeps_authenticate).operationFrame.keeps_body op

omit [Platform] in
/-- A receipt is found ever after. -/
theorem find {s t : Store} (h : ReceiptsKept s t) {identityId : Id} {keyDigest : Bytes}
    {row : WorkspaceSaveReceipt} (hrow : findWorkspaceReceipt identityId keyDigest s = some row) :
    findWorkspaceReceipt identityId keyDigest t = some row := by
  obtain ⟨added, hadded⟩ := h
  rw [findWorkspaceReceipt] at hrow ⊢
  rw [← hadded, List.find?_append, hrow, Option.some_or]

end ReceiptsKept

/-! ### Runs that drop no receipt -/

/-- A step of a run: an operation with its outcome, or another transaction that drops no
receipt of the browser. -/
inductive SaveStep : Db → PageEvent → Db → Prop
  | operation (op : Operation) (db : Db) :
      SaveStep db (.operation op (op.commit db).1) (op.commit db).2
  | other {db db' : Db} (h : Step db db') (hkept : ReceiptsKept db.store db'.store) :
      SaveStep db .other db'

namespace SaveStep

variable {db db' : Db} {e : PageEvent}

theorem pageStep (h : SaveStep db e db') : PageStep db e db' := by
  cases h with
  | operation op => exact .operation op db
  | other h => exact .other h

theorem receiptsKept (h : SaveStep db e db') : ReceiptsKept db.store db'.store := by
  cases h with
  | operation op =>
    rcases immediateTransaction_eq_or op.body db with ⟨e, hrun⟩ | ⟨a, c, db₁, hbody, hstore, -, hrun⟩
    · rw [Operation.commit, hrun]
      exact .refl _
    · rw [Operation.commit, hrun, hstore]
      exact ReceiptsKept.keeps_body op _ _ _ hbody
  | other _ hkept => exact hkept

end SaveStep

/-- **No run drops a receipt.** -/
theorem receiptsKept_of_run {s t : Db} {events : List PageEvent}
    (hrun : Trace SaveStep s events t) : ReceiptsKept s.store t.store :=
  hrun.related (R := fun s t : Db => ReceiptsKept s.store t.store) (fun s => .refl s.store)
    List.IsPrefix.trans fun _ _ _ h => h.receiptsKept

/-! ### Transactions that only read -/

/-- A body that changes nothing is committed, and changes nothing. -/
theorem immediateTransaction_same {α : Type} {body : Write α} {db : Db} {a : α}
    (hkeys : DeferredForeignKeys db.store) (h : body ⟨db.store, []⟩ = .ok (a, ⟨db.store, []⟩)) :
    immediateTransaction body db = (.ok a, db) := by
  have hflush : flushDirtySince db.search.info.dirtySequence db.store (db.search.markAll []) =
      .ok db.search := if_pos (.inl le_rfl)
  have hfinish : finishTransaction a ⟨db.store, []⟩ db.search = .ok (a, db) := by
    simp only [finishTransaction, hflush, Fallible.check_of hkeys, Fallible.ok_bind]
    rfl
  have hrun : runTransaction body db = .ok (a, db) :=
    Fallible.bind_ok.mpr ⟨(a, ⟨db.store, []⟩), h, hfinish⟩
  simp only [immediateTransaction, hrun]

/-- A body that fails changes nothing. -/
theorem immediateTransaction_error {α : Type} {body : Write α} {db : Db} {e : Err}
    (h : body ⟨db.store, []⟩ = .error e) : immediateTransaction body db = (.error e, db) := by
  have hrun : runTransaction body db = .error e := by
    simp only [runTransaction, h, Fallible.error_bind]
  simp only [immediateTransaction, hrun]

/-! ### Saves -/

/-- A save, as it is called. -/
structure BrowserSave where
  session : MasterAdminSession
  time : ℤ
  keyDigest : Bytes
  request : SaveRequest
  readings : Readings
  fresh : Fresh

namespace BrowserSave

variable (save : BrowserSave)

def operation : Operation :=
  .savePage save.session save.time save.keyDigest save.request save.readings save.fresh

/-- The names that the save mentions. -/
def mentioned : List Text := save.request.changes.mentioned save.request.uploads

/-- The identity and the key under which the response is kept. -/
def key : Id × Bytes := (save.session.identityId, save.keyDigest)

/-- The receipt under the key of the save. -/
def receipt? (s : Store) : Option WorkspaceSaveReceipt :=
  findWorkspaceReceipt save.session.identityId save.keyDigest s

/-- The session of the save is current and has not expired. -/
def Admitted (s : Store) : Prop :=
  save.time < save.session.expiresAt ∧ isSessionGenerationCurrent save.session s = true

omit [Platform] in
instance (s : Store) : Decidable (save.Admitted s) :=
  inferInstanceAs (Decidable (_ ∧ _))

end BrowserSave

variable {save : BrowserSave} {response : WorkspaceSaveResponse} {replayed : Bool}

/-- **The answer of a save whose receipt is there**: the response it holds, and nothing is
changed. -/
theorem commit_retried {db : Db} {row : WorkspaceSaveReceipt}
    (hkeys : DeferredForeignKeys db.store) (hrow : save.receipt? db.store = some row)
    (hfingerprint : row.requestFingerprint = save.request.fingerprint) :
    save.operation.commit db =
      if save.Admitted db.store then (.ok (.workspace row.response true), db)
      else (.error .authentication, db) := by
  by_cases h : save.Admitted db.store
  · rw [if_pos h]
    refine immediateTransaction_same hkeys (bind_ok.mpr ⟨(row.response, true), _, ?_, rfl⟩)
    have hreplay : replayWorkspace save.session save.keyDigest save.request.fingerprint db.store =
        .ok (some row.response) := by
      have hfound : findWorkspaceReceipt save.session.identityId save.keyDigest db.store =
          some row := hrow
      simp only [replayWorkspace, hfound, if_pos hfingerprint]
    refine bind_ok.mpr ⟨⟨⟩, _, requireMasterSession_ok.mpr ⟨h, rfl⟩, ?_⟩
    exact bind_ok.mpr ⟨some row.response, _, query_ok.mpr ⟨hreplay, rfl⟩, rfl⟩
  · rw [if_neg h]
    have hrefused : requireMasterSession save.session save.time ⟨db.store, []⟩ =
        .error .authentication := requireMasterSession_error h
    exact immediateTransaction_error (bind_error (bind_error hrefused))

/-! ### What a save leaves behind -/

/-- What the Page with this identifier shows: its files and its presentation. -/
def Store.shown (libraryId : Id) (pageId : Text) (s : Store) :
    Except Err (Option (Except Err FileManifest × Presentation)) :=
  (getPage libraryId pageId s).map (Option.map fun p => s.appearance p.currentRevision)

/-- `t` is `s` after the save has merged its changes into the current Revision `m` of the
Page, which then has the files `m'`. -/
structure SavedOver (request : SaveRequest) (pageId : Text) (overwritten : Option Bool)
    (p q : Page) (m m' : FileManifest) (s t : Store) : Prop where
  before : getPage (formatOptional request.libraryId) pageId s = .ok (some p)
  after : getPage (formatOptional request.libraryId) pageId t = .ok (some q)
  current : (s.appearance p.currentRevision).1 = .ok m
  merged : m.MergesTo request.changes request.uploads m'
  exact : ∃ presentation, presentationFor m' request.primaryFile = .ok presentation ∧
    t.appearance q.currentRevision = (.ok m', presentation)
  overwritten : ∃ etag, p.etag = .ok etag ∧ overwritten = some (request.baseEtag.any (· ≠ etag))

theorem workspacePage_ok {libraryId : Id} {pageId : Text} {s : Store} {page : Page} :
    workspacePage libraryId pageId s = .ok page ↔
      getPage libraryId pageId s = .ok (some page) ∧ page.deletedAt = none := by
  simp only [workspacePage, Fallible.bind_ok, Fallible.get_ok, Fallible.check_ok, Fallible.pure_ok,
    exists_and_left, exists_const]
  constructor
  · rintro ⟨_, hpage, page, rfl, hlive, rfl⟩
    exact ⟨hpage, hlive⟩
  · rintro ⟨hpage, hlive⟩
    exact ⟨_, hpage, page, rfl, hlive, rfl⟩

/-- **A save over a Page merges its changes into the current Revision.** -/
theorem saveExistingPage_ok {request : SaveRequest} {pageId : Text} {now : ℤ} {fresh : Fresh}
    {result : SaveResult} {c c' : Connection} (hsound : RevisionsSound c.store)
    (hids : IdentifiersSound c.store)
    (h : saveExistingPage request pageId now fresh c = .ok (result, c')) :
    ∃ p q m m', SavedOver request pageId (some result.overwritten) p q m m' c.store c'.store := by
  simp only [saveExistingPage, bind_ok, query_ok, attempt_ok, pure_ok, workspacePage_ok,
    exists_and_left, exists_eq_left', and_assoc] at h
  obtain ⟨p, hpage, -, etag, hetag, m, hcurrent, files, hmerge, appended, c₁, happend, rfl, rfl⟩ := h
  obtain ⟨m', presentation, p', hbuild, hpresentation, hpage', hdone⟩ :=
    appendExistingPage_ok hsound hids.keys happend
  obtain ⟨hafter, -, -⟩ := appended_row hsound hids happend
  -- the append looks the Page up under its own identifier
  obtain ⟨hlibrary, hid⟩ := identifier_of_getPage hids hpage
  have hshown : presentationFor m' request.primaryFile = .ok presentation := by
    simp only [FileSetAppend.presentation, workspaceAppend, Fallible.bind_ok, Fallible.pure_ok]
      at hpresentation
    obtain ⟨_, hpresentation, rfl⟩ := hpresentation
    exact hpresentation
  refine ⟨p, appended.page, m, m', ?_⟩
  exact
    { before := hpage
      after := by
        rw [← hlibrary, ← hid]
        exact hafter
      current := hcurrent
      merged := ⟨files, hmerge, hbuild⟩
      exact := ⟨presentation, hshown, hdone.exact⟩
      overwritten := ⟨etag, hetag, rfl⟩ }

theorem SavedOver.of_contentSame {request : SaveRequest} {pageId : Text} {overwritten : Option Bool}
    {p q : Page} {m m' : FileManifest} {s t u : Store}
    (h : SavedOver request pageId overwritten p q m m' s t) (hsame : ContentSame t u) :
    SavedOver request pageId overwritten p q m m' s u where
  before := h.before
  after := by
    rw [← h.after]
    simp only [getPage, Store.page?, hsame.1]
  current := h.current
  merged := h.merged
  exact := by
    rw [(SnapshotsSame.of_content hsame.1).appearance_eq]
    exact h.exact
  overwritten := h.overwritten

/-- The snapshot that a save starts from is the one that is shown. -/
theorem SavedOver.current_eq {request request' : SaveRequest} {pageId : Text}
    {overwritten : Option Bool} {p q page : Page} {m m' n : FileManifest} {s t : Store}
    (h : SavedOver request pageId overwritten p q m m' s t)
    (hlibrary : request.libraryId = request'.libraryId)
    (hpage : getPage (formatOptional request'.libraryId) pageId s = .ok (some page))
    (hcurrent : (s.appearance page.currentRevision).1 = .ok n) : m = n := by
  have hfound := h.before
  rw [hlibrary, hpage] at hfound
  obtain rfl : page = p := Option.some.inj (Except.ok.inj hfound)
  exact Except.ok.inj (h.current.symm.trans hcurrent)

theorem SavedOver.shown {request : SaveRequest} {pageId : Text} {overwritten : Option Bool}
    {p q : Page} {m m' : FileManifest} {s t : Store}
    (h : SavedOver request pageId overwritten p q m m' s t) :
    ∃ presentation, presentationFor m' request.primaryFile = .ok presentation ∧
      t.shown (formatOptional request.libraryId) pageId = .ok (some (.ok m', presentation)) := by
  obtain ⟨presentation, hpresentation, hexact⟩ := h.exact
  refine ⟨presentation, hpresentation, ?_⟩
  rw [Store.shown, h.after, ← hexact]
  rfl

/-- What is around the save of the files. -/
theorem savePageFresh_ok {c c' : Connection}
    (h : savePageFresh save.session save.keyDigest save.request save.readings save.fresh c =
      .ok (response, c')) :
    ∃ result c₁ createdAt,
      saveFiles save.request save.readings.now save.fresh c = .ok (result, c₁) ∧
      ContentSame c₁.store c'.store ∧
      response.overwrittenNewerRevision = some result.overwritten ∧
      (∀ r ∈ c₁.store.receipts.workspaceSaveReceipts,
        ¬(r.identityId = save.session.identityId ∧ r.keyDigest = save.keyDigest)) ∧
      c'.store.receipts.workspaceSaveReceipts = c₁.store.receipts.workspaceSaveReceipts ++
        [⟨save.session.identityId, save.keyDigest, save.request.fingerprint, response, createdAt⟩] := by
  simp only [savePageFresh, bind_ok, attempt_ok, pure_ok, exists_and_left, exists_eq_left',
    and_assoc] at h
  obtain ⟨result, c₁, hfiles, _, c₂, haudit, etag, hetag, _, c₃, hremember, rfl, rfl⟩ := h
  have hsame := ContentSame.keeps_auditWorkspace _ _ _ _ _ _ _ _ _ _ _ haudit
  have hreceipts := ContentSame.keeps_insertWorkspaceSaveReceipt _ _ _ _ hremember
  have hquiet : c₂.store.receipts = c₁.store.receipts := by
    unfold auditWorkspace at haudit
    split at haudit
    · obtain ⟨-, rfl⟩ := insertMasterAuditEvent_ok.mp haudit
      rfl
    · obtain ⟨-, rfl⟩ := pure_ok.mp haudit
      rfl
  simp only [remember, insertWorkspaceSaveReceipt, bind_ok, constraint_ok, modifyStore_ok,
    exists_and_left, exists_eq_left', and_assoc, exists_const, hquiet] at hremember
  obtain ⟨-, hunique, rfl⟩ := hremember
  refine ⟨result, c₁, max save.readings.receipt result.page.updatedAt, hfiles,
    ContentSame.isFrame.trans hsame hreceipts, rfl, hunique, ?_⟩
  simp only [Store.modifyReceipts, hquiet]

/-- The receipt that answers the save with this response. -/
def BrowserSave.AnsweredBy (save : BrowserSave) (response : WorkspaceSaveResponse) (s : Store) :
    Prop :=
  ∃ row, save.receipt? s = some row ∧ row.requestFingerprint = save.request.fingerprint ∧
    row.response = response

theorem answeredBy_of_fresh {c c' : Connection}
    (h : savePageFresh save.session save.keyDigest save.request save.readings save.fresh c =
      .ok (response, c')) : save.AnsweredBy response c'.store := by
  obtain ⟨result, c₁, createdAt, -, -, -, hunique, hreceipts⟩ := savePageFresh_ok h
  refine ⟨⟨save.session.identityId, save.keyDigest, save.request.fingerprint, response, createdAt⟩,
    ?_, rfl, rfl⟩
  have hnone : c₁.store.receipts.workspaceSaveReceipts.find? (fun r =>
      decide (r.identityId = save.session.identityId ∧ r.keyDigest = save.keyDigest)) = none := by
    rw [List.find?_eq_none]
    exact fun r hr hkey => hunique r hr (of_decide_eq_true hkey)
  rw [BrowserSave.receipt?, findWorkspaceReceipt, hreceipts, List.find?_append, hnone, Option.none_or,
    List.find?_cons_of_pos (by simp)]

/-- **A save is answered from its receipt, or it leaves one.** -/
theorem commit_save {db db' : Db} (hkeys : DeferredForeignKeys db.store)
    (h : save.operation.commit db = (.ok (.workspace response replayed), db')) :
    save.AnsweredBy response db'.store ∧
      (replayed = true ∧ db' = db ∨
        replayed = false ∧ ∃ c', savePageFresh save.session save.keyDigest save.request save.readings
          save.fresh ⟨db.store, []⟩ = .ok (response, c') ∧ db'.store = c'.store) := by
  rcases immediateTransaction_eq_or save.operation.body db with ⟨e, hrun⟩ |
    ⟨a, c, db₁, hbody, hstore, -, hrun⟩
  · rw [Operation.commit, hrun] at h
    cases h
  rw [Operation.commit, hrun] at h
  obtain ⟨ha, rfl⟩ := Prod.mk.inj h
  obtain rfl := Except.ok.inj ha
  obtain ⟨⟨response', replayed'⟩, c₁, hsave, hanswer⟩ := bind_ok.mp hbody
  obtain ⟨hsame, rfl⟩ := pure_ok.mp hanswer
  obtain ⟨rfl, rfl⟩ := Answer.workspace.inj hsame
  simp only [savePage, bind_ok, requireMasterSession_ok, query_ok, exists_and_left, exists_eq_left',
    and_assoc, exists_const] at hsave
  obtain ⟨-, -, previous, hprevious, hrest⟩ := hsave
  cases previous with
  | some previous =>
    obtain ⟨heq, rfl⟩ := pure_ok.mp hrest
    obtain ⟨rfl, rfl⟩ := Prod.mk.inj heq
    have hanswered : save.AnsweredBy previous db.store := by
      unfold replayWorkspace at hprevious
      split at hprevious
      · cases hprevious
      · next row hrow =>
        split at hprevious
        · next hfingerprint =>
          exact ⟨row, hrow, hfingerprint, Option.some.inj (Except.ok.inj hprevious)⟩
        · cases hprevious
    have hcommit := immediateTransaction_same hkeys hbody
    rw [hrun] at hcommit
    obtain rfl := congrArg Prod.snd hcommit
    exact ⟨hanswered, .inl ⟨rfl, rfl⟩⟩
  | none =>
    simp only [bind_ok, pure_ok, and_assoc, Prod.mk.injEq] at hrest
    obtain ⟨_, _, hfresh, rfl, rfl, rfl⟩ := hrest
    refine ⟨?_, .inr ⟨rfl, _, hfresh, hstore⟩⟩
    rw [hstore]
    exact answeredBy_of_fresh hfresh

/-! ### Saves in a run -/

section

variable {s t : Db} {events : List PageEvent} {pageId : Text}

theorem Db.Reachable.deferredForeignKeys (h : s.Reachable) : DeferredForeignKeys s.store := by
  obtain ⟨_, hrun⟩ := h
  exact hrun.deferredForeignKeys

theorem Db.Reachable.revisionsSound (h : s.Reachable) : RevisionsSound s.store := by
  obtain ⟨_, hrun⟩ := h
  exact hrun.revisionsSound s hrun.mem_visited

/-- **An applied save over a Page merges its changes into what is current when it runs.** -/
theorem savedOver_of_commit (hs : s.Reachable) (hpage : save.request.pageId = some pageId)
    (h : save.operation.commit s = (.ok (.workspace response false), t)) :
    ∃ p q m m', SavedOver save.request pageId response.overwrittenNewerRevision p q m m' s.store
      t.store := by
  obtain ⟨-, ⟨hreplayed, -⟩ | ⟨-, c', hfresh, hstore⟩⟩ := commit_save hs.deferredForeignKeys h
  · cases hreplayed
  obtain ⟨result, c₁, -, hfiles, hsame, hoverwritten, -, -⟩ := savePageFresh_ok hfresh
  simp only [saveFiles, hpage] at hfiles
  obtain ⟨p, q, m, m', hsaved⟩ :=
    saveExistingPage_ok hs.revisionsSound hs.identifiersSound hfiles
  refine ⟨p, q, m, m', ?_⟩
  rw [hoverwritten, hstore]
  exact hsaved.of_contentSame hsame

/-- A save that is answered from its receipt changes nothing, and is so ever after. -/
theorem commit_replayed (hs : s.Reachable)
    (h : save.operation.commit s = (.ok (.workspace response true), t)) : t = s := by
  obtain ⟨-, ⟨-, rfl⟩ | ⟨hreplayed, -⟩⟩ := commit_save hs.deferredForeignKeys h
  · rfl
  · cases hreplayed

theorem Db.Reachable.commit (hs : s.Reachable) (op : Operation) : (op.commit s).2.Reachable :=
  hs.step (.operation op s)

/-- **Saves that mention different files commute.** -/
theorem saves_comm {save save' : BrowserSave} {s₁ s₁₂ s₂ s₂₁ : Db}
    {first first' second second' : WorkspaceSaveResponse} {kept kept' : Bool} (hs : s.Reachable)
    (hpage : save.request.pageId = some pageId) (hpage' : save'.request.pageId = some pageId)
    (hlibrary : save'.request.libraryId = save.request.libraryId)
    (hprimary : save'.request.primaryFile = save.request.primaryFile)
    (hdisjoint : save.mentioned.Disjoint save'.mentioned)
    (h₁ : save.operation.commit s = (.ok (.workspace first kept), s₁))
    (h₁₂ : save'.operation.commit s₁ = (.ok (.workspace second' kept'), s₁₂))
    (h₂ : save'.operation.commit s = (.ok (.workspace first' kept'), s₂))
    (h₂₁ : save.operation.commit s₂ = (.ok (.workspace second kept), s₂₁)) :
    s₁₂.store.shown (formatOptional save.request.libraryId) pageId =
      s₂₁.store.shown (formatOptional save.request.libraryId) pageId := by
  have hs₁ : s₁.Reachable := by
    have hreachable := hs.commit save.operation
    rwa [h₁] at hreachable
  have hs₂ : s₂.Reachable := by
    have hreachable := hs.commit save'.operation
    rwa [h₂] at hreachable
  cases kept with
  | true =>
    -- the first save has been applied before, so only the other one does anything
    obtain rfl := commit_replayed hs h₁
    obtain rfl := commit_replayed hs₂ h₂₁
    rw [h₁₂] at h₂
    rw [(Prod.mk.inj h₂).2]
  | false =>
    cases kept' with
    | true =>
      obtain rfl := commit_replayed hs h₂
      obtain rfl := commit_replayed hs₁ h₁₂
      rw [h₁] at h₂₁
      rw [(Prod.mk.inj h₂₁).2]
    | false =>
      obtain ⟨p, p₁, m, m₁, hsaved₁⟩ := savedOver_of_commit hs hpage h₁
      obtain ⟨_, p₁₂, _, m₁₂, hsaved₁₂⟩ := savedOver_of_commit hs₁ hpage' h₁₂
      obtain ⟨_, p₂, _, m₂, hsaved₂⟩ := savedOver_of_commit hs hpage' h₂
      obtain ⟨_, p₂₁, _, m₂₁, hsaved₂₁⟩ := savedOver_of_commit hs₂ hpage h₂₁
      -- both saves start from one snapshot, and each second save from what the first has made
      obtain rfl := hsaved₂.current_eq hlibrary hsaved₁.before hsaved₁.current
      obtain ⟨_, -, hexact₁⟩ := hsaved₁.exact
      obtain ⟨_, -, hexact₂⟩ := hsaved₂.exact
      obtain rfl := hsaved₁₂.current_eq hlibrary hsaved₁.after (congrArg Prod.fst hexact₁)
      obtain rfl := hsaved₂₁.current_eq hlibrary.symm hsaved₂.after (congrArg Prod.fst hexact₂)
      obtain rfl : m₁₂ = m₂₁ :=
        merged_comm hdisjoint hsaved₁.merged hsaved₁₂.merged hsaved₂.merged hsaved₂₁.merged
      obtain ⟨presentation, hpresentation, hshown⟩ := hsaved₁₂.shown
      obtain ⟨presentation', hpresentation', hshown'⟩ := hsaved₂₁.shown
      rw [hprimary, hpresentation'] at hpresentation
      rw [hlibrary] at hshown
      rw [hshown, hshown', Except.ok.inj hpresentation]

/-- **The flag of an applied save**: the Page has changed since its ETag was read. -/
theorem overwritten_iff {p q : Page} {etag : Text} (hs : s.Reachable)
    (hrun : Trace PageStep s events t) (hp : p ∈ s.store.content.pages) (hpe : p.etag = .ok etag)
    (hq : getPage (formatOptional save.request.libraryId) pageId t.store = .ok (some q))
    (hkey : q.key = p.key) (hsha : Set.InjOn sha256 {p.etagSource, q.etagSource})
    (hpage : save.request.pageId = some pageId) (hbase : save.request.baseEtag = some etag)
    {u : Db} (h : save.operation.commit t = (.ok (.workspace response false), u)) :
    response.overwrittenNewerRevision = some true ↔ q ≠ p := by
  have ht : t.Reachable := versionedPages.holds hrun hs
  obtain ⟨p', _, _, _, hsaved⟩ := savedOver_of_commit ht hpage h
  obtain rfl : q = p' := Option.some.inj (Except.ok.inj (hq.symm.trans hsaved.before))
  obtain ⟨current, hcurrent, hflag⟩ := hsaved.overwritten
  obtain ⟨_, _, -, -, hrow, -⟩ := getPage_ok hq
  rw [hflag, hbase]
  simp only [Option.any_some, Option.some.injEq, decide_eq_true_eq]
  constructor
  · rintro hne rfl
    exact hne (Except.ok.inj (hpe.symm.trans hcurrent))
  · rintro hne rfl
    exact hne (eq_of_etag hs hrun hp (mem_of_page? hrow).1 hkey hsha hpe hcurrent)

/-- A save without a base ETag, or of a new Page, overwrites nothing newer. -/
theorem not_overwritten (hs : s.Reachable)
    (hnew : save.request.pageId = none ∨ save.request.baseEtag = none)
    (h : save.operation.commit s = (.ok (.workspace response false), t)) :
    response.overwrittenNewerRevision = some false := by
  obtain ⟨-, ⟨hreplayed, -⟩ | ⟨-, c', hfresh, -⟩⟩ := commit_save hs.deferredForeignKeys h
  · cases hreplayed
  obtain ⟨result, c₁, -, hfiles, -, hoverwritten, -, -⟩ := savePageFresh_ok hfresh
  rw [hoverwritten]
  cases hpage : save.request.pageId with
  | none =>
    simp only [saveFiles, hpage, saveNewPage, bind_ok, pure_ok] at hfiles
    obtain ⟨_, _, -, _, _, -, _, _, -, _, _, -, _, _, -, _, _, -, rfl, -⟩ := hfiles
    rfl
  | some pageId =>
    have hbase : save.request.baseEtag = none := by
      rcases hnew with hnone | hnone
      · rw [hpage] at hnone
        cases hnone
      · exact hnone
    simp only [saveFiles, hpage] at hfiles
    obtain ⟨_, _, _, _, hsaved⟩ := saveExistingPage_ok hs.revisionsSound hs.identifiersSound hfiles
    obtain ⟨_, -, hflag⟩ := hsaved.overwritten
    rw [hflag, hbase, Option.any_none]

/-- **A retried save is answered with its first response**, whatever has happened since. -/
theorem commit_retried_of_run (hs : s.Reachable)
    (h : save.operation.commit s = (.ok (.workspace response replayed), t)) {u : Db}
    (hrun : Trace SaveStep t events u) {again : BrowserSave} (hkey : again.key = save.key)
    (hrequest : again.request = save.request) :
    again.operation.commit u =
      if again.Admitted u.store then (.ok (.workspace response true), u)
      else (.error .authentication, u) := by
  obtain ⟨⟨row, hrow, hfingerprint, rfl⟩, -⟩ := commit_save hs.deferredForeignKeys h
  have ht : t.Reachable := by
    have hreachable := hs.commit save.operation
    rwa [h] at hreachable
  have hu : u.Reachable := hrun.invariant ht fun _ _ _ hs hstep => hs.step hstep.pageStep.step
  obtain ⟨hidentity, hdigest⟩ := Prod.mk.inj hkey
  have hfound : again.receipt? u.store = some row := by
    rw [BrowserSave.receipt?, hidentity, hdigest]
    exact (receiptsKept_of_run hrun).find hrow
  rw [← hrequest] at hfingerprint
  exact commit_retried hu.deferredForeignKeys hfound hfingerprint

end

end

section Sample

attribute [local instance] asciiPlatform

/-- The browser replaces the file of the sample Page, without a base ETag. -/
def sampleSave : BrowserSave where
  session := sampleSession
  time := 0
  keyDigest := [6]
  request :=
    { libraryId := some "lib", pageId := some samplePageId, primaryFile := none
      changes := { edits := [("notes.md", "hello")] }, metadata := .null }
  readings := ⟨2000, 2000, 2000⟩
  fresh :=
    { sourceId := "source-4", auditId := "audit-5"
      revisionIds := ["rev_00000000000000000000000000000004"] }

/-- A retry under another reading of the clock. -/
def sampleRetry : BrowserSave := { sampleSave with readings := ⟨9000, 9000, 9000⟩, fresh := {} }

def sampleSaved : Db := (sampleSave.operation.commit sampleCreated).2

/-- Whether a save of the browser says that the Page has changed, and whether it is
answered from a receipt. -/
def Answer.workspace? : Answer → Option (Bool × Bool)
  | .workspace response replayed => some (response.changed, replayed)
  | _ => none

theorem workspace?_eq {outcome : Except Err Answer} {changed replayed : Bool}
    (h : outcome.toOption.bind Answer.workspace? = some (changed, replayed)) :
    ∃ response, outcome = .ok (.workspace response replayed) ∧ response.changed = changed := by
  cases outcome with
  | error e => cases h
  | ok a =>
    cases a with
    | workspace response replayed' =>
      obtain ⟨rfl, rfl⟩ := Prod.mk.inj (Option.some.inj h)
      exact ⟨response, rfl, rfl⟩
    | _ => cases h

end Sample

end PatchouliLib
