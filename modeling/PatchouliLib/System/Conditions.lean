import PatchouliLib.System.Restores

/-!
# Conditional writes

Most operations carry the ETag their caller has read.  When the Page has another
ETag by the time the operation runs, the operation fails, or it is answered with
the response that an earlier success has left under its key.  Either way nothing
changes but the last use of a credential.

## Main definitions

* `Operation.condition` — the Page and the ETag that an operation carries.
* `Operation.Carries` — the operation carries the ETag for the Page with a key.
* `Condition.Stale` — the Page has another ETag.
* `Replays condition kept x` — against another ETag the body can only replay.

## Main results

* `replays_body` — **an operation that carries another ETag than the current one
  fails or is answered with a kept response.**
-/

namespace PatchouliLib

open Foundation

variable [Platform]

/-! ### What an operation carries -/

/-- A Page by its public identifier, and the ETag it must have. -/
structure Condition where
  libraryId : Id
  pageId : Text
  etag : Text

/-- The condition of an operation that carries an ETag. -/
def Operation.condition : Operation → Option Condition
  | appendRevision _ command _ _ _ =>
    command.expectedEtag.map fun etag => ⟨command.libraryId, command.pageId, etag⟩
  | correctArchiveOccurrence _ command _ _ _ =>
    some ⟨command.libraryId, command.pageId, command.expectedEtag⟩
  | transitionArchiveLifecycle _ command _ _ _ _ =>
    some ⟨command.libraryId, command.pageId, command.expectedEtag⟩
  | restorePageAsOperator _ command _ _ _ =>
    some ⟨command.libraryId, command.pageId, command.expectedEtag⟩
  | appendFileSet _ command _ _ _ =>
    command.expectedEtag.map fun etag => ⟨command.libraryId, command.pageId, etag⟩
  | movePage _ command _ _ _ => some ⟨command.libraryId, command.pageId, command.expectedEtag⟩
  | transitionPage _ command _ _ _ => some ⟨command.libraryId, command.pageId, command.expectedEtag⟩
  | changePageLifecycleAsMaster _ _ request _ _ _ =>
    some ⟨request.libraryId, request.pageId, request.expectedEtag⟩
  | correctPageOccurrenceAsMaster _ _ request _ _ =>
    some ⟨request.libraryId, request.pageId, request.expectedEtag⟩
  | movePageAsMaster _ _ command _ _ _ =>
    some ⟨command.libraryId, command.pageId, command.expectedEtag⟩
  | writeFileSetAsMaster _ _ (.revise command _) _ _ _ =>
    command.expectedEtag.map fun etag => ⟨command.libraryId, command.pageId, etag⟩
  | restoreRevision _ _ _ request _ _ =>
    some ⟨request.libraryId, request.pageId, request.expectedEtag⟩
  | _ => none

/-- The operation carries the ETag for the Page with this key. -/
def Operation.Carries (op : Operation) (key : PageKey) (etag : Text) (db : Db) : Prop :=
  ∃ condition ∈ op.condition, condition.etag = etag ∧
    ∃ page, getPage condition.libraryId condition.pageId db.store = .ok (some page) ∧
      page.key = key

/-- The answer is one that an earlier success has left. -/
def Answer.replayed : Answer → Bool
  | service result => result.replayed
  | move result => result.replayed
  | fileSet result => result.replayed
  | workspace _ replayed => replayed
  | _ => false

/-! ### Stale conditions -/

/-- The Page of the condition has another ETag, whatever Page that is. -/
structure Condition.Stale (condition : Condition) (s : Store) : Prop where
  etag : ∀ page, getPage condition.libraryId condition.pageId s = .ok (some page) →
    page.etag ≠ .ok condition.etag
  identifier : ∀ page, getPage condition.libraryId condition.pageId s = .ok (some page) →
    page.key.libraryId = condition.libraryId ∧ page.pageId = condition.pageId

/-- Nothing but credentials may differ. -/
def SameButAuth (c c' : Connection) : Prop :=
  ∃ auth, c' = { c with store := { c.store with auth := auth } }

omit [Platform] in
theorem SameButAuth.isFrame : IsFrame SameButAuth where
  refl c := ⟨c.store.auth, rfl⟩
  trans h h' := by
    obtain ⟨_, rfl⟩ := h
    obtain ⟨auth, rfl⟩ := h'
    exact ⟨auth, rfl⟩

theorem sameButAuth_authenticate (tokenValue : Text) (now : ℤ) :
    Keeps SameButAuth (authenticate tokenValue now) := by
  have hF := SameButAuth.isFrame
  refine hF.bind (hF.query _) fun a => ?_
  split
  · exact hF.bind (.writes fun _ => ⟨_, rfl⟩) fun _ => hF.pure _
  · exact hF.pure _

theorem sameButAuth_authorizeContent (tokenValue : Text) (libraryId sectionId : Id)
    (action : SectionAction) (now : ℤ) :
    Keeps SameButAuth (authorizeContent tokenValue libraryId sectionId action now) := by
  have hF := SameButAuth.isFrame
  refine hF.bind (sameButAuth_authenticate _ _) fun _ => ?_
  exact hF.bind (hF.query _) fun _ => hF.pure _

theorem sameButAuth_requireOperator (tokenValue : Text) (libraryId : Id) (now : ℤ) :
    Keeps SameButAuth (requireOperator tokenValue libraryId now) := by
  have hF := SameButAuth.isFrame
  refine hF.bind (sameButAuth_authenticate _ _) fun _ => ?_
  exact hF.bind (hF.require _ _) fun _ => hF.pure _

theorem sameButAuth_authorizePageMove (tokenValue : Text) (libraryId : Id) (now : ℤ) :
    Keeps SameButAuth (authorizePageMove tokenValue libraryId now) := by
  have hF := SameButAuth.isFrame
  refine hF.bind (sameButAuth_authenticate _ _) fun _ => ?_
  exact hF.bind (hF.query _) fun _ => hF.pure _

omit [Platform] in
theorem sameButAuth_requireMasterSession (session : MasterAdminSession) (time : ℤ) :
    Keeps SameButAuth (requireMasterSession session time) := by
  have hF := SameButAuth.isFrame
  exact hF.bind (hF.query _) fun _ => hF.require _ _

/-- A condition is as stale behind a credential that has been used. -/
theorem Condition.Stale.sameButAuth {condition : Condition} {c c' : Connection}
    (h : condition.Stale c.store) (hsame : SameButAuth c c') : condition.Stale c'.store := by
  obtain ⟨auth, rfl⟩ := hsame
  exact ⟨h.etag, h.identifier⟩

/-! ### Bodies that can only replay -/

/-- From a state in which the condition is stale, the body succeeds only with a kept
answer, and then changes nothing but credentials. -/
def Replays {α : Type} (condition : Condition) (kept : α → Bool) (x : Write α) : Prop :=
  ∀ c r c', condition.Stale c.store → x c = .ok (r, c') → kept r = true ∧ SameButAuth c c'

namespace Replays

variable {α β : Type} {condition : Condition} {kept : β → Bool}

theorem of_fails {x : Write β} (h : Fails x) : Replays condition kept x :=
  fun c r c' _ hx => absurd hx (h c r c')

/-- What the first link has returned in a stale state may be used. -/
theorem bind_of {x : Write α} {f : α → Write β} (hx : Keeps SameButAuth x)
    (hf : ∀ c a c', condition.Stale c.store → x c = .ok (a, c') → Replays condition kept (f a)) :
    Replays condition kept (x >>= f) := by
  intro c b c' hstale h
  obtain ⟨a, c₁, h₁, h₂⟩ := bind_ok.mp h
  have hsame := hx c a c₁ h₁
  obtain ⟨hkept, hrest⟩ := hf c a c₁ hstale h₁ c₁ b c' (hstale.sameButAuth hsame) h₂
  exact ⟨hkept, SameButAuth.isFrame.trans hsame hrest⟩

theorem query_bind {q : Store → Except Err α} {f : α → Write β}
    (hf : ∀ s a, condition.Stale s → q s = .ok a → Replays condition kept (f a)) :
    Replays condition kept (query q >>= f) :=
  bind_of (SameButAuth.isFrame.query q) fun c a _ hstale ha =>
    hf c.store a hstale (query_ok.mp ha).1

theorem bind {x : Write α} {f : α → Write β} (hx : Keeps SameButAuth x)
    (hf : ∀ a, Replays condition kept (f a)) : Replays condition kept (x >>= f) :=
  bind_of hx fun _ a _ _ _ => hf a

theorem pure {b : β} (hb : kept b = true) : Replays condition kept (Pure.pure b : Write β) := by
  intro c r c' _ h
  obtain ⟨rfl, rfl⟩ := pure_ok.mp h
  exact ⟨hb, SameButAuth.isFrame.refl _⟩

/-- A body that never succeeds in a stale state ends what comes behind it. -/
theorem bind_never {x : Write α} (hx : Replays condition (fun _ => false) x) (f : α → Write β) :
    Replays condition kept (x >>= f) := by
  intro c b c' hstale h
  obtain ⟨a, c₁, h₁, -⟩ := bind_ok.mp h
  exact absurd (hx c a c₁ hstale h₁).1 Bool.false_ne_true

/-- A kept answer stays one in another form. -/
theorem answer {x : Write α} {f : α → Answer} (hx : Replays condition (fun a => (f a).replayed) x) :
    Replays condition Answer.replayed (answer f x) := by
  intro c b c' hstale h
  obtain ⟨a, c₁, h₁, h₂⟩ := bind_ok.mp h
  obtain ⟨rfl, rfl⟩ := pure_ok.mp h₂
  exact hx c a c₁ hstale h₁

end Replays

/-! ### The conditional writes -/

section

variable {condition : Condition} {s : Store} {page : Page}

theorem getPage_of_archivePage {libraryId : Id} {pageId : Text}
    (h : archivePage libraryId pageId s = .ok page) :
    getPage libraryId pageId s = .ok (some page) := by
  simp only [archivePage, Fallible.bind_ok, Fallible.get_ok, Fallible.check_ok, Fallible.pure_ok,
    exists_and_left, exists_const] at h
  obtain ⟨_, hpage, _, rfl, -, rfl⟩ := h
  exact hpage

theorem getPage_of_workspacePage {libraryId : Id} {pageId : Text}
    (h : workspacePage libraryId pageId s = .ok page) :
    getPage libraryId pageId s = .ok (some page) := by
  simp only [workspacePage, Fallible.bind_ok, Fallible.get_ok, Fallible.check_ok, Fallible.pure_ok,
    exists_and_left, exists_const] at h
  obtain ⟨_, hpage, _, rfl, -, rfl⟩ := h
  exact hpage

/-- Another ETag is not the current one. -/
theorem fails_requireCurrentEtag {etag : Text} (h : page.etag ≠ .ok etag) (e : Err) :
    Fails (requireCurrentEtag page etag e) := by
  refine .attempt_bind fun current hcurrent => .require ?_ _
  rintro rfl
  exact h hcurrent

theorem fails_appendRevisionFresh {command : AppendArchiveRevisionCommand}
    (h : ∀ etag ∈ command.expectedEtag, page.etag ≠ .ok etag) (a : AuthenticatedCaller)
    (caller : TransactionValidatedCaller) (request : IdempotencyRequest) (operationAt : ℤ)
    (fresh : Fresh) :
    Fails (appendRevisionFresh page a caller request command operationAt fresh) := by
  refine .bind_right fun _ => .bind_right fun _ => .orThrow_bind fun etag hetag => ?_
  exact .bind_left (fails_requireCurrentEtag (h etag hetag) _) _

theorem replays_appendRevision {command : AppendArchiveRevisionCommand}
    (hcondition : command.expectedEtag.map (⟨command.libraryId, command.pageId, ·⟩) = some condition)
    (tokenValue : Text) (keyDigest : Bytes) (clock : ℤ) (fresh : Fresh) :
    Replays condition (·.replayed) (appendRevision tokenValue command keyDigest clock fresh) := by
  have hF := SameButAuth.isFrame
  obtain ⟨etag, hetag, rfl⟩ := Option.map_eq_some_iff.mp hcondition
  refine .query_bind fun s page hstale hpage => ?_
  have hne := hstale.etag page (getPage_of_archivePage hpage)
  refine .bind (hF.attempt _) fun _ => .bind (sameButAuth_authorizeContent _ _ _ _ _) fun _ => ?_
  refine .bind (hF.query _) fun replay => ?_
  cases replay with
  | some replay => exact .bind (hF.attempt _) fun _ => .bind (hF.query _) fun _ => .pure rfl
  | none =>
    refine .of_fails (fails_appendRevisionFresh (fun etag' hetag' => ?_) _ _ _ _ _)
    obtain rfl := Option.some.inj (hetag.symm.trans hetag')
    exact hne

theorem replays_correctArchiveOccurrence (tokenValue : Text)
    (command : CorrectArchiveOccurrenceCommand) (keyDigest : Bytes) (clock : ℤ) (fresh : Fresh) :
    Replays ⟨command.libraryId, command.pageId, command.expectedEtag⟩ (·.replayed)
      (correctArchiveOccurrence tokenValue command keyDigest clock fresh) := by
  have hF := SameButAuth.isFrame
  refine .query_bind fun s page hstale hpage => ?_
  have hne := hstale.etag page (getPage_of_archivePage hpage)
  refine .bind (hF.attempt _) fun _ => .bind (sameButAuth_authorizeContent _ _ _ _ _) fun _ => ?_
  refine .bind (hF.query _) fun replay => ?_
  cases replay with
  | some replay => exact .bind (hF.query _) fun _ => .pure rfl
  | none =>
    refine .of_fails (.bind_right fun _ => .bind_right fun _ => ?_)
    exact .bind_left (fails_requireCurrentEtag hne _) _

theorem replays_transitionLifecycleAuthorized {command : ArchiveLifecycleCommand}
    (hne : page.etag ≠ .ok command.expectedEtag) (a : AuthenticatedCaller) (keyDigest : Bytes)
    (action : LifecycleAction) (operationAt : ℤ) (fresh : Fresh) :
    Replays condition (·.replayed)
      (transitionLifecycleAuthorized page a command keyDigest action operationAt fresh) := by
  have hF := SameButAuth.isFrame
  refine .bind (hF.query _) fun replay => ?_
  cases replay with
  | some replay => exact .bind (hF.query _) fun _ => .pure rfl
  | none =>
    refine .of_fails (.bind_right fun _ => ?_)
    exact .bind_left (fails_requireCurrentEtag hne _) _

theorem replays_transitionArchiveLifecycle (tokenValue : Text) (command : ArchiveLifecycleCommand)
    (keyDigest : Bytes) (action : LifecycleAction) (clock : ℤ) (fresh : Fresh) :
    Replays ⟨command.libraryId, command.pageId, command.expectedEtag⟩ (·.replayed)
      (transitionArchiveLifecycle tokenValue command keyDigest action clock fresh) := by
  have hF := SameButAuth.isFrame
  refine .query_bind fun s page hstale hpage => ?_
  have hne := hstale.etag page (getPage_of_archivePage hpage)
  refine .bind (hF.attempt _) fun _ => .bind (sameButAuth_authorizeContent _ _ _ _ _) fun _ => ?_
  exact replays_transitionLifecycleAuthorized hne _ _ _ _ _

theorem replays_restorePageAsOperator (tokenValue : Text) (command : ArchiveLifecycleCommand)
    (keyDigest : Bytes) (clock : ℤ) (fresh : Fresh) :
    Replays ⟨command.libraryId, command.pageId, command.expectedEtag⟩ (·.replayed)
      (restorePageAsOperator tokenValue command keyDigest clock fresh) := by
  have hF := SameButAuth.isFrame
  refine .bind (hF.attempt _) fun _ => .bind (sameButAuth_requireOperator _ _ _) fun _ => ?_
  refine .query_bind fun s page hstale hpage => ?_
  exact replays_transitionLifecycleAuthorized (hstale.etag page (getPage_of_archivePage hpage))
    _ _ _ _ _

theorem sameButAuth_fileSetPage (tokenValue : Text) (command : FileSetAppendCommand)
    (operationAt : ℤ) : Keeps SameButAuth (fileSetPage tokenValue command operationAt) := by
  have hF := SameButAuth.isFrame
  refine hF.bind (hF.query _) fun found => ?_
  split
  · exact hF.pure _
  · exact hF.bind (sameButAuth_authorizeContent _ _ _ _ _) fun _ => .raise _

/-- A caller is handed only a Page that the identifier finds. -/
theorem getPage_of_fileSetPage {tokenValue : Text} {command : FileSetAppendCommand}
    {operationAt : ℤ} {c c' : Connection}
    (h : fileSetPage tokenValue command operationAt c = .ok (page, c')) :
    getPage command.libraryId command.pageId c.store = .ok (some page) := by
  rw [fileSetPage, bind_ok] at h
  obtain ⟨found, c₁, hquery, hrest⟩ := h
  obtain ⟨hfound, rfl⟩ := query_ok.mp hquery
  cases hfilter : found.filter fun p => decide (p.pageType = ("archive" : Text)) with
  | none =>
    rw [hfilter] at hrest
    exact absurd hrest (Fails.bind_right (fun _ => Fails.raise _) c page c')
  | some page' =>
    rw [hfilter] at hrest
    obtain ⟨rfl, -⟩ := pure_ok.mp hrest
    rw [hfound, (Option.filter_eq_some_iff.mp hfilter).1]

theorem replays_appendFileSet {command : FileSetAppendCommand}
    (hcondition : command.expectedEtag.map (⟨command.libraryId, command.pageId, ·⟩) = some condition)
    (tokenValue : Text) (keyDigest : Bytes) (clock : ℤ) (fresh : Fresh) :
    Replays condition (·.replayed) (appendFileSet tokenValue command keyDigest clock fresh) := by
  have hF := SameButAuth.isFrame
  obtain ⟨etag, hetag, rfl⟩ := Option.map_eq_some_iff.mp hcondition
  refine .bind (hF.attempt _) fun manifest => .bind (hF.attempt _) fun _ => ?_
  refine .bind (hF.attempt _) fun operationAt => .bind (sameButAuth_authenticate _ _) fun _ => ?_
  refine .bind_of (sameButAuth_fileSetPage _ _ _) fun c page c' hstale hpage => ?_
  have hne := hstale.etag page (getPage_of_fileSetPage hpage)
  refine .bind (sameButAuth_authorizeContent _ _ _ _ _) fun a => .bind (hF.query _) fun replay => ?_
  cases replay with
  | some replay => exact .bind (hF.query _) fun _ => .pure rfl
  | none =>
    refine .of_fails (.bind_right fun _ => .bind_right fun _ => .bind_right fun _ => ?_)
    refine .bind_right fun _ => .orThrow_bind fun etag' hetag' => ?_
    obtain rfl := Option.some.inj (hetag.symm.trans hetag')
    exact .bind_left (fails_requireCurrentEtag hne _) _

/-- A move is not planned against another ETag. -/
theorem not_preparePageMove {command : PageMoveCommand} {plan : PageMovePlan} {operationAt : ℤ}
    (hstale : Condition.Stale ⟨command.libraryId, command.pageId, command.expectedEtag⟩ s) :
    preparePageMove command operationAt s ≠ .ok plan := by
  intro h
  simp only [preparePageMove, Fallible.bind_ok, Fallible.get_ok, Fallible.check_ok, exists_and_left,
    exists_const] at h
  obtain ⟨_, hpage, page, rfl, -, etag, hetag, rfl, -⟩ := h
  exact hstale.etag page hpage hetag

theorem replays_movePage (tokenValue : Text) (command : PageMoveCommand) (keyDigest : Bytes)
    (clock : ℤ) (fresh : Fresh) :
    Replays ⟨command.libraryId, command.pageId, command.expectedEtag⟩ (·.replayed)
      (movePage tokenValue command keyDigest clock fresh) := by
  have hF := SameButAuth.isFrame
  refine .bind (hF.attempt _) fun now => .bind (sameButAuth_authorizePageMove _ _ _) fun a => ?_
  refine .bind (hF.query _) fun replay => ?_
  cases replay with
  | some replay =>
    refine .bind (hF.query _) fun _ => .bind ?_ fun _ => .pure rfl
    exact hF.bind (hF.query _) fun _ => hF.pure _
  | none => exact .query_bind fun s plan hstale hplan => absurd hplan (not_preparePageMove hstale)

theorem replays_transitionPage (tokenValue : Text) (command : PageLifecycleCommand)
    (keyDigest : Bytes) (clock : ℤ) (fresh : Fresh) :
    Replays ⟨command.libraryId, command.pageId, command.expectedEtag⟩ (·.replayed)
      (transitionPage tokenValue command keyDigest clock fresh) := by
  have hF := SameButAuth.isFrame
  refine .bind (hF.attempt _) fun now => .bind (sameButAuth_authorizePageMove _ _ _) fun a => ?_
  refine .bind (hF.query _) fun replay => ?_
  cases replay with
  | some replay =>
    refine .bind (hF.query _) fun _ => .bind ?_ fun _ => .pure rfl
    exact hF.bind (hF.query _) fun _ => hF.pure _
  | none =>
    refine .query_bind fun s page hstale hpage => ?_
    have hne := hstale.etag page (getPage_of_archivePage (Fallible.mapError_ok.mp hpage))
    refine .of_fails (.attempt_bind fun etag hetag => .bind_left (.require ?_ _) _)
    rintro rfl
    exact hne hetag

theorem replays_changePageLifecycleAsMaster (session : MasterAdminSession) (time : ℤ)
    (request : MasterLifecycleRequest) (action : LifecycleAction) (clock : ℤ) (fresh : Fresh)
    {kept : Text → Bool} :
    Replays ⟨request.libraryId, request.pageId, request.expectedEtag⟩ kept
      (changePageLifecycleAsMaster session time request action clock fresh) := by
  refine .bind (sameButAuth_requireMasterSession _ _) fun _ => ?_
  refine .query_bind fun s page hstale hpage => ?_
  have hne := hstale.etag page (getPage_of_archivePage hpage)
  exact .of_fails (.bind_right fun _ => .bind_left (fails_requireCurrentEtag hne _) _)

theorem replays_correctPageOccurrenceAsMaster (session : MasterAdminSession) (time : ℤ)
    (request : MasterOccurrenceRequest) (clock : ℤ) (fresh : Fresh) {kept : Bool → Bool} :
    Replays ⟨request.libraryId, request.pageId, request.expectedEtag⟩ kept
      (correctPageOccurrenceAsMaster session time request clock fresh) := by
  have hF := SameButAuth.isFrame
  refine .bind (hF.attempt _) fun _ => .bind (sameButAuth_requireMasterSession _ _) fun _ => ?_
  refine .query_bind fun s page hstale hpage => ?_
  have hne := hstale.etag page (getPage_of_archivePage hpage)
  exact .of_fails (.bind_right fun _ => .bind_left (fails_requireCurrentEtag hne _) _)

theorem replays_movePageAsMaster (session : MasterAdminSession) (time : ℤ)
    (command : PageMoveCommand) (keyDigest : Bytes) (now : ℤ) (fresh : Fresh) :
    Replays ⟨command.libraryId, command.pageId, command.expectedEtag⟩ (·.replayed)
      (movePageAsMaster session time command keyDigest now fresh) := by
  have hF := SameButAuth.isFrame
  refine .bind (sameButAuth_requireMasterSession _ _) fun _ => .bind (hF.query _) fun previous => ?_
  cases previous with
  | some previous => exact .bind (hF.require _ _) fun _ => .bind (hF.query _) fun _ => .pure rfl
  | none => exact .query_bind fun s plan hstale hplan => absurd hplan (not_preparePageMove hstale)

/-- An append does not run against another ETag. -/
theorem replays_appendExistingPage {command : FileSetAppend} {kept : FileSetAppendResult → Bool}
    (hcommand : condition = ⟨command.libraryId, command.pageId, command.expectedEtag⟩) :
    Replays condition kept (appendExistingPage command) := by
  have hF := SameButAuth.isFrame
  subst hcommand
  refine .bind (hF.attempt _) fun _ => .bind (hF.attempt _) fun _ => ?_
  refine .query_bind fun s found hstale hfound => .of_fails (.orThrow_bind fun page hpage => ?_)
  have hne := hstale.etag page (hpage ▸ hfound)
  refine .bind_right fun _ => .attempt_bind fun etag hetag => .bind_left (.require ?_ _) _
  rintro rfl
  exact hne hetag

theorem replays_writeFileSetAsMaster {command : FileSetAppendCommand}
    (hcondition : command.expectedEtag.map (⟨command.libraryId, command.pageId, ·⟩) = some condition)
    (session : MasterAdminSession) (time : ℤ) (bookId : Id) (keyDigest : Bytes) (now : ℤ)
    (fresh : Fresh) :
    Replays condition (·.replayed)
      (writeFileSetAsMaster session time (.revise command bookId) keyDigest now fresh) := by
  have hF := SameButAuth.isFrame
  obtain ⟨etag, hetag, rfl⟩ := Option.map_eq_some_iff.mp hcondition
  refine .bind (hF.attempt _) fun manifest => ?_
  refine .bind (sameButAuth_requireMasterSession _ _) fun _ => .bind (hF.query _) fun previous => ?_
  cases previous with
  | some previous => exact .bind (hF.require _ _) fun _ => .bind (hF.query _) fun _ => .pure rfl
  | none =>
    refine .bind (hF.attempt _) fun _ => .bind (hF.query _) fun book => .bind_never ?_ _
    refine .query_bind fun s found hstale hfound => .bind_of (hF.orThrow _ _) fun _ page _ _ hpage => ?_
    have hfound : getPage command.libraryId command.pageId s = .ok (some page) := by
      rw [hfound, (orThrow_ok.mp hpage).1]
    obtain ⟨hlibrary, hid⟩ := hstale.identifier page hfound
    refine .bind (hF.require _ _) fun _ => .bind_of (hF.orThrow _ _) fun _ etag' _ _ hetag' => ?_
    obtain rfl := Option.some.inj (hetag.symm.trans (orThrow_ok.mp hetag').1)
    refine .bind (hF.query _) fun restored => .bind_never (replays_appendExistingPage ?_) _
    rw [masterAppend, hlibrary, hid]

theorem replays_restoreRevision (session : MasterAdminSession) (time : ℤ) (keyDigest : Bytes)
    (request : RestoreRequest) (readings : Readings) (fresh : Fresh) :
    Replays ⟨request.libraryId, request.pageId, request.expectedEtag⟩ (·.2)
      (restoreRevision session time keyDigest request readings fresh) := by
  have hF := SameButAuth.isFrame
  refine .bind (sameButAuth_requireMasterSession _ _) fun _ => .bind (hF.query _) fun previous => ?_
  cases previous with
  | some previous => exact .pure rfl
  | none =>
    refine .bind_never ?_ _
    refine .query_bind fun s page hstale hpage => ?_
    obtain ⟨hlibrary, hid⟩ := hstale.identifier page (getPage_of_workspacePage hpage)
    refine .bind (hF.query _) fun _ => .bind (hF.query _) fun _ => .bind (hF.query _) fun _ => ?_
    refine .bind_never (replays_appendExistingPage ?_) _
    rw [workspaceAppend, hlibrary, hid]

/-- **An operation that carries another ETag than the current one fails or is answered
with a kept response.** -/
theorem replays_body {op : Operation} (h : op.condition = some condition) :
    Replays condition Answer.replayed op.body := by
  cases op with
  | appendRevision => exact .answer (replays_appendRevision h _ _ _ _)
  | correctArchiveOccurrence =>
    obtain rfl := Option.some.inj h
    exact .answer (replays_correctArchiveOccurrence _ _ _ _ _)
  | transitionArchiveLifecycle =>
    obtain rfl := Option.some.inj h
    exact .answer (replays_transitionArchiveLifecycle _ _ _ _ _ _)
  | restorePageAsOperator =>
    obtain rfl := Option.some.inj h
    exact .answer (replays_restorePageAsOperator _ _ _ _ _)
  | appendFileSet => exact .answer (replays_appendFileSet h _ _ _ _)
  | movePage =>
    obtain rfl := Option.some.inj h
    exact .answer (replays_movePage _ _ _ _ _)
  | transitionPage =>
    obtain rfl := Option.some.inj h
    exact .answer (replays_transitionPage _ _ _ _ _)
  | changePageLifecycleAsMaster =>
    obtain rfl := Option.some.inj h
    exact .answer (replays_changePageLifecycleAsMaster _ _ _ _ _ _)
  | correctPageOccurrenceAsMaster =>
    obtain rfl := Option.some.inj h
    exact .answer (replays_correctPageOccurrenceAsMaster _ _ _ _ _)
  | movePageAsMaster =>
    obtain rfl := Option.some.inj h
    exact .answer (replays_movePageAsMaster _ _ _ _ _ _)
  | writeFileSetAsMaster session time command =>
    cases command with
    | create => cases h
    | revise => exact .answer (replays_writeFileSetAsMaster h _ _ _ _ _ _)
  | restoreRevision =>
    obtain rfl := Option.some.inj h
    exact .answer (replays_restoreRevision _ _ _ _ _ _)
  | createArchive => cases h
  | createFileSet => cases h
  | updatePageTitleAsMaster => cases h
  | savePage => cases h

end

end PatchouliLib
