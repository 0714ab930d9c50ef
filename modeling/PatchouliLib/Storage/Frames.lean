import PatchouliLib.Storage.Statements

/-!
# What a statement leaves alone

Most statements of a write do not touch a Page row or its history: they store
files, identifiers, sources, receipts and audit rows.  `Quiet` is the frame they
keep.  The other statements are described exactly, by the store they turn the
authority into.

## Main definitions

* `Quiet s t` — `t` has the Books, the Pages and the history of `s`; audit rows
  only accumulate.
* `ReceiptFrame R` — the statements that keep a response keep `R`.
* `FileFrame R`, `TableFrame R` — the changes of files keep `R`, and the other changes
  outside the history do too.
* `Store.withPage`, `Store.withRevision` — a new Page row, a new Revision row.

## Main results

* `Quiet.tableFrame` — the statements outside the history are quiet.
* `insertPage_ok`, `insertRevision_ok`, `updatePageWhere_ok` — the statements that
  write history.
-/

/-! ### The links of a body on the authority -/

namespace Foundation.IsFrame

open PatchouliLib

variable {R : Connection → Connection → Prop} {α β : Type}

theorem query (hR : IsFrame R) (f : Store → Except Err α) : Keeps R (PatchouliLib.query f) :=
  .of_same hR fun _ _ _ h => (query_ok.mp h).2

theorem constraint (hR : IsFrame R) (p : Store → Prop) [∀ s, Decidable (p s)] :
    Keeps R (PatchouliLib.constraint p) :=
  .of_same hR fun _ _ _ h => (constraint_ok.mp h).2

theorem attempt (hR : IsFrame R) (x : Except Err α) :
    Keeps R (Foundation.attempt x : Write α) :=
  .attempt hR x

theorem orThrow (hR : IsFrame R) (o : Option α) (e : Err) :
    Keeps R (Foundation.orThrow o e : Write α) :=
  .orThrow hR o e

theorem require (hR : IsFrame R) (p : Prop) [Decidable p] (e : Err) :
    Keeps R (Foundation.require p e : Write PUnit) :=
  .require hR p e

theorem pure (hR : IsFrame R) (a : α) : Keeps R (Pure.pure a : Write α) := .pure hR a

theorem bind (hR : IsFrame R) {x : Write α} {f : α → Write β} (hx : Keeps R x)
    (hf : ∀ a, Keeps R (f a)) : Keeps R (x >>= f) :=
  .bind hR hx hf

end Foundation.IsFrame

/-- What a query has found may be used by the rest of the body. -/
theorem Foundation.Keeps.query_bind {R : PatchouliLib.Connection → PatchouliLib.Connection → Prop}
    {α β : Type} {f : PatchouliLib.Store → Except PatchouliLib.Err α}
    {g : α → PatchouliLib.Write β} (hg : ∀ s a, f s = .ok a → Foundation.Keeps R (g a)) :
    Foundation.Keeps R (PatchouliLib.query f >>= g) := by
  intro c b c' h
  obtain ⟨a, c₁, hx, hrest⟩ := Foundation.bind_ok.mp h
  obtain ⟨ha, rfl⟩ := PatchouliLib.query_ok.mp hx
  exact hg c.store a ha c b c' hrest

namespace PatchouliLib

open Foundation

/-! ### The frame -/

/-- `t` has the Books, the Pages and the history of `s`. -/
structure Quiet (s t : Store) : Prop where
  library : t.library = s.library
  pages : t.content.pages = s.content.pages
  revisions : t.content.revisions = s.content.revisions
  appendGuards : t.content.pageRevisionAppendGuards = s.content.pageRevisionAppendGuards
  history : t.history = s.history
  masterAudits : s.audit.masterAuditEvents <+: t.audit.masterAuditEvents
  authAudits : s.audit.authAuditEvents <+: t.audit.authAuditEvents

/-- The frame on the authority of an open transaction. -/
def QuietOn (c c' : Connection) : Prop := Quiet c.store c'.store

theorem Quiet.refl (s : Store) : Quiet s s :=
  ⟨rfl, rfl, rfl, rfl, rfl, List.prefix_rfl, List.prefix_rfl⟩

theorem Quiet.trans {s t u : Store} (h : Quiet s t) (h' : Quiet t u) : Quiet s u where
  library := h'.library.trans h.library
  pages := h'.pages.trans h.pages
  revisions := h'.revisions.trans h.revisions
  appendGuards := h'.appendGuards.trans h.appendGuards
  history := h'.history.trans h.history
  masterAudits := h.masterAudits.trans h'.masterAudits
  authAudits := h.authAudits.trans h'.authAudits

/-- **The frame rules apply to `Quiet`.** -/
theorem Quiet.isFrame : IsFrame QuietOn := ⟨fun _ => Quiet.refl _, Quiet.trans⟩

/-! ### Statements outside the history -/

/-- The content tables that hold no file, source or presentation are the same. -/
structure ContentTables.SameButFiles (t u : ContentTables) : Prop where
  pages : u.pages = t.pages
  revisions : u.revisions = t.revisions
  appendGuards : u.pageRevisionAppendGuards = t.pageRevisionAppendGuards
  registry : u.pageIdentifierRegistry = t.pageIdentifierRegistry
  counters : u.pageIdCollisionCounters = t.pageIdCollisionCounters

/-- The statements that keep a response keep `R`. -/
structure ReceiptFrame (R : Connection → Connection → Prop) : Prop extends IsFrame R where
  insertIdempotencyRecord : ∀ r, Keeps R (insertIdempotencyRecord r)
  insertMasterFileSetReceipt : ∀ r, Keeps R (insertMasterFileSetReceipt r)
  insertMasterMoveReceipt : ∀ r, Keeps R (insertMasterMoveReceipt r)
  insertWorkspaceSaveReceipt : ∀ r, Keeps R (insertWorkspaceSaveReceipt r)

/-- A relation that does not look at kept responses is kept by these statements. -/
theorem ReceiptFrame.of_receipts {R : Connection → Connection → Prop} (hR : IsFrame R)
    (hreceipts : ∀ (c : Connection) (f : ReceiptTables → ReceiptTables),
      R c { c with store := c.store.modifyReceipts f }) : ReceiptFrame R := by
  have hmodify (f : ReceiptTables → ReceiptTables) : Keeps R (modifyStore (.modifyReceipts f)) :=
    .writes fun c => hreceipts c f
  refine ⟨hR, fun r => ?_, fun r => ?_, fun r => ?_, fun r => ?_⟩
  · exact hR.bind (hR.constraint _) fun _ => hmodify _
  · refine hR.bind (hR.constraint _) fun _ => hR.bind (hR.constraint _) fun _ => ?_
    exact hR.bind (hR.constraint _) fun _ => hmodify _
  · refine hR.bind (hR.constraint _) fun _ => hR.bind (hR.constraint _) fun _ => ?_
    exact hR.bind (hR.constraint _) fun _ => hmodify _
  · exact hR.bind (hR.constraint _) fun _ => hmodify _

/-- The changes of files, of sources, of kept responses and of the audit keep `R`. -/
structure FileFrame (R : Connection → Connection → Prop) : Prop extends ReceiptFrame R where
  files : ∀ (c : Connection) (f : ContentTables → ContentTables),
    c.store.content.SameButFiles (f c.store.content) →
      R c { c with store := c.store.modifyContent f }
  marks : ∀ (c : Connection) (keys : List PageKey), R c { c with dirtied := c.dirtied ++ keys }
  insertAuditEvent : ∀ a, Keeps R (insertAuditEvent a)
  insertMasterAuditEvent : ∀ a, Keeps R (insertMasterAuditEvent a)

namespace FileFrame

variable {R : Connection → Connection → Prop}

theorem keeps_modifyFiles (hR : FileFrame R) {f : ContentTables → ContentTables}
    (hf : ∀ t : ContentTables, t.SameButFiles (f t)) :
    Keeps R (modifyStore (.modifyContent f)) :=
  .writes fun c => hR.files c f (hf _)

theorem keeps_markIfCurrent (hR : FileFrame R) (key : RevisionKey) :
    Keeps R (markIfCurrent key) := by
  refine hR.bind (hR.query _) fun current => ?_
  split
  · exact .writes fun c => hR.marks c _
  · exact hR.pure _

theorem keeps_insertRevisionFileSet (hR : FileFrame R) (m : RevisionFileSet) :
    Keeps R (insertRevisionFileSet m) := by
  refine hR.bind (hR.constraint _) fun _ => hR.bind (hR.constraint _) fun _ => ?_
  refine hR.bind (hR.keeps_modifyFiles fun _ => ⟨rfl, rfl, rfl, rfl, rfl⟩) fun _ => ?_
  exact hR.keeps_markIfCurrent _

theorem keeps_insertRevisionFileSeal (hR : FileFrame R) (key : RevisionKey) :
    Keeps R (insertRevisionFileSeal key) := by
  refine hR.bind (hR.constraint _) fun _ => ?_
  refine hR.bind (hR.keeps_modifyFiles fun _ => ⟨rfl, rfl, rfl, rfl, rfl⟩) fun _ => ?_
  exact hR.keeps_markIfCurrent _

theorem keeps_insertRevisionFile (hR : FileFrame R) (f : RevisionFile) :
    Keeps R (insertRevisionFile f) := by
  refine hR.bind (hR.constraint _) fun _ => hR.bind (hR.constraint _) fun _ => ?_
  refine hR.bind (hR.keeps_modifyFiles fun _ => ⟨rfl, rfl, rfl, rfl, rfl⟩) fun _ => ?_
  refine hR.bind (hR.keeps_markIfCurrent _) fun _ => hR.bind (hR.query _) fun legacy => ?_
  split
  · exact hR.keeps_insertRevisionFileSeal _
  · exact hR.pure _

theorem keeps_mirrorContentFile (hR : FileFrame R) (r : Revision) :
    Keeps R (mirrorContentFile r) := by
  unfold mirrorContentFile
  split
  · refine hR.bind (hR.keeps_insertRevisionFileSet _) fun _ => ?_
    exact hR.keeps_insertRevisionFile _
  · exact hR.pure _

theorem keeps_insertRevisionPresentation (hR : FileFrame R) (p : RevisionPresentation) :
    Keeps R (insertRevisionPresentation p) :=
  hR.bind (hR.constraint _) fun _ =>
    hR.keeps_modifyFiles fun _ => ⟨rfl, rfl, rfl, rfl, rfl⟩

theorem keeps_insertPageSource (hR : FileFrame R) (p : PageSource) : Keeps R (insertPageSource p) :=
  hR.bind (hR.constraint _) fun _ =>
    hR.keeps_modifyFiles fun _ => ⟨rfl, rfl, rfl, rfl, rfl⟩

end FileFrame

/-- The changes of identifiers and counters keep `R` too. -/
structure TableFrame (R : Connection → Connection → Prop) : Prop extends FileFrame R where
  content : ∀ (c : Connection) (f : ContentTables → ContentTables),
    (f c.store.content).pages = c.store.content.pages →
    (f c.store.content).revisions = c.store.content.revisions →
    (f c.store.content).pageRevisionAppendGuards = c.store.content.pageRevisionAppendGuards →
      R c { c with store := c.store.modifyContent f }
  files c f h := content c f h.pages h.revisions h.appendGuards

namespace TableFrame

variable {R : Connection → Connection → Prop}

theorem keeps_modifyContent (hR : TableFrame R) {f : ContentTables → ContentTables}
    (hp : ∀ t, (f t).pages = t.pages) (hr : ∀ t, (f t).revisions = t.revisions)
    (hg : ∀ t, (f t).pageRevisionAppendGuards = t.pageRevisionAppendGuards) :
    Keeps R (modifyStore (.modifyContent f)) :=
  .writes fun c => hR.content c f (hp _) (hr _) (hg _)

theorem keeps_insertPageIdentifier (hR : TableFrame R) (i : PageIdentifier) :
    Keeps R (insertPageIdentifier i) := by
  refine hR.bind (hR.constraint _) fun _ => hR.bind (hR.constraint _) fun _ => ?_
  exact hR.keeps_modifyContent (fun _ => rfl) (fun _ => rfl) fun _ => rfl

theorem keeps_insertPageIdCollisionCounter (hR : TableFrame R) (counter : PageIdCollisionCounter) :
    Keeps R (insertPageIdCollisionCounter counter) :=
  hR.bind (hR.constraint _) fun _ =>
    hR.keeps_modifyContent (fun _ => rfl) (fun _ => rfl) fun _ => rfl

theorem keeps_updatePageIdCollisionCounter (hR : TableFrame R) (counter : PageIdCollisionCounter)
    (nextOrdinal : ℕ) : Keeps R (updatePageIdCollisionCounter counter nextOrdinal) := by
  refine hR.bind (hR.query _) fun found => ?_
  split
  · refine hR.bind (hR.constraint _) fun _ => ?_
    refine hR.bind (hR.keeps_modifyContent (fun _ => rfl) (fun _ => rfl) fun _ => rfl) fun _ => ?_
    exact hR.pure _
  · exact hR.pure _

end TableFrame

theorem insertAuditEvent_ok {a : AuditEvent} {c c' : Connection} {w : PUnit} :
    insertAuditEvent a c = .ok (w, c') ↔ (∀ a' ∈ c.store.audit.authAuditEvents, a'.id ≠ a.id) ∧
      { c with store := c.store.modifyAudit fun t =>
          { t with authAuditEvents := t.authAuditEvents ++ [a] } } = c' := by
  simp only [insertAuditEvent, bind_ok, constraint_ok, modifyStore_ok, exists_eq_left',
    and_assoc, exists_and_left, exists_const]

theorem insertMasterAuditEvent_ok {a : MasterAuditEvent} {c c' : Connection} {w : PUnit} :
    insertMasterAuditEvent a c = .ok (w, c') ↔
      (∀ a' ∈ c.store.audit.masterAuditEvents, a'.id ≠ a.id) ∧
        { c with store := c.store.modifyAudit fun t =>
            { t with masterAuditEvents := t.masterAuditEvents ++ [a] } } = c' := by
  simp only [insertMasterAuditEvent, bind_ok, constraint_ok, modifyStore_ok, exists_eq_left',
    and_assoc, exists_and_left, exists_const]

/-- **The statements outside the history are quiet.** -/
theorem Quiet.tableFrame : TableFrame QuietOn where
  toReceiptFrame := .of_receipts Quiet.isFrame fun _ _ =>
    ⟨rfl, rfl, rfl, rfl, rfl, List.prefix_rfl, List.prefix_rfl⟩
  content _ _ hp hr hg := ⟨rfl, hp, hr, hg, rfl, List.prefix_rfl, List.prefix_rfl⟩
  marks _ _ := .refl _
  insertAuditEvent a c _ c' h := by
    obtain ⟨-, rfl⟩ := insertAuditEvent_ok.mp h
    exact ⟨rfl, rfl, rfl, rfl, rfl, List.prefix_rfl, List.prefix_append _ _⟩
  insertMasterAuditEvent a c _ c' h := by
    obtain ⟨-, rfl⟩ := insertMasterAuditEvent_ok.mp h
    exact ⟨rfl, rfl, rfl, rfl, rfl, List.prefix_append _ _, List.prefix_rfl⟩

/-! ### Statements that write history -/

/-- The authority with one more Page row. -/
def Store.withPage (p : Page) (s : Store) : Store :=
  s.modifyContent fun t => { t with pages := t.pages ++ [p] }

/-- The authority with one more Revision row, and its append guard. -/
def Store.withRevision (r : Revision) (s : Store) : Store :=
  s.modifyContent fun t =>
    { t with
      revisions := t.revisions ++ [r]
      pageRevisionAppendGuards := t.pageRevisionAppendGuards ++
        if 1 < r.key.revisionNumber then [r.key] else [] }

/-- A new Page row passed its constraints, and it is the only thing written. -/
theorem insertPage_ok {p : Page} {c c' : Connection} {w : PUnit}
    (h : insertPage p c = .ok (w, c')) :
    p.currentRevisionNumber = 1 ∧ p.deletedAt = none ∧ p.Checks ∧
      p.key.pageUid.length = randomIdentifierBytes ∧ (∀ q ∈ c.store.content.pages, q.key ≠ p.key) ∧
      c.store.hasBook p.key.libraryId p.sectionId p.bookId = true ∧
      c' = ⟨c.store.withPage p, c.dirtied ++ [p.key]⟩ := by
  simp only [insertPage, bind_ok, constraint_ok, modifyStore_ok, markDirty_ok, exists_and_left,
    exists_eq_left', and_assoc, exists_const] at h
  obtain ⟨hone, hnone, hchecks, huid, hkeys, hbook, -, rfl⟩ := h
  exact ⟨hone, hnone, hchecks, huid, fun q hq => (hkeys q hq).1, hbook, rfl⟩

/-- A new Revision row passed its constraints, its append guard is the only one
of the Page, and the files that mirror it hold no history. -/
theorem insertRevision_ok {r : Revision} {c c' : Connection} {w : PUnit}
    (h : insertRevision r c = .ok (w, c')) :
    SequentialRevision c.store r.key ∧ r.Checks ∧
      (1 < r.key.revisionNumber →
        ∀ k ∈ c.store.content.pageRevisionAppendGuards, k.page ≠ r.key.page) ∧
      Quiet (c.store.withRevision r) c'.store := by
  simp only [insertRevision, bind_ok, constraint_ok, modifyStore_ok, exists_and_left,
    exists_eq_left', and_assoc, exists_const] at h
  obtain ⟨hseq, hchecks, -, w₁, c₁, hmark, hrest⟩ := h
  have hq := Quiet.tableFrame.keeps_markIfCurrent _ _ _ _ hmark
  split at hrest
  · next hlt =>
    simp only [insertPageRevisionAppendGuard, bind_ok, constraint_ok, modifyStore_ok,
      exists_and_left, exists_eq_left', and_assoc, exists_const] at hrest
    obtain ⟨hguard, hmirror⟩ := hrest
    rw [hq.appendGuards] at hguard
    refine ⟨hseq, hchecks, fun _ => hguard, Quiet.trans ?_ (Quiet.tableFrame.keeps_mirrorContentFile _ _ _ _ hmirror)⟩
    refine ⟨hq.library, hq.pages, hq.revisions, ?_, hq.history, hq.masterAudits, hq.authAudits⟩
    simp [Store.modifyContent, Store.withRevision, hlt, hq.appendGuards]
  · next hle =>
    refine ⟨hseq, hchecks, fun hlt => absurd hlt hle,
      Quiet.trans ?_ (Quiet.tableFrame.keeps_mirrorContentFile _ _ _ _ hrest)⟩
    refine ⟨hq.library, hq.pages, hq.revisions, ?_, hq.history, hq.masterAudits, hq.authAudits⟩
    simp [Store.modifyContent, Store.withRevision, hle, hq.appendGuards]

/-- A conditional UPDATE matched no row, or changed the row it matched. -/
theorem updatePageWhere_ok {key : PageKey} {p : Page → Prop} [DecidablePred p]
    {set : Page → Page} {c c' : Connection} {matched : Bool}
    (h : updatePageWhere key p set c = .ok (matched, c')) :
    (matched = false ∧ c' = c) ∨
      (matched = true ∧ ∃ old ∈ c.store.content.pages, old.key = key ∧ p old ∧
        PageUpdateAllowed c.store old (set old) ∧
        c' = ⟨c.store.afterPageUpdate old (set old), c.dirtied ++ pageUpdateMarks old (set old)⟩) := by
  simp only [updatePageWhere, bind_ok, query_ok, Fallible.pure_ok, exists_eq_left', and_assoc,
    exists_and_left] at h
  cases hrow : c.store.content.pages.find? fun q => decide (q.key = key ∧ p q) with
  | none =>
    simp only [hrow, pure_ok] at h
    exact .inl ⟨h.1.symm, h.2.symm⟩
  | some old =>
    simp only [hrow, updatePage, bind_ok, constraint_ok, modifyStore_ok, markDirty_ok, pure_ok,
      exists_and_left, exists_eq_left', and_assoc, exists_const] at h
    obtain ⟨hallowed, rfl, rfl⟩ := h
    have hp : old.key = key ∧ p old := by simpa using List.find?_some hrow
    exact .inr ⟨rfl, old, List.mem_of_find?_eq_some hrow, hp.1, hp.2, hallowed, rfl⟩

/-- The content tables after an update of a Page. -/
theorem content_afterPageUpdate (old new : Page) (s : Store) :
    (s.afterPageUpdate old new).content.pages =
        s.content.pages.map (fun p => if p.key = old.key then new else p) ∧
      (s.afterPageUpdate old new).content.revisions = s.content.revisions ∧
      (s.afterPageUpdate old new).content.pageRevisionAppendGuards =
        (if new.currentRevision = old.currentRevision then s.content.pageRevisionAppendGuards
        else s.content.pageRevisionAppendGuards.filter (· ≠ new.currentRevision)) ∧
      (s.afterPageUpdate old new).content.pageIdentifierRegistry =
        s.content.pageIdentifierRegistry ∧
      (s.afterPageUpdate old new).content.pageIdCollisionCounters =
        s.content.pageIdCollisionCounters := by
  unfold Store.afterPageUpdate recordMove recordTitle recordLifecycle recordOccurrence
    clearAppendGuard
  split_ifs <;> exact ⟨rfl, rfl, rfl, rfl, rfl⟩

theorem Quiet.hasBook {s t : Store} (h : Quiet s t) : t.hasBook = s.hasBook := by
  unfold Store.hasBook
  rw [h.library]

theorem Quiet.withPage {s t : Store} (h : Quiet s t) (p : Page) :
    Quiet (s.withPage p) (t.withPage p) :=
  ⟨h.library, congrArg (· ++ [p]) h.pages, h.revisions, h.appendGuards, h.history, h.masterAudits,
    h.authAudits⟩

theorem Quiet.withRevision {s t : Store} (h : Quiet s t) (r : Revision) :
    Quiet (s.withRevision r) (t.withRevision r) :=
  ⟨h.library, h.pages, congrArg (· ++ [r]) h.revisions,
    congrArg (· ++ if 1 < r.key.revisionNumber then [r.key] else []) h.appendGuards, h.history,
    h.masterAudits, h.authAudits⟩

end PatchouliLib
