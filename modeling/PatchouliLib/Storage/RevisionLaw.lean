import PatchouliLib.Foundation.Table
import PatchouliLib.Foundation.Trace
import PatchouliLib.Storage.Frames

/-!
# The law of Revisions under raw SQL

Whoever holds the database may send any INSERT, UPDATE and DELETE to `pages`,
`revisions` and `page_revision_append_guards`.  The triggers see one row at a time,
and the deferred foreign keys are looked at when the transaction commits.  Together
they keep the Revisions of a Page numbered from 1 to the current one, with two
exceptions.  A Page that is not registered yet may be deleted and inserted anew, and
then it starts at its first Revision whatever Revisions it had.  And INSERT OR IGNORE
leaves out the guard of a Revision whose Page has one that someone set by hand.

## Main definitions

* `RevisionStatement`, `RevisionStatement.exec` — one row of a statement, under the
  triggers and constraints.
* `SqlAction`, `Session.after` — a statement, or the end of the transaction.
* `RevisionLaw s` — the Revisions of every Page are numbered without a gap up to the
  current one, which is the last, and no append is pending.
* `OpenLaw s` — what holds inside a transaction.
* `Regular` — a statement is neither of the two exceptions.

## Main results

* `OpenLaw.exec` — every regular statement keeps what holds inside.
* `OpenLaw.revisionLaw` — what the deferred foreign keys add at the commit.
* `revisions_prefix_of_trace` — **committed Revisions stay as they are.**
* `revisionLaw_of_trace` — **the law holds of every committed state of a regular run.**
-/

namespace PatchouliLib

open Foundation

/-! ### Statements -/

/-- The tables of Pages, Revisions and append guards are the same. -/
def LeavesRevisionsOn (c c' : Connection) : Prop :=
  c'.store.content.pages = c.store.content.pages ∧
    c'.store.content.revisions = c.store.content.revisions ∧
    c'.store.content.pageRevisionAppendGuards = c.store.content.pageRevisionAppendGuards

/-- One row of an INSERT, an UPDATE or a DELETE, or any body on the other tables.  A
row that OR IGNORE skips is no statement; only the trigger of a Revision makes it differ
from a plain one. -/
inductive RevisionStatement where
  | insertPage (p : Page)
  | updatePage (key : PageKey) (new : Page)
  | deletePage (key : PageKey)
  | insertRevision (r : Revision)
  | insertRevisionOrIgnore (r : Revision)
  | updateRevision (key : RevisionKey) (new : Revision)
  | deleteRevision (key : RevisionKey)
  | insertAppendGuard (key : RevisionKey)
  | updateAppendGuard (key new : RevisionKey)
  | deleteAppendGuard (key : RevisionKey)
  | other (body : Write PUnit) (h : Keeps LeavesRevisionsOn body)

/-- The primary key and the unique constraint of a Revision. -/
def IsNewRevision (s : Store) (key : RevisionKey) : Prop :=
  ∀ r ∈ s.content.revisions,
    ¬(r.key.page.libraryId = key.page.libraryId ∧ r.key.revisionId = key.revisionId) ∧
    ¬(r.key.page = key.page ∧ r.key.revisionNumber = key.revisionNumber)

instance (s : Store) (key : RevisionKey) : Decidable (IsNewRevision s key) := by
  unfold IsNewRevision
  infer_instance

/-- A row of another table restricts the DELETE of a Page. -/
def Store.referencesPage (s : Store) (key : PageKey) : Bool :=
  s.content.pageIdentifierRegistry.any
      (fun i => i.libraryId = key.libraryId ∧ i.pageUid = key.pageUid) ||
    s.content.pageSources.any (·.revision.page = key) || s.tags.pageTags.any (·.page = key) ||
    s.history.occurrenceCorrections.any (·.page = key) ||
    s.history.occurrenceCorrectionGuards.any (·.page = key) ||
    s.history.lifecycleEvents.any (·.page = key) || s.history.lifecycleGuards.any (·.page = key) ||
    s.history.titleEvents.any (·.page = key) ||
    s.history.moveEvents.any (·.page = key) || s.history.moveGuards.any (·.page = key)

/-- DELETE FROM pages.  No trigger aborts it. -/
def deletePage (key : PageKey) : Write PUnit := do
  constraint fun s => ¬s.referencesPage key
  modifyStore (.modifyContent fun t => { t with pages := t.pages.filter (·.key ≠ key) })
  markDirty [key]

/-- INSERT OR IGNORE INTO revisions, of a row that is not skipped.  The conflict clause
is that of its trigger too, which leaves out the guard of a Page that has one. -/
def insertRevisionOrIgnore (r : Revision) : Write PUnit := do
  constraint fun s => SequentialRevision s r.key ∧ r.Checks
  constraint fun s => IsNewRevision s r.key
  modifyStore (.modifyContent fun t =>
    { t with
      revisions := t.revisions ++ [r]
      revisionFileSealGuards := t.revisionFileSealGuards ++ [r.key] })
  markIfCurrent r.key
  let guarded ← query fun s => pure (s.content.pageRevisionAppendGuards.any (·.page = r.key.page))
  if 1 < r.key.revisionNumber ∧ ¬guarded then insertPageRevisionAppendGuard r.key else pure ⟨⟩
  mirrorContentFile r

/-- `trg_revisions_immutable_update`, `trg_revisions_immutable_delete`. -/
def changeRevision (key : RevisionKey) : Write PUnit :=
  constraint fun s => ¬s.hasRevision key

/-- `trg_page_revision_append_guards_no_update`. -/
def updateAppendGuard (key : RevisionKey) : Write PUnit :=
  constraint fun s => key ∉ s.content.pageRevisionAppendGuards

/-- `trg_page_revision_append_guards_safe_delete`. -/
def deleteAppendGuard (key : RevisionKey) : Write PUnit := do
  constraint fun s => key ∈ s.content.pageRevisionAppendGuards → s.isCurrent key
  modifyStore (.modifyContent fun t =>
    { t with pageRevisionAppendGuards := t.pageRevisionAppendGuards.filter (· ≠ key) })

/-- Run one row of a statement. -/
def RevisionStatement.exec : RevisionStatement → Write PUnit
  | insertPage p => PatchouliLib.insertPage p
  | updatePage key new => do
    let _ ← updatePageWhere key (fun _ => True) fun _ => new
  | deletePage key => PatchouliLib.deletePage key
  | insertRevision r => PatchouliLib.insertRevision r
  | insertRevisionOrIgnore r => PatchouliLib.insertRevisionOrIgnore r
  | updateRevision key _ => changeRevision key
  | deleteRevision key => changeRevision key
  | insertAppendGuard key => do
    constraint fun s => s.hasRevision key ∧ 2 ≤ key.revisionNumber
    insertPageRevisionAppendGuard key
  | updateAppendGuard key _ => PatchouliLib.updateAppendGuard key
  | deleteAppendGuard key => PatchouliLib.deleteAppendGuard key
  | other body _ => body

/-! ### Sessions -/

/-- A database and its open transaction. -/
structure Session where
  committed : Store := {}
  current : Store := {}

/-- A statement, or the end of the transaction. -/
inductive SqlAction where
  | statement (st : RevisionStatement)
  | commit
  | rollback

/-- The deferred foreign keys of the three tables. -/
structure CommitAllowed (s : Store) : Prop extends DeferredForeignKeys s where
  revisionPage : ∀ r ∈ s.content.revisions, s.hasPage r.key.page fun _ => true

instance (s : Store) : Decidable (CommitAllowed s) :=
  decidable_of_iff (DeferredForeignKeys s ∧
      ∀ r ∈ s.content.revisions, s.hasPage r.key.page fun _ => true)
    ⟨fun ⟨h, h'⟩ => ⟨h, h'⟩, fun h => ⟨h.toDeferredForeignKeys, h.revisionPage⟩⟩

/-- What an action makes of the session; a refused one leaves it as it was. -/
def Session.after (s : Session) : SqlAction → Session
  | .statement st =>
    match st.exec ⟨s.current, []⟩ with
    | .ok (_, c) => { s with current := c.store }
    | .error _ => s
  | .commit => if CommitAllowed s.current then ⟨s.current, s.current⟩ else s
  | .rollback => ⟨s.committed, s.committed⟩

/-! ### The law -/

def Store.revisionsOf (s : Store) (key : PageKey) : List Revision :=
  s.content.revisions.filter fun r => r.key.page = key

/-- The numbers of the Revisions of a Page, in the order in which they came. -/
def Store.revisionNumbers (s : Store) (key : PageKey) : List ℕ :=
  (s.revisionsOf key).map fun r => r.key.revisionNumber

/-- The Revisions of every Page are numbered from 1 to the current one, which is the
last, and no append is pending. -/
structure RevisionLaw (s : Store) : Prop where
  numbered : ∀ p ∈ s.content.pages,
    s.revisionNumbers p.key = List.range' 1 p.currentRevisionNumber
  current : ∀ p ∈ s.content.pages,
    ∃ r, (s.revisionsOf p.key).getLast? = some r ∧ r.key = p.currentRevision
  settled : ∀ k ∈ s.content.pageRevisionAppendGuards, s.isCurrent k = true

/-- The current Revision of a Page is its last one, or one more was appended and a
guard keeps the transaction open, or there is none yet. -/
inductive Store.Follows (s : Store) (p : Page) : Prop
  | settled (h : p.currentRevisionNumber = (s.revisionsOf p.key).length)
  | appending (h : p.currentRevisionNumber + 1 = (s.revisionsOf p.key).length)
      (hguard : ∃ k ∈ s.content.pageRevisionAppendGuards, k.page = p.key ∧
        k.revisionNumber ≠ p.currentRevisionNumber)
  | new (h : p.currentRevisionNumber = 1) (hnone : s.revisionsOf p.key = [])

/-- What holds inside a transaction. -/
structure OpenLaw (s : Store) : Prop where
  keys : Keyed Page.key s.content.pages
  numbered : ∀ key, s.revisionNumbers key = List.range' 1 (s.revisionsOf key).length
  guards : Keyed RevisionKey.page s.content.pageRevisionAppendGuards
  guarded : ∀ k ∈ s.content.pageRevisionAppendGuards,
    s.hasRevision k = true ∧ 2 ≤ k.revisionNumber
  follows : ∀ p ∈ s.content.pages, s.Follows p

/-- No guard is that of a current Revision. -/
def Store.GuardsWait (s : Store) : Prop :=
  ∀ k ∈ s.content.pageRevisionAppendGuards, ∀ p ∈ s.content.pages, p.currentRevision ≠ k

/-- A Page that is inserted has no Revision after its first, or only one, which still
waits in its append guard. -/
def RevisionStatement.StartsPages (s : Store) : RevisionStatement → Prop
  | insertPage p => ∀ r ∈ s.revisionsOf p.key, r.key.revisionNumber ≤ 1 ∨
      r.key.revisionNumber = 2 ∧ r.key ∈ s.content.pageRevisionAppendGuards
  | _ => True

/-- The guard of a new Revision is not left out for that of the current one. -/
def RevisionStatement.GuardsRevisions (s : Store) : RevisionStatement → Prop
  | insertRevisionOrIgnore r => 1 < r.key.revisionNumber →
      ∀ k ∈ s.content.pageRevisionAppendGuards, k.page = r.key.page → s.isCurrent k = false
  | _ => True

/-- No guard is inserted for a Revision that is already the current one. -/
def RevisionStatement.GuardsAppends (s : Store) : RevisionStatement → Prop
  | insertAppendGuard key => s.isCurrent key = false
  | _ => True

instance (s : Store) (st : RevisionStatement) : Decidable (st.StartsPages s) := by
  cases st <;> unfold RevisionStatement.StartsPages <;> infer_instance

instance (s : Store) (st : RevisionStatement) : Decidable (st.GuardsRevisions s) := by
  cases st <;> unfold RevisionStatement.GuardsRevisions <;> infer_instance

/-! ### Reading the tables -/

section

variable {s t : Store}

theorem mem_revisionsOf {key : PageKey} {r : Revision} :
    r ∈ s.revisionsOf key ↔ r ∈ s.content.revisions ∧ r.key.page = key := by
  simp [Store.revisionsOf]

theorem hasRevision_eq_true {key : RevisionKey} :
    s.hasRevision key = true ↔ ∃ r ∈ s.content.revisions, r.key = key := by
  simp [Store.hasRevision]

theorem isCurrent_eq_true {key : RevisionKey} :
    s.isCurrent key = true ↔ ∃ p ∈ s.content.pages, p.currentRevision = key := by
  simp [Store.isCurrent]

theorem length_revisionNumbers (key : PageKey) :
    (s.revisionNumbers key).length = (s.revisionsOf key).length := List.length_map _

theorem revisionsOf_of_eq (h : t.content.revisions = s.content.revisions) (key : PageKey) :
    t.revisionsOf key = s.revisionsOf key := by
  rw [Store.revisionsOf, Store.revisionsOf, h]

/-- One more Revision. -/
theorem revisionsOf_of_concat {r : Revision}
    (h : t.content.revisions = s.content.revisions ++ [r]) (key : PageKey) :
    t.revisionsOf key = if r.key.page = key then s.revisionsOf key ++ [r] else s.revisionsOf key := by
  rw [Store.revisionsOf, Store.revisionsOf, h, List.filter_append, List.filter_singleton]
  by_cases hr : r.key.page = key
  · simp [hr]
  · simp [hr]

/-- The row of a Page may change in other columns, and other guards may come and go. -/
theorem Store.Follows.of_same {p q : Page} (h : s.Follows p) (hkey : q.key = p.key)
    (hnumber : q.currentRevisionNumber = p.currentRevisionNumber)
    (hrevisions : t.revisionsOf p.key = s.revisionsOf p.key)
    (hguards : ∀ k ∈ s.content.pageRevisionAppendGuards, k.page = p.key →
      k.revisionNumber ≠ p.currentRevisionNumber → k ∈ t.content.pageRevisionAppendGuards) :
    t.Follows q := by
  rcases h with hsettled | ⟨happending, k, hk, hpage, hother⟩ | ⟨hone, hnone⟩
  · exact .settled (by rw [hkey, hnumber, hrevisions, hsettled])
  · refine .appending (by rw [hkey, hnumber, hrevisions, happending]) ⟨k, ?_, ?_, ?_⟩
    · exact hguards k hk hpage hother
    · rw [hkey, hpage]
    · rw [hnumber]
      exact hother
  · exact .new (by rw [hnumber, hone]) (by rw [hkey, hrevisions, hnone])

namespace OpenLaw

/-- The number of a Revision is within the length of its table. -/
theorem number_le (h : OpenLaw s) {r : Revision} (hr : r ∈ s.content.revisions) :
    1 ≤ r.key.revisionNumber ∧ r.key.revisionNumber ≤ (s.revisionsOf r.key.page).length := by
  have hmem : r.key.revisionNumber ∈ s.revisionNumbers r.key.page :=
    List.mem_map.mpr ⟨r, mem_revisionsOf.mpr ⟨hr, rfl⟩, rfl⟩
  rw [h.numbered, List.mem_range'_1] at hmem
  omega

/-- A Page has one Revision of a number. -/
theorem eq_of_number (h : OpenLaw s) {k k' : RevisionKey} (hk : s.hasRevision k = true)
    (hk' : s.hasRevision k' = true) (hpage : k.page = k'.page)
    (hnumber : k.revisionNumber = k'.revisionNumber) : k = k' := by
  obtain ⟨r, hr, rfl⟩ := hasRevision_eq_true.mp hk
  obtain ⟨r', hr', rfl⟩ := hasRevision_eq_true.mp hk'
  have hkeyed : Keyed (fun r => r.key.revisionNumber) (s.revisionsOf r.key.page) := by
    show (s.revisionNumbers r.key.page).Nodup
    rw [h.numbered]
    exact List.nodup_range' 1
  have hmem : r ∈ s.revisionsOf r.key.page := mem_revisionsOf.mpr ⟨hr, rfl⟩
  have hmem' : r' ∈ s.revisionsOf r.key.page := mem_revisionsOf.mpr ⟨hr', hpage.symm⟩
  rw [hkeyed.eq_of_key hmem hmem' hnumber]

/-- The Revision with the largest number is the last one. -/
theorem getLast?_of_number (h : OpenLaw s) {r : Revision} (hr : r ∈ s.content.revisions)
    (hnumber : r.key.revisionNumber = (s.revisionsOf r.key.page).length) :
    (s.revisionsOf r.key.page).getLast? = some r := by
  have hmem := mem_revisionsOf.mpr ⟨hr, rfl⟩
  obtain ⟨i, hi, hget⟩ := List.mem_iff_getElem.mp hmem
  -- the number of the row at place `i` is `i + 1`
  have hnumbers := h.numbered r.key.page
  have hplace : (s.revisionNumbers r.key.page)[i]? =
      (List.range' 1 (s.revisionsOf r.key.page).length)[i]? := by rw [hnumbers]
  rw [Store.revisionNumbers, List.getElem?_map, List.getElem?_eq_getElem hi, hget,
    List.getElem?_range' hi] at hplace
  have hlast : i = (s.revisionsOf r.key.page).length - 1 := by
    have heq : r.key.revisionNumber = 1 + 1 * i := Option.some.inj hplace
    omega
  rw [List.getLast?_eq_getElem?, ← hlast, List.getElem?_eq_getElem hi, hget]

/-! ### The statements -/

theorem of_eq (h : OpenLaw s) (hp : t.content.pages = s.content.pages)
    (hr : t.content.revisions = s.content.revisions)
    (hg : t.content.pageRevisionAppendGuards = s.content.pageRevisionAppendGuards) : OpenLaw t where
  keys := by
    rw [hp]
    exact h.keys
  numbered key := by
    rw [Store.revisionNumbers, revisionsOf_of_eq hr]
    exact h.numbered key
  guards := by
    rw [hg]
    exact h.guards
  guarded k hk := by
    rw [hg] at hk
    rw [Store.hasRevision, hr]
    exact h.guarded k hk
  follows p hpage := by
    rw [hp] at hpage
    refine (h.follows p hpage).of_same rfl rfl (revisionsOf_of_eq hr p.key) fun k hk _ _ => ?_
    rwa [hg]

/-- A Page that starts has its first Revision, or a second one that waits. -/
theorem insertPage (h : OpenLaw s) {p : Page} (hkeys : ∀ q ∈ s.content.pages, q.key ≠ p.key)
    (hone : p.currentRevisionNumber = 1)
    (hstart : ∀ r ∈ s.revisionsOf p.key, r.key.revisionNumber ≤ 1 ∨
      r.key.revisionNumber = 2 ∧ r.key ∈ s.content.pageRevisionAppendGuards) :
    OpenLaw (s.withPage p) := by
  have hfollows : s.Follows p := by
    rcases List.eq_nil_or_concat (s.revisionsOf p.key) with hnil | ⟨before, r, hconcat⟩
    · exact .new hone hnil
    · -- its last Revision tells how many there are
      have hr : r ∈ s.revisionsOf p.key := by simp [hconcat]
      obtain ⟨hmem, hkey⟩ := mem_revisionsOf.mp hr
      have hlast : (s.revisionNumbers p.key).getLast? = some r.key.revisionNumber := by
        rw [Store.revisionNumbers, hconcat]
        simp
      rw [h.numbered, List.getLast?_range'] at hlast
      have hpositive : (s.revisionsOf p.key).length ≠ 0 := by
        rw [hconcat]
        simp
      rw [if_neg hpositive] at hlast
      have hnumber := Option.some.inj hlast
      rcases hstart r hr with hle | ⟨htwo, hguard⟩
      · refine .settled ?_
        omega
      · refine .appending (by omega) ⟨r.key, hguard, hkey, ?_⟩
        omega
  refine ⟨h.keys.concat hkeys, h.numbered, h.guards, h.guarded, fun q hq => ?_⟩
  rcases List.mem_append.mp hq with hq | hq
  · exact (h.follows q hq).of_same rfl rfl rfl fun k hk _ _ => hk
  · rw [List.mem_singleton.mp hq]
    exact hfollows.of_same rfl rfl rfl fun k hk _ _ => hk

theorem deletePage (h : OpenLaw s) (key : PageKey) :
    OpenLaw (s.modifyContent fun t => { t with pages := t.pages.filter (·.key ≠ key) }) :=
  ⟨h.keys.filter _, h.numbered, h.guards, h.guarded, fun p hp =>
    (h.follows p (List.mem_filter.mp hp).1).of_same rfl rfl rfl fun _ hk _ _ => hk⟩

/-- An advance goes to the Revision that the guard waits for. -/
theorem updatePage (h : OpenLaw s) {old new : Page} (hold : old ∈ s.content.pages)
    (hallowed : PageUpdateAllowed s old new) : OpenLaw (s.afterPageUpdate old new) := by
  obtain ⟨hpages, hrevisions, hguards, -, -⟩ := content_afterPageUpdate old new s
  have hkey : new.key = old.key := hallowed.identity.1
  have hsame := revisionsOf_of_eq hrevisions
  have hrows : ∀ q ∈ s.content.pages, (if q.key = old.key then new else q).key = q.key := by
    intro q _
    split
    · next heq => rw [hkey, heq]
    · rfl
  -- the only guard that may be gone is that of the new current Revision
  have hsublist : (s.afterPageUpdate old new).content.pageRevisionAppendGuards.Sublist
      s.content.pageRevisionAppendGuards := by
    rw [hguards]
    split
    · exact .refl _
    · exact List.filter_sublist
  have hkept : ∀ k ∈ s.content.pageRevisionAppendGuards,
      (new.currentRevision = old.currentRevision ∨ k ≠ new.currentRevision) →
        k ∈ (s.afterPageUpdate old new).content.pageRevisionAppendGuards := by
    intro k hk hor
    rw [hguards]
    split
    · exact hk
    · next hne => exact List.mem_filter.mpr ⟨hk, decide_eq_true (hor.resolve_left hne)⟩
  refine ⟨?_, fun key => ?_, ?_, fun k hk => ?_, fun q' hq' => ?_⟩
  · rw [hpages]
    exact h.keys.map hrows
  · rw [Store.revisionNumbers, hsame]
    exact h.numbered key
  · exact h.guards.sublist (hsublist.map _)
  · rw [Store.hasRevision, hrevisions]
    exact h.guarded k (hsublist.subset hk)
  · rw [hpages] at hq'
    obtain ⟨q, hq, rfl⟩ := List.mem_map.mp hq'
    have hfollows := h.follows q hq
    split
    · next heq =>
      obtain rfl := h.keys.eq_of_key hq hold heq
      by_cases hcurrent : new.currentRevision = q.currentRevision
      · have hnumber : new.currentRevisionNumber = q.currentRevisionNumber :=
          congrArg RevisionKey.revisionNumber hcurrent
        exact hfollows.of_same hkey hnumber (hsame _) fun _ hk _ _ => hkept _ hk (.inl hcurrent)
      · obtain ⟨hnext, hguard⟩ := hallowed.revision hcurrent
        obtain ⟨hrevision, -⟩ := h.guarded _ hguard
        obtain ⟨r, hr, hrkey⟩ := hasRevision_eq_true.mp hrevision
        have hle := (h.number_le hr).2
        rw [hrkey] at hle
        have hle' : new.currentRevisionNumber ≤ (s.revisionsOf q.key).length := by
          rw [← hkey]
          exact hle
        refine .settled ?_
        rw [hsame, hkey]
        rcases hfollows with hsettled | ⟨happending, -⟩ | ⟨-, hnone⟩
        · omega
        · omega
        · rw [hnone, List.length_nil] at hle'
          omega
    · next hne =>
      refine hfollows.of_same rfl rfl (hsame _) fun _ hk hpage _ => hkept _ hk (.inr ?_)
      rintro rfl
      exact hne (hpage.symm.trans hkey)

/-- The guards after a Revision was appended: its own was set, unless the Page had one
for a Revision that is not current. -/
structure GuardsAfter (s : Store) (r : Revision) (guards : List RevisionKey) : Prop where
  single : Keyed RevisionKey.page guards
  kept : ∀ k ∈ s.content.pageRevisionAppendGuards, k ∈ guards
  added : ∀ k ∈ guards, k ∈ s.content.pageRevisionAppendGuards ∨
    k = r.key ∧ 1 < r.key.revisionNumber
  waits : 1 < r.key.revisionNumber → ∃ k ∈ guards, k.page = r.key.page ∧
    ∀ p ∈ s.content.pages, p.key = k.page → k.revisionNumber ≠ p.currentRevisionNumber

/-- The number of a new Revision is the next one, that of its Page is its own or the one
before it. -/
theorem number_of_sequential (h : OpenLaw s) {r : Revision}
    (hsequential : SequentialRevision s r.key) (hnew : IsNewRevision s r.key) :
    r.key.revisionNumber = (s.revisionsOf r.key.page).length + 1 ∧
      ∃ p ∈ s.content.pages, p.key = r.key.page ∧
        (r.key.revisionNumber = 1 ∧ p.currentRevisionNumber = 1 ∨
          1 < r.key.revisionNumber ∧ p.currentRevisionNumber + 1 = r.key.revisionNumber) := by
  obtain ⟨p, hp, hpkey, hnumber⟩ := hsequential
  rcases hnumber with ⟨hone, hcurrent, hnone⟩ | ⟨hsucc, hrevision⟩
  · have hnil : s.revisionsOf r.key.page = [] :=
      List.filter_eq_nil_iff.mpr fun r' hr' => by simpa using hnone r' hr'
    have hpone : p.currentRevisionNumber = 1 :=
      (congrArg RevisionKey.revisionNumber hcurrent).trans hone
    rw [hnil]
    exact ⟨hone, p, hp, hpkey, .inl ⟨hone, hpone⟩⟩
  · obtain ⟨r', hr', hr'key⟩ := hasRevision_eq_true.mp hrevision
    obtain ⟨hlow, hhigh⟩ := h.number_le hr'
    rw [hr'key] at hlow hhigh
    have hlow' : 1 ≤ p.currentRevisionNumber := hlow
    have hhigh' : p.currentRevisionNumber ≤ (s.revisionsOf p.key).length := hhigh
    have hfollows := h.follows p hp
    rcases hfollows with hsettled | ⟨happending, -⟩ | ⟨-, hnone⟩
    · rw [hpkey] at hsettled
      exact ⟨by omega, p, hp, hpkey, .inr ⟨by omega, hsucc.symm⟩⟩
    · -- the next number is taken already
      rw [hpkey] at happending
      have hmem : r.key.revisionNumber ∈ s.revisionNumbers r.key.page := by
        rw [h.numbered, List.mem_range'_1]
        omega
      obtain ⟨r₂, hr₂, hr₂number⟩ := List.mem_map.mp hmem
      obtain ⟨hr₂mem, hr₂page⟩ := mem_revisionsOf.mp hr₂
      exact absurd ⟨hr₂page, hr₂number⟩ (hnew r₂ hr₂mem).2
    · rw [hnone, List.length_nil] at hhigh'
      omega

/-- A new Revision follows the current one, and a guard keeps the transaction open. -/
theorem insertRevision (h : OpenLaw s) {r : Revision} (hsequential : SequentialRevision s r.key)
    (hnew : IsNewRevision s r.key) (hpages : t.content.pages = s.content.pages)
    (hrevisions : t.content.revisions = s.content.revisions ++ [r])
    (hguards : GuardsAfter s r t.content.pageRevisionAppendGuards) : OpenLaw t := by
  have hsame := revisionsOf_of_concat hrevisions
  obtain ⟨hlength, p, hp, hpkey, hcases⟩ := h.number_of_sequential hsequential hnew
  refine ⟨?_, fun key => ?_, hguards.single, fun k hk => ?_, fun q hq => ?_⟩
  · rw [hpages]
    exact h.keys
  · rw [Store.revisionNumbers, hsame]
    split
    · next hkey =>
      rw [List.map_append, List.length_append, List.length_singleton, List.range'_1_concat,
        ← h.numbered, ← hkey, Store.revisionNumbers, List.map_singleton, hlength, Nat.add_comm 1]
    · exact h.numbered key
  · rcases hguards.added k hk with hk | ⟨rfl, hlt⟩
    · obtain ⟨hrevision, htwo⟩ := h.guarded k hk
      obtain ⟨r', hr', hkey⟩ := hasRevision_eq_true.mp hrevision
      refine ⟨hasRevision_eq_true.mpr ⟨r', ?_, hkey⟩, htwo⟩
      rw [hrevisions]
      exact List.mem_append_left _ hr'
    · refine ⟨hasRevision_eq_true.mpr ⟨r, ?_, rfl⟩, hlt⟩
      rw [hrevisions]
      exact List.mem_append_right _ (List.mem_singleton_self r)
  · rw [hpages] at hq
    by_cases hkey : q.key = r.key.page
    · obtain rfl : q = p := h.keys.eq_of_key hq hp (hkey.trans hpkey.symm)
      have hlast : (t.revisionsOf q.key).length = r.key.revisionNumber := by
        rw [hsame, if_pos hkey.symm, List.length_append, List.length_singleton, hkey, hlength]
      rcases hcases with ⟨hone, hpone⟩ | ⟨hlt, hsucc⟩
      · exact .settled (by rw [hlast, hone, hpone])
      · obtain ⟨k, hk, hkpage, hother⟩ := hguards.waits hlt
        refine .appending (by rw [hlast, hsucc]) ⟨k, hk, hkpage.trans hkey.symm, ?_⟩
        exact hother q hq (hkey.trans hkpage.symm)
    · refine (h.follows q hq).of_same rfl rfl ?_ fun k hk _ _ => hguards.kept k hk
      rw [hsame, if_neg fun heq => hkey heq.symm]

/-- The guard of a new Revision is set when its Page has none. -/
theorem guardsAfter_withRevision (h : OpenLaw s) {r : Revision}
    (hsequential : SequentialRevision s r.key) (hnew : IsNewRevision s r.key)
    (hguard : 1 < r.key.revisionNumber →
      ∀ k ∈ s.content.pageRevisionAppendGuards, k.page ≠ r.key.page) :
    GuardsAfter s r (s.withRevision r).content.pageRevisionAppendGuards := by
  show GuardsAfter s r (s.content.pageRevisionAppendGuards ++ _)
  obtain ⟨-, p, hp, hpkey, hcases⟩ := h.number_of_sequential hsequential hnew
  split
  · next hlt =>
    refine ⟨h.guards.concat (hguard hlt), fun k hk => List.mem_append_left _ hk, fun k hk => ?_,
      fun _ => ⟨r.key, List.mem_append_right _ (List.mem_singleton_self _), rfl, ?_⟩⟩
    · rcases List.mem_append.mp hk with hk | hk
      · exact .inl hk
      · exact .inr ⟨List.mem_singleton.mp hk, hlt⟩
    · intro q hq hqkey
      obtain rfl : q = p := h.keys.eq_of_key hq hp (hqkey.trans hpkey.symm)
      omega
  · next hle =>
    rw [List.append_nil]
    exact ⟨h.guards, fun _ hk => hk, fun _ hk => .inl hk, fun hlt => absurd hlt hle⟩

/-- The guard of a new Revision is left out when its Page has one that keeps the
transaction open. -/
theorem guardsAfter_same (h : OpenLaw s) {r : Revision} (hsequential : SequentialRevision s r.key)
    {k : RevisionKey} (hk : k ∈ s.content.pageRevisionAppendGuards) (hpage : k.page = r.key.page)
    (hother : s.isCurrent k = false) :
    GuardsAfter s r s.content.pageRevisionAppendGuards := by
  refine ⟨h.guards, fun _ hk => hk, fun _ hk => .inl hk, fun hlt => ⟨k, hk, hpage, ?_⟩⟩
  intro p hp hpkey hnumber
  -- the current Revision of the Page is the one with this number
  obtain ⟨q, hq, hqkey, ⟨hone, -⟩ | ⟨-, hrevision⟩⟩ := hsequential
  · omega
  · obtain rfl : q = p := h.keys.eq_of_key hq hp (hqkey.trans (hpage.symm.trans hpkey.symm))
    have hcurrent : q.currentRevision = k :=
      h.eq_of_number hrevision (h.guarded k hk).1 hpkey hnumber.symm
    exact Bool.false_ne_true (hother.symm.trans (isCurrent_eq_true.mpr ⟨q, hq, hcurrent⟩))

/-- The guard that is set is not that of a current Revision. -/
theorem guardsWait_of_guardsAfter (h : OpenLaw s) (hwait : s.GuardsWait) {r : Revision}
    (hsequential : SequentialRevision s r.key) (hnew : IsNewRevision s r.key)
    (hpages : t.content.pages = s.content.pages)
    (hguards : GuardsAfter s r t.content.pageRevisionAppendGuards) : t.GuardsWait := by
  obtain ⟨-, p, hp, hpkey, hcases⟩ := h.number_of_sequential hsequential hnew
  intro k hk q hq
  rw [hpages] at hq
  rcases hguards.added k hk with hk | ⟨rfl, hlt⟩
  · exact hwait k hk q hq
  · intro hcurrent
    have hqkey : q.key = r.key.page := congrArg RevisionKey.page hcurrent
    have hnumber : q.currentRevisionNumber = r.key.revisionNumber :=
      congrArg RevisionKey.revisionNumber hcurrent
    obtain rfl : q = p := h.keys.eq_of_key hq hp (hqkey.trans hpkey.symm)
    omega

/-- A guard that is set by hand is the only one of its Page. -/
theorem insertAppendGuard (h : OpenLaw s) {key : RevisionKey} (hrevision : s.hasRevision key = true)
    (htwo : 2 ≤ key.revisionNumber)
    (hguard : ∀ k ∈ s.content.pageRevisionAppendGuards, k.page ≠ key.page) :
    OpenLaw (s.modifyContent fun t =>
      { t with pageRevisionAppendGuards := t.pageRevisionAppendGuards ++ [key] }) := by
  refine ⟨h.keys, h.numbered, h.guards.concat hguard, fun k hk => ?_, fun p hp => ?_⟩
  · rcases List.mem_append.mp hk with hk | hk
    · exact h.guarded k hk
    · rw [List.mem_singleton.mp hk]
      exact ⟨hrevision, htwo⟩
  · exact (h.follows p hp).of_same rfl rfl rfl fun k hk _ _ => List.mem_append_left _ hk

/-- Only the guard of a current Revision is deleted, and nothing waits for it. -/
theorem deleteAppendGuard (h : OpenLaw s) {key : RevisionKey}
    (hcurrent : key ∈ s.content.pageRevisionAppendGuards → s.isCurrent key = true) :
    OpenLaw (s.modifyContent fun t =>
      { t with pageRevisionAppendGuards := t.pageRevisionAppendGuards.filter (· ≠ key) }) := by
  refine ⟨h.keys, h.numbered, h.guards.filter _, fun k hk => ?_, fun p hp => ?_⟩
  · exact h.guarded k (List.mem_filter.mp hk).1
  · refine (h.follows p hp).of_same rfl rfl rfl fun k hk hpage hother => ?_
    refine List.mem_filter.mpr ⟨hk, decide_eq_true ?_⟩
    rintro rfl
    obtain ⟨q, hq, hqkey⟩ := isCurrent_eq_true.mp (hcurrent hk)
    have hkey : q.key = p.key := (congrArg RevisionKey.page hqkey).trans hpage
    obtain rfl := h.keys.eq_of_key hq hp hkey
    exact hother (congrArg RevisionKey.revisionNumber hqkey).symm

end OpenLaw

/-- An update of a row that is not there, or of one that the triggers let pass. -/
theorem updatePage_exec {key : PageKey} {new : Page} {c c' : Connection} {w : PUnit}
    (h : (RevisionStatement.updatePage key new).exec c = .ok (w, c')) :
    c' = c ∨ ∃ old ∈ c.store.content.pages, PageUpdateAllowed c.store old new ∧
      c'.store = c.store.afterPageUpdate old new := by
  obtain ⟨matched, c₁, hupdate, hrest⟩ := bind_ok.mp h
  obtain ⟨-, rfl⟩ := pure_ok.mp hrest
  rcases updatePageWhere_ok hupdate with ⟨-, rfl⟩ | ⟨-, old, hold, -, -, hallowed, rfl⟩
  · exact .inl rfl
  · exact .inr ⟨old, hold, hallowed, rfl⟩

theorem deletePage_exec {key : PageKey} {c c' : Connection} {w : PUnit}
    (h : (RevisionStatement.deletePage key).exec c = .ok (w, c')) :
    c'.store = c.store.modifyContent fun t => { t with pages := t.pages.filter (·.key ≠ key) } := by
  simp only [RevisionStatement.exec, deletePage, bind_ok, constraint_ok, modifyStore_ok,
    markDirty_ok, exists_and_left, exists_eq_left', and_assoc, exists_const] at h
  obtain ⟨-, rfl⟩ := h
  rfl

theorem insertAppendGuard_exec {key : RevisionKey} {c c' : Connection} {w : PUnit}
    (h : (RevisionStatement.insertAppendGuard key).exec c = .ok (w, c')) :
    c.store.hasRevision key = true ∧ 2 ≤ key.revisionNumber ∧
      (∀ k ∈ c.store.content.pageRevisionAppendGuards, k.page ≠ key.page) ∧
      c'.store = c.store.modifyContent fun t =>
        { t with pageRevisionAppendGuards := t.pageRevisionAppendGuards ++ [key] } := by
  simp only [RevisionStatement.exec, insertPageRevisionAppendGuard, bind_ok, constraint_ok,
    modifyStore_ok, exists_and_left, exists_eq_left', and_assoc, exists_const] at h
  obtain ⟨hrevision, htwo, hguard, rfl⟩ := h
  exact ⟨hrevision, htwo, hguard, rfl⟩

theorem deleteAppendGuard_exec {key : RevisionKey} {c c' : Connection} {w : PUnit}
    (h : (RevisionStatement.deleteAppendGuard key).exec c = .ok (w, c')) :
    (key ∈ c.store.content.pageRevisionAppendGuards → c.store.isCurrent key = true) ∧
      c'.store = c.store.modifyContent fun t =>
        { t with pageRevisionAppendGuards := t.pageRevisionAppendGuards.filter (· ≠ key) } := by
  simp only [RevisionStatement.exec, deleteAppendGuard, bind_ok, constraint_ok, modifyStore_ok,
    exists_and_left, exists_eq_left', and_assoc, exists_const] at h
  obtain ⟨hcurrent, rfl⟩ := h
  exact ⟨hcurrent, rfl⟩

theorem isNewRevision_of_insertRevision {r : Revision} {c c' : Connection} {w : PUnit}
    (h : insertRevision r c = .ok (w, c')) : IsNewRevision c.store r.key := by
  simp only [insertRevision, bind_ok, constraint_ok, exists_and_left, exists_eq_left', and_assoc,
    exists_const] at h
  exact h.2.2.1

/-- The guard was set as by a plain INSERT, or left out. -/
theorem insertRevisionOrIgnore_ok {r : Revision} {c c' : Connection} {w : PUnit}
    (h : insertRevisionOrIgnore r c = .ok (w, c')) :
    SequentialRevision c.store r.key ∧ IsNewRevision c.store r.key ∧
      c'.store.content.pages = c.store.content.pages ∧
      c'.store.content.revisions = c.store.content.revisions ++ [r] ∧
      ((1 < r.key.revisionNumber →
          ∀ k ∈ c.store.content.pageRevisionAppendGuards, k.page ≠ r.key.page) ∧
        c'.store.content.pageRevisionAppendGuards =
          (c.store.withRevision r).content.pageRevisionAppendGuards ∨
      1 < r.key.revisionNumber ∧
        (∃ k ∈ c.store.content.pageRevisionAppendGuards, k.page = r.key.page) ∧
        c'.store.content.pageRevisionAppendGuards =
          c.store.content.pageRevisionAppendGuards) := by
  simp only [insertRevisionOrIgnore, bind_ok, constraint_ok, modifyStore_ok, query_ok,
    Fallible.pure_ok, exists_and_left, exists_eq_left', and_assoc, exists_const] at h
  obtain ⟨hsequential, -, hnew, w₁, c₁, hmark, hrest⟩ := h
  have hq := Quiet.tableFrame.keeps_markIfCurrent _ _ _ _ hmark
  have hguards : c₁.store.content.pageRevisionAppendGuards =
      c.store.content.pageRevisionAppendGuards := hq.appendGuards
  split at hrest
  · next hset =>
    simp only [insertPageRevisionAppendGuard, bind_ok, constraint_ok, modifyStore_ok,
      exists_and_left, exists_eq_left', and_assoc, exists_const] at hrest
    obtain ⟨hguard, hmirror⟩ := hrest
    have hq' := Quiet.tableFrame.keeps_mirrorContentFile _ _ _ _ hmirror
    rw [hguards] at hguard
    refine ⟨hsequential, hnew, hq'.pages.trans hq.pages, hq'.revisions.trans hq.revisions,
      .inl ⟨fun _ => hguard, hq'.appendGuards.trans ?_⟩⟩
    simp [Store.modifyContent, Store.withRevision, hset.1, hguards]
  · next hleft =>
    have hq' := Quiet.tableFrame.keeps_mirrorContentFile _ _ _ _ hrest
    refine ⟨hsequential, hnew, hq'.pages.trans hq.pages, hq'.revisions.trans hq.revisions, ?_⟩
    by_cases hlt : 1 < r.key.revisionNumber
    · have htaken := not_not.mp (not_and.mp hleft hlt)
      rw [hguards, List.any_eq_true] at htaken
      obtain ⟨k, hk, hpage⟩ := htaken
      exact .inr ⟨hlt, ⟨k, hk, of_decide_eq_true hpage⟩, hq'.appendGuards.trans hguards⟩
    · refine .inl ⟨fun h => absurd h hlt, hq'.appendGuards.trans ?_⟩
      simp [Store.modifyContent, Store.withRevision, hlt, hguards]

/-- A Revision that is there is neither changed nor removed. -/
theorem changeRevision_ok {key : RevisionKey} {c c' : Connection} {w : PUnit}
    (h : changeRevision key c = .ok (w, c')) : c' = c := by
  rw [changeRevision, constraint_ok] at h
  exact h.2.symm

theorem updateAppendGuard_ok {key : RevisionKey} {c c' : Connection} {w : PUnit}
    (h : updateAppendGuard key c = .ok (w, c')) : c' = c := by
  rw [updateAppendGuard, constraint_ok] at h
  exact h.2.symm

/-- **Every regular statement keeps what holds inside.** -/
theorem OpenLaw.exec {c c' : Connection} (h : OpenLaw c.store) {st : RevisionStatement}
    (hstart : st.StartsPages c.store) (hguards : st.GuardsRevisions c.store) {w : PUnit}
    (hrun : st.exec c = .ok (w, c')) :
    OpenLaw c'.store := by
  cases st with
  | insertPage p =>
    obtain ⟨hone, -, -, -, hkeys, -, rfl⟩ := insertPage_ok hrun
    exact h.insertPage hkeys hone hstart
  | updatePage key new =>
    rcases updatePage_exec hrun with rfl | ⟨old, hold, hallowed, hstore⟩
    · exact h
    · rw [hstore]
      exact h.updatePage hold hallowed
  | deletePage key =>
    rw [deletePage_exec hrun]
    exact h.deletePage key
  | insertRevision r =>
    obtain ⟨hsequential, -, hguard, hquiet⟩ := insertRevision_ok hrun
    have hnew := isNewRevision_of_insertRevision hrun
    refine h.insertRevision hsequential hnew hquiet.pages hquiet.revisions ?_
    rw [hquiet.appendGuards]
    exact h.guardsAfter_withRevision hsequential hnew hguard
  | insertRevisionOrIgnore r =>
    obtain ⟨hsequential, hnew, hpages, hrevisions, hset | ⟨hlt, ⟨k, hk, hpage⟩, hsame⟩⟩ :=
      insertRevisionOrIgnore_ok hrun
    · refine h.insertRevision hsequential hnew hpages hrevisions ?_
      rw [hset.2]
      exact h.guardsAfter_withRevision hsequential hnew hset.1
    · refine h.insertRevision hsequential hnew hpages hrevisions ?_
      rw [hsame]
      exact h.guardsAfter_same hsequential hk hpage (hguards hlt k hk hpage)
  | updateRevision key new =>
    obtain rfl := changeRevision_ok hrun
    exact h
  | deleteRevision key =>
    obtain rfl := changeRevision_ok hrun
    exact h
  | insertAppendGuard key =>
    obtain ⟨hrevision, htwo, hguard, hstore⟩ := insertAppendGuard_exec hrun
    rw [hstore]
    exact h.insertAppendGuard hrevision htwo hguard
  | updateAppendGuard key new =>
    obtain rfl := updateAppendGuard_ok hrun
    exact h
  | deleteAppendGuard key =>
    obtain ⟨hcurrent, hstore⟩ := deleteAppendGuard_exec hrun
    rw [hstore]
    exact h.deleteAppendGuard hcurrent
  | other body hbody =>
    obtain ⟨hp, hr, hg⟩ := hbody _ _ _ hrun
    exact h.of_eq hp hr hg

/-- **A guard that no one sets by hand for a current Revision goes when its Revision
becomes the current one.** -/
theorem OpenLaw.guardsWait_exec {c c' : Connection} (h : OpenLaw c.store)
    (hwait : c.store.GuardsWait) {st : RevisionStatement} (happends : st.GuardsAppends c.store)
    {w : PUnit} (hrun : st.exec c = .ok (w, c')) : c'.store.GuardsWait := by
  cases st with
  | insertPage p =>
    obtain ⟨hone, -, -, -, -, -, rfl⟩ := insertPage_ok hrun
    intro k hk q hq
    rcases List.mem_append.mp hq with hq | hq
    · exact hwait k hk q hq
    · rintro rfl
      rw [List.mem_singleton.mp hq] at hk
      have htwo : 2 ≤ p.currentRevisionNumber := (h.guarded _ hk).2
      omega
  | updatePage key new =>
    rcases updatePage_exec hrun with rfl | ⟨old, hold, -, hstore⟩
    · exact hwait
    · obtain ⟨hpages, -, hguards, -, -⟩ := content_afterPageUpdate old new c.store
      intro k hk q' hq'
      rw [hstore, hguards] at hk
      rw [hstore, hpages] at hq'
      obtain ⟨q, hq, rfl⟩ := List.mem_map.mp hq'
      split
      · split at hk
        · next hsame =>
          rw [hsame]
          exact hwait k hk old hold
        · exact (of_decide_eq_true (List.mem_filter.mp hk).2).symm
      · split at hk
        · exact hwait k hk q hq
        · exact hwait k (List.mem_filter.mp hk).1 q hq
  | deletePage key =>
    rw [deletePage_exec hrun]
    exact fun k hk p hp => hwait k hk p (List.mem_filter.mp hp).1
  | insertRevision r =>
    obtain ⟨hsequential, -, hguard, hquiet⟩ := insertRevision_ok hrun
    have hnew := isNewRevision_of_insertRevision hrun
    refine h.guardsWait_of_guardsAfter hwait hsequential hnew hquiet.pages ?_
    rw [hquiet.appendGuards]
    exact h.guardsAfter_withRevision hsequential hnew hguard
  | insertRevisionOrIgnore r =>
    obtain ⟨hsequential, hnew, hpages, -, ⟨hguard, hset⟩ | ⟨-, -, hsame⟩⟩ :=
      insertRevisionOrIgnore_ok hrun
    · refine h.guardsWait_of_guardsAfter hwait hsequential hnew hpages ?_
      rw [hset]
      exact h.guardsAfter_withRevision hsequential hnew hguard
    · intro k hk p hp
      rw [hsame] at hk
      rw [hpages] at hp
      exact hwait k hk p hp
  | updateRevision key new =>
    obtain rfl := changeRevision_ok hrun
    exact hwait
  | deleteRevision key =>
    obtain rfl := changeRevision_ok hrun
    exact hwait
  | insertAppendGuard key =>
    obtain ⟨-, -, -, hstore⟩ := insertAppendGuard_exec hrun
    rw [hstore]
    intro k hk p hp
    rcases List.mem_append.mp hk with hk | hk
    · exact hwait k hk p hp
    · rw [List.mem_singleton.mp hk]
      intro hkey
      exact Bool.false_ne_true (happends.symm.trans (isCurrent_eq_true.mpr ⟨p, hp, hkey⟩))
  | updateAppendGuard key new =>
    obtain rfl := updateAppendGuard_ok hrun
    exact hwait
  | deleteAppendGuard key =>
    obtain ⟨-, hstore⟩ := deleteAppendGuard_exec hrun
    rw [hstore]
    exact fun k hk p hp => hwait k (List.mem_filter.mp hk).1 p hp
  | other body hbody =>
    obtain ⟨hp, -, hg⟩ := hbody _ _ _ hrun
    intro k hk q hq
    rw [hg] at hk
    rw [hp] at hq
    exact hwait k hk q hq

/-- While every guard waits, none is left out. -/
theorem Store.GuardsWait.guardsRevisions (h : s.GuardsWait) (st : RevisionStatement) :
    st.GuardsRevisions s := by
  cases st with
  | insertRevisionOrIgnore r =>
    intro _ k hk _
    rw [← Bool.not_eq_true, isCurrent_eq_true]
    rintro ⟨p, hp, hkey⟩
    exact h k hk p hp hkey
  | _ => trivial

/-- No statement changes or removes a Revision. -/
theorem revisions_prefix_of_exec {st : RevisionStatement} {c c' : Connection} {w : PUnit}
    (hrun : st.exec c = .ok (w, c')) :
    c.store.content.revisions <+: c'.store.content.revisions := by
  cases st with
  | insertPage p =>
    obtain ⟨-, -, -, -, -, -, rfl⟩ := insertPage_ok hrun
    exact List.prefix_rfl
  | updatePage key new =>
    rcases updatePage_exec hrun with rfl | ⟨old, -, -, hstore⟩
    · exact List.prefix_rfl
    · rw [hstore, (content_afterPageUpdate old new c.store).2.1]
  | deletePage key =>
    rw [deletePage_exec hrun]
    exact List.prefix_rfl
  | insertRevision r =>
    obtain ⟨-, -, -, hquiet⟩ := insertRevision_ok hrun
    rw [hquiet.revisions]
    exact List.prefix_append _ _
  | insertRevisionOrIgnore r =>
    obtain ⟨-, -, -, hrevisions, -⟩ := insertRevisionOrIgnore_ok hrun
    rw [hrevisions]
    exact List.prefix_append _ _
  | updateRevision key new =>
    obtain rfl := changeRevision_ok hrun
    exact List.prefix_rfl
  | deleteRevision key =>
    obtain rfl := changeRevision_ok hrun
    exact List.prefix_rfl
  | insertAppendGuard key =>
    obtain ⟨-, -, -, hstore⟩ := insertAppendGuard_exec hrun
    rw [hstore]
    exact List.prefix_rfl
  | updateAppendGuard key new =>
    obtain rfl := updateAppendGuard_ok hrun
    exact List.prefix_rfl
  | deleteAppendGuard key =>
    obtain ⟨-, hstore⟩ := deleteAppendGuard_exec hrun
    rw [hstore]
    exact List.prefix_rfl
  | other body hbody =>
    rw [(hbody _ _ _ hrun).2.1]

/-! ### The commit -/

/-- **What the deferred foreign keys add at the commit.** -/
theorem OpenLaw.revisionLaw (h : OpenLaw s) (hkeys : DeferredForeignKeys s) : RevisionLaw s := by
  -- a Page whose current Revision exists waits for no append
  have hsettled : ∀ p ∈ s.content.pages,
      p.currentRevisionNumber = (s.revisionsOf p.key).length := by
    intro p hp
    rcases h.follows p hp with hsettled | ⟨-, k, hk, hkpage, hother⟩ | ⟨-, hnone⟩
    · exact hsettled
    · obtain ⟨q, hq, hqkey⟩ := isCurrent_eq_true.mp (hkeys.appends k hk)
      have hpage : q.key = p.key := (congrArg RevisionKey.page hqkey).trans hkpage
      obtain rfl := h.keys.eq_of_key hq hp hpage
      exact absurd (congrArg RevisionKey.revisionNumber hqkey).symm hother
    · obtain ⟨r, hr, hrkey⟩ := hasRevision_eq_true.mp (hkeys.currentRevision p hp)
      have hpage : r.key.page = p.key := congrArg RevisionKey.page hrkey
      have hmem := mem_revisionsOf.mpr ⟨hr, hpage⟩
      rw [hnone] at hmem
      exact absurd hmem List.not_mem_nil
  refine ⟨fun p hp => ?_, fun p hp => ?_, hkeys.appends⟩
  · rw [h.numbered, hsettled p hp]
  · obtain ⟨r, hr, hrkey⟩ := hasRevision_eq_true.mp (hkeys.currentRevision p hp)
    have hpage : r.key.page = p.key := congrArg RevisionKey.page hrkey
    have hnumber : r.key.revisionNumber = p.currentRevisionNumber :=
      congrArg RevisionKey.revisionNumber hrkey
    have hlast := h.getLast?_of_number hr (by rw [hnumber, hsettled p hp, hpage])
    rw [hpage] at hlast
    exact ⟨r, hlast, hrkey⟩

/-! ### Runs of a session -/

/-- An action of a session, whose statement meets a condition. -/
def SqlStep (Meets : Store → RevisionStatement → Prop) (s : Session) (a : SqlAction)
    (t : Session) : Prop :=
  s.after a = t ∧ ∀ st, a = .statement st → Meets s.current st

/-- No Page starts in the middle of its Revisions, and no append is without a guard. -/
def Regular (s : Store) (st : RevisionStatement) : Prop :=
  st.StartsPages s ∧ st.GuardsRevisions s

instance (s : Store) (st : RevisionStatement) : Decidable (Regular s st) := by
  unfold Regular
  infer_instance

/-- What holds of a session. -/
structure SessionLaw (s : Session) : Prop where
  opened : OpenLaw s.current
  committed : OpenLaw s.committed
  law : RevisionLaw s.committed

theorem openLaw_empty : OpenLaw {} where
  keys := List.nodup_nil
  numbered _ := rfl
  guards := List.nodup_nil
  guarded _ hk := absurd hk List.not_mem_nil
  follows _ hp := absurd hp List.not_mem_nil

theorem sessionLaw_empty : SessionLaw {} where
  opened := openLaw_empty
  committed := openLaw_empty
  law := ⟨fun _ hp => absurd hp List.not_mem_nil, fun _ hp => absurd hp List.not_mem_nil,
    fun _ hk => absurd hk List.not_mem_nil⟩

theorem after_statement (s : Session) (st : RevisionStatement) :
    s.after (.statement st) = s ∨ ∃ w c, st.exec ⟨s.current, []⟩ = .ok (w, c) ∧
      s.after (.statement st) = { s with current := c.store } := by
  rw [Session.after]
  cases hrun : st.exec ⟨s.current, []⟩ with
  | ok r => exact .inr ⟨r.1, r.2, rfl, rfl⟩
  | error e => exact .inl rfl

theorem after_commit {s : Session} :
    s.after .commit = s ∨ CommitAllowed s.current ∧ s.after .commit = ⟨s.current, s.current⟩ := by
  rw [Session.after]
  split
  · next hallowed => exact .inr ⟨hallowed, rfl⟩
  · exact .inl rfl

/-- **Every regular action keeps what holds of a session.** -/
theorem SessionLaw.after {s t : Session} {a : SqlAction} (h : SessionLaw s)
    (hstep : SqlStep Regular s a t) : SessionLaw t := by
  obtain ⟨rfl, hmeets⟩ := hstep
  cases a with
  | statement st =>
    rcases after_statement s st with hsame | ⟨w, c, hrun, hnew⟩
    · rwa [hsame]
    · obtain ⟨hstart, hguards⟩ := hmeets st rfl
      rw [hnew]
      exact ⟨h.opened.exec hstart hguards hrun, h.committed, h.law⟩
  | commit =>
    rcases after_commit (s := s) with hsame | ⟨hallowed, hnew⟩
    · rwa [hsame]
    · rw [hnew]
      exact ⟨h.opened, h.opened, h.opened.revisionLaw hallowed.toDeferredForeignKeys⟩
  | rollback => exact ⟨h.committed, h.committed, h.law⟩

/-- What holds of a session in which every guard waits. -/
structure WaitingLaw (s : Session) : Prop extends SessionLaw s where
  opened_wait : s.current.GuardsWait
  committed_wait : s.committed.GuardsWait

theorem WaitingLaw.after {s t : Session} {a : SqlAction} (h : WaitingLaw s)
    (hstep : SqlStep (fun s st => st.StartsPages s ∧ st.GuardsAppends s) s a t) :
    WaitingLaw t := by
  obtain ⟨rfl, hmeets⟩ := hstep
  have hregular : SqlStep Regular s a (s.after a) :=
    ⟨rfl, fun st hst => ⟨(hmeets st hst).1, h.opened_wait.guardsRevisions st⟩⟩
  refine ⟨h.toSessionLaw.after hregular, ?_, ?_⟩
  · cases a with
    | statement st =>
      rcases after_statement s st with hsame | ⟨w, c, hrun, hnew⟩
      · rw [hsame]
        exact h.opened_wait
      · rw [hnew]
        exact h.opened.guardsWait_exec h.opened_wait (hmeets st rfl).2 hrun
    | commit =>
      rcases after_commit (s := s) with hsame | ⟨-, hnew⟩
      · rw [hsame]
        exact h.opened_wait
      · rw [hnew]
        exact h.opened_wait
    | rollback => exact h.committed_wait
  · cases a with
    | statement st =>
      rcases after_statement s st with hsame | ⟨w, c, -, hnew⟩
      · rw [hsame]
        exact h.committed_wait
      · rw [hnew]
        exact h.committed_wait
    | commit =>
      rcases after_commit (s := s) with hsame | ⟨-, hnew⟩
      · rw [hsame]
        exact h.committed_wait
      · rw [hnew]
        exact h.opened_wait
    | rollback => exact h.committed_wait

theorem waitingLaw_empty : WaitingLaw {} where
  toSessionLaw := sessionLaw_empty
  opened_wait := fun _ hk => absurd hk List.not_mem_nil
  committed_wait := fun _ hk => absurd hk List.not_mem_nil

/-- Committed Revisions are never changed nor removed, by whatever action. -/
theorem revisions_prefix_of_after {s : Session}
    (h : s.committed.content.revisions <+: s.current.content.revisions) (a : SqlAction) :
    s.committed.content.revisions <+: (s.after a).committed.content.revisions ∧
      (s.after a).committed.content.revisions <+: (s.after a).current.content.revisions := by
  cases a with
  | statement st =>
    rcases after_statement s st with hsame | ⟨w, c, hrun, hnew⟩
    · rw [hsame]
      exact ⟨List.prefix_rfl, h⟩
    · rw [hnew]
      exact ⟨List.prefix_rfl, h.trans (revisions_prefix_of_exec hrun)⟩
  | commit =>
    rcases after_commit (s := s) with hsame | ⟨-, hnew⟩
    · rw [hsame]
      exact ⟨List.prefix_rfl, h⟩
    · rw [hnew]
      exact ⟨h, List.prefix_rfl⟩
  | rollback => exact ⟨List.prefix_rfl, List.prefix_rfl⟩

end

theorem revisions_prefix_of_trace {Meets : Store → RevisionStatement → Prop}
    {before after : List SqlAction} {s t : Session} (hbefore : Trace (SqlStep Meets) {} before s)
    (hafter : Trace (SqlStep Meets) s after t) :
    s.committed.content.revisions <+: t.committed.content.revisions := by
  have hopen : s.committed.content.revisions <+: s.current.content.revisions :=
    hbefore.invariant (P := fun u => u.committed.content.revisions <+: u.current.content.revisions)
      List.prefix_rfl fun u a v hu hstep => by
        obtain ⟨rfl, -⟩ := hstep
        exact (revisions_prefix_of_after hu a).2
  have hpair : s.committed.content.revisions <+: t.committed.content.revisions ∧
      t.committed.content.revisions <+: t.current.content.revisions :=
    hafter.invariant (P := fun u => s.committed.content.revisions <+: u.committed.content.revisions ∧
        u.committed.content.revisions <+: u.current.content.revisions)
      ⟨List.prefix_rfl, hopen⟩ fun u a v hu hstep => by
        obtain ⟨rfl, -⟩ := hstep
        obtain ⟨hcommitted, hcurrent⟩ := revisions_prefix_of_after hu.2 a
        exact ⟨hu.1.trans hcommitted, hcurrent⟩
  exact hpair.1

/-- **The law holds of every committed state of a regular run, and a committed Revision
stays as it is.**  When no one sets a guard by hand for a current Revision either, no guard
is left. -/
theorem revisionLaw_of_trace {before after : List SqlAction} {s t : Session}
    (hbefore : Trace (SqlStep Regular) {} before s) (hafter : Trace (SqlStep Regular) s after t) :
    RevisionLaw t.committed ∧
      s.committed.content.revisions <+: t.committed.content.revisions ∧
      (Trace (SqlStep fun s st => st.StartsPages s ∧ st.GuardsAppends s) {} (before ++ after) t →
        t.committed.content.pageRevisionAppendGuards = []) := by
  have hlaw : SessionLaw t :=
    (hbefore.append hafter).invariant sessionLaw_empty fun _ _ _ h hstep => h.after hstep
  refine ⟨hlaw.law, revisions_prefix_of_trace hbefore hafter, fun hwaiting => ?_⟩
  have hwait : t.committed.GuardsWait :=
    (hwaiting.invariant waitingLaw_empty fun _ _ _ h hstep => h.after hstep).committed_wait
  refine List.eq_nil_iff_forall_not_mem.mpr fun k hk => ?_
  obtain ⟨p, hp, hcurrent⟩ := isCurrent_eq_true.mp (hlaw.law.settled k hk)
  exact hwait k hk p hp hcurrent

/-! ### Two sessions

A Page with two Revisions, appended one after the other, and a Page that is deleted and
inserted anew between them. -/

/-- Every statement of a list of actions meets a condition. -/
def AllMeet (Meets : Store → RevisionStatement → Prop) (s : Session) : List SqlAction → Prop
  | [] => True
  | .statement st :: rest => Meets s.current st ∧ AllMeet Meets (s.after (.statement st)) rest
  | a :: rest => AllMeet Meets (s.after a) rest

instance AllMeet.decidable {Meets : Store → RevisionStatement → Prop}
    [∀ s st, Decidable (Meets s st)] : ∀ s events, Decidable (AllMeet Meets s events)
  | _, [] => .isTrue trivial
  | s, .statement st :: rest =>
    have := @AllMeet.decidable Meets _ (s.after (.statement st)) rest
    inferInstanceAs (Decidable (_ ∧ _))
  | s, .commit :: rest => @AllMeet.decidable Meets _ (s.after .commit) rest
  | s, .rollback :: rest => @AllMeet.decidable Meets _ (s.after .rollback) rest

theorem trace_of_allMeet {Meets : Store → RevisionStatement → Prop} {events : List SqlAction}
    {s : Session} (h : AllMeet Meets s events) :
    Trace (SqlStep Meets) s events (events.foldl Session.after s) := by
  induction events generalizing s with
  | nil => exact .start
  | cons a rest ih =>
    have hfirst : Trace (SqlStep Meets) s [a] (s.after a) := by
      refine .next .start ⟨rfl, ?_⟩
      rintro st rfl
      exact h.1
    have hrest : AllMeet Meets (s.after a) rest := by
      cases a with
      | statement st => exact h.2
      | commit => exact h
      | rollback => exact h
    exact hfirst.append (ih hrest)

def sampleRow : PageKey := ⟨"lib", List.replicate 16 7⟩

def sampleRevisionKey (number : ℕ) : RevisionKey :=
  ⟨sampleRow, "rev_0000000000000000000000000000000" ++ Nat.toDigits 10 number, number⟩

/-- The Page at one of its Revisions. -/
def samplePageAt (number : ℕ) : Page where
  key := sampleRow
  sectionId := "sec"
  bookId := "one"
  pageId := "notes"
  idTimestampMicros := 0
  baseSlug := "notes"
  collisionOrdinal := 1
  title := "Notes"
  pageType := "note"
  occurredAt := 0
  currentRevisionId := (sampleRevisionKey number).revisionId
  currentRevisionNumber := number
  createdAt := 0
  updatedAt := number
  deletedAt := none

def sampleRevision (number : ℕ) : Revision :=
  ⟨sampleRevisionKey number, some [104], some 1, some [], 0⟩

/-- A row of another table. -/
def sampleOther (f : Store → Store) (h : ∀ s, (f s).content.pages = s.content.pages ∧
    (f s).content.revisions = s.content.revisions ∧
    (f s).content.pageRevisionAppendGuards = s.content.pageRevisionAppendGuards) : SqlAction :=
  .statement (.other (modifyStore f) fun c _ _ hrun => by
    obtain rfl := modifyStore_ok.mp hrun
    exact h c.store)

def sampleInsertBook : SqlAction :=
  sampleOther
    (fun s => { s with library := { s.library with books := [⟨"one", "lib", "sec", "One"⟩] } })
    fun _ => ⟨rfl, rfl, rfl⟩

def sampleRegister : SqlAction :=
  sampleOther (.modifyContent fun t =>
      { t with pageIdentifierRegistry := [⟨"lib", [], "notes", sampleRow.pageUid, 0⟩] })
    fun _ => ⟨rfl, rfl, rfl⟩

def sampleStart : List SqlAction :=
  [sampleInsertBook, .statement (.insertPage (samplePageAt 1)),
    .statement (.insertRevision (sampleRevision 1))]

def sampleAppend : List SqlAction :=
  [.statement (.insertRevision (sampleRevision 2)),
    .statement (.updatePage sampleRow (samplePageAt 2))]

def sampleRestart : List SqlAction :=
  [.statement (.deletePage sampleRow), .statement (.insertPage (samplePageAt 1))]

/-- The Page is registered, and then appended to. -/
def sampleRegistered : List SqlAction := sampleStart ++ [sampleRegister, .commit]

def sampleAppended : List SqlAction := sampleAppend ++ [.commit]

theorem revisionLaw_of_sampleAppended :
    RevisionLaw ((sampleRegistered ++ sampleAppended).foldl Session.after {}).committed ∧
      ((sampleRegistered ++ sampleAppended).foldl Session.after {}).committed.revisionNumbers
        sampleRow = [1, 2] := by
  have hmeets : AllMeet Regular {} sampleRegistered ∧
      AllMeet Regular (sampleRegistered.foldl Session.after {}) sampleAppended ∧
      ((sampleRegistered ++ sampleAppended).foldl Session.after {}).committed.revisionNumbers
        sampleRow = [1, 2] := by decide +kernel
  obtain ⟨hbefore, hafter, hnumbers⟩ := hmeets
  refine ⟨?_, hnumbers⟩
  rw [List.foldl_append]
  exact (revisionLaw_of_trace (trace_of_allMeet hbefore) (trace_of_allMeet hafter)).1

/-- The Page is deleted before it is registered, and starts anew with two Revisions. -/
def sampleRestarted : List SqlAction :=
  sampleStart ++ sampleAppend ++ sampleRestart ++ [sampleRegister, .commit]

theorem not_revisionLaw_of_trace :
    ¬∀ (events : List SqlAction) (s : Session), Trace (SqlStep fun _ _ => True) {} events s →
      RevisionLaw s.committed := by
  intro hall
  have hbroken : AllMeet (fun _ _ => True) {} sampleRestarted ∧
      ∃ p ∈ (sampleRestarted.foldl Session.after {}).committed.content.pages,
        (sampleRestarted.foldl Session.after {}).committed.revisionNumbers p.key ≠
          List.range' 1 p.currentRevisionNumber := by decide +kernel
  obtain ⟨hmeets, p, hp, hne⟩ := hbroken
  exact hne ((hall _ _ (trace_of_allMeet hmeets)).numbered p hp)

end PatchouliLib
