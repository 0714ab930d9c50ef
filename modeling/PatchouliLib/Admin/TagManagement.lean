import PatchouliLib.Admin.Service
import PatchouliLib.Search.Flush
import PatchouliLib.Storage.AuthStatements
import PatchouliLib.System.Operations
import PatchouliLib.Tags.Repository

/-!
# Batches of Tag changes

A batch renames or deletes some Tags at once.  All checks are made against the
table as it stands before the batch, then the rows are changed one at a time, each
with its audit event.  The checks and the constraints of the statements together
say that every listed Tag still has its expected name and that the new names are
distinct and free; so the order of the entries does not matter.

## Main definitions

* `MasterTagBatchInput` — a batch that the contract admits.
* `applyMasterTagBatch`, `manageTagsAsMaster` — a batch inside its transaction.
* `BatchAdmissible` — what a batch demands of the tables.
* `MasterTagBatchInput.applied` — the tables after a batch.

## Main results

* `applyMasterTagBatch_ok` — **when a batch is accepted, and what it writes.**
* `commitTagBatch_perm` — the order of the entries does not matter.
* `commitTagBatch_exact` — a batch is refused as a whole, or it changes exactly the
  listed Tags.
-/

namespace PatchouliLib

open Foundation

/-! ### Batches -/

structure MasterTagBatchChange where
  libraryId : Id
  tagId : Id
  expectedName : Text
  newName : Option Text
deriving DecidableEq

inductive TagOperation where
  | rename
  | delete
deriving DecidableEq

/-- The primary key of the Tag of an entry. -/
def MasterTagBatchChange.key (item : MasterTagBatchChange) : Id × Id := (item.libraryId, item.tagId)

/-- The constraints on the fields of an entry. -/
def MasterTagBatchChange.FieldsValid (item : MasterTagBatchChange) : Prop :=
  IsOpaqueId item.libraryId ∧ IsOpaqueId item.tagId ∧
    (1 ≤ item.expectedName.length ∧ item.expectedName.length ≤ tagNameMaxLength) ∧
    ∀ name ∈ item.newName, 1 ≤ name.length ∧ name.length ≤ tagNameMaxLength

instance (item : MasterTagBatchChange) : Decidable item.FieldsValid := by
  unfold MasterTagBatchChange.FieldsValid
  infer_instance

def maxBatchChanges : ℕ := 200

/-- `require_explicit_distinct_changes`, but for the distinct keys. -/
def IsExplicit (operation : TagOperation) (changes : List MasterTagBatchChange)
    (confirmDelete : Bool) : Prop :=
  match operation with
  | .delete => confirmDelete = true ∧ ∀ item ∈ changes, item.newName = none
  | .rename => ∀ item ∈ changes, item.newName ≠ none

/-- A batch that the contract admits. -/
structure MasterTagBatchInput where
  operation : TagOperation
  changes : List MasterTagBatchChange
  confirmDelete : Bool
  count : 1 ≤ changes.length ∧ changes.length ≤ maxBatchChanges
  fields : ∀ item ∈ changes, item.FieldsValid
  distinct : (changes.map (·.key)).Nodup
  explicit : IsExplicit operation changes confirmDelete

section

variable [Platform]

/-! ### The code -/

/-- What the checks have collected: the new names of the Tags that change, newest
first, and the new keys. -/
structure TagPlan where
  replacements : List ((Id × Id) × (Text × Text)) := []
  replacementKeys : List (Id × Text) := []

/-- The checks on a rename. -/
def planRename (s : Store) (plan : TagPlan) (item : MasterTagBatchChange) (previous : Text) :
    Except Err TagPlan := do
  let newName ← Fallible.get item.newName .tagValidation
  let (displayName, matchKey) ← (normalizeTagName newName).mapError fun _ => .tagValidation
  let key := (item.libraryId, matchKey)
  Fallible.check (key ∉ plan.replacementKeys) .tagBatchConflict
  -- a swap or a merge would take the name of another Tag
  Fallible.check (∀ owner ∈ s.tagOwner? key, owner = item.tagId) .tagBatchConflict
  pure
    { replacements := if displayName ≠ previous then
        (item.key, displayName, matchKey) :: plan.replacements else plan.replacements
      replacementKeys := key :: plan.replacementKeys }

/-- The checks on one entry. -/
def planChange (operation : TagOperation) (s : Store) (plan : TagPlan)
    (item : MasterTagBatchChange) : Except Err TagPlan := do
  let previous ← Fallible.get (s.tagName? item.key) .tagNotFound
  Fallible.check (previous = item.expectedName) .tagBatchConflict
  match operation with
  | .rename => planRename s plan item previous
  | .delete => pure plan

/-- `f"{item.library_id}:{item.tag_id}"`. -/
def tagTarget (key : Id × Id) : Text := key.1 ++ ':' :: key.2

def TagOperation.action : TagOperation → Text
  | .rename => "tag.rename"
  | .delete => "tag.delete"

/-- The changes of one entry, and its audit event. -/
def applyChange (operation : TagOperation) (replacements : List ((Id × Id) × (Text × Text)))
    (session : MasterAdminSession) (now : ℤ) (eventId : ℕ → Id) (changed : ℕ)
    (item : MasterTagBatchChange) : Write ℕ :=
  match operation with
  | .rename =>
    match replacements.lookup item.key with
    | none => pure changed
    | some (displayName, matchKey) => do
      updateTag item.key displayName matchKey
      addMasterSuccess session (eventId changed) operation.action "tag" (tagTarget item.key) now
      pure (changed + 1)
  | .delete => do
    deletePageTags item.key
    deleteTag item.key
    addMasterSuccess session (eventId changed) operation.action "tag" (tagTarget item.key) now
    pure (changed + 1)

/-- Caller holds BEGIN IMMEDIATE and has revalidated the master session. -/
def applyMasterTagBatch (request : MasterTagBatchInput) (session : MasterAdminSession) (now : ℤ)
    (eventId : ℕ → Id) : Write ℕ := do
  let plan ← query fun s => request.changes.foldlM (planChange request.operation s) {}
  request.changes.foldlM
    (applyChange request.operation plan.replacements session now eventId) 0

/-- `manage_tags_as_master`: the session is checked at `time`, the events are of `now`. -/
def manageTagsAsMaster (request : MasterTagBatchInput) (session : MasterAdminSession)
    (time now : ℤ) (eventId : ℕ → Id) : Write ℕ := do
  requireMasterSession session time
  applyMasterTagBatch request session now eventId

/-! ### What a batch demands -/

/-- The names an entry gives its Tag. -/
def MasterTagBatchChange.newNames (item : MasterTagBatchChange) : Option (Text × Text) :=
  item.newName.bind fun name => (normalizeTagName name).toOption

/-- The names of an entry that has some. -/
def MasterTagBatchChange.names (item : MasterTagBatchChange) : Text × Text :=
  item.newNames.getD ([], [])

/-- The name its Tag is compared by afterwards. -/
def MasterTagBatchChange.newKey (item : MasterTagBatchChange) : Id × Text :=
  (item.libraryId, item.names.2)

/-- The Tag gets another display name. -/
def MasterTagBatchChange.Changes (item : MasterTagBatchChange) : Prop :=
  item.names.1 ≠ item.expectedName

instance (item : MasterTagBatchChange) : Decidable item.Changes := by
  unfold MasterTagBatchChange.Changes
  infer_instance

omit [Platform] in
/-- The Tag of an entry has the expected name. -/
def MasterTagBatchChange.Agrees (s : Store) (item : MasterTagBatchChange) : Prop :=
  s.tagName? item.key = some item.expectedName

/-- An entry of a rename, on its own. -/
structure MasterTagBatchChange.Renames (s : Store) (item : MasterTagBatchChange) : Prop where
  agrees : item.Agrees s
  named : item.newNames.isSome
  free : ∀ owner ∈ s.tagOwner? item.newKey, owner = item.tagId

/-- The plan after a rename. -/
def TagPlan.add (plan : TagPlan) (item : MasterTagBatchChange) : TagPlan :=
  { replacements := if item.Changes then (item.key, item.names) :: plan.replacements
      else plan.replacements
    replacementKeys := item.newKey :: plan.replacementKeys }

theorem MasterTagBatchChange.newNames_eq_some {item : MasterTagBatchChange} {names : Text × Text} :
    item.newNames = some names ↔
      ∃ name, item.newName = some name ∧ normalizeTagName name = .ok names := by
  rw [newNames, Option.bind_eq_some_iff]
  refine exists_congr fun name => and_congr_right fun _ => ?_
  cases normalizeTagName name with
  | ok names' => exact ⟨fun h => congrArg Except.ok (Option.some.inj h), fun h => congrArg _ (Except.ok.inj h)⟩
  | error e => exact ⟨fun h => (nomatch h), fun h => (nomatch h)⟩

theorem planChange_rename_ok {s : Store} {plan plan' : TagPlan} {item : MasterTagBatchChange} :
    planChange .rename s plan item = .ok plan' ↔
      item.Renames s ∧ item.newKey ∉ plan.replacementKeys ∧ plan' = plan.add item := by
  simp only [planChange, planRename, Fallible.bind_ok, Fallible.check_ok, Fallible.get_ok,
    Fallible.pure_ok, Fallible.mapError_ok, exists_and_left, exists_const]
  constructor
  · rintro ⟨previous, hprevious, rfl, name, hname, names, hnames, hnew, hfree, rfl⟩
    have hsome : item.newNames = some names :=
      MasterTagBatchChange.newNames_eq_some.mpr ⟨name, hname, hnames⟩
    have heq : item.names = names := by rw [MasterTagBatchChange.names, hsome]; rfl
    have hkey : item.newKey = (item.libraryId, names.2) := by rw [MasterTagBatchChange.newKey, heq]
    refine ⟨⟨hprevious, by rw [hsome]; rfl, by rwa [hkey]⟩, by rwa [hkey], ?_⟩
    rw [TagPlan.add, hkey]
    simp only [MasterTagBatchChange.Changes, heq]
  · rintro ⟨⟨hagrees, hnamed, hfree⟩, hnew, rfl⟩
    obtain ⟨names, hsome⟩ := Option.isSome_iff_exists.mp hnamed
    obtain ⟨name, hname, hnames⟩ := MasterTagBatchChange.newNames_eq_some.mp hsome
    have heq : item.names = names := by rw [MasterTagBatchChange.names, hsome]; rfl
    have hkey : item.newKey = (item.libraryId, names.2) := by rw [MasterTagBatchChange.newKey, heq]
    rw [hkey] at hfree hnew
    refine ⟨_, hagrees, rfl, name, hname, names, hnames, hnew, hfree, ?_⟩
    rw [TagPlan.add, hkey]
    simp only [MasterTagBatchChange.Changes, heq]

/-- **The checks of a rename**: every entry stands on its own, and the new keys are distinct. -/
theorem foldlM_planChange_rename {s : Store} {items : List MasterTagBatchChange}
    {plan plan' : TagPlan} :
    items.foldlM (planChange .rename s) plan = .ok plan' ↔
      (∀ item ∈ items, item.Renames s) ∧ (∀ item ∈ items, item.newKey ∉ plan.replacementKeys) ∧
        (items.map (·.newKey)).Nodup ∧ plan' = items.foldl TagPlan.add plan := by
  induction items generalizing plan with
  | nil =>
    rw [List.foldlM_nil, Fallible.pure_ok]
    constructor
    · rintro rfl
      exact ⟨fun _ h => (nomatch h), fun _ h => (nomatch h), List.nodup_nil, rfl⟩
    · rintro ⟨-, -, -, rfl⟩
      rfl
  | cons item items ih =>
    rw [List.foldlM_cons, Fallible.bind_ok]
    simp only [planChange_rename_ok, List.forall_mem_cons, List.map_cons, List.nodup_cons]
    constructor
    · rintro ⟨_, ⟨hitem, hnew, rfl⟩, hrest⟩
      obtain ⟨hitems, hnews, hdistinct, rfl⟩ := ih.mp hrest
      refine ⟨⟨hitem, hitems⟩, ⟨hnew, fun i hi hmem => ?_⟩, ⟨fun hmem => ?_, hdistinct⟩, rfl⟩
      · exact hnews i hi (List.mem_cons_of_mem _ hmem)
      · obtain ⟨i, hi, hkey⟩ := List.mem_map.mp hmem
        exact hnews i hi (List.mem_cons.mpr (.inl hkey))
    · rintro ⟨⟨hitem, hitems⟩, ⟨hnew, hnews⟩, ⟨hother, hdistinct⟩, rfl⟩
      refine ⟨_, ⟨hitem, hnew, rfl⟩, ih.mpr ⟨hitems, fun i hi hmem => ?_, hdistinct, rfl⟩⟩
      rcases List.mem_cons.mp hmem with hkey | hmem
      · exact hother (List.mem_map.mpr ⟨i, hi, hkey⟩)
      · exact hnews i hi hmem

theorem foldlM_planChange_delete {s : Store} {items : List MasterTagBatchChange}
    {plan plan' : TagPlan} :
    items.foldlM (planChange .delete s) plan = .ok plan' ↔
      (∀ item ∈ items, item.Agrees s) ∧ plan' = plan := by
  induction items generalizing plan with
  | nil =>
    rw [List.foldlM_nil, Fallible.pure_ok]
    constructor
    · rintro rfl
      exact ⟨fun _ h => (nomatch h), rfl⟩
    · rintro ⟨-, rfl⟩
      rfl
  | cons item items ih =>
    rw [List.foldlM_cons, Fallible.bind_ok]
    simp only [planChange, Fallible.bind_ok, Fallible.check_ok, Fallible.get_ok, Fallible.pure_ok,
      exists_and_left, exists_const, List.forall_mem_cons]
    constructor
    · rintro ⟨_, ⟨previous, hprevious, rfl, rfl⟩, hrest⟩
      obtain ⟨hitems, rfl⟩ := ih.mp hrest
      exact ⟨⟨hprevious, hitems⟩, rfl⟩
    · rintro ⟨⟨hitem, hitems⟩, rfl⟩
      exact ⟨_, ⟨_, hitem, rfl, rfl⟩, ih.mpr ⟨hitems, rfl⟩⟩

/-- A Tag that is not listed gets no names. -/
theorem lookup_foldl_add_of_not_mem {items : List MasterTagBatchChange} {plan : TagPlan}
    {key : Id × Id} (hkey : ∀ item ∈ items, item.key ≠ key) :
    (items.foldl TagPlan.add plan).replacements.lookup key = plan.replacements.lookup key := by
  induction items generalizing plan with
  | nil => rfl
  | cons item items ih =>
    obtain ⟨hitem, hitems⟩ := List.forall_mem_cons.mp hkey
    rw [List.foldl_cons, ih hitems, TagPlan.add]
    dsimp only
    split
    · rw [List.lookup_cons, beq_eq_false_iff_ne.mpr hitem.symm]
    · rfl

/-- **What the plan says about a listed Tag.** -/
theorem lookup_foldl_add {items : List MasterTagBatchChange} {plan : TagPlan}
    (hkeys : (items.map (·.key)).Nodup) {item : MasterTagBatchChange} (hitem : item ∈ items)
    (hplan : plan.replacements.lookup item.key = none) :
    (items.foldl TagPlan.add plan).replacements.lookup item.key =
      if item.Changes then some item.names else none := by
  induction items generalizing plan with
  | nil => exact absurd hitem List.not_mem_nil
  | cons first items ih =>
    obtain ⟨hfirst, hkeys⟩ := List.nodup_cons.mp hkeys
    rw [List.foldl_cons]
    rcases List.mem_cons.mp hitem with rfl | hitem
    · rw [lookup_foldl_add_of_not_mem fun i hi hkey => hfirst (List.mem_map.mpr ⟨i, hi, hkey⟩),
        TagPlan.add]
      dsimp only
      split
      · rw [List.lookup_cons, beq_self_eq_true]
      · exact hplan
    · refine ih hkeys hitem ?_
      have hne : item.key ≠ first.key := fun hkey =>
        hfirst (List.mem_map.mpr ⟨item, hitem, hkey⟩)
      rw [TagPlan.add]
      dsimp only
      split
      · rw [List.lookup_cons, beq_eq_false_iff_ne.mpr hne]
        exact hplan
      · exact hplan

/-! ### What a batch writes -/

/-- The edit of an entry, if it changes its Tag. -/
def MasterTagBatchChange.edit (operation : TagOperation) (item : MasterTagBatchChange) :
    Option TagEdit :=
  match operation with
  | .rename => if item.Changes then some (.rename item.key item.names.1 item.names.2) else none
  | .delete => some (.delete item.key)

omit [Platform] in
/-- The audit events of changed Tags, with one identifier after the other. -/
def tagEvents (operation : TagOperation) (session : MasterAdminSession) (now : ℤ)
    (eventId : ℕ → Id) : ℕ → List (Id × Id) → List MasterAuditEvent
  | _, [] => []
  | start, key :: keys =>
    ⟨eventId start, session.identityId, session.sessionGeneration, session.auditFingerprint,
      operation.action, "tag", tagTarget key, now⟩ ::
        tagEvents operation session now eventId (start + 1) keys

/-- Some identifiers in a row are distinct and not taken. -/
structure FreshIds (eventId : ℕ → Id) (start count : ℕ) (taken : List Id) : Prop where
  new : ∀ i, start ≤ i → i < start + count → eventId i ∉ taken
  distinct : ∀ i j, start ≤ i → i < j → j < start + count → eventId i ≠ eventId j

omit [Platform] in
theorem FreshIds.succ {eventId : ℕ → Id} {start count : ℕ} {taken : List Id} :
    FreshIds eventId start (count + 1) taken ↔
      eventId start ∉ taken ∧ FreshIds eventId (start + 1) count (taken ++ [eventId start]) := by
  constructor
  · rintro ⟨hnew, hdistinct⟩
    refine ⟨hnew start le_rfl (by omega), fun i hi hlast hmem => ?_,
      fun i j hi hij hj => hdistinct i j (by omega) hij (by omega)⟩
    rcases List.mem_append.mp hmem with hmem | hmem
    · exact hnew i (by omega) (by omega) hmem
    · exact hdistinct start i le_rfl (by omega) (by omega) (List.mem_singleton.mp hmem).symm
  · rintro ⟨hstart, hnew, hdistinct⟩
    refine ⟨fun i hi hlast hmem => ?_, fun i j hi hij hj heq => ?_⟩
    · rcases Nat.eq_or_lt_of_le hi with rfl | hi
      · exact hstart hmem
      · exact hnew i hi (by omega) (List.mem_append_left _ hmem)
    · rcases Nat.eq_or_lt_of_le hi with rfl | hi
      · refine hnew j hij (by omega) (List.mem_append_right _ ?_)
        exact List.mem_singleton.mpr heq.symm
      · exact hdistinct i j hi hij (by omega) heq

/-- The connection after edits and their events. -/
def Connection.batched (c : Connection) (edits : List TagEdit) (events : List MasterAuditEvent) :
    Connection :=
  ⟨{ c.store with
      tags := TagEdit.applyAll edits c.store.tags
      audit := { c.store.audit with
        masterAuditEvents := c.store.audit.masterAuditEvents ++ events } },
    c.dirtied ++ TagEdit.allMarks edits c.store.tags⟩

/-- The identifiers of the events so far. -/
def Store.masterEventIds (s : Store) : List Id := s.audit.masterAuditEvents.map (·.id)

omit [Platform] in
theorem Connection.batched_nil (c : Connection) : c.batched [] [] = c := by
  rw [batched, TagEdit.allMarks, List.append_nil, List.append_nil]
  rfl

omit [Platform] in
theorem Connection.batched_cons (c : Connection) (edit : TagEdit) (edits : List TagEdit)
    (event : MasterAuditEvent) (events : List MasterAuditEvent) :
    (c.batched [edit] [event]).batched edits events = c.batched (edit :: edits) (event :: events) := by
  simp only [batched, TagEdit.applyAll, TagEdit.allMarks, List.foldl_cons, List.foldl_nil,
    List.append_assoc, List.append_nil, List.singleton_append]

omit [Platform] in
theorem Connection.masterEventIds_batched (c : Connection) (edits : List TagEdit)
    (events : List MasterAuditEvent) :
    (c.batched edits events).store.masterEventIds = c.store.masterEventIds ++ events.map (·.id) :=
  List.map_append

section Loop

variable {operation : TagOperation} {replacements : List ((Id × Id) × (Text × Text))}
  {session : MasterAdminSession} {now : ℤ} {eventId : ℕ → Id}

/-- The plan has the names of the entry. -/
def Planned (operation : TagOperation) (replacements : List ((Id × Id) × (Text × Text)))
    (item : MasterTagBatchChange) : Prop :=
  operation = .rename →
    replacements.lookup item.key = if item.Changes then some item.names else none

/-- The changes of an entry that changes nothing. -/
theorem applyChange_of_none {item : MasterTagBatchChange} (hplan : Planned operation replacements item)
    (hedit : item.edit operation = none) (changed : ℕ) :
    applyChange operation replacements session now eventId changed item = pure changed := by
  cases operation with
  | delete => cases hedit
  | rename =>
    have hnot : ¬item.Changes := fun h => by
      rw [MasterTagBatchChange.edit, if_pos h] at hedit
      cases hedit
    have hlookup := hplan rfl
    rw [if_neg hnot] at hlookup
    simp only [applyChange, hlookup]

/-- **The changes of an entry that changes its Tag.** -/
theorem applyChange_of_some {item : MasterTagBatchChange} {edit : TagEdit}
    (hplan : Planned operation replacements item) (hedit : item.edit operation = some edit)
    {changed n : ℕ} {c c' : Connection} :
    applyChange operation replacements session now eventId changed item c = .ok (n, c') ↔
      edit.Allowed c.store.tags ∧ eventId changed ∉ c.store.masterEventIds ∧ n = changed + 1 ∧
        c' = c.batched [edit] (tagEvents operation session now eventId changed [edit.key]) := by
  have hids : (∀ a ∈ c.store.audit.masterAuditEvents, a.id ≠ eventId changed) ↔
      eventId changed ∉ c.store.masterEventIds := by
    rw [Store.masterEventIds, List.mem_map]
    exact ⟨fun h ⟨a, ha, heq⟩ => h a ha heq, fun h a ha heq => h ⟨a, ha, heq⟩⟩
  have hbatched : c.batched [edit] (tagEvents operation session now eventId changed [edit.key]) =
      { c.edited edit with store := (c.edited edit).store.modifyAudit fun t =>
          { t with masterAuditEvents := t.masterAuditEvents ++
              tagEvents operation session now eventId changed [edit.key] } } := by
    rw [Connection.batched, TagEdit.allMarks, TagEdit.allMarks, List.append_nil]
    rfl
  rw [hbatched, ← hids]
  cases operation with
  | delete =>
    obtain rfl := Option.some.inj hedit
    simp only [applyChange, bind_ok, addMasterSuccess, pure_ok]
    constructor
    · rintro ⟨_, c₁, hpages, _, c₂, htag, _, c₃, haudit, rfl, rfl⟩
      obtain rfl := deletion_ok.mp (bind_ok.mpr ⟨_, _, hpages, htag⟩)
      obtain ⟨hnew, rfl⟩ := insertMasterAuditEvent_ok.mp haudit
      exact ⟨trivial, hnew, rfl, rfl⟩
    · rintro ⟨-, hnew, rfl, rfl⟩
      obtain ⟨_, c₁, hpages, htag⟩ := bind_ok.mp (deletion_ok.mpr rfl)
      exact ⟨_, c₁, hpages, ⟨⟩, _, htag, ⟨⟩, _, insertMasterAuditEvent_ok.mpr ⟨hnew, rfl⟩, rfl, rfl⟩
  | rename =>
    have hchanges : item.Changes := by
      by_contra hnot
      rw [MasterTagBatchChange.edit, if_neg hnot] at hedit
      cases hedit
    have hlookup := hplan rfl
    rw [if_pos hchanges] at hlookup
    rw [MasterTagBatchChange.edit, if_pos hchanges] at hedit
    obtain rfl := Option.some.inj hedit
    simp only [applyChange, hlookup, bind_ok, addMasterSuccess, pure_ok]
    constructor
    · rintro ⟨_, c₁, hupdate, _, c₂, haudit, rfl, rfl⟩
      obtain ⟨hallowed, rfl⟩ := updateTag_ok.mp hupdate
      obtain ⟨hnew, rfl⟩ := insertMasterAuditEvent_ok.mp haudit
      exact ⟨hallowed, hnew, rfl, rfl⟩
    · rintro ⟨hallowed, hnew, rfl, rfl⟩
      exact ⟨⟨⟩, _, updateTag_ok.mpr ⟨hallowed, rfl⟩, ⟨⟩, _,
        insertMasterAuditEvent_ok.mpr ⟨hnew, rfl⟩, rfl, rfl⟩

/-- **The loop over the entries** makes their edits one after the other. -/
theorem foldlM_applyChange_ok {items : List MasterTagBatchChange}
    (hplan : ∀ item ∈ items, Planned operation replacements item) {changed n : ℕ}
    {c c' : Connection} :
    items.foldlM (applyChange operation replacements session now eventId) changed c = .ok (n, c') ↔
      TagEdit.AllAllowed (items.filterMap (·.edit operation)) c.store.tags ∧
        FreshIds eventId changed (items.filterMap (·.edit operation)).length c.store.masterEventIds ∧
        n = changed + (items.filterMap (·.edit operation)).length ∧
        c' = c.batched (items.filterMap (·.edit operation)) (tagEvents operation session now eventId
          changed ((items.filterMap (·.edit operation)).map (·.key))) := by
  induction items generalizing changed c with
  | nil =>
    rw [List.foldlM_nil, pure_ok]
    constructor
    · rintro ⟨rfl, rfl⟩
      refine ⟨trivial, ⟨fun i hi hlast => ?_, fun i j hi hij hj => ?_⟩, rfl, ?_⟩
      · exact absurd hlast (Nat.not_lt.mpr hi)
      · exact absurd hj (by rw [List.filterMap_nil, List.length_nil]; omega)
      · exact c.batched_nil.symm
    · rintro ⟨-, -, rfl, rfl⟩
      exact ⟨rfl, c.batched_nil.symm⟩
  | cons item items ih =>
    obtain ⟨hitem, hitems⟩ := List.forall_mem_cons.mp hplan
    rw [List.foldlM_cons, bind_ok]
    cases hedit : item.edit operation with
    | none =>
      rw [List.filterMap_cons_none hedit, applyChange_of_none hitem hedit, ← ih hitems]
      simp only [pure_ok]
      constructor
      · rintro ⟨_, _, ⟨rfl, rfl⟩, hrest⟩
        exact hrest
      · intro hrest
        exact ⟨_, _, ⟨rfl, rfl⟩, hrest⟩
    | some edit =>
      rw [List.filterMap_cons_some hedit]
      simp only [applyChange_of_some hitem hedit, List.length_cons, List.map_cons]
      have hids := c.masterEventIds_batched [edit]
        (tagEvents operation session now eventId changed [edit.key])
      constructor
      · rintro ⟨_, _, ⟨hallowed, hnew, rfl, rfl⟩, hrest⟩
        obtain ⟨hall, hfresh, rfl, rfl⟩ := (ih hitems).mp hrest
        rw [hids] at hfresh
        refine ⟨⟨hallowed, hall⟩, FreshIds.succ.mpr ⟨hnew, hfresh⟩, Nat.add_right_comm .., ?_⟩
        exact c.batched_cons ..
      · rintro ⟨⟨hallowed, hall⟩, hfresh, rfl, rfl⟩
        obtain ⟨hnew, hfresh⟩ := FreshIds.succ.mp hfresh
        refine ⟨_, _, ⟨hallowed, hnew, rfl, rfl⟩, (ih hitems).mpr ⟨hall, ?_, (Nat.add_right_comm changed 1 _).symm, ?_⟩⟩
        · rw [hids]
          exact hfresh
        · exact (c.batched_cons ..).symm

end Loop

/-! ### The batch as a whole -/

namespace MasterTagBatchInput

/-- The edits of the entries that change their Tags. -/
def edits (request : MasterTagBatchInput) : List TagEdit :=
  request.changes.filterMap (·.edit request.operation)

/-- The Tags that are changed. -/
def changedTags (request : MasterTagBatchInput) : List (Id × Id) := request.edits.map (·.key)

omit [Platform] in
/-- The Tags that are listed. -/
def keys (request : MasterTagBatchInput) : List (Id × Id) := request.changes.map (·.key)

/-- The row of a Tag after a rename. -/
def renamed (request : MasterTagBatchInput) (t : Tag) : Tag :=
  match request.changes.find? fun item => decide (item.key = t.key) with
  | none => t
  | some item =>
    if item.Changes then { t with displayName := item.names.1, matchKey := item.names.2 } else t

/-- **The tables after a batch**: the listed Tags are renamed, or they are deleted with their
associations. -/
def applied (request : MasterTagBatchInput) (t : TagTables) : TagTables :=
  match request.operation with
  | .rename => { t with tags := t.tags.map request.renamed }
  | .delete =>
    ⟨t.tags.filter (·.key ∉ request.keys), t.pageTags.filter (·.tag ∉ request.keys)⟩

end MasterTagBatchInput

/-- The names of the Tags that change. -/
def renameEntries (items : List MasterTagBatchChange) : List ((Id × Id) × (Text × Text)) :=
  (items.filter fun item => decide item.Changes).map fun item => (item.key, item.names)

theorem filterMap_edit_rename (items : List MasterTagBatchChange) :
    items.filterMap (·.edit .rename) = TagEdit.renames (renameEntries items) := by
  induction items with
  | nil => rfl
  | cons item items ih =>
    by_cases hitem : item.Changes
    · have hedit : item.edit .rename = some (.rename item.key item.names.1 item.names.2) := if_pos hitem
      have hfilter : (item :: items).filter (fun item => decide item.Changes) =
          item :: items.filter fun item => decide item.Changes :=
        List.filter_cons_of_pos (decide_eq_true hitem)
      rw [List.filterMap_cons_some hedit, ih, renameEntries, renameEntries, hfilter]
      rfl
    · have hedit : item.edit .rename = none := if_neg hitem
      have hfilter : (item :: items).filter (fun item => decide item.Changes) =
          items.filter fun item => decide item.Changes :=
        List.filter_cons_of_neg (by rwa [decide_eq_true_iff])
      rw [List.filterMap_cons_none hedit, ih, renameEntries, renameEntries, hfilter]

theorem filterMap_edit_delete (items : List MasterTagBatchChange) :
    items.filterMap (·.edit .delete) = TagEdit.deletes (items.map (·.key)) := by
  rw [TagEdit.deletes, List.map_map, ← List.filterMap_eq_map]
  rfl

theorem MasterTagBatchInput.edits_rename {request : MasterTagBatchInput}
    (h : request.operation = .rename) :
    request.edits = TagEdit.renames (renameEntries request.changes) := by
  rw [edits, h, filterMap_edit_rename]

theorem MasterTagBatchInput.edits_delete {request : MasterTagBatchInput}
    (h : request.operation = .delete) : request.edits = TagEdit.deletes request.keys := by
  rw [edits, h, filterMap_edit_delete, keys]

/-- What a batch demands of the tables. -/
def BatchAdmissible (request : MasterTagBatchInput) (s : Store) : Prop :=
  match request.operation with
  | .rename => (∀ item ∈ request.changes, item.Renames s) ∧
      (request.changes.map (·.newKey)).Nodup ∧
        ∀ item ∈ request.changes, item.Changes → IsTagText item.names.1 ∧ IsTagText item.names.2
  | .delete => ∀ item ∈ request.changes, item.Agrees s

omit [Platform] in
/-- A Tag with a name a row has is that row. -/
theorem TagLaw.tagOwner?_eq {s : Store} (h : TagLaw s.tags) {row : Tag} (hrow : row ∈ s.tags.tags) :
    s.tagOwner? row.name = some row.id := by
  rw [Store.tagOwner?, h.named.find?_eq.mpr ⟨hrow, rfl⟩]
  rfl

omit [Platform] in
/-- The row of an entry that agrees with the table. -/
theorem MasterTagBatchChange.Agrees.exists_row {s : Store} {item : MasterTagBatchChange}
    (h : item.Agrees s) :
    ∃ row ∈ s.tags.tags, row.key = item.key ∧ row.displayName = item.expectedName := by
  obtain ⟨row, hfind, hname⟩ := Option.map_eq_some_iff.mp h
  have hkey : row.key = item.key := by simpa using List.find?_some hfind
  exact ⟨row, List.mem_of_find?_eq_some hfind, hkey, hname⟩

theorem mem_renameEntries {items : List MasterTagBatchChange} {entry : (Id × Id) × (Text × Text)} :
    entry ∈ renameEntries items ↔
      ∃ item ∈ items, item.Changes ∧ (item.key, item.names) = entry := by
  simp only [renameEntries, List.mem_map, List.mem_filter, decide_eq_true_iff, and_assoc]

theorem nodup_keys_renameEntries {items : List MasterTagBatchChange}
    (h : (items.map (·.key)).Nodup) : ((renameEntries items).map Prod.fst).Nodup := by
  rw [renameEntries, List.map_map]
  exact h.sublist (List.filter_sublist.map _)

theorem nodup_names_renameEntries {items : List MasterTagBatchChange}
    (h : (items.map (·.newKey)).Nodup) : ((renameEntries items).map TagEdit.newName).Nodup := by
  rw [renameEntries, List.map_map]
  exact h.sublist (List.filter_sublist.map _)

/-- The statements of a rename pass their constraints. -/
theorem allAllowed_edits_rename {s : Store} (hlaw : TagLaw s.tags) {items : List MasterTagBatchChange}
    (hkeys : (items.map (·.key)).Nodup) (hitems : ∀ item ∈ items, item.Renames s)
    (hnames : (items.map (·.newKey)).Nodup) :
    TagEdit.AllAllowed (TagEdit.renames (renameEntries items)) s.tags ↔
      ∀ item ∈ items, item.Changes → IsTagText item.names.1 ∧ IsTagText item.names.2 := by
  have hfree : ∀ entry ∈ renameEntries items, ∀ row ∈ s.tags.tags, row.key ≠ entry.1 →
      row.name ≠ TagEdit.newName entry := by
    intro entry hentry row hrow hne heq
    obtain ⟨item, hitem, -, rfl⟩ := mem_renameEntries.mp hentry
    have howner := hlaw.tagOwner?_eq hrow
    rw [heq] at howner
    have hid : row.id = item.tagId := (hitems item hitem).free row.id howner
    have hlibrary : row.libraryId = item.libraryId := congrArg Prod.fst heq
    exact hne (Prod.ext hlibrary hid)
  rw [TagEdit.allAllowed_renames (nodup_keys_renameEntries hkeys)
    (nodup_names_renameEntries hnames) hfree]
  constructor
  · intro h item hitem hchanges
    obtain ⟨row, hrow, hkey, -⟩ := (hitems item hitem).agrees.exists_row
    exact h _ (mem_renameEntries.mpr ⟨item, hitem, hchanges, rfl⟩) row hrow hkey
  · intro h entry hentry row _ _
    obtain ⟨item, hitem, hchanges, rfl⟩ := mem_renameEntries.mp hentry
    exact h item hitem hchanges

section Batch

variable {request request' : MasterTagBatchInput} {session : MasterAdminSession} {now : ℤ}
  {eventId : ℕ → Id}

/-- The statements of an admissible batch pass their constraints. -/
theorem BatchAdmissible.allAllowed {s : Store} (hlaw : TagLaw s.tags) (h : BatchAdmissible request s) :
    TagEdit.AllAllowed request.edits s.tags := by
  rw [BatchAdmissible] at h
  cases hoperation : request.operation with
  | delete =>
    rw [MasterTagBatchInput.edits_delete hoperation]
    exact TagEdit.allAllowed_deletes _ _
  | rename =>
    rw [hoperation] at h
    obtain ⟨hitems, hnames, htexts⟩ := h
    rw [MasterTagBatchInput.edits_rename hoperation]
    exact (allAllowed_edits_rename hlaw request.distinct hitems hnames).mpr htexts

/-- **When a batch is accepted, and what it writes.** -/
theorem applyMasterTagBatch_ok {n : ℕ} {c c' : Connection} (hlaw : TagLaw c.store.tags) :
    applyMasterTagBatch request session now eventId c = .ok (n, c') ↔
      BatchAdmissible request c.store ∧
        FreshIds eventId 0 request.edits.length c.store.masterEventIds ∧
        n = request.edits.length ∧
        c' = c.batched request.edits
          (tagEvents request.operation session now eventId 0 request.changedTags) := by
  have hloop (plan : TagPlan) (hplan : ∀ item ∈ request.changes,
      Planned request.operation plan.replacements item) :
      request.changes.foldlM (applyChange request.operation plan.replacements session now eventId) 0
          c = .ok (n, c') ↔
        TagEdit.AllAllowed request.edits c.store.tags ∧
          FreshIds eventId 0 request.edits.length c.store.masterEventIds ∧
          n = request.edits.length ∧
          c' = c.batched request.edits
            (tagEvents request.operation session now eventId 0 request.changedTags) := by
    rw [foldlM_applyChange_ok hplan, Nat.zero_add]
    rfl
  have hallowed (h : BatchAdmissible request c.store) := h.allAllowed hlaw
  rw [BatchAdmissible] at hallowed ⊢
  simp only [applyMasterTagBatch, bind_ok, query_ok, and_assoc]
  cases hoperation : request.operation with
  | delete =>
    have hplanned (plan : TagPlan) (item : MasterTagBatchChange) :
        Planned .delete plan.replacements item := by
      intro h
      cases h
    rw [hoperation] at hloop hallowed
    constructor
    · rintro ⟨plan, _, hchecks, rfl, hrest⟩
      obtain ⟨hitems, -⟩ := foldlM_planChange_delete.mp hchecks
      exact ⟨hitems, ((hloop plan fun item _ => hplanned plan item).mp hrest).2⟩
    · rintro ⟨hitems, hrest⟩
      refine ⟨{}, c, foldlM_planChange_delete.mpr ⟨hitems, rfl⟩, rfl, ?_⟩
      exact (hloop {} fun item _ => hplanned {} item).mpr ⟨hallowed hitems, hrest⟩
  | rename =>
    have hplanned (item : MasterTagBatchChange) (hitem : item ∈ request.changes) :
        Planned .rename (request.changes.foldl TagPlan.add {}).replacements item :=
      fun _ => lookup_foldl_add request.distinct hitem rfl
    rw [hoperation] at hloop hallowed
    constructor
    · rintro ⟨plan, _, hchecks, rfl, hrest⟩
      obtain ⟨hitems, -, hnames, rfl⟩ := foldlM_planChange_rename.mp hchecks
      obtain ⟨hallowed, hwritten⟩ := (hloop _ hplanned).mp hrest
      rw [MasterTagBatchInput.edits_rename hoperation] at hallowed
      have htexts := (allAllowed_edits_rename hlaw request.distinct hitems hnames).mp hallowed
      exact ⟨⟨hitems, hnames, htexts⟩, hwritten⟩
    · rintro ⟨⟨hitems, hnames, htexts⟩, hwritten⟩
      refine ⟨_, c, foldlM_planChange_rename.mpr ⟨hitems, fun _ _ => List.not_mem_nil, hnames, rfl⟩,
        rfl, ?_⟩
      exact (hloop _ hplanned).mpr ⟨hallowed ⟨hitems, hnames, htexts⟩, hwritten⟩

/-- Two batches with the same entries. -/
structure SameEntries (request request' : MasterTagBatchInput) : Prop where
  operation : request'.operation = request.operation
  changes : request.changes.Perm request'.changes

omit [Platform] in
theorem SameEntries.symm (h : SameEntries request request') : SameEntries request' request :=
  ⟨h.operation.symm, h.changes.symm⟩

theorem BatchAdmissible.perm (h : SameEntries request request') {s : Store}
    (hadmissible : BatchAdmissible request s) : BatchAdmissible request' s := by
  rw [BatchAdmissible] at hadmissible ⊢
  rw [h.operation]
  cases hoperation : request.operation with
  | delete =>
    rw [hoperation] at hadmissible
    exact fun item hitem => hadmissible item (h.changes.mem_iff.mpr hitem)
  | rename =>
    rw [hoperation] at hadmissible
    obtain ⟨hitems, hnames, htexts⟩ := hadmissible
    exact ⟨fun item hitem => hitems item (h.changes.mem_iff.mpr hitem),
      (h.changes.map _).nodup_iff.mp hnames,
      fun item hitem => htexts item (h.changes.mem_iff.mpr hitem)⟩

theorem SameEntries.edits (h : SameEntries request request') :
    request.edits.Perm request'.edits := by
  rw [MasterTagBatchInput.edits, MasterTagBatchInput.edits, h.operation]
  exact h.changes.filterMap _

/-- The same Pages are touched. -/
theorem SameEntries.mem_allMarks (h : SameEntries request request') {t : TagTables} {page : PageKey} :
    page ∈ TagEdit.allMarks request.edits t ↔ page ∈ TagEdit.allMarks request'.edits t := by
  cases hoperation : request.operation with
  | delete =>
    rw [MasterTagBatchInput.edits_delete hoperation,
      MasterTagBatchInput.edits_delete (h.operation.trans hoperation), TagEdit.mem_allMarks_deletes,
      TagEdit.mem_allMarks_deletes]
    have hkeys {key : Id × Id} : key ∈ request.keys ↔ key ∈ request'.keys :=
      (h.changes.map MasterTagBatchChange.key).mem_iff
    simp only [hkeys]
  | rename =>
    rw [MasterTagBatchInput.edits_rename hoperation,
      MasterTagBatchInput.edits_rename (h.operation.trans hoperation), TagEdit.allMarks_renames,
      TagEdit.allMarks_renames]

/-- **The edits of a batch are one pass over the tables.** -/
theorem applyAll_edits (t : TagTables) : TagEdit.applyAll request.edits t = request.applied t := by
  rw [MasterTagBatchInput.applied]
  cases hoperation : request.operation with
  | delete =>
    rw [MasterTagBatchInput.edits_delete hoperation, TagEdit.applyAll_deletes]
  | rename =>
    rw [MasterTagBatchInput.edits_rename hoperation,
      TagEdit.applyAll_renames (nodup_keys_renameEntries request.distinct)]
    dsimp only
    congr 1
    refine List.map_congr_left fun row _ => ?_
    have hentries := nodup_keys_renameEntries request.distinct
    rw [TagEdit.renamed, MasterTagBatchInput.renamed]
    cases hfind : request.changes.find? fun item => decide (item.key = row.key) with
    | none =>
      have hnone : ((renameEntries request.changes).find? fun entry => decide (entry.1 = row.key)) =
          none := by
        refine List.find?_eq_none.mpr fun entry hentry => ?_
        obtain ⟨item, hitem, -, rfl⟩ := mem_renameEntries.mp hentry
        exact List.find?_eq_none.mp hfind item hitem
      rw [hnone]
    | some item =>
      obtain ⟨hitem, hkey⟩ := (Keyed.find?_eq request.distinct).mp hfind
      dsimp only
      by_cases hchanges : item.Changes
      · have hsome : ((renameEntries request.changes).find? fun entry => decide (entry.1 = row.key)) =
            some (item.key, item.names) :=
          (Keyed.find?_eq hentries).mpr ⟨mem_renameEntries.mpr ⟨item, hitem, hchanges, rfl⟩, hkey⟩
        rw [hsome, if_pos hchanges]
      · have hnone : ((renameEntries request.changes).find? fun entry => decide (entry.1 = row.key)) =
            none := by
          refine List.find?_eq_none.mpr fun entry hentry => ?_
          obtain ⟨item', hitem', hchanges', rfl⟩ := mem_renameEntries.mp hentry
          rw [decide_eq_true_iff]
          intro hkey'
          obtain rfl : item' = item :=
            Keyed.eq_of_key request.distinct hitem' hitem (hkey'.trans hkey.symm)
          exact hchanges hchanges'
        rw [hnone, if_neg hchanges]

/-- The tables after a batch do not depend on the order of its entries. -/
theorem SameEntries.applied (h : SameEntries request request') (t : TagTables) :
    request.applied t = request'.applied t := by
  have hkeys {key : Id × Id} : key ∈ request.keys ↔ key ∈ request'.keys :=
    (h.changes.map MasterTagBatchChange.key).mem_iff
  have hfind (key : Id × Id) : (request.changes.find? fun item => decide (item.key = key)) =
      request'.changes.find? fun item => decide (item.key = key) := by
    refine Option.ext fun item => ?_
    rw [Keyed.find?_eq request.distinct, Keyed.find?_eq request'.distinct, h.changes.mem_iff]
  have hrenamed : request.renamed = request'.renamed := by
    funext row
    rw [MasterTagBatchInput.renamed, MasterTagBatchInput.renamed, hfind]
  rw [MasterTagBatchInput.applied, MasterTagBatchInput.applied, h.operation, hrenamed]
  simp only [hkeys]

/-! ### The transaction -/

/-- The body of the transaction of a batch. -/
theorem manageTagsAsMaster_ok {time : ℤ} {n : ℕ} {c c' : Connection} (hlaw : TagLaw c.store.tags) :
    manageTagsAsMaster request session time now eventId c = .ok (n, c') ↔
      (time < session.expiresAt ∧ isSessionGenerationCurrent session c.store = true) ∧
        BatchAdmissible request c.store ∧
        FreshIds eventId 0 request.edits.length c.store.masterEventIds ∧
        n = request.edits.length ∧
        c' = c.batched request.edits
          (tagEvents request.operation session now eventId 0 request.changedTags) := by
  simp only [manageTagsAsMaster, requireMasterSession, bind_ok, query_ok, Fallible.pure_ok, require_ok]
  constructor
  · rintro ⟨_, _, ⟨current, _, ⟨rfl, rfl⟩, hsession, rfl⟩, hbatch⟩
    exact ⟨hsession, (applyMasterTagBatch_ok hlaw).mp hbatch⟩
  · rintro ⟨hsession, hbatch⟩
    exact ⟨⟨⟩, c, ⟨_, c, ⟨rfl, rfl⟩, hsession, rfl⟩, (applyMasterTagBatch_ok hlaw).mpr hbatch⟩

/-- A batch inside its transaction. -/
def commitTagBatch (request : MasterTagBatchInput) (session : MasterAdminSession) (time now : ℤ)
    (eventId : ℕ → Id) (db : Db) : Except Err ℕ × Db :=
  immediateTransaction (manageTagsAsMaster request session time now eventId) db

/-- **The order of the entries does not matter.** -/
theorem commitTagBatch_perm {time : ℤ} {db : Db} (h : SameEntries request request')
    (hlaw : TagLaw db.store.tags) {n : ℕ}
    (haccepted : (commitTagBatch request session time now eventId db).1 = .ok n) :
    (commitTagBatch request' session time now eventId db).1 = .ok n := by
  obtain ⟨c, hbody, hfinish⟩ := immediateTransaction_ok.mp haccepted
  obtain ⟨hsession, hadmissible, hfresh, rfl, rfl⟩ := (manageTagsAsMaster_ok hlaw).mp hbody
  have hlength : request.edits.length = request'.edits.length := h.edits.length_eq
  rw [hlength] at hfresh hfinish ⊢
  have hbody' : manageTagsAsMaster request' session time now eventId ⟨db.store, []⟩ = _ :=
    (manageTagsAsMaster_ok hlaw).mpr ⟨hsession, hadmissible.perm h, hfresh, rfl, rfl⟩
  refine immediateTransaction_ok.mpr ⟨_, hbody', (commits_congr ?_ fun key => ?_).mp hfinish⟩
  · rfl
  show key ∈ [] ++ TagEdit.allMarks request.edits db.store.tags ↔
    key ∈ [] ++ TagEdit.allMarks request'.edits db.store.tags
  rw [List.nil_append, List.nil_append]
  exact h.mem_allMarks

/-- The row of a Tag. -/
def TagTables.row? (t : TagTables) (key : Id × Id) : Option Tag :=
  t.tags.find? fun row => decide (row.key = key)

omit [Platform] in
theorem tagName?_eq {s : Store} {key : Id × Id} {name : Text} :
    s.tagName? key = some name ↔ ∃ row, s.tags.row? key = some row ∧ row.displayName = name :=
  Option.map_eq_some_iff

theorem key_renamed (request : MasterTagBatchInput) (t : Tag) : (request.renamed t).key = t.key := by
  rw [MasterTagBatchInput.renamed]
  split
  · rfl
  · split <;> rfl

/-- The row of a Tag after a rename. -/
theorem row?_applied_rename (hoperation : request.operation = .rename) (t : TagTables)
    (key : Id × Id) : (request.applied t).row? key = (t.row? key).map request.renamed := by
  rw [MasterTagBatchInput.applied, hoperation, TagTables.row?, TagTables.row?, List.find?_map]
  simp only [Function.comp_def, key_renamed]

/-- The row of a Tag after a deletion. -/
theorem row?_applied_delete (hoperation : request.operation = .delete) (t : TagTables)
    (key : Id × Id) :
    (request.applied t).row? key = if key ∈ request.keys then none else t.row? key := by
  rw [MasterTagBatchInput.applied, hoperation, TagTables.row?, TagTables.row?, List.find?_filter]
  by_cases hkey : key ∈ request.keys
  · rw [if_pos hkey]
    refine List.find?_eq_none.mpr fun row _ => ?_
    simp only [decide_eq_true_iff, not_and]
    rintro hother rfl
    exact hother hkey
  · rw [if_neg hkey]
    refine congrArg (t.tags.find? ·) (funext fun row => decide_eq_decide.mpr ?_)
    simp only [decide_eq_true_iff]
    refine and_iff_right_of_imp ?_
    rintro rfl
    exact hkey

/-- **The changed Tags are those whose row is another.** -/
theorem mem_changedTags {s : Store} (hadmissible : BatchAdmissible request s) {key : Id × Id} :
    key ∈ request.changedTags ↔ (request.applied s.tags).row? key ≠ s.tags.row? key := by
  rw [MasterTagBatchInput.changedTags]
  rw [BatchAdmissible] at hadmissible
  cases hoperation : request.operation with
  | delete =>
    rw [hoperation] at hadmissible
    have hkeys : (TagEdit.deletes request.keys).map (·.key) = request.keys := by
      rw [TagEdit.deletes, List.map_map]
      exact List.map_id _
    rw [MasterTagBatchInput.edits_delete hoperation, row?_applied_delete hoperation, hkeys]
    constructor
    · intro hkey
      obtain ⟨item, hitem, rfl⟩ := List.mem_map.mp hkey
      obtain ⟨row, hrow, -⟩ := tagName?_eq.mp (hadmissible item hitem)
      rw [if_pos hkey, hrow]
      exact (Option.some_ne_none row).symm
    · intro hne
      by_contra hkey
      rw [if_neg hkey] at hne
      exact hne rfl
  | rename =>
    rw [hoperation] at hadmissible
    obtain ⟨hitems, -, -⟩ := hadmissible
    have hkeys : (TagEdit.renames (renameEntries request.changes)).map (·.key) =
        (renameEntries request.changes).map Prod.fst := by
      rw [TagEdit.renames, List.map_map]
      rfl
    rw [MasterTagBatchInput.edits_rename hoperation, row?_applied_rename hoperation, hkeys]
    constructor
    · intro hkey
      obtain ⟨entry, hentry, rfl⟩ := List.mem_map.mp hkey
      obtain ⟨item, hitem, hchanges, rfl⟩ := mem_renameEntries.mp hentry
      obtain ⟨row, hrow, hname⟩ := tagName?_eq.mp (hitems item hitem).agrees
      have hrowKey : row.key = item.key := by simpa using List.find?_some hrow
      have hfind : (request.changes.find? fun i => decide (i.key = row.key)) = some item :=
        (Keyed.find?_eq request.distinct).mpr ⟨hitem, hrowKey.symm⟩
      rw [hrow, Option.map_some, MasterTagBatchInput.renamed, hfind]
      dsimp only
      rw [if_pos hchanges]
      intro heq
      have hdisplay : item.names.1 = row.displayName := congrArg Tag.displayName (Option.some.inj heq)
      exact hchanges (hdisplay.trans hname)
    · intro hne
      cases hrow : s.tags.row? key with
      | none =>
        rw [hrow] at hne
        exact absurd rfl hne
      | some row =>
        have hrowKey : row.key = key := by simpa using List.find?_some hrow
        rw [hrow, Option.map_some, MasterTagBatchInput.renamed] at hne
        cases hfind : request.changes.find? fun i => decide (i.key = row.key) with
        | none =>
          rw [hfind] at hne
          exact absurd rfl hne
        | some item =>
          obtain ⟨hitem, hkey⟩ := (Keyed.find?_eq request.distinct).mp hfind
          by_cases hchanges : item.Changes
          · exact List.mem_map.mpr ⟨_, mem_renameEntries.mpr ⟨item, hitem, hchanges, rfl⟩,
              hkey.trans hrowKey⟩
          · rw [hfind] at hne
            dsimp only at hne
            rw [if_neg hchanges] at hne
            exact absurd rfl hne

theorem nodup_changedTags (request : MasterTagBatchInput) : request.changedTags.Nodup := by
  rw [MasterTagBatchInput.changedTags]
  cases hoperation : request.operation with
  | delete =>
    rw [MasterTagBatchInput.edits_delete hoperation, TagEdit.deletes, List.map_map]
    show (request.keys.map id).Nodup
    rw [List.map_id]
    exact request.distinct
  | rename =>
    rw [MasterTagBatchInput.edits_rename hoperation, TagEdit.renames, List.map_map]
    exact nodup_keys_renameEntries request.distinct

/-- A Tag that is not listed keeps its row. -/
theorem renamed_of_not_listed {row : Tag} (hrow : row.key ∉ request.keys) :
    request.renamed row = row := by
  have hnone : (request.changes.find? fun item => decide (item.key = row.key)) = none := by
    refine List.find?_eq_none.mpr fun item hitem => ?_
    rw [decide_eq_true_iff]
    exact fun hkey => hrow (List.mem_map.mpr ⟨item, hitem, hkey⟩)
  rw [MasterTagBatchInput.renamed, hnone]

theorem mem_tags_applied {t : TagTables} {row : Tag} (hrow : row.key ∉ request.keys) :
    row ∈ (request.applied t).tags ↔ row ∈ t.tags := by
  rw [MasterTagBatchInput.applied]
  cases request.operation with
  | delete =>
    show row ∈ t.tags.filter _ ↔ _
    rw [List.mem_filter, decide_eq_true_iff]
    exact and_iff_left hrow
  | rename =>
    show row ∈ t.tags.map _ ↔ _
    rw [List.mem_map]
    constructor
    · rintro ⟨old, hold, rfl⟩
      rw [key_renamed] at hrow
      rwa [renamed_of_not_listed hrow]
    · intro hmem
      exact ⟨row, hmem, renamed_of_not_listed hrow⟩

theorem mem_pageTags_applied {t : TagTables} {a : PageTag} :
    a ∈ (request.applied t).pageTags ↔
      a ∈ t.pageTags ∧ (request.operation = .delete → a.tag ∉ request.keys) := by
  rw [MasterTagBatchInput.applied]
  cases request.operation with
  | delete =>
    show a ∈ t.pageTags.filter _ ↔ _
    rw [List.mem_filter, decide_eq_true_iff]
    exact and_congr_right fun _ => ⟨fun h _ => h, fun h => h rfl⟩
  | rename => exact ⟨fun h => ⟨h, fun hdelete => (nomatch hdelete)⟩, fun h => h.1⟩

end Batch

/-- The database after an accepted batch. -/
structure BatchApplied (request : MasterTagBatchInput) (session : MasterAdminSession) (now : ℤ)
    (eventId : ℕ → Id) (s s' : Store) (n : ℕ) : Prop where
  listed : ∀ item ∈ request.changes, ∃ row ∈ s.tags.tags,
    row.key = item.key ∧ row.displayName = item.expectedName
  written : s' = { s with
    tags := request.applied s.tags
    audit := { s.audit with
      masterAuditEvents := s.audit.masterAuditEvents ++
        tagEvents request.operation session now eventId 0 request.changedTags } }
  others : ∀ row : Tag, row.key ∉ request.keys → (row ∈ s'.tags.tags ↔ row ∈ s.tags.tags)
  associations : ∀ a, a ∈ s'.tags.pageTags ↔
    a ∈ s.tags.pageTags ∧ (request.operation = .delete → a.tag ∉ request.keys)
  law : TagLaw s'.tags
  changed : ∀ key, key ∈ request.changedTags ↔ s'.tags.row? key ≠ s.tags.row? key
  distinct : request.changedTags.Nodup
  count : n = request.changedTags.length

/-- **An accepted batch changes exactly the listed Tags.** -/
theorem commitTagBatch_applied {request : MasterTagBatchInput} {session : MasterAdminSession}
    {time now : ℤ} {eventId : ℕ → Id} {db : Db} (hlaw : TagLaw db.store.tags) {n : ℕ}
    (h : (commitTagBatch request session time now eventId db).1 = .ok n) :
    BatchApplied request session now eventId db.store
      (commitTagBatch request session time now eventId db).2.store n := by
  rcases immediateTransaction_eq_or (manageTagsAsMaster request session time now eventId) db with
    ⟨e, hcommit⟩ | ⟨a, c, db', hbody, hstore, -, hcommit⟩
  · rw [commitTagBatch, hcommit] at h
    cases h
  rw [commitTagBatch, hcommit] at h ⊢
  obtain rfl := Except.ok.inj h
  obtain ⟨-, hadmissible, -, rfl, rfl⟩ := (manageTagsAsMaster_ok hlaw).mp hbody
  have htags : db'.store.tags = request.applied db.store.tags := by
    rw [hstore]
    exact applyAll_edits db.store.tags
  refine ⟨fun item hitem => ?_, ?_, fun row hrow => ?_, fun a => ?_, ?_, fun key => ?_,
    nodup_changedTags request, ?_⟩
  · have hagrees : item.Agrees db.store := by
      rw [BatchAdmissible] at hadmissible
      split at hadmissible
      · exact (hadmissible.1 item hitem).agrees
      · exact hadmissible item hitem
    exact hagrees.exists_row
  · rw [← applyAll_edits, hstore]
    rfl
  · rw [htags]
    exact mem_tags_applied hrow
  · rw [htags]
    exact mem_pageTags_applied
  · rw [hstore]
    exact hlaw.applyAll (hadmissible.allAllowed hlaw)
  · rw [htags]
    exact mem_changedTags hadmissible
  · rw [MasterTagBatchInput.changedTags, List.length_map]


/-- Two new names collide, or a new name is the name of another Tag: a merge, a swap or a chain. -/
def MasterTagBatchInput.Collides (request : MasterTagBatchInput) (t : TagTables) : Prop :=
  ¬(request.changes.map (·.newKey)).Nodup ∨
    ∃ item ∈ request.changes, ∃ row ∈ t.tags, row.name = item.newKey ∧ row.key ≠ item.key

/-- **A rename that collides is refused.** -/
theorem commitTagBatch_of_collides {request : MasterTagBatchInput} {session : MasterAdminSession}
    {time now : ℤ} {eventId : ℕ → Id} {db : Db} (hlaw : TagLaw db.store.tags)
    (hoperation : request.operation = .rename) (hcollides : request.Collides db.store.tags) (n : ℕ) :
    (commitTagBatch request session time now eventId db).1 ≠ .ok n := by
  intro haccepted
  obtain ⟨c, hbody, -⟩ := immediateTransaction_ok.mp haccepted
  obtain ⟨-, hadmissible, -⟩ := (manageTagsAsMaster_ok hlaw).mp hbody
  rw [BatchAdmissible, hoperation] at hadmissible
  obtain ⟨hitems, hnames, -⟩ := hadmissible
  rcases hcollides with hcollides | ⟨item, hitem, row, hrow, hname, hkey⟩
  · exact hcollides hnames
  · have howner := hlaw.tagOwner?_eq hrow
    rw [hname] at howner
    have hid : row.id = item.tagId := (hitems item hitem).free row.id howner
    have hlibrary : row.libraryId = item.libraryId := congrArg Prod.fst hname
    exact hkey (Prod.ext hlibrary hid)

/-- **A batch of Tag changes.**  The order of its entries does not matter, neither for the answer nor
for the tables; a rename that collides is refused; a refused batch changes nothing, and an accepted
one changes exactly the listed Tags. -/
theorem commitTagBatch_exact (session : MasterAdminSession) (time now : ℤ) (eventId : ℕ → Id) :
    (∀ request request' : MasterTagBatchInput, request'.operation = request.operation →
      request.changes.Perm request'.changes → ∀ db : Db, TagLaw db.store.tags →
        (∀ n, (commitTagBatch request session time now eventId db).1 = .ok n ↔
          (commitTagBatch request' session time now eventId db).1 = .ok n) ∧
        request.applied db.store.tags = request'.applied db.store.tags) ∧
    (∀ (request : MasterTagBatchInput) (db : Db), TagLaw db.store.tags →
      request.operation = .rename → request.Collides db.store.tags →
        ∀ n, (commitTagBatch request session time now eventId db).1 ≠ .ok n) ∧
    (∀ (request : MasterTagBatchInput) (db : Db) (e : Err),
      (commitTagBatch request session time now eventId db).1 = .error e →
        (commitTagBatch request session time now eventId db).2 = db) ∧
    (∀ (request : MasterTagBatchInput) (db : Db), TagLaw db.store.tags →
      ∀ n, (commitTagBatch request session time now eventId db).1 = .ok n →
        BatchApplied request session now eventId db.store
          (commitTagBatch request session time now eventId db).2.store n) := by
  refine ⟨fun request request' hoperation hchanges db hlaw => ?_,
    fun request db hlaw hoperation hcollides => commitTagBatch_of_collides hlaw hoperation hcollides,
    fun request db e h => ?_, fun request db hlaw n => commitTagBatch_applied hlaw⟩
  · have hsame : SameEntries request request' := ⟨hoperation, hchanges⟩
    exact ⟨fun n => ⟨commitTagBatch_perm hsame hlaw, commitTagBatch_perm hsame.symm hlaw⟩,
      hsame.applied db.store.tags⟩
  · rcases immediateTransaction_eq_or (manageTagsAsMaster request session time now eventId) db with
      ⟨e', hcommit⟩ | ⟨n, c, db', -, -, -, hcommit⟩
    · rw [commitTagBatch, hcommit]
    · rw [commitTagBatch, hcommit] at h
      cases h

end

section Sample

attribute [local instance] asciiPlatform

def sampleTagLibrary : Id := List.replicate 32 'a'
def sampleFirstTag : Tag := ⟨sampleTagLibrary, List.replicate 32 '1', "Draft", "draft"⟩
def sampleSecondTag : Tag := ⟨sampleTagLibrary, List.replicate 32 '2', "Note", "note"⟩

def sampleTagSession : MasterAdminSession := ⟨List.replicate 32 '0', 1, 100, []⟩

def sampleTagDb : Db where
  store :=
    { auth := { masterIdentity := some ⟨List.replicate 32 '0', [], 1, 0, 0⟩ }
      tags := ⟨[sampleFirstTag, sampleSecondTag], []⟩ }

/-- The first Tag changes its case, the second gets a new name. -/
def sampleTagRenames : MasterTagBatchInput where
  operation := .rename
  changes :=
    [⟨sampleTagLibrary, List.replicate 32 '1', "Draft", some "DRAFT"⟩,
      ⟨sampleTagLibrary, List.replicate 32 '2', "Note", some "Memo"⟩]
  confirmDelete := false
  count := by decide
  fields := by decide +kernel
  distinct := by decide
  explicit := by
    show ∀ item ∈ _, _
    decide

/-- The Tags swap their names. -/
def sampleTagSwap : MasterTagBatchInput where
  operation := .rename
  changes :=
    [⟨sampleTagLibrary, List.replicate 32 '1', "Draft", some "Note"⟩,
      ⟨sampleTagLibrary, List.replicate 32 '2', "Note", some "Draft"⟩]
  confirmDelete := false
  count := by decide
  fields := by decide +kernel
  distinct := by decide
  explicit := by
    show ∀ item ∈ _, _
    decide

def sampleEventId (i : ℕ) : Id := List.replicate 31 'e' ++ [Nat.digitChar i]

theorem commitTagBatch_exact_sample :
    (commitTagBatch sampleTagRenames sampleTagSession 0 0 sampleEventId sampleTagDb).1 = .ok 2 ∧
      BatchApplied sampleTagRenames sampleTagSession 0 sampleEventId sampleTagDb.store
        (commitTagBatch sampleTagRenames sampleTagSession 0 0 sampleEventId sampleTagDb).2.store 2 ∧
      ∀ n, (commitTagBatch sampleTagSwap sampleTagSession 0 0 sampleEventId sampleTagDb).1 ≠ .ok n := by
  obtain ⟨-, hcollides, -, happlied⟩ := commitTagBatch_exact sampleTagSession 0 0 sampleEventId
  have hkeyed : ([sampleFirstTag, sampleSecondTag].map Tag.key).Nodup := by decide
  have hnamed : ([sampleFirstTag, sampleSecondTag].map Tag.name).Nodup := by decide
  have hlaw : TagLaw sampleTagDb.store.tags := ⟨hkeyed, hnamed⟩
  have haccepted : (commitTagBatch sampleTagRenames sampleTagSession 0 0 sampleEventId
      sampleTagDb).1 = .ok 2 := by decide +kernel
  refine ⟨haccepted, happlied _ _ hlaw _ haccepted, hcollides _ _ hlaw rfl (.inr ?_)⟩
  exact ⟨⟨sampleTagLibrary, List.replicate 32 '1', "Draft", some "Note"⟩, List.mem_cons_self,
    sampleSecondTag, by decide, by decide +kernel, by decide⟩

end Sample

end PatchouliLib
