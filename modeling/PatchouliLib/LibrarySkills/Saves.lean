import PatchouliLib.Admin.Workspace
import PatchouliLib.Auth.Service
import PatchouliLib.Idempotency.Service
import PatchouliLib.LibrarySkills.Versions

/-!
# Saves of skills

Agents save complete packages under an idempotency key, and revise with the tag of the
version they have read.  The browser merges its changes into the current version, whatever
it is, and restores old versions under their tag.  Both keep what they have answered.

## Main definitions

* `saveSkill` — the save of an Agent.
* `saveWorkspaceSkill`, `restoreSkill` — the operations of the browser.
* `SkillEvent`, `SkillRun` — every interleaving of them, and of the rest of the application.

## Main results

* `skillRun_sound` — the law of the tables holds in every reachable state.
* `skillRun_grows` — a run only adds versions, files and kept answers.
-/

namespace PatchouliLib

open Foundation

variable [Platform]

/-! ### Gates -/

/-- What a policy lets an Agent do with skills. -/
def LibraryPolicy.allowsSkills : Option LibraryPolicy → SkillAction → Bool
  | some (.libraryGrants read write), .metadata => read || write
  | some (.libraryGrants read _), .read => read
  | some (.libraryGrants _ write), .write => write
  | _, _ => false

/-- `_authority`: the Agent of a token, whose use is not noted. -/
def skillAuthority (token : Text) (libraryId : Id) (action : SkillAction) (now : ℤ) :
    Write AuthenticatedCaller := do
  let a ← query (verifyToken token now)
  query fun s => Fallible.check (a.caller.kind = .agent ∧ (libraryGrantPolicy a.key s).isSome)
    .authorization
  let policy ← query (resolveLibraryPolicy a.key libraryId now)
  require (LibraryPolicy.allowsSkills policy action = true) .authorization
  pure a

/-- The gate of an Agent. -/
def agentGate (token : Text) (now : ℤ) : SkillAuthorization := fun libraryId action => do
  let _ ← onAuthority (skillAuthority token libraryId action now)
  pure ⟨⟩

omit [Platform] in
/-- The gate of the browser. -/
def browserGate (session : MasterAdminSession) (time : ℤ) : SkillAuthorization := fun _ _ =>
  onAuthority (requireMasterSession session time)

/-! ### Agents -/

def createSkillRoute : Text := "/api/v1/libraries/\x7blibrary_id\x7d/skills"
def reviseSkillRoute : Text := createSkillRoute ++ "/\x7bskill_id\x7d/revisions"

/-- A save of an Agent. -/
structure SkillSave where
  token : Text
  libraryId : Id
  skillId : Option Id
  keyDigest : Bytes
  package : SkillPackage
  ifMatch : Option Text
  now : ℤ
  clock : ℤ
  answeredAt : ℤ
  fresh : SkillFresh
  eventId : Id
  requestId : Text

/-- `null` or a string. -/
def jsonOptional : Option Text → Json
  | none => .null
  | some text => .str text

/-- The digest of what is asked for. -/
def SkillSave.fingerprint (save : SkillSave) (snapshot : SkillSnapshot) : Bytes :=
  digestRequestFingerprint [utf8Encode "library-skill-save-v1", utf8Encode (Json.dumps false (.arr
    [.str save.libraryId, jsonOptional save.skillId, .str save.package.name,
      .str save.package.description, jsonOptional save.ifMatch,
      .str (hex snapshot.snapshotSha256)]))]

def SkillSave.request (save : SkillSave) (snapshot : SkillSnapshot) : IdempotencyRequest where
  method := "POST"
  routeTemplate := if save.skillId = none then createSkillRoute else reviseSkillRoute
  keyDigest := save.keyDigest
  requestFingerprint := save.fingerprint snapshot

omit [Platform] in
/-- The stable identity of an Agent in a Library. -/
def AuthenticatedCaller.validated (a : AuthenticatedCaller) (libraryId : Id) :
    TransactionValidatedCaller :=
  ⟨libraryId, a.caller.libraryId, a.caller.id⟩

omit [Platform] in
/-- The row of this identity. -/
def findSkillRecord (caller : TransactionValidatedCaller) (request : IdempotencyRequest)
    (t : SkillTables) : Option SkillIdempotencyRecord :=
  t.records.find? fun r => r.caller = caller ∧ r.request.method = request.method ∧
    r.request.routeTemplate = request.routeTemplate ∧ r.request.keyDigest = request.keyDigest

omit [Platform] in
/-- The kept response; a different fingerprint is refused. -/
def keptSkillResponse (request : IdempotencyRequest) :
    Option SkillIdempotencyRecord → Except SkillErr (Option SkillResponse)
  | none => .ok none
  | some stored =>
    if stored.request.requestFingerprint = request.requestFingerprint then
      .ok (some stored.response)
    else .error .idempotencyConflict

omit [Platform] in
/-- `INSERT INTO idempotency_records`, whose primary key predates the home Library. -/
def insertSkillRecord (r : SkillIdempotencyRecord) : SkillTx PUnit := do
  demand (fun db => ∀ r' ∈ db.skills.records,
    ¬(r'.caller.libraryId = r.caller.libraryId ∧ r'.caller.callerId = r.caller.callerId ∧
      r'.request.method = r.request.method ∧
      r'.request.routeTemplate = r.request.routeTemplate ∧
      r'.request.keyDigest = r.request.keyDigest)) .integrity
  writes (.modifySkills fun t => { t with records := t.records ++ [r] })

/-- The operation that a save asks for. -/
def SkillSave.operation (save : SkillSave) : SkillTx SkillSaveResult :=
  match save.skillId with
  | none => createSkill (agentGate save.token save.now) save.libraryId save.package save.clock
      save.fresh
  | some skillId => reviseSkill (agentGate save.token save.now) ⟨save.libraryId, skillId⟩
      save.package save.ifMatch save.clock save.fresh.revisionId

omit [Platform] in
/-- The audit event of a save. -/
def SkillSave.audit (save : SkillSave) (a : AuthenticatedCaller) (result : SkillSaveResult) :
    SkillTx PUnit :=
  if result.changed then
    onAuthority (insertAuditEvent
      { id := save.eventId, libraryId := save.libraryId, actorHomeLibraryId := a.caller.libraryId
        actorCallerId := a.caller.id, actorCredentialId := a.credential.id, sectionId := none
        sectionAction := none
        action := if result.created then "library.skill.create" else "library.skill.revise"
        resourceType := "library_skill", resourceId := result.skill.row.key.skillId
        requestId := save.requestId, policyVersionBefore := none, policyVersionAfter := none
        occurredAt := result.skill.row.updatedAt })
  else pure ⟨⟩

omit [Platform] in
/-- The response to a save. -/
def SkillSave.response (save : SkillSave) (result : SkillSaveResult) (timestamp : Text) :
    SkillResponse where
  status := if result.created then 201 else 200
  result := result
  location := "/api/v1/libraries/" ++ save.libraryId ++ "/skills/" ++ result.skill.row.key.skillId ++
    "/revisions/" ++ result.skill.row.currentRevisionId ++ "/manifest"
  originalRequestId := save.requestId
  originalRequestTimestamp := timestamp

/-- The save that no record answers. -/
def saveSkillFresh (save : SkillSave) (a : AuthenticatedCaller) (snapshot : SkillSnapshot) :
    SkillTx SkillResponse := do
  let result ← save.operation
  save.audit a result
  let timestamp ← attempt ((canonicalUtcWire save.answeredAt).mapError .refused)
  insertSkillRecord ⟨a.validated save.libraryId, save.request snapshot,
    save.response result timestamp⟩
  pure (save.response result timestamp)

/-- The answer to a save, and whether it was kept from an earlier one. -/
def answerSkill (save : SkillSave) (a : AuthenticatedCaller) (snapshot : SkillSnapshot) :
    Option SkillResponse → SkillTx (SkillResponse × Bool)
  | some response => pure (response, true)
  | none => do
    let response ← saveSkillFresh save a snapshot
    pure (response, false)

/-- The transaction of `save`. -/
def saveSkill (save : SkillSave) : SkillTx (SkillResponse × Bool) := do
  let snapshot ← attempt (packageSnapshot save.package.files)
  let a ← onAuthority (skillAuthority save.token save.libraryId .write save.now)
  let stored ← reads fun db =>
    findSkillRecord (a.validated save.libraryId) (save.request snapshot) db.skills
  let previous ← attempt (keptSkillResponse (save.request snapshot) stored)
  answerSkill save a snapshot previous

/-! ### The browser -/

/-- `manifest_files`: read the files one by one. -/
def readSkillFiles (authorize : SkillAuthorization) (key : SkillKey) (revisionId : Text) :
    List SkillManifestEntry → SkillTx (List (Text × Bytes))
  | [] => pure []
  | entry :: entries => do
    let content ← readSkillFile authorize key entry.path (some revisionId)
    let rest ← readSkillFiles authorize key revisionId entries
    pure ((entry.path, content) :: rest)

def manifestFiles (authorize : SkillAuthorization) (key : SkillKey) (revisionId : Option Text) :
    SkillTx (LibrarySkillRevision × List (Text × Bytes)) := do
  let manifest ← skillManifest authorize key revisionId
  let files ← readSkillFiles authorize key manifest.1.id manifest.2
  pure (manifest.1, files)

/-- What is kept under the key of a browser operation: a save of a skill, or one of a Page. -/
inductive WorkspaceAnswer where
  | skill (response : SkillWorkspaceResponse)
  | page (response : WorkspaceSaveResponse)

omit [Platform] in
def findSkillReceipt (identityId : Id) (keyDigest : Bytes) (t : SkillTables) :
    Option SkillWorkspaceReceipt :=
  t.receipts.find? fun r => r.identityId = identityId ∧ r.keyDigest = keyDigest

omit [Platform] in
/-- The answer kept under the key, if there is one. -/
def replaySkillSave (session : MasterAdminSession) (keyDigest digest : Bytes) (db : SkillDb) :
    Except SkillErr (Option WorkspaceAnswer) :=
  match findSkillReceipt session.identityId keyDigest db.skills with
  | some row =>
    if row.requestFingerprint = digest then .ok (some (.skill row.response))
    else .error (.apiError 409 "operation_key_conflict")
  | none =>
    ((replayWorkspace session keyDigest digest db.store).map (·.map .page)).mapError .refused

omit [Platform] in
/-- `INSERT INTO workspace_save_receipts`. -/
def rememberSkillSave (r : SkillWorkspaceReceipt) : SkillTx PUnit := do
  demand (fun db => (∀ r' ∈ db.skills.receipts,
      ¬(r'.identityId = r.identityId ∧ r'.keyDigest = r.keyDigest)) ∧
    findWorkspaceReceipt r.identityId r.keyDigest db.store = none) .integrity
  writes (.modifySkills fun t => { t with receipts := t.receipts ++ [r] })

/-- A browser operation on a skill: a save of its files, or a restore of a version. -/
structure SkillBrowserRequest where
  session : MasterAdminSession
  time : ℤ
  keyDigest : Bytes
  libraryId : Id
  metadata : Json
  clock : ℤ
  readings : Readings
  fresh : SkillFresh
  eventId : Id

omit [Platform] in
/-- The audit event of a browser operation. -/
def SkillBrowserRequest.audit (request : SkillBrowserRequest) (action : Text)
    (result : SkillSaveResult) : SkillTx PUnit :=
  if result.changed then
    onAuthority (addMasterSuccess request.session request.eventId action "library_skill"
      (request.libraryId ++ ':' :: result.skill.row.key.skillId ++ ':' ::
        result.skill.row.currentRevisionId)
      (max request.readings.audit result.skill.row.updatedAt))
  else pure ⟨⟩

omit [Platform] in
/-- Audit an operation and keep its answer. -/
def SkillBrowserRequest.finish (request : SkillBrowserRequest) (action : Text) (digest : Bytes)
    (result : SkillSaveResult) (overwritten : Bool) : SkillTx SkillWorkspaceResponse := do
  request.audit action result
  rememberSkillSave ⟨request.session.identityId, request.keyDigest, digest, ⟨result, overwritten⟩,
    max request.readings.receipt result.skill.row.updatedAt⟩
  pure ⟨result, overwritten⟩

/-- The changes of a browser save. -/
structure SkillWorkspaceSave extends SkillBrowserRequest where
  skillId : Option Id
  name : Text
  description : Text
  baseEtag : Option Text
  changes : FileChanges
  uploads : List (Text × Bytes)

def SkillWorkspaceSave.fingerprint (save : SkillWorkspaceSave) : Bytes :=
  workspaceFingerprint ("skill:" ++ save.libraryId ++ ':' :: formatOptional save.skillId)
    save.metadata save.uploads

/-- The files of the current version, and whether the browser has opened an earlier one. -/
def SkillWorkspaceSave.current (save : SkillWorkspaceSave) :
    SkillTx (List (Text × Bytes) × Bool) :=
  match save.skillId with
  | none => pure ([], false)
  | some skillId => do
    browserGate save.session save.time save.libraryId .metadata
    let current ← currentSkill ⟨save.libraryId, skillId⟩
    let summary ← skillSummary current
    let source ← manifestFiles (browserGate save.session save.time) ⟨save.libraryId, skillId⟩
      (some summary.row.currentRevisionId)
    pure (source.2, save.baseEtag.any (· ≠ summary.etag))

/-- The operation that a browser save asks for. -/
def SkillWorkspaceSave.operation (save : SkillWorkspaceSave) (files : List (Text × Bytes)) :
    SkillTx SkillSaveResult :=
  match save.skillId with
  | none => createSkill (browserGate save.session save.time) save.libraryId
      ⟨save.name, save.description, files⟩ save.clock save.fresh
  | some skillId => reviseSkill (browserGate save.session save.time) ⟨save.libraryId, skillId⟩
      ⟨save.name, save.description, files⟩ none save.clock save.fresh.revisionId

/-- The save that no receipt answers. -/
def saveWorkspaceSkillFresh (save : SkillWorkspaceSave) : SkillTx SkillWorkspaceResponse := do
  let current ← save.current
  let files ← attempt ((mergeFiles current.1 save.changes save.uploads true).mapError .refused)
  let result ← save.operation files
  save.finish "library.skill.workspace_save" save.fingerprint result current.2

/-- The answer that is kept, or a fresh one. -/
def answerWorkspace (fresh : SkillTx SkillWorkspaceResponse) :
    Option WorkspaceAnswer → SkillTx (WorkspaceAnswer × Bool)
  | some previous => pure (previous, true)
  | none => do
    let response ← fresh
    pure (.skill response, false)

omit [Platform] in
/-- A browser operation under its key. -/
def SkillBrowserRequest.answer (request : SkillBrowserRequest) (digest : Bytes)
    (fresh : SkillTx SkillWorkspaceResponse) : SkillTx (WorkspaceAnswer × Bool) := do
  onAuthority (requireMasterSession request.session request.time)
  let stored ← reads (replaySkillSave request.session request.keyDigest digest)
  let previous ← attempt stored
  answerWorkspace fresh previous

/-- The transaction of the browser's `save`. -/
def saveWorkspaceSkill (save : SkillWorkspaceSave) : SkillTx (WorkspaceAnswer × Bool) :=
  save.toSkillBrowserRequest.answer save.fingerprint (saveWorkspaceSkillFresh save)

/-- A restore of a version. -/
structure SkillRestore extends SkillBrowserRequest where
  skillId : Id
  revisionId : Text
  expectedEtag : Text

def SkillRestore.fingerprint (restore : SkillRestore) : Bytes :=
  workspaceFingerprint ("skill-restore:" ++ restore.libraryId ++ ':' :: restore.skillId ++ ':' ::
    restore.revisionId) restore.metadata []

/-- The restore that no receipt answers. -/
def restoreSkillFresh (restore : SkillRestore) : SkillTx SkillWorkspaceResponse := do
  let source ← manifestFiles (browserGate restore.session restore.time)
    ⟨restore.libraryId, restore.skillId⟩ (some restore.revisionId)
  let result ← reviseSkill (browserGate restore.session restore.time)
    ⟨restore.libraryId, restore.skillId⟩ ⟨source.1.name, source.1.description, source.2⟩
    (some restore.expectedEtag) restore.clock restore.fresh.revisionId
  restore.finish "library.skill.revision_restore" restore.fingerprint result false

/-- The transaction of the browser's `restore`. -/
def restoreSkill (restore : SkillRestore) : SkillTx (WorkspaceAnswer × Bool) :=
  restore.toSkillBrowserRequest.answer restore.fingerprint (restoreSkillFresh restore)

/-! ### Runs -/

/-- A transaction of the application. -/
inductive SkillEvent where
  | save (save : SkillSave)
  | workspaceSave (save : SkillWorkspaceSave)
  | restore (restore : SkillRestore)
  | elsewhere (x : Write PUnit)

/-- The state behind a transaction, which is atomic. -/
def SkillEvent.apply (db : SkillDb) : SkillEvent → SkillDb
  | save s => (commit (skillTransaction (saveSkill s)) db).2
  | workspaceSave s => (commit (skillTransaction (saveWorkspaceSkill s)) db).2
  | restore r => (commit (skillTransaction (restoreSkill r)) db).2
  | elsewhere x => (commit (skillTransaction (onAuthority x)) db).2

/-- A run of transactions in any order. -/
abbrev SkillRun := Trace fun (db : SkillDb) (e : SkillEvent) db' => e.apply db = db'

/-! ### Every transaction keeps the law -/

/-- The law of the tables is kept, and they only grow. -/
def SkillsKept (db db' : SkillDb) : Prop :=
  SkillsSound db.skills → SkillsGrow db.skills db'.skills

theorem SkillsKept.isFrame : IsFrame SkillsKept where
  refl _ hsound := .refl hsound
  trans h h' hsound := (h hsound).trans (h' (h hsound).sound)

/-- A body that leaves the skills, their versions and their files as they are. -/
theorem SkillsKept.of_tables {db db' : SkillDb} (hskills : db'.skills.skills = db.skills.skills)
    (hrevisions : db'.skills.revisions = db.skills.revisions)
    (hfiles : db'.skills.files = db.skills.files)
    (hrecords : db.skills.records <+: db'.skills.records)
    (hreceipts : db.skills.receipts <+: db'.skills.receipts) : SkillsKept db db' := by
  intro hsound
  have hversions (key : SkillKey) : db'.skills.versionsOf key = db.skills.versionsOf key := by
    rw [SkillTables.versionsOf, SkillTables.versionsOf, hrevisions]
  have hfilesOf (key : SkillKey) (id : Text) :
      db'.skills.filesOf key id = db.skills.filesOf key id := by
    rw [SkillTables.filesOf, SkillTables.filesOf, hfiles]
  refine ⟨⟨?_, ?_, ?_, ?_, ?_, ?_, ?_, ?_⟩, ?_, ?_, hrecords, hreceipts, ?_⟩
  · rw [hskills]
    exact hsound.keys
  · rw [hskills]
    exact hsound.names
  · intro s hs
    rw [hversions]
    exact hsound.chains s (hskills ▸ hs)
  · rw [hrevisions, hskills]
    exact hsound.owned
  · rw [hrevisions]
    exact hsound.identified
  · rw [hrevisions]
    exact hsound.stripped
  · rw [hfiles, hrevisions]
    exact hsound.fileOwned
  · intro r hr
    obtain ⟨files, snapshot, h⟩ := (hsound.packaged r (hrevisions ▸ hr)).package
    exact ⟨files, snapshot, by rwa [hfilesOf]⟩
  · rw [hrevisions]
  · rw [hfiles]
  · rw [hskills]
    exact .refl (Revised.refl _ _) _

theorem SkillsKept.of_skills {db db' : SkillDb} (h : db'.skills = db.skills) : SkillsKept db db' :=
  .of_tables (by rw [h]) (by rw [h]) (by rw [h]) (by rw [h]) (by rw [h])

theorem kept_onAuthority {α : Type} (x : Write α) : Keeps SkillsKept (onAuthority x) :=
  fun _ _ _ h => .of_skills (onAuthority_skills h)

theorem leavesSkills_agentGate (token : Text) (now : ℤ) : LeavesSkills (agentGate token now) := by
  intro libraryId action db w db' h
  obtain ⟨a, opened, hopen, h⟩ := bind_ok.mp h
  rw [← (pure_ok.mp h).2]
  exact onAuthority_skills hopen

omit [Platform] in
theorem leavesSkills_browserGate (session : MasterAdminSession) (time : ℤ) :
    LeavesSkills (browserGate session time) :=
  fun _ _ _ _ _ h => onAuthority_skills h

section

variable {authorize : SkillAuthorization}

theorem kept_createSkill (hauthorize : LeavesSkills authorize) (libraryId : Id)
    (package : SkillPackage) (now : ℤ) (fresh : SkillFresh) :
    Keeps SkillsKept (createSkill authorize libraryId package now fresh) :=
  fun _ _ _ h hsound => grows_createSkill hauthorize hsound h

theorem kept_reviseSkill (hauthorize : LeavesSkills authorize) (key : SkillKey)
    (package : SkillPackage) (expectedEtag : Option Text) (clock : ℤ) (revisionId : Text) :
    Keeps SkillsKept (reviseSkill authorize key package expectedEtag clock revisionId) :=
  fun _ _ _ h hsound => grows_reviseSkill hauthorize hsound h

theorem kept_skillSummary (s : LibrarySkill) : Keeps SkillsKept (skillSummary s) :=
  .bind SkillsKept.isFrame (.lookup SkillsKept.isFrame _ _) fun _ => .pure SkillsKept.isFrame _

/-- Reading leaves the tables of the skills as they are. -/
def SkillsSame (db db' : SkillDb) : Prop := db'.skills = db.skills

omit [Platform] in
theorem SkillsSame.isFrame : IsFrame SkillsSame where
  refl _ := rfl
  trans h h' := Eq.trans h' h

theorem same_readSkillFile (hauthorize : LeavesSkills authorize) (key : SkillKey) (path : Text)
    (revisionId : Option Text) : Keeps SkillsSame (readSkillFile authorize key path revisionId) :=
  .bind SkillsSame.isFrame (hauthorize _ _) fun _ =>
    .bind SkillsSame.isFrame (.lookup SkillsSame.isFrame _ _) fun _ =>
    .bind SkillsSame.isFrame (.attempt SkillsSame.isFrame _) fun _ =>
    .bind SkillsSame.isFrame (.lookup SkillsSame.isFrame _ _) fun _ =>
    .bind SkillsSame.isFrame (.require SkillsSame.isFrame _ _) fun _ => .pure SkillsSame.isFrame _

theorem same_readSkillFiles (hauthorize : LeavesSkills authorize) (key : SkillKey)
    (revisionId : Text) (entries : List SkillManifestEntry) :
    Keeps SkillsSame (readSkillFiles authorize key revisionId entries) := by
  induction entries with
  | nil => exact .pure SkillsSame.isFrame _
  | cons entry entries ih =>
    exact .bind SkillsSame.isFrame (same_readSkillFile hauthorize _ _ _) fun _ =>
      .bind SkillsSame.isFrame ih fun _ => .pure SkillsSame.isFrame _

omit [Platform] in
theorem same_skillManifest (hauthorize : LeavesSkills authorize) (key : SkillKey)
    (revisionId : Option Text) : Keeps SkillsSame (skillManifest authorize key revisionId) :=
  .bind SkillsSame.isFrame (hauthorize _ _) fun _ =>
    .bind SkillsSame.isFrame (.lookup SkillsSame.isFrame _ _) fun _ =>
    .bind SkillsSame.isFrame (.lookup SkillsSame.isFrame _ _) fun _ =>
    .bind SkillsSame.isFrame (.reads SkillsSame.isFrame _) fun _ => .pure SkillsSame.isFrame _

theorem same_manifestFiles (hauthorize : LeavesSkills authorize) (key : SkillKey)
    (revisionId : Option Text) : Keeps SkillsSame (manifestFiles authorize key revisionId) :=
  .bind SkillsSame.isFrame (same_skillManifest hauthorize _ _) fun _ =>
    .bind SkillsSame.isFrame (same_readSkillFiles hauthorize _ _ _) fun _ =>
    .pure SkillsSame.isFrame _

theorem kept_manifestFiles (hauthorize : LeavesSkills authorize) (key : SkillKey)
    (revisionId : Option Text) : Keeps SkillsKept (manifestFiles authorize key revisionId) :=
  fun _ _ _ h => .of_skills (same_manifestFiles hauthorize key revisionId _ _ _ h)

end

theorem kept_insertSkillRecord (r : SkillIdempotencyRecord) :
    Keeps SkillsKept (insertSkillRecord r) :=
  .bind SkillsKept.isFrame (.demand SkillsKept.isFrame _ _) fun _ =>
    .writes fun _ => .of_tables rfl rfl rfl (List.prefix_append _ _) List.prefix_rfl

theorem kept_rememberSkillSave (r : SkillWorkspaceReceipt) :
    Keeps SkillsKept (rememberSkillSave r) :=
  .bind SkillsKept.isFrame (.demand SkillsKept.isFrame _ _) fun _ =>
    .writes fun _ => .of_tables rfl rfl rfl List.prefix_rfl (List.prefix_append _ _)

theorem kept_operation (save : SkillSave) : Keeps SkillsKept save.operation := by
  unfold SkillSave.operation
  split
  · exact kept_createSkill (leavesSkills_agentGate _ _) _ _ _ _
  · exact kept_reviseSkill (leavesSkills_agentGate _ _) _ _ _ _ _

theorem kept_saveAudit (save : SkillSave) (a : AuthenticatedCaller) (result : SkillSaveResult) :
    Keeps SkillsKept (save.audit a result) := by
  unfold SkillSave.audit
  split
  · exact kept_onAuthority _
  · exact .pure SkillsKept.isFrame _

theorem kept_saveSkillFresh (save : SkillSave) (a : AuthenticatedCaller)
    (snapshot : SkillSnapshot) : Keeps SkillsKept (saveSkillFresh save a snapshot) :=
  .bind SkillsKept.isFrame (kept_operation save) fun _ =>
    .bind SkillsKept.isFrame (kept_saveAudit _ _ _) fun _ =>
    .bind SkillsKept.isFrame (.attempt SkillsKept.isFrame _) fun _ =>
    .bind SkillsKept.isFrame (kept_insertSkillRecord _) fun _ => .pure SkillsKept.isFrame _

theorem kept_saveSkill (save : SkillSave) : Keeps SkillsKept (saveSkill save) := by
  refine .bind SkillsKept.isFrame (.attempt SkillsKept.isFrame _) fun _ =>
    .bind SkillsKept.isFrame (kept_onAuthority _) fun _ =>
    .bind SkillsKept.isFrame (.reads SkillsKept.isFrame _) fun _ =>
    .bind SkillsKept.isFrame (.attempt SkillsKept.isFrame _) fun previous => ?_
  cases previous with
  | some response => exact .pure SkillsKept.isFrame _
  | none =>
    exact .bind SkillsKept.isFrame (kept_saveSkillFresh _ _ _) fun _ => .pure SkillsKept.isFrame _

theorem kept_current (save : SkillWorkspaceSave) : Keeps SkillsKept save.current := by
  unfold SkillWorkspaceSave.current
  split
  · exact .pure SkillsKept.isFrame _
  · exact .bind SkillsKept.isFrame (kept_onAuthority _) fun _ =>
      .bind SkillsKept.isFrame (.lookup SkillsKept.isFrame _ _) fun _ =>
      .bind SkillsKept.isFrame (kept_skillSummary _) fun _ =>
      .bind SkillsKept.isFrame (kept_manifestFiles (leavesSkills_browserGate _ _) _ _) fun _ =>
      .pure SkillsKept.isFrame _

theorem kept_workspaceOperation (save : SkillWorkspaceSave) (files : List (Text × Bytes)) :
    Keeps SkillsKept (save.operation files) := by
  unfold SkillWorkspaceSave.operation
  split
  · exact kept_createSkill (leavesSkills_browserGate _ _) _ _ _ _
  · exact kept_reviseSkill (leavesSkills_browserGate _ _) _ _ _ _ _

theorem kept_finish (request : SkillBrowserRequest) (action : Text) (digest : Bytes)
    (result : SkillSaveResult) (overwritten : Bool) :
    Keeps SkillsKept (request.finish action digest result overwritten) := by
  have haudit : Keeps SkillsKept (request.audit action result) := by
    unfold SkillBrowserRequest.audit
    split
    · exact kept_onAuthority _
    · exact .pure SkillsKept.isFrame _
  exact .bind SkillsKept.isFrame haudit fun _ =>
    .bind SkillsKept.isFrame (kept_rememberSkillSave _) fun _ => .pure SkillsKept.isFrame _

theorem kept_saveWorkspaceSkillFresh (save : SkillWorkspaceSave) :
    Keeps SkillsKept (saveWorkspaceSkillFresh save) :=
  .bind SkillsKept.isFrame (kept_current save) fun _ =>
    .bind SkillsKept.isFrame (.attempt SkillsKept.isFrame _) fun _ =>
    .bind SkillsKept.isFrame (kept_workspaceOperation _ _) fun _ => kept_finish _ _ _ _ _

theorem kept_restoreSkillFresh (restore : SkillRestore) :
    Keeps SkillsKept (restoreSkillFresh restore) :=
  .bind SkillsKept.isFrame (kept_manifestFiles (leavesSkills_browserGate _ _) _ _) fun _ =>
    .bind SkillsKept.isFrame (kept_reviseSkill (leavesSkills_browserGate _ _) _ _ _ _ _) fun _ =>
    kept_finish _ _ _ _ _

theorem kept_answer (request : SkillBrowserRequest) (digest : Bytes)
    {fresh : SkillTx SkillWorkspaceResponse} (hfresh : Keeps SkillsKept fresh) :
    Keeps SkillsKept (request.answer digest fresh) := by
  refine .bind SkillsKept.isFrame (kept_onAuthority _) fun _ =>
    .bind SkillsKept.isFrame (.reads SkillsKept.isFrame _) fun _ =>
    .bind SkillsKept.isFrame (.attempt SkillsKept.isFrame _) fun previous => ?_
  cases previous with
  | some previous => exact .pure SkillsKept.isFrame _
  | none => exact .bind SkillsKept.isFrame hfresh fun _ => .pure SkillsKept.isFrame _

theorem kept_saveWorkspaceSkill (save : SkillWorkspaceSave) :
    Keeps SkillsKept (saveWorkspaceSkill save) :=
  kept_answer _ _ (kept_saveWorkspaceSkillFresh save)

theorem kept_restoreSkill (restore : SkillRestore) : Keeps SkillsKept (restoreSkill restore) :=
  kept_answer _ _ (kept_restoreSkillFresh restore)

/-- What a body keeps, its transaction keeps. -/
theorem kept_commit {α : Type} {x : SkillTx α} (hx : Keeps SkillsKept x) (db : SkillDb) :
    SkillsKept db (commit (skillTransaction x) db).2 := by
  rcases commit_eq_or (skillTransaction x) db with hsame | ⟨a, hrun⟩
  · rw [hsame]
    exact SkillsKept.isFrame.refl db
  · exact hx db a _ (skillTransaction_ok.mp hrun).1

/-- **One transaction keeps the law.** -/
theorem kept_apply (db : SkillDb) (e : SkillEvent) : SkillsKept db (e.apply db) := by
  cases e with
  | save save => exact kept_commit (kept_saveSkill save) db
  | workspaceSave save => exact kept_commit (kept_saveWorkspaceSkill save) db
  | restore restore => exact kept_commit (kept_restoreSkill restore) db
  | elsewhere x => exact kept_commit (kept_onAuthority x) db

/-! ### Runs -/

theorem skillsSound_empty : SkillsSound {} where
  keys := List.nodup_nil
  names := List.nodup_nil
  chains _ hs := absurd hs List.not_mem_nil
  owned _ hr := absurd hr List.not_mem_nil
  identified _ hr := absurd hr List.not_mem_nil
  stripped _ hr := absurd hr List.not_mem_nil
  fileOwned _ hf := absurd hf List.not_mem_nil
  packaged _ hr := absurd hr List.not_mem_nil

variable {db db' : SkillDb} {events : List SkillEvent}

/-- **A run only adds versions and files**, and keeps the law. -/
theorem skillRun_grows (hrun : SkillRun db events db') (hsound : SkillsSound db.skills) :
    SkillsGrow db.skills db'.skills := by
  induction hrun with
  | start => exact .refl hsound
  | @next _ t u e _ hstep ih =>
    rw [← hstep]
    exact ih.trans (kept_apply t e ih.sound)

/-- **The law holds in every reachable state.** -/
theorem skillRun_sound (hrun : SkillRun {} events db) : SkillsSound db.skills :=
  (skillRun_grows hrun skillsSound_empty).sound

end PatchouliLib
