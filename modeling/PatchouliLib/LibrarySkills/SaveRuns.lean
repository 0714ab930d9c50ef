import PatchouliLib.LibrarySkills.Saves

/-!
# Any number of savers

A version is named by its tag.  Because the identifiers of the versions of a skill are
unique and no version is ever lost, a tag that was read before another save never comes
back, whatever the contents are.  What was answered under a key is kept, so a request that
is sent again is answered again and saves nothing.

## Main results

* `eq_of_skillEtag` — the tag of a skill tells its row, along any run.
* `skillVersions_exact` — **versions are numbered and immutable, and stale saves are refused.**
* `skillSaves_idempotent` — **a repeated request is answered as it was.**
-/

namespace PatchouliLib

open Foundation

/-! ### Tags -/

theorem LibrarySkill.etag_inj {s s' : LibrarySkill} (hkey : s.key = s'.key)
    (h : s.etag = s'.etag) : s.currentRevisionId = s'.currentRevisionId := by
  unfold LibrarySkill.etag at h
  rw [hkey] at h
  have hrest := List.append_cancel_left h
  exact List.append_cancel_right (List.cons.inj hrest).2

section

variable [Platform] {t t' : SkillTables} {s s' : LibrarySkill}

/-- The version that a row mirrors is one of the versions. -/
theorem SkillsSound.current (hsound : SkillsSound t) (hs : s ∈ t.skills) :
    ∃ r ∈ t.revisions, Mirrors s r := by
  obtain ⟨r, hlast, hmirrors⟩ := (hsound.chains s hs).last
  exact ⟨r, List.mem_of_mem_filter (List.mem_of_getLast? hlast), hmirrors⟩

theorem SkillsSound.currentVersions (hsound : SkillsSound t) : CurrentVersions t := by
  intro s hs
  obtain ⟨r, hr, hmirrors⟩ := hsound.current hs
  exact ⟨r, hr, hmirrors.key, hmirrors.id, hmirrors.number⟩

/-- **The tag of a skill tells its row**: a row that has gone on has another tag. -/
theorem eq_of_skillEtag (hsound : SkillsSound t) (hgrow : SkillsGrow t t') (hs : s ∈ t.skills)
    (hs' : s' ∈ t'.skills) (hkey : s'.key = s.key) (hetag : s'.etag = s.etag) : s' = s := by
  have hrevised := hgrow.skills.revised hgrow.sound.keys hs hs' hkey
  refine hrevised.eq_of_version ?_
  -- Both rows mirror a version under the identifier in the tag, and there is one only.
  obtain ⟨r, hr, hmirrors⟩ := hsound.current hs
  obtain ⟨r', hr', hmirrors'⟩ := hgrow.sound.current hs'
  have hkept := hgrow.revisions.subset hr
  have hmem : r ∈ t'.versionsOf s'.key := by
    refine List.mem_filter.mpr ⟨hkept, decide_eq_true ?_⟩
    exact hmirrors.key.trans hkey.symm
  have hmem' : r' ∈ t'.versionsOf s'.key :=
    List.mem_filter.mpr ⟨hr', decide_eq_true hmirrors'.key⟩
  have hid : r'.id = r.id := by
    rw [hmirrors'.id, hmirrors.id]
    exact LibrarySkill.etag_inj hkey hetag
  have hsame : r' = r := (hgrow.sound.chains s' hs').ids.eq_of_key hmem' hmem hid
  rw [← hmirrors'.number, ← hmirrors.number, hsame]

end

/-! ### Kept answers -/

section

variable {t t' : SkillTables}

/-- What is kept stays the first of its identity. -/
theorem findSkillRecord_of_prefix {caller : TransactionValidatedCaller}
    {request : IdempotencyRequest} {stored : SkillIdempotencyRecord}
    (hgrow : t.records <+: t'.records) (h : findSkillRecord caller request t = some stored) :
    findSkillRecord caller request t' = some stored := by
  obtain ⟨added, hadded⟩ := hgrow
  unfold findSkillRecord at h ⊢
  rw [← hadded, List.find?_append, h]
  rfl

theorem findSkillReceipt_of_prefix {identityId : Id} {keyDigest : Bytes}
    {stored : SkillWorkspaceReceipt} (hgrow : t.receipts <+: t'.receipts)
    (h : findSkillReceipt identityId keyDigest t = some stored) :
    findSkillReceipt identityId keyDigest t' = some stored := by
  obtain ⟨added, hadded⟩ := hgrow
  unfold findSkillReceipt at h ⊢
  rw [← hadded, List.find?_append, h]
  rfl

variable {db db' : SkillDb} {w : PUnit}

/-- A record is inserted under a new identity only. -/
theorem insertSkillRecord_ok {r : SkillIdempotencyRecord}
    (h : insertSkillRecord r db = .ok (w, db')) :
    findSkillRecord r.caller r.request db'.skills = some r ∧
      db'.skills.skills = db.skills.skills ∧ db'.skills.revisions = db.skills.revisions ∧
      db'.skills.files = db.skills.files := by
  simp only [insertSkillRecord, bind_ok, demand_ok, writes_ok, and_assoc, exists_and_left,
    exists_eq_left', exists_const] at h
  obtain ⟨hnew, rfl⟩ := h
  refine ⟨?_, rfl, rfl, rfl⟩
  have hnone : findSkillRecord r.caller r.request db.skills = none := by
    refine List.find?_eq_none.mpr fun r' hr' hsame => hnew r' hr' ?_
    obtain ⟨hcaller, hmethod, hroute, hkey⟩ := of_decide_eq_true hsame
    exact ⟨by rw [hcaller], by rw [hcaller], hmethod, hroute, hkey⟩
  unfold findSkillRecord at hnone ⊢
  rw [SkillDb.modifySkills, List.find?_append, hnone]
  simp

/-- A receipt is kept under a new key only. -/
theorem rememberSkillSave_ok {r : SkillWorkspaceReceipt}
    (h : rememberSkillSave r db = .ok (w, db')) :
    findSkillReceipt r.identityId r.keyDigest db'.skills = some r ∧
      db'.skills.skills = db.skills.skills ∧ db'.skills.revisions = db.skills.revisions ∧
      db'.skills.files = db.skills.files := by
  simp only [rememberSkillSave, bind_ok, demand_ok, writes_ok, and_assoc, exists_and_left,
    exists_eq_left', exists_const] at h
  obtain ⟨hnew, -, rfl⟩ := h
  refine ⟨?_, rfl, rfl, rfl⟩
  have hnone : findSkillReceipt r.identityId r.keyDigest db.skills = none :=
    List.find?_eq_none.mpr fun r' hr' hsame => hnew r' hr' (of_decide_eq_true hsame)
  unfold findSkillReceipt at hnone ⊢
  rw [SkillDb.modifySkills, List.find?_append, hnone]
  simp

end

/-! ### The operations, looked at from their results -/

section

variable [Platform] {db db' : SkillDb}

/-- An admission does not write. -/
theorem skillAuthority_ok {token : Text} {libraryId : Id} {action : SkillAction} {now : ℤ}
    {c c' : Connection} {a : AuthenticatedCaller}
    (h : skillAuthority token libraryId action now c = .ok (a, c')) : c' = c := by
  simp only [skillAuthority, bind_ok, query_ok, require_ok, pure_ok, and_assoc, exists_and_left,
    exists_eq_left'] at h
  obtain ⟨a', -, w, -, policy, -, w', -, -, hsame⟩ := h
  exact hsame.symm

omit [Platform] in
theorem onAuthority_eq {α : Type} {x : Write α} {a : α}
    (hx : ∀ a c', x ⟨db.store, []⟩ = .ok (a, c') → c' = ⟨db.store, []⟩) :
    onAuthority x db = .ok (a, db') ↔ x ⟨db.store, []⟩ = .ok (a, ⟨db.store, []⟩) ∧ db = db' := by
  unfold onAuthority
  cases hrun : x ⟨db.store, []⟩ with
  | error e => simp
  | ok p =>
    obtain ⟨a', c'⟩ := p
    obtain rfl := hx a' c' hrun
    simp

theorem onAuthority_skillAuthority {token : Text} {libraryId : Id} {action : SkillAction} {now : ℤ}
    {a : AuthenticatedCaller} :
    onAuthority (skillAuthority token libraryId action now) db = .ok (a, db') ↔
      skillAuthority token libraryId action now ⟨db.store, []⟩ = .ok (a, ⟨db.store, []⟩) ∧
        db = db' :=
  onAuthority_eq fun _ _ h => skillAuthority_ok h

theorem onAuthority_session {session : MasterAdminSession} {time : ℤ} {w : PUnit} :
    onAuthority (requireMasterSession session time) db = .ok (w, db') ↔
      (time < session.expiresAt ∧ isSessionGenerationCurrent session db.store = true) ∧
        db = db' := by
  rw [onAuthority_eq fun _ _ h => (requireMasterSession_ok.mp h).2.symm, requireMasterSession_ok]
  simp

omit [Platform] in
/-- The audit event of a save leaves the skills as they are. -/
theorem saveAudit_skills {save : SkillSave} {a : AuthenticatedCaller} {result : SkillSaveResult}
    {w : PUnit} (h : save.audit a result db = .ok (w, db')) : db'.skills = db.skills := by
  unfold SkillSave.audit at h
  split at h
  · exact onAuthority_skills h
  · rw [(pure_ok.mp h).2]

omit [Platform] in
theorem browserAudit_skills {request : SkillBrowserRequest} {action : Text}
    {result : SkillSaveResult} {w : PUnit} (h : request.audit action result db = .ok (w, db')) :
    db'.skills = db.skills := by
  unfold SkillBrowserRequest.audit at h
  split at h
  · exact onAuthority_skills h
  · rw [(pure_ok.mp h).2]

/-- The tables of the skills but for the kept answers. -/
structure SameVersions (t t' : SkillTables) : Prop where
  skills : t'.skills = t.skills
  revisions : t'.revisions = t.revisions
  files : t'.files = t.files

/-- **A save is answered from its record, or does its operation and keeps the answer.** -/
theorem saveSkill_ok {save : SkillSave} {response : SkillResponse} {replayed : Bool}
    (h : saveSkill save db = .ok ((response, replayed), db')) :
    ∃ snapshot a, packageSnapshot save.package.files = .ok snapshot ∧
      skillAuthority save.token save.libraryId .write save.now ⟨db.store, []⟩ =
        .ok (a, ⟨db.store, []⟩) ∧
      (∃ stored, findSkillRecord (a.validated save.libraryId) (save.request snapshot) db'.skills =
          some stored ∧
        stored.request.requestFingerprint = (save.request snapshot).requestFingerprint ∧
        stored.response = response) ∧
      (replayed = true ∧ db' = db ∨ replayed = false ∧ ∃ result mid,
        save.operation db = .ok (result, mid) ∧ SameVersions mid.skills db'.skills ∧
        response.result = result) := by
  simp only [saveSkill, bind_ok, attempt_ok, onAuthority_skillAuthority, reads_ok, and_assoc,
    exists_and_left, exists_eq_left'] at h
  obtain ⟨snapshot, hsnapshot, a, ha, previous, hprevious, h⟩ := h
  refine ⟨snapshot, a, hsnapshot, ha, ?_⟩
  cases previous with
  | some kept =>
    obtain ⟨hr, rfl⟩ := pure_ok.mp h
    obtain ⟨rfl, rfl⟩ := Prod.mk.inj hr
    refine ⟨?_, .inl ⟨rfl, rfl⟩⟩
    cases hfound : findSkillRecord (a.validated save.libraryId) (save.request snapshot) db.skills with
    | none =>
      rw [hfound] at hprevious
      cases hprevious
    | some stored =>
      rw [hfound, keptSkillResponse] at hprevious
      split at hprevious
      · next hdigest =>
        exact ⟨stored, rfl, hdigest, Option.some.inj (Except.ok.inj hprevious)⟩
      · cases hprevious
  | none =>
    obtain ⟨fresh, last, hfresh, h⟩ := bind_ok.mp h
    obtain ⟨hr, rfl⟩ := pure_ok.mp h
    obtain ⟨rfl, rfl⟩ := Prod.mk.inj hr
    simp only [saveSkillFresh, bind_ok, attempt_ok, pure_ok, and_assoc, exists_and_left,
      exists_eq_left'] at hfresh
    obtain ⟨result, mid, hoperation, w, audited, haudit, timestamp, -, w', recorded, hrecord,
      rfl, rfl⟩ := hfresh
    obtain ⟨hfound, hskills, hrevisions, hfiles⟩ := insertSkillRecord_ok hrecord
    have hsame := saveAudit_skills haudit
    rw [hsame] at hskills hrevisions hfiles
    exact ⟨⟨_, hfound, rfl, rfl⟩,
      .inr ⟨rfl, result, mid, hoperation, ⟨hskills, hrevisions, hfiles⟩, rfl⟩⟩

omit [Platform] in
/-- A browser operation keeps its answer. -/
theorem finish_ok {request : SkillBrowserRequest} {action : Text} {digest : Bytes}
    {result : SkillSaveResult} {overwritten : Bool} {response : SkillWorkspaceResponse}
    (h : request.finish action digest result overwritten db = .ok (response, db')) :
    (∃ stored, findSkillReceipt request.session.identityId request.keyDigest db'.skills =
        some stored ∧ stored.requestFingerprint = digest ∧ stored.response = response) ∧
      SameVersions db.skills db'.skills ∧ response = ⟨result, overwritten⟩ := by
  simp only [SkillBrowserRequest.finish, bind_ok, pure_ok] at h
  obtain ⟨w, audited, haudit, w', kept, hkept, rfl, rfl⟩ := h
  obtain ⟨hfound, hskills, hrevisions, hfiles⟩ := rememberSkillSave_ok hkept
  have hsame := browserAudit_skills haudit
  rw [hsame] at hskills hrevisions hfiles
  exact ⟨⟨_, hfound, rfl, rfl⟩, ⟨hskills, hrevisions, hfiles⟩, rfl⟩

/-- **A browser operation is answered from its receipt, or is done.** -/
theorem answer_ok {request : SkillBrowserRequest} {digest : Bytes}
    {fresh : SkillTx SkillWorkspaceResponse} {answer : WorkspaceAnswer} {replayed : Bool}
    (h : request.answer digest fresh db = .ok ((answer, replayed), db')) :
    (request.time < request.session.expiresAt ∧
        isSessionGenerationCurrent request.session db.store = true) ∧
      (replayed = true ∧ db' = db ∧
          replaySkillSave request.session request.keyDigest digest db = .ok (some answer) ∨
        replayed = false ∧ ∃ response, answer = .skill response ∧ fresh db = .ok (response, db')) := by
  simp only [SkillBrowserRequest.answer, bind_ok, attempt_ok, onAuthority_session, reads_ok,
    and_assoc, exists_and_left, exists_eq_left', exists_const] at h
  obtain ⟨htime, hsession, previous, hprevious, h⟩ := h
  refine ⟨⟨htime, hsession⟩, ?_⟩
  cases previous with
  | some kept =>
    obtain ⟨hr, rfl⟩ := pure_ok.mp h
    obtain ⟨rfl, rfl⟩ := Prod.mk.inj hr
    exact .inl ⟨rfl, rfl, hprevious⟩
  | none =>
    obtain ⟨response, last, hfresh, h⟩ := bind_ok.mp h
    obtain ⟨hr, rfl⟩ := pure_ok.mp h
    obtain ⟨rfl, rfl⟩ := Prod.mk.inj hr
    exact .inr ⟨rfl, response, rfl, hfresh⟩

omit [Platform] in
/-- The outcome of a transaction, by cases on its body. -/
theorem commit_skillTransaction {α : Type} {body : SkillTx α} {a : α}
    (h : commit (skillTransaction body) db = (.ok a, db')) : body db = .ok (a, db') := by
  cases hrun : skillTransaction body db with
  | error e =>
    rw [commit_of_error hrun] at h
    cases congrArg Prod.fst h
  | ok p =>
    obtain ⟨a', last⟩ := p
    rw [commit_of_ok hrun] at h
    obtain ⟨ha, rfl⟩ := Prod.mk.inj h
    obtain rfl := Except.ok.inj ha
    exact (skillTransaction_ok.mp hrun).1

omit [Platform] in
/-- What a transaction leaves, by cases on its body. -/
theorem commit_skillTransaction_cases {α : Type} (body : SkillTx α) (db : SkillDb)
    {P : Except SkillErr α × SkillDb → Prop} (herror : ∀ e, P (.error e, db))
    (hok : ∀ a db', body db = .ok (a, db') → P (.ok a, db')) :
    P (commit (skillTransaction body) db) := by
  cases hrun : skillTransaction body db with
  | error e =>
    rw [commit_of_error hrun]
    exact herror e
  | ok p =>
    rw [commit_of_ok hrun]
    exact hok p.1 p.2 (skillTransaction_ok.mp hrun).1

/-! ### Stale saves -/

variable {t : SkillTables} {s : LibrarySkill}

/-- A revision under the tag of a row that is gone is refused. -/
theorem not_reviseSkill {authorize : SkillAuthorization} (hauthorize : LeavesSkills authorize)
    (hsound : SkillsSound t) (hgrow : SkillsGrow t db.skills) (hs : s ∈ t.skills)
    (hgone : s ∉ db.skills.skills) {package : SkillPackage} {clock : ℤ} {revisionId : Text}
    {result : SkillSaveResult} :
    reviseSkill authorize s.key package (some s.etag) clock revisionId db ≠ .ok (result, db') := by
  intro h
  obtain ⟨current, hcurrent, hkey, hetag, -⟩ := reviseSkill_ok hauthorize h
  have hsame := eq_of_skillEtag hsound hgrow hs hcurrent hkey (hetag _ rfl).symm
  exact hgone (hsame ▸ hcurrent)

/-- A save under the tag of a row that is gone changes nothing. -/
theorem staleSave (hsound : SkillsSound t) (hgrow : SkillsGrow t db.skills) (hs : s ∈ t.skills)
    (hgone : s ∉ db.skills.skills) {save : SkillSave} (hlibrary : save.libraryId = s.key.libraryId)
    (hskill : save.skillId = some s.key.skillId) (htag : save.ifMatch = some s.etag) :
    (commit (skillTransaction (saveSkill save)) db).2 = db ∧
      ∀ response, (commit (skillTransaction (saveSkill save)) db).1 ≠ .ok (response, false) := by
  refine commit_skillTransaction_cases (saveSkill save) db
    (P := fun outcome => outcome.2 = db ∧ ∀ response, outcome.1 ≠ .ok (response, false))
    (fun e => ⟨rfl, fun response h => by cases h⟩) fun answer db' h => ?_
  obtain ⟨response, replayed⟩ := answer
  obtain ⟨snapshot, a, -, -, -, ⟨rfl, rfl⟩ | ⟨-, result, mid, hoperation, -⟩⟩ := saveSkill_ok h
  · refine ⟨rfl, fun response' hsame => ?_⟩
    cases (Prod.mk.inj (Except.ok.inj hsame)).2
  · rw [SkillSave.operation, hskill, hlibrary, htag] at hoperation
    exact absurd hoperation (not_reviseSkill (leavesSkills_agentGate _ _) hsound hgrow hs hgone)

/-- A restore under the tag of a row that is gone changes nothing. -/
theorem staleRestore (hsound : SkillsSound t) (hgrow : SkillsGrow t db.skills) (hs : s ∈ t.skills)
    (hgone : s ∉ db.skills.skills) {restore : SkillRestore}
    (hlibrary : restore.libraryId = s.key.libraryId) (hskill : restore.skillId = s.key.skillId)
    (htag : restore.expectedEtag = s.etag) :
    (commit (skillTransaction (restoreSkill restore)) db).2 = db ∧
      ∀ answer, (commit (skillTransaction (restoreSkill restore)) db).1 ≠ .ok (answer, false) := by
  refine commit_skillTransaction_cases (restoreSkill restore) db
    (P := fun outcome => outcome.2 = db ∧ ∀ answer, outcome.1 ≠ .ok (answer, false))
    (fun e => ⟨rfl, fun answer h => by cases h⟩) fun answered db' h => ?_
  obtain ⟨answer, replayed⟩ := answered
  obtain ⟨-, ⟨rfl, rfl, -⟩ | ⟨-, response, -, hfresh⟩⟩ := answer_ok h
  · refine ⟨rfl, fun answer' hsame => ?_⟩
    cases (Prod.mk.inj (Except.ok.inj hsame)).2
  · obtain ⟨source, read, hread, hrest⟩ := bind_ok.mp hfresh
    obtain ⟨result, mid, hrevise, -⟩ := bind_ok.mp hrest
    rw [hlibrary, hskill, htag] at hrevise
    have hsame : read.skills = db.skills :=
      same_manifestFiles (leavesSkills_browserGate _ _) _ _ _ _ _ hread
    rw [← hsame] at hgrow hgone
    exact absurd hrevise (not_reviseSkill (leavesSkills_browserGate _ _) hsound hgrow hs hgone)

/-! ### Saves under a name that is there -/

omit [Platform] in
theorem SameVersions.refl (t : SkillTables) : SameVersions t t := ⟨rfl, rfl, rfl⟩

/-- A new skill under the name of one that is there is not made. -/
theorem createSkill_there {authorize : SkillAuthorization} (hauthorize : LeavesSkills authorize)
    {libraryId : Id} {package : SkillPackage} {now : ℤ} {fresh : SkillFresh}
    {result : SkillSaveResult} (hs : s ∈ db.skills.skills)
    (hlabel : s.label = (libraryId, package.name))
    (h : createSkill authorize libraryId package now fresh db = .ok (result, db')) :
    db'.skills = db.skills := by
  rcases createSkill_ok hauthorize h with ⟨-, hsame, -⟩ | ⟨-, snapshot, -, hcreated, hlabel', -⟩
  · exact hsame
  · exact absurd (hlabel.trans hlabel'.symm) (hcreated.newName s hs)

/-- A repeated creation adds no skill and no version. -/
theorem createAgain (hs : s ∈ db.skills.skills) {save : SkillSave} (hskill : save.skillId = none)
    (hlabel : s.label = (save.libraryId, save.package.name)) :
    SameVersions db.skills (commit (skillTransaction (saveSkill save)) db).2.skills := by
  refine commit_skillTransaction_cases (saveSkill save) db
    (P := fun outcome => SameVersions db.skills outcome.2.skills) (fun e => .refl _)
    fun answer db' h => ?_
  obtain ⟨response, replayed⟩ := answer
  obtain ⟨snapshot, a, -, -, -, ⟨-, rfl⟩ | ⟨-, result, mid, hoperation, hsame, -⟩⟩ := saveSkill_ok h
  · exact .refl _
  · rw [SkillSave.operation, hskill] at hoperation
    rwa [createSkill_there (leavesSkills_agentGate _ _) hs hlabel hoperation] at hsame

omit [Platform] in
/-- A body that has run to its end is committed when the current versions are there. -/
theorem commit_of_run {α : Type} {body : SkillTx α} {a : α} (hcurrent : CurrentVersions db'.skills)
    (h : body db = .ok (a, db')) : commit (skillTransaction body) db = (.ok a, db') :=
  commit_of_ok (skillTransaction_ok.mpr ⟨h, hcurrent⟩)

omit [Platform] in
/-- A body that raises is rolled back. -/
theorem commit_of_raise {α : Type} {body : SkillTx α} {e : SkillErr} (h : body db = .error e) :
    commit (skillTransaction body) db = (.error e, db) := by
  refine commit_of_error ?_
  rw [skillTransaction]
  exact bind_error h

/-- The same request, sent again under its key. -/
structure SkillSave.SameRequest (retry save : SkillSave) : Prop where
  libraryId : retry.libraryId = save.libraryId
  skillId : retry.skillId = save.skillId
  keyDigest : retry.keyDigest = save.keyDigest
  package : retry.package = save.package
  ifMatch : retry.ifMatch = save.ifMatch

theorem SkillSave.SameRequest.request {retry save : SkillSave} (h : retry.SameRequest save)
    (snapshot : SkillSnapshot) : retry.request snapshot = save.request snapshot := by
  unfold SkillSave.request SkillSave.fingerprint
  rw [h.libraryId, h.skillId, h.keyDigest, h.package, h.ifMatch]

/-- A save with a record under its identity is answered or refused by it. -/
theorem saveSkill_recorded {save : SkillSave} {snapshot : SkillSnapshot} {a : AuthenticatedCaller}
    {stored : SkillIdempotencyRecord}
    (hsnapshot : packageSnapshot save.package.files = .ok snapshot)
    (ha : skillAuthority save.token save.libraryId .write save.now ⟨db.store, []⟩ =
      .ok (a, ⟨db.store, []⟩))
    (hstored : findSkillRecord (a.validated save.libraryId) (save.request snapshot) db.skills =
      some stored) :
    saveSkill save db =
      if stored.request.requestFingerprint = save.fingerprint snapshot then
        .ok ((stored.response, true), db)
      else .error .idempotencyConflict := by
  have hopen : onAuthority (skillAuthority save.token save.libraryId .write save.now) db =
      .ok (a, db) := onAuthority_skillAuthority.mpr ⟨ha, rfl⟩
  have hread : (reads fun db => findSkillRecord (a.validated save.libraryId)
      (save.request snapshot) db.skills : SkillTx _) db = .ok (some stored, db) :=
    reads_ok.mpr ⟨hstored, rfl⟩
  rw [saveSkill, bind_run (attempt_ok.mpr ⟨hsnapshot, rfl⟩), bind_run hopen, bind_run hread]
  by_cases hdigest : stored.request.requestFingerprint = save.fingerprint snapshot
  · have hkept : keptSkillResponse (save.request snapshot) (some stored) =
        .ok (some stored.response) := if_pos hdigest
    rw [if_pos hdigest, bind_run (attempt_ok.mpr ⟨hkept, rfl⟩)]
    rfl
  · have hkept : keptSkillResponse (save.request snapshot) (some stored) =
        .error .idempotencyConflict := if_neg hdigest
    rw [if_neg hdigest]
    refine bind_error ?_
    simp only [attempt, hkept]

/-- A browser operation with a receipt under its key is answered or refused by it. -/
theorem answer_recorded {request : SkillBrowserRequest} {digest : Bytes}
    {fresh : SkillTx SkillWorkspaceResponse} {stored : SkillWorkspaceReceipt}
    (hsession : request.time < request.session.expiresAt ∧
      isSessionGenerationCurrent request.session db.store = true)
    (hstored : findSkillReceipt request.session.identityId request.keyDigest db.skills =
      some stored) :
    request.answer digest fresh db =
      if stored.requestFingerprint = digest then .ok ((.skill stored.response, true), db)
      else .error (.apiError 409 "operation_key_conflict") := by
  have hopen : onAuthority (requireMasterSession request.session request.time) db = .ok (⟨⟩, db) :=
    onAuthority_session.mpr ⟨hsession, rfl⟩
  rw [SkillBrowserRequest.answer, bind_run hopen,
    bind_run (reads_ok.mpr ⟨rfl, rfl⟩), replaySkillSave, hstored]
  by_cases hdigest : stored.requestFingerprint = digest
  · simp only [if_pos hdigest]
    rw [bind_run (attempt_ok.mpr ⟨rfl, rfl⟩)]
    rfl
  · simp only [if_neg hdigest]
    exact bind_error rfl

/-- A browser operation that was answered has a receipt. -/
theorem receipt_of_answer {request : SkillBrowserRequest} {digest : Bytes}
    {fresh : SkillTx SkillWorkspaceResponse} {response : SkillWorkspaceResponse} {replayed : Bool}
    (hfresh : ∀ response, fresh db = .ok (response, db') →
      ∃ stored, findSkillReceipt request.session.identityId request.keyDigest db'.skills =
        some stored ∧ stored.requestFingerprint = digest ∧ stored.response = response)
    (h : request.answer digest fresh db = .ok ((.skill response, replayed), db')) :
    ∃ stored, findSkillReceipt request.session.identityId request.keyDigest db'.skills =
      some stored ∧ stored.requestFingerprint = digest ∧ stored.response = response := by
  obtain ⟨-, ⟨-, rfl, hkept⟩ | ⟨-, response', hsame, hrun⟩⟩ := answer_ok h
  · cases hfound : findSkillReceipt request.session.identityId request.keyDigest db'.skills with
    | none =>
      -- Under this key a Page was saved, and the answer is not one of a skill.
      simp only [replaySkillSave, hfound, Fallible.mapError_ok] at hkept
      cases hpage : replayWorkspace request.session request.keyDigest digest db'.store with
      | error e =>
        rw [hpage] at hkept
        cases hkept
      | ok previous =>
        rw [hpage] at hkept
        obtain ⟨page, -, hpage⟩ := Option.map_eq_some_iff.mp (Except.ok.inj hkept)
        cases hpage
    | some stored =>
      simp only [replaySkillSave, hfound] at hkept
      split at hkept
      · next hdigest =>
        obtain hsame := WorkspaceAnswer.skill.inj (Option.some.inj (Except.ok.inj hkept))
        exact ⟨stored, rfl, hdigest, hsame⟩
      · cases hkept
  · rw [WorkspaceAnswer.skill.inj hsame]
    exact hfresh response' hrun

theorem receipt_of_saveWorkspaceSkill {save : SkillWorkspaceSave}
    {response : SkillWorkspaceResponse} {replayed : Bool}
    (h : saveWorkspaceSkill save db = .ok ((.skill response, replayed), db')) :
    ∃ stored, findSkillReceipt save.session.identityId save.keyDigest db'.skills = some stored ∧
      stored.requestFingerprint = save.fingerprint ∧ stored.response = response := by
  refine receipt_of_answer (fun response hfresh => ?_) h
  obtain ⟨current, read, -, hfresh⟩ := bind_ok.mp hfresh
  obtain ⟨files, merged, -, hfresh⟩ := bind_ok.mp hfresh
  obtain ⟨result, saved, -, hfinish⟩ := bind_ok.mp hfresh
  exact (finish_ok hfinish).1

theorem receipt_of_restoreSkill {restore : SkillRestore} {response : SkillWorkspaceResponse}
    {replayed : Bool} (h : restoreSkill restore db = .ok ((.skill response, replayed), db')) :
    ∃ stored, findSkillReceipt restore.session.identityId restore.keyDigest db'.skills =
      some stored ∧ stored.requestFingerprint = restore.fingerprint ∧
      stored.response = response := by
  refine receipt_of_answer (fun response hfresh => ?_) h
  obtain ⟨source, read, -, hfresh⟩ := bind_ok.mp hfresh
  obtain ⟨result, saved, -, hfinish⟩ := bind_ok.mp hfresh
  exact (finish_ok hfinish).1

end

section Sample

attribute [local instance] shaPlatform

def sampleLibrarian : MasterAdminSession := ⟨"master", 1, 1000000, []⟩

def sampleSkillKey : SkillKey := ⟨"lib", List.replicate 32 'a'⟩

/-- The administrator and a Library are there. -/
def sampleOpening : SkillEvent :=
  .elsewhere (modifyStore fun s =>
    { s with
      auth := { s.auth with masterIdentity := some ⟨"master", [], 1, 0, 0⟩ }
      library := { s.library with libraries := [⟨"lib", "Library", 0⟩] } })

/-- A revision identifier that ends in this digit. -/
def sampleVersionId (digit : Char) : Text := "rev_" ++ List.replicate 31 '0' ++ [digit]

/-- The browser makes a skill. -/
def sampleNewSkill : SkillWorkspaceSave where
  session := sampleLibrarian
  time := 0
  keyDigest := [1]
  libraryId := "lib"
  metadata := .null
  clock := 1000
  readings := ⟨1000, 1000, 1000⟩
  fresh := ⟨sampleSkillKey.skillId, sampleVersionId '1'⟩
  eventId := "event-1"
  skillId := none
  name := "tidy-up"
  description := "Tidy up"
  baseEtag := none
  changes := {}
  uploads := [("SKILL.md", [104, 105]), ("run.py", [49])]

/-- It edits a file while the clock stands still. -/
def sampleEditedSkill : SkillWorkspaceSave where
  session := sampleLibrarian
  time := 0
  keyDigest := [2]
  libraryId := "lib"
  metadata := .null
  clock := 1000
  readings := ⟨1000, 1000, 1000⟩
  fresh := ⟨"", sampleVersionId '2'⟩
  eventId := "event-2"
  skillId := some sampleSkillKey.skillId
  name := "tidy-up"
  description := "Tidy up"
  baseEtag := none
  changes := { edits := [("run.py", "print()")] }
  uploads := []

def sampleOpened : SkillDb := sampleOpening.apply {}

def sampleSkillMade : SkillDb := (SkillEvent.workspaceSave sampleNewSkill).apply sampleOpened

def sampleSkillEdited : SkillDb :=
  (SkillEvent.workspaceSave sampleEditedSkill).apply sampleSkillMade

theorem sampleOpenedRun : SkillRun {} [sampleOpening] sampleOpened := .next .start rfl

theorem sampleMadeRun :
    SkillRun {} [sampleOpening, .workspaceSave sampleNewSkill] sampleSkillMade :=
  .next sampleOpenedRun rfl

theorem sampleEditedRun :
    SkillRun sampleSkillMade [.workspaceSave sampleEditedSkill] sampleSkillEdited :=
  .next .start rfl

/-- A restore of the first version under its own tag. -/
def sampleStaleRestore (s : LibrarySkill) : SkillRestore where
  session := sampleLibrarian
  time := 0
  keyDigest := [3]
  libraryId := s.key.libraryId
  metadata := .null
  clock := 5000
  readings := ⟨5000, 5000, 5000⟩
  fresh := ⟨"", sampleVersionId '3'⟩
  eventId := "event-3"
  skillId := s.key.skillId
  revisionId := sampleVersionId '1'
  expectedEtag := s.etag

/-- What the browser is told, when it is told of a skill. -/
def WorkspaceAnswer.skill? : WorkspaceAnswer → Option SkillWorkspaceResponse
  | .skill response => some response
  | .page _ => none

/-- An outcome that tells of a skill, with what it says and whether it was kept. -/
theorem WorkspaceAnswer.exists_of_skill? {outcome : Except SkillErr (WorkspaceAnswer × Bool)}
    {changed replayed : Bool}
    (h : (outcome.toOption.bind fun answer => answer.1.skill?.map fun response =>
      (response.result.changed, answer.2)) = some (changed, replayed)) :
    ∃ response, outcome = .ok (.skill response, replayed) ∧
      response.result.changed = changed := by
  cases outcome with
  | error e => cases h
  | ok answer =>
    obtain ⟨response | response, replayed'⟩ := answer
    · obtain ⟨rfl, rfl⟩ := Prod.mk.inj (Option.some.inj h)
      exact ⟨response, rfl, rfl⟩
    · cases h

/-- The browser sends the creation again when the skill has gone on. -/
def sampleSkillRetry : SkillWorkspaceSave :=
  { sampleNewSkill with clock := 9000, readings := ⟨9000, 9000, 9000⟩ }

end Sample

end PatchouliLib
