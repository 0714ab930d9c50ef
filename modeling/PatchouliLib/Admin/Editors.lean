import PatchouliLib.Admin.Issuance

/-!
# What the two policy editors write

An editor that answers that nothing has changed has changed nothing.  An editor
that has changed the policy has found the token of its form as it was submitted;
it has raised the revision of the scope by one and left an audit row.  The audit
rows of the editor of one Library are counted, that of the scope editor is looked
for.

## Main definitions

* `scopeRevision` — the revision of a scope, which is zero before there is one.
* `grantsDigestInput` — what the token of the form of one Library is a digest of.

## Main results

* `setAgentScopeAsMaster_ok`, `setAgentGrantsAsMaster_ok` — **what the editors
  have found and written.**
* `MasterAuditEvent.AuditsGrants.isGrantsUpdate` — the audit row of an edit is
  counted.
* `grantsDigestInput_revision` — the digest input tells the revision.
-/

namespace PatchouliLib

open Foundation

/-! ### The revision of a scope -/

def scopeRevision (key : CredentialKey) (s : Store) : ℕ :=
  ((libraryGrantPolicy key s).map (·.scopeRevision)).getD 0

theorem hasPolicy_of_scope {key : CredentialKey} {s : Store} {scope : CredentialLibraryScope}
    (h : getCredentialLibraryScope key s = some scope) : hasLibraryGrantPolicy key s = true := by
  obtain ⟨p, hp, -⟩ := Option.map_eq_some_iff.mp h
  rw [hasLibraryGrantPolicy, hp, Option.isSome_some]

theorem scopeRevision_of_scope {key : CredentialKey} {s : Store} {scope : CredentialLibraryScope}
    (h : getCredentialLibraryScope key s = some scope) : scope.revision = scopeRevision key s := by
  obtain ⟨p, hp, rfl⟩ := Option.map_eq_some_iff.mp h
  rw [scopeRevision, hp]
  rfl

/-- An UPDATE of the policies of a credential is one of its own policy. -/
theorem libraryGrantPolicy_map {key : CredentialKey} {s t : Store}
    {set : CredentialLibraryPolicy → CredentialLibraryPolicy}
    (hset : ∀ p, (set p).owner = p.owner ∧ (set p).mode = p.mode)
    (h : t.auth.credentialLibraryPolicies = s.auth.credentialLibraryPolicies.map fun p =>
      if p.credentialId = key.credentialId then set p else p) :
    libraryGrantPolicy key t = (libraryGrantPolicy key s).map set := by
  have hrow : ∀ p : CredentialLibraryPolicy,
      let q := if p.credentialId = key.credentialId then set p else p
      q.owner = p.owner ∧ q.mode = p.mode := by
    intro p
    dsimp only
    split
    · exact hset p
    · exact ⟨rfl, rfl⟩
  have hfind : libraryGrantPolicy key t = (libraryGrantPolicy key s).map fun p =>
      if p.credentialId = key.credentialId then set p else p := by
    rw [libraryGrantPolicy, h, List.find?_map]
    congr 2
    funext p
    simp only [Function.comp, (hrow p).1, (hrow p).2]
  rw [hfind]
  cases hp : libraryGrantPolicy key s with
  | none => rfl
  | some p =>
    have hid : p.credentialId = key.credentialId :=
      congrArg CredentialKey.credentialId (libraryGrantPolicy_owner hp).2.1
    rw [Option.map_some, Option.map_some, if_pos hid]

/-- The revision after an UPDATE of the policies of a credential. -/
theorem scopeRevision_map {key : CredentialKey} {s t : Store} {n : ℕ}
    (hp : hasLibraryGrantPolicy key s = true)
    (set : CredentialLibraryPolicy → CredentialLibraryPolicy)
    (hset : ∀ p, (set p).owner = p.owner ∧ (set p).mode = p.mode)
    (hrevision : ∀ p, libraryGrantPolicy key s = some p → (set p).scopeRevision = n)
    (h : t.auth.credentialLibraryPolicies = s.auth.credentialLibraryPolicies.map fun p =>
      if p.credentialId = key.credentialId then set p else p) :
    scopeRevision key t = n := by
  obtain ⟨p, hp⟩ := Option.isSome_iff_exists.mp hp
  rw [scopeRevision, libraryGrantPolicy_map hset h, hp]
  exact hrevision p hp

/-! ### The scope editor -/

section

variable {session : MasterAdminSession} {time now : ℤ} {key : CredentialKey} {auditId : Id}
  {c c' : Connection}

/-- **The scope editor has found the submitted revision, and has changed nothing
or raised it.** -/
theorem setAgentScopeAsMaster_ok [Platform] {request : MasterSetAgentLibraryScope} {changed : Bool}
    (h : setAgentScopeAsMaster session time key request now auditId c = .ok (changed, c')) :
    (∃ caller current, ActiveAgent key now caller current c.store) ∧
      scopeRevision key c.store = request.expectedScopeRevision ∧
      (changed = false ∧ c' = c ∨ changed = true ∧
        scopeRevision key c'.store = scopeRevision key c.store + 1 ∧
        hasScopeUpdate key.credentialId c'.store = true) := by
  unfold setAgentScopeAsMaster at h
  obtain ⟨_, _, hsession, h⟩ := bind_ok.mp h
  obtain ⟨-, rfl⟩ := requireMasterSession_ok.mp hsession
  obtain ⟨⟨caller, current⟩, _, hadmit, h⟩ := bind_ok.mp h
  obtain ⟨hfound, rfl⟩ := activeAgentCredential_ok hadmit
  obtain ⟨scope, _, hread, h⟩ := bind_ok.mp h
  obtain ⟨hscope, rfl⟩ := requireScope_ok.mp hread
  obtain ⟨_, _, hrevision, h⟩ := bind_ok.mp h
  obtain ⟨hexpected, rfl⟩ := require_ok.mp hrevision
  obtain ⟨_, _, hlibraries, h⟩ := bind_ok.mp h
  obtain ⟨-, rfl⟩ := requireLibraries_ok.mp hlibraries
  refine ⟨⟨caller, current, hfound⟩, (scopeRevision_of_scope hscope).symm.trans hexpected, ?_⟩
  split at h
  · obtain ⟨rfl, rfl⟩ := pure_ok.mp h
    exact .inl ⟨rfl, rfl⟩
  · right
    simp only [updateCredentialLibraryPolicies, deleteCredentialLibraryGrants, addMasterSuccess,
      bind_ok, constraint_ok, modifyStore_ok, pure_ok, and_assoc, exists_and_left,
      exists_eq_left', exists_const] at h
    obtain ⟨-, _, c₁, hinsert, _, c₂, haudit, rfl, rfl⟩ := h
    have hc₁ := insertSelections_ok hinsert
    obtain ⟨-, rfl⟩ := insertMasterAuditEvent_ok.mp haudit
    refine ⟨rfl, ?_, ?_⟩
    · rw [← scopeRevision_of_scope hscope]
      refine scopeRevision_map (hasPolicy_of_scope hscope) (fun p =>
        { p with
          readMode := request.scope.readMode
          writeMode := request.scope.writeMode
          scopeRevision := scope.revision + 1 }) (fun _ => ⟨rfl, rfl⟩) (fun _ _ => rfl) ?_
      show c₁.store.auth.credentialLibraryPolicies = _
      rw [hc₁]
      rfl
    · refine List.any_eq_true.mpr ⟨_, List.mem_append_right _ (List.mem_singleton.mpr rfl), ?_⟩
      simp only [decide_true, Bool.and_self]

/-! ### The editor of one Library -/

theorem replaceActions_ok {targetLibraryId : Id} {existing desired : ActionSet} {w : PUnit}
    (h : replaceActions key targetLibraryId existing desired c = .ok (w, c')) :
    c'.store.auth.credentialLibraryPolicies = c.store.auth.credentialLibraryPolicies ∧
      c'.store.audit = c.store.audit := by
  obtain ⟨_, c₁, hdelete, hinsert⟩ := bind_ok.mp h
  have hframe : IsFrame fun c c' : Connection =>
      c'.store.auth.credentialLibraryPolicies = c.store.auth.credentialLibraryPolicies ∧
        c'.store.audit = c.store.audit :=
    ⟨fun _ => ⟨rfl, rfl⟩, fun h h' => ⟨h'.1.trans h.1, h'.2.trans h.2⟩⟩
  rw [insertSelections_ok hinsert]
  refine Keeps.forEach hframe (fun _ => ?_) _ _ _ _ hdelete
  exact Keeps.writes fun _ => ⟨rfl, rfl⟩

/-- What the token of the form of one Library is a digest of. -/
def grantsDigestInput (key : CredentialKey) (targetLibraryId : Id) (actions : ActionSet)
    (revision : ℕ) : Bytes :=
  grantsDigestDomain ++ utf8Encode (Json.dumps true (.arr
    [.str key.homeLibraryId, .str key.callerId, .str key.credentialId, .str targetLibraryId,
      .arr (actions.values.map .str), .num revision]))

/-- The digest input tells the revision. -/
theorem grantsDigestInput_revision {targetLibraryId : Id} {actions actions' : ActionSet}
    {m n : ℕ} (h : grantsDigestInput key targetLibraryId actions m =
      grantsDigestInput key targetLibraryId actions' n) : m = n := by
  have htext := utf8Encode_injective (List.append_cancel_left h)
  have hne : ∀ (a b c d e : Json), [a, b, c, d, e] ≠ [] := fun _ _ _ _ _ => List.cons_ne_nil _ _
  exact Json.dumps_arr_concat_num_inj (hne _ _ _ _ _) (hne _ _ _ _ _) htext

theorem targetLibraryGrantsDigest_eq [Platform] (targetLibraryId : Id) (actions : ActionSet)
    (revision : ℕ) : targetLibraryGrantsDigest key targetLibraryId actions revision =
      hex (sha256 (grantsDigestInput key targetLibraryId actions revision)) := rfl

theorem colon_notMem {id : Id} (h : IsOpaqueId id) : ':' ∉ id := by
  intro hmem
  exact absurd (h.2 ':' hmem) (by decide)

/-- The audit row of an edit of the rights on one Library. -/
structure MasterAuditEvent.AuditsGrants (a : MasterAuditEvent) (credentialId targetLibraryId : Id)
    (old new : ActionSet) : Prop where
  action : a.action = grantsUpdateAction
  targetType : a.targetType = "credential_library_grant"
  targetId : a.targetId = grantsUpdateTarget credentialId targetLibraryId old new

/-- **The audit row of an edit is counted.** -/
theorem MasterAuditEvent.AuditsGrants.isGrantsUpdate {a : MasterAuditEvent}
    {credentialId targetLibraryId : Id} {old new : ActionSet}
    (h : a.AuditsGrants credentialId targetLibraryId old new) (hcredential : IsOpaqueId credentialId)
    (htarget : IsOpaqueId targetLibraryId) :
    a.isGrantsUpdate credentialId targetLibraryId = true := by
  have hold : ':' ∉ old.bits := by
    obtain ⟨read, write⟩ := old
    cases read <;> cases write <;> decide
  have hnew : ':' ∉ new.bits := by
    obtain ⟨read, write⟩ := new
    cases read <;> cases write <;> decide
  have htarget' : a.targetId =
      credentialId ++ ':' :: (targetLibraryId ++ ':' :: (old.bits ++ ':' :: new.bits)) := by
    rw [h.targetId, grantsUpdateTarget]
    simp only [List.append_assoc, List.cons_append]
  have hsplit : a.targetId.splitOn ':' = [credentialId, targetLibraryId, old.bits, new.bits] := by
    rw [htarget', List.splitOn_append_cons_self_of_not_mem (colon_notMem hcredential),
      List.splitOn_append_cons_self_of_not_mem (colon_notMem htarget),
      List.splitOn_append_cons_self_of_not_mem hold, List.splitOn_eq_singleton hnew]
  have htake : a.targetId.take opaqueIdLength = credentialId := by
    rw [htarget', ← hcredential.1, List.take_left']
    rfl
  simp only [MasterAuditEvent.isGrantsUpdate, h.action, h.targetType, htake, hsplit, decide_true,
    Bool.and_self]

/-- **The editor of one Library has found the submitted digest and no scope edit,
and has changed nothing or left a counted row.** -/
theorem setAgentGrantsAsMaster_ok [Platform] {targetLibraryId : Id}
    {request : MasterSetAgentLibraryGrants} {changed : Bool}
    (h : setAgentGrantsAsMaster session time key targetLibraryId request now auditId c =
      .ok (changed, c')) :
    (∃ caller current, ActiveAgent key now caller current c.store) ∧
      hasScopeUpdate key.credentialId c.store = false ∧
      c.store.hasLibrary targetLibraryId = true ∧
      targetLibraryGrantsDigest key targetLibraryId (currentActions key targetLibraryId c.store)
        (grantRevision key.credentialId targetLibraryId c.store) = request.expectedDigest ∧
      (changed = false ∧ c' = c ∨ changed = true ∧
        scopeRevision key c'.store = scopeRevision key c.store + 1 ∧
        ∃ a old new, MasterAuditEvent.AuditsGrants a key.credentialId targetLibraryId old new ∧
          c'.store.audit.masterAuditEvents = c.store.audit.masterAuditEvents ++ [a]) := by
  unfold setAgentGrantsAsMaster at h
  obtain ⟨_, _, hsession, h⟩ := bind_ok.mp h
  obtain ⟨-, rfl⟩ := requireMasterSession_ok.mp hsession
  obtain ⟨⟨caller, current⟩, _, hadmit, h⟩ := bind_ok.mp h
  obtain ⟨hfound, rfl⟩ := activeAgentCredential_ok hadmit
  obtain ⟨scope, _, hread, h⟩ := bind_ok.mp h
  obtain ⟨hscope, rfl⟩ := requireScope_ok.mp hread
  simp only [query_bind, bind_ok, require_ok, and_assoc, exists_and_left, exists_eq_left',
    exists_const] at h
  obtain ⟨-, -, hedited, hknown, hdigest, h⟩ := h
  refine ⟨⟨caller, current, hfound⟩, hedited, hknown, hdigest, ?_⟩
  split at h
  · obtain ⟨rfl, rfl⟩ := pure_ok.mp h
    exact .inl ⟨rfl, rfl⟩
  · right
    obtain ⟨_, c₁, hreplace, h⟩ := bind_ok.mp h
    obtain ⟨hpolicies, haudits⟩ := replaceActions_ok hreplace
    simp only [updateCredentialLibraryPolicies, addMasterSuccess, bind_ok, constraint_ok,
      modifyStore_ok, pure_ok, and_assoc, exists_and_left, exists_eq_left', exists_const] at h
    obtain ⟨-, _, c₂, haudit, rfl, rfl⟩ := h
    obtain ⟨-, rfl⟩ := insertMasterAuditEvent_ok.mp haudit
    refine ⟨rfl, ?_, _, _, _, ⟨rfl, rfl, rfl⟩, congrArg (· ++ [_]) (congrArg _ haudits)⟩
    refine scopeRevision_map (hasPolicy_of_scope hscope)
      (fun p => { p with scopeRevision := p.scopeRevision + 1 }) (fun _ => ⟨rfl, rfl⟩)
      (fun p hp => ?_) ?_
    · rw [scopeRevision, hp]
      rfl
    · show c₁.store.auth.credentialLibraryPolicies.map _ = _
      rw [hpolicies]

end

end PatchouliLib
