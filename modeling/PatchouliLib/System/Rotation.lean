import PatchouliLib.System.PolicyChanges

/-!
# Rotating a credential

A rotation gives the replacement the modes and the selections of the credential
it retires.  On every Library, also on one that is added later, the replacement
has the rights that the old credential would have there; the old credential has
none any more, and those of all others are as they were.

## Main results

* `Rotates.libraryGrantPolicy_new`, `Rotates.selectsLibrary_new` — the policy of
  the replacement.
* `Rotates.samePolicy` — no other policy has changed.
* `resolveLibraryPolicy_replacement` — **the replacement has the rights of the old
  credential, on present and future Libraries.**
* `resolveLibraryPolicy_retired` — **the old credential is denied ever after.**
* `rotate_of_run` — **the whole law of a rotation.**
-/

namespace PatchouliLib

open Foundation

/-! ### Resolution -/

theorem isActiveAgentCredential_congr {key : CredentialKey} {s t : Store}
    (hcredentials : t.auth.credentials.filter (·.key = key) = s.auth.credentials.filter (·.key = key))
    (hcallers : t.auth.callers = s.auth.callers) (activeAt : ℤ) :
    isActiveAgentCredential key activeAt t = isActiveAgentCredential key activeAt s := by
  have hfilter : ∀ (rows : List Credential) (callers : List Caller),
      (rows.any fun c => c.key = key && c.IsActive activeAt && callers.any fun k =>
        k.id = c.callerId && k.libraryId = c.libraryId && k.kind = .agent && k.disabledAt = none) =
      (rows.filter (·.key = key)).any fun c => c.IsActive activeAt && callers.any fun k =>
        k.id = c.callerId && k.libraryId = c.libraryId && k.kind = .agent && k.disabledAt = none := by
    intro rows callers
    rw [List.any_filter]
    congr 1
    funext c
    rw [Bool.and_assoc]
  rw [isActiveAgentCredential, isActiveAgentCredential, hfilter, hfilter, hcredentials, hcallers]

theorem resolveLibraryPolicy_congr {key : CredentialKey} {s t : Store} {activeAt : ℤ}
    (hactive : isActiveAgentCredential key activeAt t = isActiveAgentCredential key activeAt s)
    (hsame : SamePolicy key s.auth t.auth) {libraryId : Id}
    (hlibrary : t.hasLibrary libraryId = s.hasLibrary libraryId) :
    resolveLibraryPolicy key libraryId activeAt t = resolveLibraryPolicy key libraryId activeAt s := by
  rw [resolveLibraryPolicy, resolveLibraryPolicy, hactive, hsame.libraryGrantPolicy_eq]
  cases hp : libraryGrantPolicy key s with
  | none => rfl
  | some p =>
    have howner : p.owner = key := (libraryGrantPolicy_owner hp).2.1
    have hrights : libraryRights p libraryId t = libraryRights p libraryId s := by
      unfold Store.hasLibrary at hlibrary
      rw [libraryRights, libraryRights, howner, hsame.selectsLibrary_eq, hsame.selectsLibrary_eq,
        hlibrary]
    dsimp only
    rw [hrights]

/-- A retired credential is not active. -/
theorem isActiveAgentCredential_of_revoked {s : Store} (hs : AuthSound s) {d : Credential}
    (hd : d ∈ s.auth.credentials) (hrevoked : d.revokedAt ≠ none) (activeAt : ℤ) :
    isActiveAgentCredential d.key activeAt s = false := by
  rw [Bool.eq_false_iff]
  intro hactive
  obtain ⟨⟨c, hc, hcactive⟩, -⟩ := hs.isActiveAgentCredential_iff.mp hactive
  obtain rfl : d = c := Option.some_inj.mp ((hs.getCredential_eq.mpr ⟨hd, rfl⟩).symm.trans hc)
  exact hrevoked hcactive.1

/-! ### The policies after a rotation -/

namespace Rotates

variable {key : CredentialKey} {now : ℤ} {d : DeliveredCredential} {caller : Caller}
  {old k : Credential} {scope : CredentialLibraryScope} {s t : Store}

theorem not_hasCredential (h : Rotates key now d caller old k scope s t) :
    ¬HasCredential d.key s := by
  rintro ⟨k', hk', hkey⟩
  refine h.fresh k' hk' ?_
  show k'.key.credentialId = k.key.credentialId
  rw [hkey, h.replacement.1]

theorem no_policy (h : Rotates key now d caller old k scope s t) (hs : AuthSound s) :
    ∀ p ∈ s.auth.credentialLibraryPolicies, p.owner ≠ d.key := by
  intro p hp howner
  obtain ⟨-, k', hk', hkey⟩ := hs.policyOwners p hp
  exact h.not_hasCredential ⟨k', hk', hkey.trans howner⟩

theorem no_grant (h : Rotates key now d caller old k scope s t) (hs : AuthSound s) :
    ∀ g ∈ s.auth.credentialLibraryGrants, g.owner ≠ d.key := by
  intro g hg howner
  obtain ⟨p, hp, hpowner⟩ := hs.grantOwners g hg
  exact h.no_policy hs p hp (hpowner.trans howner)

/-- The policy row of the replacement. -/
theorem libraryGrantPolicy_new (h : Rotates key now d caller old k scope s t) (hs : AuthSound s) :
    ∃ p, libraryGrantPolicy d.key t = some p ∧ p.owner = d.key ∧ p.readMode = scope.readMode ∧
      p.writeMode = scope.writeMode := by
  have hnone : s.auth.credentialLibraryPolicies.find? (fun p =>
      p.owner = d.key ∧ p.mode = .libraryGrants) = none := by
    refine List.find?_eq_none.mpr fun p hp => ?_
    simp [h.no_policy hs p hp]
  have howner : (⟨k.id, key.callerId, key.homeLibraryId⟩ : CredentialKey) = d.key :=
    h.replacement.2.symm
  refine ⟨⟨k.id, key.callerId, key.homeLibraryId, .libraryGrants, scope.readMode, scope.writeMode, 0⟩,
    ?_, howner, rfl, rfl⟩
  rw [libraryGrantPolicy, h.policies, List.find?_append, hnone, Option.none_or]
  refine List.find?_cons_of_pos ?_
  exact decide_eq_true ⟨howner, rfl⟩

/-- The selections of the replacement. -/
theorem selectsLibrary_new (h : Rotates key now d caller old k scope s t) (hs : AuthSound s)
    (libraryId : Id) (action : LibraryAction) :
    selectsLibrary d.key libraryId action t = selectsLibrary key libraryId action s := by
  rw [Bool.eq_iff_iff, selectsLibrary_iff, ← mem_listCredentialLibrarySelections, h.grants]
  constructor
  · rintro ⟨g, hg, howner, hlib, hact⟩
    rcases List.mem_append.mp hg with hg | hg
    · exact absurd howner (h.no_grant hs g hg)
    · obtain ⟨l, hl, rfl⟩ := List.mem_map.mp hg
      obtain ⟨e, he, hl⟩ := List.mem_flatMap.mp hl
      obtain ⟨a, ha, rfl⟩ := List.mem_map.mp hl
      obtain rfl : a = action := hact
      exact ⟨e, he, hlib, ha⟩
  · rintro ⟨e, he, rfl, hact⟩
    refine ⟨selectionRow d.key (e.libraryId, action), ?_, rfl, rfl, rfl⟩
    refine List.mem_append_right _ (List.mem_map.mpr ⟨_, ?_, rfl⟩)
    exact List.mem_flatMap.mpr ⟨e, he, List.mem_map.mpr ⟨action, hact, rfl⟩⟩

/-- **No other policy has changed.** -/
theorem samePolicy (h : Rotates key now d caller old k scope s t) {key' : CredentialKey}
    (hne : key' ≠ d.key) : SamePolicy key' s.auth t.auth := by
  constructor
  · have hother : ¬(⟨k.id, key.callerId, key.homeLibraryId⟩ : CredentialKey) = key' := by
      rw [← h.replacement.2]
      exact hne.symm
    rw [h.policies]
    exact filter_concat_of_unselected (decide_eq_false hother)
  · have hnone : ∀ selections : List Selection,
        (selections.map (selectionRow d.key)).filter (fun g => g.owner = key') = [] := by
      intro selections
      refine List.filter_eq_nil_iff.mpr fun g hg => ?_
      obtain ⟨l, -, rfl⟩ := List.mem_map.mp hg
      simp [hne.symm]
    rw [h.grants, List.filter_append, hnone, List.append_nil]

/-- Only the retired row and the new one differ. -/
theorem credentials_other (h : Rotates key now d caller old k scope s t) (hs : AuthSound s)
    {key' : CredentialKey} (hold : key' ≠ key) (hnew : key' ≠ d.key) :
    t.auth.credentials.filter (·.key = key') = s.auth.credentials.filter (·.key = key') := by
  have hkey : old.key = key := (hs.getCredential_eq.mp h.found.current).2
  have hk : ¬k.key = key' := by
    rw [h.replacement.1]
    exact hnew.symm
  rw [h.credentials]
  refine Eq.trans (filter_map_of_unselected fun x _ => ?_)
    (filter_concat_of_unselected (decide_eq_false hk))
  split
  · next husable =>
    have hx : x.key = key := by
      simp only [Credential.isUsable, Bool.and_eq_true, decide_eq_true_eq, and_assoc] at husable
      rw [← hkey]
      simp only [Credential.key, husable]
    have hother : ¬x.key = key' := by
      rw [hx]
      exact hold.symm
    exact .inr ⟨decide_eq_false hother, decide_eq_false hother⟩
  · exact .inl rfl

/-- The replacement is active. -/
theorem active_new (h : Rotates key now d caller old k scope s t) (hs : AuthSound s)
    (ht : AuthSound t) : isActiveAgentCredential d.key now t = true := by
  have hkey : old.key = key := (hs.getCredential_eq.mp h.found.current).2
  have hd : d.key.callerId = key.callerId ∧ d.key.homeLibraryId = key.homeLibraryId := by
    rw [h.replacement.2]
    exact ⟨rfl, rfl⟩
  rw [ht.isActiveAgentCredential_iff]
  refine ⟨⟨k, ?_, h.active⟩, caller, ?_, h.found.agent, h.found.enabled⟩
  · refine ht.getCredential_eq.mpr ⟨?_, h.replacement.1⟩
    rw [h.credentials]
    refine List.mem_map.mpr ⟨k, List.mem_append_right _ (List.mem_singleton.mpr rfl), ?_⟩
    have hnot : ¬k.isUsable old = true := by
      intro husable
      simp only [Credential.isUsable, Bool.and_eq_true, decide_eq_true_eq, and_assoc] at husable
      exact h.fresh old (hs.getCredential_eq.mp h.found.current).1 husable.1.symm
    rw [if_neg hnot]
  · rw [hd.1, hd.2]
    show t.auth.callers.find? _ = _
    rw [h.callers]
    exact h.found.caller

/-- The retired row. -/
theorem mem_retired (h : Rotates key now d caller old k scope s t) (hs : AuthSound s) :
    old.rotate k.id now ∈ t.auth.credentials := by
  have hmem := (hs.getCredential_eq.mp h.found.current).1
  rw [h.credentials]
  refine List.mem_map.mpr ⟨old, List.mem_append_left _ hmem, ?_⟩
  rw [if_pos (Credential.isUsable_self h.found.active)]

end Rotates

section

variable [Platform]

variable {db db' db'' : Db} {events : List AccessEvent} {key : CredentialKey} {now : ℤ}
  {d : DeliveredCredential} {caller : Caller} {old k : Credential} {scope : CredentialLibraryScope}

/-- **The replacement has the rights of the old credential, on present and future
Libraries.** -/
theorem resolveLibraryPolicy_replacement (hs : AccessSound db) (hs' : AccessSound db')
    (h : Rotates key now d caller old k scope db.store db'.store)
    (htrace : AccessTrace db' events db'') (hnone : ∀ e ∈ events, e.editsPolicy d.key = false)
    {activeAt : ℤ} (hat : 0 ≤ activeAt)
    (hactive : isActiveAgentCredential d.key activeAt db''.store = true) (libraryId : Id) :
    resolveLibraryPolicy d.key libraryId activeAt db''.store =
      resolveLibraryPolicy key libraryId now { db.store with library := db''.store.library } := by
  have hcred : HasCredential d.key db'.store := by
    obtain ⟨⟨c, hc, -⟩, -⟩ :=
      hs'.auth.isActiveAgentCredential_iff.mp (h.active_new hs.auth hs'.auth)
    exact ⟨c, hs'.auth.getCredential_eq.mp hc⟩
  have hsame := AccessTrace.samePolicy htrace hs' hcred hnone
  obtain ⟨p, hp, howner, hread, hwrite⟩ := h.libraryGrantPolicy_new hs.auth
  rw [← hsame.libraryGrantPolicy_eq] at hp
  -- the policy of the old credential, before the rotation
  obtain ⟨q, hq, hscope⟩ := Option.map_eq_some_iff.mp h.stored
  have hmodes : q.readMode = scope.readMode ∧ q.writeMode = scope.writeMode := by
    rw [← hscope]
    exact ⟨rfl, rfl⟩
  have hqowner : q.owner = key := (libraryGrantPolicy_owner hq).2.1
  have hnow : 0 ≤ now := by
    have hmem := (hs.auth.getCredential_eq.mp h.found.current).1
    exact (hs.auth.credentialChecks old hmem).created.1.trans h.found.active.2.2.1
  have holdactive : isActiveAgentCredential key now db.store = true := by
    rw [hs.auth.isActiveAgentCredential_iff]
    exact ⟨⟨old, h.found.current, h.found.active⟩, caller, h.found.caller, h.found.agent,
      h.found.enabled⟩
  have hselected : ∀ action, selectsLibrary d.key libraryId action db''.store =
      selectsLibrary key libraryId action db.store := by
    intro action
    rw [hsame.selectsLibrary_eq, h.selectsLibrary_new hs.auth]
  rw [resolveLibraryPolicy_of_active hat hactive hp,
    resolveLibraryPolicy_of_active (s := { db.store with library := db''.store.library }) hnow
      holdactive hq]
  have hrights : libraryRights p libraryId db''.store =
      libraryRights q libraryId { db.store with library := db''.store.library } := by
    rw [libraryRights, libraryRights, howner, hqowner, hread, hwrite, hmodes.1, hmodes.2,
      hselected, hselected]
    rfl
  rw [hrights]

/-- **The old credential is denied ever after.** -/
theorem resolveLibraryPolicy_retired (hs : AccessSound db) (hs' : AccessSound db')
    (h : Rotates key now d caller old k scope db.store db'.store)
    (htrace : AccessTrace db' events db'') {activeAt : ℤ} (hat : 0 ≤ activeAt) (libraryId : Id) :
    resolveLibraryPolicy key libraryId activeAt db''.store = .ok none := by
  obtain ⟨row, hrow, hevolves⟩ :=
    (AccessTrace.grows htrace).credentials.exists_of_mem (h.mem_retired hs.auth)
  have hkey : row.key = key :=
    hevolves.key.trans (hs.auth.getCredential_eq.mp h.found.current).2
  have hrevoked : row.revokedAt ≠ none := hevolves.revoked (by simp [Credential.rotate])
  rw [resolveLibraryPolicy_none hat, ← hkey]
  exact isActiveAgentCredential_of_revoked (hs'.trace htrace).auth hrow hrevoked activeAt

omit [Platform] in
/-- A Library is not lost. -/
theorem AuthGrows.hasLibrary {s t : Store} (h : AuthGrows s t) {libraryId : Id}
    (hlibrary : s.hasLibrary libraryId = true) : t.hasLibrary libraryId = true := by
  obtain ⟨l, hl, hid⟩ := List.any_eq_true.mp hlibrary
  obtain ⟨m, hm, hevolves⟩ := h.libraries.exists_of_mem hl
  have hid' : l.id = libraryId := of_decide_eq_true hid
  exact List.any_eq_true.mpr ⟨m, hm, decide_eq_true (Eq.trans hevolves hid')⟩

/-- **A rotation gives the replacement the rights of the old credential, retires
that one and touches no other, or changes nothing.** -/
theorem rotate_of_run {events : List AccessEvent} {db : Db} (h : AccessRun events db)
    (session : MasterAdminSession) (time : ℤ) (key : CredentialKey)
    (lifetime : MasterCredentialLifetime) (now : ℤ) (entropy : IssueEntropy) (auditId : Id) :
    let op := AccessOperation.rotateAgentCredentialAsMaster session time key lifetime now entropy
      auditId
    (∃ e, op.commit db = (.error e, db)) ∨
      ∃ d, (op.commit db).1 = .ok (.credential d) ∧
        isActiveAgentCredential d.key now (op.commit db).2.store = true ∧
        (∀ events' db', AccessTrace (op.commit db).2 events' db' →
          (∀ e ∈ events', e.editsPolicy d.key = false) → ∀ libraryId activeAt, 0 ≤ activeAt →
          isActiveAgentCredential d.key activeAt db'.store = true →
          resolveLibraryPolicy d.key libraryId activeAt db'.store =
              resolveLibraryPolicy key libraryId now { db.store with library := db'.store.library } ∧
            (db.store.hasLibrary libraryId = true →
              resolveLibraryPolicy d.key libraryId activeAt db'.store =
                resolveLibraryPolicy key libraryId now db.store)) ∧
        (∀ events' db', AccessTrace (op.commit db).2 events' db' → ∀ libraryId activeAt,
          0 ≤ activeAt → resolveLibraryPolicy key libraryId activeAt db'.store = .ok none) ∧
        ∀ key', key' ≠ d.key → SamePolicy key' db.store.auth (op.commit db).2.store.auth ∧
          (key' ≠ key → ∀ libraryId activeAt,
            resolveLibraryPolicy key' libraryId activeAt (op.commit db).2.store =
              resolveLibraryPolicy key' libraryId activeAt db.store) := by
  intro op
  have hs := h.sound
  have hs' : AccessSound (op.commit db).2 := hs.step (.access op db)
  cases hcommit : (op.commit db).1 with
  | error e =>
    left
    rcases immediateTransaction_eq_or op.body db with ⟨e', heq⟩ | ⟨_, _, _, -, -, -, heq⟩
    · exact ⟨e', heq⟩
    · rw [AccessOperation.commit, heq] at hcommit
      cases hcommit
  | ok a =>
    right
    obtain ⟨c, hbody, hstore⟩ := AccessOperation.body_of_commit hcommit
    obtain ⟨d, hrotate, rfl⟩ := accessAnswer_ok.mp hbody
    obtain ⟨caller, old, k, scope, -, hrotates⟩ := rotateAgentCredentialAsMaster_ok hrotate
    rw [← hstore] at hrotates
    have hgrows : ∀ {events' db'}, AccessTrace (op.commit db).2 events' db' →
        AuthGrows db.store db'.store := fun htrace =>
      (AccessTrace.grows (.next .start (.access op db))).trans (AccessTrace.grows htrace)
    refine ⟨d, rfl, hrotates.active_new hs.auth hs'.auth, ?_, ?_, ?_⟩
    · intro events' db' htrace hnone libraryId activeAt hat hactive
      have heq := resolveLibraryPolicy_replacement hs hs' hrotates htrace hnone hat hactive libraryId
      refine ⟨heq, fun hlibrary => heq.trans ?_⟩
      refine resolveLibraryPolicy_congr (s := db.store)
        (t := { db.store with library := db'.store.library }) rfl (.refl _) ?_
      rw [hlibrary]
      exact (hgrows htrace).hasLibrary hlibrary
    · intro events' db' htrace libraryId activeAt hat
      exact resolveLibraryPolicy_retired hs hs' hrotates htrace hat libraryId
    · intro key' hnew
      refine ⟨hrotates.samePolicy hnew, fun hold libraryId activeAt => ?_⟩
      refine resolveLibraryPolicy_congr ?_ (hrotates.samePolicy hnew) ?_
      · exact isActiveAgentCredential_congr (hrotates.credentials_other hs.auth hold hnew)
          hrotates.callers activeAt
      · unfold Store.hasLibrary
        rw [hrotates.library]

end

/-! ### A rotation of a small run -/

section Sample

attribute [local instance] asciiPlatform

def sampleRotate : AccessOperation :=
  .rotateAgentCredentialAsMaster sampleMasterSession 0 sampleCredentialKey ⟨true, none⟩ 400000000
    ⟨sampleIdOf 'f', List.replicate 16 1, List.replicate 32 1⟩ (sampleIdOf '3')

/-- The credential of the run is rotated, and then denied. -/
theorem rotate_of_sampleUsed :
    ∃ d, (sampleRotate.commit sampleUsed).1 = .ok (.credential d) ∧
      resolveLibraryPolicy d.key sampleHomeLibrary.id 400000000 (sampleRotate.commit sampleUsed).2.store =
        resolveLibraryPolicy sampleCredentialKey sampleHomeLibrary.id 400000000 sampleUsed.store ∧
      resolveLibraryPolicy sampleCredentialKey sampleHomeLibrary.id 400000000
        (sampleRotate.commit sampleUsed).2.store = .ok none := by
  have hok : (sampleRotate.commit sampleUsed).1.isOk = true := by decide +kernel
  have hnow : (0 : ℤ) ≤ 400000000 := by decide
  have hlibrary : sampleUsed.store.hasLibrary sampleHomeLibrary.id = true := by decide +kernel
  have hlaw := rotate_of_run sampleUsedRun sampleMasterSession 0 sampleCredentialKey ⟨true, none⟩
    400000000 ⟨sampleIdOf 'f', List.replicate 16 1, List.replicate 32 1⟩ (sampleIdOf '3')
  rw [← sampleRotate] at hlaw
  rcases hlaw with ⟨e, he⟩ | ⟨d, hd, hactive, hnew, hold, -⟩
  · rw [he] at hok
    cases hok
  · have hnone : ∀ e ∈ ([] : List AccessEvent), e.editsPolicy d.key = false :=
      fun e h => absurd h List.not_mem_nil
    exact ⟨d, hd, (hnew [] _ .start hnone _ _ hnow hactive).2 hlibrary, hold [] _ .start _ _ hnow⟩

end Sample

end PatchouliLib
