import PatchouliLib.Admin.Editors
import PatchouliLib.Auth.Onboarding
import PatchouliLib.System.Access

/-!
# Changes of a policy

The policy of a credential is its row and its selections.  Once the credential is
there, a step of the application leaves them alone, or it is one of the two
editors that answers that it has changed the policy, and then the revision of the
scope is one higher.

## Main definitions

* `SamePolicy key t u` — the policy row and the selections of the credential are
  the same.
* `AccessEvent.editsScope key`, `AccessEvent.editsGrants key targetLibraryId`,
  `AccessEvent.editsPolicy key` — an editor has changed the policy.

## Main results

* `AccessStep.policy_cases` — **a step leaves the policy alone, or an editor has
  changed it and raised its revision.**
* `AccessTrace.samePolicy` — a run without such an edit leaves the policy alone.
-/

namespace PatchouliLib

open Foundation

/-! ### The same policy -/

/-- The policy row and the selections of the credential are the same. -/
structure SamePolicy (key : CredentialKey) (t u : AuthTables) : Prop where
  policies : u.credentialLibraryPolicies.filter (·.owner = key) =
    t.credentialLibraryPolicies.filter (·.owner = key)
  grants : u.credentialLibraryGrants.filter (·.owner = key) =
    t.credentialLibraryGrants.filter (·.owner = key)

namespace SamePolicy

variable {key : CredentialKey} {s t : Store}

theorem of_eq {t u : AuthTables} (hpolicies : u.credentialLibraryPolicies = t.credentialLibraryPolicies)
    (hgrants : u.credentialLibraryGrants = t.credentialLibraryGrants) : SamePolicy key t u := by
  constructor
  · rw [hpolicies]
  · rw [hgrants]

theorem refl (t : AuthTables) : SamePolicy key t t := ⟨rfl, rfl⟩

theorem trans {t u v : AuthTables} (h : SamePolicy key t u) (h' : SamePolicy key u v) :
    SamePolicy key t v :=
  ⟨h'.policies.trans h.policies, h'.grants.trans h.grants⟩

theorem libraryGrantPolicy_eq (h : SamePolicy key s.auth t.auth) :
    libraryGrantPolicy key t = libraryGrantPolicy key s := by
  have hfilter : ∀ rows : List CredentialLibraryPolicy,
      rows.find? (fun p => p.owner = key ∧ p.mode = .libraryGrants) =
        (rows.filter (·.owner = key)).find? (·.mode = .libraryGrants) := by
    intro rows
    rw [List.find?_filter]
    congr 1
    funext p
    simp
  rw [libraryGrantPolicy, libraryGrantPolicy, hfilter, hfilter, h.policies]

theorem selectsLibrary_eq (h : SamePolicy key s.auth t.auth) (libraryId : Id)
    (action : LibraryAction) :
    selectsLibrary key libraryId action t = selectsLibrary key libraryId action s := by
  have hfilter : ∀ rows : List CredentialLibraryGrant,
      rows.any (fun g => g.owner = key && g.targetLibraryId = libraryId && g.action = action) =
        (rows.filter (·.owner = key)).any fun g => g.targetLibraryId = libraryId && g.action = action := by
    intro rows
    rw [List.any_filter]
    congr 1
    funext g
    rw [Bool.and_assoc]
  rw [selectsLibrary, selectsLibrary, hfilter, hfilter, h.grants]

theorem scopeRevision_eq (h : SamePolicy key s.auth t.auth) :
    scopeRevision key t = scopeRevision key s := by
  rw [scopeRevision, scopeRevision, h.libraryGrantPolicy_eq]

/-- Statements on the policies of other credentials. -/
theorem tablesFrame {T : Id → Prop} : TablesFrame (· ≠ key.credentialId) T (SamePolicy key) where
  refl := refl
  trans := trans
  callers _ _ := .of_eq rfl rfl
  insertCredential _ _ _ := .of_eq rfl rfl
  updateCredentials _ _ _ := .of_eq rfl rfl
  agentTokenValues _ _ := .of_eq rfl rfl
  insertPolicy t p hp := by
    have hother : ¬p.owner = key := fun h => hp (congrArg CredentialKey.credentialId h)
    exact ⟨filter_concat_of_unselected (decide_eq_false hother), rfl⟩
  updatePolicies t f hf := by
    refine ⟨filter_map_of_unselected fun p hp => ?_, rfl⟩
    rcases hf p hp with hsame | ⟨hid, howner⟩
    · exact .inl hsame
    · have hother : ¬p.owner = key := fun h => hid (congrArg CredentialKey.credentialId h)
      exact .inr ⟨decide_eq_false hother, decide_eq_false (by rwa [howner])⟩
  insertGrant t g hg := by
    have hother : ¬g.owner = key := fun h => hg (congrArg CredentialKey.credentialId h)
    exact ⟨rfl, filter_concat_of_unselected (decide_eq_false hother)⟩
  deleteGrants t p hp := by
    refine ⟨rfl, filter_filter_of_unselected fun g _ howner => ?_⟩
    have hkey : g.owner = key := of_decide_eq_true howner
    cases hg : p g with
    | false => rfl
    | true => exact absurd (congrArg CredentialKey.credentialId hkey) (hp g hg)
  masterIdentity _ _ := .of_eq rfl rfl
  insertTicket _ _ _ := .of_eq rfl rfl
  updateTickets _ _ _ := .of_eq rfl rfl

end SamePolicy

/-! ### Edits -/

/-- The scope editor has changed the policy of the credential. -/
def AccessEvent.editsScope (key : CredentialKey) : AccessEvent → Bool
  | .access (.setAgentScopeAsMaster _ _ key' _ _ _) (.ok (.changed true)) => key' = key
  | _ => false

/-- The editor of this Library has changed the policy of the credential. -/
def AccessEvent.editsGrants (key : CredentialKey) (targetLibraryId : Id) : AccessEvent → Bool
  | .access (.setAgentGrantsAsMaster _ _ key' targetLibraryId' _ _ _) (.ok (.changed true)) =>
    key' = key && targetLibraryId' = targetLibraryId
  | _ => false

/-- An editor has changed the policy of the credential. -/
def AccessEvent.editsPolicy (key : CredentialKey) : AccessEvent → Bool
  | .access (.setAgentScopeAsMaster _ _ key' _ _ _) (.ok (.changed true)) => key' = key
  | .access (.setAgentGrantsAsMaster _ _ key' _ _ _ _) (.ok (.changed true)) => key' = key
  | _ => false

theorem AccessEvent.editsPolicy_of_error (key : CredentialKey) (op : AccessOperation) (err : Err) :
    (AccessEvent.access op (.error err)).editsPolicy key = false := by
  cases op <;> rfl

theorem AccessEvent.editsPolicy_of_target {key : CredentialKey} {op : AccessOperation}
    (h : ∀ id ∈ op.policyTarget, id ≠ key.credentialId) (result : Except Err AccessAnswer) :
    (AccessEvent.access op result).editsPolicy key = false := by
  unfold AccessEvent.editsPolicy
  split
  · next heq =>
    cases heq
    exact decide_eq_false fun hkey => h _ rfl (congrArg CredentialKey.credentialId hkey)
  · next heq =>
    cases heq
    exact decide_eq_false fun hkey => h _ rfl (congrArg CredentialKey.credentialId hkey)
  · rfl

/-- The credential is there. -/
def HasCredential (key : CredentialKey) (s : Store) : Prop := ∃ k ∈ s.auth.credentials, k.key = key

theorem HasCredential.grows {key : CredentialKey} {s t : Store} (h : HasCredential key s)
    (hgrows : AuthGrows s t) : HasCredential key t := by
  obtain ⟨k, hk, hkey⟩ := h
  obtain ⟨d, hd, hevolves⟩ := hgrows.credentials.exists_of_mem hk
  exact ⟨d, hd, hevolves.key.trans hkey⟩

/-- An identifier that is there belongs to one credential. -/
theorem AuthSound.key_eq_of_current {s : Store} (hs : AuthSound s) {key key' : CredentialKey}
    (hk : HasCredential key s) (hid : key'.credentialId = key.credentialId) {k : Credential}
    (h : getCredential key' s = some k) : key' = key := by
  obtain ⟨d, hd, hkey⟩ := hk
  obtain ⟨hmem, hkey'⟩ := hs.getCredential_eq.mp h
  have hsame : k.id = d.id := by
    show k.key.credentialId = d.key.credentialId
    rw [hkey, hkey', hid]
  rw [← hkey', ← hkey, hs.credentials.eq_of_key hmem hd hsame]

section

variable [Platform]

/-- An operation that issues a credential gives it a new identifier. -/
theorem redeem_fresh {code : Text} {request : MasterProvisionAgent} {now : ℤ}
    {entropy : ProvisionEntropy} {c c' : Connection} {d : DeliveredCredential}
    (h : redeem code request now entropy c = .ok (d, c')) :
    ∀ k ∈ c.store.auth.credentials, k.id ≠ entropy.issue.credentialId := by
  obtain ⟨t, c₁, hadmit, hrest⟩ := bind_ok.mp h
  obtain ⟨-, rfl⟩ := admitTicket_ok hadmit
  obtain ⟨_, _, hprovision, -⟩ := bind_ok.mp hrest
  obtain ⟨k, -, hid, -, hfresh, -⟩ := provisionAgentInTransaction_ok hprovision
  rwa [hid] at hfresh

theorem provisionAgentAsMaster_fresh {session : MasterAdminSession} {time now : ℤ}
    {request : MasterProvisionAgent} {entropy : ProvisionEntropy} {c c' : Connection}
    {d : DeliveredCredential}
    (h : provisionAgentAsMaster session time request now entropy c = .ok (d, c')) :
    ∀ k ∈ c.store.auth.credentials, k.id ≠ entropy.issue.credentialId := by
  obtain ⟨_, _, hsession, hprovision⟩ := bind_ok.mp h
  obtain ⟨-, rfl⟩ := requireMasterSession_ok.mp hsession
  obtain ⟨k, -, hid, -, hfresh, -⟩ := provisionAgentInTransaction_ok hprovision
  rwa [hid] at hfresh

/-- **A step leaves the policy alone, or an editor has changed it and raised its
revision.** -/
theorem AccessStep.policy_cases {db db' : Db} {e : AccessEvent} (hs : AuthSound db.store)
    (h : AccessStep db e db') {key : CredentialKey} (hk : HasCredential key db.store) :
    e.editsPolicy key = false ∧ SamePolicy key db.store.auth db'.store.auth ∨
      e.editsPolicy key = true ∧ scopeRevision key db'.store = scopeRevision key db.store + 1 := by
  rcases h.cases with ⟨op, err, rfl, rfl⟩ | ⟨op, a, c, rfl, hbody, hstore⟩ | ⟨rfl, helse⟩
  · exact .inl ⟨AccessEvent.editsPolicy_of_error key op err, .refl _⟩
  · rw [hstore]
    by_cases htarget : ∃ id ∈ op.policyTarget, id = key.credentialId
    · obtain ⟨id, hid, hkey⟩ := htarget
      have hnew : ¬∀ k ∈ db.store.auth.credentials, k.id ≠ key.credentialId := by
        obtain ⟨k, hmem, rfl⟩ := hk
        exact fun h => h k hmem rfl
      cases op with
      | redeem code request now entropy =>
        obtain rfl := Option.some_inj.mp hid
        obtain ⟨d, hredeem, -⟩ := accessAnswer_ok.mp hbody
        rw [← hkey] at hnew
        exact absurd (redeem_fresh hredeem) hnew
      | provisionAgentAsMaster session time request now entropy =>
        obtain rfl := Option.some_inj.mp hid
        obtain ⟨d, hprovision, -⟩ := accessAnswer_ok.mp hbody
        rw [← hkey] at hnew
        exact absurd (provisionAgentAsMaster_fresh hprovision) hnew
      | rotateAgentCredentialAsMaster session time key' lifetime now entropy auditId =>
        obtain rfl := Option.some_inj.mp hid
        obtain ⟨d, hrotate, -⟩ := accessAnswer_ok.mp hbody
        obtain ⟨_, _, k, _, hk', hrotates⟩ := rotateAgentCredentialAsMaster_ok hrotate
        have hfresh := hrotates.fresh
        rw [hk', hkey] at hfresh
        exact absurd hfresh hnew
      | setAgentScopeAsMaster session time key' request now auditId =>
        obtain rfl := Option.some_inj.mp hid
        obtain ⟨changed, hedit, rfl⟩ := accessAnswer_ok.mp hbody
        obtain ⟨⟨_, current, hfound⟩, -, hchanged⟩ := setAgentScopeAsMaster_ok hedit
        obtain rfl := hs.key_eq_of_current hk hkey hfound.current
        rcases hchanged with ⟨rfl, rfl⟩ | ⟨rfl, hrevision, -⟩
        · exact .inl ⟨rfl, .refl _⟩
        · exact .inr ⟨decide_eq_true rfl, hrevision⟩
      | setAgentGrantsAsMaster session time key' targetLibraryId request now auditId =>
        obtain rfl := Option.some_inj.mp hid
        obtain ⟨changed, hedit, rfl⟩ := accessAnswer_ok.mp hbody
        obtain ⟨⟨_, current, hfound⟩, -, -, -, hchanged⟩ := setAgentGrantsAsMaster_ok hedit
        obtain rfl := hs.key_eq_of_current hk hkey hfound.current
        rcases hchanged with ⟨rfl, rfl⟩ | ⟨rfl, hrevision, -⟩
        · exact .inl ⟨rfl, .refl _⟩
        · exact .inr ⟨decide_eq_true rfl, hrevision⟩
      | _ => cases hid
    · have hother : ∀ id ∈ op.policyTarget, id ≠ key.credentialId :=
        fun id hid heq => htarget ⟨id, hid, heq⟩
      have haside := (SamePolicy.tablesFrame (T := fun _ => True)).authFrame.keeps_body op
        hother (fun _ _ => trivial) _ _ _ hbody
      exact .inl ⟨AccessEvent.editsPolicy_of_target hother _, haside.auth⟩
  · exact .inl ⟨rfl, .of_eq helse.policies helse.grants⟩

/-- The policy of a credential along a run without an edit of it. -/
theorem AccessTrace.samePolicy {db db' : Db} {events : List AccessEvent}
    (h : AccessTrace db events db') (hs : AccessSound db) {key : CredentialKey}
    (hk : HasCredential key db.store) (hnone : ∀ e ∈ events, e.editsPolicy key = false) :
    SamePolicy key db.store.auth db'.store.auth := by
  induction h with
  | start => exact .refl _
  | @next events t u e htrace hstep ih =>
    have hsame := ih fun e' he' => hnone e' (List.mem_append_left _ he')
    have hlast := hnone e (List.mem_append_right _ (List.mem_singleton.mpr rfl))
    have hcred : HasCredential key t.store := hk.grows (AccessTrace.grows htrace)
    rcases hstep.policy_cases (hs.trace htrace).auth hcred with ⟨-, hstep⟩ | ⟨hedit, -⟩
    · exact hsame.trans hstep
    · rw [hlast] at hedit
      cases hedit

/-- The revision of a scope never falls. -/
theorem AccessStep.scopeRevision_le {db db' : Db} {e : AccessEvent} (hs : AuthSound db.store)
    (h : AccessStep db e db') {key : CredentialKey} (hk : HasCredential key db.store) :
    scopeRevision key db.store ≤ scopeRevision key db'.store := by
  rcases h.policy_cases hs hk with ⟨-, hsame⟩ | ⟨-, hrevision⟩
  · rw [hsame.scopeRevision_eq]
  · rw [hrevision]
    exact Nat.le_succ _

end

end PatchouliLib
