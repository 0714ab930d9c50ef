import PatchouliLib.Admin.Service
import PatchouliLib.Storage.AuthFrames

/-!
# The scope of a search

A search reads the Libraries its principal may read.  The scope of an agent is
resolved anew in the transaction of every search, from the stored caller,
credential and policy; the principal and its rights are digested so that a
cursor can be bound to them.

## Main definitions

* `currentScope` — the scope of an agent's credential.
* `masterScope` — the scope of the administrator.
* `selectScopes` — the part of a scope that a query names.

## Main results

* `scope_agrees` — **the listing of the rights, the scope of a search and the
  resolution of a policy agree on every Library.**
-/

namespace PatchouliLib

open Foundation

/-! ### The scope -/

structure TagIdentity where
  libraryId : Id
  tagId : Id
deriving DecidableEq

/-- The part of a search query that narrows its scope. -/
structure SearchQuery where
  tagsAny : List TagIdentity
  libraries : Option (List Id)

structure SearchScope where
  libraryId : Id
  legacySections : Bool
deriving DecidableEq

structure ResolvedScope where
  scopes : List SearchScope
  callerId : Id
  principalIdentity : Bytes
  policyVersion : ℕ
  grantsIdentity : Bytes

def SearchScope.le (a b : SearchScope) : Prop := a.libraryId ≤ b.libraryId

instance : DecidableRel SearchScope.le := fun a b => by
  unfold SearchScope.le
  infer_instance

/-- The Libraries a query names, or all that are readable. -/
def selectLibraries (readable : List SearchScope) : Option (List Id) →
    Except Err (List SearchScope)
  | none => pure (readable.insertionSort SearchScope.le)
  | some libraries => libraries.mapM fun id =>
      Fallible.get (readable.find? (·.libraryId = id)) .searchScope

/-- Every Tag of a query exists in one of the selected Libraries. -/
def TagsVisible (selected : List SearchScope) (tags : List TagIdentity) (s : Store) : Prop :=
  ∀ t ∈ tags, (∃ scope ∈ selected, scope.libraryId = t.libraryId) ∧
    ∃ row ∈ s.tags.tags, row.libraryId = t.libraryId ∧ row.id = t.tagId

instance (selected : List SearchScope) (tags : List TagIdentity) (s : Store) :
    Decidable (TagsVisible selected tags s) := by
  unfold TagsVisible
  infer_instance

def selectScopes (readable : List SearchScope) (searchQuery : SearchQuery) (s : Store) :
    Except Err (List SearchScope) := do
  let selected ← selectLibraries readable searchQuery.libraries
  Fallible.check (TagsVisible selected searchQuery.tagsAny s) .searchScope
  pure selected

section

variable [Platform]

/-- `_digest_json`, of a value without objects. -/
def digestJson (domain : Text) (value : Json) : Bytes :=
  sha256 (utf8Encode domain ++ [0] ++ utf8Encode (Json.dumps false value))

def searchGrantsDomain : Text := "patchouli-search-grants-v1"

def CredentialLibraryGrantSummary.json (e : CredentialLibraryGrantSummary) : Json :=
  .arr [.str e.libraryId, .arr ((e.actions.map LibraryAction.wire).insertionSort (· ≤ ·) |>.map .str)]

def SectionGrant.json (g : SectionGrant) : Json :=
  .arr [.str g.sectionId, .str g.action.wire, .num g.createdAt]

omit [Platform] in
/-- The Libraries an agent credential may read. -/
def readableLibraries (key : CredentialKey) (s : Store) : List SearchScope :=
  if hasLibraryGrantPolicy key s then
    ((listCredentialLibraryGrants key s).filter (·.actions.contains .read)).map fun e =>
      ⟨e.libraryId, false⟩
  else if (listGrants key.homeLibraryId key.callerId s).any (·.action = .pageRead) then
    [⟨key.homeLibraryId, true⟩]
  else []

/-- The digest of the rights of an agent credential. -/
def grantsIdentity (key : CredentialKey) (s : Store) : Bytes :=
  digestJson searchGrantsDomain (.arr
    (if hasLibraryGrantPolicy key s then
      (listCredentialLibraryGrants key s).map CredentialLibraryGrantSummary.json
    else (listGrants key.homeLibraryId key.callerId s).map SectionGrant.json))

omit [Platform] in
/-- The caller and the credential that were supplied, as they are stored now. -/
def currentIdentity (supplied : AuthenticatedCaller) (now : ℤ) (s : Store) :
    Except Err (Caller × Credential) := do
  Fallible.check (supplied.caller.kind = .agent) .authentication
  let caller ← Fallible.get (getCaller supplied.caller.libraryId supplied.caller.id s)
    .authentication
  let credential ← Fallible.get (getCredential supplied.key s) .authentication
  Fallible.check (caller.kind = .agent ∧ caller.disabledAt = none ∧ credential.IsActive now ∧
    credential.tokenVersion = supplied.credential.tokenVersion) .authentication
  pure (caller, credential)

/-- `_current_scope`. -/
def currentScope (supplied : AuthenticatedCaller) (searchQuery : SearchQuery) (now : ℤ)
    (s : Store) : Except Err ResolvedScope := do
  let (caller, credential) ← currentIdentity supplied now s
  let scopes ← selectScopes (readableLibraries supplied.key s) searchQuery s
  pure
    { scopes := scopes
      callerId := supplied.caller.id
      principalIdentity := digestJson "patchouli-search-principal-v1" (.arr
        [.str supplied.caller.libraryId, .str supplied.caller.id, .str credential.id,
          .num credential.tokenVersion])
      policyVersion := caller.policyVersion
      grantsIdentity := grantsIdentity supplied.key s }

/-- `_master_scope`. -/
def masterScope (identityId : Id) (sessionGeneration : ℕ) (searchQuery : SearchQuery) (s : Store) :
    Except Err ResolvedScope := do
  Fallible.check (isGenerationCurrent identityId sessionGeneration s = true) .authentication
  let ids := (s.library.libraries.map (·.id)).insertionSort (· ≤ ·)
  let scopes ← selectScopes (ids.map fun id => ⟨id, false⟩) searchQuery s
  pure
    { scopes := scopes
      callerId := []
      principalIdentity := digestJson "patchouli-search-master-v1" (.arr
        [.str identityId, .num sessionGeneration])
      policyVersion := sessionGeneration
      grantsIdentity := digestJson "patchouli-search-master-scope-v1" (.arr (ids.map .str)) }

/-! ### Three readings of one policy -/

section

omit [Platform]

variable {s : Store} {key : CredentialKey} {now : ℤ}

/-- The policy of a credential resolves to one that allows the action. -/
def ResolvesAllowing (key : CredentialKey) (libraryId : Id) (action : LibraryAction) (now : ℤ)
    (s : Store) : Prop :=
  ∃ policy, resolveLibraryPolicy key libraryId now s = .ok (some policy) ∧
    policy.allows action = true

/-- The resolution of a stored policy, by its row. -/
theorem resolvesAllowing_iff (hnow : 0 ≤ now) (hactive : isActiveAgentCredential key now s = true)
    {p : CredentialLibraryPolicy} (hp : libraryGrantPolicy key s = some p) {libraryId : Id}
    {action : LibraryAction} :
    ResolvesAllowing key libraryId action now s ↔
      s.hasLibrary libraryId = true ∧ p.allows libraryId action s = true := by
  simp only [ResolvesAllowing, resolveLibraryPolicy_of_active hnow hactive hp, Except.ok.injEq, Option.some.injEq, exists_eq_left']
  unfold libraryRights Store.hasLibrary
  split
  · next hlib =>
    rw [hlib]
    cases action <;> simp [LibraryPolicy.allows, CredentialLibraryPolicy.allows]
  · next hlib =>
    cases action <;> simp [LibraryPolicy.allows, hlib]

/-- The listing of the rights, by the resolution of the policy. -/
theorem mem_listed_iff (hnow : 0 ≤ now) (hactive : isActiveAgentCredential key now s = true)
    (hpolicy : hasLibraryGrantPolicy key s = true) (libraryId : Id) (action : LibraryAction) :
    (∃ e ∈ listCredentialLibraryGrants key s, e.libraryId = libraryId ∧ action ∈ e.actions) ↔
      s.hasLibrary libraryId = true ∧ ResolvesAllowing key libraryId action now s := by
  obtain ⟨p, hp⟩ := Option.isSome_iff_exists.mp hpolicy
  rw [mem_listCredentialLibraryGrants hp, resolvesAllowing_iff hnow hactive hp]
  exact ⟨fun h => ⟨h.1, h⟩, fun h => h.2⟩

/-- The readable Libraries, by the resolution of the policy. -/
theorem mem_readableLibraries (hnow : 0 ≤ now) (hactive : isActiveAgentCredential key now s = true)
    (hpolicy : hasLibraryGrantPolicy key s = true) {libraryId : Id} :
    (∃ x ∈ readableLibraries key s, x.libraryId = libraryId) ↔
      ResolvesAllowing key libraryId .read now s := by
  have hlisted := mem_listed_iff hnow hactive hpolicy libraryId .read
  obtain ⟨p, hp⟩ := Option.isSome_iff_exists.mp hpolicy
  have hexists : ResolvesAllowing key libraryId .read now s → s.hasLibrary libraryId = true :=
    fun h => ((resolvesAllowing_iff hnow hactive hp).mp h).1
  rw [readableLibraries, if_pos hpolicy]
  constructor
  · rintro ⟨x, hx, rfl⟩
    obtain ⟨e, he, rfl⟩ := List.mem_map.mp hx
    obtain ⟨he, hread⟩ := List.mem_filter.mp he
    exact (hlisted.mp ⟨e, he, rfl, List.contains_iff_mem.mp hread⟩).2
  · intro h
    obtain ⟨e, he, hid, hread⟩ := hlisted.mpr ⟨hexists h, h⟩
    refine ⟨_, List.mem_map.mpr ⟨e, List.mem_filter.mpr ⟨he, ?_⟩, rfl⟩, hid⟩
    exact List.contains_iff_mem.mpr hread

theorem selectScopes_ok {readable scopes : List SearchScope} {searchQuery : SearchQuery}
    (h : selectScopes readable searchQuery s = .ok scopes) {libraryId : Id} :
    (∃ x ∈ scopes, x.libraryId = libraryId) ↔
      (∃ x ∈ readable, x.libraryId = libraryId) ∧ ∀ named ∈ searchQuery.libraries,
        libraryId ∈ named := by
  simp only [selectScopes, Fallible.bind_ok, Fallible.pure_ok, Fallible.check_ok] at h
  obtain ⟨selected, hselect, -, -, rfl⟩ := h
  cases hnamed : searchQuery.libraries with
  | none =>
    rw [hnamed, selectLibraries, Fallible.pure_ok] at hselect
    rw [← hselect]
    simp [List.mem_insertionSort]
  | some named =>
    rw [hnamed, selectLibraries] at hselect
    simp only [Fallible.mem_of_mapM hselect, Fallible.get_ok, Option.mem_some_iff, forall_eq']
    constructor
    · rintro ⟨x, ⟨id, hid, hfind⟩, rfl⟩
      have hlib : x.libraryId = id := by simpa using List.find?_some hfind
      exact ⟨⟨x, List.mem_of_find?_eq_some hfind, rfl⟩, hlib ▸ hid⟩
    · rintro ⟨⟨x, hx, rfl⟩, hid⟩
      cases hfind : readable.find? fun y => decide (y.libraryId = x.libraryId) with
      | none =>
        have hnot := List.find?_eq_none.mp hfind x hx
        simp at hnot
      | some y =>
        have hlib : y.libraryId = x.libraryId := by simpa using List.find?_some hfind
        exact ⟨y, ⟨x.libraryId, hid, hfind⟩, hlib⟩

theorem selectScopes_raises (readable : List SearchScope) (searchQuery : SearchQuery) (s : Store) :
    Fallible.RaisesOnly .searchScope (selectScopes readable searchQuery s) := by
  refine .bind ?_ fun selected => .bind (.check _) fun _ => .ok _
  unfold selectLibraries
  split
  · exact .ok _
  · exact .mapM (fun _ => .get _) _

/-- The supplied identity is found active, or it is refused. -/
theorem currentIdentity_isOk (hs : AuthSound s) {supplied : AuthenticatedCaller}
    (hkind : supplied.caller.kind = .agent)
    (hversion : supplied.credential.tokenVersion = tokenVersion) :
    (∃ found, currentIdentity supplied now s = .ok found) ↔
      isActiveAgentCredential supplied.key now s = true := by
  rw [hs.isActiveAgentCredential_iff]
  simp only [currentIdentity, Fallible.bind_ok, Fallible.check_ok, Fallible.get_ok, hkind,
    true_and, exists_const, Fallible.pure_ok]
  constructor
  · rintro ⟨_, k, hk, c, hc, ⟨hagent, henabled, hactive, -⟩, rfl⟩
    exact ⟨⟨c, hc, hactive⟩, k, hk, hagent, henabled⟩
  · rintro ⟨⟨c, hc, hactive⟩, k, hk, hagent, henabled⟩
    have hstored : c.tokenVersion = 1 :=
      (hs.credentialChecks c (hs.getCredential_eq.mp hc).1).tokenVersion
    exact ⟨_, k, hk, c, hc, ⟨hagent, henabled, hactive, hstored.trans hversion.symm⟩, rfl⟩

theorem currentIdentity_raises (supplied : AuthenticatedCaller) (now : ℤ) (s : Store) :
    Fallible.RaisesOnly .authentication (currentIdentity supplied now s) := by
  refine .bind (.check _) fun _ => .bind (.get _) fun k => .bind (.get _) fun c => ?_
  exact .bind (.check _) fun _ => .ok _

end

/-- The scope of a search refuses a principal that is not active. -/
theorem currentScope_refused {s : Store} {now : ℤ} (hs : AuthSound s)
    {supplied : AuthenticatedCaller} (hkind : supplied.caller.kind = .agent)
    (hversion : supplied.credential.tokenVersion = tokenVersion) (searchQuery : SearchQuery) :
    currentScope supplied searchQuery now s = .error .authentication ↔
      isActiveAgentCredential supplied.key now s = false := by
  rw [← Bool.not_eq_true, ← currentIdentity_isOk hs hkind hversion, currentScope]
  cases hfound : currentIdentity supplied now s with
  | error e =>
    rw [currentIdentity_raises supplied now s e hfound]
    simp
  | ok found =>
    rw [Fallible.ok_bind]
    cases hselect : selectScopes (readableLibraries supplied.key s) searchQuery s with
    | ok scopes => simp [bind, Except.bind, pure, Except.pure]
    | error e =>
      rw [selectScopes_raises _ _ _ e hselect]
      simp

/-- **The listing of the rights, the scope of a search and the resolution of a
policy agree on every Library.** -/
theorem scope_agrees {s : Store} (hs : AuthSound s) {supplied : AuthenticatedCaller}
    (hkind : supplied.caller.kind = .agent)
    (hversion : supplied.credential.tokenVersion = tokenVersion) {now : ℤ} (hnow : 0 ≤ now) :
    (isActiveAgentCredential supplied.key now s = true →
      hasLibraryGrantPolicy supplied.key s = true →
        (∀ libraryId action, (∃ e ∈ listCredentialLibraryGrants supplied.key s,
            e.libraryId = libraryId ∧ action ∈ e.actions) ↔
          s.hasLibrary libraryId = true ∧ ResolvesAllowing supplied.key libraryId action now s) ∧
        (∃ resolved, currentScope supplied ⟨[], none⟩ now s = .ok resolved) ∧
        ∀ searchQuery resolved, currentScope supplied searchQuery now s = .ok resolved →
          ∀ libraryId, (∃ x ∈ resolved.scopes, x.libraryId = libraryId) ↔
            ResolvesAllowing supplied.key libraryId .read now s ∧
              ∀ named ∈ searchQuery.libraries, libraryId ∈ named) ∧
    ∀ searchQuery libraryId, currentScope supplied searchQuery now s = .error .authentication ↔
      resolveLibraryPolicy supplied.key libraryId now s = .ok none := by
  refine ⟨fun hactive hpolicy => ⟨mem_listed_iff hnow hactive hpolicy, ?_, ?_⟩, ?_⟩
  · obtain ⟨found, hfound⟩ := (currentIdentity_isOk hs hkind hversion).mpr hactive
    have hselect : selectScopes (readableLibraries supplied.key s) ⟨[], none⟩ s =
        .ok ((readableLibraries supplied.key s).insertionSort SearchScope.le) := by
      refine Fallible.bind_ok.mpr ⟨_, rfl, Fallible.bind_ok.mpr ⟨⟨⟩, ?_, rfl⟩⟩
      exact Fallible.check_of (fun t ht => absurd ht List.not_mem_nil) _
    rw [currentScope, hfound, Fallible.ok_bind, hselect]
    exact ⟨_, rfl⟩
  · intro searchQuery resolved h libraryId
    simp only [currentScope, Fallible.bind_ok, Fallible.pure_ok] at h
    obtain ⟨_, -, scopes, hselect, rfl⟩ := h
    rw [selectScopes_ok hselect, mem_readableLibraries hnow hactive hpolicy]
  · intro searchQuery libraryId
    rw [currentScope_refused hs hkind hversion, resolveLibraryPolicy_none hnow]

end

/-! The rights of an agent that may read every Library but one. -/

section Sample

attribute [local instance] asciiPlatform

def sampleHome : Id := List.replicate 32 'a'
def sampleHidden : Id := List.replicate 32 'b'

def sampleReader : AuthenticatedCaller where
  caller := ⟨List.replicate 32 'c', sampleHome, .agent, "Reader", "", 1, 0, 0, none⟩
  credential := ⟨List.replicate 32 'd', sampleHome, List.replicate 32 'c', List.replicate 22 'A',
    1, [], none, 0, 0, none, none, none, none⟩

def sampleReaderStore : Store where
  library := { libraries := [⟨sampleHidden, "Hidden", 0⟩, ⟨sampleHome, "Home", 0⟩] }
  auth :=
    { callers := [sampleReader.caller]
      credentials := [sampleReader.credential]
      credentialLibraryPolicies := [⟨sampleReader.credential.id, sampleReader.caller.id, sampleHome,
        .libraryGrants, .exclude, .include, 0⟩]
      credentialLibraryGrants := [⟨sampleReader.credential.id, sampleReader.caller.id, sampleHome,
        sampleHidden, .read⟩] }

theorem scope_agrees_sampleReader :
    (∃ x ∈ readableLibraries sampleReader.key sampleReaderStore, x.libraryId = sampleHome) ∧
      (∃ resolved, currentScope sampleReader ⟨[], none⟩ 1 sampleReaderStore = .ok resolved) ∧
      ∀ searchQuery resolved, currentScope sampleReader searchQuery 1 sampleReaderStore =
          .ok resolved →
        ∀ libraryId, (∃ x ∈ resolved.scopes, x.libraryId = libraryId) ↔
          ResolvesAllowing sampleReader.key libraryId .read 1 sampleReaderStore ∧
            ∀ named ∈ searchQuery.libraries, libraryId ∈ named := by
  have hsound : AuthSound sampleReaderStore := by decide +kernel
  have hkind : sampleReader.caller.kind = .agent := rfl
  have hversion : sampleReader.credential.tokenVersion = tokenVersion := rfl
  have hnow : (0 : ℤ) ≤ 1 := by decide
  have h := (scope_agrees hsound hkind hversion hnow).1 (by decide +kernel) (by decide +kernel)
  exact ⟨by decide +kernel, h.2⟩

end Sample

end PatchouliLib
