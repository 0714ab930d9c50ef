import PatchouliLib.Auth.Service
import PatchouliLib.Storage.AuthStatements

/-!
# The authentication repository

The reads and the writes of the access tables that the services share, and the
issue of a credential.  The scope of a credential is read in its stored form,
modes and selections, and expanded over the Libraries that exist.

## Main definitions

* `listCredentialLibrarySelections`, `getCredentialLibraryScope` — the stored
  scope of a credential.
* `listCredentialLibraryGrants` — the scope, expanded over the Libraries.
* `revokeCredential`, `markCredentialRotated`, `disableCaller` — the changes of
  callers and credentials.
* `generateToken`, `issueCredential` — a new token and its credential.

## Main results

* `mem_listCredentialLibrarySelections` — the selections are those of the rows.
* `mem_listCredentialLibraryGrants` — the expanded scope, by the policy row.
-/

namespace PatchouliLib

open Foundation

/-! ### Reads -/

def LibraryAction.wire : LibraryAction → Text
  | .read => "read"
  | .write => "write"

def SectionAction.wire : SectionAction → Text
  | .query => "section:query"
  | .pageRead => "page:read"
  | .archiveWrite => "archive:write"

def getCredential (key : CredentialKey) (s : Store) : Option Credential :=
  s.auth.credentials.find? fun c => c.key = key

def hasLibraryGrantPolicy (key : CredentialKey) (s : Store) : Bool :=
  (libraryGrantPolicy key s).isSome

/-- The rights of one credential on one Library. -/
structure CredentialLibraryGrantSummary where
  libraryId : Id
  actions : List LibraryAction
deriving DecidableEq

/-- `ORDER BY target_library_id, action`. -/
def CredentialLibraryGrant.le (a b : CredentialLibraryGrant) : Prop :=
  a.targetLibraryId < b.targetLibraryId ∨
    (a.targetLibraryId = b.targetLibraryId ∧ a.action.wire ≤ b.action.wire)

instance : DecidableRel CredentialLibraryGrant.le := fun a b => by
  unfold CredentialLibraryGrant.le
  infer_instance

/-- `grouped.setdefault(library_id, []).append(action)`. -/
def addAction (grouped : List CredentialLibraryGrantSummary) (g : CredentialLibraryGrant) :
    List CredentialLibraryGrantSummary :=
  if grouped.any (·.libraryId = g.targetLibraryId) then
    grouped.map fun e =>
      if e.libraryId = g.targetLibraryId then { e with actions := e.actions ++ [g.action] } else e
  else grouped ++ [⟨g.targetLibraryId, [g.action]⟩]

/-- List raw selected Libraries for an exact identity, in stable order. -/
def listCredentialLibrarySelections (key : CredentialKey) (s : Store) :
    List CredentialLibraryGrantSummary :=
  ((s.auth.credentialLibraryGrants.filter (·.owner = key)).insertionSort
    CredentialLibraryGrant.le).foldl addAction []

/-- Stored modes and selected Libraries. -/
structure CredentialLibraryScope where
  readMode : AccessMode
  writeMode : AccessMode
  readLibraries : List Id
  writeLibraries : List Id
  revision : ℕ
deriving DecidableEq

/-- The Libraries with the action among some selections. -/
def librariesWith (action : LibraryAction) (items : List CredentialLibraryGrantSummary) : List Id :=
  (items.filter (·.actions.contains action)).map (·.libraryId)

/-- Read stored modes and selected Libraries without expanding exclusions. -/
def getCredentialLibraryScope (key : CredentialKey) (s : Store) : Option CredentialLibraryScope :=
  (libraryGrantPolicy key s).map fun policy =>
    let selections := listCredentialLibrarySelections key s
    { readMode := policy.readMode
      writeMode := policy.writeMode
      readLibraries := librariesWith .read selections
      writeLibraries := librariesWith .write selections
      revision := policy.scopeRevision }

/-- The actions a scope allows on an existing Library. -/
def CredentialLibraryScope.actionsOn (scope : CredentialLibraryScope) (libraryId : Id) :
    List LibraryAction :=
  (if libraryScopeAllows scope.readMode (scope.readLibraries.contains libraryId) then [.read]
    else []) ++
  if libraryScopeAllows scope.writeMode (scope.writeLibraries.contains libraryId) then [.write]
  else []

/-- List effective rights over existing Libraries for an exact identity. -/
def listCredentialLibraryGrants (key : CredentialKey) (s : Store) :
    List CredentialLibraryGrantSummary :=
  match getCredentialLibraryScope key s with
  | none => []
  | some scope =>
    (((s.library.libraries.map (·.id)).insertionSort (· ≤ ·)).map fun libraryId =>
      ⟨libraryId, scope.actionsOn libraryId⟩).filter fun e => !e.actions.isEmpty

/-- `ORDER BY section_id, action`. -/
def SectionGrant.le (a b : SectionGrant) : Prop :=
  a.sectionId < b.sectionId ∨ (a.sectionId = b.sectionId ∧ a.action.wire ≤ b.action.wire)

instance : DecidableRel SectionGrant.le := fun a b => by
  unfold SectionGrant.le
  infer_instance

def listGrants (libraryId callerId : Id) (s : Store) : List SectionGrant :=
  (s.auth.sectionGrants.filter fun g =>
    g.libraryId = libraryId ∧ g.callerId = callerId).insertionSort SectionGrant.le

/-! ### Changes of callers and credentials -/

/-- Persist verifier and revealable Agent value together. -/
def addAgentCredentialWithValue [Platform] (credential : Credential) (tokenValue : Text) :
    Write Credential := do
  let parsed ← orThrow (parseToken tokenValue) .validation
  require (parsed.selector = credential.selector ∧ tokenVersion = credential.tokenVersion ∧
    parsed.verifier = credential.verifier) .validation
  insertCredential credential
  insertAgentTokenValue ⟨credential.id, tokenValue⟩
  pure credential

def Credential.revoke (c : Credential) (revokedAt : ℤ) : Credential :=
  { c with revokedAt := some revokedAt, updatedAt := revokedAt }

def revokeCredential (credential : Credential) (revokedAt : ℤ) : Write (Option Credential) := do
  let matched ← updateCredentials (·.isUsable credential) (·.revoke revokedAt)
  if matched = 1 then deleteAgentTokenValue credential.id else pure ⟨⟩
  query fun s => pure (getCredential credential.key s)

def Credential.rotate (c : Credential) (replacementId : Id) (rotatedAt : ℤ) : Credential :=
  { c with
    revokedAt := some rotatedAt
    rotatedAt := some rotatedAt
    rotatedToCredentialId := some replacementId
    updatedAt := rotatedAt }

def markCredentialRotated (credential : Credential) (replacementId : Id) (rotatedAt : ℤ) :
    Write (Option Credential) := do
  let matched ← updateCredentials (·.isUsable credential) (·.rotate replacementId rotatedAt)
  if matched = 1 then
    deleteAgentTokenValue credential.id
    query fun s => pure (getCredential credential.key s)
  else pure none

def disableCaller (libraryId callerId : Id) (disabledAt : ℤ) : Write (Option Caller) := do
  updateCallerDisabled libraryId callerId disabledAt
  query fun s => pure (getCaller libraryId callerId s)

/-! ### Issuing a credential -/

/-- A one-time token value with the metadata that is stored. -/
structure IssuedToken where
  value : Text
  selector : Text
  verifier : Bytes

/-- Generate a version-1 token from the bytes of the random source. -/
def generateToken [Platform] (selector secret : Bytes) : Option IssuedToken :=
  if selector.length = selectorBytes ∧ secret.length = secretBytes then
    some
      { value := tokenPrefix ++ '.' :: base64UrlEncode selector ++ '.' :: base64UrlEncode secret
        selector := base64UrlEncode selector
        verifier := sha256 (verifierDomain ++ selector ++ secret) }
  else none

/-- The random identifiers an issue is handed. -/
structure IssueEntropy where
  credentialId : Id
  selector : Bytes
  secret : Bytes

/-- `MAX_RFC3339_TIMESTAMP_MICROSECONDS`. -/
def maxRfc3339TimestampMicroseconds : ℤ := 253402300799999999

structure IssuedCredential where
  value : Text
  credential : Credential

/-- `CredentialIssuer.issue`: only new Agent values are stored for later reveal. -/
def issueCredential [Platform] (caller : Caller) (expiresAt : Option ℤ) (createdAt : ℤ)
    (entropy : IssueEntropy) : Write IssuedCredential := do
  require (expiresAt = none → caller.kind = .agent) .credentialExpiry
  require (∀ e ∈ expiresAt, createdAt < e ∧ e ≤ maxRfc3339TimestampMicroseconds) .credentialExpiry
  require (caller.disabledAt = none) .authentication
  let issued ← orThrow (generateToken entropy.selector entropy.secret) .identifierGeneration
  let credential : Credential :=
    { id := entropy.credentialId, libraryId := caller.libraryId, callerId := caller.id
      selector := issued.selector, tokenVersion := tokenVersion, verifier := issued.verifier
      expiresAt := expiresAt, createdAt := createdAt, updatedAt := createdAt, lastUsedAt := none
      revokedAt := none, rotatedAt := none, rotatedToCredentialId := none }
  match caller.kind with
  | .agent => do
    let stored ← addAgentCredentialWithValue credential issued.value
    pure ⟨issued.value, stored⟩
  | .operator => do
    insertCredential credential
    pure ⟨issued.value, credential⟩

/-! ### What the reads return -/

/-- A grouped row is one of the rows that were grouped. -/
theorem mem_foldl_addAction {rows : List CredentialLibraryGrant}
    {grouped : List CredentialLibraryGrantSummary} {libraryId : Id} {action : LibraryAction} :
    (∃ e ∈ rows.foldl addAction grouped, e.libraryId = libraryId ∧ action ∈ e.actions) ↔
      (∃ e ∈ grouped, e.libraryId = libraryId ∧ action ∈ e.actions) ∨
        ∃ g ∈ rows, g.targetLibraryId = libraryId ∧ g.action = action := by
  induction rows generalizing grouped with
  | nil => simp
  | cons g rows ih =>
    rw [List.foldl_cons, ih]
    -- one row adds its action to the entry of its Library, or begins that entry
    have hstep : (∃ e ∈ addAction grouped g, e.libraryId = libraryId ∧ action ∈ e.actions) ↔
        (∃ e ∈ grouped, e.libraryId = libraryId ∧ action ∈ e.actions) ∨
          (g.targetLibraryId = libraryId ∧ g.action = action) := by
      unfold addAction
      split
      · next hany =>
        obtain ⟨e₀, he₀, hlib⟩ : ∃ e ∈ grouped, e.libraryId = g.targetLibraryId := by
          simpa using hany
        constructor
        · rintro ⟨e, he, hid, hact⟩
          obtain ⟨e', he', rfl⟩ := List.mem_map.mp he
          by_cases hsame : e'.libraryId = g.targetLibraryId
          · rw [if_pos hsame] at hid hact
            rcases List.mem_append.mp hact with hact | hact
            · exact .inl ⟨e', he', hid, hact⟩
            · exact .inr ⟨hsame.symm.trans hid, (List.mem_singleton.mp hact).symm⟩
          · rw [if_neg hsame] at hid hact
            exact .inl ⟨e', he', hid, hact⟩
        · rintro (⟨e, he, hid, hact⟩ | ⟨hid, rfl⟩)
          · refine ⟨_, List.mem_map.mpr ⟨e, he, rfl⟩, ?_⟩
            by_cases hsame : e.libraryId = g.targetLibraryId
            · rw [if_pos hsame]
              exact ⟨hid, List.mem_append_left _ hact⟩
            · rw [if_neg hsame]
              exact ⟨hid, hact⟩
          · refine ⟨_, List.mem_map.mpr ⟨e₀, he₀, rfl⟩, ?_⟩
            rw [if_pos hlib]
            exact ⟨hlib.trans hid, List.mem_append_right _ (List.mem_singleton.mpr rfl)⟩
      · constructor
        · rintro ⟨e, he, hid, hact⟩
          rcases List.mem_append.mp he with he | he
          · exact .inl ⟨e, he, hid, hact⟩
          · obtain rfl := List.mem_singleton.mp he
            exact .inr ⟨hid, (List.mem_singleton.mp hact).symm⟩
        · rintro (⟨e, he, hid, hact⟩ | ⟨hid, rfl⟩)
          · exact ⟨e, List.mem_append_left _ he, hid, hact⟩
          · exact ⟨_, List.mem_append_right _ (List.mem_singleton.mpr rfl), hid,
              List.mem_singleton.mpr rfl⟩
    rw [hstep, or_assoc]
    simp only [List.mem_cons, exists_eq_or_imp]

theorem selectsLibrary_iff {key : CredentialKey} {libraryId : Id} {action : LibraryAction}
    {s : Store} : selectsLibrary key libraryId action s = true ↔
      ∃ g ∈ s.auth.credentialLibraryGrants, g.owner = key ∧ g.targetLibraryId = libraryId ∧
        g.action = action := by
  simp [selectsLibrary, and_assoc]

/-- **The selections are those of the rows.** -/
theorem mem_listCredentialLibrarySelections {key : CredentialKey} {libraryId : Id}
    {action : LibraryAction} {s : Store} :
    (∃ e ∈ listCredentialLibrarySelections key s, e.libraryId = libraryId ∧ action ∈ e.actions) ↔
      selectsLibrary key libraryId action s = true := by
  rw [listCredentialLibrarySelections, mem_foldl_addAction, selectsLibrary_iff]
  simp only [List.not_mem_nil, false_and, exists_false, false_or, List.mem_insertionSort,
    List.mem_filter, decide_eq_true_eq, and_assoc]

theorem mem_librariesWith {key : CredentialKey} {libraryId : Id} {action : LibraryAction}
    {s : Store} :
    libraryId ∈ librariesWith action (listCredentialLibrarySelections key s) ↔
      selectsLibrary key libraryId action s = true := by
  rw [← mem_listCredentialLibrarySelections]
  simp only [librariesWith, List.mem_map, List.mem_filter, List.contains_iff_mem, and_assoc]
  exact ⟨fun ⟨e, he, hact, hid⟩ => ⟨e, he, hid, hact⟩, fun ⟨e, he, hid, hact⟩ => ⟨e, he, hact, hid⟩⟩

theorem contains_librariesWith {key : CredentialKey} {libraryId : Id} {action : LibraryAction}
    {s : Store} :
    (librariesWith action (listCredentialLibrarySelections key s)).contains libraryId =
      selectsLibrary key libraryId action s := by
  rw [Bool.eq_iff_iff, List.contains_iff_mem, mem_librariesWith]

/-- What a policy allows on an existing Library. -/
def CredentialLibraryPolicy.allows (p : CredentialLibraryPolicy) (libraryId : Id)
    (action : LibraryAction) (s : Store) : Bool :=
  match action with
  | .read => libraryScopeAllows p.readMode (selectsLibrary p.owner libraryId .read s)
  | .write => libraryScopeAllows p.writeMode (selectsLibrary p.owner libraryId .write s)

theorem libraryGrantPolicy_owner {key : CredentialKey} {s : Store} {p : CredentialLibraryPolicy}
    (h : libraryGrantPolicy key s = some p) :
    p ∈ s.auth.credentialLibraryPolicies ∧ p.owner = key ∧ p.mode = .libraryGrants := by
  have hp : p.owner = key ∧ p.mode = .libraryGrants := by simpa using List.find?_some h
  exact ⟨List.mem_of_find?_eq_some h, hp⟩

theorem mem_actionsOn {key : CredentialKey} {s : Store} {p : CredentialLibraryPolicy}
    {scope : CredentialLibraryScope} (hp : libraryGrantPolicy key s = some p)
    (hscope : getCredentialLibraryScope key s = some scope) {libraryId : Id}
    {action : LibraryAction} :
    action ∈ scope.actionsOn libraryId ↔ p.allows libraryId action s = true := by
  rw [getCredentialLibraryScope, hp, Option.map_some, Option.some_inj] at hscope
  subst hscope
  simp only [CredentialLibraryScope.actionsOn, contains_librariesWith, List.mem_append,
    CredentialLibraryPolicy.allows, (libraryGrantPolicy_owner hp).2.1]
  cases action
  · split <;> split <;> simp_all
  · split <;> split <;> simp_all

/-- **The expanded scope, by the policy row.** -/
theorem mem_listCredentialLibraryGrants {key : CredentialKey} {s : Store}
    {p : CredentialLibraryPolicy} (hp : libraryGrantPolicy key s = some p) {libraryId : Id}
    {action : LibraryAction} :
    (∃ e ∈ listCredentialLibraryGrants key s, e.libraryId = libraryId ∧ action ∈ e.actions) ↔
      s.hasLibrary libraryId = true ∧ p.allows libraryId action s = true := by
  obtain ⟨scope, hscope⟩ : ∃ scope, getCredentialLibraryScope key s = some scope := by
    rw [getCredentialLibraryScope, hp]
    exact ⟨_, rfl⟩
  have hlibrary : s.hasLibrary libraryId = true ↔
      libraryId ∈ (s.library.libraries.map (·.id)).insertionSort (· ≤ ·) := by
    simp [Store.hasLibrary, List.mem_insertionSort]
  rw [← mem_actionsOn hp hscope, hlibrary, listCredentialLibraryGrants, hscope]
  constructor
  · rintro ⟨e, he, rfl, hact⟩
    obtain ⟨l, hl, rfl⟩ := List.mem_map.mp (List.mem_of_mem_filter he)
    exact ⟨hl, hact⟩
  · rintro ⟨hl, hact⟩
    refine ⟨⟨libraryId, scope.actionsOn libraryId⟩, ?_, rfl, hact⟩
    refine List.mem_filter.mpr ⟨List.mem_map.mpr ⟨libraryId, hl, rfl⟩, ?_⟩
    cases hempty : scope.actionsOn libraryId with
    | nil =>
      rw [hempty] at hact
      cases hact
    | cons => rfl

/-! ### Resolved policies -/

/-- A policy is not resolved for a credential that is not active. -/
theorem resolveLibraryPolicy_none {key : CredentialKey} {now : ℤ} {s : Store} (hnow : 0 ≤ now)
    {libraryId : Id} :
    resolveLibraryPolicy key libraryId now s = .ok none ↔
      isActiveAgentCredential key now s = false := by
  simp only [resolveLibraryPolicy, Fallible.bind_ok, Fallible.check_ok, hnow, true_and,
    exists_const]
  split
  · next hactive =>
    rw [hactive]
    cases libraryGrantPolicy key s <;> simp
  · next hactive => simp [hactive]

theorem resolveLibraryPolicy_of_active {key : CredentialKey} {now : ℤ} {s : Store} (hnow : 0 ≤ now)
    (hactive : isActiveAgentCredential key now s = true) {p : CredentialLibraryPolicy}
    (hp : libraryGrantPolicy key s = some p) {libraryId : Id} :
    resolveLibraryPolicy key libraryId now s = .ok (some (libraryRights p libraryId s)) := by
  simp only [resolveLibraryPolicy, Fallible.check_of hnow, Fallible.ok_bind, hactive, hp, if_true]
  rfl

end PatchouliLib
