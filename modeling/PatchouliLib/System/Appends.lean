import PatchouliLib.System.Restores

/-!
# Appending a file set

An append compares the stored snapshot and its presentation with the ones it is asked
for.  Either nothing is written, or the Page is at one new Revision that reads back as
the manifest of the input.  To append the same again under the new validator writes
nothing, and the order of the files does not matter.

## Main definitions

* `appendOutcome` — an append inside its savepoint.
* `FileSetAppend.Repeats` — the same files and the same presentation once more.

## Main results

* `appendExistingPage_perm` — the order of the files does not matter.
* `appendExistingPage_again` — an append that is repeated writes nothing.
* `appendExistingPage_exact` — **an append writes nothing or exactly one Revision.**
-/

namespace PatchouliLib

open Foundation

section

variable [Platform]

/-- An append as its caller sees it: a failure goes back to the savepoint. -/
def appendOutcome (command : FileSetAppend) (c : Connection) :
    Except Err FileSetAppendResult × Connection :=
  match appendExistingPage command c with
  | .ok (result, c') => (.ok result, c')
  | .error e => (.error e, c)

/-- **The order of the files does not matter.** -/
theorem appendExistingPage_perm (command : FileSetAppend) {files : List (Text × Bytes)}
    (hperm : command.files.Perm files) :
    appendExistingPage { command with files := files } = appendExistingPage command := by
  have hbuild := buildFileManifest_perm hperm
  have hpresentation : ∀ manifest, ({ command with files := files } : FileSetAppend).presentation
      manifest = command.presentation manifest := fun _ => rfl
  simp only [appendExistingPage, ← hbuild, hpresentation]
  rfl

/-! ### The row that an append writes -/

theorem validateRecord_of_getPage {libraryId : Id} {identifierText : Text} {s : Store} {page : Page}
    (h : getPage libraryId identifierText s = .ok (some page)) :
    page.validateRecord = .ok page := by
  simp only [getPage, Fallible.bind_ok] at h
  obtain ⟨digest, -, h⟩ := h
  split at h
  · cases h
  · next p _ =>
    simp only [Fallible.bind_ok, Fallible.pure_ok, Option.some.injEq] at h
    obtain ⟨q, hvalid, rfl⟩ := h
    obtain rfl := Page.eq_of_validateRecord hvalid
    exact hvalid

omit [Platform] in
/-- A valid row that is advanced is a valid row. -/
theorem validateRecord_advanced {page : Page} {revisionId id : Text} {updatedAt : ℤ}
    (h : page.validateRecord = .ok page) (hid : validateRevisionId revisionId = .ok id)
    (hnumber : page.currentRevisionNumber < maxRevisionNumber) (hlive : page.deletedAt = none)
    (hclock : page.updatedAt < updatedAt) :
    (page.advanced revisionId (page.currentRevisionNumber + 1) updatedAt).validateRecord =
      .ok (page.advanced revisionId (page.currentRevisionNumber + 1) updatedAt) := by
  simp only [Page.validateRecord, Fallible.bind_ok, Fallible.pure_ok, Fallible.check_ok] at h ⊢
  obtain ⟨uid, huid, pageId, hpageId, _, -, _, ⟨-, hchecks⟩, expected, hexpected, _, hsame, -⟩ := h
  refine ⟨uid, huid, pageId, hpageId, id, hid, ⟨⟩, ⟨⟨?_, hnumber⟩, ?_⟩, expected, hexpected, ⟨⟩, hsame,
    trivial⟩
  · rw [Page.advanced_currentRevisionNumber]
    omega
  refine ⟨hchecks.title, hchecks.occurredAt, ⟨hchecks.created.1, ?_⟩, ?_⟩
  · exact hchecks.created.2.trans hclock.le
  · intro d hd
    rw [Page.advanced_deletedAt, hlive] at hd
    cases hd

/-- The advanced row has a validator, so an append that has written its rows does not
fail behind its savepoint. -/
theorem etag_advanced {page : Page} {etag revisionId id : Text} {updatedAt : ℤ}
    (h : page.etag = .ok etag) (hid : validateRevisionId revisionId = .ok id)
    (hnumber : page.currentRevisionNumber < maxRevisionNumber) (hclock : page.updatedAt < updatedAt)
    (hrange : InUtcRange updatedAt) :
    ∃ etag', (page.advanced revisionId (page.currentRevisionNumber + 1) updatedAt).etag =
      .ok etag' := by
  simp only [Page.etag, pageCurrentEtag, Fallible.bind_ok, Fallible.check_ok, Fallible.pure_ok] at h ⊢
  obtain ⟨uid, huid, _, -, _, -, _, ⟨hoccurred, hpositive, -⟩, -⟩ := h
  have hbound : maxUtcMicroseconds ≤ 2 ^ 63 - 1 := by decide
  refine ⟨_, uid, huid, id, hid, ⟨⟩, ⟨?_, hnumber⟩, ⟨⟩, ⟨hoccurred, ?_, ?_⟩, rfl⟩
  · rw [Page.advanced_currentRevisionNumber]
    omega
  · rw [Page.advanced_updatedAt]
    omega
  · exact hrange.2.trans hbound

/-- The identifier of a Page finds its new row. -/
theorem getPage_of_row {libraryId : Id} {identifierText : Text} {s t : Store} {page q : Page}
    (h : getPage libraryId identifierText s = .ok (some page)) (hgrow : IdentifiersGrow s t)
    (hrow : t.page? page.key = some q) (hvalid : q.validateRecord = .ok q) :
    getPage libraryId identifierText t = .ok (some q) := by
  obtain ⟨digest, i, hdigest, hi, -, hkey⟩ := getPage_ok h
  obtain ⟨added, hadded⟩ := hgrow.registry
  have hfound : t.content.pageIdentifierRegistry.find? (fun i => decide (i.libraryId = libraryId ∧
      i.identifierDigest = digest ∧ i.identifierText = identifierText)) = some i := by
    rw [← hadded, List.find?_append, hi, Option.some_or]
  rw [hkey] at hrow
  simp only [getPage, hdigest, Fallible.ok_bind, hfound, Option.bind_some, hrow, hvalid]
  rfl

/-! ### Repeating an append -/

/-- The same files, in any order, and the same presentation once more, for the state
with this validator. -/
structure FileSetAppend.Repeats (again command : FileSetAppend) (etag : Text) : Prop where
  page : again.libraryId = command.libraryId ∧ again.pageId = command.pageId
  files : command.files.Perm again.files
  presentation : again.primaryFile = command.primaryFile ∧
    again.presentationOverride = command.presentationOverride
  current : again.expectedEtag = etag

/-- An append to a Page that looks like it already writes nothing. -/
theorem appendExistingPage_noop {command : FileSetAppend} {manifest : FileManifest}
    {presentation : Presentation} {page : Page} {c : Connection}
    (hmanifest : buildFileManifest command.files = .ok manifest)
    (hpresentation : command.presentation manifest = .ok presentation)
    (hpage : getPage command.libraryId command.pageId c.store = .ok (some page))
    (hlive : page.deletedAt = none) (hetag : page.etag = .ok command.expectedEtag)
    (hsame : c.store.appearance page.currentRevision = (.ok manifest, presentation)) :
    appendExistingPage command c = .ok (⟨false, page, command.expectedEtag, manifest⟩, c) := by
  obtain ⟨hcurrent, hshown⟩ := Prod.mk.inj hsame
  simp only [appendExistingPage, bind_ok, attempt_ok, query_ok, orThrow_ok, require_ok,
    exists_and_left, exists_eq_left', and_assoc, exists_const]
  refine ⟨manifest, hmanifest, presentation, hpresentation, _, hpage, page, rfl, hlive, _, hetag, rfl,
    manifest, hcurrent, presentation, congrArg Except.ok hshown, ?_⟩
  rw [if_pos ⟨rfl, rfl⟩]
  rfl

/-- The row that an append leaves is live, valid and has the validator it returns. -/
theorem appended_row {command : FileSetAppend} {result : FileSetAppendResult} {c c' : Connection}
    (hsound : RevisionsSound c.store) (hids : IdentifiersSound c.store)
    (h : appendExistingPage command c = .ok (result, c')) :
    getPage command.libraryId command.pageId c'.store = .ok (some result.page) ∧
      result.page.deletedAt = none ∧ result.page.etag = .ok result.etag := by
  obtain ⟨manifest, presentation, page, -, -, hpage, hlive, hetag, h⟩ := appendExistingPage_cases h
  rcases h with ⟨-, rfl, rfl⟩ |
    ⟨-, ⟨id, hid⟩, hnumber, hclock, hrange, q, etag, hetag', hwrite, rfl⟩
  · exact ⟨hpage, hlive, hetag⟩
  · obtain ⟨-, -, -, -, hrow, -⟩ := getPage_ok hpage
    obtain ⟨rfl, hafter, -, -⟩ := writeFileSetRevision_ok hsound hids.keys hrow hwrite
    have hgrow := identifiersFrame.keeps_writeFileSetRevision _ _ _ _ _ _ _ hwrite hids
    have hvalid := validateRecord_advanced (validateRecord_of_getPage hpage) hid hnumber hlive hclock
    exact ⟨getPage_of_row hpage hgrow hafter hvalid, hlive, hetag'⟩

/-- **An append that is repeated writes nothing** and returns the same validator. -/
theorem appendExistingPage_again {command again : FileSetAppend} {result : FileSetAppendResult}
    {c c' d : Connection} (hsound : RevisionsSound c.store) (hids : IdentifiersSound c.store)
    (h : appendExistingPage command c = .ok (result, c')) (hd : d.store.content = c'.store.content)
    (hagain : again.Repeats command result.etag) :
    appendExistingPage again d = .ok ({ result with changed := false }, d) := by
  obtain ⟨hpage, hlive, hetag⟩ := appended_row hsound hids h
  obtain ⟨manifest, presentation, page, hmanifest, hpresentation, -, happended⟩ :=
    appendExistingPage_ok hsound hids.keys h
  have hresult : result.manifest = manifest := by
    obtain ⟨manifest', _, _, hmanifest', -, -, -, -, h⟩ := appendExistingPage_cases h
    obtain rfl : manifest = manifest' := Except.ok.inj (hmanifest.symm.trans hmanifest')
    rcases h with ⟨-, rfl, -⟩ | ⟨-, -, -, -, -, _, _, -, -, rfl⟩ <;> rfl
  obtain ⟨⟨hlibrary, hpageId⟩, hfiles, ⟨hprimary, hoverride⟩, hcurrent⟩ := hagain
  have hbuild : buildFileManifest again.files = .ok manifest := by
    rw [← buildFileManifest_perm hfiles, hmanifest]
  have hshown : again.presentation manifest = .ok presentation := by
    rw [← hpresentation, FileSetAppend.presentation, FileSetAppend.presentation, hprimary, hoverride]
  have hfound : getPage again.libraryId again.pageId d.store = .ok (some result.page) := by
    rw [hlibrary, hpageId, ← hpage]
    simp only [getPage, Store.page?, hd]
  have hsame : d.store.appearance result.page.currentRevision = (.ok manifest, presentation) := by
    rw [(SnapshotsSame.of_content hd).appearance_eq, happended.exact]
  rw [← hcurrent] at hetag
  rw [appendExistingPage_noop hbuild hshown hfound hlive hetag hsame, hcurrent, ← hresult]

/-! ### The result -/

/-- What an append to a Page does to the authority: nothing, because it failed or
because the Page looks like it already, or one new Revision that is current and reads
back as asked. -/
inductive AppendEffect (command : FileSetAppend) (manifest : FileManifest) (c : Connection) :
    Except Err FileSetAppendResult × Connection → Prop where
  | failed (e : Err) : AppendEffect command manifest c (.error e, c)
  | same {page : Page} {presentation : Presentation}
      (found : getPage command.libraryId command.pageId c.store = .ok (some page))
      (asked : command.presentation manifest = .ok presentation)
      (shown : c.store.appearance page.currentRevision = (.ok manifest, presentation)) :
      AppendEffect command manifest c (.ok ⟨false, page, command.expectedEtag, manifest⟩, c)
  | added {page q : Page} {etag : Text} {presentation : Presentation} {c' : Connection}
      (found : getPage command.libraryId command.pageId c.store = .ok (some page))
      (asked : command.presentation manifest = .ok presentation)
      (differs : c.store.appearance page.currentRevision ≠ (.ok manifest, presentation))
      (current : q = page.advanced command.revisionId (page.currentRevisionNumber + 1)
        command.revisionAt)
      (row : c'.store.page? page.key = some q)
      (revision : RevisionAdded (fileSetRevision q.currentRevision command.revisionAt)
        [⟨q.currentRevision, presentation.primaryFile, presentation.displayTitle⟩] c.store c'.store)
      (readBack : c'.store.appearance q.currentRevision = (.ok manifest, presentation)) :
      AppendEffect command manifest c (.ok ⟨true, q, etag, manifest⟩, c')

theorem appendEffect_of_sound {command : FileSetAppend} {manifest : FileManifest} {c : Connection}
    (hsound : RevisionsSound c.store) (hids : IdentifiersSound c.store)
    (hmanifest : buildFileManifest command.files = .ok manifest) :
    AppendEffect command manifest c (appendOutcome command c) := by
  unfold appendOutcome
  cases h : appendExistingPage command c with
  | error e => exact .failed e
  | ok outcome =>
    obtain ⟨result, c'⟩ := outcome
    obtain ⟨manifest', presentation, page, hmanifest', hasked, hpage, -, -, h⟩ :=
      appendExistingPage_cases h
    obtain rfl : manifest = manifest' := Except.ok.inj (hmanifest.symm.trans hmanifest')
    rcases h with ⟨hshown, rfl, rfl⟩ | ⟨hdiffers, -, -, -, -, q, etag, -, hwrite, rfl⟩
    · exact .same hpage hasked hshown
    · obtain ⟨-, -, -, -, hrow, -⟩ := getPage_ok hpage
      obtain ⟨hq, hafter, hexact, hadded⟩ := writeFileSetRevision_ok hsound hids.keys hrow hwrite
      exact .added hpage hasked hdiffers hq hafter hadded hexact

variable {visited : List Db} {db : Db}

/-- **An append writes nothing or exactly one Revision.**  In every reachable content,
and for every list of files that has a manifest: the append fails and leaves every table
as it is, or it finds the Page as it is asked to be and leaves every table as it is, or
it adds one Revision that is current and reads back as the manifest; the same append
under the new validator then writes nothing and returns the same; and any order of the
files gives the same result. -/
theorem appendExistingPage_exact (h : PageRun visited db) {c : Connection}
    (hc : c.store.content = db.store.content) {command : FileSetAppend} {manifest : FileManifest}
    (hmanifest : buildFileManifest command.files = .ok manifest) :
    AppendEffect command manifest c (appendOutcome command c) ∧
      (∀ result c', appendOutcome command c = (.ok result, c') →
        ∀ again d, again.Repeats command result.etag → d.store.content = c'.store.content →
          appendOutcome again d = (.ok { result with changed := false }, d)) ∧
      ∀ files, command.files.Perm files →
        appendOutcome { command with files := files } c = appendOutcome command c := by
  have hdb := h.mem_visited
  have hsound : RevisionsSound c.store := (h.revisionsSound db hdb).same (.of_content hc)
  have hids : IdentifiersSound c.store :=
    (IdentifiersGrow.of_eq (by rw [hc]) (by rw [hc]) (by rw [hc]) (h.identifiersSound db hdb)).sound
  refine ⟨appendEffect_of_sound hsound hids hmanifest, ?_, ?_⟩
  · intro result c' houtcome again d hagain hd
    have happend : appendExistingPage command c = .ok (result, c') := by
      unfold appendOutcome at houtcome
      split at houtcome
      · next hok =>
        obtain ⟨hresult, rfl⟩ := Prod.mk.inj houtcome
        rw [hok, Except.ok.inj hresult]
      · cases houtcome
    rw [appendOutcome, appendExistingPage_again hsound hids happend hd hagain]
  · intro files hperm
    rw [appendOutcome, appendOutcome, appendExistingPage_perm command hperm]

end

section Sample

attribute [local instance] asciiPlatform

/-- Two files for the Page that the agent wrote. -/
def sampleFileAppend : FileSetAppend where
  libraryId := "lib"
  pageId := samplePageId
  expectedEtag := sampleEtag sampleRewritten
  files := [("b.md", utf8Encode "# Two"), ("a.txt", utf8Encode "one")]
  revisionId := "rev_00000000000000000000000000000003"
  revisionAt := 3000
  source := ⟨"lib", "source-3", ⟨samplePageKey, "rev_00000000000000000000000000000003", 3⟩,
    ⟨"chat", none, none⟩, 3000⟩
  primaryFile := some "b.md"

/-- The append adds a Revision, and to append the files again adds none. -/
theorem appendExistingPage_exact_sample :
    ∃ manifest result c', appendOutcome sampleFileAppend ⟨sampleRewritten.store, []⟩ = (.ok result, c') ∧
      result.changed = true ∧
      AppendEffect sampleFileAppend manifest ⟨sampleRewritten.store, []⟩ (.ok result, c') ∧
      appendOutcome { sampleFileAppend with
          files := [("a.txt", utf8Encode "one"), ("b.md", utf8Encode "# Two")]
          expectedEtag := result.etag } c' = (.ok { result with changed := false }, c') := by
  have hchanged : (appendOutcome sampleFileAppend ⟨sampleRewritten.store, []⟩).1.toOption.map
      (·.changed) = some true := by decide +kernel
  have hbuild : (buildFileManifest sampleFileAppend.files).toOption.isSome := by decide +kernel
  cases hmanifest : buildFileManifest sampleFileAppend.files with
  | error e =>
    rw [hmanifest] at hbuild
    cases hbuild
  | ok manifest =>
    have hopen : (Connection.mk sampleRewritten.store []).store.content =
        sampleRewritten.store.content := by dsimp only
    obtain ⟨heffect, hagain, -⟩ := appendExistingPage_exact sampleRewrittenRun hopen hmanifest
    cases houtcome : appendOutcome sampleFileAppend ⟨sampleRewritten.store, []⟩ with
    | mk outcome c' =>
      cases outcome with
      | error e =>
        rw [houtcome] at hchanged
        cases hchanged
      | ok result =>
        rw [houtcome] at hchanged heffect
        refine ⟨manifest, result, c', rfl, Option.some.inj hchanged, heffect, ?_⟩
        refine hagain result c' houtcome _ c' ⟨⟨rfl, rfl⟩, ?_, ⟨rfl, rfl⟩, rfl⟩ rfl
        exact .swap _ _ _

end Sample

end PatchouliLib
