import PatchouliLib.Content.PageLifecycle
import PatchouliLib.Content.PageMove
import PatchouliLib.Foundation.JsonReading

/-!
# Request fingerprints

A request is told from every other one by its fingerprint.  The fingerprint digests
the framed parts of the request: its metadata as a JSON text, and the bytes of its
content behind it.

## Main definitions

* `WriteCommand` — a command of any of the write operations.
* `WriteCommand.SameRequest` — two commands differ in nothing but the request id.

## Main results

* `digestRequestFingerprint_inj` — **the framed digest tells the parts.**
* `WriteCommand.fingerprint_eq_iff` — the fingerprint tells the request.
* `requestFingerprints_separate` — **equal fingerprints are those of the same request.**
-/

namespace PatchouliLib

open Foundation

section

variable [Platform]

/-! ### Framed digests -/

/-- What is digested of these parts. -/
def requestFingerprintInput (parts : List Bytes) : Bytes :=
  requestFingerprintDomain ++ parts.flatMap lengthFrame

theorem digestRequestFingerprint_eq (parts : List Bytes) :
    digestRequestFingerprint parts = sha256 (requestFingerprintInput parts) := rfl

omit [Platform] in
/-- The framing of the parts tells them, when their lengths fit. -/
theorem requestFingerprintInput_inj {parts parts' : List Bytes} (h : ∀ p ∈ parts, FitsFrame p)
    (h' : ∀ p ∈ parts', FitsFrame p)
    (heq : requestFingerprintInput parts = requestFingerprintInput parts') : parts = parts' :=
  SelfDelimiting.lengthFrame.flatMap_inj (fun part _ => lengthFrame_ne_nil part) h h'
    (List.append_cancel_left heq)

/-- **The framed digest tells the parts.** -/
theorem digestRequestFingerprint_inj {parts parts' : List Bytes} (h : ∀ p ∈ parts, FitsFrame p)
    (h' : ∀ p ∈ parts', FitsFrame p)
    (hinj : Set.InjOn sha256 {requestFingerprintInput parts, requestFingerprintInput parts'}) :
    digestRequestFingerprint parts = digestRequestFingerprint parts' ↔ parts = parts' := by
  constructor
  · intro heq
    exact requestFingerprintInput_inj h h'
      (hinj (Set.mem_insert _ _) (Set.mem_insert_of_mem _ rfl) heq)
  · rintro rfl
    rfl

/-! ### Commands -/

/-- A command of one of the write operations; the file list of a file-set command has
its manifest. -/
inductive WriteCommand where
  | createArchive (c : CreateArchiveCommand)
  | appendArchive (c : AppendArchiveRevisionCommand)
  | correctOccurrence (c : CorrectArchiveOccurrenceCommand)
  | archiveLifecycle (c : ArchiveLifecycleCommand) (action : LifecycleAction)
  | createFileSet (c : FileSetCreateCommand) (m : FileManifest)
      (h : buildFileManifest c.files = .ok m)
  | appendFileSet (c : FileSetAppendCommand) (m : FileManifest)
      (h : buildFileManifest c.files = .ok m)
  | movePage (c : PageMoveCommand)
  | pageLifecycle (c : PageLifecycleCommand)

namespace WriteCommand

/-- The fingerprint that the service of the operation computes. -/
def fingerprint : WriteCommand → Bytes
  | createArchive c => createFingerprint c
  | appendArchive c => revisionFingerprint c
  | correctOccurrence c => occurrenceFingerprint c
  | archiveLifecycle c action => archiveLifecycleFingerprint c action
  | createFileSet c m _ => fileSetCreateFingerprint c m
  | appendFileSet c m _ => fileSetAppendFingerprint c m
  | movePage c => moveFingerprint c
  | pageLifecycle c => lifecycleFingerprint c

/-- The two commands are of one operation and agree on every field but the request id;
file lists agree when their manifests do. -/
def SameRequest : WriteCommand → WriteCommand → Prop
  | createArchive c, createArchive c' => { c with requestId := c'.requestId } = c'
  | appendArchive c, appendArchive c' => { c with requestId := c'.requestId } = c'
  | correctOccurrence c, correctOccurrence c' => { c with requestId := c'.requestId } = c'
  | archiveLifecycle c action, archiveLifecycle c' action' =>
    { c with requestId := c'.requestId } = c' ∧ action = action'
  | createFileSet c m _, createFileSet c' m' _ =>
    { c with requestId := c'.requestId, files := c'.files } = c' ∧ m = m'
  | appendFileSet c m _, appendFileSet c' m' _ =>
    { c with requestId := c'.requestId, files := c'.files } = c' ∧ m = m'
  | movePage c, movePage c' => { c with requestId := c'.requestId } = c'
  | pageLifecycle c, pageLifecycle c' => { c with requestId := c'.requestId } = c'
  | _, _ => False

/-! ### The parts of a request -/

/-- The name of the operation, as the fingerprint has it. -/
def operation : WriteCommand → Text
  | createArchive _ => "archive-create-v1"
  | appendArchive _ => "archive-revise-v1"
  | correctOccurrence _ => "archive-correct-occurrence-v1"
  | archiveLifecycle _ action => "archive-" ++ action.text ++ "-v1"
  | createFileSet _ _ _ => "file-set-create-v1"
  | appendFileSet _ _ _ => "file-set-append-v1"
  | movePage _ => "caller-page-move-v1"
  | pageLifecycle _ => "caller-library-page-lifecycle-v1"

/-- The operation stands in the metadata, and not in a part of its own. -/
def isNamedInside : WriteCommand → Bool
  | movePage _ | pageLifecycle _ => false
  | _ => true

/-- The fields of the metadata. -/
def metadata : WriteCommand → List (Text × Json)
  | createArchive c =>
    [("book_id", .str c.bookId), ("library_id", .str c.libraryId),
      ("occurred_at", .ofOption .num c.occurredAt), ("operation", .str "archive-create-v1"),
      ("section_id", .str c.sectionId), ("source", jsonSource c.source), ("title", .str c.title)]
  | appendArchive c =>
    [("expected_etag", .ofOption .str c.expectedEtag), ("library_id", .str c.libraryId),
      ("operation", .str "archive-revise-v1"), ("page_id", .str c.pageId),
      ("section_id", .str c.sectionId), ("source", jsonSource c.source)]
  | correctOccurrence c =>
    [("expected_etag", .str c.expectedEtag), ("library_id", .str c.libraryId),
      ("occurred_at", .num c.occurredAt), ("operation", .str "archive-correct-occurrence-v1"),
      ("page_id", .str c.pageId), ("section_id", .str c.sectionId)]
  | archiveLifecycle c action =>
    [("expected_etag", .str c.expectedEtag), ("library_id", .str c.libraryId),
      ("operation", .str ("archive-" ++ action.text ++ "-v1")), ("page_id", .str c.pageId),
      ("section_id", .str c.sectionId)]
  | createFileSet c _ _ =>
    [(("book_id" : Text), .str c.bookId), ("library_id", .str c.libraryId),
        ("occurred_at", .ofOption .num c.occurredAt), ("operation", .str "file-set-create-v1")] ++
      jsonPrimaryFile c.primaryFile ++
      [(("section_id" : Text), .str c.sectionId), ("source", jsonSource c.source),
        ("title", .str c.title)]
  | appendFileSet c _ _ =>
    [(("expected_etag" : Text), .ofOption .str c.expectedEtag), ("library_id", .str c.libraryId),
        ("operation", .str "file-set-append-v1"), ("page_id", .str c.pageId)] ++
      jsonPrimaryFile c.primaryFile ++
      [(("section_id" : Text), .str c.sectionId), ("source", jsonSource c.source)]
  | movePage c =>
    [("expected_etag", .str c.expectedEtag), ("library_id", .str c.libraryId),
      ("page_id", .str c.pageId), ("source_book_id", .str c.sourceBookId),
      ("source_section_id", .str c.sourceSectionId), ("target_book_id", .str c.targetBookId),
      ("target_section_id", .str c.targetSectionId)]
  | pageLifecycle c =>
    [("action", .str c.action.text), ("expected_etag", .str c.expectedEtag),
      ("library_id", .str c.libraryId), ("page_id", .str c.pageId)]

/-- The parts behind the metadata. -/
def contents : WriteCommand → List Bytes
  | createArchive c => [c.contentMd]
  | appendArchive c => [c.contentMd]
  | createFileSet _ m _ | appendFileSet _ m _ =>
    bigEndian 8 m.files.length :: m.files.flatMap fun entry => [utf8Encode entry.name, entry.content]
  | _ => []

/-- The parts that are digested. -/
def parts (a : WriteCommand) : List Bytes :=
  if a.isNamedInside then utf8Encode (Json.dumps false (.obj a.metadata)) :: a.contents
  else [utf8Encode a.operation, utf8Encode (Json.dumps true (.obj a.metadata))]

theorem fingerprint_eq (a : WriteCommand) : a.fingerprint = digestRequestFingerprint a.parts := by
  cases a <;> rfl

/-! ### Telling the request from its parts -/

/-- The name of an operation that has a part of its own begins no JSON object. -/
theorem head?_operation {a : WriteCommand} (h : a.isNamedInside = false) :
    a.operation.head? = some 'c' := by
  cases a with
  | movePage c => rfl
  | pageLifecycle c => rfl
  | _ => cases h

theorem lookup_operation {a : WriteCommand} (h : a.isNamedInside = true) :
    a.metadata.lookup ("operation" : Text) = some (.str a.operation) := by
  cases a with
  | movePage c => cases h
  | pageLifecycle c => cases h
  | _ => rfl

/-- The parts tell the operation, the metadata and the content. -/
theorem of_parts_eq {a b : WriteCommand} (h : a.parts = b.parts) :
    a.operation = b.operation ∧ a.metadata = b.metadata ∧
      (a.isNamedInside = true → a.contents = b.contents) := by
  unfold parts at h
  cases ha : a.isNamedInside with
  | true =>
    cases hb : b.isNamedInside with
    | true =>
      rw [ha, hb] at h
      obtain ⟨hfirst, hcontents⟩ := List.cons.inj h
      have hmetadata := Json.dumps_injective false (utf8Encode_injective hfirst)
      have hfields : a.metadata = b.metadata := Json.obj.inj hmetadata
      refine ⟨?_, hfields, fun _ => hcontents⟩
      have hlookup := lookup_operation ha
      rw [hfields, lookup_operation hb] at hlookup
      exact (Json.str.inj (Option.some.inj hlookup)).symm
    | false =>
      rw [ha, hb] at h
      have hfirst := utf8Encode_injective (List.cons.inj h).1
      have hhead := Json.head?_dumps_obj false a.metadata
      rw [hfirst, head?_operation hb] at hhead
      exact absurd (Option.some.inj hhead) (by decide)
  | false =>
    cases hb : b.isNamedInside with
    | true =>
      rw [ha, hb] at h
      have hfirst := utf8Encode_injective (List.cons.inj h).1
      have hhead := Json.head?_dumps_obj false b.metadata
      rw [← hfirst, head?_operation ha] at hhead
      exact absurd (Option.some.inj hhead) (by decide)
    | false =>
      rw [ha, hb] at h
      obtain ⟨hfirst, hrest⟩ := List.cons.inj h
      have hsecond := Json.dumps_injective true (utf8Encode_injective (List.cons.inj hrest).1)
      exact ⟨utf8Encode_injective hfirst, Json.obj.inj hsecond, fun h => absurd h (by decide)⟩

omit [Platform] in
theorem ofOption_str_inj {a b : Option Text}
    (h : Json.ofOption .str a = Json.ofOption .str b) : a = b := by
  cases a <;> cases b <;> simp_all [Json.ofOption]

omit [Platform] in
theorem ofOption_num_inj {a b : Option ℤ}
    (h : Json.ofOption .num a = Json.ofOption .num b) : a = b := by
  cases a <;> cases b <;> simp_all [Json.ofOption]

omit [Platform] in
theorem jsonSource_inj {a b : ArchiveSourceInput} (h : jsonSource a = jsonSource b) : a = b := by
  simp only [jsonSource, Json.obj.injEq, List.cons.injEq, Prod.mk.injEq, true_and, and_true,
    Json.str.injEq] at h
  obtain ⟨hcaptured, hkind, hlocator⟩ := h
  obtain ⟨kind, locator, capturedAt⟩ := a
  obtain ⟨kind', locator', capturedAt'⟩ := b
  cases hkind
  cases ofOption_str_inj hlocator
  cases ofOption_num_inj hcaptured
  rfl

/-- The parts of the files tell the manifest. -/
theorem manifest_eq_of_contents {m m' : FileManifest}
    (h : (m.files.flatMap fun entry => [utf8Encode entry.name, entry.content]) =
      m'.files.flatMap fun entry => [utf8Encode entry.name, entry.content]) : m = m' := by
  have hframe : SelfDelimiting ManifestFile.Valid
      fun entry : ManifestFile => [utf8Encode entry.name, entry.content] := by
    rintro ⟨name, content, size, digest⟩ ⟨name', content', size', digest'⟩ r r' ha hb heq
    simp only [List.cons_append, List.nil_append, List.cons.injEq] at heq
    obtain ⟨hname, rfl, hrest⟩ := heq
    obtain rfl := utf8Encode_injective hname
    obtain ⟨-, -, hsize, hdigest⟩ := ha
    obtain ⟨-, -, hsize', hdigest'⟩ := hb
    cases hsize.trans hsize'.symm
    cases hdigest.trans hdigest'.symm
    exact ⟨rfl, hrest⟩
  exact FileManifest.ext_of_files (hframe.flatMap_inj (fun _ _ => List.cons_ne_nil _ _)
    m.valid.entries m'.valid.entries h)

omit [Platform] in
theorem lifecycleAction_text_inj {a b : LifecycleAction} (h : a.text = b.text) : a = b := by
  cases a <;> cases b <;> first | rfl | exact absurd h (by decide)

/-- The constructor of a command. -/
def index : WriteCommand → ℕ
  | createArchive _ => 0
  | appendArchive _ => 1
  | correctOccurrence _ => 2
  | archiveLifecycle _ .delete => 3
  | archiveLifecycle _ .restore => 4
  | createFileSet _ _ _ => 5
  | appendFileSet _ _ _ => 6
  | movePage _ => 7
  | pageLifecycle _ => 8

/-- The names of the operations. -/
def operations : List Text :=
  ["archive-create-v1", "archive-revise-v1", "archive-correct-occurrence-v1", "archive-delete-v1",
    "archive-restore-v1", "file-set-create-v1", "file-set-append-v1", "caller-page-move-v1",
    "caller-library-page-lifecycle-v1"]

theorem getElem?_operations (a : WriteCommand) : operations[a.index]? = some a.operation := by
  cases a with
  | archiveLifecycle c action => cases action <;> rfl
  | _ => rfl

/-- The name of the operation tells the constructor. -/
theorem index_eq_of_operation {a b : WriteCommand} (h : a.operation = b.operation) :
    a.index = b.index := by
  have hnodup : operations.Nodup := by decide
  have ha := getElem?_operations a
  have hb := getElem?_operations b
  rw [h, ← hb] at ha
  exact (List.getElem?_inj (List.getElem?_eq_some_iff.mp (getElem?_operations a)).1 hnodup).mp ha

omit [Platform] in
/-- The optional field is told from the one behind it. -/
theorem jsonPrimaryFile_append_inj {p p' : Option Text} {v v' : Json} {xs xs' : List (Text × Json)}
    (h : jsonPrimaryFile p ++ (("section_id" : Text), v) :: xs =
      jsonPrimaryFile p' ++ (("section_id" : Text), v') :: xs') : p = p' ∧ v = v' ∧ xs = xs' := by
  have hne : ("primary_file" : Text) ≠ "section_id" := by decide
  cases p with
  | none =>
    cases p' with
    | none =>
      obtain ⟨hfield, hrest⟩ := List.cons.inj h
      exact ⟨rfl, (Prod.mk.inj hfield).2, hrest⟩
    | some name => exact absurd (Prod.mk.inj (List.cons.inj h).1).1.symm hne
  | some name =>
    cases p' with
    | none => exact absurd (Prod.mk.inj (List.cons.inj h).1).1 hne
    | some name' =>
      obtain ⟨hfirst, hrest⟩ := List.cons.inj h
      obtain ⟨hfield, hxs⟩ := List.cons.inj hrest
      exact ⟨congrArg some (Json.str.inj (Prod.mk.inj hfirst).2), (Prod.mk.inj hfield).2, hxs⟩

/-! ### The operations, one by one -/

theorem sameRequest_createArchive {c c' : CreateArchiveCommand}
    (hmetadata : (createArchive c).metadata = (createArchive c').metadata)
    (hcontents : (createArchive c).contents = (createArchive c').contents) :
    (createArchive c).SameRequest (createArchive c') := by
  simp only [metadata, List.cons.injEq, Prod.mk.injEq, Json.str.injEq, true_and, and_true]
    at hmetadata
  obtain ⟨hbook, hlibrary, hoccurred, hsection, hsource, htitle⟩ := hmetadata
  obtain ⟨libraryId, sectionId, bookId, title, occurredAt, contentMd, source, requestId⟩ := c
  cases hbook
  cases hlibrary
  cases ofOption_num_inj hoccurred
  cases hsection
  cases jsonSource_inj hsource
  cases htitle
  cases (List.cons.inj hcontents).1
  rfl

theorem sameRequest_appendArchive {c c' : AppendArchiveRevisionCommand}
    (hmetadata : (appendArchive c).metadata = (appendArchive c').metadata)
    (hcontents : (appendArchive c).contents = (appendArchive c').contents) :
    (appendArchive c).SameRequest (appendArchive c') := by
  simp only [metadata, List.cons.injEq, Prod.mk.injEq, Json.str.injEq, true_and, and_true]
    at hmetadata
  obtain ⟨hetag, hlibrary, hpage, hsection, hsource⟩ := hmetadata
  obtain ⟨libraryId, sectionId, pageId, expectedEtag, source, contentMd, requestId⟩ := c
  cases ofOption_str_inj hetag
  cases hlibrary
  cases hpage
  cases hsection
  cases jsonSource_inj hsource
  cases (List.cons.inj hcontents).1
  rfl

theorem sameRequest_correctOccurrence {c c' : CorrectArchiveOccurrenceCommand}
    (hmetadata : (correctOccurrence c).metadata = (correctOccurrence c').metadata) :
    (correctOccurrence c).SameRequest (correctOccurrence c') := by
  simp only [metadata, List.cons.injEq, Prod.mk.injEq, Json.str.injEq, Json.num.injEq, true_and,
    and_true] at hmetadata
  obtain ⟨hetag, hlibrary, hoccurred, hpage, hsection⟩ := hmetadata
  obtain ⟨libraryId, sectionId, pageId, expectedEtag, occurredAt, requestId⟩ := c
  cases hetag
  cases hlibrary
  cases hoccurred
  cases hpage
  cases hsection
  rfl

theorem sameRequest_archiveLifecycle {c c' : ArchiveLifecycleCommand} {action : LifecycleAction}
    (hmetadata : (archiveLifecycle c action).metadata = (archiveLifecycle c' action).metadata) :
    (archiveLifecycle c action).SameRequest (archiveLifecycle c' action) := by
  simp only [metadata, List.cons.injEq, Prod.mk.injEq, Json.str.injEq, true_and, and_true]
    at hmetadata
  obtain ⟨hetag, hlibrary, hpage, hsection⟩ := hmetadata
  obtain ⟨libraryId, sectionId, pageId, expectedEtag, requestId⟩ := c
  cases hetag
  cases hlibrary
  cases hpage
  cases hsection
  exact ⟨rfl, rfl⟩

theorem sameRequest_createFileSet {c c' : FileSetCreateCommand} {m m' : FileManifest}
    {hm : buildFileManifest c.files = .ok m} {hm' : buildFileManifest c'.files = .ok m'}
    (hmetadata : (createFileSet c m hm).metadata = (createFileSet c' m' hm').metadata)
    (hcontents : (createFileSet c m hm).contents = (createFileSet c' m' hm').contents) :
    (createFileSet c m hm).SameRequest (createFileSet c' m' hm') := by
  simp only [metadata, List.cons_append, List.nil_append, List.cons.injEq, Prod.mk.injEq,
    Json.str.injEq, true_and] at hmetadata
  obtain ⟨hbook, hlibrary, hoccurred, hrest⟩ := hmetadata
  obtain ⟨hprimary, hsection, hlast⟩ := jsonPrimaryFile_append_inj hrest
  simp only [List.cons.injEq, Prod.mk.injEq, Json.str.injEq, true_and, and_true] at hlast
  obtain ⟨hsource, htitle⟩ := hlast
  obtain ⟨libraryId, sectionId, bookId, title, occurredAt, files, source, requestId,
    primaryFile⟩ := c
  cases hbook
  cases hlibrary
  cases ofOption_num_inj hoccurred
  cases hprimary
  cases Json.str.inj hsection
  cases jsonSource_inj hsource
  cases htitle
  exact ⟨rfl, manifest_eq_of_contents (List.cons.inj hcontents).2⟩

theorem sameRequest_appendFileSet {c c' : FileSetAppendCommand} {m m' : FileManifest}
    {hm : buildFileManifest c.files = .ok m} {hm' : buildFileManifest c'.files = .ok m'}
    (hmetadata : (appendFileSet c m hm).metadata = (appendFileSet c' m' hm').metadata)
    (hcontents : (appendFileSet c m hm).contents = (appendFileSet c' m' hm').contents) :
    (appendFileSet c m hm).SameRequest (appendFileSet c' m' hm') := by
  simp only [metadata, List.cons_append, List.nil_append, List.cons.injEq, Prod.mk.injEq,
    Json.str.injEq, true_and] at hmetadata
  obtain ⟨hetag, hlibrary, hpage, hrest⟩ := hmetadata
  obtain ⟨hprimary, hsection, hlast⟩ := jsonPrimaryFile_append_inj hrest
  simp only [List.cons.injEq, Prod.mk.injEq, true_and, and_true] at hlast
  obtain ⟨libraryId, sectionId, pageId, expectedEtag, files, source, requestId, primaryFile⟩ := c
  cases ofOption_str_inj hetag
  cases hlibrary
  cases hpage
  cases hprimary
  cases Json.str.inj hsection
  cases jsonSource_inj hlast
  exact ⟨rfl, manifest_eq_of_contents (List.cons.inj hcontents).2⟩

theorem sameRequest_movePage {c c' : PageMoveCommand}
    (hmetadata : (movePage c).metadata = (movePage c').metadata) :
    (movePage c).SameRequest (movePage c') := by
  simp only [metadata, List.cons.injEq, Prod.mk.injEq, Json.str.injEq, true_and, and_true]
    at hmetadata
  obtain ⟨hetag, hlibrary, hpage, hsourceBook, hsourceSection, htargetBook, htargetSection⟩ :=
    hmetadata
  obtain ⟨libraryId, pageId, sourceSectionId, sourceBookId, targetSectionId, targetBookId,
    expectedEtag, requestId⟩ := c
  cases hetag
  cases hlibrary
  cases hpage
  cases hsourceBook
  cases hsourceSection
  cases htargetBook
  cases htargetSection
  rfl

theorem sameRequest_pageLifecycle {c c' : PageLifecycleCommand}
    (hmetadata : (pageLifecycle c).metadata = (pageLifecycle c').metadata) :
    (pageLifecycle c).SameRequest (pageLifecycle c') := by
  simp only [metadata, List.cons.injEq, Prod.mk.injEq, Json.str.injEq, true_and, and_true]
    at hmetadata
  obtain ⟨haction, hetag, hlibrary, hpage⟩ := hmetadata
  obtain ⟨libraryId, pageId, action, expectedEtag, requestId⟩ := c
  cases lifecycleAction_text_inj haction
  cases hetag
  cases hlibrary
  cases hpage
  rfl

/-- The parts tell the request. -/
theorem sameRequest_of_parts {a b : WriteCommand} (h : a.parts = b.parts) : a.SameRequest b := by
  obtain ⟨hoperation, hmetadata, hcontents⟩ := of_parts_eq h
  have hindex := index_eq_of_operation hoperation
  cases a with
  | createArchive c =>
    cases b with
    | createArchive c' => exact sameRequest_createArchive hmetadata (hcontents rfl)
    | archiveLifecycle c' action' => cases action' <;> cases hindex
    | _ => cases hindex
  | appendArchive c =>
    cases b with
    | appendArchive c' => exact sameRequest_appendArchive hmetadata (hcontents rfl)
    | archiveLifecycle c' action' => cases action' <;> cases hindex
    | _ => cases hindex
  | correctOccurrence c =>
    cases b with
    | correctOccurrence c' => exact sameRequest_correctOccurrence hmetadata
    | archiveLifecycle c' action' => cases action' <;> cases hindex
    | _ => cases hindex
  | archiveLifecycle c action =>
    cases b with
    | archiveLifecycle c' action' =>
      obtain rfl : action = action' := by
        cases action <;> cases action' <;> first | rfl | cases hindex
      exact sameRequest_archiveLifecycle hmetadata
    | _ => cases action <;> cases hindex
  | createFileSet c m hm =>
    cases b with
    | createFileSet c' m' hm' => exact sameRequest_createFileSet hmetadata (hcontents rfl)
    | archiveLifecycle c' action' => cases action' <;> cases hindex
    | _ => cases hindex
  | appendFileSet c m hm =>
    cases b with
    | appendFileSet c' m' hm' => exact sameRequest_appendFileSet hmetadata (hcontents rfl)
    | archiveLifecycle c' action' => cases action' <;> cases hindex
    | _ => cases hindex
  | movePage c =>
    cases b with
    | movePage c' => exact sameRequest_movePage hmetadata
    | archiveLifecycle c' action' => cases action' <;> cases hindex
    | _ => cases hindex
  | pageLifecycle c =>
    cases b with
    | pageLifecycle c' => exact sameRequest_pageLifecycle hmetadata
    | archiveLifecycle c' action' => cases action' <;> cases hindex
    | _ => cases hindex

/-- The same request has the same fingerprint. -/
theorem fingerprint_eq_of_sameRequest {a b : WriteCommand} (h : a.SameRequest b) :
    a.fingerprint = b.fingerprint := by
  cases a <;> cases b <;> simp only [SameRequest] at h
  case createArchive.createArchive c c' => rw [← h]; rfl
  case appendArchive.appendArchive c c' => rw [← h]; rfl
  case correctOccurrence.correctOccurrence c c' => rw [← h]; rfl
  case archiveLifecycle.archiveLifecycle c action c' action' => rw [← h.1, h.2]; rfl
  case createFileSet.createFileSet c m hm c' m' hm' =>
    show fileSetCreateFingerprint c m = fileSetCreateFingerprint c' m'
    rw [← h.1, h.2]
    rfl
  case appendFileSet.appendFileSet c m hm c' m' hm' =>
    show fileSetAppendFingerprint c m = fileSetAppendFingerprint c' m'
    rw [← h.1, h.2]
    rfl
  case movePage.movePage c c' => rw [← h]; rfl
  case pageLifecycle.pageLifecycle c c' => rw [← h]; rfl

/-- **The fingerprint tells the request.** -/
theorem fingerprint_eq_iff {a b : WriteCommand} (ha : ∀ p ∈ a.parts, FitsFrame p)
    (hb : ∀ p ∈ b.parts, FitsFrame p)
    (hinj : Set.InjOn sha256 {requestFingerprintInput a.parts, requestFingerprintInput b.parts}) :
    a.fingerprint = b.fingerprint ↔ a.SameRequest b := by
  constructor
  · intro h
    rw [fingerprint_eq, fingerprint_eq, digestRequestFingerprint_inj ha hb hinj] at h
    exact sameRequest_of_parts h
  · exact fingerprint_eq_of_sameRequest

end WriteCommand

/-- **The fingerprints of two requests are equal exactly when the requests are the same**,
whatever their operations, and the framing of the parts is told from the digest. -/
theorem requestFingerprints_separate :
    (∀ parts parts' : List Bytes, (∀ p ∈ parts, FitsFrame p) → (∀ p ∈ parts', FitsFrame p) →
      Set.InjOn sha256 {requestFingerprintInput parts, requestFingerprintInput parts'} →
      (digestRequestFingerprint parts = digestRequestFingerprint parts' ↔ parts = parts')) ∧
    ∀ a b : WriteCommand, (∀ p ∈ a.parts, FitsFrame p) → (∀ p ∈ b.parts, FitsFrame p) →
      Set.InjOn sha256 {requestFingerprintInput a.parts, requestFingerprintInput b.parts} →
      (a.fingerprint = b.fingerprint ↔ a.SameRequest b) :=
  ⟨fun _ _ h h' hinj => digestRequestFingerprint_inj h h' hinj,
    fun _ _ ha hb hinj => WriteCommand.fingerprint_eq_iff ha hb hinj⟩

end

section Sample

attribute [local instance] shaPlatform

/-- A create of a Page with this title. -/
def sampleCommand (title requestId : Text) : WriteCommand :=
  .createArchive
    { libraryId := "lib", sectionId := "sec", bookId := "one", title := title, occurredAt := none
      contentMd := utf8Encode "hello", source := ⟨"chat", none, none⟩, requestId := requestId }

instance (part : Bytes) : Decidable (FitsFrame part) := by
  unfold FitsFrame
  infer_instance

theorem requestFingerprints_separate_sample :
    (sampleCommand "A" "first").fingerprint = (sampleCommand "A" "second").fingerprint ∧
      (sampleCommand "A" "first").fingerprint ≠ (sampleCommand "B" "first").fingerprint := by
  have hfits : ∀ title ∈ (["A", "B"] : List String),
      ∀ p ∈ (sampleCommand title "first").parts, FitsFrame p := by decide +kernel
  have hdistinct : sha256 (requestFingerprintInput (sampleCommand "A" "first").parts) ≠
      sha256 (requestFingerprintInput (sampleCommand "B" "first").parts) := by decide +kernel
  constructor
  · refine (requestFingerprints_separate.2 (sampleCommand "A" "first") (sampleCommand "A" "second")
      (hfits "A" (by simp)) (hfits "A" (by simp)) ?_).mpr rfl
    show Set.InjOn _ {_, requestFingerprintInput (sampleCommand "A" "first").parts}
    rw [Set.pair_eq_singleton]
    exact Set.injOn_singleton _ _
  · rw [ne_eq, requestFingerprints_separate.2 (sampleCommand "A" "first")
      (sampleCommand "B" "first") (hfits "A" (by simp)) (hfits "B" (by simp))
      ((Set.injOn_pair).mpr fun h => absurd h hdistinct)]
    intro h
    exact absurd (congrArg CreateArchiveCommand.title h) (by decide)

end Sample

end PatchouliLib
