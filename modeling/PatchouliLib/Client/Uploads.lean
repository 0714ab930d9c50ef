import PatchouliLib.Client.Agreement

/-!
# Uploads and their entry file

The client sends the files of an upload under their normalized names.  The entry file
it sends as it was typed: the name is checked, and the normalized form that the check
returns is dropped.  The server compares it with the names of the files as it stands.

## Main definitions

* `FileSetMetadata`, `FileSetUpload.parts` — what the client accepts and sends.
* `uploadPresentation` — the entry file of what the server has received.

## Main results

* `exists_manifest_of_parts` — the server accepts the files that the client sends.
* `uploadPresentation_refused` — another spelling of the entry file is refused.
* `uploadPresentation_iff` — **the server finds the entry file exactly when it was typed in
  normal form.**
-/

namespace PatchouliLib.Client

open Foundation

section

variable [Platform]

/-! ### What the client accepts -/

/-- A file to upload. -/
structure FileSetFile where
  filename : Text
  body : Bytes

/-- `FileSetFile.__post_init__`. -/
def FileSetFile.validate (file : FileSetFile) : Except ClientError PUnit := do
  let _ ← requireFileSetName file.filename
  Fallible.check (file.body.length ≤ maxFileSetFileBytes) .value

structure FileSetSource where
  kind : Text
  locator : Option Text := none
  capturedAt : Option ℤ := none

/-- `FileSetSource.__post_init__`. -/
def FileSetSource.Checks (source : FileSetSource) : Prop :=
  (source.kind ≠ [] ∧ strip source.kind = source.kind ∧ source.kind.length ≤ 100 ∧
      nul ∉ source.kind) ∧
    ∀ l ∈ source.locator, l ≠ [] ∧ nul ∉ l

instance (source : FileSetSource) : Decidable source.Checks := by
  unfold FileSetSource.Checks
  infer_instance

/-- A field that is sent when it has a value. -/
def optionalField {α : Type} (name : Text) (f : α → Json) (value : Option α) : Fields :=
  (value.map fun a => (name, f a)).toList

def requiredField (name : Text) (value : Json) : Fields := [(name, value)]

/-- `FileSetSource.to_wire`, in the order in which the fields are sent. -/
def FileSetSource.toWire (source : FileSetSource) : Json :=
  .obj (optionalField "captured_at" .num source.capturedAt ++
    requiredField "kind" (.str source.kind) ++ optionalField "locator" .str source.locator)

/-- `FileSetCreateMetadata` and `FileSetRevisionMetadata`; a declared time is kept as it
is formatted. -/
inductive FileSetMetadata where
  | create (title : Text) (source : FileSetSource) (occurredAt primaryFile : Option Text)
  | revise (source : FileSetSource) (primaryFile : Option Text)

def FileSetMetadata.primaryFile : FileSetMetadata → Option Text
  | .create _ _ _ primaryFile => primaryFile
  | .revise _ primaryFile => primaryFile

/-- The entry file is a safe name; its normalized form is not kept. -/
def validatePrimaryFile : Option Text → Except ClientError PUnit
  | none => pure ⟨⟩
  | some primaryFile => do
    let _ ← requireFileSetName primaryFile
    pure ⟨⟩

/-- `__post_init__`. -/
def FileSetMetadata.validate : FileSetMetadata → Except ClientError PUnit
  | .create title source _ primaryFile => do
    Fallible.check (strip title ≠ []) .value
    Fallible.check source.Checks .value
    validatePrimaryFile primaryFile
  | .revise source primaryFile => do
    Fallible.check source.Checks .value
    validatePrimaryFile primaryFile

/-- `to_wire`, in the order in which the fields are sent. -/
def FileSetMetadata.toWire : FileSetMetadata → Fields
  | .create title source occurredAt primaryFile =>
    optionalField "occurred_at" .str occurredAt ++ optionalField "primary_file" .str primaryFile ++
      requiredField "source" source.toWire ++ requiredField "title" (.str title)
  | .revise source primaryFile =>
    optionalField "primary_file" .str primaryFile ++ requiredField "source" source.toWire

/-- The parts of a request: the metadata and the files in the order of their names. -/
structure FileSetParts where
  metadata : Fields
  files : List (Text × Bytes)

/-- The normalized name of a file and its content. -/
def normalizedPart (file : FileSetFile) : Except ClientError (Text × Bytes) := do
  let name ← requireFileSetName file.filename
  pure (name, file.body)

/-- The order of the encoded names. -/
def partLe (a b : Text × Bytes) : Prop := utf8Encode a.1 ≤ utf8Encode b.1

instance : DecidableRel partLe := fun a b => by
  unfold partLe
  infer_instance

/-- `build_file_set_multipart`, without the delimiters between the parts. -/
def buildFileSetMultipart (metadata : Fields) (files : List FileSetFile) :
    Except ClientError FileSetParts := do
  Fallible.check (1 ≤ files.length ∧ files.length ≤ maxFileSetFiles) .value
  let normalized ← files.mapM normalizedPart
  Fallible.check (normalized.map fun part => nfc (Platform.casefold part.1)).Nodup .value
  Fallible.check ((normalized.map (·.2.length)).sum ≤ maxFileSetPageBytes) .value
  let metadataBytes := utf8Encode (Json.dumps false (.obj metadata))
  Fallible.check (metadataBytes ≠ [] ∧ metadataBytes.length ≤ 64 * 1024) .value
  pure ⟨metadata, normalized.insertionSort partLe⟩

/-- What the user hands to the client. -/
structure FileSetUpload where
  metadata : FileSetMetadata
  files : List FileSetFile

/-- The parts of an upload that the client accepts. -/
def FileSetUpload.parts (upload : FileSetUpload) : Except ClientError FileSetParts := do
  let _ ← upload.metadata.validate
  let _ ← upload.files.mapM FileSetFile.validate
  buildFileSetMultipart upload.metadata.toWire upload.files

/-! ### What the server finds -/

/-- `metadata.get("primary_file")`. -/
def primaryFileOf (metadata : Fields) : Except Err (Option Text) :=
  match metadata.lookup ("primary_file" : Text) with
  | none | some .null => .ok none
  | some (.str primaryFile) => .ok (some primaryFile)
  | some _ => .error .validation

/-- The parsed files become the files of a command, whose entry file is then checked. -/
def uploadPresentation (parts : FileSetParts) : Except Err Presentation := do
  let received ← buildFileManifest parts.files
  let files := received.files.map fun entry => (entry.name, entry.content)
  let primaryFile ← primaryFileOf parts.metadata
  let manifest ← buildFileManifest files
  presentationFor manifest primaryFile

/-! ### Between the two -/

omit [Platform] in
/-- What is sent as the entry file is what was typed. -/
theorem primaryFileOf_toWire (metadata : FileSetMetadata) :
    primaryFileOf metadata.toWire = .ok metadata.primaryFile := by
  cases metadata with
  | create title source occurredAt primaryFile =>
    cases occurredAt <;> cases primaryFile <;> rfl
  | revise source primaryFile => cases primaryFile <;> rfl

/-- The parts that are sent. -/
theorem parts_ok {upload : FileSetUpload} {parts : FileSetParts} (h : upload.parts = .ok parts) :
    parts.metadata = upload.metadata.toWire ∧
      ∃ normalized, upload.files.mapM normalizedPart = .ok normalized ∧
        parts.files = normalized.insertionSort partLe ∧
        (1 ≤ upload.files.length ∧ upload.files.length ≤ maxFileSetFiles) ∧
        (∀ file ∈ upload.files, file.body.length ≤ maxFileSetFileBytes) ∧
        (normalized.map fun part => nfc (Platform.casefold part.1)).Nodup ∧
        (normalized.map (·.2.length)).sum ≤ maxFileSetPageBytes := by
  obtain ⟨_, -, h⟩ := Fallible.bind_ok.mp h
  obtain ⟨validated, hvalidated, h⟩ := Fallible.bind_ok.mp h
  simp only [buildFileSetMultipart, Fallible.bind_ok, Fallible.check_ok, Fallible.pure_ok,
    exists_and_left, exists_const] at h
  obtain ⟨hcount, normalized, hnormalized, hdistinct, hbound, -, rfl⟩ := h
  refine ⟨rfl, normalized, hnormalized, rfl, hcount, ?_, hdistinct, hbound⟩
  intro file hfile
  obtain ⟨w, hw⟩ := Fallible.exists_ok_of_mapM hvalidated file hfile
  simp only [FileSetFile.validate, Fallible.bind_ok, Fallible.check_ok, exists_and_right] at hw
  exact hw.2

/-- A name that was normalized is a safe name, and normal. -/
theorem normalizeFileName_of_require (hnfc : ∀ text : Text, nfc (nfc text) = nfc text)
    {value name : Text} (h : requireFileSetName value = .ok name) :
    normalizeFileName name = .ok name := by
  have hserver := requireFileSetName_iff.mp h
  have hshort := length_of_normalizeFileName hserver
  obtain ⟨-, hsafe, rfl⟩ := normalizeFileName_ok.mp hserver
  refine normalizeFileName_ok.mpr ⟨?_, by rwa [hnfc], hnfc value⟩
  calc (nfc value).length ≤ (utf8Encode (nfc value)).length := length_le_length_utf8Encode _
    _ ≤ maxFilenameBytes := hshort
    _ ≤ maxRawFilenameChars := by decide

/-- **The server accepts the files that the client sends**, under the names they are sent. -/
theorem exists_manifest_of_parts (hnfc : ∀ text : Text, nfc (nfc text) = nfc text)
    {upload : FileSetUpload} {parts : FileSetParts} (h : upload.parts = .ok parts) :
    ∃ manifest, buildFileManifest parts.files = .ok manifest ∧
      ∀ name content, (name, content) ∈ parts.files ↔
        ∃ entry ∈ manifest.files, entry.name = name ∧ entry.content = content := by
  obtain ⟨-, normalized, hnormalized, hfiles, hcount, hsizes, hdistinct, hbound⟩ := parts_ok h
  -- each part is a file of the upload under its normalized name
  have hparts : ∀ part ∈ normalized, manifestEntry part =
      .ok ⟨part.1, part.2, part.2.length, sha256 part.2⟩ ∧ part.2.length ≤ maxFileBytes := by
    intro part hpart
    obtain ⟨file, hfile, hok⟩ := Fallible.exists_of_mem_mapM hnormalized part hpart
    simp only [normalizedPart, Fallible.bind_ok, Fallible.pure_ok] at hok
    obtain ⟨name, hname, rfl⟩ := hok
    exact ⟨manifestEntry_ok.mpr ⟨name, normalizeFileName_of_require hnfc hname, rfl⟩,
      hsizes file hfile⟩
  let entries := normalized.map fun part =>
    (⟨part.1, part.2, part.2.length, sha256 part.2⟩ : ManifestFile)
  have hperm : parts.files.Perm normalized := by
    rw [hfiles]
    exact List.perm_insertionSort partLe normalized
  have hentries : normalized.mapM manifestEntry = .ok entries := by
    rw [← List.map_id normalized]
    exact Fallible.mapM_map_ok fun part hpart => (hparts part hpart).1
  have hvalid : ∀ entry ∈ entries, entry.Valid := by
    intro entry hentry
    obtain ⟨part, hpart, rfl⟩ := List.mem_map.mp hentry
    obtain ⟨hok, hsize⟩ := hparts part hpart
    obtain ⟨name, hname, heq⟩ := manifestEntry_ok.mp hok
    obtain rfl : name = part.1 := congrArg ManifestFile.name heq
    exact ⟨hname, hsize, rfl, rfl⟩
  have hlength : entries.length = upload.files.length := by
    rw [List.length_map]
    exact Fallible.length_eq_of_mapM hnormalized
  have hkeys : (entries.map (collisionKey ·.name)).Nodup := by
    rw [List.map_map]
    exact hdistinct
  have htotal : totalSize entries ≤ maxPageBytes := by
    rw [totalSize, List.map_map]
    exact hbound
  obtain ⟨manifest, hmanifest, hmfiles⟩ :=
    exists_buildFileManifest hentries hvalid (by rw [hlength]; exact hcount) hkeys htotal
  refine ⟨manifest, ?_, ?_⟩
  · rw [buildFileManifest_perm hperm, hmanifest]
  · intro name content
    rw [hperm.mem_iff, hmfiles]
    constructor
    · intro hpart
      refine ⟨⟨name, content, content.length, sha256 content⟩, ?_, rfl, rfl⟩
      exact (List.mem_insertionSort nameLe).mpr (List.mem_map.mpr ⟨_, hpart, rfl⟩)
    · rintro ⟨entry, hentry, rfl, rfl⟩
      obtain ⟨part, hpart, rfl⟩ := List.mem_map.mp ((List.mem_insertionSort nameLe).mp hentry)
      exact hpart

/-- The entry of a name in a manifest is the only one. -/
theorem find?_of_mem {manifest : FileManifest} {entry : ManifestFile}
    (h : entry ∈ manifest.files) :
    manifest.files.find? (fun e => decide (e.name = entry.name)) = some entry := by
  cases hfind : manifest.files.find? fun e => decide (e.name = entry.name) with
  | none =>
    have hnone := List.find?_eq_none.mp hfind entry h
    simp at hnone
  | some found =>
    have hname : found.name = entry.name := by simpa using List.find?_some hfind
    have hmem := List.mem_of_find?_eq_some hfind
    rw [List.inj_on_of_nodup_map manifest.valid.distinct hmem h (congrArg collisionKey hname)]

/-- What the server reads of an upload. -/
theorem uploadPresentation_eq {upload : FileSetUpload} {parts : FileSetParts}
    (hupload : upload.parts = .ok parts) {primary : Text}
    (hprimary : upload.metadata.primaryFile = some primary) {manifest : FileManifest}
    (hmanifest : buildFileManifest parts.files = .ok manifest) :
    uploadPresentation parts = presentationFor manifest (some primary) := by
  have hsent : primaryFileOf parts.metadata = .ok (some primary) := by
    rw [(parts_ok hupload).1, primaryFileOf_toWire, hprimary]
  simp only [uploadPresentation, hmanifest, hsent, Fallible.ok_bind, buildFileManifest_files]

/-- **Another spelling of the entry file is refused**: no stored file has a name that is
not in normal form. -/
theorem uploadPresentation_refused (hnfc : ∀ text : Text, nfc (nfc text) = nfc text)
    {upload : FileSetUpload} {parts : FileSetParts} (hupload : upload.parts = .ok parts)
    {primary : Text} (hprimary : upload.metadata.primaryFile = some primary)
    (hspelling : nfc primary ≠ primary) : uploadPresentation parts = .error .validation := by
  obtain ⟨manifest, hmanifest, -⟩ := exists_manifest_of_parts hnfc hupload
  have hnone : manifest.files.find? (fun entry => decide (entry.name = primary)) = none := by
    rw [List.find?_eq_none]
    intro entry hentry hname
    obtain rfl := of_decide_eq_true hname
    obtain ⟨hsafe, -⟩ := manifest.valid.entries entry hentry
    exact hspelling (normalizeFileName_ok.mp hsafe).2.2
  rw [uploadPresentation_eq hupload hprimary hmanifest, presentationFor, hnone]

/-- **The server finds the entry file exactly when it was typed in normal form.** -/
theorem uploadPresentation_iff (hnfc : ∀ text : Text, nfc (nfc text) = nfc text)
    {upload : FileSetUpload} {parts : FileSetParts} (hupload : upload.parts = .ok parts)
    {primary name : Text} {content : Bytes} (hprimary : upload.metadata.primaryFile = some primary)
    (hname : requireFileSetName primary = .ok name) (hfile : (name, content) ∈ parts.files)
    (htext : (previewText content).isSome) :
    uploadPresentation parts =
        .ok ⟨some name, extractTitle (some name) (some content)⟩ ↔ nfc primary = primary := by
  constructor
  · intro h
    by_contra hspelling
    rw [uploadPresentation_refused hnfc hupload hprimary hspelling] at h
    cases h
  · intro hnormal
    obtain ⟨manifest, hmanifest, hfiles⟩ := exists_manifest_of_parts hnfc hupload
    obtain ⟨-, -, rfl⟩ := normalizeFileName_ok.mp (requireFileSetName_iff.mp hname)
    obtain ⟨entry, hentry, hentryName, rfl⟩ := (hfiles _ _).mp hfile
    have hfind := find?_of_mem hentry
    rw [hentryName, hnormal] at hfind
    rw [uploadPresentation_eq hupload hprimary hmanifest, hnormal]
    simp only [presentationFor, hfind, htext, if_true]

end

section Sample

/-- The combining acute accent. -/
def acuteAccent : Char := Char.ofNat 0x301

/-- The composition of `e` and an acute accent. -/
def composeStep (c : Char) (rest : Text) : Text :=
  if c = 'e' ∧ rest.head? = some acuteAccent then 'é' :: rest.tail else c :: rest

def composeAcute (text : Text) : Text := text.foldr composeStep []

theorem composeAcute_idempotent (text : Text) :
    composeAcute (composeAcute text) = composeAcute text := by
  induction text with
  | nil => rfl
  | cons c text ih =>
    have hcons (c : Char) (t : Text) : composeAcute (c :: t) = composeStep c (composeAcute t) := rfl
    rw [hcons]
    unfold composeStep
    split
    · next hcompose =>
      obtain ⟨rest, hrest⟩ : ∃ rest, composeAcute text = acuteAccent :: rest := by
        cases htext : composeAcute text with
        | nil =>
          rw [htext] at hcompose
          cases hcompose.2
        | cons d rest =>
          rw [htext] at hcompose
          exact ⟨rest, by rw [Option.some.inj hcompose.2]⟩
      have hne : ∀ t : Text, composeStep acuteAccent t = acuteAccent :: t ∧
          composeStep 'é' t = 'é' :: t :=
        fun t => ⟨if_neg fun h => absurd h.1 (by decide), if_neg fun h => absurd h.1 (by decide)⟩
      rw [hrest, hcons, (hne _).1, List.cons.injEq] at ih
      rw [hrest, List.tail_cons, hcons, (hne _).2, ih.2]
    · next hkeep => rw [hcons, ih, composeStep, if_neg hkeep]

/-- A platform that composes one letter. -/
@[reducible] def composingPlatform : Platform := { asciiPlatform with nfc := composeAcute }

attribute [local instance] composingPlatform

/-- An upload of one file that names it as its entry file. -/
def sampleUpload (primary : Text) : FileSetUpload where
  metadata := .revise ⟨"chat", none, none⟩ (some primary)
  files := [⟨'é' :: ".md", utf8Encode "# Entry"⟩]

/-- Typed in normal form, the entry file is found. -/
theorem uploadPresentation_iff_sample : ∃ parts, (sampleUpload ('é' :: ".md")).parts = .ok parts ∧
    uploadPresentation parts = .ok ⟨some ('é' :: ".md"),
      extractTitle (some ('é' :: ".md")) (some (utf8Encode "# Entry"))⟩ := by
  have haccepted : ((sampleUpload ('é' :: ".md")).parts.toOption.map (·.files)) =
      some [('é' :: ".md", utf8Encode "# Entry")] := by decide +kernel
  cases hparts : (sampleUpload ('é' :: ".md")).parts with
  | error e =>
    rw [hparts] at haccepted
    cases haccepted
  | ok parts =>
    rw [hparts] at haccepted
    refine ⟨parts, rfl, ?_⟩
    refine (uploadPresentation_iff composeAcute_idempotent hparts rfl (by decide +kernel) ?_
      (by decide +kernel)).mpr (by decide +kernel)
    have hfiles : parts.files = [('é' :: ".md", utf8Encode "# Entry")] := Option.some.inj haccepted
    rw [hfiles]
    exact List.mem_singleton_self _

/-- Typed with the accent on its own, the same entry file passes the client's check,
its normalized form names the uploaded file, and the server refuses it. -/
theorem uploadPresentation_decomposed : ∃ parts,
    (sampleUpload ('e' :: acuteAccent :: ".md")).parts = .ok parts ∧
    requireFileSetName ('e' :: acuteAccent :: ".md") = .ok ('é' :: ".md") ∧
    ('é' :: ".md", utf8Encode "# Entry") ∈ parts.files ∧
    (previewText (utf8Encode "# Entry")).isSome ∧
    uploadPresentation parts = .error .validation := by
  have haccepted : ((sampleUpload ('e' :: acuteAccent :: ".md")).parts.toOption.map fun parts =>
      (parts.files, (uploadPresentation parts).toOption)) =
      some ([('é' :: ".md", utf8Encode "# Entry")], none) := by decide +kernel
  cases hparts : (sampleUpload ('e' :: acuteAccent :: ".md")).parts with
  | error e =>
    rw [hparts] at haccepted
    cases haccepted
  | ok parts =>
    rw [hparts] at haccepted
    obtain ⟨hfiles, -⟩ := Prod.mk.inj (Option.some.inj haccepted)
    refine ⟨parts, rfl, by decide +kernel, ?_, by decide +kernel, ?_⟩
    · rw [hfiles]
      exact List.mem_singleton_self _
    · exact uploadPresentation_refused composeAcute_idempotent hparts rfl (by decide +kernel)

end Sample

end PatchouliLib.Client
