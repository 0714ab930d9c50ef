import PatchouliLib.Foundation.Table
import PatchouliLib.Storage.Frames

/-!
# Tags

A Tag belongs to a Library and is known there by its display name and by the
folded name it is compared by.  A Tag is renamed or deleted; with a deleted Tag
its associations with Pages go, and the index marks these Pages.

## Main definitions

* `normalizeTagName` — the two names of a Tag.
* `updateTag`, `deletePageTags`, `deleteTag` — the statements.
* `TagLaw` — the unique keys of the tables.
* `TagEdit` — what one statement, or the two of a deletion, do to the tables.

## Main results

* `applyAll_renames`, `applyAll_deletes` — **edits of distinct Tags in a row are one
  pass over the tables.**
* `TagLaw.apply`, `TagLaw.applyAll` — the unique keys stay unique.
-/

namespace PatchouliLib

open Foundation

/-! ### Rows -/

/-- The primary key of a Tag. -/
def Tag.key (t : Tag) : Id × Id := (t.libraryId, t.id)

/-- What a Tag is compared by. -/
def Tag.name (t : Tag) : Id × Text := (t.libraryId, t.matchKey)

/-- The Tag of an association. -/
def PageTag.tag (a : PageTag) : Id × Id := (a.page.libraryId, a.tagId)

def tagNameMaxLength : ℕ := 100
def tagNameMaxBytes : ℕ := 255

/-- The CHECK constraints on a stored name. -/
def IsTagText (text : Text) : Prop :=
  1 ≤ text.length ∧ text.length ≤ tagNameMaxLength ∧ (utf8Encode text).length ≤ tagNameMaxBytes ∧
    (text.dropWhile (· = ' ')).rdropWhile (· = ' ') = text ∧ nul ∉ text ∧ '\n' ∉ text ∧ '\r' ∉ text

instance (text : Text) : Decidable (IsTagText text) := by
  unfold IsTagText
  infer_instance

/-- The unique keys of the tables. -/
structure TagLaw (t : TagTables) : Prop where
  keyed : Keyed Tag.key t.tags
  named : Keyed Tag.name t.tags

/-- Return an NFC display name and NFC(casefold(NFC(name))) matching key. -/
def normalizeTagName [Platform] (name : Text) : Except Err (Text × Text) := do
  let displayName := nfc name
  let matchKey := nfc (Platform.casefold displayName)
  Fallible.check (displayName ≠ [] ∧ displayName = strip displayName ∧ matchKey ≠ [] ∧
    matchKey = strip matchKey ∧ displayName.any Platform.isControlOrFormat = false ∧
    displayName.length ≤ tagNameMaxLength ∧ (utf8Encode displayName).length ≤ tagNameMaxBytes ∧
    matchKey.length ≤ tagNameMaxLength ∧ (utf8Encode matchKey).length ≤ tagNameMaxBytes) .validation
  pure (displayName, matchKey)

/-! ### Edits of the tables -/

/-- The row with these names, if it is the row of this Tag. -/
def Tag.rename (key : Id × Id) (displayName matchKey : Text) (t : Tag) : Tag :=
  if t.key = key then { t with displayName := displayName, matchKey := matchKey } else t

/-- A change of one Tag. -/
inductive TagEdit where
  | rename (key : Id × Id) (displayName matchKey : Text)
  | delete (key : Id × Id)

namespace TagEdit

/-- The Tag of an edit. -/
def key : TagEdit → Id × Id
  | rename key _ _ => key
  | delete key => key

/-- The constraints of the statements hold. -/
def Allowed : TagEdit → TagTables → Prop
  | rename key displayName matchKey, t => ∀ row ∈ t.tags, row.key = key →
      IsTagText displayName ∧ IsTagText matchKey ∧
        ∀ row' ∈ t.tags, row'.key ≠ key → row'.name ≠ (key.1, matchKey)
  | delete _, _ => True

/-- The tables after the statements. -/
def apply : TagEdit → TagTables → TagTables
  | rename key displayName matchKey, t =>
      { t with tags := t.tags.map (Tag.rename key displayName matchKey) }
  | delete key, t =>
      ⟨t.tags.filter (·.key ≠ key), t.pageTags.filter (·.tag ≠ key)⟩

/-- The Pages the statements touch. -/
def marks : TagEdit → TagTables → List PageKey
  | rename _ _ _, _ => []
  | delete key, t => (t.pageTags.filter (·.tag = key)).map (·.page)

/-- The constraints hold one edit after the other. -/
def AllAllowed : List TagEdit → TagTables → Prop
  | [], _ => True
  | edit :: edits, t => edit.Allowed t ∧ AllAllowed edits (edit.apply t)

/-- One edit after the other. -/
def applyAll (edits : List TagEdit) (t : TagTables) : TagTables :=
  edits.foldl (fun t edit => edit.apply t) t

/-- The Pages touched by one edit after the other. -/
def allMarks : List TagEdit → TagTables → List PageKey
  | [], _ => []
  | edit :: edits, t => edit.marks t ++ allMarks edits (edit.apply t)

end TagEdit

/-! ### Statements -/

def Store.modifyTags (f : TagTables → TagTables) (s : Store) : Store := { s with tags := f s.tags }

/-- `SELECT display_name` by the primary key. -/
def Store.tagName? (s : Store) (key : Id × Id) : Option Text :=
  (s.tags.tags.find? fun t => decide (t.key = key)).map (·.displayName)

/-- `SELECT id` by the match key. -/
def Store.tagOwner? (s : Store) (name : Id × Text) : Option Id :=
  (s.tags.tags.find? fun t => decide (t.name = name)).map (·.id)

/-- UPDATE tags SET display_name, match_key, by the primary key. -/
def updateTag (key : Id × Id) (displayName matchKey : Text) : Write PUnit := do
  constraint fun s => ∀ row ∈ s.tags.tags, row.key = key →
    IsTagText displayName ∧ IsTagText matchKey ∧
      ∀ row' ∈ s.tags.tags, row'.key ≠ key → row'.name ≠ (key.1, matchKey)
  modifyStore (.modifyTags fun t =>
    { t with tags := t.tags.map (Tag.rename key displayName matchKey) })

/-- DELETE FROM page_tags, by the Tag.  The search triggers mark the Pages. -/
def deletePageTags (key : Id × Id) : Write PUnit := do
  let pages ← query fun s => pure ((s.tags.pageTags.filter (·.tag = key)).map (·.page))
  modifyStore (.modifyTags fun t => { t with pageTags := t.pageTags.filter (·.tag ≠ key) })
  markDirty pages

/-- DELETE FROM tags, by the primary key. -/
def deleteTag (key : Id × Id) : Write PUnit := do
  constraint fun s => ∀ row ∈ s.tags.tags, row.key = key → ∀ a ∈ s.tags.pageTags, a.tag ≠ key
  modifyStore (.modifyTags fun t => { t with tags := t.tags.filter (·.key ≠ key) })

/-- The connection after an edit. -/
def Connection.edited (c : Connection) (edit : TagEdit) : Connection :=
  ⟨c.store.modifyTags edit.apply, c.dirtied ++ edit.marks c.store.tags⟩

theorem updateTag_ok {key : Id × Id} {displayName matchKey : Text} {w : PUnit} {c c' : Connection} :
    updateTag key displayName matchKey c = .ok (w, c') ↔
      (TagEdit.rename key displayName matchKey).Allowed c.store.tags ∧
        c' = c.edited (.rename key displayName matchKey) := by
  simp only [updateTag, bind_ok, constraint_ok, modifyStore_ok, exists_eq_left', and_assoc,
    exists_and_left, exists_const]
  refine and_congr_right fun _ => ?_
  rw [Connection.edited, TagEdit.marks, List.append_nil]
  exact eq_comm

/-- The two statements of a deletion. -/
theorem deletion_ok {key : Id × Id} {w : PUnit} {c c' : Connection} :
    (deletePageTags key >>= fun _ => deleteTag key) c = .ok (w, c') ↔ c' = c.edited (.delete key) := by
  simp only [deletePageTags, deleteTag, bind_ok, query_ok, Fallible.pure_ok, constraint_ok,
    modifyStore_ok, markDirty_ok, exists_eq_left', and_assoc, exists_and_left, exists_const]
  constructor
  · rintro ⟨-, rfl⟩
    rfl
  · rintro rfl
    -- no association is left when the row goes
    refine ⟨fun row _ _ a ha => ?_, rfl⟩
    exact of_decide_eq_true (List.mem_filter.mp ha).2

/-! ### One pass over the tables -/

namespace TagEdit

/-- The row with the names of the entry for its Tag. -/
def renamed (names : List ((Id × Id) × (Text × Text))) (t : Tag) : Tag :=
  match names.find? fun entry => decide (entry.1 = t.key) with
  | none => t
  | some entry => { t with displayName := entry.2.1, matchKey := entry.2.2 }

/-- One rename for every entry. -/
def renames (names : List ((Id × Id) × (Text × Text))) : List TagEdit :=
  names.map fun entry => rename entry.1 entry.2.1 entry.2.2

@[simp] theorem key_rename (key : Id × Id) (displayName matchKey : Text) (t : Tag) :
    (t.rename key displayName matchKey).key = t.key := by
  unfold Tag.rename
  split <;> rfl

/-- **Renames of distinct Tags are one pass over the rows.** -/
theorem applyAll_renames {names : List ((Id × Id) × (Text × Text))}
    (hkeys : (names.map Prod.fst).Nodup) (t : TagTables) :
    applyAll (renames names) t = { t with tags := t.tags.map (renamed names) } := by
  induction names generalizing t with
  | nil =>
    show t = _
    rw [show renamed [] = id from funext fun _ => rfl, List.map_id]
  | cons entry names ih =>
    obtain ⟨hnew, hkeys⟩ := List.nodup_cons.mp hkeys
    show applyAll (renames names) (apply (rename entry.1 entry.2.1 entry.2.2) t) = _
    rw [ih hkeys]
    simp only [apply, List.map_map]
    congr 1
    refine List.map_congr_left fun row _ => ?_
    show renamed names (row.rename entry.1 entry.2.1 entry.2.2) = _
    by_cases hrow : row.key = entry.1
    · have hnone : (names.find? fun e => decide (e.1 = row.key)) = none := by
        refine List.find?_eq_none.mpr fun e he => ?_
        rw [decide_eq_true_iff, hrow]
        exact fun heq => hnew (List.mem_map.mpr ⟨e, he, heq⟩)
      have hfirst : ((entry :: names).find? fun e => decide (e.1 = row.key)) = some entry :=
        List.find?_cons_of_pos (decide_eq_true hrow.symm)
      rw [renamed, key_rename, hnone, renamed, hfirst, Tag.rename, if_pos hrow]
    · have hrest : ((entry :: names).find? fun e => decide (e.1 = row.key)) =
          names.find? fun e => decide (e.1 = row.key) :=
        List.find?_cons_of_neg (by rw [decide_eq_true_iff]; exact fun heq => hrow heq.symm)
      rw [Tag.rename, if_neg hrow, renamed, renamed, hrest]

theorem allMarks_renames (names : List ((Id × Id) × (Text × Text))) (t : TagTables) :
    allMarks (renames names) t = [] := by
  induction names generalizing t with
  | nil => rfl
  | cons entry names ih => exact ih _

/-- The name a rename gives. -/
def newName (entry : (Id × Id) × (Text × Text)) : Id × Text := (entry.1.1, entry.2.2)

/-- **When all renames pass**: the new names are distinct, and no other Tag has one. -/
theorem allAllowed_renames {names : List ((Id × Id) × (Text × Text))} {t : TagTables}
    (hkeys : (names.map Prod.fst).Nodup) (hnames : (names.map newName).Nodup)
    (hfree : ∀ entry ∈ names, ∀ row ∈ t.tags, row.key ≠ entry.1 → row.name ≠ newName entry) :
    AllAllowed (renames names) t ↔ ∀ entry ∈ names, ∀ row ∈ t.tags, row.key = entry.1 →
      IsTagText entry.2.1 ∧ IsTagText entry.2.2 := by
  induction names generalizing t with
  | nil => exact iff_of_true trivial fun _ h => nomatch h
  | cons entry names ih =>
    obtain ⟨hkey, hkeys⟩ := List.nodup_cons.mp hkeys
    obtain ⟨hname, hnames⟩ := List.nodup_cons.mp hnames
    obtain ⟨hfirst, hrest⟩ := List.forall_mem_cons.mp hfree
    let t' := apply (rename entry.1 entry.2.1 entry.2.2) t
    have hrows {row' : Tag} : row' ∈ t'.tags ↔
        ∃ row ∈ t.tags, row.rename entry.1 entry.2.1 entry.2.2 = row' := List.mem_map
    have hfree' : ∀ e ∈ names, ∀ row ∈ t'.tags, row.key ≠ e.1 → row.name ≠ newName e := by
      intro e he row' hrow' hne
      obtain ⟨row, hrow, rfl⟩ := hrows.mp hrow'
      rw [key_rename] at hne
      by_cases hown : row.key = entry.1
      · have hlibrary : row.libraryId = entry.1.1 := congrArg Prod.fst hown
        rw [Tag.rename, if_pos hown]
        show (row.libraryId, entry.2.2) ≠ _
        rw [hlibrary]
        exact fun heq => hname (List.mem_map.mpr ⟨e, he, heq.symm⟩)
      · rw [Tag.rename, if_neg hown]
        exact hrest e he row hrow hne
    have htexts : (∀ e ∈ names, ∀ row ∈ t'.tags, row.key = e.1 → IsTagText e.2.1 ∧ IsTagText e.2.2) ↔
        ∀ e ∈ names, ∀ row ∈ t.tags, row.key = e.1 → IsTagText e.2.1 ∧ IsTagText e.2.2 := by
      refine forall₂_congr fun e _ => ⟨fun h row hrow hown => ?_, fun h row' hrow' hown => ?_⟩
      · exact h _ (hrows.mpr ⟨row, hrow, rfl⟩) (by rwa [key_rename])
      · obtain ⟨row, hrow, rfl⟩ := hrows.mp hrow'
        rw [key_rename] at hown
        exact h row hrow hown
    show (Allowed _ t ∧ AllAllowed (renames names) t') ↔ _
    rw [ih hkeys hnames hfree', htexts, List.forall_mem_cons]
    refine and_congr_left fun _ => ⟨fun h row hrow hown => ?_, fun h row hrow hown => ?_⟩
    · exact ⟨(h row hrow hown).1, (h row hrow hown).2.1⟩
    · exact ⟨(h row hrow hown).1, (h row hrow hown).2, hfirst⟩

/-- One deletion for every Tag. -/
def deletes (keys : List (Id × Id)) : List TagEdit := keys.map delete

/-- **Deletions are one pass over the rows.** -/
theorem applyAll_deletes (keys : List (Id × Id)) (t : TagTables) :
    applyAll (deletes keys) t =
      ⟨t.tags.filter (·.key ∉ keys), t.pageTags.filter (·.tag ∉ keys)⟩ := by
  induction keys generalizing t with
  | nil =>
    show t = _
    rw [List.filter_eq_self.mpr (by simp), List.filter_eq_self.mpr (by simp)]
  | cons key keys ih =>
    show applyAll (deletes keys) (apply (delete key) t) = _
    rw [ih]
    simp only [apply, List.filter_filter, List.mem_cons, not_or, ← Bool.decide_and, and_comm]

theorem allAllowed_deletes (keys : List (Id × Id)) (t : TagTables) : AllAllowed (deletes keys) t := by
  induction keys generalizing t with
  | nil => trivial
  | cons key keys ih => exact ⟨trivial, ih _⟩

/-- A Page is touched when it has one of the Tags. -/
theorem mem_allMarks_deletes {keys : List (Id × Id)} {t : TagTables} {page : PageKey} :
    page ∈ allMarks (deletes keys) t ↔ ∃ a ∈ t.pageTags, a.tag ∈ keys ∧ a.page = page := by
  induction keys generalizing t with
  | nil =>
    refine iff_of_false List.not_mem_nil ?_
    rintro ⟨a, _, hmem, _⟩
    exact List.not_mem_nil hmem
  | cons key keys ih =>
    show page ∈ marks (delete key) t ++ allMarks (deletes keys) (apply (delete key) t) ↔ _
    rw [List.mem_append, ih, marks, List.mem_map]
    constructor
    · rintro (⟨a, ha, rfl⟩ | ⟨a, ha, htag, rfl⟩)
      · have ha := List.mem_filter.mp ha
        exact ⟨a, ha.1, List.mem_cons.mpr (.inl (of_decide_eq_true ha.2)), rfl⟩
      · exact ⟨a, (List.mem_filter.mp ha).1, List.mem_cons_of_mem _ htag, rfl⟩
    · rintro ⟨a, ha, htag, rfl⟩
      by_cases hkey : a.tag = key
      · exact .inl ⟨a, List.mem_filter.mpr ⟨ha, decide_eq_true hkey⟩, rfl⟩
      · refine .inr ⟨a, List.mem_filter.mpr ⟨ha, decide_eq_true hkey⟩, ?_, rfl⟩
        exact (List.mem_cons.mp htag).resolve_left hkey

end TagEdit

/-! ### Unique keys -/

/-- **A statement that its constraints allow keeps the keys unique.** -/
theorem TagLaw.apply {t : TagTables} (h : TagLaw t) {edit : TagEdit} (hallowed : edit.Allowed t) :
    TagLaw (edit.apply t) := by
  cases edit with
  | delete key => exact ⟨h.keyed.filter _, h.named.filter _⟩
  | rename key displayName matchKey =>
    have hname {row : Tag} (hrow : row.key = key) :
        (row.rename key displayName matchKey).name = (key.1, matchKey) := by
      rw [Tag.rename, if_pos hrow]
      exact congrArg (·, matchKey) (congrArg Prod.fst hrow)
    have hother {row : Tag} (hrow : row.key ≠ key) :
        row.rename key displayName matchKey = row := by
      rw [Tag.rename, if_neg hrow]
    refine ⟨h.keyed.map fun row _ => TagEdit.key_rename .., ?_⟩
    show ((t.tags.map _).map Tag.name).Nodup
    rw [List.map_map]
    refine List.Nodup.map_on (fun a ha b hb heq => ?_) (.of_map _ h.keyed)
    have heq : (a.rename key displayName matchKey).name = (b.rename key displayName matchKey).name :=
      heq
    by_cases hak : a.key = key
    · by_cases hbk : b.key = key
      · exact h.keyed.eq_of_key ha hb (hak.trans hbk.symm)
      · rw [hname hak, hother hbk] at heq
        exact absurd heq.symm ((hallowed a ha hak).2.2 b hb hbk)
    · by_cases hbk : b.key = key
      · rw [hname hbk, hother hak] at heq
        exact absurd heq ((hallowed b hb hbk).2.2 a ha hak)
      · rw [hother hak, hother hbk] at heq
        exact h.named.eq_of_key ha hb heq

/-- **So do edits one after the other.** -/
theorem TagLaw.applyAll {t : TagTables} (h : TagLaw t) {edits : List TagEdit}
    (hallowed : TagEdit.AllAllowed edits t) : TagLaw (TagEdit.applyAll edits t) := by
  induction edits generalizing t with
  | nil => exact h
  | cons edit edits ih => exact ih (h.apply hallowed.1) hallowed.2

end PatchouliLib
