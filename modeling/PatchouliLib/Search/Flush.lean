import PatchouliLib.Database

/-!
# What a flush depends on

The flush before a commit projects the Pages that the transaction has marked.
Whether it succeeds depends on which Pages are marked, not on the order or the
number of the marks, and on the content of the authority only.

## Main results

* `dirtyPages_markAll` — the marks of a transaction replace the older ones.
* `foldlM_flushDirtyPage_ok` — when a run of the flush succeeds.
* `flushDirtySince_markAll_ok` — **when the flush of a transaction succeeds.**
* `commits_congr` — two transactions that mark the same Pages and leave the same
  content both commit or both fail.
-/

namespace PatchouliLib

open Foundation

/-! ### Marks -/

section

variable {t : SearchTables}

theorem dirtySequence_markAll (keys : List PageKey) :
    (t.markAll keys).info.dirtySequence = t.info.dirtySequence + keys.length := by
  induction keys generalizing t with
  | nil => rfl
  | cons key keys ih =>
    show ((t.mark key).markAll keys).info.dirtySequence = _
    rw [ih, List.length_cons]
    show t.info.dirtySequence + 1 + keys.length = _
    omega

/-- The marks of a transaction replace the older marks of the same Pages. -/
theorem dirtyPages_markAll (keys : List PageKey) :
    ∃ rows, (t.markAll keys).dirtyPages = t.dirtyPages.filter (·.page ∉ keys) ++ rows ∧
      (rows.map (·.page)).Nodup ∧ (∀ key, key ∈ rows.map (·.page) ↔ key ∈ keys) ∧
      ∀ row ∈ rows, t.info.dirtySequence < row.seq := by
  induction keys using List.reverseRecOn with
  | nil =>
    refine ⟨[], ?_, List.nodup_nil, fun key => Iff.rfl, fun row hrow => nomatch hrow⟩
    rw [List.append_nil, List.filter_eq_self.mpr]
    · rfl
    · intro row _
      simp
  | append_singleton keys key ih =>
    obtain ⟨rows, hrows, hdistinct, hkeys, hseq⟩ := ih
    have hmark : t.markAll (keys ++ [key]) = (t.markAll keys).mark key := List.foldl_append
    have hnew : t.info.dirtySequence < (t.markAll keys).info.dirtySequence + 1 := by
      rw [dirtySequence_markAll]
      omega
    refine ⟨rows.filter (·.page ≠ key) ++ [⟨key, (t.markAll keys).info.dirtySequence + 1⟩],
      ?_, ?_, ?_, ?_⟩
    · rw [hmark, SearchTables.mark, hrows, List.filter_append, List.filter_filter, List.append_assoc]
      refine congrArg (· ++ _) (List.filter_congr fun row _ => ?_)
      rw [← Bool.decide_and]
      refine decide_eq_decide.mpr ?_
      rw [List.mem_append, List.mem_singleton]
      tauto
    · rw [List.map_append, List.map_singleton, ← List.concat_eq_append]
      refine List.Nodup.concat ?_ (hdistinct.sublist (List.filter_sublist.map _))
      rw [List.mem_map]
      rintro ⟨row, hrow, hpage⟩
      exact of_decide_eq_true (List.mem_filter.mp hrow).2 hpage
    · intro key'
      rw [List.map_append, List.mem_append, List.map_singleton, List.mem_append,
        ← hkeys, List.mem_map, List.mem_map]
      constructor
      · rintro (⟨row, hrow, hpage⟩ | hlast)
        · exact .inl ⟨row, (List.mem_filter.mp hrow).1, hpage⟩
        · exact .inr hlast
      · rintro (⟨row, hrow, hpage⟩ | hlast)
        · by_cases hkey : row.page = key
          · exact .inr (List.mem_singleton.mpr (hpage.symm.trans hkey))
          · exact .inl ⟨row, List.mem_filter.mpr ⟨hrow, decide_eq_true hkey⟩, hpage⟩
        · exact .inr hlast
    · intro row hrow
      rcases List.mem_append.mp hrow with hrow | hrow
      · exact hseq row (List.mem_filter.mp hrow).1
      · rw [List.mem_singleton.mp hrow]
        exact hnew

/-- No mark moves the index to another generation. -/
theorem info_markAll (keys : List PageKey) :
    (t.markAll keys).generations = t.generations ∧
      (t.markAll keys).info = { t.info with
        dirtySequence := (t.markAll keys).info.dirtySequence } := by
  induction keys generalizing t with
  | nil => exact ⟨rfl, rfl⟩
  | cons key keys ih => exact ih

end

section

variable [Platform] {t : SearchTables}

theorem readyGeneration_markAll (keys : List PageKey) :
    (t.markAll keys).readyGeneration = t.readyGeneration := by
  rw [SearchTables.readyGeneration, (info_markAll keys).2]
  rfl

theorem requireReadyIndex_markAll (keys : List PageKey) :
    requireReadyIndex (t.markAll keys) = requireReadyIndex t := by
  simp only [requireReadyIndex, readyGeneration_markAll, (info_markAll keys).1]

/-! ### The flush -/

/-- A Page can be projected. -/
def CanProject (s : Store) (key : PageKey) : Prop := ∃ projection, freshProjection key s = .ok projection

/-- What a Page projects to depends on the content only. -/
theorem freshProjection_of_content {s s' : Store} (h : s.content = s'.content) (key : PageKey) :
    freshProjection key s = freshProjection key s' := by
  have hrows : s.projectionRows key = s'.projectionRows key := by
    simp only [Store.projectionRows, Store.livePage?, Store.displayTitle?, Store.snapshotRows,
      Store.filesOf, h]
  simp only [freshProjection, hrows]

theorem CanProject.of_content {s s' : Store} (h : s.content = s'.content) {key : PageKey} :
    CanProject s key ↔ CanProject s' key := by
  rw [CanProject, CanProject, freshProjection_of_content h]

omit [Platform] in
theorem dirtyPages_insertProjection (generation : ℕ) (p : Projection) (t : SearchTables) :
    (insertProjection generation p t).dirtyPages = t.dirtyPages := by
  have hfold (documents : List IndexedDocument) (t : SearchTables) :
      (documents.foldl (insertDocument generation p.page) t).dirtyPages = t.dirtyPages := by
    induction documents generalizing t with
    | nil => rfl
    | cons d documents ih => exact ih _
  exact hfold _ _

/-- A projection that was stored has left the marks alone. -/
theorem projectPage_ok {generation : ℕ} {key : PageKey} {s : Store} :
    (∃ t', projectPage generation key s t = .ok t') ↔ CanProject s key := by
  simp only [projectPage, Fallible.bind_ok]
  constructor
  · rintro ⟨-, projection, hprojection, -⟩
    exact ⟨projection, hprojection⟩
  · rintro ⟨projection, hprojection⟩
    cases projection with
    | none => exact ⟨_, none, hprojection, rfl⟩
    | some p => exact ⟨_, some p, hprojection, rfl⟩

theorem dirtyPages_projectPage {generation : ℕ} {key : PageKey} {s : Store} {t' : SearchTables}
    (h : projectPage generation key s t = .ok t') : t'.dirtyPages = t.dirtyPages := by
  obtain ⟨projection, -, h⟩ := Fallible.bind_ok.mp h
  cases projection with
  | none =>
    obtain rfl := Fallible.pure_ok.mp h
    rfl
  | some p =>
    obtain rfl := Fallible.pure_ok.mp h
    exact dirtyPages_insertProjection ..

/-- One step of the flush clears one mark. -/
theorem flushDirtyPage_ok {generation : ℕ} {s : Store} {row : SearchDirtyPage} :
    (∃ t', flushDirtyPage generation s t row = .ok t') ↔ CanProject s row.page ∧ row ∈ t.dirtyPages := by
  simp only [flushDirtyPage, Fallible.bind_ok, Fallible.check_ok, Fallible.pure_ok, exists_and_left,
    exists_const]
  constructor
  · rintro ⟨-, t₁, hproject, hmem, -⟩
    rw [dirtyPages_projectPage hproject] at hmem
    exact ⟨projectPage_ok.mp ⟨t₁, hproject⟩, hmem⟩
  · rintro ⟨hcan, hmem⟩
    obtain ⟨t₁, hproject⟩ := projectPage_ok.mpr hcan
    rw [← dirtyPages_projectPage hproject] at hmem
    exact ⟨_, t₁, hproject, hmem, rfl⟩

theorem dirtyPages_flushDirtyPage {generation : ℕ} {s : Store} {row : SearchDirtyPage}
    {t' : SearchTables} (h : flushDirtyPage generation s t row = .ok t') :
    t'.dirtyPages = t.dirtyPages.filter (· ≠ row) := by
  simp only [flushDirtyPage, Fallible.bind_ok, Fallible.check_ok, Fallible.pure_ok, exists_and_left,
    exists_const] at h
  obtain ⟨t₁, hproject, -, rfl⟩ := h
  rw [dirtyPages_projectPage hproject]

/-- **When a run of the flush succeeds.** -/
theorem foldlM_flushDirtyPage_ok {generation : ℕ} {s : Store} {rows : List SearchDirtyPage} :
    (∃ t', rows.foldlM (flushDirtyPage generation s) t = .ok t') ↔
      rows.Nodup ∧ ∀ row ∈ rows, CanProject s row.page ∧ row ∈ t.dirtyPages := by
  induction rows generalizing t with
  | nil => exact ⟨fun _ => ⟨List.nodup_nil, fun _ h => nomatch h⟩, fun _ => ⟨t, rfl⟩⟩
  | cons row rows ih =>
    simp only [List.foldlM_cons, Fallible.bind_ok]
    rw [List.nodup_cons, List.forall_mem_cons]
    constructor
    · rintro ⟨t', t₁, hstep, hrest⟩
      obtain ⟨hdistinct, hrows⟩ := ih.mp ⟨t', hrest⟩
      rw [dirtyPages_flushDirtyPage hstep] at hrows
      refine ⟨⟨fun hmem => ?_, hdistinct⟩, flushDirtyPage_ok.mp ⟨t₁, hstep⟩, fun r hr => ?_⟩
      · exact of_decide_eq_true (List.mem_filter.mp (hrows row hmem).2).2 rfl
      · exact ⟨(hrows r hr).1, (List.mem_filter.mp (hrows r hr).2).1⟩
    · rintro ⟨⟨hnot, hdistinct⟩, hrow, hrows⟩
      obtain ⟨t₁, hstep⟩ := flushDirtyPage_ok.mpr hrow
      have hrest : ∃ t', rows.foldlM (flushDirtyPage generation s) t₁ = .ok t' := by
        refine ih.mpr ⟨hdistinct, fun r hr => ⟨(hrows r hr).1, ?_⟩⟩
        rw [dirtyPages_flushDirtyPage hstep]
        refine List.mem_filter.mpr ⟨(hrows r hr).2, decide_eq_true ?_⟩
        rintro rfl
        exact hnot hr
      obtain ⟨t', ht'⟩ := hrest
      exact ⟨t', t₁, hstep, ht'⟩

/-- The marks above the start of the transaction that were there before it. -/
def SearchTables.strayMarks (t : SearchTables) (keys : List PageKey) : List SearchDirtyPage :=
  (t.dirtyPages.filter (·.page ∉ keys)).filter (t.info.dirtySequence < ·.seq)

/-- **When the flush of a transaction succeeds.** -/
theorem flushDirtySince_markAll_ok {s : Store} {keys : List PageKey} :
    (∃ t', flushDirtySince t.info.dirtySequence s (t.markAll keys) = .ok t') ↔
      keys = [] ∨ t.readyGeneration = none ∨
        (∃ generation, requireReadyIndex t = .ok generation) ∧ (t.strayMarks keys).Nodup ∧
          (∀ row ∈ t.strayMarks keys, CanProject s row.page) ∧ ∀ key ∈ keys, CanProject s key := by
  rw [flushDirtySince, dirtySequence_markAll, readyGeneration_markAll]
  by_cases hskip : t.info.dirtySequence + keys.length ≤ t.info.dirtySequence ∨
      t.readyGeneration = none
  · rw [if_pos hskip]
    refine iff_of_true ⟨_, rfl⟩ ?_
    rcases hskip with hlength | hready
    · exact .inl (List.length_eq_zero_iff.mp (by omega))
    · exact .inr (.inl hready)
  · rw [if_neg hskip]
    obtain ⟨hlength, hready⟩ := not_or.mp hskip
    have hkeys : keys ≠ [] := by
      rintro rfl
      exact hlength le_rfl
    obtain ⟨rows, hrows, hdistinct, hpages, hseq⟩ := dirtyPages_markAll (t := t) keys
    have hsince : ((t.markAll keys).dirtySince t.info.dirtySequence).Perm
        (t.strayMarks keys ++ rows) := by
      refine (List.perm_insertionSort _ _).trans (List.Perm.of_eq ?_)
      rw [hrows, List.filter_append, SearchTables.strayMarks]
      exact congrArg _ (List.filter_eq_self.mpr fun row hrow => decide_eq_true (hseq row hrow))
    have hstray : ∀ row ∈ t.strayMarks keys, row ∉ rows := by
      intro row hrow hmem
      have hpage := of_decide_eq_true (List.mem_filter.mp (List.mem_filter.mp hrow).1).2
      exact hpage ((hpages row.page).mp (List.mem_map_of_mem hmem))
    have hmarked : ∀ row ∈ t.strayMarks keys ++ rows, row ∈ (t.markAll keys).dirtyPages := by
      intro row hrow
      rw [hrows]
      rcases List.mem_append.mp hrow with hrow | hrow
      · exact List.mem_append_left _ (List.mem_filter.mp hrow).1
      · exact List.mem_append_right _ hrow
    simp only [Fallible.bind_ok, requireReadyIndex_markAll]
    rw [or_iff_right hkeys, or_iff_right hready]
    constructor
    · rintro ⟨t', generation, hgeneration, hflush⟩
      obtain ⟨hnodup, hall⟩ := foldlM_flushDirtyPage_ok.mp ⟨t', hflush⟩
      refine ⟨⟨generation, hgeneration⟩, ?_, fun row hrow => ?_, fun key hkey => ?_⟩
      · exact (hsince.nodup_iff.mp hnodup).of_append_left
      · exact (hall row (hsince.mem_iff.mpr (List.mem_append_left _ hrow))).1
      · obtain ⟨row, hrow, rfl⟩ := List.mem_map.mp ((hpages key).mpr hkey)
        exact (hall row (hsince.mem_iff.mpr (List.mem_append_right _ hrow))).1
    · rintro ⟨⟨generation, hgeneration⟩, hnodup, hold, hnew⟩
      have hflush : ∃ t', ((t.markAll keys).dirtySince t.info.dirtySequence).foldlM
          (flushDirtyPage generation s) (t.markAll keys) = .ok t' :=
        foldlM_flushDirtyPage_ok.mpr ⟨?_, ?_⟩
      · obtain ⟨t', ht'⟩ := hflush
        exact ⟨t', generation, hgeneration, ht'⟩
      · rw [hsince.nodup_iff]
        exact hnodup.append (.of_map _ hdistinct) hstray
      · intro row hrow
        have hrow := hsince.mem_iff.mp hrow
        refine ⟨?_, hmarked row hrow⟩
        rcases List.mem_append.mp hrow with hrow | hrow
        · exact hold row hrow
        · exact hnew _ ((hpages row.page).mp (List.mem_map_of_mem hrow))

/-! ### The commit -/

theorem finishTransaction_ok {α : Type} {a : α} {c : Connection} :
    (∃ db', finishTransaction a c t = .ok (a, db')) ↔
      (∃ t', flushDirtySince t.info.dirtySequence c.store (t.markAll c.dirtied) = .ok t') ∧
        DeferredForeignKeys c.store := by
  simp only [finishTransaction, Fallible.bind_ok, Fallible.check_ok, Fallible.pure_ok, exists_and_left,
    exists_const]
  constructor
  · rintro ⟨_, t', hflush, hkeys, -⟩
    exact ⟨⟨t', hflush⟩, hkeys⟩
  · rintro ⟨⟨t', hflush⟩, hkeys⟩
    exact ⟨_, t', hflush, hkeys, rfl⟩

/-- A transaction answers when its body does and the commit succeeds. -/
theorem immediateTransaction_ok {α : Type} {body : Write α} {db : Db} {a : α} :
    (immediateTransaction body db).1 = .ok a ↔
      ∃ c, body ⟨db.store, []⟩ = .ok (a, c) ∧ ∃ db', finishTransaction a c db.search = .ok (a, db') := by
  have hanswer {b : α} {c : Connection} {p : α × Db} (h : finishTransaction b c db.search = .ok p) :
      p.1 = b := by
    simp only [finishTransaction, Fallible.bind_ok, Fallible.pure_ok] at h
    obtain ⟨_, -, _, -, rfl⟩ := h
    rfl
  constructor
  · intro h
    unfold immediateTransaction at h
    split at h
    · next b db' hrun =>
      obtain ⟨⟨b', c⟩, hbody, hfinish⟩ := Fallible.bind_ok.mp hrun
      obtain rfl : b = b' := hanswer hfinish
      obtain rfl := Except.ok.inj h
      exact ⟨c, hbody, db', hfinish⟩
    · cases h
  · rintro ⟨c, hbody, db', hfinish⟩
    have hrun : runTransaction body db = .ok (a, db') := Fallible.bind_ok.mpr ⟨(a, c), hbody, hfinish⟩
    simp only [immediateTransaction, hrun]

/-- **The commit depends on the marked Pages and on the content only.** -/
theorem commits_congr {α β : Type} {a : α} {b : β} {c c' : Connection}
    (hcontent : c.store.content = c'.store.content)
    (hdirtied : ∀ key, key ∈ c.dirtied ↔ key ∈ c'.dirtied) :
    (∃ db', finishTransaction a c t = .ok (a, db')) ↔ ∃ db', finishTransaction b c' t = .ok (b, db') := by
  have hguards : DeferredForeignKeys c.store ↔ DeferredForeignKeys c'.store :=
    ⟨fun h => h.of_content hcontent.symm, fun h => h.of_content hcontent⟩
  have hempty : c.dirtied = [] ↔ c'.dirtied = [] := by
    simp only [List.eq_nil_iff_forall_not_mem, hdirtied]
  have hstray : t.strayMarks c.dirtied = t.strayMarks c'.dirtied := by
    simp only [SearchTables.strayMarks, hdirtied]
  simp only [finishTransaction_ok, flushDirtySince_markAll_ok, hempty, hstray, hguards, hdirtied,
    CanProject.of_content hcontent]

end

end PatchouliLib
