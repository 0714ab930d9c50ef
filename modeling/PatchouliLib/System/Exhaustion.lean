import PatchouliLib.System.PageIdentifiers

/-!
# Exhausted identifiers

An allocation gives up after a fixed number of ordinals, and the transaction that
rolls it back takes the advance of the counter with it.  So the next attempt looks
at the same ordinals again.  A create request that has failed once fails forever,
unless the ordinals just ahead of the counter are not what made it fail.

## Main definitions

* `retry body n` — run a body again after every failure, at most `n` more times.

## Main results

* `retry_eq` — trying again changes nothing.
* `allocation_recovers_iff` — **when repeating a request gets past the taken
  identifiers.**
-/

namespace PatchouliLib

open Foundation

section

variable [Platform]

/-- Run a body again after every failure, at most `n` more times. -/
def retry {α : Type} (body : Write α) : ℕ → Db → Except Err α × Db
  | 0, db => immediateTransaction body db
  | n + 1, db =>
    match immediateTransaction body db with
    | (.ok a, db') => (.ok a, db')
    | (.error _, db') => retry body n db'

/-- **Trying again changes nothing.** -/
theorem retry_eq {α : Type} (body : Write α) (n : ℕ) (db : Db) :
    retry body n db = immediateTransaction body db := by
  induction n with
  | zero => rfl
  | succ n ih =>
    rw [retry]
    rcases immediateTransaction_eq_or body db with ⟨e, hrun⟩ | ⟨a, c, db', -, -, -, hrun⟩
    · rw [hrun]
      exact ih.trans hrun
    · rw [hrun]

omit [Platform] in
/-- The deferred foreign keys look at no counter. -/
theorem DeferredForeignKeys.withCounters {c : Connection} (h : DeferredForeignKeys c.store)
    (counters : List PageIdCollisionCounter) : DeferredForeignKeys (c.withCounters counters).store :=
  ⟨h.currentRevision, h.identifier, h.seals, h.appends⟩

/-- A body that writes counters only is committed. -/
theorem immediateTransaction_withCounters {α : Type} {body : Write α} {db : Db}
    (h : DeferredForeignKeys db.store) {a : α} {counters : List PageIdCollisionCounter}
    (hbody : body ⟨db.store, []⟩ = .ok (a, Connection.withCounters ⟨db.store, []⟩ counters)) :
    (immediateTransaction body db).1 = .ok a := by
  have hkeys := DeferredForeignKeys.withCounters (c := ⟨db.store, []⟩) h counters
  have hmarks : db.search.markAll [] = db.search := rfl
  have hfinish : finishTransaction a (Connection.withCounters ⟨db.store, []⟩ counters) db.search =
      .ok (a, ⟨(Connection.withCounters ⟨db.store, []⟩ counters).store, db.search⟩) := by
    rw [finishTransaction]
    show (flushDirtySince _ _ (db.search.markAll []) >>= _) = _
    rw [hmarks, flushDirtySince, if_pos (.inl le_rfl)]
    show (Fallible.check _ _ >>= _) = _
    rw [Fallible.check_of hkeys]
    rfl
  simp only [immediateTransaction, runTransaction, hbody, Fallible.ok_bind, hfinish]

variable {visited : List Db} {db : Db}

/-- In a reachable state a counter is past the first ordinal. -/
theorem PageRun.firstOrdinal_pos (h : PageRun visited db) (libraryId : Id) (occurredAt : ℤ)
    (baseSlug : Text) : 1 ≤ firstOrdinal libraryId occurredAt baseSlug db.store := by
  rw [firstOrdinal]
  cases hcounter : getCollisionCounter libraryId (occurredAt / 1000 * 1000) baseSlug db.store with
  | none => exact le_rfl
  | some counter =>
    exact ((h.identifiersSound db h.mem_visited).counters counter
      (List.mem_of_find?_eq_some hcounter)).le

/-- **When repeating a request gets past the taken identifiers.**  A title that still
has a free ordinal at this time is allocated one of them after some number of
attempts exactly when one of the next few ordinals is free. -/
theorem allocation_recovers_iff (h : PageRun visited db) (creator : PageCreator)
    (collisionAttempts : ℕ) (libraryId : Id) {title : Text} {occurredAt : ℤ} {canonicalUtc : Text}
    {base : GeneratedPageId}
    (hbase : generatePageId ⟨occurredAt, canonicalUtc⟩ title 1 = .ok base) :
    ((∃ n, 1 ≤ n ∧ n ≤ maxCollisionOrdinal ∧
        FreeOrdinal db.store libraryId ⟨occurredAt, canonicalUtc⟩ title n) →
      ∃ attempts generated,
        (retry (creator.allocatePageId collisionAttempts libraryId title occurredAt) attempts
          db).1 = .ok generated) ↔
    (∃ n, firstOrdinal libraryId occurredAt base.baseSlug db.store ≤ n ∧
      n < firstOrdinal libraryId occurredAt base.baseSlug db.store + collisionAttempts ∧
      FreeOrdinal db.store libraryId ⟨occurredAt, canonicalUtc⟩ title n) ∨
    ∀ n, 1 ≤ n → n ≤ maxCollisionOrdinal →
      ¬FreeOrdinal db.store libraryId ⟨occurredAt, canonicalUtc⟩ title n := by
  constructor
  · intro hrecovers
    by_cases hany : ∃ n, 1 ≤ n ∧ n ≤ maxCollisionOrdinal ∧
        FreeOrdinal db.store libraryId ⟨occurredAt, canonicalUtc⟩ title n
    · left
      obtain ⟨attempts, generated, hretry⟩ := hrecovers hany
      rw [retry_eq] at hretry
      rcases immediateTransaction_eq_or
        (creator.allocatePageId collisionAttempts libraryId title occurredAt) db with
        ⟨e, hrun⟩ | ⟨a, c, db', hbody, -, -, -⟩
      · rw [hrun] at hretry
        cases hretry
      · obtain ⟨canonicalUtc', base', n, hbase', hlow, hhigh, hfree, -⟩ :=
          creator.allocatePageId_ok hbody
        -- the spelling of the time is determined by the time
        obtain ⟨hwire, -⟩ := generatePageId_ok hbase
        obtain ⟨hwire', -⟩ := generatePageId_ok hbase'
        obtain rfl : canonicalUtc = canonicalUtc' := Except.ok.inj (hwire.symm.trans hwire')
        obtain rfl : base = base' := Except.ok.inj (hbase.symm.trans hbase')
        exact ⟨n, hlow, hhigh, a, hfree⟩
    · right
      intro n hlow hhigh hfree
      exact hany ⟨n, hlow, hhigh, hfree⟩
  · rintro (⟨n, hlow, hhigh, hfree⟩ | hnone) ⟨m, hm1, hmmax, hmfree⟩
    · obtain ⟨generated, c', hallocate⟩ := creator.exists_allocatePageId (c := ⟨db.store, []⟩) hbase
        (h.firstOrdinal_pos libraryId occurredAt base.baseSlug) hlow hhigh hfree
      obtain ⟨-, -, -, -, -, -, -, counters, rfl⟩ := creator.allocatePageId_ok hallocate
      exact ⟨0, generated, immediateTransaction_withCounters h.deferredForeignKeys hallocate⟩
    · exact absurd hmfree (hnone m hm1 hmmax)

end

section Sample

attribute [local instance] asciiPlatform

/-- The agent creates a Page with one of the titles `foo`, `foo 2`, `foo 3`, …, all
at the same time. -/
def crowdedCreate (n : ℕ) : Operation :=
  .createArchive sampleToken
    { libraryId := "lib", sectionId := "sec", bookId := "one"
      title := if n = 1 then "foo" else "foo " ++ Nat.toDigits 10 n
      occurredAt := none, contentMd := utf8Encode "hello", source := ⟨"chat", none, none⟩
      requestId := "create" }
    [n.toUInt8] 1000
    { sourceId := "source-" ++ Nat.toDigits 10 n, auditId := "audit-" ++ Nat.toDigits 10 n
      pageUids := [List.replicate 16 n.toUInt8]
      revisionIds := ["rev_" ++ List.replicate 32 (Nat.digitChar n)] }

/-- The database after the first `n` of them. -/
def crowded : ℕ → Db
  | 0 => sampleFounded
  | n + 1 => ((crowdedCreate (n + 1)).commit (crowded n)).2

theorem crowdedRun (n : ℕ) : ∃ visited, PageRun visited (crowded n) := by
  induction n with
  | zero =>
    have hstart : PageRun [Db.migrated] Db.migrated := .start rfl
    exact ⟨_, hstart.next (.elsewhere foundLibrary elsewhere_foundLibrary _)⟩
  | succ n ih =>
    obtain ⟨visited, hrun⟩ := ih
    exact ⟨_, hrun.next (.operation (crowdedCreate (n + 1)) _)⟩

/-- The first title once more. -/
def crowdedAgain : Operation :=
  .createArchive sampleToken
    { libraryId := "lib", sectionId := "sec", bookId := "one", title := "foo", occurredAt := none
      contentMd := utf8Encode "hello", source := ⟨"chat", none, none⟩, requestId := "again" }
    [100] 1000
    { sourceId := "again", auditId := "again", pageUids := [List.replicate 16 100]
      revisionIds := ["rev_" ++ List.replicate 32 'a'] }

/-- **After nine Pages the tenth create is refused on every retry**, although the
ordinal behind the eight that are tried is free. -/
theorem allocation_never_recovers_crowded :
    (∃ visited, PageRun visited (crowded 9)) ∧
    (∀ attempts answer, (retry crowdedAgain.body attempts (crowded 9)).1 ≠ .ok answer) ∧
    ¬((∃ n, 1 ≤ n ∧ n ≤ maxCollisionOrdinal ∧ FreeOrdinal (crowded 9).store "lib"
        ⟨1000, formatUtcMicroseconds 1000⟩ "foo" n) →
      ∃ attempts generated,
        (retry (PageCreator.archiveService.allocatePageId defaultCollisionAttempts "lib" "foo" 1000)
          attempts (crowded 9)).1 = .ok generated) := by
  -- the identifier of the tenth ordinal is not registered
  obtain ⟨hrequest, hallocation, hfree⟩ :
      (immediateTransaction crowdedAgain.body (crowded 9)).1.toOption.isNone = true ∧
      (immediateTransaction (PageCreator.archiveService.allocatePageId defaultCollisionAttempts "lib"
        "foo" 1000) (crowded 9)).1.toOption.isNone = true ∧
      FreeOrdinal (crowded 9).store "lib" ⟨1000, formatUtcMicroseconds 1000⟩ "foo" 10 := by
    decide +kernel
  refine ⟨crowdedRun 9, fun attempts answer hretry => ?_, fun hrecovers => ?_⟩
  · rw [retry_eq] at hretry
    rw [hretry] at hrequest
    cases hrequest
  · obtain ⟨attempts, generated, hretry⟩ := hrecovers ⟨10, by decide, by decide, hfree⟩
    rw [retry_eq] at hretry
    rw [hretry] at hallocation
    cases hallocation

def sampleFoo : GeneratedPageId := ⟨"19700101t000000001z-foo", "19700101t000000001z", "foo", 1⟩

/-- While one of the eight ordinals is free, the allocation goes through. -/
theorem allocation_recovers_crowded :
    ∃ attempts generated,
      (retry (PageCreator.fileSetPageCreateCore.allocatePageId defaultCollisionAttempts "lib" "foo"
        1000) attempts (crowded 8)).1 = .ok generated := by
  obtain ⟨hbase, hfirst, hfree⟩ :
      generatePageId ⟨1000, formatUtcMicroseconds 1000⟩ "foo" 1 = .ok sampleFoo ∧
      firstOrdinal "lib" 1000 sampleFoo.baseSlug (crowded 8).store = 2 ∧
      FreeOrdinal (crowded 8).store "lib" ⟨1000, formatUtcMicroseconds 1000⟩ "foo" 9 := by
    decide +kernel
  obtain ⟨visited, hrun⟩ := crowdedRun 8
  refine (allocation_recovers_iff hrun .fileSetPageCreateCore defaultCollisionAttempts "lib"
    hbase).mpr (.inl ⟨9, ?_, ?_, hfree⟩) ⟨9, by decide, by decide, hfree⟩
  · rw [hfirst]
    decide
  · rw [hfirst]
    decide

end Sample

end PatchouliLib
