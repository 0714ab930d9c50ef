import PatchouliLib.Content.Service
import PatchouliLib.Identifiers.CollisionOrdinals

/-!
# Allocation of Page identifiers

Two services create Pages, and each has its own copy of the allocation.  A copy
looks up the collision counter of the title and the millisecond.  Without one it
tries the ordinals from 1 on and stores a counter behind the first that is free;
with one it advances the counter until the identifier of its ordinal is free.
Both give up after a fixed number of attempts.

## Main definitions

* `ArchiveService.allocatePageId`, `FileSetPageCreateCore.allocatePageId` — the
  two copies.
* `PageCreator` — the services that create Pages.
* `FreeOrdinal` — the identifier of an ordinal is not in the registry.

## Main results

* `archiveService_allocatePageId_eq`, `fileSetPageCreateCore_allocatePageId_eq` — the
  allocation of the writes is, with eight attempts, that of the services.
* `allocatePageId_toOption_eq` — **the two copies allocate alike.**
* `PageCreator.allocatePageId_ok`, `PageCreator.exists_allocatePageId` — an allocation
  finds a free ordinal among the next few exactly when there is one.
-/

namespace PatchouliLib

open Foundation

/-- `get_collision_counter`. -/
def getCollisionCounter (libraryId : Id) (idTimestampMicros : ℤ) (baseSlug : Text) (s : Store) :
    Option PageIdCollisionCounter :=
  s.content.pageIdCollisionCounters.find? fun c =>
    c.libraryId = libraryId ∧ c.idTimestampMicros = idTimestampMicros ∧ c.baseSlug = baseSlug

variable [Platform]

/-! ### The two copies -/

namespace ArchiveService

/-- `for _ in range(self._collision_attempts)`, with an ordinal that counts along. -/
def tryOrdinals (libraryId : Id) (floor : ℤ) (base : GeneratedPageId) (occurrence : OccurrenceTime)
    (title : Text) : ℕ → ℕ → Write GeneratedPageId
  | 0, _ => raise .archiveIdentifierExhausted
  | attempts + 1, ordinal =>
    if maxCollisionOrdinal < ordinal then raise .archiveIdentifierExhausted
    else do
      let candidate ← attempt (generatePageId occurrence title ordinal)
      let taken ← query (identifierExists libraryId candidate.value)
      if taken then tryOrdinals libraryId floor base occurrence title attempts (ordinal + 1)
      else do
        insertPageIdCollisionCounter ⟨libraryId, floor, base.baseSlug, ordinal + 1⟩
        pure candidate

/-- `ArchiveService._allocate_page_id`. -/
def allocatePageId (collisionAttempts : ℕ) (libraryId : Id) (title : Text) (occurredAt : ℤ) :
    Write GeneratedPageId := do
  let canonicalUtc ← attempt (canonicalUtcWire occurredAt)
  let occurrence : OccurrenceTime := ⟨occurredAt, canonicalUtc⟩
  let base ← attempt (generatePageId occurrence title 1)
  let floor := occurredAt / 1000 * 1000
  let counter ← query fun s => pure (getCollisionCounter libraryId floor base.baseSlug s)
  match counter with
  | none => tryOrdinals libraryId floor base occurrence title collisionAttempts 1
  | some counter =>
    advanceUntilFree .archiveIdentifierExhausted .archivePersistence libraryId occurrence title
      collisionAttempts counter

end ArchiveService

namespace FileSetPageCreateCore

/-- `for ordinal in range(1, self._collision_attempts + 1)`. -/
def tryOrdinals (libraryId : Id) (floor : ℤ) (base : GeneratedPageId) (occurrence : OccurrenceTime)
    (title : Text) : List ℕ → Write GeneratedPageId
  | [] => raise .fileSetCreateIdentifierExhausted
  | ordinal :: ordinals =>
    if maxCollisionOrdinal < ordinal then raise .fileSetCreateIdentifierExhausted
    else do
      let candidate ← attempt (generatePageId occurrence title ordinal)
      let taken ← query (identifierExists libraryId candidate.value)
      if taken then tryOrdinals libraryId floor base occurrence title ordinals
      else do
        insertPageIdCollisionCounter ⟨libraryId, floor, base.baseSlug, ordinal + 1⟩
        pure candidate

/-- `FileSetPageCreateCore._allocate_page_id`. -/
def allocatePageId (collisionAttempts : ℕ) (libraryId : Id) (title : Text) (occurredAt : ℤ) :
    Write GeneratedPageId := do
  let canonicalUtc ← attempt (canonicalUtcWire occurredAt)
  let occurrence : OccurrenceTime := ⟨occurredAt, canonicalUtc⟩
  let base ← attempt (generatePageId occurrence title 1)
  let floor := occurredAt / 1000 * 1000
  let counter ← query fun s => pure (getCollisionCounter libraryId floor base.baseSlug s)
  match counter with
  | none =>
    tryOrdinals libraryId floor base occurrence title (List.range' 1 collisionAttempts)
  | some counter =>
    advanceUntilFree .fileSetCreateIdentifierExhausted .fileSetCreateIdentifierExhausted libraryId
      occurrence title collisionAttempts counter

end FileSetPageCreateCore

/-- A service that creates Pages. -/
inductive PageCreator where
  | archiveService
  | fileSetPageCreateCore
deriving DecidableEq

def PageCreator.allocatePageId : PageCreator → ℕ → Id → Text → ℤ → Write GeneratedPageId
  | archiveService => ArchiveService.allocatePageId
  | fileSetPageCreateCore => FileSetPageCreateCore.allocatePageId

/-! ### The allocation of the writes -/

/-- What follows the search for a free ordinal. -/
def keepCounter (libraryId : Id) (floor : ℤ) (base candidate : GeneratedPageId) :
    Write GeneratedPageId := do
  insertPageIdCollisionCounter ⟨libraryId, floor, base.baseSlug, candidate.collisionOrdinal + 1⟩
  pure candidate

section

variable {libraryId : Id} {floor : ℤ} {base : GeneratedPageId} {occurrence : OccurrenceTime}
  {title : Text}

theorem firstFreeOrdinal_error {exhausted e : Err} {s : Store} {ordinal : ℕ} {ordinals : List ℕ}
    (h : generatePageId occurrence title ordinal = .error e) :
    firstFreeOrdinal exhausted libraryId occurrence title s (ordinal :: ordinals) = .error e := by
  rw [firstFreeOrdinal, h]
  rfl

theorem firstFreeOrdinal_lookup_error {exhausted e : Err} {s : Store} {ordinal : ℕ}
    {ordinals : List ℕ} {candidate : GeneratedPageId}
    (h : generatePageId occurrence title ordinal = .ok candidate)
    (htaken : identifierExists libraryId candidate.value s = .error e) :
    firstFreeOrdinal exhausted libraryId occurrence title s (ordinal :: ordinals) = .error e := by
  rw [firstFreeOrdinal, h, Fallible.ok_bind, htaken]
  rfl

theorem firstFreeOrdinal_taken {exhausted : Err} {s : Store} {ordinal : ℕ} {ordinals : List ℕ}
    {candidate : GeneratedPageId} (h : generatePageId occurrence title ordinal = .ok candidate)
    (htaken : identifierExists libraryId candidate.value s = .ok true) :
    firstFreeOrdinal exhausted libraryId occurrence title s (ordinal :: ordinals) =
      firstFreeOrdinal exhausted libraryId occurrence title s ordinals := by
  rw [firstFreeOrdinal, h, Fallible.ok_bind, htaken]
  rfl

theorem firstFreeOrdinal_free {exhausted : Err} {s : Store} {ordinal : ℕ} {ordinals : List ℕ}
    {candidate : GeneratedPageId} (h : generatePageId occurrence title ordinal = .ok candidate)
    (htaken : identifierExists libraryId candidate.value s = .ok false) :
    firstFreeOrdinal exhausted libraryId occurrence title s (ordinal :: ordinals) =
      .ok candidate := by
  rw [firstFreeOrdinal, h, Fallible.ok_bind, htaken]
  rfl

/-- One round of a loop that goes on as the search does. -/
theorem round_eq {exhausted : Err} {ordinal : ℕ} {ordinals : List ℕ} {rest : Write GeneratedPageId}
    (hrest : rest = query (fun s => firstFreeOrdinal exhausted libraryId occurrence title s
      ordinals) >>= keepCounter libraryId floor base) :
    (do
      let candidate ← attempt (generatePageId occurrence title ordinal)
      let taken ← query (identifierExists libraryId candidate.value)
      if taken then rest
      else do
        insertPageIdCollisionCounter ⟨libraryId, floor, base.baseSlug, ordinal + 1⟩
        pure candidate) =
      query (fun s => firstFreeOrdinal exhausted libraryId occurrence title s
        (ordinal :: ordinals)) >>= keepCounter libraryId floor base := by
  funext c
  cases hcandidate : generatePageId occurrence title ordinal with
  | error e =>
    rw [query_bind_error (firstFreeOrdinal_error hcandidate)]
    rfl
  | ok candidate =>
    obtain ⟨-, -, -, -, hfields⟩ := generatePageId_ok hcandidate
    rw [bind_run (x := attempt _) rfl]
    cases htaken : identifierExists libraryId candidate.value c.store with
    | error e =>
      rw [query_bind_error htaken,
        query_bind_error (firstFreeOrdinal_lookup_error hcandidate htaken)]
    | ok taken =>
      rw [query_bind_run htaken]
      cases taken with
      | true =>
        rw [if_pos rfl, hrest]
        cases hfree : firstFreeOrdinal exhausted libraryId occurrence title c.store ordinals with
        | error e =>
          rw [query_bind_error hfree,
            query_bind_error ((firstFreeOrdinal_taken hcandidate htaken).trans hfree)]
        | ok found =>
          rw [query_bind_run hfree,
            query_bind_run ((firstFreeOrdinal_taken hcandidate htaken).trans hfree)]
      | false =>
        rw [if_neg Bool.false_ne_true,
          query_bind_run (firstFreeOrdinal_free hcandidate htaken), keepCounter, hfields]

/-- The loop of the Archive service looks for the first free ordinal. -/
theorem archiveService_tryOrdinals_eq {attempts ordinal : ℕ}
    (h : ordinal + attempts ≤ maxCollisionOrdinal + 1) :
    ArchiveService.tryOrdinals libraryId floor base occurrence title attempts ordinal =
      query (fun s => firstFreeOrdinal .archiveIdentifierExhausted libraryId occurrence title s
        (List.range' ordinal attempts)) >>= keepCounter libraryId floor base := by
  induction attempts generalizing ordinal with
  | zero => rfl
  | succ attempts ih =>
    rw [ArchiveService.tryOrdinals, if_neg (by omega), List.range'_succ]
    exact round_eq (ih (by omega))

/-- So does the loop of the other service. -/
theorem fileSetPageCreateCore_tryOrdinals_eq {ordinals : List ℕ}
    (h : ∀ n ∈ ordinals, n ≤ maxCollisionOrdinal) :
    FileSetPageCreateCore.tryOrdinals libraryId floor base occurrence title ordinals =
      query (fun s => firstFreeOrdinal .fileSetCreateIdentifierExhausted libraryId occurrence title
        s ordinals) >>= keepCounter libraryId floor base := by
  induction ordinals with
  | nil => rfl
  | cons ordinal ordinals ih =>
    have hordinal := h ordinal List.mem_cons_self
    rw [FileSetPageCreateCore.tryOrdinals, if_neg (Nat.not_lt.mpr hordinal)]
    exact round_eq (ih fun n hn => h n (List.mem_cons_of_mem ordinal hn))

end

omit [Platform] in
theorem range_map_succ (attempts : ℕ) :
    (List.range attempts).map (· + 1) = List.range' 1 attempts := by
  rw [List.range'_eq_map_range]
  exact List.map_congr_left fun n _ => Nat.add_comm n 1

/-- **The allocation of an Archive create is that of its service.** -/
theorem archiveService_allocatePageId_eq :
    ArchiveService.allocatePageId defaultCollisionAttempts =
      allocatePageId .archiveIdentifierExhausted .archivePersistence := by
  funext libraryId title occurredAt
  unfold ArchiveService.allocatePageId allocatePageId
  rw [range_map_succ]
  simp only [archiveService_tryOrdinals_eq (by decide :
    1 + defaultCollisionAttempts ≤ maxCollisionOrdinal + 1)]
  rfl

/-- **The allocation of a file-set create is that of its service.** -/
theorem fileSetPageCreateCore_allocatePageId_eq :
    FileSetPageCreateCore.allocatePageId defaultCollisionAttempts =
      allocatePageId .fileSetCreateIdentifierExhausted .fileSetCreateIdentifierExhausted := by
  funext libraryId title occurredAt
  unfold FileSetPageCreateCore.allocatePageId allocatePageId
  rw [range_map_succ]
  simp only [fileSetPageCreateCore_tryOrdinals_eq (by decide :
    ∀ n ∈ List.range' 1 defaultCollisionAttempts, n ≤ maxCollisionOrdinal)]
  rfl

/-- An ordinal that has been found is an ordinal. -/
theorem firstFreeOrdinal_pos {exhausted : Err} {libraryId : Id} {occurrence : OccurrenceTime}
    {title : Text} {s : Store} {ordinals : List ℕ} {candidate : GeneratedPageId}
    (h : firstFreeOrdinal exhausted libraryId occurrence title s ordinals = .ok candidate) :
    1 ≤ candidate.collisionOrdinal := by
  induction ordinals with
  | nil => cases h
  | cons ordinal ordinals ih =>
    cases hcandidate : generatePageId occurrence title ordinal with
    | error e =>
      rw [firstFreeOrdinal_error hcandidate] at h
      cases h
    | ok found =>
      obtain ⟨-, ⟨hlow, -⟩, -, -, hfields⟩ := generatePageId_ok hcandidate
      cases htaken : identifierExists libraryId found.value s with
      | error e =>
        rw [firstFreeOrdinal_lookup_error hcandidate htaken] at h
        cases h
      | ok taken =>
        cases taken with
        | true =>
          rw [firstFreeOrdinal_taken hcandidate htaken] at h
          exact ih h
        | false =>
          rw [firstFreeOrdinal_free hcandidate htaken] at h
          rw [← Except.ok.inj h, hfields]
          exact hlow

/-! ### The two copies allocate alike -/

section

variable {libraryId : Id} {floor : ℤ} {base : GeneratedPageId} {occurrence : OccurrenceTime}
  {title : Text}

theorem tryOrdinals_toOption_eq (attempts ordinal : ℕ) (c : Connection) :
    (ArchiveService.tryOrdinals libraryId floor base occurrence title attempts ordinal c).toOption =
      (FileSetPageCreateCore.tryOrdinals libraryId floor base occurrence title
        (List.range' ordinal attempts) c).toOption := by
  induction attempts generalizing ordinal c with
  | zero => rfl
  | succ attempts ih =>
    rw [List.range'_succ, ArchiveService.tryOrdinals, FileSetPageCreateCore.tryOrdinals]
    by_cases hlarge : maxCollisionOrdinal < ordinal
    · rw [if_pos hlarge, if_pos hlarge]
      rfl
    · rw [if_neg hlarge, if_neg hlarge]
      refine toOption_bind_congr fun candidate c => ?_
      refine toOption_bind_congr fun taken c => ?_
      cases taken with
      | true => exact ih (ordinal + 1) c
      | false => rfl

theorem advanceUntilFree_toOption_eq (exhausted stale exhausted' stale' : Err) (attempts : ℕ)
    (counter : PageIdCollisionCounter) (c : Connection) :
    (advanceUntilFree exhausted stale libraryId occurrence title attempts counter c).toOption =
      (advanceUntilFree exhausted' stale' libraryId occurrence title attempts counter
        c).toOption := by
  induction attempts generalizing counter c with
  | zero => rfl
  | succ attempts ih =>
    refine toOption_require_bind fun _ => ?_
    refine toOption_bind_congr fun matched c => ?_
    refine toOption_require_bind fun _ => ?_
    refine toOption_bind_congr fun candidate c => ?_
    refine toOption_bind_congr fun taken c => ?_
    cases taken with
    | true => exact ih _ c
    | false => rfl

end

/-- **The two copies allocate alike**: the same identifier with the same writes, or
both none. -/
theorem allocatePageId_toOption_eq (collisionAttempts : ℕ) (libraryId : Id) (title : Text)
    (occurredAt : ℤ) (c : Connection) :
    (ArchiveService.allocatePageId collisionAttempts libraryId title occurredAt c).toOption =
      (FileSetPageCreateCore.allocatePageId collisionAttempts libraryId title occurredAt
        c).toOption := by
  refine toOption_bind_congr fun canonicalUtc c => ?_
  refine toOption_bind_congr fun base c => ?_
  refine toOption_bind_congr fun counter c => ?_
  cases counter with
  | none => exact tryOrdinals_toOption_eq _ _ _
  | some counter => exact advanceUntilFree_toOption_eq _ _ _ _ _ _ _

/-! ### What an allocation finds -/

/-- The candidate of an ordinal, when its identifier is not in the registry. -/
def IsFree (s : Store) (libraryId : Id) (occurrence : OccurrenceTime) (title : Text) (ordinal : ℕ)
    (candidate : GeneratedPageId) : Prop :=
  generatePageId occurrence title ordinal = .ok candidate ∧
    identifierExists libraryId candidate.value s = .ok false

/-- The identifier of an ordinal is not in the registry. -/
def FreeOrdinal (s : Store) (libraryId : Id) (occurrence : OccurrenceTime) (title : Text)
    (ordinal : ℕ) : Prop :=
  ∃ candidate, IsFree s libraryId occurrence title ordinal candidate

instance (s : Store) (libraryId : Id) (occurrence : OccurrenceTime) (title : Text) (ordinal : ℕ) :
    Decidable (FreeOrdinal s libraryId occurrence title ordinal) :=
  decidable_of_iff ((generatePageId occurrence title ordinal >>= fun candidate =>
    identifierExists libraryId candidate.value s) = .ok false) Fallible.bind_ok

/-- The ordinal an allocation tries first. -/
def firstOrdinal (libraryId : Id) (occurredAt : ℤ) (baseSlug : Text) (s : Store) : ℕ :=
  ((getCollisionCounter libraryId (occurredAt / 1000 * 1000) baseSlug s).map
    (·.nextOrdinal)).getD 1

/-- The connection with other collision counters. -/
def Connection.withCounters (c : Connection) (counters : List PageIdCollisionCounter) :
    Connection :=
  { c with store := c.store.modifyContent fun t => { t with pageIdCollisionCounters := counters } }

section

variable {libraryId : Id} {floor : ℤ} {base candidate : GeneratedPageId}
  {occurrence : OccurrenceTime} {title : Text} {c c' : Connection}

omit [Platform] in
theorem Connection.withCounters_self (c : Connection) :
    c.withCounters c.store.content.pageIdCollisionCounters = c := rfl

theorem IsFree.of_withCounters {counters : List PageIdCollisionCounter} {n : ℕ}
    (h : IsFree (c.withCounters counters).store libraryId occurrence title n candidate) :
    IsFree c.store libraryId occurrence title n candidate := h

omit [Platform] in
theorem insertPageIdCollisionCounter_ok {counter : PageIdCollisionCounter} {w : PUnit} :
    insertPageIdCollisionCounter counter c = .ok (w, c') ↔
      (∀ k ∈ c.store.content.pageIdCollisionCounters, ¬k.SameKey counter) ∧
        c.withCounters (c.store.content.pageIdCollisionCounters ++ [counter]) = c' := by
  simp only [insertPageIdCollisionCounter, bind_ok, constraint_ok, modifyStore_ok,
    exists_and_left, exists_eq_left', and_assoc, exists_const]
  rfl

/-- The loop without a counter ends at a free ordinal of its range. -/
theorem ArchiveService.tryOrdinals_ok {attempts ordinal : ℕ}
    (h : ArchiveService.tryOrdinals libraryId floor base occurrence title attempts ordinal c =
      .ok (candidate, c')) :
    ∃ n, ordinal ≤ n ∧ n < ordinal + attempts ∧
      IsFree c.store libraryId occurrence title n candidate ∧
      ∃ counters, c' = c.withCounters counters := by
  induction attempts generalizing ordinal with
  | zero => cases h
  | succ attempts ih =>
    rw [ArchiveService.tryOrdinals] at h
    split at h
    · cases h
    · simp only [bind_ok, attempt_ok, query_ok, exists_and_left, exists_eq_left', and_assoc] at h
      obtain ⟨found, hfound, taken, htaken, h⟩ := h
      cases taken with
      | true =>
        obtain ⟨n, hlow, hhigh, hfree, hwrites⟩ := ih h
        exact ⟨n, by omega, by omega, hfree, hwrites⟩
      | false =>
        simp only [Bool.false_eq_true, ↓reduceIte, bind_ok, insertPageIdCollisionCounter_ok,
          pure_ok, exists_and_left, exists_eq_left', and_assoc, exists_const] at h
        obtain ⟨-, rfl, rfl⟩ := h
        exact ⟨ordinal, le_rfl, by omega, ⟨hfound, htaken⟩, _, rfl⟩

/-- The loop with a counter ends at a free ordinal of its range. -/
theorem advanceUntilFree_ok {exhausted stale : Err} {attempts : ℕ}
    {counter : PageIdCollisionCounter}
    (h : advanceUntilFree exhausted stale libraryId occurrence title attempts counter c =
      .ok (candidate, c')) :
    ∃ n, counter.nextOrdinal ≤ n ∧ n < counter.nextOrdinal + attempts ∧
      IsFree c.store libraryId occurrence title n candidate ∧
      ∃ counters, c' = c.withCounters counters := by
  induction attempts generalizing counter c with
  | zero => cases h
  | succ attempts ih =>
    simp only [advanceUntilFree, updatePageIdCollisionCounter, bind_ok, require_ok, attempt_ok,
      query_ok, Fallible.pure_ok, exists_and_left, exists_eq_left', and_assoc, exists_const] at h
    obtain ⟨-, matched, c₁, hupdate, hmatched, found, hfound, taken, htaken, h⟩ := h
    split at hupdate
    · simp only [bind_ok, constraint_ok, modifyStore_ok, pure_ok, exists_and_left,
        exists_eq_left', and_assoc, exists_const] at hupdate
      obtain ⟨-, -, rfl⟩ := hupdate
      cases taken with
      | true =>
        obtain ⟨n, hlow, hhigh, hfree, counters, hwrites⟩ := ih h
        dsimp only at hlow hhigh
        exact ⟨n, by omega, by omega, hfree, counters, hwrites⟩
      | false =>
        simp only [Bool.false_eq_true, ↓reduceIte, pure_ok] at h
        obtain ⟨rfl, rfl⟩ := h
        exact ⟨counter.nextOrdinal, le_rfl, by omega, ⟨hfound, htaken⟩, _, rfl⟩
    · obtain ⟨rfl, -⟩ := pure_ok.mp hupdate
      cases hmatched

/-- Whether a generated identifier is in the registry can be told. -/
theorem exists_identifierExists {n : ℕ} (h : generatePageId occurrence title n = .ok candidate)
    (libraryId : Id) (s : Store) : ∃ taken, identifierExists libraryId candidate.value s = .ok taken := by
  obtain ⟨-, -, -, ⟨v, hvalid⟩, -⟩ := generatePageId_ok h
  simp only [identifierExists, pageIdRegistryDigest, hvalid, Fallible.ok_bind]
  exact ⟨_, rfl⟩

/-- The loop without a counter ends when an ordinal of its range is free. -/
theorem ArchiveService.exists_tryOrdinals (hbase : generatePageId occurrence title 1 = .ok base)
    (hcounter : getCollisionCounter libraryId floor base.baseSlug c.store = none)
    {attempts ordinal n : ℕ} (hordinal : 1 ≤ ordinal) (hlow : ordinal ≤ n)
    (hhigh : n < ordinal + attempts) (hfree : FreeOrdinal c.store libraryId occurrence title n) :
    ∃ candidate c', ArchiveService.tryOrdinals libraryId floor base occurrence title attempts ordinal
      c = .ok (candidate, c') := by
  obtain ⟨last, hlast, -⟩ := id hfree
  obtain ⟨-, ⟨-, hmax⟩, -⟩ := generatePageId_ok hlast
  induction attempts generalizing ordinal with
  | zero => omega
  | succ attempts ih =>
    obtain ⟨found, hfound⟩ := exists_generatePageId hbase hordinal (hlow.trans hmax)
    obtain ⟨taken, htaken⟩ := exists_identifierExists hfound libraryId c.store
    rw [ArchiveService.tryOrdinals, if_neg (by omega), bind_run (attempt_ok.mpr ⟨hfound, rfl⟩),
      query_bind_run htaken]
    cases taken with
    | true =>
      -- the free ordinal is a later one
      have hne : ordinal ≠ n := by
        rintro rfl
        obtain ⟨candidate, hcandidate, hunused⟩ := hfree
        rw [hfound] at hcandidate
        obtain rfl := Except.ok.inj hcandidate
        rw [htaken] at hunused
        cases hunused
      rw [if_pos rfl]
      exact ih (by omega) (by omega) (by omega)
    | false =>
      have hnone : ∀ k ∈ c.store.content.pageIdCollisionCounters,
          ¬k.SameKey ⟨libraryId, floor, base.baseSlug, ordinal + 1⟩ := by
        intro k hk hsame
        have hother := List.find?_eq_none.mp hcounter k hk
        exact hother (decide_eq_true hsame)
      rw [if_neg Bool.false_ne_true, bind_run (insertPageIdCollisionCounter_ok (w := ⟨⟩).mpr ⟨hnone, rfl⟩)]
      exact ⟨found, _, rfl⟩

omit [Platform] in
/-- The stored counter can be advanced. -/
theorem updatePageIdCollisionCounter_run {counter : PageIdCollisionCounter}
    (h : counter ∈ c.store.content.pageIdCollisionCounters) :
    updatePageIdCollisionCounter counter (counter.nextOrdinal + 1) c =
      .ok (true, c.withCounters (c.store.content.pageIdCollisionCounters.map fun k =>
        if k = counter then { counter with nextOrdinal := counter.nextOrdinal + 1 } else k)) := by
  have hcontains : c.store.content.pageIdCollisionCounters.contains counter = true :=
    List.contains_iff_mem.mpr h
  rw [updatePageIdCollisionCounter, query_bind, if_pos hcontains,
    bind_run (constraint_ok (w := ⟨⟩).mpr ⟨Nat.le_succ _, rfl⟩)]
  rfl

/-- The loop with a counter ends when an ordinal of its range is free. -/
theorem exists_advanceUntilFree (exhausted stale : Err)
    (hbase : generatePageId occurrence title 1 = .ok base) {counter : PageIdCollisionCounter}
    (hcounter : counter ∈ c.store.content.pageIdCollisionCounters) {attempts n : ℕ}
    (hordinal : 1 ≤ counter.nextOrdinal) (hlow : counter.nextOrdinal ≤ n)
    (hhigh : n < counter.nextOrdinal + attempts)
    (hfree : FreeOrdinal c.store libraryId occurrence title n) :
    ∃ candidate c', advanceUntilFree exhausted stale libraryId occurrence title attempts counter
      c = .ok (candidate, c') := by
  obtain ⟨last, hlast, -⟩ := id hfree
  obtain ⟨-, ⟨-, hmax⟩, -⟩ := generatePageId_ok hlast
  induction attempts generalizing counter c with
  | zero => omega
  | succ attempts ih =>
    obtain ⟨found, hfound⟩ := exists_generatePageId hbase hordinal (hlow.trans hmax)
    obtain ⟨taken, htaken⟩ := exists_identifierExists hfound libraryId c.store
    -- the registry is the one before the counter was advanced
    have hlookup : ∀ counters, identifierExists libraryId found.value
        (c.withCounters counters).store = .ok taken := fun _ => htaken
    rw [advanceUntilFree, require_bind (hlow.trans hmax),
      bind_run (updatePageIdCollisionCounter_run hcounter), require_bind rfl,
      bind_run (attempt_ok.mpr ⟨hfound, rfl⟩), query_bind_run (hlookup _)]
    cases taken with
    | true =>
      have hne : counter.nextOrdinal ≠ n := by
        rintro rfl
        obtain ⟨candidate, hcandidate, hunused⟩ := hfree
        rw [hfound] at hcandidate
        obtain rfl := Except.ok.inj hcandidate
        rw [htaken] at hunused
        cases hunused
      have hadvanced := List.mem_map_of_mem (f := fun k : PageIdCollisionCounter =>
        if k = counter then { counter with nextOrdinal := counter.nextOrdinal + 1 } else k) hcounter
      rw [if_pos rfl] at hadvanced
      rw [if_pos rfl]
      refine ih (c := c.withCounters _) hadvanced (Nat.le_add_left 1 _) ?_ ?_ hfree
      · show counter.nextOrdinal + 1 ≤ n
        omega
      · show n < counter.nextOrdinal + 1 + attempts
        omega
    | false => exact ⟨found, _, rfl⟩

end

/-! ### The allocation of a service -/

section

variable {creator : PageCreator} {collisionAttempts : ℕ} {libraryId : Id} {title : Text}
  {occurredAt : ℤ} {c c' : Connection}

/-- What one service allocates, the Archive service allocates. -/
theorem PageCreator.allocatePageId_ok_iff {candidate : GeneratedPageId} :
    creator.allocatePageId collisionAttempts libraryId title occurredAt c = .ok (candidate, c') ↔
      ArchiveService.allocatePageId collisionAttempts libraryId title occurredAt c =
        .ok (candidate, c') := by
  have htoOption : ∀ x : Except Err (GeneratedPageId × Connection),
      x = .ok (candidate, c') ↔ x.toOption = some (candidate, c') := by
    intro x
    cases x <;> simp [Except.toOption]
  cases creator with
  | archiveService => rfl
  | fileSetPageCreateCore =>
    rw [PageCreator.allocatePageId, htoOption, htoOption, allocatePageId_toOption_eq]

/-- **An allocation finds a free ordinal among the next few**, and writes nothing but
collision counters. -/
theorem PageCreator.allocatePageId_ok {candidate : GeneratedPageId}
    (h : creator.allocatePageId collisionAttempts libraryId title occurredAt c =
      .ok (candidate, c')) :
    ∃ canonicalUtc base n, generatePageId ⟨occurredAt, canonicalUtc⟩ title 1 = .ok base ∧
      firstOrdinal libraryId occurredAt base.baseSlug c.store ≤ n ∧
      n < firstOrdinal libraryId occurredAt base.baseSlug c.store + collisionAttempts ∧
      IsFree c.store libraryId ⟨occurredAt, canonicalUtc⟩ title n candidate ∧
      ∃ counters, c' = c.withCounters counters := by
  rw [allocatePageId_ok_iff] at h
  simp only [ArchiveService.allocatePageId, bind_ok, attempt_ok, query_ok, Fallible.pure_ok,
    exists_and_left, exists_eq_left', and_assoc] at h
  obtain ⟨canonicalUtc, -, base, hbase, h⟩ := h
  refine ⟨canonicalUtc, base, ?_⟩
  rw [firstOrdinal]
  cases hcounter : getCollisionCounter libraryId (occurredAt / 1000 * 1000) base.baseSlug c.store with
  | none =>
    rw [hcounter] at h
    obtain ⟨n, hlow, hhigh, hfree, hwrites⟩ := ArchiveService.tryOrdinals_ok h
    exact ⟨n, hbase, hlow, hhigh, hfree, hwrites⟩
  | some counter =>
    rw [hcounter] at h
    obtain ⟨n, hlow, hhigh, hfree, hwrites⟩ := advanceUntilFree_ok h
    exact ⟨n, hbase, hlow, hhigh, hfree, hwrites⟩

/-- **When one of the next few ordinals is free, the allocation succeeds.** -/
theorem PageCreator.exists_allocatePageId {canonicalUtc : Text} {base : GeneratedPageId} {n : ℕ}
    (hbase : generatePageId ⟨occurredAt, canonicalUtc⟩ title 1 = .ok base)
    (hfirst : 1 ≤ firstOrdinal libraryId occurredAt base.baseSlug c.store)
    (hlow : firstOrdinal libraryId occurredAt base.baseSlug c.store ≤ n)
    (hhigh : n < firstOrdinal libraryId occurredAt base.baseSlug c.store + collisionAttempts)
    (hfree : FreeOrdinal c.store libraryId ⟨occurredAt, canonicalUtc⟩ title n) :
    ∃ candidate c', creator.allocatePageId collisionAttempts libraryId title occurredAt c =
      .ok (candidate, c') := by
  obtain ⟨hwire, -⟩ := generatePageId_ok hbase
  simp only [allocatePageId_ok_iff]
  rw [ArchiveService.allocatePageId, bind_run (attempt_ok.mpr ⟨hwire, rfl⟩),
    bind_run (attempt_ok.mpr ⟨hbase, rfl⟩), query_bind]
  rw [firstOrdinal] at hfirst hlow hhigh
  cases hcounter : getCollisionCounter libraryId (occurredAt / 1000 * 1000) base.baseSlug c.store with
  | none =>
    rw [hcounter] at hfirst hlow hhigh
    exact ArchiveService.exists_tryOrdinals hbase hcounter hfirst hlow hhigh hfree
  | some counter =>
    rw [hcounter] at hfirst hlow hhigh
    exact exists_advanceUntilFree _ _ hbase (List.mem_of_find?_eq_some hcounter) hfirst hlow hhigh
      hfree

end

end PatchouliLib
