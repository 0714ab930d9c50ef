import PatchouliLib.Admin.Issuance
import PatchouliLib.System.Access

/-!
# Redeeming an onboarding ticket

A ticket is consumed in the transaction that creates the credential, so that
another redeem finds no ticket; it names the session generation of the
administrator who issued it, so that a new administrator token ends it; and the
clock is compared with the expiry in the same transaction.

## Main definitions

* `AccessEvent.redeems hash` — a ticket with this code digest was redeemed.
* `AccessEvent.replacesToken` — the administrator token was replaced.

## Main results

* `redeem_ok` — the ticket that a redeem has found and consumed.
* `redeem_once` — a ticket is redeemed at most once.
* `redeem_in_time` — a redeemed ticket was issued before, is not expired, and no
  administrator token was replaced since.
* `redeem_of_run` — **the whole law of the tickets.**
-/

namespace PatchouliLib

open Foundation

section

variable [Platform]

/-! ### Events -/

/-- A ticket with this code digest was redeemed. -/
def AccessEvent.redeems (hash : Bytes) : AccessEvent → Bool
  | .access (.redeem code _ _ _) (.ok _) => ticketCodeHash code = hash
  | _ => false

/-- The administrator token was replaced. -/
def AccessEvent.replacesToken : AccessEvent → Bool
  | .access (.rotateMasterToken _ _ _ _) (.ok (.identity (some _))) => true
  | .access (.recoverMasterToken _ _ _) (.ok (.identity (some _))) => true
  | _ => false

/-! ### One redeem -/

variable {c c' : Connection} {code : Text} {request : MasterProvisionAgent} {now : ℤ}
  {entropy : ProvisionEntropy} {d : DeliveredCredential}

/-- **A redeem has found a ticket, created one credential and consumed the
ticket.** -/
theorem redeem_ok (h : redeem code request now entropy c = .ok (d, c')) :
    ∃ t, Redeemable code now t c.store ∧
      (∃ u ∈ c'.store.auth.onboardingTickets, u.codeHash = t.codeHash ∧ u.consumedAt ≠ none) ∧
      ∃ k : Credential, k.id = d.credentialId ∧
        c'.store.auth.credentials = c.store.auth.credentials ++ [k] := by
  obtain ⟨t, c₁, hadmit, hrest⟩ := bind_ok.mp h
  obtain ⟨hredeemable, rfl⟩ := admitTicket_ok hadmit
  obtain ⟨d', c₂, hprovision, hconsume⟩ := bind_ok.mp hrest
  simp only [consumeOnboardingTicket, bind_ok, constraint_ok, modifyStore_ok, pure_ok, and_assoc,
    exists_and_left, exists_eq_left', exists_const] at hconsume
  obtain ⟨-, rfl, rfl⟩ := hconsume
  obtain ⟨k, hid, -, -, -, hcredentials, htickets⟩ := provisionAgentInTransaction_ok hprovision
  refine ⟨t, hredeemable, ⟨{ t with consumedAt := some now, credentialId := some d'.credentialId },
    ?_, rfl, by simp⟩, k, hid, hcredentials⟩
  show _ ∈ c₂.store.auth.onboardingTickets.map _
  rw [htickets]
  refine List.mem_map.mpr ⟨t, hredeemable.mem, ?_⟩
  simp [hredeemable.unconsumed]

/-! ### At most once -/

/-- A ticket with this code digest is consumed. -/
def TicketConsumed (hash : Bytes) (db : Db) : Prop :=
  ∃ t ∈ db.store.auth.onboardingTickets, t.codeHash = hash ∧ t.consumedAt ≠ none

omit [Platform] in
theorem TicketConsumed.grows {hash : Bytes} {db db' : Db} (h : TicketConsumed hash db)
    (hgrows : AuthGrows db.store db'.store) : TicketConsumed hash db' := by
  obtain ⟨t, ht, hhash, hconsumed⟩ := h
  obtain ⟨u, hu, hevolves⟩ := hgrows.tickets.exists_of_mem ht
  obtain rfl := hevolves.consumed hconsumed
  exact ⟨u, hu, hhash, hconsumed⟩

/-- A redeem that succeeds is one of a ticket that was not consumed and is now. -/
theorem AccessStep.redeems_cases {db db' : Db} {e : AccessEvent} {hash : Bytes}
    (hs : AccessSound db) (h : AccessStep db e db') (he : e.redeems hash = true) :
    ¬TicketConsumed hash db ∧ TicketConsumed hash db' := by
  rcases h.cases with ⟨op, err, rfl, -⟩ | ⟨op, a, c, rfl, hbody, hstore⟩ | ⟨rfl, -⟩
  · cases op <;> simp [AccessEvent.redeems] at he
  · cases op with
    | redeem code request now entropy =>
      have hhash : ticketCodeHash code = hash := by simpa [AccessEvent.redeems] using he
      obtain ⟨d, hredeem, -⟩ := accessAnswer_ok.mp hbody
      obtain ⟨t, ht, ⟨u, hu, huhash, hconsumed⟩, -⟩ := redeem_ok hredeem
      constructor
      · rintro ⟨t', ht', hhash', hconsumed'⟩
        -- the code digest is unique, so the found ticket would be the consumed one
        obtain rfl := hs.auth.ticketCodes.eq_of_key ht.mem ht'
          (ht.codeHash.trans (hhash.trans hhash'.symm))
        exact hconsumed' ht.unconsumed
      · rw [TicketConsumed, hstore]
        exact ⟨u, hu, huhash.trans (ht.codeHash.trans hhash), hconsumed⟩
    | _ => simp [AccessEvent.redeems] at he
  · simp [AccessEvent.redeems] at he

/-- **A ticket is redeemed at most once.** -/
theorem redeem_once {events : List AccessEvent} {db : Db} (h : AccessRun events db) (hash : Bytes) :
    (events.filter fun e => e.redeems hash).length ≤ 1 := by
  have honce := h.once (P := AccessSound) (TicketConsumed hash) (fun e => e.redeems hash = true) .migrated
    (fun _ _ _ hs hstep => hs.step hstep)
    (fun _ _ _ hs hstep he => (hstep.redeems_cases hs he).2)
    (fun _ _ _ _ hclosed hstep => hclosed.grows hstep.advances.grows)
    (fun _ _ _ hs hclosed hstep he => (hstep.redeems_cases hs he).1 hclosed)
  simpa using honce

/-! ### Issue -/

omit [Platform] in
/-- The tickets with this identifier come only when it may come. -/
theorem ticketAbsent_tablesFrame (id : Id) :
    TablesFrame (fun _ => True) (· ≠ id) fun t u =>
      (∀ x ∈ t.onboardingTickets, x.id ≠ id) → ∀ x ∈ u.onboardingTickets, x.id ≠ id where
  refl _ h := h
  trans h h' ht := h' (h ht)
  callers _ _ h := h
  insertCredential _ _ _ h := h
  updateCredentials _ _ _ h := h
  agentTokenValues _ _ h := h
  insertPolicy _ _ _ h := h
  updatePolicies _ _ _ h := h
  insertGrant _ _ _ h := h
  deleteGrants _ _ _ h := h
  masterIdentity _ _ h := h
  insertTicket t x hx h y hy := by
    rcases List.mem_append.mp hy with hy | hy
    · exact h y hy
    · rw [List.mem_singleton.mp hy]
      exact hx
  updateTickets t f hf h y hy := by
    obtain ⟨x, hx, rfl⟩ := List.mem_map.mp hy
    rw [hf x]
    exact h x hx

/-- What an issue brings. -/
theorem createTicket_ok {session : MasterAdminSession} {ticketId : Id} {auditId : Id}
    {r : DeliveredTicket} (h : createTicket session code ticketId now auditId c = .ok (r, c')) :
    isSessionGenerationCurrent session c.store = true ∧
      c'.store.auth.masterIdentity = c.store.auth.masterIdentity ∧
      ∃ t ∈ c'.store.auth.onboardingTickets, t.id = ticketId ∧ t.codeHash = ticketCodeHash code ∧
        t.identityId = session.identityId ∧ t.sessionGeneration = session.sessionGeneration ∧
        t.createdAt = now ∧ t.expiresAt = now + ticketLifetimeMicroseconds := by
  simp only [createTicket, insertOnboardingTicket, addMasterSuccess, insertMasterAuditEvent, bind_ok,
    query_ok, require_ok, constraint_ok, modifyStore_ok, pure_ok, Fallible.pure_ok, and_assoc,
    exists_and_left, exists_eq_left', exists_const] at h
  obtain ⟨-, hcurrent, -, -, -, -, rfl⟩ := h
  refine ⟨hcurrent, rfl, _, List.mem_append_right _ (List.mem_singleton.mpr rfl), ?_⟩
  exact ⟨rfl, rfl, rfl, rfl, rfl, rfl⟩

/-- A ticket comes about by an issue. -/
theorem AccessStep.createTicket_of_new {db db' : Db} {e : AccessEvent} {id : Id}
    (h : AccessStep db e db') (hnone : ∀ t ∈ db.store.auth.onboardingTickets, t.id ≠ id)
    (hsome : ∃ t ∈ db'.store.auth.onboardingTickets, t.id = id) :
    ∃ session code now auditId r c,
      e = .access (.createTicket session code id now auditId) (.ok (.ticket r)) ∧
        PatchouliLib.createTicket session code id now auditId ⟨db.store, []⟩ = .ok (r, c) ∧
        db'.store = c.store := by
  obtain ⟨t, ht, hid⟩ := hsome
  rcases h.cases with ⟨_, _, -, rfl⟩ | ⟨op, a, c, rfl, hbody, hstore⟩ | ⟨-, h⟩
  · exact absurd hid (hnone t ht)
  · by_cases htarget : op.ticketTarget = some id
    · cases op with
      | createTicket session code ticketId now auditId =>
        obtain rfl : ticketId = id := Option.some_inj.mp htarget
        obtain ⟨r, hcreate, rfl⟩ := accessAnswer_ok.mp hbody
        exact ⟨session, code, now, auditId, r, c, rfl, hcreate, hstore⟩
      | _ => cases htarget
    · have haside := (ticketAbsent_tablesFrame id).authFrame.keeps_body op (fun _ _ => trivial)
        (fun i hi heq => htarget (by rw [← heq]; exact hi)) _ _ _ hbody
      rw [hstore] at ht
      exact absurd hid (haside.auth hnone t ht)
  · rw [h.tickets] at ht
    exact absurd hid (hnone t ht)

/-! ### The session generation -/

/-- The session generation of the master identity. -/
def generation (db : Db) : ℕ := (db.store.auth.masterIdentity.map (·.sessionGeneration)).getD 0

omit [Platform] in
theorem generation_of_current {db : Db} {identityId : Id} {n : ℕ}
    (h : isGenerationCurrent identityId n db.store = true) :
    (∃ m, db.store.auth.masterIdentity = some m) ∧ generation db = n := by
  simp only [isGenerationCurrent, Bool.and_eq_true] at h
  obtain ⟨-, h⟩ := h
  cases hm : db.store.auth.masterIdentity with
  | none => simp [hm] at h
  | some m =>
    simp only [hm, Option.any_some, Bool.and_eq_true, decide_eq_true_eq] at h
    exact ⟨⟨m, rfl⟩, by rw [generation, hm]; exact h.2⟩

omit [Platform] in
theorem generation_mono {db db' : Db} (h : AuthGrows db.store db'.store)
    (hm : ∃ m, db.store.auth.masterIdentity = some m) :
    (∃ m, db'.store.auth.masterIdentity = some m) ∧ generation db ≤ generation db' := by
  obtain ⟨m, hm⟩ := hm
  obtain ⟨n, hn, hevolves⟩ := h.identity m hm
  have hn' : db'.store.auth.masterIdentity = some n := hn
  refine ⟨⟨n, hn'⟩, ?_⟩
  rw [generation, generation, hm, hn']
  exact hevolves.sessionGeneration

theorem replaceToken_ok {stored : MasterIdentity} {newToken : Text} {salt : Bytes}
    {state : MasterTokenState} (h : replaceToken stored newToken salt now c = .ok (some state, c')) :
    (c.store.auth.masterIdentity.map (·.sessionGeneration)).getD 0 <
      (c'.store.auth.masterIdentity.map (·.sessionGeneration)).getD 0 := by
  simp only [replaceToken, updateMasterIdentity, bind_ok, require_ok, attempt_ok, query_ok,
    Fallible.pure_ok, and_assoc, exists_and_left, exists_eq_left', exists_const] at h
  obtain ⟨-, -, -, -, verifier, -, matched, c₁, hupdate, hanswer⟩ := h
  obtain ⟨hanswer, rfl⟩ := pure_ok.mp hanswer
  cases matched with
  | false => cases hanswer
  | true =>
    split at hupdate
    · next hrow =>
      simp only [bind_ok, constraint_ok, modifyStore_ok, pure_ok, and_assoc, exists_and_left,
        exists_eq_left', exists_const] at hupdate
      obtain ⟨-, -, rfl⟩ := hupdate
      cases hm : c.store.auth.masterIdentity with
      | none => simp [hm] at hrow
      | some m =>
        simp only [hm, Option.any_some, Bool.and_eq_true, decide_eq_true_eq] at hrow
        show m.sessionGeneration < stored.sessionGeneration + 1
        rw [hrow.1.2]
        exact Nat.lt_succ_self _
    · cases (pure_ok.mp hupdate).1

theorem rotateMasterToken_ok {oldToken newToken : Text} {salt : Bytes} {state : MasterTokenState}
    (h : rotateMasterToken oldToken newToken salt now c = .ok (some state, c')) :
    ∃ stored, replaceToken stored newToken salt now c = .ok (some state, c') := by
  simp only [rotateMasterToken, query_bind] at h
  cases hm : currentMaster c.store with
  | none =>
    rw [hm] at h
    cases (pure_ok.mp h).1
  | some stored =>
    rw [hm] at h
    dsimp only at h
    split at h
    · exact ⟨stored, h⟩
    · cases (pure_ok.mp h).1

theorem recoverMasterToken_ok {newToken : Text} {salt : Bytes} {state : MasterTokenState}
    (h : recoverMasterToken newToken salt now c = .ok (some state, c')) :
    ∃ stored, replaceToken stored newToken salt now c = .ok (some state, c') := by
  simp only [recoverMasterToken, query_bind] at h
  cases hm : currentMaster c.store with
  | none =>
    rw [hm] at h
    cases (pure_ok.mp h).1
  | some stored =>
    rw [hm] at h
    exact ⟨stored, h⟩

/-- A replaced token raises the generation. -/
theorem AccessStep.generation_lt {db db' : Db} {e : AccessEvent} (h : AccessStep db e db')
    (he : e.replacesToken = true) : generation db < generation db' := by
  rcases h.cases with ⟨op, err, rfl, -⟩ | ⟨op, a, c, rfl, hbody, hstore⟩ | ⟨rfl, -⟩
  · cases op <;> simp [AccessEvent.replacesToken] at he
  · rw [generation, generation, hstore]
    cases op with
    | rotateMasterToken oldToken newToken salt now =>
      obtain ⟨state, hrotate, rfl⟩ := accessAnswer_ok.mp hbody
      cases state with
      | none => simp [AccessEvent.replacesToken] at he
      | some state =>
        obtain ⟨stored, hreplace⟩ := rotateMasterToken_ok hrotate
        exact replaceToken_ok hreplace
    | recoverMasterToken newToken salt now =>
      obtain ⟨state, hrecover, rfl⟩ := accessAnswer_ok.mp hbody
      cases state with
      | none => simp [AccessEvent.replacesToken] at he
      | some state =>
        obtain ⟨stored, hreplace⟩ := recoverMasterToken_ok hrecover
        exact replaceToken_ok hreplace
    | _ => simp [AccessEvent.replacesToken] at he
  · simp [AccessEvent.replacesToken] at he

/-- No token is replaced between two states with the same generation. -/
theorem AccessTrace.not_replacesToken {db db' : Db} {events : List AccessEvent}
    (h : AccessTrace db events db') {identityId : Id} {n : ℕ}
    (hstart : isGenerationCurrent identityId n db.store = true) (hend : generation db' ≤ n) :
    ∀ e ∈ events, e.replacesToken = false := by
  obtain ⟨hm, hn⟩ := generation_of_current hstart
  have hnone := h.unmarked (P := fun db => ∃ m, db.store.auth.masterIdentity = some m)
    generation (fun e => e.replacesToken = true) hm
    (fun _ _ _ hm hstep => (generation_mono hstep.advances.grows hm).1)
    (fun _ _ _ hm hstep => (generation_mono hstep.advances.grows hm).2)
    (fun _ _ _ _ hstep he => hstep.generation_lt he) (by rw [hn]; exact hend)
  exact fun e he => Bool.eq_false_iff.mpr (hnone e he)

/-! ### The law of the tickets -/

/-- **A redeemed ticket was issued before, is not expired, and no administrator
token was replaced since.** -/
theorem redeem_in_time {before after : List AccessEvent} {db : Db} {answer : AccessAnswer}
    (h : AccessRun (before ++ .access (.redeem code request now entropy) (.ok answer) :: after) db) :
    ∃ earlier session code' ticketId createdAt auditId r between,
      before = earlier ++
        .access (.createTicket session code' ticketId createdAt auditId) (.ok (.ticket r)) :: between ∧
      ticketCodeHash code' = ticketCodeHash code ∧ createdAt ≤ now ∧
      now < createdAt + ticketLifetimeMicroseconds ∧ ∀ e ∈ between, e.replacesToken = false := by
  obtain ⟨s, s', hbefore, hstep, -⟩ := h.split_event
  obtain ⟨t, ht⟩ : ∃ t, Redeemable code now t s.store := by
    rcases hstep.cases with ⟨_, _, heq, -⟩ | ⟨op, a, c, heq, hbody, -⟩ | ⟨heq, -⟩
    · cases heq
    · cases heq
      obtain ⟨d, hredeem, -⟩ := accessAnswer_ok.mp hbody
      obtain ⟨t, ht, -⟩ := redeem_ok hredeem
      exact ⟨t, ht⟩
    · cases heq
  -- the step that brought the ticket is its issue
  obtain ⟨earlier, e, between, u, v, rfl, hearlier, hnone, hissue, hsome, hbetween⟩ :=
    hbefore.exists_first (Q := fun db => ∃ x ∈ db.store.auth.onboardingTickets, x.id = t.id)
      (by rintro ⟨x, hx, -⟩; cases hx) ⟨t, ht.mem, rfl⟩
  push Not at hnone
  obtain ⟨session, code', createdAt, auditId, r, c, rfl, hcreate, hstore⟩ :=
    hissue.createTicket_of_new hnone hsome
  obtain ⟨hcurrent, hidentity, x, hx, hid, hhash, hxidentity, hgeneration, hcreated, hexpires⟩ :=
    createTicket_ok hcreate
  -- the row has kept what it was issued with
  obtain ⟨y, hy, hevolves⟩ : ∃ y ∈ s.store.auth.onboardingTickets, x.Evolves y := by
    refine (AccessTrace.grows hbetween).tickets.exists_of_mem ?_
    rw [hstore]
    exact hx
  have hsound : AccessSound s := AccessRun.sound hbefore
  obtain rfl : y = t := hsound.auth.tickets.eq_of_key hy ht.mem (hevolves.id.trans hid)
  refine ⟨earlier, session, code', y.id, createdAt, auditId, r, between, rfl, ?_, ?_, ?_, ?_⟩
  · rw [← hhash, ← hevolves.codeHash, ht.codeHash]
  · rw [← hcreated, ← hevolves.clock.1]
    exact ht.clock.1
  · rw [← hexpires, ← hevolves.clock.2]
    exact ht.clock.2
  · have hstart : isGenerationCurrent session.identityId session.sessionGeneration v.store = true := by
      unfold isGenerationCurrent
      rw [hstore, hidentity]
      exact hcurrent
    have hend := (generation_of_current ht.current).2
    rw [hevolves.identity.2, hgeneration] at hend
    exact AccessTrace.not_replacesToken hbetween hstart hend.le

/-- **At most one credential is created from a ticket, before the ticket expires
and before the administrator token is replaced; a redeem that is refused changes
nothing.** -/
theorem redeem_of_run {events : List AccessEvent} {db : Db} (h : AccessRun events db)
    (hash : Bytes) :
    (events.filter fun e => e.redeems hash).length ≤ 1 ∧
      (∀ before code request now entropy answer after,
        events = before ++ .access (.redeem code request now entropy) (.ok answer) :: after →
          ∃ earlier session code' ticketId createdAt auditId r between,
            before = earlier ++ .access (.createTicket session code' ticketId createdAt auditId)
              (.ok (.ticket r)) :: between ∧
            ticketCodeHash code' = ticketCodeHash code ∧ createdAt ≤ now ∧
            now < createdAt + ticketLifetimeMicroseconds ∧
            ∀ e ∈ between, e.replacesToken = false) ∧
      ∀ code request now entropy,
        let op := AccessOperation.redeem code request now entropy
        (∃ e, op.commit db = (.error e, db)) ∨
          ∃ d, (op.commit db).1 = .ok (.credential d) ∧ ∃ k : Credential, k.id = d.credentialId ∧
            (op.commit db).2.store.auth.credentials = db.store.auth.credentials ++ [k] := by
  refine ⟨redeem_once h hash, ?_, ?_⟩
  · rintro before code request now entropy answer after rfl
    exact redeem_in_time h
  · intro code request now entropy
    rcases immediateTransaction_eq_or (AccessOperation.redeem code request now entropy).body db with
      ⟨e, hcommit⟩ | ⟨a, c, db', hbody, hstore, -, hcommit⟩
    · exact .inl ⟨e, hcommit⟩
    · right
      obtain ⟨d, hredeem, rfl⟩ := accessAnswer_ok.mp hbody
      obtain ⟨-, -, -, k, hid, hcredentials⟩ := redeem_ok hredeem
      refine ⟨d, ?_, k, hid, ?_⟩
      · rw [AccessOperation.commit, hcommit]
      · rw [AccessOperation.commit, hcommit]
        show db'.store.auth.credentials = _
        rw [hstore]
        exact hcredentials

end

section Sample

attribute [local instance] asciiPlatform

/-- The ticket of the run is redeemed, and redeemed once. -/
theorem redeem_of_sampleRedeemed :
    let hash := ticketCodeHash sampleTicketCode
    (sampleRedeemedEvents.any fun e => e.redeems hash) = true ∧
      (sampleRedeemedEvents.filter fun e => e.redeems hash).length ≤ 1 :=
  ⟨by decide +kernel, (redeem_of_run sampleRedeemedRun _).1⟩

end Sample

end PatchouliLib
