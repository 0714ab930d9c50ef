import PatchouliLib.Admin.Agents

/-!
# Onboarding tickets

The administrator hands out a code that is good for one credential and for a few
minutes.  It is admitted and consumed in the transaction that provisions the
agent.

## Main definitions

* `createTicket` — a new ticket of the current session generation.
* `admitTicket` — the ticket of a code that may still be redeemed.
* `discover`, `redeem` — the uses of a code.

## Main results

* `admitTicket_ok` — the ticket that is admitted.
-/

namespace PatchouliLib

open Foundation

variable [Platform]

def ticketCodeLength : ℕ := 16

/-- `[A-Za-z0-9]{16}`. -/
def IsTicketCode (code : Text) : Prop :=
  code.length = ticketCodeLength ∧
    ∀ c ∈ code, ('A' ≤ c ∧ c ≤ 'Z') ∨ ('a' ≤ c ∧ c ≤ 'z') ∨ ('0' ≤ c ∧ c ≤ '9')

instance (code : Text) : Decidable (IsTicketCode code) := by
  unfold IsTicketCode
  infer_instance

def ticketCodeHash (code : Text) : Bytes := sha256 (utf8Encode code)

structure DeliveredTicket where
  code : Text
  expiresAt : ℤ
deriving DecidableEq

/-- Issue a ticket, at a time observed inside the transaction. -/
def createTicket (session : MasterAdminSession) (code : Text) (ticketId : Id) (now : ℤ)
    (auditId : Id) : Write DeliveredTicket := do
  let expiresAt := now + ticketLifetimeMicroseconds
  let current ← query fun s => pure (isSessionGenerationCurrent session s)
  require (now < session.expiresAt * microsecondsPerSecond ∧ current = true) .authentication
  insertOnboardingTicket
    { id := ticketId, codeHash := ticketCodeHash code, identityId := session.identityId
      sessionGeneration := session.sessionGeneration
      sessionFingerprint := session.auditFingerprint, createdAt := now, expiresAt := expiresAt
      consumedAt := none, credentialId := none }
  addMasterSuccess session auditId "auth.onboarding.create" "onboarding_ticket" ticketId now
  pure ⟨code, expiresAt⟩

/-- The ticket of the code, while it may be redeemed. -/
def findTicket (code : Text) (now : ℤ) (s : Store) : Option OnboardingTicket :=
  s.auth.onboardingTickets.find? fun t =>
    t.codeHash = ticketCodeHash code ∧ t.createdAt ≤ now ∧ now < t.expiresAt ∧ t.consumedAt = none

/-- Admit a code of a ticket of the current generation. -/
def admitTicket (code : Text) (now : ℤ) : Write OnboardingTicket := do
  require (IsTicketCode code) .invalidOnboardingTicket
  let row ← query fun s => pure (findTicket code now s)
  let ticket ← orThrow row .invalidOnboardingTicket
  let current ← query fun s => pure (isGenerationCurrent ticket.identityId ticket.sessionGeneration s)
  require (current = true) .invalidOnboardingTicket
  pure ticket

/-- The Libraries an agent may choose its home from. -/
def discover (code : Text) (now : ℤ) : Write (List (Id × Text)) := do
  let _ ← admitTicket code now
  query fun s => pure ((s.library.libraries.insertionSort Library.le).map fun l => (l.id, l.name))

/-- Provision the agent and consume the ticket. -/
def redeem (code : Text) (request : MasterProvisionAgent) (now : ℤ) (entropy : ProvisionEntropy) :
    Write DeliveredCredential := do
  let ticket ← admitTicket code now
  let result ← provisionAgentInTransaction request now ticket.identityId ticket.sessionGeneration
    ticket.sessionFingerprint entropy
  consumeOnboardingTicket ticket.id now result.credentialId
  pure result

/-! ### Admission -/

/-- The ticket of the code, unconsumed and not expired, of the current
generation. -/
structure Redeemable (code : Text) (now : ℤ) (t : OnboardingTicket) (s : Store) : Prop where
  mem : t ∈ s.auth.onboardingTickets
  codeHash : t.codeHash = ticketCodeHash code
  clock : t.createdAt ≤ now ∧ now < t.expiresAt
  unconsumed : t.consumedAt = none
  current : isGenerationCurrent t.identityId t.sessionGeneration s = true

theorem admitTicket_ok {code : Text} {now : ℤ} {t : OnboardingTicket} {c c' : Connection}
    (h : admitTicket code now c = .ok (t, c')) : Redeemable code now t c.store ∧ c' = c := by
  simp only [admitTicket, bind_ok, require_ok, query_ok, orThrow_ok, pure_ok, Fallible.pure_ok,
    and_assoc, exists_and_left, exists_eq_left', exists_const] at h
  obtain ⟨-, _, hfind, hcurrent, rfl, rfl⟩ := h
  have hrow := List.find?_some hfind
  simp only [decide_eq_true_eq] at hrow
  obtain ⟨hhash, hcreated, hexpires, hnone⟩ := hrow
  exact ⟨⟨List.mem_of_find?_eq_some hfind, hhash, ⟨hcreated, hexpires⟩, hnone, hcurrent⟩, rfl⟩

end PatchouliLib
