import PatchouliLib.Foundation.Json
import PatchouliLib.Storage.Statements

/-!
# Idempotency records

A request is identified by its caller, its route and the digest of its key.  The
first success under an identity keeps its response; a later request of the same
identity gets that response back, or is refused when its fingerprint differs.

## Main definitions

* `digestRequestFingerprint` — the framed digest of the semantic parts of a
  request.
* `lookupReplay`, `recordSuccess` — find and keep a response.
-/

namespace PatchouliLib

open Foundation

def requestFingerprintDomain : Bytes := utf8Encode "patchouli-lib/idempotency-request/v1" ++ [0]

/-- Hash exact caller-defined semantic byte parts with unambiguous framing. -/
def digestRequestFingerprint [Platform] (parts : List Bytes) : Bytes :=
  sha256 (requestFingerprintDomain ++ parts.flatMap fun part => bigEndian 8 part.length ++ part)

/-- The row of this identity. -/
def getIdempotencyRecord (caller : TransactionValidatedCaller) (request : IdempotencyRequest)
    (s : Store) : Option IdempotencyRecord :=
  s.receipts.idempotencyRecords.find? fun r =>
    r.caller = caller ∧ r.request.method = request.method ∧
      r.request.routeTemplate = request.routeTemplate ∧ r.request.keyDigest = request.keyDigest

/-- The kept response of this identity; a different fingerprint is refused. -/
def lookupReplay (caller : TransactionValidatedCaller) (request : IdempotencyRequest) (s : Store) :
    Except Err (Option OriginalResponse) :=
  match getIdempotencyRecord caller request s with
  | none => .ok none
  | some stored =>
    if stored.request.requestFingerprint = request.requestFingerprint then
      .ok (some stored.response)
    else .error .idempotencyConflict

/-- Recheck the namespace and insert one eligible success without committing. -/
def recordSuccess (caller : TransactionValidatedCaller) (request : IdempotencyRequest)
    (response : OriginalResponse) : Write IdempotencyRecord := do
  let existing ← query fun s => pure (getIdempotencyRecord caller request s)
  match existing with
  | some stored => do
    require (stored.request.requestFingerprint = request.requestFingerprint) .idempotencyConflict
    pure stored
  | none => do
    insertIdempotencyRecord ⟨caller, request, response⟩
    pure ⟨caller, request, response⟩

/-- What a service answers: a fresh response, or a kept one. -/
structure ServiceResult where
  response : OriginalResponse
  replayed : Bool
deriving DecidableEq

end PatchouliLib
