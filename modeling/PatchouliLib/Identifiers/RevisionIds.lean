import PatchouliLib.Identifiers.PageIds

/-!
# Page UIDs and Revision identifiers

Both are spellings of 128 random bits.  A generator draws candidates until one
can be reserved and gives up after a bounded number of attempts; the model takes
the candidates that the entropy source would return, in their order.

## Main definitions

* `validatePageUid`, `validateRevisionId`, `validateRevisionNumber` — the syntax
  checks.
* `generateUnique` — draw candidates until one can be reserved.
-/

namespace PatchouliLib

open Foundation

def randomIdentifierBytes : ℕ := 16
def maxRevisionNumber : ℕ := 2 ^ 63 - 1
def defaultCollisionAttempts : ℕ := 8

/-- `[0-9a-f]`. -/
def isLowerHex (c : Char) : Bool := isDigit c || ('a' ≤ c && c ≤ 'f')

/-- Validate an internal Page UID without assigning it public semantics. -/
def validatePageUid (value : Bytes) : Except Err Bytes :=
  if value.length = randomIdentifierBytes then .ok value else .error .invalidPageUid

/-- `rev_[0-9a-f]{32}`. -/
def IsRevisionId (value : Text) : Prop :=
  value.take 4 = "rev_" ∧ value.length = 36 ∧ (value.drop 4).all isLowerHex

instance (value : Text) : Decidable (IsRevisionId value) := by
  unfold IsRevisionId
  infer_instance

/-- Validate the exact case-sensitive Revision ID wire representation. -/
def validateRevisionId (value : Text) : Except Err Text :=
  if IsRevisionId value then .ok value else .error .invalidRevisionId

/-- A positive signed 64-bit Page-local Revision number. -/
def IsRevisionNumber (value : ℕ) : Prop := 1 ≤ value ∧ value ≤ maxRevisionNumber

instance (value : ℕ) : Decidable (IsRevisionNumber value) := by
  unfold IsRevisionNumber
  infer_instance

/-- The first of the next candidates that can be reserved. -/
def generateUnique {α : Type} (tryReserve : α → Bool) (candidates : List α) : Except Err α :=
  Fallible.get ((candidates.take defaultCollisionAttempts).find? tryReserve) .identifierGeneration

theorem reserved_of_generateUnique {α : Type} {tryReserve : α → Bool} {candidates : List α} {a : α}
    (h : generateUnique tryReserve candidates = .ok a) : tryReserve a = true :=
  List.find?_some (Fallible.get_ok.mp h)

end PatchouliLib
