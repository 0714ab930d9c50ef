import PatchouliLib.Content.FileManifest

/-!
# Skill packages

A skill is a package of files in a small directory tree.  The segments of a path obey
the rules for the file names of a Page.

## Main definitions

* `normalizeSkillPath` — the safe form of a package path.
-/

namespace PatchouliLib

open Foundation

variable [Platform]

def maxSkillPathBytes : ℕ := 1024
def maxSkillPathDepth : ℕ := 16

/-- Normalize every segment of a package path. -/
def normalizeSkillPath (value : Text) : Except Err Text := do
  Fallible.check (value ≠ [] ∧ (utf8Encode value).length ≤ maxSkillPathBytes) .validation
  let parts := value.splitOn '/'
  Fallible.check (parts.length ≤ maxSkillPathDepth) .validation
  let normalized ← parts.mapM normalizeFileName
  pure (['/'].intercalate normalized)

end PatchouliLib
