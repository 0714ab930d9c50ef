import PatchouliLib.Foundation.Bytes

/-!
# SHA-256

The digest function itself, so that a statement about digests can be evaluated.
A word is a number below `2 ^ 32`.

## Main definitions

* `Sha256.digest` — the SHA-256 digest of a byte string.
* `Sha256.hmac` — the authentication code of a message under a key.

## Main results

* `Sha256.length_digest`, `Sha256.length_hmac` — a digest has thirty-two bytes.
-/

namespace Foundation.Sha256

/-- The first bits of the fractional parts of the square roots of the first primes. -/
def initialState : List ℕ :=
  [0x6a09e667, 0xbb67ae85, 0x3c6ef372, 0xa54ff53a,
  0x510e527f, 0x9b05688c, 0x1f83d9ab, 0x5be0cd19]

/-- The first bits of the fractional parts of the cube roots of the first primes. -/
def roundConstants : List ℕ := [
  0x428a2f98, 0x71374491, 0xb5c0fbcf, 0xe9b5dba5, 0x3956c25b, 0x59f111f1,
  0x923f82a4, 0xab1c5ed5, 0xd807aa98, 0x12835b01, 0x243185be, 0x550c7dc3,
  0x72be5d74, 0x80deb1fe, 0x9bdc06a7, 0xc19bf174, 0xe49b69c1, 0xefbe4786,
  0x0fc19dc6, 0x240ca1cc, 0x2de92c6f, 0x4a7484aa, 0x5cb0a9dc, 0x76f988da,
  0x983e5152, 0xa831c66d, 0xb00327c8, 0xbf597fc7, 0xc6e00bf3, 0xd5a79147,
  0x06ca6351, 0x14292967, 0x27b70a85, 0x2e1b2138, 0x4d2c6dfc, 0x53380d13,
  0x650a7354, 0x766a0abb, 0x81c2c92e, 0x92722c85, 0xa2bfe8a1, 0xa81a664b,
  0xc24b8b70, 0xc76c51a3, 0xd192e819, 0xd6990624, 0xf40e3585, 0x106aa070,
  0x19a4c116, 0x1e376c08, 0x2748774c, 0x34b0bcb5, 0x391c0cb3, 0x4ed8aa4a,
  0x5b9cca4f, 0x682e6ff3, 0x748f82ee, 0x78a5636f, 0x84c87814, 0x8cc70208,
  0x90befffa, 0xa4506ceb, 0xbef9a3f7, 0xc67178f2]

def add (a b : ℕ) : ℕ := (a + b) % 2 ^ 32

/-- Rotation of a word to the right. -/
def rotr (n x : ℕ) : ℕ := (x >>> n) ||| ((x <<< (32 - n)) % 2 ^ 32)

def complement (x : ℕ) : ℕ := 2 ^ 32 - 1 - x

def choose (x y z : ℕ) : ℕ := (x &&& y) ^^^ (complement x &&& z)
def majority (x y z : ℕ) : ℕ := (x &&& y) ^^^ (x &&& z) ^^^ (y &&& z)
def sigma0 (x : ℕ) : ℕ := rotr 2 x ^^^ rotr 13 x ^^^ rotr 22 x
def sigma1 (x : ℕ) : ℕ := rotr 6 x ^^^ rotr 11 x ^^^ rotr 25 x
def smallSigma0 (x : ℕ) : ℕ := rotr 7 x ^^^ rotr 18 x ^^^ (x >>> 3)
def smallSigma1 (x : ℕ) : ℕ := rotr 17 x ^^^ rotr 19 x ^^^ (x >>> 10)

/-- The big-endian words of a byte string. -/
def words : Bytes → List ℕ
  | a :: b :: c :: d :: rest =>
    (((a.toNat * 256 + b.toNat) * 256 + c.toNat) * 256 + d.toNat) :: words rest
  | _ => []

/-- The message schedule, the newest word first. -/
def schedule : ℕ → List ℕ → List ℕ
  | 0, recent => recent
  | rounds + 1, recent =>
    let word := add (add (smallSigma1 (recent.getD 1 0)) (recent.getD 6 0))
      (add (smallSigma0 (recent.getD 14 0)) (recent.getD 15 0))
    schedule rounds (word :: recent)

/-- One round of the compression function, with its constant and its word. -/
def compressionRound : List ℕ → ℕ × ℕ → List ℕ
  | [a, b, c, d, e, f, g, h], (constant, word) =>
    let t₁ := add (add h (sigma1 e)) (add (choose e f g) (add constant word))
    let t₂ := add (sigma0 a) (majority a b c)
    [add t₁ t₂, a, b, c, add d t₁, e, f, g]
  | state, _ => state

/-- The state after one more block of sixty-four bytes. -/
def compress (state : List ℕ) (block : Bytes) : List ℕ :=
  let pairs := roundConstants.zip (schedule 48 (words block).reverse).reverse
  state.zipWith add (pairs.foldl compressionRound state)

/-- The message with its padding and its length in bits. -/
def pad (message : Bytes) : Bytes :=
  message ++ 0x80 :: List.replicate ((119 - message.length % 64) % 64) 0 ++
    bigEndian 8 (8 * message.length)

/-- The state after so many blocks. -/
def digestBlocks : ℕ → List ℕ → Bytes → List ℕ
  | 0, state, _ => state
  | blocks + 1, state, message =>
    digestBlocks blocks (compress state (message.take 64)) (message.drop 64)

/-- `hashlib.sha256(message).digest()`. -/
def digest (message : Bytes) : Bytes :=
  (digestBlocks ((pad message).length / 64) initialState (pad message)).flatMap (bigEndian 4)

theorem length_compressionRound (state : List ℕ) (pair : ℕ × ℕ) :
    (compressionRound state pair).length = state.length := by
  unfold compressionRound
  split <;> rfl

theorem length_compress (state : List ℕ) (block : Bytes) :
    (compress state block).length = state.length := by
  have hrounds : ∀ (pairs : List (ℕ × ℕ)) (s : List ℕ),
      (pairs.foldl compressionRound s).length = s.length := by
    intro pairs
    induction pairs with
    | nil => exact fun s => rfl
    | cons pair pairs ih =>
      intro s
      rw [List.foldl_cons, ih, length_compressionRound]
  rw [compress, List.length_zipWith, hrounds, Nat.min_self]

theorem length_digestBlocks (blocks : ℕ) (state : List ℕ) (message : Bytes) :
    (digestBlocks blocks state message).length = state.length := by
  induction blocks generalizing state message with
  | zero => rfl
  | succ blocks ih => rw [digestBlocks, ih, length_compress]

/-- **A digest has thirty-two bytes.** -/
theorem length_digest (message : Bytes) : (digest message).length = 32 := by
  have hwords : ∀ state : List ℕ, (state.flatMap (bigEndian 4)).length = 4 * state.length := by
    intro state
    induction state with
    | nil => rfl
    | cons word state ih =>
      rw [List.flatMap_cons, List.length_append, length_bigEndian, ih, List.length_cons]
      omega
  rw [digest, hwords, length_digestBlocks]
  rfl

example : hex (digest [97, 98, 99]) =
    "ba7816bf8f01cfea414140de5dae2223b00361a396177a9cb410ff61f20015ad" := by
  decide +kernel

/-! ### Authentication codes -/

/-- A key of one block: a longer one is digested first. -/
def blockKey (key : Bytes) : Bytes :=
  let key := if key.length ≤ 64 then key else digest key
  key ++ List.replicate (64 - key.length) 0

/-- `hmac.digest(key, message, "sha256")`. -/
def hmac (key message : Bytes) : Bytes :=
  digest ((blockKey key).map (· ^^^ 0x5c) ++ digest ((blockKey key).map (· ^^^ 0x36) ++ message))

theorem length_hmac (key message : Bytes) : (hmac key message).length = 32 := length_digest _

example : hex (hmac [107, 101, 121] [97, 98, 99]) =
    "9c196e32dc0175f86f4b1cb89289d6619de6bee699e4c378e68309ed97a1a6ab" := by
  decide +kernel

end Foundation.Sha256
