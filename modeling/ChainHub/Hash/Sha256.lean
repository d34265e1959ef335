import ChainHub.Bytes

/-!
# SHA-256, HMAC and key derivation

* `sha256`: the digest of a byte string.
* `hmac`: keyed digest.
* `Hkdf.derive`: key derivation by extraction and expansion.
* `expandMessage`: uniform bytes from a message and a domain tag, the form that hashing to a curve
  is built on.
-/

namespace ChainHub.Sha256

/-- The eight working words. -/
structure State where
  a : UInt32
  b : UInt32
  c : UInt32
  d : UInt32
  e : UInt32
  f : UInt32
  g : UInt32
  h : UInt32
deriving DecidableEq, Inhabited

/-- The state before anything is taken in. -/
def initial : State where
  a := 0x6a09e667
  b := 0xbb67ae85
  c := 0x3c6ef372
  d := 0xa54ff53a
  e := 0x510e527f
  f := 0x9b05688c
  g := 0x1f83d9ab
  h := 0x5be0cd19

/-- The constants of the 64 rounds. -/
def roundConstants : List UInt32 :=
  [0x428a2f98, 0x71374491, 0xb5c0fbcf, 0xe9b5dba5, 0x3956c25b, 0x59f111f1, 0x923f82a4, 0xab1c5ed5,
    0xd807aa98, 0x12835b01, 0x243185be, 0x550c7dc3, 0x72be5d74, 0x80deb1fe, 0x9bdc06a7, 0xc19bf174,
    0xe49b69c1, 0xefbe4786, 0x0fc19dc6, 0x240ca1cc, 0x2de92c6f, 0x4a7484aa, 0x5cb0a9dc, 0x76f988da,
    0x983e5152, 0xa831c66d, 0xb00327c8, 0xbf597fc7, 0xc6e00bf3, 0xd5a79147, 0x06ca6351, 0x14292967,
    0x27b70a85, 0x2e1b2138, 0x4d2c6dfc, 0x53380d13, 0x650a7354, 0x766a0abb, 0x81c2c92e, 0x92722c85,
    0xa2bfe8a1, 0xa81a664b, 0xc24b8b70, 0xc76c51a3, 0xd192e819, 0xd6990624, 0xf40e3585, 0x106aa070,
    0x19a4c116, 0x1e376c08, 0x2748774c, 0x34b0bcb5, 0x391c0cb3, 0x4ed8aa4a, 0x5b9cca4f, 0x682e6ff3,
    0x748f82ee, 0x78a5636f, 0x84c87814, 0x8cc70208, 0x90befffa, 0xa4506ceb, 0xbef9a3f7, 0xc67178f2]

/-- Rotation of a word to the right by `n` places, `0 < n < 32`. -/
@[inline]
def rotate (x n : UInt32) : UInt32 := (x >>> n) ||| (x <<< (32 - n))

/-- One round with its constant and the word of the message schedule. -/
def round (s : State) (constant word : UInt32) : State :=
  let mixE := rotate s.e 6 ^^^ rotate s.e 11 ^^^ rotate s.e 25
  let choice := (s.e &&& s.f) ^^^ (~~~ s.e &&& s.g)
  let t := s.h + mixE + choice + constant + word
  let mixA := rotate s.a 2 ^^^ rotate s.a 13 ^^^ rotate s.a 22
  let majority := (s.a &&& s.b) ^^^ (s.a &&& s.c) ^^^ (s.b &&& s.c)
  ⟨t + mixA + majority, s.a, s.b, s.c, s.d + t, s.e, s.f, s.g⟩

/-- The word after sixteen words of the message schedule. -/
def nextWord (w0 w1 w9 w14 : UInt32) : UInt32 :=
  let low := rotate w1 7 ^^^ rotate w1 18 ^^^ (w1 >>> 3)
  let high := rotate w14 17 ^^^ rotate w14 19 ^^^ (w14 >>> 10)
  w0 + low + w9 + high

/-- Runs the rounds; `window` holds the next sixteen words of the message schedule. -/
def rounds : State → List UInt32 → List UInt32 → State
  | s, [], _ => s
  | s, _, [] => s
  | s, constant :: constants, w0 :: window =>
    let next := nextWord w0 (window.getD 0 0) (window.getD 8 0) (window.getD 13 0)
    rounds (round s constant w0) constants (window ++ [next])

/-- The words of a block, most significant byte first. -/
def words : Bytes → List UInt32
  | a :: b :: c :: d :: rest =>
    ((a.toUInt32 <<< 24) ||| (b.toUInt32 <<< 16) ||| (c.toUInt32 <<< 8) ||| d.toUInt32)
      :: words rest
  | _ => []

/-- Takes in one block of 64 bytes. -/
def absorb (s : State) (block : Bytes) : State :=
  let t := rounds s roundConstants (words block)
  ⟨s.a + t.a, s.b + t.b, s.c + t.c, s.d + t.d, s.e + t.e, s.f + t.f, s.g + t.g, s.h + t.h⟩

/-- The number of bytes in a block. -/
def blockSize : Nat := 64

/-- Takes in all whole blocks of an already padded byte string. -/
def absorbAll (s : State) (bytes : Bytes) : State :=
  if _h : bytes.length < blockSize then s
  else absorbAll (absorb s (bytes.take blockSize)) (bytes.drop blockSize)
termination_by bytes.length
decreasing_by
  simp only [blockSize, List.length_drop] at _h ⊢
  omega

/-- A byte string with its padding: `0x80`, zeros, and its length in bits. -/
def pad (bytes : Bytes) : Bytes :=
  bytes ++ 0x80 :: List.replicate ((119 - bytes.length % 64) % 64) 0
    ++ bigEndian 8 (8 * bytes.length)

/-- The four bytes of a word. -/
def wordBytes (word : UInt32) : Bytes := bigEndian 4 word.toNat

end ChainHub.Sha256

namespace ChainHub

/-- The SHA-256 digest of a byte string. -/
def sha256 (bytes : Bytes) : Bytes :=
  let s := Sha256.absorbAll Sha256.initial (Sha256.pad bytes)
  [s.a, s.b, s.c, s.d, s.e, s.f, s.g, s.h].flatMap Sha256.wordBytes

/-- The byte by byte exclusive or of two byte strings. -/
def xorBytes (a b : Bytes) : Bytes := List.zipWith (· ^^^ ·) a b

/-- The HMAC-SHA-256 of `message` under `key`. -/
def hmac (key message : Bytes) : Bytes :=
  let short := if key.length ≤ Sha256.blockSize then key else sha256 key
  let block := short ++ List.replicate (Sha256.blockSize - short.length) 0
  let inner := sha256 (block.map (· ^^^ 0x36) ++ message)
  sha256 (block.map (· ^^^ 0x5c) ++ inner)

namespace Hkdf

/-- `count` output blocks, each keyed by `key` and chained to the one before. -/
def expandBlocks (key info : Bytes) : (count : Nat) → (index : Nat) → (previous : Bytes) → Bytes
  | 0, _, _ => []
  | count + 1, index, previous =>
    let block := hmac key (previous ++ info ++ [UInt8.ofNat index])
    block ++ expandBlocks key info count (index + 1) block

/-- `length` bytes derived from `material` under `salt`, bound to `info`. -/
def derive (salt material info : Bytes) (length : Nat) : Bytes :=
  let key := hmac salt material
  (expandBlocks key info ((length + 31) / 32) 1 []).take length

end Hkdf

namespace ExpandMessage

/-- `count` further blocks of output, each mixed with the one before. -/
def blocks (seed tag : Bytes) : (count : Nat) → (index : Nat) → (previous : Bytes) → Bytes
  | 0, _, _ => []
  | count + 1, index, previous =>
    let block := sha256 (xorBytes seed previous ++ UInt8.ofNat index :: tag)
    block ++ blocks seed tag count (index + 1) block

end ExpandMessage

/-- `length` uniform bytes from a message, separated from other uses by a domain tag. -/
def expandMessage (message tag : Bytes) (length : Nat) : Bytes :=
  let tag := tag ++ [UInt8.ofNat tag.length]
  let seed := sha256 (List.replicate Sha256.blockSize 0 ++ message ++ bigEndian 2 length
    ++ 0 :: tag)
  let first := sha256 (seed ++ 1 :: tag)
  (first ++ ExpandMessage.blocks seed tag ((length + 31) / 32 - 1) 2 first).take length

end ChainHub
