import ChainHub.Bytes

/-!
# Keccak-256

Model of `keccak256`.

The sponge with a 1600-bit state and the padding of the first Keccak submission: `0x01`, zeros,
and the top bit of the last byte of a block. The state is kept as five planes of five 64-bit lanes;
lane `x` of plane `y` is the lane at `(x, y)`.

* `keccak256`: the digest of a byte string.
-/

namespace ChainHub.Keccak

/-- Five lanes with the same `y`. -/
structure Plane where
  x0 : UInt64
  x1 : UInt64
  x2 : UInt64
  x3 : UInt64
  x4 : UInt64
deriving DecidableEq, Inhabited

/-- The whole state, plane by plane. -/
structure State where
  y0 : Plane
  y1 : Plane
  y2 : Plane
  y3 : Plane
  y4 : Plane
deriving DecidableEq, Inhabited

namespace Plane

/-- The plane with all lanes zero. -/
def zero : Plane := ⟨0, 0, 0, 0, 0⟩

/-- Lane by lane exclusive or. -/
def xor (a b : Plane) : Plane :=
  ⟨a.x0 ^^^ b.x0, a.x1 ^^^ b.x1, a.x2 ^^^ b.x2, a.x3 ^^^ b.x3, a.x4 ^^^ b.x4⟩

end Plane

/-- Rotation of a lane to the left by `n` places, `0 < n < 64`. -/
@[inline]
def rotate (x : UInt64) (n : UInt64) : UInt64 := (x <<< n) ||| (x >>> (64 - n))

/-- What the mixing of columns adds to every plane: the parities of the two columns beside. -/
def columnEffect (s : State) : Plane :=
  let c := ((((s.y0.xor s.y1).xor s.y2).xor s.y3).xor s.y4)
  ⟨c.x4 ^^^ rotate c.x1 1, c.x0 ^^^ rotate c.x2 1, c.x1 ^^^ rotate c.x3 1,
    c.x2 ^^^ rotate c.x4 1, c.x3 ^^^ rotate c.x0 1⟩

/-- Mixes the columns. -/
def theta (s : State) : State :=
  let d := columnEffect s
  ⟨s.y0.xor d, s.y1.xor d, s.y2.xor d, s.y3.xor d, s.y4.xor d⟩

/-- Rotates every lane by its own distance and moves lane `(x, y)` to `(y, 2x + 3y)`. -/
def rotateAndMove (s : State) : State where
  y0 := ⟨s.y0.x0, rotate s.y1.x1 44, rotate s.y2.x2 43, rotate s.y3.x3 21, rotate s.y4.x4 14⟩
  y1 := ⟨rotate s.y0.x3 28, rotate s.y1.x4 20, rotate s.y2.x0 3, rotate s.y3.x1 45,
    rotate s.y4.x2 61⟩
  y2 := ⟨rotate s.y0.x1 1, rotate s.y1.x2 6, rotate s.y2.x3 25, rotate s.y3.x4 8,
    rotate s.y4.x0 18⟩
  y3 := ⟨rotate s.y0.x4 27, rotate s.y1.x0 36, rotate s.y2.x1 10, rotate s.y3.x2 15,
    rotate s.y4.x3 56⟩
  y4 := ⟨rotate s.y0.x2 62, rotate s.y1.x3 55, rotate s.y2.x4 39, rotate s.y3.x0 41,
    rotate s.y4.x1 2⟩

/-- The only step that is not linear, within one plane. -/
def chiPlane (p : Plane) : Plane :=
  ⟨p.x0 ^^^ (~~~ p.x1 &&& p.x2), p.x1 ^^^ (~~~ p.x2 &&& p.x3), p.x2 ^^^ (~~~ p.x3 &&& p.x4),
    p.x3 ^^^ (~~~ p.x4 &&& p.x0), p.x4 ^^^ (~~~ p.x0 &&& p.x1)⟩

/-- One round with its constant. -/
def round (s : State) (constant : UInt64) : State :=
  let t := rotateAndMove (theta s)
  let p := chiPlane t.y0
  ⟨{ p with x0 := p.x0 ^^^ constant }, chiPlane t.y1, chiPlane t.y2, chiPlane t.y3, chiPlane t.y4⟩

/-- The constants of the 24 rounds. -/
def roundConstants : List UInt64 :=
  [0x0000000000000001, 0x0000000000008082, 0x800000000000808a, 0x8000000080008000,
    0x000000000000808b, 0x0000000080000001, 0x8000000080008081, 0x8000000000008009,
    0x000000000000008a, 0x0000000000000088, 0x0000000080008009, 0x000000008000000a,
    0x000000008000808b, 0x800000000000008b, 0x8000000000008089, 0x8000000000008003,
    0x8000000000008002, 0x8000000000000080, 0x000000000000800a, 0x800000008000000a,
    0x8000000080008081, 0x8000000000008080, 0x0000000080000001, 0x8000000080008008]

/-- The permutation of the state. -/
def permute (s : State) : State := roundConstants.foldl round s

/-- The number of bytes taken in between two permutations. -/
def blockSize : Nat := 136

/-- The lane written by the first eight bytes, least significant first, and the bytes after it. -/
def takeLane (bytes : Bytes) : UInt64 × Bytes :=
  ((bytes.take 8).foldr (fun b lane => (lane <<< 8) ||| b.toUInt64) 0, bytes.drop 8)

/-- The plane written by the first forty bytes, and the bytes after them. -/
def takePlane (bytes : Bytes) : Plane × Bytes :=
  let (x0, bytes) := takeLane bytes
  let (x1, bytes) := takeLane bytes
  let (x2, bytes) := takeLane bytes
  let (x3, bytes) := takeLane bytes
  let (x4, bytes) := takeLane bytes
  (⟨x0, x1, x2, x3, x4⟩, bytes)

/-- Adds one block to the state and permutes it. -/
def absorb (s : State) (block : Bytes) : State :=
  let (p0, bytes) := takePlane block
  let (p1, bytes) := takePlane bytes
  let (p2, bytes) := takePlane bytes
  let (p3, _) := takePlane bytes
  permute ⟨s.y0.xor p0, s.y1.xor p1, s.y2.xor p2, s.y3.xor p3, s.y4⟩

/-- A last block of fewer than `blockSize` bytes, padded. -/
def padBlock (rest : Bytes) : Bytes :=
  if rest.length + 1 = blockSize then rest ++ [0x81]
  else rest ++ 0x01 :: List.replicate (blockSize - rest.length - 2) 0 ++ [0x80]

/-- Adds a byte string, padded, to the state. -/
def absorbAll (s : State) (bytes : Bytes) : State :=
  if _h : bytes.length < blockSize then absorb s (padBlock bytes)
  else absorbAll (absorb s (bytes.take blockSize)) (bytes.drop blockSize)
termination_by bytes.length
decreasing_by
  simp only [blockSize, List.length_drop] at _h ⊢
  omega

/-- The state before anything is taken in. -/
def initial : State := ⟨.zero, .zero, .zero, .zero, .zero⟩

/-- The eight bytes of a lane. -/
def laneBytes (lane : UInt64) : Bytes := littleEndian 8 lane.toNat

@[simp]
theorem length_laneBytes (lane : UInt64) : (laneBytes lane).length = 8 :=
  length_littleEndian 8 lane.toNat

end ChainHub.Keccak

namespace ChainHub

/-- The Keccak-256 digest of a byte string. -/
def keccak256 (bytes : Bytes) : Digest :=
  let p := (Keccak.absorbAll Keccak.initial bytes).y0
  ⟨Keccak.laneBytes p.x0 ++ Keccak.laneBytes p.x1 ++ Keccak.laneBytes p.x2
    ++ Keccak.laneBytes p.x3, by simp⟩

end ChainHub
