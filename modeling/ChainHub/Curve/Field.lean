import ChainHub.Bytes

/-!
# The base field of the signature curve and its quadratic extension

* `Fp`: numbers below the prime `p`.
* `Fp2`: `a + b·u` with `u² = -1`.
* `Coordinate`: what point arithmetic asks of a field; both fields are instances.

Both fields have square roots by one exponentiation, because `p` leaves 3 modulo 4, and an order on
non-zero values and their negatives (`isLarger`) that tells the two roots apart.
-/

namespace ChainHub

/-- The prime of the base field. -/
def fieldPrime : Nat :=
  0x1a0111ea397fe69a4b1ba7b6434bacd764774b84f38512bf6730d2a0f6b0f6241eabfffeb153ffffb9feffffffffaaab

theorem fieldPrime_pos : 0 < fieldPrime := by decide

/-- The prime order of the groups of points. -/
def groupOrder : Nat := 0x73eda753299d7d483339d80809a1d80553bda402fffe5bfeffffffff00000001

/-- What point arithmetic asks of a field. -/
class Coordinate (F : Type) extends Add F, Sub F, Neg F, Mul F, Zero F, One F where
  /-- The inverse of a non-zero value. -/
  inv : F → F
  /-- A square root, of the values that have one. -/
  sqrt? : F → Option F
  /-- Of a value and its negative, whether this is the larger one. -/
  isLarger : F → Bool
  isZero : F → Bool
  /-- The constant `b` of the curve `y² = x³ + b` over this field. -/
  curveConstant : F

/-- `x` to the power of `n`. -/
@[specialize]
def power {F : Type} [Mul F] [One F] (x : F) (n : Nat) : F :=
  if _h : n = 0 then 1
  else
    let half := power x (n / 2)
    let square := half * half
    if n % 2 = 1 then square * x else square
termination_by n
decreasing_by omega

/-! ## The base field -/

/-- A number below `fieldPrime`. -/
@[ext]
structure Fp where
  val : Nat
  val_lt : val < fieldPrime
deriving DecidableEq

namespace Fp

/-- The residue of a number. -/
def ofNat (n : Nat) : Fp := ⟨n % fieldPrime, Nat.mod_lt n fieldPrime_pos⟩

instance : Inhabited Fp := ⟨ofNat 0⟩

instance : Zero Fp := ⟨ofNat 0⟩

instance : One Fp := ⟨ofNat 1⟩

/-- The residue of a sum of two residues takes at most one subtraction. -/
def add (a b : Fp) : Fp :=
  if h : a.val + b.val < fieldPrime then ⟨a.val + b.val, h⟩
  else ⟨a.val + b.val - fieldPrime, by have := a.val_lt; have := b.val_lt; omega⟩

/-- The residue of a difference. -/
def sub (a b : Fp) : Fp :=
  if h : b.val ≤ a.val then ⟨a.val - b.val, by have := a.val_lt; omega⟩
  else ⟨a.val + fieldPrime - b.val, by have := a.val_lt; have := b.val_lt; omega⟩

instance : Add Fp := ⟨add⟩

instance : Sub Fp := ⟨sub⟩

instance : Neg Fp := ⟨fun a => sub 0 a⟩

instance : Mul Fp := ⟨fun a b => ofNat (a.val * b.val)⟩

/-- The inverse of a non-zero residue, as its power of `p - 2`. -/
def inv (a : Fp) : Fp := power a (fieldPrime - 2)

/-- The power of `(p + 1) / 4`, if its square is the given residue. -/
def sqrt? (a : Fp) : Option Fp :=
  let root := power a ((fieldPrime + 1) / 4)
  if root * root = a then some root else none

/-- Whether a residue lies in the upper half. -/
def isLarger (a : Fp) : Bool := fieldPrime < 2 * a.val

/-- The curve over the base field is `y² = x³ + 4`. -/
instance : Coordinate Fp where
  inv := inv
  sqrt? := sqrt?
  isLarger := isLarger
  isZero a := a.val == 0
  curveConstant := ofNat 4

/-- The residue written by 48 bytes, most significant first. -/
def ofBytes? (bytes : Bytes) : Option Fp :=
  let n := fromBigEndian bytes
  if h : n < fieldPrime then some ⟨n, h⟩ else none

/-- A residue as 48 bytes, most significant first. -/
def toBytes (a : Fp) : Bytes := bigEndian 48 a.val

end Fp

/-! ## The quadratic extension -/

/-- `re + im·u` with `u² = -1`. -/
@[ext]
structure Fp2 where
  re : Fp
  im : Fp
deriving DecidableEq, Inhabited

namespace Fp2

/-- A value of the extension from two numbers. -/
def ofNats (re im : Nat) : Fp2 := ⟨.ofNat re, .ofNat im⟩

instance : Zero Fp2 := ⟨⟨0, 0⟩⟩

instance : One Fp2 := ⟨⟨1, 0⟩⟩

instance : Add Fp2 := ⟨fun a b => ⟨a.re + b.re, a.im + b.im⟩⟩

instance : Sub Fp2 := ⟨fun a b => ⟨a.re - b.re, a.im - b.im⟩⟩

instance : Neg Fp2 := ⟨fun a => ⟨-a.re, -a.im⟩⟩

/-- The product, reducing each part once. -/
def mul (a b : Fp2) : Fp2 :=
  let reRe := a.re.val * b.re.val
  let imIm := a.im.val * b.im.val
  let cross := (a.re.val + a.im.val) * (b.re.val + b.im.val) - reRe - imIm
  ⟨.ofNat (reRe + fieldPrime * fieldPrime - imIm), .ofNat cross⟩

instance : Mul Fp2 := ⟨mul⟩

/-- The value multiplied by a residue. -/
def scale (a : Fp2) (k : Fp) : Fp2 := ⟨a.re * k, a.im * k⟩

/-- The other root of the same equation over the base field. -/
def conj (a : Fp2) : Fp2 := ⟨a.re, -a.im⟩

/-- The product of a value and its conjugate, which lies in the base field. -/
def norm (a : Fp2) : Fp := a.re * a.re + a.im * a.im

/-- The inverse of a non-zero value. -/
def inv (a : Fp2) : Fp2 := a.conj.scale a.norm.inv

/-- One half in the base field. -/
def half : Fp := (Fp.ofNat 2).inv

/-- The root with the given real part, of a value that is not in the base field. -/
def rootFrom (a : Fp2) (re : Fp) : Fp2 := ⟨re, a.im * half * re.inv⟩

/-- A square root, through a root of the norm. -/
def sqrt? (a : Fp2) : Option Fp2 :=
  if a.im.val = 0 then
    match a.re.sqrt? with
    | some root => some ⟨root, 0⟩
    | none => (-a.re).sqrt?.map fun root => ⟨0, root⟩
  else do
    let n ← a.norm.sqrt?
    match ((a.re + n) * half).sqrt? with
    | some re => some (rootFrom a re)
    | none => ((a.re - n) * half).sqrt?.map (rootFrom a)

/-- Whether the imaginary part, or if that is zero the real part, lies in the upper half. -/
def isLarger (a : Fp2) : Bool := if a.im.val = 0 then a.re.isLarger else a.im.isLarger

/-- `1 + u`, which is neither a square nor a cube. -/
def nonResidue : Fp2 := ofNats 1 1

/-- Multiplication by `1 + u`. -/
def mulNonResidue (a : Fp2) : Fp2 := ⟨a.re - a.im, a.re + a.im⟩

/-- The curve over the extension is `y² = x³ + 4(1 + u)`. -/
instance : Coordinate Fp2 where
  inv := inv
  sqrt? := sqrt?
  isLarger := isLarger
  isZero a := a.re.val == 0 && a.im.val == 0
  curveConstant := ofNats 4 4

end Fp2

end ChainHub
