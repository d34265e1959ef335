import ChainHub.Curve.Field

/-!
# Points of a curve `y² = x³ + b`

* `Point`: a point by its coordinates, or the point at infinity.
* `Jacobian`: the same with a common denominator, on which adding takes no inverse.
* `Point.encode` / `Point.decode?`: the compressed form, which is `x` with three flag bits: the form
  is compressed, the point is at infinity, and `y` is the larger one of its two values.

`decode?` accepts exactly one form of every point of prime order and of the point at infinity.
-/

namespace ChainHub

/-- A point of a curve, in affine coordinates. -/
inductive Point (F : Type)
  | infinity
  | affine (x y : F)
deriving DecidableEq, Inhabited

/-- The point with coordinates `x / z²` and `y / z³`, which is at infinity when `z` is zero. -/
structure Jacobian (F : Type) where
  x : F
  y : F
  z : F

/-- A field with a fixed width in bytes. -/
class Serial (F : Type) where
  /-- How many bytes a value takes. -/
  width : Nat
  toBytes : F → Bytes
  ofBytes? : Bytes → Option F

instance : Serial Fp where
  width := 48
  toBytes := Fp.toBytes
  ofBytes? := Fp.ofBytes?

/-- The imaginary part comes first. -/
instance : Serial Fp2 where
  width := 96
  toBytes a := a.im.toBytes ++ a.re.toBytes
  ofBytes? bytes := do
    let im ← Fp.ofBytes? (bytes.take 48)
    let re ← Fp.ofBytes? (bytes.drop 48)
    return ⟨re, im⟩

namespace Jacobian

variable {F : Type} [Coordinate F]

/-- The point at infinity. -/
def infinity : Jacobian F := ⟨1, 1, 0⟩

instance : Inhabited (Jacobian F) := ⟨infinity⟩

/-- A point with denominator one. -/
def ofPoint : Point F → Jacobian F
  | .infinity => infinity
  | .affine x y => ⟨x, y, 1⟩

/-- The point by its coordinates. -/
@[specialize]
def toPoint (p : Jacobian F) : Point F :=
  if Coordinate.isZero p.z then .infinity
  else
    let zInv := Coordinate.inv p.z
    let zInv2 := zInv * zInv
    .affine (p.x * zInv2) (p.y * (zInv2 * zInv))

/-- The negative. -/
def neg (p : Jacobian F) : Jacobian F := ⟨p.x, -p.y, p.z⟩

/-- A point added to itself. -/
@[specialize]
def double (p : Jacobian F) : Jacobian F :=
  let a := p.x * p.x
  let b := p.y * p.y
  let c := b * b
  let t := p.x + b
  let d := t * t - a - c
  let d := d + d
  let e := a + a + a
  let x := e * e - (d + d)
  let c2 := c + c
  let c4 := c2 + c2
  let yz := p.y * p.z
  ⟨x, e * (d - x) - (c4 + c4), yz + yz⟩

/-- The sum of two points. -/
@[specialize]
def add (p q : Jacobian F) : Jacobian F :=
  if Coordinate.isZero p.z then q
  else if Coordinate.isZero q.z then p
  else
    let pz2 := p.z * p.z
    let qz2 := q.z * q.z
    let u1 := p.x * qz2
    let u2 := q.x * pz2
    let s1 := p.y * (q.z * qz2)
    let s2 := q.y * (p.z * pz2)
    let h := u2 - u1
    let r := s2 - s1
    if Coordinate.isZero h then
      if Coordinate.isZero r then double p else infinity
    else
      let h2 := h * h
      let h3 := h * h2
      let v := u1 * h2
      let x := r * r - h3 - (v + v)
      ⟨x, r * (v - x) - s1 * h3, p.z * q.z * h⟩

/-- The point added to itself `n` times. -/
@[specialize]
def multiply (p : Jacobian F) (n : Nat) : Jacobian F :=
  if _h : n = 0 then infinity
  else
    let twice := double (multiply p (n / 2))
    if n % 2 = 1 then add twice p else twice
termination_by n
decreasing_by omega

/-- Whether the point lies in the group of prime order. -/
@[specialize]
def inGroup (p : Jacobian F) : Bool := Coordinate.isZero (multiply p groupOrder).z

end Jacobian

namespace Point

variable {F : Type} [Coordinate F] [Serial F]

/-- The bytes of a field value as numbers, with flags set in the topmost bits of the first. -/
def withFlags (flags : Nat) : Bytes → Bytes
  | [] => []
  | b :: bytes => UInt8.ofNat (b.toNat + flags) :: bytes

/-- The compressed form. -/
@[specialize]
def encode : Point F → Bytes
  | .infinity => withFlags 0xc0 (List.replicate (Serial.width F) 0)
  | .affine x y => withFlags (if Coordinate.isLarger y then 0xa0 else 0x80) (Serial.toBytes x)

/-- The point of the curve with the given `x`, and the larger `y` or the smaller one. -/
@[specialize]
def onCurve? (x : F) (larger : Bool) : Option (Point F) := do
  let y ← Coordinate.sqrt? (x * x * x + Coordinate.curveConstant)
  return .affine x (if Coordinate.isLarger y = larger then y else -y)

/-- The point of a compressed form, if it has the right length and canonical coordinates and lies
in the group of prime order. -/
@[specialize]
def decode? (bytes : Bytes) : Option (Point F) :=
  match bytes with
  | [] => none
  | first :: rest =>
    if bytes.length ≠ Serial.width F ∨ first.toNat < 0x80 then none
    else
      let flags := first.toNat / 32
      match Serial.ofBytes? (UInt8.ofNat (first.toNat % 32) :: rest) with
      | none => none
      | some (x : F) =>
        if flags % 4 / 2 = 1 then
          if flags = 6 ∧ Coordinate.isZero x = true then some .infinity else none
        else
          match onCurve? x (flags % 2 = 1) with
          | none => none
          | some point => if (Jacobian.ofPoint point).inGroup then some point else none

end Point

end ChainHub
