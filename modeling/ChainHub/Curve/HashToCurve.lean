import ChainHub.Curve.Point
import ChainHub.Hash.Sha256
import ChainHub.Text.Utf8

/-!
# Hashing to the curve over `Fp2`

A message is expanded to two values of `Fp2`. Each is mapped to a point of the curve
`y² = x³ + 240u·x + 1012(1 + u)` and from there by an isogeny of degree three to the curve of the
signatures. The sum of the two points is multiplied by a fixed number, which leads into the group
of prime order.
-/

namespace ChainHub.HashToCurve

/-- The domain tag of signatures. -/
def tag : Bytes := Utf8.encode "BLS_SIG_BLS12381G2_XMD:SHA-256_SSWU_RO_NUL_"

/-- The value of `Fp2` made of 128 uniform bytes. -/
def fieldElement (bytes : Bytes) : Fp2 :=
  ⟨.ofNat (fromBigEndian (bytes.take 64)), .ofNat (fromBigEndian (bytes.drop 64))⟩

/-- The coefficient of `x` on the isogenous curve. -/
def coeffA : Fp2 := .ofNats 0 240

/-- The constant of the isogenous curve. -/
def coeffB : Fp2 := .ofNats 1012 1012

/-- `-(2 + u)`, which is not a square. -/
def coeffZ : Fp2 := -.ofNats 2 1

/-- The side of the isogenous curve's equation that is free of `y`. -/
def rightSide (x : Fp2) : Fp2 := (x * x + coeffA) * x + coeffB

/-- The sign of a value: the parity of its first part that is not zero. -/
def sign (a : Fp2) : Bool :=
  if a.re.val = 0 then a.im.val % 2 = 1 else a.re.val % 2 = 1

/-- The point of the isogenous curve for a value. Of its two candidates for `x`, at least one gives
a square on the right side; the sign of `y` is that of the value. -/
def mapToIsogenous (t : Fp2) : Fp2 × Fp2 :=
  let zt2 := coeffZ * (t * t)
  let d := zt2 * zt2 + zt2
  let x1 :=
    if Coordinate.isZero d then coeffB * (coeffZ * coeffA).inv
    else -coeffB * coeffA.inv * (1 + d.inv)
  let (x, y) :=
    match (rightSide x1).sqrt? with
    | some y => (x1, y)
    | none =>
      let x2 := zt2 * x1
      (x2, (rightSide x2).sqrt?.getD 0)
  (x, if sign t = sign y then y else -y)

/-- One ninth in the base field. -/
def ninth : Fp := (Fp.ofNat 9).inv

/-- Minus one twenty-seventh in the base field. -/
def minusTwentySeventh : Fp := -(Fp.ofNat 27).inv

/-- The isogeny whose kernel has the `x` coordinate `-6 + 6u`. With `d` the distance from it,
`x` goes to `(x + 48u/d + 16(1 + u)/d²) / 9` and `y` is multiplied by
`-(1 - 48u/d² - 32(1 + u)/d³) / 27`. -/
def isogeny (x y : Fp2) : Point Fp2 :=
  let d := x - (-.ofNats 6 0 + .ofNats 0 6)
  if Coordinate.isZero d then .infinity
  else
    let e := d.inv
    let e2 := e * e
    let e3 := e2 * e
    let x' := x + .ofNats 0 48 * e + .ofNats 16 16 * e2
    let factor := 1 - .ofNats 0 48 * e2 - .ofNats 32 32 * e3
    .affine (x'.scale ninth) ((y * factor).scale minusTwentySeventh)

/-- Multiplying by this number leads from the curve into its group of prime order. -/
def cofactor : Nat :=
  0xbc69f08f2ee75b3584c6a0ea91b352888e2a8e9145ad7689986ff031508ffe1329c2f178731db956d82bf015d1212b02ec0ec69d7477c1ae954cbc06689f6a359894c0adebbf6b4e8020005aaa95551

/-- The point of a value on the curve of the signatures. -/
def mapToCurve (t : Fp2) : Jacobian Fp2 :=
  let (x, y) := mapToIsogenous t
  .ofPoint (isogeny x y)

/-- The point of prime order that stands for a message. -/
def hash (message : Bytes) : Jacobian Fp2 :=
  let uniform := expandMessage message tag 256
  let p := mapToCurve (fieldElement (uniform.take 128))
  let q := mapToCurve (fieldElement (uniform.drop 128))
  (p.add q).multiply cofactor

end ChainHub.HashToCurve
