import ChainHub.Curve.Point
import ChainHub.Curve.Tower

/-!
# The pairing

`Pairing.productIsOne` decides whether a product of pairings is one. Each pairing is a product of
line functions, evaluated along the digits of the curve parameter, raised to `(p¹² - 1) / r`.

The lines run through points of the curve over `Fp2` and are evaluated at a point of the curve over
`Fp`, after the map that divides `x` by `w²` and `y` by `w³`. They are multiplied by `w³`, which the
final power removes again.

The final power need not be taken to the end: since `p¹² - 1 = (p⁶ - 1)(p⁶ + 1)`, the result is one
exactly if the power of `(p⁶ + 1) / r` is equal to its own conjugate over `Fp6`, which means that
its part at `w` is zero.
-/

namespace ChainHub.Pairing

/-- The absolute value of the curve parameter, which is negative. -/
def parameter : Nat := 0xd201000000010000

/-- The digits of the parameter after the leading one, most significant first. -/
def parameterDigits : List Bool :=
  (List.range 63).reverse.map fun i => parameter.testBit i

/-- The line of slope `slope` through the point `(x, y)`, evaluated at `(px, py)`. -/
def line (slope x y : Fp2) (px py : Fp) : Fp12 :=
  ⟨⟨slope * x - y, -slope.scale px, 0⟩, ⟨0, ⟨py, 0⟩, 0⟩⟩

/-- The state of one pairing: where the line was drawn last. -/
structure Walk where
  /-- The point over `Fp`. -/
  px : Fp
  py : Fp
  /-- The point over `Fp2`. -/
  qx : Fp2
  qy : Fp2
  /-- The multiple of that point that has been reached. -/
  tx : Fp2
  ty : Fp2

namespace Walk

/-- The third point on the line of slope `slope` through the reached point and one with the given
`x`, with its `y` negated. -/
def step (w : Walk) (slope otherX : Fp2) : Walk :=
  let x := slope * slope - w.tx - otherX
  { w with tx := x, ty := slope * (w.tx - x) - w.ty }

/-- The tangent at the reached point. -/
def double (w : Walk) : Fp12 × Walk :=
  let square := w.tx * w.tx
  let slope := (square + square + square) * (w.ty + w.ty).inv
  (line slope w.tx w.ty w.px w.py, w.step slope w.tx)

/-- The line through the reached point and the starting point. -/
def add (w : Walk) : Fp12 × Walk :=
  let slope := (w.ty - w.qy) * (w.tx - w.qx).inv
  (line slope w.tx w.ty w.px w.py, w.step slope w.qx)

end Walk

/-- One step of every walk, with the lines multiplied to `f`. -/
def stepAll (step : Walk → Fp12 × Walk) (f : Fp12) (walks : List Walk) : Fp12 × List Walk :=
  let steps := walks.map step
  (steps.foldl (fun f s => f * s.1) f, steps.map (·.2))

/-- The product of all lines along the digits. -/
def lines : List Bool → Fp12 → List Walk → Fp12
  | [], f, _ => f
  | digit :: digits, f, walks =>
    let (f, walks) := stepAll Walk.double f.square walks
    if digit then
      let (f, walks) := stepAll Walk.add f walks
      lines digits f walks
    else lines digits f walks

/-- The pairs in which neither point is at infinity; the others have the pairing one. -/
def start : Point Fp × Point Fp2 → Option Walk
  | (.affine px py, .affine qx qy) => some ⟨px, py, qx, qy, qx, qy⟩
  | _ => none

/-- `f` to the power of `n`. -/
def powerFp12 (f : Fp12) (n : Nat) : Fp12 :=
  if _h : n = 0 then 1
  else
    let square := (powerFp12 f (n / 2)).square
    if n % 2 = 1 then square * f else square
termination_by n
decreasing_by omega

/-- The part of the final power that is not the exponent `p⁶ - 1`. -/
def finalExponent : Nat := (Nat.pow fieldPrime 6 + 1) / groupOrder

/-- Whether the product of the pairings of the given pairs is one. The parameter is negative, which
turns every pairing into its inverse and does not change the answer. -/
def productIsOne (pairs : List (Point Fp × Point Fp2)) : Bool :=
  let f := lines parameterDigits 1 (pairs.filterMap start)
  (powerFp12 f finalExponent).c1 == 0

end ChainHub.Pairing
