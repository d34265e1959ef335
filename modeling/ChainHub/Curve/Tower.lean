import ChainHub.Curve.Field

/-!
# The extension in which pairings take their values

`Fp6` adjoins to `Fp2` a cube root `v` of `1 + u`, and `Fp12` adjoins to that a square root `w` of
`v`. Products split into products of halves and thirds, so that one product in `Fp12` takes
eighteen in `Fp2`.
-/

namespace ChainHub

/-- `c0 + c1·v + c2·v²` with `v³ = 1 + u`. -/
@[ext]
structure Fp6 where
  c0 : Fp2
  c1 : Fp2
  c2 : Fp2
deriving DecidableEq, Inhabited

namespace Fp6

instance : Zero Fp6 := ⟨⟨0, 0, 0⟩⟩

instance : One Fp6 := ⟨⟨1, 0, 0⟩⟩

instance : Add Fp6 := ⟨fun a b => ⟨a.c0 + b.c0, a.c1 + b.c1, a.c2 + b.c2⟩⟩

instance : Sub Fp6 := ⟨fun a b => ⟨a.c0 - b.c0, a.c1 - b.c1, a.c2 - b.c2⟩⟩

/-- The product, by six products in `Fp2`. -/
def mul (a b : Fp6) : Fp6 :=
  let t0 := a.c0 * b.c0
  let t1 := a.c1 * b.c1
  let t2 := a.c2 * b.c2
  let t12 := (a.c1 + a.c2) * (b.c1 + b.c2) - t1 - t2
  let t01 := (a.c0 + a.c1) * (b.c0 + b.c1) - t0 - t1
  let t02 := (a.c0 + a.c2) * (b.c0 + b.c2) - t0 - t2
  ⟨t0 + t12.mulNonResidue, t01 + t2.mulNonResidue, t02 + t1⟩

instance : Mul Fp6 := ⟨mul⟩

/-- Multiplication by `v`. -/
def mulV (a : Fp6) : Fp6 := ⟨a.c2.mulNonResidue, a.c0, a.c1⟩

end Fp6

/-- `c0 + c1·w` with `w² = v`. -/
@[ext]
structure Fp12 where
  c0 : Fp6
  c1 : Fp6
deriving DecidableEq, Inhabited

namespace Fp12

instance : One Fp12 := ⟨⟨1, 0⟩⟩

/-- The product, by three products in `Fp6`. -/
def mul (a b : Fp12) : Fp12 :=
  let t0 := a.c0 * b.c0
  let t1 := a.c1 * b.c1
  ⟨t0 + t1.mulV, (a.c0 + a.c1) * (b.c0 + b.c1) - t0 - t1⟩

instance : Mul Fp12 := ⟨mul⟩

/-- The square, by two products in `Fp6`. -/
def square (a : Fp12) : Fp12 :=
  let t := a.c0 * a.c1
  ⟨(a.c0 + a.c1) * (a.c0 + a.c1.mulV) - t - t.mulV, t + t⟩

end Fp12

end ChainHub
