import Attest.Curve.Quadratic

/-! The field of degree twelve in which the pairing takes its values.

`Sextic` is the cubic extension of the quadratic field by a cube root of
`nonResidue`, and `Dodecic` the quadratic extension of that by a square root of
the cube root. -/
namespace Attest.Bn254

/-- `a + b v + c v²`, with `v³ = nonResidue`. -/
structure Sextic where
  a : Quadratic
  b : Quadratic
  c : Quadratic
deriving DecidableEq

namespace Sextic

instance : Zero Sextic := ⟨⟨0, 0, 0⟩⟩
instance : One Sextic := ⟨⟨1, 0, 0⟩⟩
instance : Add Sextic := ⟨fun x y => ⟨x.a + y.a, x.b + y.b, x.c + y.c⟩⟩
instance : Sub Sextic := ⟨fun x y => ⟨x.a - y.a, x.b - y.b, x.c - y.c⟩⟩

/-- The product with `9 + u`. -/
def timesNonResidue (x : Quadratic) : Quadratic :=
  let two := x + x
  let four := two + two
  let nine := four + four + x
  ⟨nine.re - x.im, nine.im + x.re⟩

instance : Mul Sextic where
  mul x y :=
    let aa := x.a * y.a
    let bb := x.b * y.b
    let cc := x.c * y.c
    ⟨aa + timesNonResidue ((x.b + x.c) * (y.b + y.c) - bb - cc),
      (x.a + x.b) * (y.a + y.b) - aa - bb + timesNonResidue cc,
      (x.a + x.c) * (y.a + y.c) - aa - cc + bb⟩

/-- The product with `v`. -/
def shift (x : Sextic) : Sextic := ⟨timesNonResidue x.c, x.a, x.b⟩

end Sextic

/-- `a + b w`, with `w² = v`. -/
structure Dodecic where
  a : Sextic
  b : Sextic
deriving DecidableEq

namespace Dodecic

instance : Zero Dodecic := ⟨⟨0, 0⟩⟩
instance : One Dodecic := ⟨⟨1, 0⟩⟩

instance : Mul Dodecic where
  mul x y :=
    let aa := x.a * y.a
    let bb := x.b * y.b
    ⟨aa + bb.shift, (x.a + x.b) * (y.a + y.b) - aa - bb⟩

end Dodecic

end Attest.Bn254
