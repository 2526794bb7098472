import Attest.Curve.Subgroup
import Attest.Curve.Tower

/-! The ate pairing of the two groups.

The Miller loop walks the multiples of the second point up to the Frobenius
multiplier, and multiplies up the lines through them at the first point; the
power by `(q¹² - 1) / r` then takes the product to a root of unity. A product of
pairings needs one such power for all of its factors. It is one when the power
by `(q⁶ + 1) / r` is its own conjugate, because the rest of the exponent divides
an element's conjugate by the element. -/
namespace Attest.Bn254

/-- The line of slope `slope` through a point of the second curve, at a point of the first. -/
def line (slope tx ty : Quadratic) (px py : Base) : Dodecic :=
  ⟨⟨⟨py, 0⟩, 0, 0⟩, ⟨-Quadratic.scale px slope, slope * tx - ty, 0⟩⟩

/-- The point on the second curve in the direction `slope` from two points with these `x`. -/
def chord (slope tx ty ux : Quadratic) : Quadratic × Quadratic :=
  let x := slope * slope - tx - ux
  (x, slope * (tx - x) - ty)

/-- The walk over the bits left, from the multiple `(tx, ty)` of `(qx, qy)`. -/
def miller (qx qy : Quadratic) (px py : Base) :
    List Bool → Quadratic → Quadratic → Dodecic → Dodecic
  | [], _, _, f => f
  | bit :: rest, tx, ty, f =>
    let square := tx * tx
    let slope := (square + square + square) * (ty + ty)⁻¹
    let f := f * f * line slope tx ty px py
    let (tx, ty) := chord slope tx ty tx
    if bit then
      let slope := (ty - qy) * (tx - qx)⁻¹
      let f := f * line slope tx ty px py
      let (tx, ty) := chord slope tx ty qx
      miller qx qy px py rest tx ty f
    else miller qx qy px py rest tx ty f

/-- A pairing before the final power. -/
def millerLoop (p : G1) (q : G2) : Dodecic :=
  match p, q with
  | .affine px py, .affine qx qy =>
    miller qx qy px py (binary frobeniusMultiplier).tail qx qy 1
  | _, _ => 1

/-- The part of the final exponent above `q⁶ - 1`. -/
def cofactor : List Bool := binary ((Nat.pow basePrime 6 + 1) / order)

/-- The product of the pairings of the pairs is one. -/
def pairingProductIsOne (pairs : List (G1 × G2)) : Bool :=
  let product := (pairs.map fun p => millerLoop p.1 p.2).foldl (· * ·) 1
  decide (product ≠ 0) && decide ((powBinary product cofactor).b = 0)

end Attest.Bn254
