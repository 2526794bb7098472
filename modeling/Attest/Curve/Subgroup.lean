import Attest.Curve.Point

/-! Membership in the groups of prime order.

Every point of the first curve is in its group. On the second curve the
Frobenius map, carried over to it, is a map `f` of the group; with `x` the
number that generates the curve, a point `p` is in the group of prime order
exactly when `(x + 1) p + f (x p) + f (f (x p)) = f (f (f (2 x p)))`. -/
namespace Attest.Bn254

/-- The number from which both primes are computed. -/
def generatingNumber : Nat := 4965661367192848881

/-- The Frobenius map's multiplier on the second group, less than the order by its residue. -/
def frobeniusMultiplier : Nat := 6 * generatingNumber * generatingNumber

/-- What the Frobenius map multiplies a conjugate `x` by. -/
def frobeniusX : Quadratic := powBinary Quadratic.nonResidue (binary ((basePrime - 1) / 3))

/-- What the Frobenius map multiplies a conjugate `y` by. -/
def frobeniusY : Quadratic := powBinary Quadratic.nonResidue (binary ((basePrime - 1) / 2))

namespace G2

/-- The Frobenius map, carried over to the second curve. -/
def frobenius (p : Jacobian Quadratic) : Jacobian Quadratic :=
  ⟨p.x.conj * frobeniusX, p.y.conj * frobeniusY, p.z.conj⟩

/-- For a point on the curve: it is in the group of prime order. -/
def inSubgroup (p : G2) : Bool :=
  let multiple := p.mul generatingNumber
  let once := frobenius multiple
  let twice := frobenius once
  (((multiple.addPoint p).add once).add twice).same (frobenius twice).double

end G2

end Attest.Bn254
