import Attest.Groth16.Keys
import Attest.Groth16.Quadratic

/-! Keys for a circuit, from secrets.

The key of a system depends on its rows alone, not on the values of its
variables. Whoever knows the secrets can prove anything, so they are not kept. -/
namespace Attest.Groth16
open Bn254 Circuit

structure Secrets where
  alpha : Scalar
  beta : Scalar
  gamma : Scalar
  delta : Scalar
  /-- Where the polynomials are evaluated. -/
  point : Scalar

def Secrets.ofEntropy (entropy : Nat → Scalar) : Secrets :=
  ⟨entropy 0, entropy 1, entropy 2, entropy 3, entropy 4⟩

/-- Makes the keys of a system. -/
def ProvingKey.generate (t : Secrets) (s : System) : ProvingKey :=
  let first := Multiples.ofPoint G1.generator
  let second := Multiples.ofPoint G2.generator
  let inFirst := fun (xs : List Scalar) => first.mulAll (xs.map (·.val))
  let inSecond := fun (xs : List Scalar) => second.mulAll (xs.map (·.val))
  let oneFirst := fun (x : Scalar) => (first.mul x.val).toPoint
  let oneSecond := fun (x : Scalar) => (second.mul x.val).toPoint
  let (left, right, product) := s.columns t.point
  let mixed := List.zipWith (· + ·)
    (List.zipWith (fun a b => t.beta * a + t.alpha * b) left right) product
  let publicCount := 1 + s.inputs.size
  let overGamma := t.gamma⁻¹
  let overDelta := t.delta⁻¹
  let top := vanishing s.levels t.point * overDelta
  { verifying :=
      { alpha := oneFirst t.alpha
        beta := oneSecond t.beta
        gamma := oneSecond t.gamma
        delta := oneSecond t.delta
        inputs := inFirst ((mixed.take publicCount).map (overGamma * ·)) }
    beta := oneFirst t.beta
    delta := oneFirst t.delta
    left := inFirst left
    right := inFirst right
    rightTwin := inSecond right
    quotient := inFirst (powers t.point (Nat.pow 2 s.levels - 1) top)
    witness := inFirst ((mixed.drop publicCount).map (overDelta * ·)) }

end Attest.Groth16
