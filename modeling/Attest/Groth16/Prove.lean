import Attest.Groth16.Keys
import Attest.Groth16.Quadratic

/-! Proving that a system is satisfied.

Two random scalars mask the proof, so that it tells nothing but its statement.
A proof of a system that is not satisfied, or whose layout is not the key's, can
be made and does not verify. -/
namespace Attest.Groth16
open Bn254 Circuit

structure Mask where
  r : Scalar
  s : Scalar

def Mask.ofEntropy (entropy : Nat → Scalar) : Mask := ⟨entropy 0, entropy 1⟩

/-- A key's point, the points of a list weighted by the assignment, and a multiple of another of the
key's points. -/
@[specialize]
def combine {F : Type} [Curve F] (start : Point F) (list : List (Point F)) (values : List Scalar)
    (last : Point F) (k : Scalar) : Jacobian F :=
  ((weightedSum list (1 :: values)).addPoint start).add (last.mul k.val)

/-- The proof, unless the key has no place for the constant. -/
def ProvingKey.prove? (k : ProvingKey) (m : Mask) (s : System) : Option Proof :=
  if k.left.isEmpty || k.right.isEmpty || k.rightTwin.isEmpty then none
  else
    let values := s.values
    let a := (combine k.verifying.alpha k.left values k.delta m.r).toPoint
    let b := combine k.beta k.right values k.delta m.s
    let twin := combine k.verifying.beta k.rightTwin values k.verifying.delta m.s
    let hidden := (weightedSum k.witness s.witness.toList).add (weightedSum k.quotient s.quotient)
    let masks := ((a.mul m.s.val).add (b.toPoint.mul m.r.val)).add
      (k.delta.neg.mul (m.r * m.s).val)
    some { a, b := twin.toPoint, c := (hidden.add masks).toPoint }

end Attest.Groth16
