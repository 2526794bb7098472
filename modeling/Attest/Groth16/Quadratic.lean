import Attest.Circuit.System
import Attest.Curve.Sum
import Attest.Groth16.Domain

/-! A constraint system as polynomials.

Each row of the system is a point of a domain. A variable's coefficients on the
left of the rows are the values of one polynomial, those on the right and in the
product of two others, and the assignment satisfies the rows exactly when the
combined polynomials' left times right less product is divisible by the
polynomial that is zero on the domain. `System.columns` gives every variable's
three polynomials at a secret point, `System.quotient` the coefficients of that
quotient. -/
namespace Attest.Circuit.System
open Groth16

/-- The constant, the public and the private variables, in the order of columns. -/
def publicVariables (s : System) : List Variable :=
  .one :: (List.range s.inputs.size).map .input

/-- The values of the public and of the private variables after the constant. -/
def values (s : System) : List Scalar := s.inputs.toList ++ s.witness.toList

/-- The constraints, and for each public variable a row that holds nothing else, so that no two of
their polynomials are multiples of each other. -/
def rows (s : System) : List Constraint :=
  s.constraints.toList ++ s.publicVariables.map fun v => ⟨.ofTerm v 1, 0, 0⟩

/-- Rows fit a domain of `2 ^ levels` points. -/
def levels (s : System) : Nat := levelsFor s.rows.length

/-- A variable's column. -/
def column (s : System) : Variable → Nat
  | .one => 0
  | .input i => 1 + i
  | .witness i => 1 + s.inputs.size + i

/-- The values at `x` of the polynomials that are one at one point of the domain and zero at the
others. -/
def lagrange (k : Nat) (x : Scalar) : List Scalar :=
  let points := powers (root k) (Nat.pow 2 k) 1
  let share := vanishing k x * (Residue.ofNat (Nat.pow 2 k) : Scalar)⁻¹
  List.zipWith (fun w inverse => share * w * inverse) points
    (Bn254.inverses (points.map (x - ·)))

/-- The coefficients of one side of the rows, summed by column with a weight for each row. -/
def sumColumns (s : System) (side : Constraint → Combination) (weights : List Scalar) :
    List Scalar :=
  ((s.rows.zip weights).foldl
    (fun sums row => (side row.1).terms.foldl
      (fun sums t => sums.modify (s.column t.1) (· + row.2 * t.2)) sums)
    (Array.replicate (1 + s.inputs.size + s.witness.size) (0 : Scalar))).toList

/-- Each variable's left, right and product polynomial at `x`. -/
def columns (s : System) (x : Scalar) : List Scalar × List Scalar × List Scalar :=
  let weights := lagrange s.levels x
  (s.sumColumns (·.left) weights, s.sumColumns (·.right) weights,
    s.sumColumns (·.product) weights)

/-- The values of one side of the rows, padded to the domain. -/
def side (s : System) (side : Constraint → Combination) : List Scalar :=
  let held := s.rows.map fun c => (side c).eval s.value
  held ++ List.replicate (Nat.pow 2 s.levels - held.length) 0

/-- The coefficients of the quotient, from values on a coset where the divisor is a constant. -/
def quotient (s : System) : List Scalar :=
  let k := s.levels
  let w := root k
  let onCoset := fun ys => evaluate k w (stretch generator (interpolate k w ys))
  let left := onCoset (s.side (·.left))
  let right := onCoset (s.side (·.right))
  let product := onCoset (s.side (·.product))
  let divisor := (vanishing k generator)⁻¹
  let values := List.zipWith (fun ab c => (ab - c) * divisor)
    (List.zipWith (· * ·) left right) product
  stretch generator⁻¹ (interpolate k w values)

end Attest.Circuit.System
