import Attest.Bytes
import Attest.Curve.Point

/-! Many multiples at once.

`Multiples` holds every multiple of one point by a digit at each place of a
256-ary number, so that a further multiple costs one addition a digit.
`weightedSum` adds multiples of many points: at each place the points that share
a digit are added first, and each digit's sum is counted as often as the digit
says by adding up partial sums. `toPoints` brings triples to affine form with a
single division. -/
namespace Attest.Bn254

/-- The inverses of nonzero elements, with one division for all of them. -/
@[specialize]
def inverses {F : Type} [One F] [Mul F] [Inv F] (xs : List F) : List F := (go xs 1).1
where
  /-- Also gives the inverse of what is on the left, `acc`. -/
  go : List F → F → List F × F
    | [], acc => ([], acc⁻¹)
    | x :: rest, acc =>
      let (ys, inverse) := go rest (acc * x)
      (inverse * acc :: ys, inverse * x)

variable {F : Type} [Curve F]

@[specialize]
def Jacobian.toPoints (ps : List (Jacobian F)) : List (Point F) :=
  (ps.zip (inverses (ps.map fun p => if p.z = 0 then 1 else p.z))).map fun p => p.1.toPointWith p.2

/-- The bits of a digit, and so of a place. -/
def digitBits : Nat := 8

/-- How many digits there are. -/
def radix : Nat := 256

/-- The digits of a scalar, lowest first. -/
def digits (n : Nat) : Bytes := Bytes.ofNatLE 32 n

/-- At each place, from the lowest, a point's multiples by `0`, `1`, … `255` times its weight. -/
structure Multiples (F : Type) where
  places : List (Array (Point F))

namespace Multiples

/-- A point's multiples by `n` numbers counted up from that of `sum`. -/
@[specialize]
def ladder (p : Point F) : Nat → Jacobian F → List (Jacobian F)
  | 0, _ => []
  | n + 1, sum => sum :: ladder p n (sum.addPoint p)

@[specialize]
def ofPlaces : Nat → Point F → List (Array (Point F))
  | 0, _ => []
  | n + 1, p =>
    let above := (p.mul radix).toPoint
    (Jacobian.toPoints (ladder p radix .zero)).toArray :: ofPlaces n above

@[specialize]
def ofPoint (p : Point F) : Multiples F := ⟨ofPlaces 32 p⟩

@[specialize]
def mul (m : Multiples F) (n : Nat) : Jacobian F :=
  (m.places.zip (digits n)).foldl
    (fun sum place => sum.addPoint (place.1[place.2.toNat]?.getD .infinity)) .zero

/-- The multiples by many numbers, as points. -/
@[specialize]
def mulAll (m : Multiples F) (ns : List Nat) : List (Point F) := Jacobian.toPoints (ns.map m.mul)

end Multiples

/-- The sum of each digit's points, the digits counted up from zero. -/
@[specialize]
def buckets (terms : List (UInt8 × Point F)) : Array (Jacobian F) :=
  terms.foldl
    (fun sums t => if t.1 = 0 then sums else sums.modify t.1.toNat fun s => s.addPoint t.2)
    (Array.replicate radix .zero)

/-- The sum of each entry counted as often as its position says. -/
@[specialize]
def byPosition (sums : List (Jacobian F)) : Jacobian F :=
  (sums.tail.foldr (fun s (run, total) =>
    let run := run.add s
    (run, total.add run)) (Jacobian.zero, Jacobian.zero)).2

/-- The terms with their digits at the lowest place, and what is left of their numbers. -/
def lowDigits (terms : List (Bytes × Point F)) : List (UInt8 × Point F) :=
  terms.map fun t => (t.1.headD 0, t.2)

@[specialize]
def sumOfPlaces : Nat → List (Bytes × Point F) → Jacobian F
  | 0, _ => .zero
  | n + 1, terms =>
    let above := sumOfPlaces n (terms.map fun t => (t.1.tail, t.2))
    let here := byPosition (buckets (lowDigits terms)).toList
    (Nat.repeat Jacobian.double digitBits above).add here

/-- The sum of the points' multiples by the scalars, as far as both lists reach. -/
@[specialize]
def weightedSum (ps : List (Point F)) (ks : List Scalar) : Jacobian F :=
  sumOfPlaces 32 ((ks.zip ps).map fun t => (digits t.1.val, t.2))

end Attest.Bn254
