import Attest.Circuit.Hash
import Attest.Circuit.Range
import Attest.Witness

/-! The circuits of the two predicates.

Both open a commitment: the prover knows a value and a document's digest that
hash to a public scalar. `ThresholdWitness.constrain` adds that the value is at
least a public bound, both below `2 ^ 64`, so that the difference is below it
too exactly when the value is not the smaller. `MembershipWitness.constrain`
adds that the value's leaf folds along a path to a public root; the path has to
be as long as the circuit is deep, or no system is made. -/
namespace Attest

/-- The width of a value and of a bound in bits. -/
def thresholdBits : Nat := 64

namespace Circuit

/-- Why no system could be made. -/
inductive SynthesisError where
  | pathLength
deriving DecidableEq

def SynthesisError.message : SynthesisError → String
  | .pathLength => "unsatisfiable constraint system"

namespace Builder
variable (P : Poseidon.Params)

/-- Allocates a private claim, ties it to its public commitment and gives its value. -/
def openClaim (value documentHash : Scalar) (commitment : Wire) : Builder Wire := do
  let value ← witness value
  let documentHash ← witness documentHash
  enforceEqual (← hash P [value, documentHash]) commitment
  return value

/-- The parent of a node along a path. -/
def climb (node : Wire) (step : Scalar × Bool) : Builder Wire := do
  let sibling ← witness step.1
  let isRight ← bit step.2
  let left ← select isRight sibling node
  let right ← select isRight node sibling
  hash P [left, right]

end Builder

end Circuit

open Circuit

namespace ThresholdWitness
variable (P : Poseidon.Params)

def constrain (w : ThresholdWitness) : Builder Unit := do
  let commitment ← Builder.input w.commitment
  let threshold ← Builder.input w.threshold
  let value ← Builder.openClaim P w.value w.documentHash commitment
  Builder.fitsIn thresholdBits value
  Builder.fitsIn thresholdBits threshold
  Builder.fitsIn thresholdBits (value - threshold)

def synthesize (w : ThresholdWitness) : System := ((w.constrain P).run .empty).2

end ThresholdWitness

namespace MembershipWitness
variable (P : Poseidon.Params)

def constrain (w : MembershipWitness) : Builder Unit := do
  let root ← Builder.input w.root
  let commitment ← Builder.input w.commitment
  let value ← Builder.openClaim P w.value w.documentHash commitment
  let leaf ← Builder.hash P [value]
  let top ← (w.siblings.zip w.pathBits).foldlM (Builder.climb P) leaf
  Builder.enforceEqual top root

/-- The system of the circuit of a depth. -/
def synthesize (depth : Nat) (w : MembershipWitness) : Except SynthesisError System :=
  if w.siblings.length = depth ∧ w.pathBits.length = depth then
    .ok ((w.constrain P).run .empty).2
  else .error .pathLength

end MembershipWitness

/-- The system of the predicate's circuit, as deep as the witness's path is long. -/
def Witness.synthesize (P : Poseidon.Params) : Witness → Except SynthesisError System
  | .threshold w => .ok (w.synthesize P)
  | .membership w => w.synthesize P w.siblings.length

end Attest
