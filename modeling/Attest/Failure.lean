/-! Why an operation of the library fails.

A kind says who is at fault and is what callers branch on; the reason is the
text shown with it. A proof that is false is not a failure: verifying it
answers `false`. -/
namespace Attest

inductive Failure where
  | invalidInput (reason : String)
  | capacityExceeded (leaves depth : Nat)
  | notFound
  | proofGeneration (reason : String)
  | circuitNotFound (reason : String)
  | hashSetup (reason : String)
  | malformedProof (reason : String)
  | serialization (reason : String)
  | io (reason : String)
  /-- The work breaks off for want of memory, and nobody is told a reason. -/
  | exhausted
deriving DecidableEq, Inhabited

def Failure.message : Failure → String
  | .invalidInput reason => s!"invalid input: {reason}"
  | .capacityExceeded leaves depth =>
    s!"merkle capacity exceeded: {leaves} leaves do not fit a depth-{depth} tree"
  | .notFound => "leaf not found in accumulator"
  | .proofGeneration reason => s!"proof generation failed: {reason}"
  | .circuitNotFound reason => s!"circuit not found: {reason}"
  | .hashSetup reason => s!"hash backend initialization failed: {reason}"
  | .malformedProof reason => s!"malformed proof material: {reason}"
  | .serialization reason => s!"serialization error: {reason}"
  | .io reason => s!"io error: {reason}"
  | .exhausted => "memory exhausted"

end Attest
