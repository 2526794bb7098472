/-! The stages of a proving request.

A request starts with an assembled witness and ends verified, refused by the
verifier, or without a proof. `Stage.leadsTo` is the whole of the order. -/
namespace Attest

inductive Stage where
  | witnessAssembled
  | proving
  | proved
  | verified
  | verificationFailed
  | proofGenerationFailed
deriving DecidableEq

namespace Stage

def all : List Stage :=
  [witnessAssembled, proving, proved, verified, verificationFailed, proofGenerationFailed]

def name : Stage → String
  | witnessAssembled => "WitnessAssembled"
  | proving => "Proving"
  | proved => "Proved"
  | verified => "Verified"
  | verificationFailed => "VerificationFailed"
  | proofGenerationFailed => "ProofGenerationFailed"

def ofName? (s : String) : Option Stage := all.find? fun stage => stage.name == s

/-- A request may go straight from the first stage to the second. -/
def leadsTo : Stage → Stage → Bool
  | witnessAssembled, proving => true
  | proving, proved | proving, proofGenerationFailed => true
  | proved, verified | proved, verificationFailed => true
  | _, _ => false

/-- No stage follows. -/
def isTerminal : Stage → Bool
  | verified | verificationFailed | proofGenerationFailed => true
  | _ => false

end Stage

end Attest
