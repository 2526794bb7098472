import Attest.Circuit.Statement
import Attest.Proving.Pipeline

/-! Proof systems, as far as the rest of the library knows them.

A scheme makes keys for a constraint system, keeps them as bytes, proves and
verifies. With a key for one predicate it becomes the prover of a pipeline:
`Scheme.prover` refuses another predicate's witness and one that does not
satisfy its circuit before it proves anything. -/
namespace Attest

/-- An unbounded supply of secret scalars. -/
abbrev Entropy := Nat → Scalar

structure Scheme (PK VK : Type) where
  /-- Keys for every system with the same constraints. -/
  setup : Entropy → Circuit.System → PK
  verifyingKey : PK → VK
  writeProvingKey : PK → Bytes
  readProvingKey : Bytes → Except Failure PK
  writeVerifyingKey : VK → Bytes
  readVerifyingKey : Bytes → Except Failure VK
  /-- Nothing when the key is unfit for any system, and proving breaks off. -/
  prove : PK → Entropy → Circuit.System → Option Bytes
  verify : VK → Bytes → List Scalar → Except Failure Bool

namespace Scheme
variable {PK VK : Type} (S : Scheme PK VK) (P : Poseidon.Params)

/-- The system that a witness satisfies, or why it does not prove the predicate. -/
def prepare (p : Predicate) (w : Witness) : Except Failure Circuit.System :=
  if w.predicate ≠ p then
    .error (.proofGeneration s!"witness for {w.predicate.name} given to {p.name} prover")
  else
    match w.synthesize P with
    | .error e => .error (.proofGeneration e.message)
    | .ok s =>
      if s.Satisfied then .ok s
      else .error (.proofGeneration "witness does not satisfy the circuit")

/-- Proving breaks off as the scheme does, once a witness is found fit. -/
def prover (p : Predicate) (key : PK) (entropy : Entropy) : Prover Option where
  predicate := p
  prove w :=
    match prepare P p w with
    | .error f => some (.error f)
    | .ok s => (S.prove key entropy s).map fun proof => .ok ⟨proof, w.publicSignals⟩

def verifier (key : VK) : Verifier Option where
  verify proof signals := some (S.verify key proof signals)

/-- The pipeline that proves and verifies with one key. -/
def pipeline (p : Predicate) (depth : Nat) (key : PK) (entropy : Entropy) : Pipeline Option where
  predicate := p
  depth
  prover := S.prover P p key entropy
  verifier := S.verifier (S.verifyingKey key)

/-- Keys for a predicate, made from the witness of zeros. -/
def setupPredicate (p : Predicate) (depth : Nat) (entropy : Entropy) : Except Failure PK :=
  match Witness.blank? depth p with
  | none => .error .exhausted
  | some w =>
    match w.synthesize P with
    | .error e => .error (.proofGeneration s!"setup failed: {e.message}")
    | .ok s => .ok (S.setup entropy s)

end Scheme

end Attest
