import Attest.Proving.Attestation
import Attest.Proving.Stage
import Attest.Witness

/-! Proving a statement and checking the proof before it is handed out.

A pipeline holds a prover and a verifier of any kind, with effects of their own
in `m`. `Pipeline.generate` answers an attestation only when the inputs make a
witness, the prover proves it and the verifier says `true` of what the prover
gave; every other outcome is a failure. The stages of each request are kept in
the order they were passed. -/
namespace Attest

structure Prover (m : Type → Type) where
  /-- The predicate it has keys for. -/
  predicate : Predicate
  prove : Witness → m (Except Failure Attestation)

structure Verifier (m : Type → Type) where
  /-- `false` of a well-formed proof that does not hold; a failure of a malformed one. -/
  verify : Bytes → List Scalar → m (Except Failure Bool)

structure Pipeline (m : Type → Type) where
  predicate : Predicate
  depth : Nat
  prover : Prover m
  verifier : Verifier m

/-- A request under way: the stages it has passed, the last one first. -/
abbrev Progress (m : Type → Type) := ExceptT Failure (StateT (List Stage) m)

namespace Progress
variable {m : Type → Type} [Monad m]

/-- Goes on to the next stage, if the order allows it. -/
def advance (next : Stage) : Progress m Unit := do
  match ← get with
  | [] => set [next]
  | stage :: passed =>
    if stage.leadsTo next then set (next :: stage :: passed)
    else throw (.proofGeneration
      s!"illegal proof state transition {stage.name} -> {next.name}")

end Progress

/-- Any failure to prove is reported as one of proof generation. -/
def Failure.ofProver : Failure → Failure
  | .proofGeneration reason => .proofGeneration reason
  | other => .proofGeneration other.message

namespace Pipeline
variable {m : Type → Type} [Monad m] (p : Pipeline m)

def prove (w : Witness) : Progress m Attestation := do
  Progress.advance .proving
  match ← p.prover.prove w with
  | .ok a =>
    Progress.advance .proved
    return a
  | .error f =>
    Progress.advance .proofGenerationFailed
    throw f.ofProver

/-- Only an outright `true` counts. -/
def confirm (a : Attestation) : Progress m Unit := do
  match ← p.verifier.verify a.proof a.publicSignals with
  | .ok true => Progress.advance .verified
  | _ =>
    Progress.advance .verificationFailed
    throw (.proofGeneration "generated proof did not verify")

def request (secret revealed : Inputs) : Progress m Attestation := do
  if p.prover.predicate ≠ p.predicate then
    throw (.circuitNotFound
      s!"pipeline for {p.predicate.name} holds a {p.prover.predicate.name} prover")
  match Witness.assemble p.predicate p.depth secret revealed with
  | .error e => throw e.toFailure
  | .ok w =>
    Progress.advance .witnessAssembled
    let a ← p.prove w
    p.confirm a
    return a

/-- The request's outcome and the stages it passed, the last one first. -/
def run (secret revealed : Inputs) : m (Except Failure Attestation × List Stage) :=
  (p.request secret revealed).run.run []

def generate (secret revealed : Inputs) : m (Except Failure Attestation) :=
  Prod.fst <$> p.run secret revealed

end Pipeline

end Attest
