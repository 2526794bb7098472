import Attest.Curve.Pairing
import Attest.Groth16.Keys

/-! Verifying a proof against public scalars.

`VerifyingKey.verify` first counts the scalars, then decodes the proof, and then
answers the truth of the pairing equation. A false proof is an answer, not a
failure. -/
namespace Attest.Groth16
open Bn254

namespace VerifyingKey

/-- The public part of the key combined with the scalars. -/
def combine (k : VerifyingKey) (signals : List Scalar) : G1 :=
  ((signals.zip k.inputs.tail).foldl (fun (acc : Jacobian Base) s => acc.add (s.2.mul s.1.val))
    (.ofPoint (k.inputs.headD .infinity))).toPoint

/-- The equation that a true proof satisfies. -/
def accepts (k : VerifyingKey) (signals : List Scalar) (p : Proof) : Bool :=
  pairingProductIsOne
    [(p.a, p.b), (k.alpha.neg, k.beta), ((k.combine signals).neg, k.gamma), (p.c.neg, k.delta)]

def verify (k : VerifyingKey) (proof : Bytes) (signals : List Scalar) : Except Failure Bool := do
  if signals.length ≠ k.publicCount then
    throw (.malformedProof s!"expected {k.publicCount} public signals, got {signals.length}")
  let p ← Proof.ofBytes proof
  if k.inputs.length ≠ signals.length + 1 then throw (.malformedProof "malformed verifying key")
  return k.accepts signals p

end VerifyingKey

/-- Verifies against the bytes of a key. -/
def verifyBytes (key proof : Bytes) (signals : List Scalar) : Except Failure Bool := do
  (← VerifyingKey.ofBytes key).verify proof signals

end Attest.Groth16
