import Attest.Artifact.Manifest
import Attest.Calldata
import Attest.Merkle.Inclusion
import Attest.Proving.Attestation
import Attest.Wire.Scalar

/-! Inclusion proofs, attestations, call arguments and manifests as JSON. -/
namespace Attest.Wire
open Json

/-- The predicate of a name, or a message that lists the names. -/
def namedPredicate (s : String) : Except Fault Predicate :=
  match Predicate.ofName? s with
  | some p => .ok p
  | none =>
    let choices := " or ".intercalate (Predicate.all.map fun p => s!"`{p.name}`")
    .error (.mismatch s!"unknown variant `{s}`, expected {choices}")

/-- A predicate is a bare name, or an object with its name as the only key and nothing under it. -/
def predicate : Codec Predicate where
  read
    | .text s => namedPredicate s
    | .object ((.text name, value) :: rest) => do
      let p ← namedPredicate name
      match value with
      | .null => if rest.isEmpty then return p else throw .malformed
      | value => Codec.wrongType "unit" value
    | _ => .error .malformed
  write p := .text p.name

/-- The bound of 64-bit sizes. -/
def sizeBound : Nat := UInt64.size

def size : Codec Nat := Codec.natural sizeBound "usize"

def inclusionProof : Codec Merkle.InclusionProof :=
  Codec.record "InclusionProof"
    (.cons "leaf" scalar none <| .cons "siblings" (.list scalar) none <|
      .cons "pathBits" (.list .bool) none .nil)
    (fun (leaf, siblings, pathBits, _) => { leaf, siblings, pathBits })
    (fun p => (p.leaf, p.siblings, p.pathBits, ()))

def attestation : Codec Attestation :=
  Codec.record "ProofArtifact"
    (.cons "proof" (.list .byte) none <| .cons "publicSignals" (.list scalar) none .nil)
    (fun (proof, publicSignals, _) => { proof, publicSignals })
    (fun a => (a.proof, a.publicSignals, ()))

def calldata : Codec CalldataText :=
  Codec.record "CallDataJson"
    (.cons "a" (.list .text) none <| .cons "b" (.list (.list .text)) none <|
      .cons "c" (.list .text) none <| .cons "inputs" (.list .text) none .nil)
    (fun (a, b, c, inputs, _) => { a, b, c, inputs })
    (fun d => (d.a, d.b, d.c, d.inputs, ()))

def manifest : Codec Artifact.Manifest :=
  Codec.record "ArtifactManifest"
    (.cons "version" (.natural UInt32.size "u32") none <| .cons "curve" .text none <|
      .cons "proofSystem" .text none <| .cons "merkleDepth" size none <|
      .cons "circuits" (.list predicate) none .nil)
    (fun (version, curve, proofSystem, merkleDepth, circuits, _) =>
      { version, curve, proofSystem, merkleDepth, circuits })
    (fun m => (m.version, m.curve, m.proofSystem, m.merkleDepth, m.circuits, ()))

end Attest.Wire
