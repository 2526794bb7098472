import Attest.Text.Base64
import Attest.Wire.Material

/-! The bodies that the service takes and gives.

Byte strings travel in base 64, scalars in canonical hexadecimal. -/
namespace Attest.Service
open Json

structure CommitmentRequest where
  value : Scalar
  documentHash : String

structure RootRequest where
  values : List Scalar
  depth : Option Nat

structure InclusionRequest where
  values : List Scalar
  target : Scalar
  depth : Option Nat

structure GenerateRequest where
  secret : Inputs
  revealed : Inputs

structure VerifyRequest where
  /-- Base64 of the proof's bytes. -/
  proof : String
  publicSignals : List Scalar

structure RootReply where
  root : Scalar
  depth : Nat
  leafCount : Nat
deriving DecidableEq

structure InclusionReply where
  root : Scalar
  proof : Merkle.InclusionProof
deriving DecidableEq

/-- What is put on an answer as it is sent. -/
structure Stamp where
  requestId : String
  /-- How long the answer took. -/
  elapsedMs : Nat
  /-- How much of that went by from the wait for a permit to the end of proving. -/
  provingMs : Nat
  /-- The time of sending, as shown. -/
  time : String

/-- A proof that is ready to be sent. -/
structure GenerateReply where
  predicate : Predicate
  attestation : Attestation
  calldata : Calldata
deriving DecidableEq

structure KeyReply where
  predicate : Predicate
  /-- The verifying key's bytes as they were stored. -/
  key : Bytes
deriving DecidableEq

namespace Wire
open Attest.Wire

def depth : Codec (Option Nat) := .optional size

/-- The nesting left to an input inside a map inside a request. -/
def inputRoom : Nat := maxNesting - 2

def commitmentRequest : Codec CommitmentRequest :=
  Codec.record "CommitmentRequest"
    (.cons "value" scalar none <| .cons "documentHash" .text none .nil)
    (fun (value, documentHash, _) => { value, documentHash })
    (fun r => (r.value, r.documentHash, ()))

def rootRequest : Codec RootRequest :=
  Codec.record "AllowListRootRequest"
    (.cons "values" (.list scalar) none <| .cons "depth" depth (some none) .nil)
    (fun (values, depth, _) => { values, depth })
    (fun r => (r.values, r.depth, ()))

def inclusionRequest : Codec InclusionRequest :=
  Codec.record "AllowListProofRequest"
    (.cons "values" (.list scalar) none <| .cons "target" scalar none <|
      .cons "depth" depth (some none) .nil)
    (fun (values, target, depth, _) => { values, target, depth })
    (fun r => (r.values, r.target, r.depth, ()))

def generateRequest : Codec GenerateRequest :=
  Codec.record "GenerateProofRequest"
    (.cons "privateInputs" (inputs inputRoom) none <|
      .cons "publicInputs" (inputs inputRoom) none .nil)
    (fun (secret, revealed, _) => { secret, revealed })
    (fun r => (r.secret, r.revealed, ()))

def verifyRequest : Codec VerifyRequest :=
  Codec.record "VerifyProofRequest"
    (.cons "proof" .text none <| .cons "publicSignals" (.list canonicalScalar) none .nil)
    (fun (proof, publicSignals, _) => { proof, publicSignals })
    (fun r => (r.proof, r.publicSignals, ()))

def base64 (bytes : Bytes) : Json := .text (String.ofList (Text.Base64.encode bytes))

def scalars (xs : List Scalar) : Json := (Codec.list scalar).write xs

def commitmentReply (commitment : Scalar) : Json :=
  .object [("commitment", scalar.write commitment)]

def rootReply (r : RootReply) : Json :=
  .object [("root", scalar.write r.root), ("depth", .natural r.depth),
    ("leafCount", .natural r.leafCount)]

def inclusionReply (r : InclusionReply) : Json :=
  .object [("root", scalar.write r.root), ("leaf", scalar.write r.proof.leaf),
    ("siblings", scalars r.proof.siblings), ("pathBits", (Codec.list .bool).write r.proof.pathBits)]

def generateReply (stamp : Stamp) (r : GenerateReply) : Json :=
  .object [("requestId", .text stamp.requestId), ("circuit", predicate.write r.predicate),
    ("proof", base64 r.attestation.proof), ("publicSignals", scalars r.attestation.publicSignals),
    ("calldata", calldata.write r.calldata.toText),
    ("solidityCalldata", .text r.calldata.toArguments),
    ("generationTimeMs", .natural stamp.elapsedMs), ("generatedAt", .text stamp.time)]

def verifyReply (ok : Bool) : Json := .object [("ok", .bool ok)]

def keyReply (r : KeyReply) : Json :=
  .object [("circuit", predicate.write r.predicate), ("curve", .text Artifact.curve),
    ("proofSystem", .text Artifact.proofSystem), ("version", .natural Predicate.version),
    ("numPublicInputs", .natural r.predicate.publicCount), ("vkB64", base64 r.key)]

end Wire

end Attest.Service
