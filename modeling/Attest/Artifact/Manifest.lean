import Attest.Predicate

/-! The manifest of a directory of keys: what the keys beside it were made for. -/
namespace Attest.Artifact

def curve : String := "bn254"

def proofSystem : String := "groth16"

structure Manifest where
  version : Nat
  curve : String
  proofSystem : String
  merkleDepth : Nat
  circuits : List Predicate
deriving DecidableEq

/-- The manifest of keys made by this version of the library. -/
def Manifest.current (merkleDepth : Nat) (circuits : List Predicate) : Manifest where
  version := Predicate.version
  curve := Artifact.curve
  proofSystem := Artifact.proofSystem
  merkleDepth
  circuits

namespace Manifest

/-- The manifest admits the keys of a predicate under a configured depth, or why it does not. -/
def check (m : Manifest) (p : Predicate) (depth : Nat) : Except Failure Unit := do
  if m.version ≠ Predicate.version then
    throw (.circuitNotFound s!"artifacts are version {m.version}, expected {Predicate.version}")
  if p ∉ m.circuits then throw (.circuitNotFound s!"{p.name} is not in the manifest")
  if p = .membership ∧ m.merkleDepth ≠ depth then
    throw (.circuitNotFound
      s!"{p.name} artifacts are for depth {m.merkleDepth}, configured depth is {depth}")

end Manifest

end Attest.Artifact
