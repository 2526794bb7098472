import Attest.Artifact.Store

/-! Filling a store with keys for every predicate.

Keys once written are not replaced unless that is asked for: without `force`,
anything that stands where a key file would stops the work before a file is
written. The manifest comes last. -/
namespace Attest.Artifact.Store
variable {PK VK : Type} (s : Store) (S : Scheme PK VK) (P : Poseidon.Params)

/-- Makes and saves the keys of one predicate. -/
def setupPredicate (entropy : Entropy) (depth : Nat) (p : Predicate) : Disk Unit := do
  let pk ← ofExcept (S.setupPredicate P p depth entropy)
  s.save S p pk (S.verifyingKey pk)

/-- The first predicate that has anything in the way of its keys. -/
def occupied? (fs : Files) : Option Predicate := Predicate.all.find? (s.hasAny fs)

def setup (entropy : Predicate → Entropy) (depth : Nat) (force : Bool) : Disk Manifest := do
  if !force then
    if let some p := s.occupied? (← get) then
      throw (.invalidInput
        s!"{p.name} artifacts already exist in {s.shown}; pass --force to replace them")
  Predicate.all.forM fun p => s.setupPredicate S P (entropy p) depth p
  let manifest := Manifest.current depth Predicate.all
  s.writeManifest manifest
  return manifest

end Attest.Artifact.Store
