import Attest.Proofs.Artifact.Work

/-! Calls that save something.

Each call performs writes of its own (`Call.performs`), and no two kinds of call write one file,
nor do calls for two predicates (`Call.last?_proving`, `Call.last?_verifying`,
`Call.last?_manifest`). -/
namespace Attest.Artifact.Store
variable {PK VK : Type} {S : Scheme PK VK}

/-- Something is saved. -/
inductive Call (PK VK : Type) where
  | save (p : Predicate) (pk : PK) (vk : VK)
  | writeManifest (m : Manifest)

namespace Call

def run (s : Store) (S : Scheme PK VK) : Call PK VK → Disk Unit
  | .save p pk vk => s.save S p pk vk
  | .writeManifest m => s.writeManifest m

/-- The keys that are saved for a predicate. -/
def saved? (p : Predicate) : Call PK VK → Option (PK × VK)
  | .save q pk vk => if p = q then some (pk, vk) else none
  | .writeManifest _ => none

/-- The manifest that is written. -/
def written? : Call PK VK → Option Manifest
  | .save _ _ _ => none
  | .writeManifest m => some m

/-- Keys that are read back from what they are written as, or a manifest whose numbers fit their
types. -/
def Keepable (S : Scheme PK VK) : Call PK VK → Prop
  | .save _ pk vk => S.readProvingKey (S.writeProvingKey pk) = .ok pk ∧
      S.readVerifyingKey (S.writeVerifyingKey vk) = .ok vk
  | .writeManifest m => m.version < UInt32.size ∧ m.merkleDepth < UInt64.size

/-- The files that a call writes. -/
def writes (S : Scheme PK VK) : Call PK VK → Writes
  | .save p pk vk => [(provingFile p, S.writeProvingKey pk),
      (verifyingFile p, S.writeVerifyingKey vk)]
  | .writeManifest m => [(manifestFile, Bytes.ofText (Wire.manifest.write m).pretty.toList)]

theorem performs (s : Store) (S : Scheme PK VK) (c : Call PK VK) :
    s.Performs (c.run s S) (c.writes S) := by
  cases c with
  | save p pk vk => exact .save s S p pk vk
  | writeManifest m => exact .writeManifest s m

theorem last?_proving (S : Scheme PK VK) (p : Predicate) (c : Call PK VK) :
    Writes.last? (provingFile p) (c.writes S) =
      (c.saved? p).map fun keys => S.writeProvingKey keys.1 := by
  cases c with
  | save q pk vk =>
    have hcross := (provingFile_ne p q).1
    by_cases hp : p = q
    · subst hp
      simp [writes, saved?, Writes.last?, hcross]
    · simp [writes, saved?, Writes.last?, hcross, hp, ((provingFile_ne p q).2.2.2 hp).1]
  | writeManifest m => simp [writes, saved?, Writes.last?, (provingFile_ne p p).2.1]

theorem last?_verifying (S : Scheme PK VK) (p : Predicate) (c : Call PK VK) :
    Writes.last? (verifyingFile p) (c.writes S) =
      (c.saved? p).map fun keys => S.writeVerifyingKey keys.2 := by
  cases c with
  | save q pk vk =>
    have hcross := (provingFile_ne q p).1.symm
    by_cases hp : p = q
    · simp [writes, saved?, Writes.last?, hp]
    · simp [writes, saved?, Writes.last?, hcross, hp, ((provingFile_ne p q).2.2.2 hp).2]
  | writeManifest m => simp [writes, saved?, Writes.last?, (provingFile_ne p p).2.2.1]

theorem last?_manifest (S : Scheme PK VK) (c : Call PK VK) :
    Writes.last? manifestFile (c.writes S) =
      c.written?.map fun m => Bytes.ofText (Wire.manifest.write m).pretty.toList := by
  cases c with
  | save q pk vk =>
    obtain ⟨-, hproving, hverifying, -⟩ := provingFile_ne q q
    simp [writes, written?, Writes.last?, hproving.symm, hverifying.symm]
  | writeManifest m => simp [writes, written?, Writes.last?]

theorem Keepable.saved {c : Call PK VK} (h : c.Keepable S) {keys : PK × VK}
    (hsaved : c.saved? p = some keys) : S.readProvingKey (S.writeProvingKey keys.1) = .ok keys.1 ∧
      S.readVerifyingKey (S.writeVerifyingKey keys.2) = .ok keys.2 := by
  cases c with
  | save q pk vk =>
    obtain ⟨-, hkeys⟩ := Option.ite_none_right_eq_some.mp hsaved
    cases hkeys
    exact h
  | writeManifest m => cases hsaved

theorem Keepable.written {c : Call PK VK} (h : c.Keepable S) {m : Manifest}
    (hwritten : c.written? = some m) : m.version < UInt32.size ∧ m.merkleDepth < UInt64.size := by
  cases c with
  | save q pk vk => cases hwritten
  | writeManifest m =>
    cases hwritten
    exact h

end Call

end Attest.Artifact.Store
