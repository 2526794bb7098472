import Attest.Proofs.Artifact.Setup
import Attest.Proofs.Proving.Scheme
import Attest.Service.Settings

/-! Schemes that read their keys back, and one of them to try theorems with.

With `sealing` a proof is three points at infinity with the key behind them, and nothing else
verifies. Its keys are bytes, and it proves every true statement (`sealing_generate`). -/
namespace Attest.Service

/-- The two keys of a pair are read back from what they are written as. -/
structure RestoresKeys {PK VK : Type} (S : Scheme PK VK) (key : PK) : Prop where
  proving : S.readProvingKey (S.writeProvingKey key) = .ok key
  verifying : S.readVerifyingKey (S.writeVerifyingKey (S.verifyingKey key)) =
    .ok (S.verifyingKey key)

def sealed (key : Bytes) : Bytes :=
  (⟨.infinity, .infinity, .infinity⟩ : Groth16.Proof).toBytes ++ key

def sealing : Scheme Bytes Bytes where
  setup _ _ := [7]
  verifyingKey key := key
  writeProvingKey key := key
  readProvingKey := .ok
  writeVerifyingKey key := key
  readVerifyingKey := .ok
  prove key _ _ := some (sealed key)
  verify key proof _ := .ok (proof == sealed key)

theorem sealing_setupPredicate (P : Poseidon.Params) (p : Predicate) :
    sealing.setupPredicate P p Settings.defaultDepth (fun _ => 0) = .ok [7] := by
  obtain ⟨s, hs, -⟩ := (Witness.blank_shaped Settings.defaultDepth p).synthesizes P
  refine Scheme.setupPredicate_eq_ok_iff.mpr ⟨?_, s, hs, rfl⟩
  cases p <;> decide

/-- A true statement is proved. -/
theorem sealing_generate {P : Poseidon.Params} {p : Predicate} {depth : Nat}
    {secret revealed : Inputs} {w : Witness}
    (hinputs : Witness.assemble p depth secret revealed = .ok w) (hholds : w.Holds P)
    (entropy : Entropy) : (sealing.pipeline P p depth [7] entropy).generate secret revealed =
      some (.ok ⟨sealed [7], w.publicSignals⟩) := by
  have hshaped := (Witness.assemble_eq_ok_iff.mp hinputs).2.2.1
  obtain ⟨t, ht, -, hsatisfied⟩ := hshaped.synthesizes P
  refine Scheme.generate_of_verified hinputs ?_ (congrArg Except.ok (beq_self_eq_true _))
  simp [Scheme.prover, Scheme.prepare, hshaped.predicate_eq, ht, hsatisfied.mpr hholds, sealing]

/-- What a set-up does with the sealing scheme, whose keys are all the same. -/
def fillSealed (s : Artifact.Store) : Artifact.Disk Artifact.Manifest := do
  Predicate.all.forM fun p => s.save sealing p [7] [7]
  s.writeManifest (.current Settings.defaultDepth Predicate.all)
  return .current Settings.defaultDepth Predicate.all

theorem sealing_fill (s : Artifact.Store) (P : Poseidon.Params) :
    s.fill sealing P (fun _ _ => 0) Settings.defaultDepth = fillSealed s := by
  have hkeys (p : Predicate) : s.setupPredicate sealing P (fun _ => 0)
      Settings.defaultDepth p = s.save sealing p [7] [7] := by
    rw [Artifact.Store.setupPredicate, sealing_setupPredicate]
    rfl
  simp only [Artifact.Store.fill, Artifact.Store.fillKeys, hkeys, fillSealed]

/-- Keys are made on an empty disk, in the directory that the service was started in. -/
theorem sealing_setup (P : Poseidon.Params) (shown : String) : ∃ fs,
    ((⟨⟨[.stay]⟩, shown⟩ : Artifact.Store).setup sealing P (fun _ _ => 0) Settings.defaultDepth
      true).run.run .empty = (.ok (.current Settings.defaultDepth Predicate.all), fs) := by
  have hhere (fs : Files) : fs.makeDirectories ⟨[.stay]⟩ = (.ok (), fs) :=
    Files.makeDirectories_of_isDirectory rfl
  have hmake : (⟨⟨[.stay]⟩, shown⟩ : Artifact.Store).makeDirectory =
      (pure () : Artifact.Disk Unit) := by
    funext fs
    have hrun : (⟨⟨[.stay]⟩, shown⟩ : Artifact.Store).makeDirectory fs =
        ((fs.makeDirectories ⟨[.stay]⟩).1.mapError FileError.toFailure,
          (fs.makeDirectories ⟨[.stay]⟩).2) := rfl
    rw [hrun, hhere]
    rfl
  unfold Artifact.Store.setup
  simp only [Artifact.Store.setupPredicate, Predicate.all, sealing_setupPredicate,
    Artifact.Store.save, Artifact.Store.writeManifest, hmake]
  exact ⟨_, rfl⟩

end Attest.Service
