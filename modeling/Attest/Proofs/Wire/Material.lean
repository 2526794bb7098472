import Attest.Proofs.Artifact.Manifest
import Attest.Proofs.Wire.Inputs
import Attest.Wire.Material

/-! Material that is read back from what it is written as.

Paths, bytes, words and names of any length are restored, and manifests whose numbers fit their
types; with the scalars and the named inputs these are all values that leave the program as JSON
text and come back (`Wire.material_roundTrips`). -/
namespace Attest.Wire
open Json

/-- Lists of different lengths are restored too. -/
theorem inclusionProof_restores (p : Merkle.InclusionProof) : inclusionProof.Restores p :=
  .record _ (by decide) rfl ⟨scalar_restores p.leaf, .list fun x _ => scalar_restores x,
    .list fun b _ => .bool b, trivial⟩

theorem attestation_restores (a : Attestation) : attestation.Restores a :=
  .record _ (by decide) rfl ⟨.list fun b _ => .byte b, .list fun x _ => scalar_restores x, trivial⟩

theorem texts_restores (ss : List String) : Codec.text.list.Restores ss := .list fun s _ => .text s

theorem calldata_restores (d : CalldataText) : calldata.Restores d :=
  .record _ (by decide) rfl ⟨texts_restores d.a, .list fun ss _ => texts_restores ss,
    texts_restores d.c, texts_restores d.inputs, trivial⟩

/-- **Whatever is written as JSON text is read back from it, and as the same value**: scalars,
inputs and maps of inputs under any names, inclusion proofs of any lists, attestations of any bytes,
calls, predicates, and manifests of any texts and predicates whose numbers fit their types. -/
theorem material_roundTrips :
    (∀ x, scalar.RoundTrips x) ∧
      (∀ room, 0 < room →
        (∀ x, (input room).RoundTrips x) ∧ ∀ m, (inputs room).RoundTrips m) ∧
      (∀ p, inclusionProof.RoundTrips p) ∧
      (∀ a, attestation.RoundTrips a) ∧
      (∀ d, calldata.RoundTrips d) ∧
      (∀ p, predicate.RoundTrips p) ∧
      ∀ m : Artifact.Manifest, m.version < UInt32.size → m.merkleDepth < UInt64.size →
        manifest.RoundTrips m :=
  ⟨fun x => (scalar_restores x).roundTrips,
    fun _ hroom => ⟨fun x => (input_restores hroom x).roundTrips,
      fun m => (inputs_restores hroom m).roundTrips⟩,
    fun p => (inclusionProof_restores p).roundTrips,
    fun a => (attestation_restores a).roundTrips,
    fun d => (calldata_restores d).roundTrips,
    fun p => (predicate_restores p).roundTrips,
    fun _ hversion hdepth => (manifest_restores hversion hdepth).roundTrips⟩

/-- An empty list, which stays one, and a manifest of the greatest numbers and of texts that need
escapes. -/
theorem material_roundTrips_extremes :
    let m : Artifact.Manifest := ⟨UInt32.size - 1, "\"\\\n\x01", "ε ∈ 𝔽", UInt64.size - 1,
      [.membership, .threshold, .membership]⟩
    0 < 1 ∧ (input 1).RoundTrips (.array []) ∧
      m.version < UInt32.size ∧ m.merkleDepth < UInt64.size ∧ manifest.RoundTrips m := by
  intro m
  have hversion : m.version < UInt32.size := by decide
  have hdepth : m.merkleDepth < UInt64.size := by decide
  obtain ⟨-, hinputs, -, -, -, -, hmanifests⟩ := material_roundTrips
  exact ⟨Nat.one_pos, (hinputs 1 Nat.one_pos).1 (.array []), hversion, hdepth,
    hmanifests m hversion hdepth⟩

end Attest.Wire
