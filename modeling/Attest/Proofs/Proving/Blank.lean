import Attest.Proofs.Proving.Scheme

/-! What a key is made from.

A key is made once, from the witness of zeros, and proves statements about every witness that
inputs make. It fits them all: whatever the inputs are, the circuit takes the public scalars that
the schema declares, in its order, and lays out its variables and constraints as for the zeros
(`Witness.assembled_fits`). -/
namespace Attest

open Circuit

/-- The public inputs in the order of the schema. -/
def Predicate.declaredPublic (p : Predicate) (depth : Nat) : List InputSpec :=
  (schema depth p).filter fun input => input.visibility = .revealed

/-- The schema declares the public inputs in the order in which the circuit takes them, and each of
them is one scalar. -/
theorem Predicate.declaredPublic_eq (p : Predicate) (depth : Nat) :
    p.declaredPublic depth = p.publicNames.map fun name => ⟨name, .revealed, .scalar⟩ := by
  cases p <;> rfl

namespace Witness
variable {P : Poseidon.Params} {p : Predicate} {depth : Nat} {secret revealed : Inputs}
  {w : Witness}

theorem length_publicSignals (w : Witness) : w.publicSignals.length = w.predicate.publicCount := by
  cases w <;> rfl

/-- **A witness that inputs make fits the key of its predicate and depth.** Its circuit always makes
a system. The system's public scalars are as many as the predicate has, and they are the witness's
signals in order, which are the public inputs in the order in which the schema declares them. The
witness of zeros is for the same predicate, its two paths are as long, and its system has as many
public and private scalars and the same constraints over them, one by one. That system is what a key
of the predicate and the depth is made from, if there is room for a path so long. -/
theorem assembled_fits (h : assemble p depth secret revealed = .ok w) :
    ∃ s zeros, w.synthesize P = .ok s ∧ (blank depth p).synthesize P = .ok zeros ∧
      (s.inputs.size = p.publicCount ∧ s.inputs.toList = w.publicSignals ∧
        (p.declaredPublic depth).map (fun input => revealed.get? input.name) =
          w.publicSignals.map fun x => some (.scalar x)) ∧
      (w.Shaped depth p ∧ (blank depth p).Shaped depth p ∧ s.Alike zeros) ∧
      ∀ {PK VK : Type} (S : Scheme PK VK) (entropy : Entropy) (key : PK),
        S.setupPredicate P p depth entropy = .ok key ↔
          Memory.holds (pathLength depth p) Scalar.footprint ∧ S.setup entropy zeros = key := by
  obtain ⟨-, -, hshaped, htaken⟩ := assemble_eq_ok_iff.mp h
  have hblank := blank_shaped depth p
  obtain ⟨s, hs, hpublic, -⟩ := hshaped.synthesizes P
  obtain ⟨zeros, hzeros, -⟩ := hblank.synthesizes P
  have hcount : s.inputs.size = p.publicCount := by
    rw [← Array.length_toList, hpublic, length_publicSignals, hshaped.predicate_eq]
  have hdeclared := htaken.publicSignals_eq
  rw [hshaped.predicate_eq] at hdeclared
  refine ⟨s, zeros, hs, hzeros, ⟨hcount, hpublic, ?_⟩,
    ⟨hshaped, hblank, hshaped.alike hblank hs hzeros⟩, fun S entropy key => ?_⟩
  · rw [Predicate.declaredPublic_eq, List.map_map]
    exact hdeclared
  · rw [Scheme.setupPredicate_eq_ok_iff]
    refine and_congr_right' ⟨?_, fun hkey => ⟨zeros, hzeros, hkey⟩⟩
    rintro ⟨t, ht, hkey⟩
    obtain rfl := Except.ok.inj (hzeros.symm.trans ht)
    exact hkey

/-- A path of two steps, the first of them to the right. -/
theorem assembled_fits_path :
    let secret := Inputs.ofList [("value", .scalar 840), ("document_hash", .scalar 1),
      ("siblings", .array [7, 8]), ("path_bits", .array [1, 0])]
    let revealed := Inputs.ofList [("root", .scalar 5), ("commitment", .scalar 6)]
    let w : Witness := .membership ⟨840, 1, [7, 8], [true, false], 5, 6⟩
    assemble .membership 2 secret revealed = .ok w ∧
      ∃ s zeros, w.synthesize Poseidon.standard = .ok s ∧
        (blank 2 .membership).synthesize Poseidon.standard = .ok zeros ∧
        s.inputs.toList = [5, 6] ∧ s.Alike zeros := by
  intro secret revealed w
  have hinputs : assemble .membership 2 secret revealed = .ok w := by cbv
  obtain ⟨s, zeros, hs, hzeros, ⟨-, hpublic, -⟩, ⟨-, -, halike⟩, -⟩ :=
    assembled_fits (P := Poseidon.standard) hinputs
  exact ⟨hinputs, s, zeros, hs, hzeros, hpublic, halike⟩

end Witness

end Attest
