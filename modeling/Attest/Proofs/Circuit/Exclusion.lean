import Attest.Proofs.Circuit.Membership
import Attest.Proofs.Merkle.Binding

/-! The membership circuit keeps out what is not on the list.

A satisfied circuit carries an accepted proof for the leaf of its value. The tree's
root binds that leaf to a position: it is a listed value's leaf, or the position is
one that no leaf takes and the leaf is the empty one, or the proof and the tree hash
two different pairs alike. For a value that is not listed each of these is an
accident of the hash. -/
namespace Attest

open Circuit Merkle

namespace MembershipWitness
variable {P : Poseidon.Params} {depth : Nat}

/-- A satisfied circuit carries an accepted proof. -/
theorem verify_of_satisfied {w : MembershipWitness} {s : System}
    (hs : w.synthesize P depth = .ok s) (hsatisfied : s.Satisfied) :
    (w.inclusion P).verify P w.root depth = true := by
  obtain ⟨⟨hsiblings, hbits⟩, rfl⟩ := synthesize_eq_ok_iff.mp hs
  obtain ⟨-, hroot⟩ := (constrained_iff_holds P w).mp hsatisfied
  exact (InclusionProof.verify_iff P).mpr ⟨hsiblings, hbits, hroot⟩

/-- **No witness makes the circuit of an allow list accept a value that is not on it**, whatever
its claim and its path, unless the leaf of the value is that of another value on the list, or is the
empty leaf while the tree has a position left, or the witness's path hashes a pair that collides
with one of the fully padded tree. -/
theorem nonmember_unsatisfied {values : List Scalar} {t : Tree}
    (ht : Tree.build P depth (values.map (attributeLeaf P)) = .ok t) {w : MembershipWitness}
    (hroot : w.root = t.root) (hvalue : w.value ∉ values) :
    (∀ s, w.synthesize P depth = .ok s → ¬s.Satisfied) ∨
      (∃ u ∈ values, u ≠ w.value ∧ attributeLeaf P w.value = attributeLeaf P u) ∨
      (attributeLeaf P w.value = 0 ∧ t.leaves.length < 2 ^ depth) ∨
      ∃ p ∈ (w.inclusion P).pairs P, ∃ q,
        TreePair P ((padded depth t.leaves).getD · emptyLeaf) depth q ∧ Collision P p q := by
  refine or_iff_not_imp_left.mpr fun haccepted => ?_
  push Not at haccepted
  obtain ⟨s, hs, hsatisfied⟩ := haccepted
  have hverify := verify_of_satisfied hs hsatisfied
  have hpadded := Tree.isPadded_of_build P ht
  obtain ⟨⟨-, hdepth⟩, -⟩ := (Tree.build_eq_ok_iff P).mp ht
  obtain rfl := hpadded.depth_eq
  rw [hroot] at hverify
  have hplace : (w.inclusion P).index < 2 ^ t.depth := InclusionProof.index_lt P hdepth hverify
  rcases InclusionProof.leaf_or_collision P ht hverify with hleaf | hcollision
  · by_cases hindex : (w.inclusion P).index < t.leaves.length
    · have hlisted : attributeLeaf P w.value ∈ values.map (attributeLeaf P) := by
        rw [List.getD_eq_getElem _ _ hindex] at hleaf
        exact (hpadded.mem _).mp (List.mem_of_getElem hleaf.symm)
      obtain ⟨u, hu, hsame⟩ := List.mem_map.mp hlisted
      exact .inl ⟨u, hu, fun huv => hvalue (huv ▸ hu), hsame.symm⟩
    · rw [List.getD_eq_default _ _ (Nat.le_of_not_lt hindex)] at hleaf
      exact .inr (.inl ⟨hleaf, by omega⟩)
  · exact .inr (.inr hcollision)

/-- One value is listed, and another borrows its place. -/
theorem nonmember_unsatisfied_borrowed :
    ∃ t, Tree.build Poseidon.standard 1 ([1].map (attributeLeaf Poseidon.standard)) = .ok t ∧
      ∃ w : MembershipWitness, w.root = t.root ∧ w.value ∉ [1] ∧
        ((∀ s, w.synthesize Poseidon.standard 1 = .ok s → ¬s.Satisfied) ∨
          (∃ u ∈ [1], u ≠ w.value ∧
            attributeLeaf Poseidon.standard w.value = attributeLeaf Poseidon.standard u) ∨
          (attributeLeaf Poseidon.standard w.value = 0 ∧ t.leaves.length < 2 ^ 1) ∨
          ∃ p ∈ (w.inclusion Poseidon.standard).pairs Poseidon.standard, ∃ q,
            TreePair Poseidon.standard ((padded 1 t.leaves).getD · emptyLeaf) 1 q ∧
              Collision Poseidon.standard p q) := by
  generalize Poseidon.standard = P
  obtain ⟨t, ht⟩ : ∃ t, Tree.build P 1 ([1].map (attributeLeaf P)) = .ok t :=
    Tree.exists_build P (by decide) (by simp)
  have hother : (2 : Scalar) ∉ [1] := by decide
  exact ⟨t, ht, ⟨2, 0, [0], [false], t.root, P.hash [2, 0]⟩, rfl, hother,
    nonmember_unsatisfied ht rfl hother⟩

end MembershipWitness

end Attest
