import Attest.Claim
import Attest.Merkle.Inclusion
import Attest.Poseidon.Derived
import Attest.Proofs.Circuit.Threshold

/-! The membership circuit is the check of an inclusion proof.

A level of the circuit selects the two sides of a parent by an allocated bit and
hashes them in the circuit; a level of the check takes the two sides by a truth
value. `climb_adds` has both give the same parent, so the circuit's fold along the
path and `InclusionProof.computeRoot` agree on paths of any length. -/
namespace Attest

open Circuit Merkle

namespace Circuit.Builder
variable (P : Poseidon.Params) {s : System}

/-- A level of the circuit is a level of the check. -/
theorem climb_adds {node : Wire} {x : Scalar} (hnode : node.Worth x s) (step : Scalar × Bool) :
    Adds s (climb P node step) True (·.Worth (parent P x step.1 step.2)) := by
  refine (witness_adds step.1).andThen fun sibling t ht hsibling => ?_
  refine (bit_adds step.2).andThen fun isRight u hu hbit => ?_
  have hnode := hnode.extend (ht.trans hu)
  have hsibling := hsibling.extend hu
  refine (select_adds hbit hsibling hnode).andThen fun left v hv hleft => ?_
  refine (select_adds (hbit.extend hv) (hnode.extend hv) (hsibling.extend hv)).andThen
    fun right y hy hright => ?_
  have hparent : parent P x step.1 step.2 =
      P.hash [if step.2 then step.1 else x, if step.2 then x else step.1] := by
    cases step.2 <;> rfl
  rw [hparent]
  exact hash_adds P (.cons (hleft.extend hy) (.cons hright .nil))

end Circuit.Builder

namespace MembershipWitness
open Circuit.Builder

/-- The proof of inclusion that a witness carries, for the leaf of its value. -/
def inclusion (P : Poseidon.Params) (w : MembershipWitness) : InclusionProof :=
  ⟨attributeLeaf P w.value, w.siblings, w.pathBits⟩

theorem constrain_adds (P : Poseidon.Params) (w : MembershipWitness) (s : System) :
    Adds s (w.constrain P)
      (P.hash [w.value, w.documentHash] = w.commitment ∧ (w.inclusion P).computeRoot P = w.root)
      (fun _ _ => True) := by
  refine (input_adds w.root).andThen fun root t _ hroot => ?_
  refine (input_adds w.commitment).andThen fun commitment u hu hcommitment => ?_
  refine (openClaim_adds P w.value w.documentHash hcommitment).bind fun value v hv hvalue => ?_
  refine (hash_adds P (.cons hvalue .nil)).andThen fun leaf x hx hleaf => ?_
  have hfold := Adds.foldlM (s := x) (R := fun x n t => Wire.Worth n x t)
    (w.siblings.zip w.pathBits) (fun _ _ step _ _ _ hn => climb_adds P hn step) (.refl x) hleaf
  refine hfold.andThen fun top y hy htop => ?_
  exact enforceEqual_adds htop (hroot.extend (hu.trans (hv.trans (hx.trans hy))))

/-- The statement of a witness: its claim hashes to its commitment, and its path leads from the leaf
of its value to its root. -/
def Holds (P : Poseidon.Params) (w : MembershipWitness) : Prop :=
  w.commitment = P.hash [w.value, w.documentHash] ∧ (w.inclusion P).computeRoot P = w.root

theorem constrained_iff_holds (P : Poseidon.Params) (w : MembershipWitness) :
    ((w.constrain P).run .empty).2.Satisfied ↔ w.Holds P :=
  (constrain_adds P w .empty).satisfied_iff.trans (and_congr_left' eq_comm)

theorem synthesize_eq_ok_iff {P : Poseidon.Params} {depth : Nat} {w : MembershipWitness}
    {s : System} : w.synthesize P depth = .ok s ↔
      (w.siblings.length = depth ∧ w.pathBits.length = depth) ∧
        ((w.constrain P).run .empty).2 = s := by
  unfold synthesize
  split
  · next hlength => rw [and_iff_right hlength, Except.ok.injEq]
  · next hlength => exact iff_of_false (fun h => nomatch h) fun h => hlength h.1

/-- **The membership circuit accepts what the check accepts**: it is made exactly when the path has
the circuit's depth, and is then satisfied exactly when the claim hashes to the commitment and the
path leads from the leaf of its value to the root. -/
theorem synthesize_verify (P : Poseidon.Params) (depth : Nat) (w : MembershipWitness) :
    (w.synthesize P depth = .error .pathLength ↔
        w.siblings.length ≠ depth ∨ w.pathBits.length ≠ depth) ∧
      ∀ s, w.synthesize P depth = .ok s → (s.Satisfied ↔
        w.commitment = P.hash [w.value, w.documentHash] ∧
          (w.inclusion P).verify P w.root depth = true) := by
  unfold synthesize
  by_cases hlength : w.siblings.length = depth ∧ w.pathBits.length = depth
  · rw [if_pos hlength]
    refine ⟨iff_of_false (fun h => nomatch h) (by simp [hlength]), fun s hs => ?_⟩
    obtain rfl := Except.ok.inj hs
    refine (constrain_adds P w .empty).satisfied_iff.trans (and_congr eq_comm ?_)
    simp [InclusionProof.verify, inclusion, hlength]
  · rw [if_neg hlength]
    refine ⟨iff_of_true rfl ?_, fun s hs => nomatch hs⟩
    exact not_and_or.mp hlength

/-- A path of two levels, uneven in siblings and sides, that leads to its own root. -/
theorem synthesize_verify_twoLevels :
    ∃ s, synthesize Poseidon.standard 2
        { value := 1, documentHash := 0, siblings := [0, 1], pathBits := [true, false]
          root := InclusionProof.computeRoot Poseidon.standard
            ⟨attributeLeaf Poseidon.standard 1, [0, 1], [true, false]⟩
          commitment := Poseidon.standard.hash [1, 0] } = .ok s ∧ s.Satisfied := by
  generalize Poseidon.standard = P
  refine ⟨_, if_pos ⟨rfl, rfl⟩, ?_⟩
  refine ((synthesize_verify P 2 _).2 _ (if_pos ⟨rfl, rfl⟩)).mpr ⟨rfl, ?_⟩
  simp [InclusionProof.verify, inclusion]

end MembershipWitness

end Attest
