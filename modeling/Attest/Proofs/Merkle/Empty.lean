import Attest.Proofs.Merkle.Completeness
import Attest.Proofs.Merkle.Position

/-! What the root of the empty tree admits.

On the way up from any position of the empty tree every sibling is the hash of an empty subtree,
whichever side it is on, so one list of siblings takes the empty leaf to the root from everywhere
(`fold_empties`). By `InclusionProof.eq_or_collision` nothing else gets there, unless some pair of
it collides with the pair of two empty subtrees. The root therefore denies every leaf but the empty
one, which no tree without leaves contains (`emptyRoot_admits`, `sentinel_admitted`). -/
namespace Attest.Merkle

variable (P : Poseidon.Params)

/-- The hashes of the empty subtrees below the root of the empty tree, lowest first. -/
def emptySiblings (depth : Nat) : List Scalar := (emptyHashes P depth).take depth

theorem parent_self (z : Scalar) (isRight : Bool) : parent P z z isRight = P.hashPair z z := by
  cases isRight <;> rfl

/-- From an empty subtree up beside empty subtrees, on any sides. -/
theorem fold_empties (z d : Scalar) (bits : List Bool) :
    (((emptyHashesFrom P z bits.length).take bits.length).zip bits).foldl
        (fun n step => parent P n step.1 step.2) z =
      (emptyHashesFrom P z bits.length).getLastD d := by
  induction bits generalizing z d with
  | nil => rfl
  | cons b bits ih =>
    rw [List.length_cons, emptyHashesFrom, List.take_succ_cons, List.zip_cons_cons, List.foldl_cons,
      parent_self, List.getLastD_cons, ih]

theorem foldedPairs_empties (z : Scalar) (bits : List Bool) :
    foldedPairs P z (((emptyHashesFrom P z bits.length).take bits.length).zip bits) =
      ((emptyHashesFrom P z bits.length).take bits.length).map fun z => (z, z) := by
  induction bits generalizing z with
  | nil => rfl
  | cons b bits ih =>
    have hsides : sides z z b = (z, z) := by cases b <;> rfl
    rw [List.length_cons, emptyHashesFrom, List.take_succ_cons, List.zip_cons_cons, foldedPairs,
      parent_self, hsides, ih, List.map_cons]

theorem emptyRoot_eq {depth : Nat} (hdepth : 1 ≤ depth ∧ depth ≤ maxDepth) :
    emptyRoot P depth = .ok ((emptyHashes P depth).getLastD emptyLeaf) := by
  unfold emptyRoot checkDepth
  rw [if_neg (by omega)]
  rfl

theorem length_emptySiblings (depth : Nat) : (emptySiblings P depth).length = depth := by
  have hlength : ∀ z n, (emptyHashesFrom P z n).length = n + 1 := by
    intro z n
    induction n generalizing z with
    | zero => rfl
    | succ n ih => rw [emptyHashesFrom, List.length_cons, ih]
  rw [emptySiblings, emptyHashes, List.length_take, hlength]
  omega

namespace InclusionProof
variable {proof : InclusionProof} {depth : Nat}

/-- It shows that a position of the empty tree is empty: the empty leaf beside empty subtrees. -/
structure Vacant (depth : Nat) (proof : InclusionProof) : Prop where
  leaf : proof.leaf = emptyLeaf
  siblings : proof.siblings = emptySiblings P depth
  pathBits : proof.pathBits.length = depth

theorem Vacant.computeRoot_eq (h : proof.Vacant P depth) :
    proof.computeRoot P = (emptyHashes P depth).getLastD emptyLeaf := by
  obtain ⟨hleaf, hsiblings, rfl⟩ := h
  rw [computeRoot, hleaf, hsiblings]
  exact fold_empties P emptyLeaf emptyLeaf proof.pathBits

theorem Vacant.pairs_eq (h : proof.Vacant P depth) :
    proof.pairs P = (emptySiblings P depth).map fun z => (z, z) := by
  obtain ⟨hleaf, hsiblings, rfl⟩ := h
  rw [pairs, hleaf, hsiblings]
  exact foldedPairs_empties P emptyLeaf proof.pathBits

/-- A proof that is accepted for the root of the empty tree is vacant, or a pair of it collides with
the pair of empty subtrees at its height. -/
theorem vacant_or_collision
    (h : proof.verify P ((emptyHashes P depth).getLastD emptyLeaf) depth = true) :
    proof.Vacant P depth ∨
      ∃ pair ∈ (proof.pairs P).zip (emptySiblings P depth),
        Collision P pair.1 (pair.2, pair.2) := by
  obtain ⟨hsiblings, hbits, hroot⟩ := (verify_iff P).mp h
  let vacant : InclusionProof := ⟨emptyLeaf, emptySiblings P depth, proof.pathBits⟩
  have hvacant : vacant.Vacant P depth := ⟨rfl, rfl, hbits⟩
  have hboth := eq_or_collision P (q := vacant) (hsiblings.trans hbits.symm)
    ((length_emptySiblings P depth).trans hbits.symm) rfl (hroot.trans hvacant.computeRoot_eq.symm)
  rw [hvacant.pairs_eq, List.zip_map_right] at hboth
  rcases hboth with hsame | ⟨_, hpair, hcollision⟩
  · rw [hsame]
    exact .inl hvacant
  · obtain ⟨pair, hmem, rfl⟩ := List.mem_map.mp hpair
    exact .inr ⟨pair, hmem, hcollision⟩

/-- A vacant proof is accepted, and hashes nothing but pairs of empty subtrees. -/
theorem Vacant.verify (h : proof.Vacant P depth) :
    proof.verify P ((emptyHashes P depth).getLastD emptyLeaf) depth = true :=
  (verify_iff P).mpr ⟨h.siblings ▸ length_emptySiblings P depth, h.pathBits, h.computeRoot_eq⟩

end InclusionProof

/-- **The root of the empty tree admits the empty leaf and no other.** Of the proofs that hash no
pair which collides with the pair of empty subtrees at its height, those are accepted that show the
empty leaf beside empty subtrees, on whatever sides, and no others. -/
theorem emptyRoot_admits (depth : Nat) (hdepth : 1 ≤ depth ∧ depth ≤ 32) :
    ∃ root, emptyRoot P depth = .ok root ∧ ∀ proof : InclusionProof,
      (proof.verify P root depth = true ∧
          ∀ pair ∈ (proof.pairs P).zip (emptySiblings P depth),
            ¬Collision P pair.1 (pair.2, pair.2)) ↔
        proof.Vacant P depth := by
  refine ⟨_, emptyRoot_eq P hdepth, fun proof => ⟨fun ⟨hverify, hnone⟩ => ?_, fun h => ?_⟩⟩
  · refine (proof.vacant_or_collision P hverify).resolve_right ?_
    rintro ⟨pair, hpair, hcollision⟩
    exact hnone pair hpair hcollision
  · refine ⟨h.verify, fun pair hpair hcollision => hcollision.distinct ?_⟩
    rw [h.pairs_eq, ← List.map_prod_right_eq_zip] at hpair
    obtain ⟨z, -, rfl⟩ := List.mem_map.mp hpair
    rfl

/-- In the empty tree of depth two, the third position. -/
theorem emptyRoot_admits_third :
    ∃ root, emptyRoot Poseidon.standard 2 = .ok root ∧
      InclusionProof.verify Poseidon.standard root 2
        ⟨emptyLeaf, emptySiblings Poseidon.standard 2, [false, true]⟩ = true := by
  generalize Poseidon.standard = P
  obtain ⟨root, hroot, hadmits⟩ := emptyRoot_admits P 2 (by decide)
  exact ⟨root, hroot, ((hadmits _).mpr ⟨rfl, rfl, rfl⟩).1⟩

/-- The root of the tree without leaves admits a leaf: the tree says that it does not hold the empty
leaf, and a proof of it is accepted all the same, whose one pair is that of two empty leaves. -/
theorem sentinel_admitted :
    ∃ t, Tree.build Poseidon.standard 1 [] = .ok t ∧ t.prove emptyLeaf = .error .notFound ∧
      emptyRoot Poseidon.standard 1 = .ok t.root ∧
      InclusionProof.verify Poseidon.standard t.root 1 ⟨emptyLeaf, [emptyLeaf], [false]⟩ = true ∧
      ∀ pair ∈ InclusionProof.pairs Poseidon.standard ⟨emptyLeaf, [emptyLeaf], [false]⟩,
        pair = (emptyLeaf, emptyLeaf) := by
  have hnone : canonical [] = [] := canonical_eq .nil fun _ => .rfl
  have hbuild : ∀ P, Tree.build P 1 [] = .ok (Tree.sparse P 1 []) := fun P =>
    (Tree.build_eq_ok_iff P).mpr ⟨by decide, by rw [hnone]; decide, by rw [hnone]⟩
  have hroot : ∀ P, emptyRoot P 1 = .ok (Tree.sparse P 1 []).root := fun P => rfl
  have hverify : ∀ P, InclusionProof.verify P (Tree.sparse P 1 []).root 1
      ⟨emptyLeaf, [emptyLeaf], [false]⟩ = true := fun P =>
    (InclusionProof.verify_iff P).mpr ⟨rfl, rfl, rfl⟩
  have hpairs : ∀ P, InclusionProof.pairs P ⟨emptyLeaf, [emptyLeaf], [false]⟩ =
      [(emptyLeaf, emptyLeaf)] := fun P => rfl
  refine ⟨_, hbuild _, Tree.prove_absent (hbuild _) List.not_mem_nil, hroot _, hverify _, ?_⟩
  rw [hpairs]
  exact fun pair hpair => List.mem_singleton.mp hpair

end Attest.Merkle
