import Attest.Merkle.Inclusion
import Attest.Poseidon.Derived
import Attest.Proofs.Digits
import Attest.Proofs.Merkle.Perfect

/-! What an accepted proof of inclusion is evidence of.

Nothing is assumed of the hash. A proof that folds to a node of a perfect tree is
followed down from it: at each level the pair that the proof hashes is the pair
below the tree's node, or it is another with the same hash (`child_or_collision`;
`fold_descends` for a whole path). So either the proof stands for the leaf at its
position, or two different pairs with one hash stand in plain sight, one hashed by
the proof and one by the tree. -/
namespace Attest.Merkle

variable (P : Poseidon.Params)

/-! ### Pairs that are hashed -/

/-- A node and its sibling, the left one first. -/
def sides (node sibling : Scalar) (isRight : Bool) : Scalar × Scalar :=
  if isRight then (sibling, node) else (node, sibling)

theorem parent_eq (node sibling : Scalar) (isRight : Bool) :
    parent P node sibling isRight =
      P.hashPair (sides node sibling isRight).1 (sides node sibling isRight).2 := by
  cases isRight <;> rfl

/-- The pairs that are hashed on the way up a path, lowest first. -/
def foldedPairs (node : Scalar) : List (Scalar × Bool) → List (Scalar × Scalar)
  | [] => []
  | (sibling, isRight) :: rest =>
    sides node sibling isRight :: foldedPairs (parent P node sibling isRight) rest

/-- The pairs that a proof hashes. -/
def InclusionProof.pairs (proof : InclusionProof) : List (Scalar × Scalar) :=
  foldedPairs P proof.leaf (proof.siblings.zip proof.pathBits)

/-- The two nodes under the node above a height. -/
def children (leaf : Nat → Scalar) (height index : Nat) : Scalar × Scalar :=
  (perfectNode P leaf height (2 * index), perfectNode P leaf height (2 * index + 1))

/-- The pair is hashed for a node of the perfect tree of a depth. -/
def TreePair (leaf : Nat → Scalar) (depth : Nat) (q : Scalar × Scalar) : Prop :=
  ∃ height index, height < depth ∧ index < 2 ^ (depth - (height + 1)) ∧
    children P leaf height index = q

/-- Two different pairs with the same hash. -/
structure Collision (p q : Scalar × Scalar) : Prop where
  distinct : p ≠ q
  same : P.hashPair p.1 p.2 = P.hashPair q.1 q.2

/-! ### Down a path -/

/-- One level down: below a parent that is the tree's node stands the tree's node, or the pair that
was hashed collides with the tree's. -/
theorem child_or_collision (leaf : Nat → Scalar) {node sibling : Scalar} {isRight : Bool}
    {height index : Nat}
    (h : parent P node sibling isRight = perfectNode P leaf (height + 1) index) :
    node = perfectNode P leaf height (2 * index + isRight.toNat) ∨
      Collision P (sides node sibling isRight) (children P leaf height index) := by
  by_cases hpair : sides node sibling isRight = children P leaf height index
  · left
    cases isRight
    · exact congrArg Prod.fst hpair
    · exact congrArg Prod.snd hpair
  · rw [parent_eq] at h
    exact .inr ⟨hpair, h⟩

/-- From a node at some height of a perfect tree down a path that folds to it: the path starts at
the tree's node there, or one of its pairs collides with the tree's pair at the same place. -/
theorem fold_descends (leaf : Nat → Scalar) (path : List (Scalar × Bool)) (node : Scalar)
    (height index : Nat)
    (h : path.foldl (fun n step => parent P n step.1 step.2) node =
      perfectNode P leaf (height + path.length) index) :
    node = perfectNode P leaf height
        (2 ^ path.length * index + lowestFirst (path.map Prod.snd)) ∨
      ∃ p ∈ foldedPairs P node path, ∃ k i, k < path.length ∧
        i < 2 ^ (path.length - (k + 1)) * (index + 1) ∧
        Collision P p (children P leaf (height + k) i) := by
  induction path generalizing node height with
  | nil =>
    refine .inl (h.trans ?_)
    rw [List.length_nil, Nat.pow_zero, Nat.one_mul]
    rfl
  | cons step rest ih =>
    obtain ⟨sibling, isRight⟩ := step
    rw [List.foldl_cons, List.length_cons, Nat.add_comm rest.length 1, ← Nat.add_assoc] at h
    rcases ih _ (height + 1) h with hparent | ⟨p, hp, k, i, hk, hi, hcollision⟩
    · -- The parent is the tree's node: one more level down.
      rcases child_or_collision P leaf hparent with hnode | hcollision
      · have hposition : 2 ^ ((sibling, isRight) :: rest).length * index +
            lowestFirst (((sibling, isRight) :: rest).map Prod.snd) =
              2 * (2 ^ rest.length * index + lowestFirst (rest.map Prod.snd)) + isRight.toNat := by
          rw [List.length_cons, List.map_cons, lowestFirst_cons, Nat.pow_succ]
          ring
        rw [hposition]
        exact .inl hnode
      · refine .inr ⟨_, List.mem_cons_self, 0, _, Nat.succ_pos _, ?_, hcollision⟩
        have hlow := lowestFirst_lt (rest.map Prod.snd)
        rw [List.length_map] at hlow
        rw [List.length_cons, Nat.add_sub_cancel, Nat.mul_succ]
        omega
    · refine .inr ⟨p, List.mem_cons_of_mem _ hp, k + 1, i, Nat.succ_lt_succ hk, ?_, ?_⟩
      · rwa [List.length_cons, Nat.succ_sub_succ]
      · rwa [Nat.add_assoc, Nat.add_comm 1 k] at hcollision

namespace InclusionProof

/-- An accepted proof has as many siblings and as many bits as the tree is deep, and folds to the
root. -/
theorem verify_iff {root : Scalar} {depth : Nat} {proof : InclusionProof} :
    proof.verify P root depth = true ↔ proof.siblings.length = depth ∧
      proof.pathBits.length = depth ∧ proof.computeRoot P = root := by
  simp [verify, and_assoc]

/-- No position is cut off in a tree of a depth that is built. -/
theorem index_eq {proof : InclusionProof} (h : proof.pathBits.length ≤ 64) :
    proof.index = lowestFirst proof.pathBits := by
  rw [index, List.take_of_length_le h]
  rfl

/-- The position of an accepted proof is one of the tree's. -/
theorem index_lt {root : Scalar} {depth : Nat} {proof : InclusionProof} (hdepth : depth ≤ maxDepth)
    (hv : proof.verify P root depth = true) : proof.index < 2 ^ depth := by
  obtain ⟨-, hbits, -⟩ := (verify_iff P).mp hv
  rw [index_eq (hbits ▸ hdepth.trans (by decide)), ← hbits]
  exact lowestFirst_lt proof.pathBits

/-- The leaf of an accepted proof is what stands at its position, or the proof hashes a pair that
collides with one of the fully padded tree. -/
theorem leaf_or_collision {depth : Nat} {leaves : List Scalar} {t : Tree}
    (ht : Tree.build P depth leaves = .ok t) {proof : InclusionProof}
    (hv : proof.verify P t.root t.depth = true) :
    proof.leaf = t.leaves.getD proof.index emptyLeaf ∨
      ∃ p ∈ proof.pairs P, ∃ q,
        TreePair P ((padded t.depth t.leaves).getD · emptyLeaf) t.depth q ∧ Collision P p q := by
  obtain ⟨⟨-, hdepth⟩, -, -⟩ := (Tree.build_eq_ok_iff P).mp ht
  have hpadded := Tree.isPadded_of_build P ht
  obtain rfl := hpadded.depth_eq
  obtain ⟨hsiblings, hbits, hroot⟩ := (verify_iff P).mp hv
  have hlength : (proof.siblings.zip proof.pathBits).length = t.depth := by
    rw [List.length_zip, hsiblings, hbits, Nat.min_self]
  have hsides : (proof.siblings.zip proof.pathBits).map Prod.snd = proof.pathBits :=
    List.map_snd_zip (by omega)
  rw [hpadded.root] at hroot
  have hdescent := fold_descends P ((padded t.depth t.leaves).getD · emptyLeaf)
    (proof.siblings.zip proof.pathBits) proof.leaf 0 0 (by rw [hlength, Nat.zero_add]; exact hroot)
  rw [hlength, hsides, Nat.mul_zero, Nat.zero_add, ← index_eq (hbits ▸ hdepth.trans (by decide)),
    perfectNode, getD_padded] at hdescent
  refine hdescent.imp_right ?_
  rintro ⟨p, hp, k, i, hk, hi, hcollision⟩
  rw [Nat.zero_add] at hcollision
  exact ⟨p, hp, _, ⟨k, i, hk, by simpa using hi, rfl⟩, hcollision⟩

/-- **An accepted proof shows the leaf at its position**, or that the position is past the leaves
and empty — or else it hashes a pair that collides with one of the fully padded tree. -/
theorem verify_binding {depth : Nat} {leaves : List Scalar} {t : Tree}
    (ht : Tree.build P depth leaves = .ok t) {proof : InclusionProof}
    (hv : proof.verify P t.root t.depth = true) :
    t.leaves[proof.index]? = some proof.leaf ∨
      (t.leaves.length ≤ proof.index ∧ proof.leaf = 0) ∨
      ∃ p ∈ proof.pairs P, ∃ q,
        TreePair P ((padded t.depth t.leaves).getD · emptyLeaf) t.depth q ∧ Collision P p q := by
  rcases leaf_or_collision P ht hv with hleaf | hcollision
  · by_cases hindex : proof.index < t.leaves.length
    · rw [List.getD_eq_getElem _ _ hindex] at hleaf
      exact .inl (by rw [List.getElem?_eq_getElem hindex, hleaf])
    · have hpast := Nat.le_of_not_lt hindex
      rw [List.getD_eq_default _ _ hpast] at hleaf
      exact .inr (.inl ⟨hpast, hleaf⟩)
  · exact .inr (.inr hcollision)

/-- The proof for the larger of two leaves that were given out of order. -/
theorem verify_binding_second :
    ∃ t, Tree.build Poseidon.standard 1 [.ofNat 5, .ofNat 3] = .ok t ∧
      ∃ proof : InclusionProof, proof.verify Poseidon.standard t.root t.depth = true ∧
        (t.leaves[proof.index]? = some proof.leaf ∨
          (t.leaves.length ≤ proof.index ∧ proof.leaf = 0) ∨
          ∃ p ∈ proof.pairs Poseidon.standard, ∃ q,
            TreePair Poseidon.standard ((padded t.depth t.leaves).getD · emptyLeaf) t.depth q ∧
              Collision Poseidon.standard p q) := by
  have hleaves : canonical [.ofNat 5, .ofNat 3] = [.ofNat 3, .ofNat 5] :=
    canonical_eq (by decide) fun x => by simp [or_comm]
  have hbuild : ∀ P, Tree.build P 1 [.ofNat 5, .ofNat 3] =
      .ok (Tree.sparse P 1 [.ofNat 3, .ofNat 5]) := fun P =>
    (Tree.build_eq_ok_iff P).mpr ⟨by decide, by rw [hleaves]; decide, by rw [hleaves]⟩
  have hverify : ∀ P, InclusionProof.verify P (Tree.sparse P 1 [.ofNat 3, .ofNat 5]).root 1
      ⟨.ofNat 5, [.ofNat 3], [true]⟩ = true := fun P => (verify_iff P).mpr ⟨rfl, rfl, rfl⟩
  exact ⟨_, hbuild _, _, hverify _, verify_binding _ (hbuild _) (hverify _)⟩

end InclusionProof

end Attest.Merkle
