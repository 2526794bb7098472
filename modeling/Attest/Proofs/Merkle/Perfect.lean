import Mathlib.Data.List.GetD
import Mathlib.Tactic.Ring
import Attest.Poseidon.Derived
import Attest.Proofs.Merkle.Canonical

/-! The sparse tree is the fully padded tree.

`perfectNode` is the tree that nobody builds: every position has a leaf, and every
node is the hash of the two below it. A level of the sparse tree keeps its
non-empty prefix and one hash for all that is past it; read so, the level above it
is read right as well (`parents_getD`), whatever the length of the prefix. Hence
every node of a built tree is the perfect one's (`node_sparse`), and
`build_isPadded` says when a tree is built and what it is. -/
namespace Attest.Merkle

variable (P : Poseidon.Params)

/-! ### The perfect tree -/

/-- The node at a height and a position of the tree that has a leaf at each position. -/
def perfectNode (leaf : Nat → Scalar) : Nat → Nat → Scalar
  | 0, index => leaf index
  | height + 1, index =>
    P.hashPair (perfectNode leaf height (2 * index)) (perfectNode leaf height (2 * index + 1))

/-- The first level of nodes as leaves of a tree that is one level shorter. -/
theorem perfectNode_succ (leaf : Nat → Scalar) (height index : Nat) :
    perfectNode P leaf (height + 1) index =
      perfectNode P (fun i => P.hashPair (leaf (2 * i)) (leaf (2 * i + 1))) height index := by
  induction height generalizing index with
  | zero => rfl
  | succ height ih =>
    rw [perfectNode, ih, ih]
    rfl

/-- The leaves of a full tree of a depth: the given ones, then empty ones. -/
def padded (depth : Nat) (leaves : List Scalar) : List Scalar :=
  leaves ++ List.replicate (2 ^ depth - leaves.length) emptyLeaf

/-- Past the given leaves there is only the empty one. -/
theorem getD_padded (depth : Nat) (leaves : List Scalar) (index : Nat) :
    (padded depth leaves).getD index emptyLeaf = leaves.getD index emptyLeaf := by
  by_cases h : index < leaves.length
  · rw [padded, List.getD_append _ _ _ _ h]
  · have h := Nat.le_of_not_lt h
    rw [padded, List.getD_append_right _ _ _ _ h, List.getD_eq_default _ _ h,
      List.getD_eq_getElem?_getD, List.getElem?_replicate]
    split <;> rfl

theorem length_padded {depth : Nat} {leaves : List Scalar} (h : leaves.length ≤ 2 ^ depth) :
    (padded depth leaves).length = 2 ^ depth := by
  rw [padded, List.length_append, List.length_replicate, Nat.add_sub_cancel' h]

/-! ### Levels of the sparse tree -/

/-- A level read with the hash of its missing nodes gives the level above it, read with theirs. -/
theorem parents_getD (empty : Scalar) (level : List Scalar) (index : Nat) :
    (parents P empty level).getD index (P.hashPair empty empty) =
      P.hashPair (level.getD (2 * index) empty) (level.getD (2 * index + 1) empty) := by
  fun_induction parents P empty level generalizing index with
  | case1 left right rest ih =>
    cases index with
    | zero => rfl
    | succ index => exact ih index
  | case2 left => cases index <;> rfl
  | case3 => rfl

/-- Every level of the sparse tree, read with the hash of its empty subtree, is the perfect tree's. -/
theorem levelsFrom_getD (level : List Scalar) (empty : Scalar) {height n : Nat} (h : height ≤ n)
    (index : Nat) :
    ((levelsFrom P level (emptyHashesFrom P empty n)).getD height []).getD index
        ((emptyHashesFrom P empty n).getD height emptyLeaf) =
      perfectNode P (level.getD · empty) height index := by
  induction n generalizing level empty height with
  | zero =>
    obtain rfl : height = 0 := Nat.le_zero.mp h
    rfl
  | succ n ih =>
    cases height with
    | zero => rfl
    | succ height =>
      have habove := ih (parents P empty level) (P.hashPair empty empty) (Nat.le_of_succ_le_succ h)
      rw [perfectNode_succ]
      simp only [← parents_getD]
      exact habove

namespace Tree

/-- The sparse tree over a level of leaves. -/
def sparse (depth : Nat) (leaves : List Scalar) : Tree :=
  { depth, levels := levelsFrom P leaves (emptyHashes P depth), empties := emptyHashes P depth }

theorem leaves_sparse (depth : Nat) (leaves : List Scalar) :
    (sparse P depth leaves).leaves = leaves := by
  cases depth <;> rfl

theorem node_sparse {depth height : Nat} (h : height ≤ depth) (leaves : List Scalar)
    (index : Nat) : (sparse P depth leaves).node height index =
      perfectNode P (leaves.getD · emptyLeaf) height index :=
  levelsFrom_getD P leaves emptyLeaf h index

theorem root_sparse (depth : Nat) (leaves : List Scalar) :
    (sparse P depth leaves).root = perfectNode P (leaves.getD · emptyLeaf) depth 0 :=
  node_sparse P (Nat.le_refl depth) leaves 0

/-! ### Building -/

/-- What building does: it refuses a bad depth, then too many leaves, or gives the sparse tree. -/
theorem build_eq (depth : Nat) (leaves : List Scalar) :
    build P depth leaves =
      if depth = 0 ∨ maxDepth < depth then
        .error (.invalidInput s!"merkle depth must be 1-{maxDepth} (got {depth})")
      else if 2 ^ depth < (canonical leaves).length then
        .error (.capacityExceeded (canonical leaves).length depth)
      else .ok (sparse P depth (canonical leaves)) := by
  unfold build checkDepth
  split
  · rfl
  · show (if 2 ^ depth < (canonical leaves).length then _ else _) = _
    split <;> rfl

/-- The tree is the fully padded one over the distinct given leaves, in ascending order. -/
structure IsPadded (t : Tree) (depth : Nat) (leaves : List Scalar) : Prop where
  depth_eq : t.depth = depth
  ascending : t.leaves.Pairwise (· < ·)
  mem : ∀ x, x ∈ t.leaves ↔ x ∈ leaves
  room : (padded depth t.leaves).length = 2 ^ depth
  node : ∀ height ≤ depth, ∀ index < 2 ^ (depth - height), t.node height index =
    perfectNode P ((padded depth t.leaves).getD · emptyLeaf) height index
  root : t.root = perfectNode P ((padded depth t.leaves).getD · emptyLeaf) depth 0

theorem build_eq_ok_iff {depth : Nat} {leaves : List Scalar} {t : Tree} :
    build P depth leaves = .ok t ↔ (1 ≤ depth ∧ depth ≤ maxDepth) ∧
      (canonical leaves).length ≤ 2 ^ depth ∧ sparse P depth (canonical leaves) = t := by
  rw [build_eq]
  split
  · exact iff_of_false (fun h => nomatch h) (by omega)
  · split
    · exact iff_of_false (fun h => nomatch h) (by omega)
    · rw [Except.ok.injEq, and_iff_right (by omega), and_iff_right (by omega)]

/-- There is a tree where there is room for one. -/
theorem exists_build {depth : Nat} {leaves : List Scalar} (hdepth : 1 ≤ depth ∧ depth ≤ maxDepth)
    (hroom : leaves.toFinset.card ≤ 2 ^ depth) : ∃ t, build P depth leaves = .ok t :=
  ⟨_, (build_eq_ok_iff P).mpr ⟨hdepth, by rwa [length_canonical], rfl⟩⟩

theorem isPadded_of_build {depth : Nat} {leaves : List Scalar} {t : Tree}
    (h : build P depth leaves = .ok t) : t.IsPadded P depth leaves := by
  obtain ⟨-, hroom, rfl⟩ := (build_eq_ok_iff P).mp h
  refine ⟨rfl, ?_, fun x => ?_, ?_, fun height hheight index _ => ?_, ?_⟩ <;>
    simp only [leaves_sparse, getD_padded]
  · exact canonical_ascending leaves
  · exact mem_canonical leaves
  · exact length_padded hroom
  · exact node_sparse P hheight _ index
  · exact root_sparse P depth _

theorem length_leaves {depth : Nat} {leaves : List Scalar} {t : Tree}
    (h : build P depth leaves = .ok t) : t.leaves.length = leaves.toFinset.card := by
  obtain ⟨-, -, rfl⟩ := (build_eq_ok_iff P).mp h
  rw [leaves_sparse, length_canonical]

theorem length_leaves_le {depth : Nat} {leaves : List Scalar} {t : Tree}
    (h : build P depth leaves = .ok t) : t.leaves.length ≤ 2 ^ depth := by
  obtain ⟨-, hroom, rfl⟩ := (build_eq_ok_iff P).mp h
  rwa [leaves_sparse]

/-- **A tree is built exactly when there is room for it, and is then the fully padded tree.** A bad
depth is refused first, and then a set of leaves that is too large, by its size. -/
theorem build_isPadded (depth : Nat) (leaves : List Scalar) :
    ((∃ t, build P depth leaves = .ok t) ↔
        (1 ≤ depth ∧ depth ≤ 32) ∧ leaves.toFinset.card ≤ 2 ^ depth) ∧
      (¬(1 ≤ depth ∧ depth ≤ 32) → build P depth leaves =
        .error (.invalidInput s!"merkle depth must be 1-32 (got {depth})")) ∧
      (1 ≤ depth ∧ depth ≤ 32 → 2 ^ depth < leaves.toFinset.card →
        build P depth leaves = .error (.capacityExceeded leaves.toFinset.card depth)) ∧
      ∀ t, build P depth leaves = .ok t → t.IsPadded P depth leaves := by
  have hmax : maxDepth = 32 := rfl
  refine ⟨?_, fun hdepth => ?_, fun hdepth hroom => ?_, fun t ht => isPadded_of_build P ht⟩
  · simp only [build_eq_ok_iff, length_canonical, exists_and_left, exists_eq', and_true, hmax]
  · rw [build_eq, if_pos (by omega)]
    rfl
  · rw [build_eq, length_canonical, if_neg (by omega), if_pos hroom]

/-- Leaves out of order and repeated, a depth out of range, and one leaf too many. -/
theorem build_isPadded_cases :
    (∃ t, build Poseidon.standard 2 [.ofNat 5, .ofNat 3, .ofNat 5] = .ok t ∧
        t.IsPadded Poseidon.standard 2 [.ofNat 5, .ofNat 3, .ofNat 5]) ∧
      build Poseidon.standard 33 [.ofNat 5] =
        .error (.invalidInput "merkle depth must be 1-32 (got 33)") ∧
      build Poseidon.standard 1 [.ofNat 1, .ofNat 2, .ofNat 1, .ofNat 3] =
        .error (.capacityExceeded 3 1) := by
  generalize Poseidon.standard = P
  refine ⟨?_, ?_, ?_⟩
  · obtain ⟨hbuilt, _, _, hpadded⟩ := build_isPadded P 2 [.ofNat 5, .ofNat 3, .ofNat 5]
    obtain ⟨t, ht⟩ := hbuilt.mpr ⟨by decide, by decide⟩
    exact ⟨t, ht, hpadded t ht⟩
  · exact (build_isPadded P 33 [.ofNat 5]).2.1 (by decide)
  · have hcard : [Residue.ofNat 1, .ofNat 2, .ofNat 1, (.ofNat 3 : Scalar)].toFinset.card = 3 := by
      decide
    have hfull := (build_isPadded P 1 [.ofNat 1, .ofNat 2, .ofNat 1, .ofNat 3]).2.2.1 (by decide)
      (by rw [hcard]; decide)
    rwa [hcard] at hfull

end Tree

end Attest.Merkle
