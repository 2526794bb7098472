import Attest.Proofs.Merkle.Binding

/-! A root stands for one set of leaves.

Building sorts first, so lists with the same elements give the same tree. Two trees
with the same root are compared from the root down: their nodes agree at every
height, or at some place two different pairs have the same hash
(`leaves_eq_or_collision`). Agreement means that both lists of leaves, filled up
with the empty leaf, are the same, and an ascending list can be filled up to another
in one way only: nothing, to the empty leaf itself (`eq_nil_of_padded_eq`). -/
namespace Attest.Merkle

variable (P : Poseidon.Params)

/-- The places that are reached below a node's child are reached below the node. -/
theorem lt_above {height k index side j : Nat} (hk : k < height) (hside : side < 2)
    (hj : j < 2 ^ (height - (k + 1)) * (2 * index + side + 1)) :
    j < 2 ^ (height + 1 - (k + 1)) * (index + 1) := by
  have hwidth : 2 ^ (height + 1 - (k + 1)) * (index + 1) =
      2 ^ (height - (k + 1)) * (2 * index + 2) := by
    rw [Nat.succ_sub hk, Nat.pow_succ]
    ring
  rw [hwidth]
  exact hj.trans_le (Nat.mul_le_mul_left _ (by omega))

/-- Two trees of leaves with the same node at some place have the same leaves under it, or hash
different pairs to the same node somewhere under it. -/
theorem leaves_eq_or_collision (f g : Nat → Scalar) (height index : Nat)
    (h : perfectNode P f height index = perfectNode P g height index) :
    (∀ i < 2 ^ height, f (2 ^ height * index + i) = g (2 ^ height * index + i)) ∨
      ∃ k i, k < height ∧ i < 2 ^ (height - (k + 1)) * (index + 1) ∧
        Collision P (children P f k i) (children P g k i) := by
  induction height generalizing index with
  | zero =>
    refine .inl fun i hi => ?_
    obtain rfl : i = 0 := Nat.lt_one_iff.mp hi
    rw [Nat.pow_zero, Nat.one_mul]
    exact h
  | succ height ih =>
    refine or_iff_not_imp_right.mpr fun hnone i hi => ?_
    have hpair : children P f height index = children P g height index := by
      by_contra hne
      exact hnone ⟨height, index, Nat.lt_succ_self height, by simp, hne, h⟩
    -- The leaf stands under the left node of the pair or under the right one.
    have hchild : ∀ b < 2, perfectNode P f height (2 * index + b) =
        perfectNode P g height (2 * index + b) := by
      intro b hb
      obtain rfl | rfl : b = 0 ∨ b = 1 := by omega
      · exact congrArg Prod.fst hpair
      · exact congrArg Prod.snd hpair
    have hside : i / 2 ^ height < 2 := Nat.div_lt_of_lt_mul (by rwa [← Nat.pow_succ])
    have hunder := (ih (2 * index + i / 2 ^ height) (hchild _ hside)).resolve_right <| by
      rintro ⟨k, j, hk, hj, hcollision⟩
      exact hnone ⟨k, j, Nat.lt_succ_of_lt hk, lt_above hk hside hj, hcollision⟩
    have hplace : 2 ^ (height + 1) * index + i =
        2 ^ height * (2 * index + i / 2 ^ height) + i % 2 ^ height := by
      have hdivision := Nat.div_add_mod i (2 ^ height)
      rw [Nat.pow_succ, Nat.mul_add, Nat.add_assoc, hdivision]
      ring
    rw [hplace]
    exact hunder _ (Nat.mod_lt _ (Nat.two_pow_pos height))

/-- Filling up an ascending list with empty leaves makes another of it only when it is nothing and
the other is the empty leaf. -/
theorem eq_nil_of_padded_eq {xs ys : List Scalar} (hys : ys.Pairwise (· < ·))
    (hlength : xs.length < ys.length)
    (h : ∀ i < ys.length, xs.getD i emptyLeaf = ys.getD i emptyLeaf) : xs = [] ∧ ys = [0] := by
  have hpast : ∀ i < ys.length, xs.length ≤ i → i = 0 := fun i hi hpast =>
    getD_eq_zero hys hi ((h i hi).symm.trans (List.getD_eq_default _ _ hpast))
  have hnil : xs.length = 0 := hpast _ hlength le_rfl
  have hlast : ys.length - 1 = 0 := hpast _ (by omega) (by omega)
  obtain ⟨y, rfl⟩ := List.length_eq_one_iff.mp (show ys.length = 1 by omega)
  obtain rfl := List.length_eq_zero_iff.mp hnil
  exact ⟨rfl, congrArg ([·]) (h 0 hlength).symm⟩

/-- Two ascending lists that are filled up to the same one are equal, or one of them is nothing and
the other is the empty leaf. -/
theorem eq_or_nil_of_padded_eq {xs ys : List Scalar} (hxs : xs.Pairwise (· < ·))
    (hys : ys.Pairwise (· < ·)) (h : ∀ i, xs.getD i emptyLeaf = ys.getD i emptyLeaf) :
    xs = ys ∨ (xs = [] ∧ ys = [0]) ∨ (ys = [] ∧ xs = [0]) := by
  rcases Nat.lt_trichotomy xs.length ys.length with hlt | heq | hgt
  · exact .inr (.inl (eq_nil_of_padded_eq hys hlt fun i _ => h i))
  · refine .inl (List.ext_getElem heq fun i hx hy => ?_)
    rw [← List.getD_eq_getElem _ emptyLeaf hx, ← List.getD_eq_getElem _ emptyLeaf hy, h i]
  · exact .inr (.inr (eq_nil_of_padded_eq hxs hgt fun i _ => (h i).symm))

namespace Tree

/-- The two nodes under the node above a height. -/
def below (t : Tree) (height index : Nat) : Scalar × Scalar :=
  (t.node height (2 * index), t.node height (2 * index + 1))

theorem below_sparse {depth height : Nat} (h : height ≤ depth) (leaves : List Scalar)
    (index : Nat) : (sparse P depth leaves).below height index =
      children P (leaves.getD · emptyLeaf) height index :=
  congrArg₂ Prod.mk (node_sparse P h leaves _) (node_sparse P h leaves _)

theorem build_congr {xs ys : List Scalar} (h : ∀ x, x ∈ xs ↔ x ∈ ys) (depth : Nat) :
    build P depth xs = build P depth ys := by
  have hcanonical : canonical xs = canonical ys :=
    canonical_eq (canonical_ascending ys) fun x => (mem_canonical ys).trans (h x).symm
  rw [build_eq, build_eq, hcanonical]

/-- **A root stands for one set of leaves.** Lists with the same elements give the same tree or the
same failure. Trees of one depth with the same root are built over the same leaves, or over none and
the empty leaf — or else two different pairs of nodes, at the same place in both, have one hash. -/
theorem root_determines (depth : Nat) (xs ys : List Scalar) :
    ((∀ x, x ∈ xs ↔ x ∈ ys) → build P depth xs = build P depth ys) ∧
      ∀ t u, build P depth xs = .ok t → build P depth ys = .ok u → t.root = u.root →
        (∀ x, x ∈ xs ↔ x ∈ ys) ∨
          (xs = [] ∧ ∀ y, y ∈ ys ↔ y = 0) ∨ (ys = [] ∧ ∀ x, x ∈ xs ↔ x = 0) ∨
          ∃ height index, height < depth ∧ index < 2 ^ (depth - (height + 1)) ∧
            Collision P (t.below height index) (u.below height index) := by
  refine ⟨fun h => build_congr P h depth, fun t u ht hu hroot => ?_⟩
  obtain ⟨-, hx, rfl⟩ := (build_eq_ok_iff P).mp ht
  obtain ⟨-, hy, rfl⟩ := (build_eq_ok_iff P).mp hu
  have hroots : perfectNode P ((canonical xs).getD · emptyLeaf) depth 0 =
      perfectNode P ((canonical ys).getD · emptyLeaf) depth 0 := by
    rwa [← root_sparse, ← root_sparse]
  rcases leaves_eq_or_collision P _ _ depth 0 hroots with hleaves | ⟨k, i, hk, hi, hcollision⟩
  · have hpadded : ∀ i, (canonical xs).getD i emptyLeaf = (canonical ys).getD i emptyLeaf := by
      intro i
      by_cases hi : i < 2 ^ depth
      · simpa using hleaves i hi
      · rw [List.getD_eq_default _ _ (by omega), List.getD_eq_default _ _ (by omega)]
    have hzero : ∀ {zs : List Scalar}, canonical zs = [0] → ∀ z, z ∈ zs ↔ z = 0 := fun h z =>
      (mem_iff_of_canonical_eq h z).trans List.mem_singleton
    rcases eq_or_nil_of_padded_eq (canonical_ascending xs) (canonical_ascending ys) hpadded with
      heq | ⟨hnil, hsingle⟩ | ⟨hnil, hsingle⟩
    · exact .inl fun x => (mem_iff_of_canonical_eq heq x).trans (mem_canonical ys)
    · exact .inr (.inl ⟨eq_nil_of_canonical_eq hnil, hzero hsingle⟩)
    · exact .inr (.inr (.inl ⟨eq_nil_of_canonical_eq hnil, hzero hsingle⟩))
  · refine .inr (.inr (.inr ⟨k, i, hk, by simpa using hi, ?_⟩))
    rwa [below_sparse P hk.le, below_sparse P hk.le]

/-- The same leaves in another order and repeated; and no leaf beside the empty one, whose roots are
the same. -/
theorem root_determines_cases :
    build Poseidon.standard 2 [.ofNat 5, .ofNat 3, .ofNat 5] =
        build Poseidon.standard 2 [.ofNat 3, .ofNat 5] ∧
      ∃ t u, build Poseidon.standard 1 [] = .ok t ∧ build Poseidon.standard 1 [0] = .ok u ∧
        t.root = u.root ∧
        ((∀ x, x ∈ [] ↔ x ∈ [(0 : Scalar)]) ∨
          (([] : List Scalar) = [] ∧ ∀ y, y ∈ [(0 : Scalar)] ↔ y = 0) ∨
          ([(0 : Scalar)] = [] ∧ ∀ x, x ∈ [] ↔ x = (0 : Scalar)) ∨
          ∃ height index, height < 1 ∧ index < 2 ^ (1 - (height + 1)) ∧
            Collision Poseidon.standard (t.below height index) (u.below height index)) := by
  generalize Poseidon.standard = P
  refine ⟨(root_determines P 2 _ _).1 (by simp [or_comm]), ?_⟩
  have hbuild : ∀ xs, canonical xs = xs → xs.length ≤ 2 → build P 1 xs = .ok (sparse P 1 xs) :=
    fun xs hxs hroom =>
      (build_eq_ok_iff P).mpr ⟨by decide, by rwa [hxs], by rw [hxs]⟩
  have hnone := hbuild [] (canonical_eq .nil fun _ => .rfl) (by decide)
  have hzero := hbuild [0] (canonical_eq (List.pairwise_singleton ..) fun _ => .rfl) (by decide)
  have hleaves : (([] : List Scalar).getD · emptyLeaf) = ([0].getD · emptyLeaf) := by
    funext i
    cases i <;> rfl
  have hroot : (sparse P 1 []).root = (sparse P 1 [0]).root := by
    rw [root_sparse, root_sparse, hleaves]
  exact ⟨_, _, hnone, hzero, hroot, (root_determines P 1 _ _).2 _ _ hnone hzero hroot⟩

end Tree

end Attest.Merkle
