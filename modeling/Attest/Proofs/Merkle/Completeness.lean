import Mathlib.Data.Nat.Bitwise
import Attest.Proofs.Merkle.Binding

/-! Every leaf of a tree has a proof, and the proof is accepted.

Halving an ascending list ends at the place of whatever is in it
(`locate?_eq_some_iff`), and that place is how many elements are smaller
(`countP_lt_eq`). The path up from a place takes the node beside it at each height;
as those are nodes of the perfect tree, folding the path goes from node to node of
that tree and ends at the root (`fold_path`). Both together prove a leaf exactly when
it was given. -/
namespace Attest.Merkle

/-! ### The place of a leaf -/

section
variable {xs : List Scalar} {x : Scalar} {k : Nat}

/-- Halving keeps the place of an element among the positions that are left. -/
theorem halve_eq (h : xs.Pairwise (· < ·)) (hk : xs[k]? = some x) {base size : Nat}
    (hbase : base ≤ k) (hsize : k < base + size) (hfit : base + size ≤ xs.length) :
    halve xs x base size = k := by
  fun_induction halve xs x base size with
  | case1 base size hone => omega
  | case2 base size hmany middle ih =>
    have hmiddle : middle = base + size / 2 := rfl
    have hhalf := lt_getD_iff h hk (i := middle) (by omega)
    by_cases hlt : x < xs.getD middle emptyLeaf
    · have hk := hhalf.mp hlt
      rw [dif_pos hlt] at ih
      rw [if_pos hlt]
      exact ih hbase (by omega) (by omega)
    · have hk := mt hhalf.mpr hlt
      rw [dif_neg hlt] at ih
      rw [if_neg hlt]
      exact ih (by omega) (by omega) (by omega)

/-- In an ascending list, halving finds every element, and nothing else. -/
theorem locate?_eq_some_iff (h : xs.Pairwise (· < ·)) :
    locate? xs x = some k ↔ xs[k]? = some x := by
  constructor
  · intro hfound
    simp only [locate?] at hfound
    split at hfound
    · next hx => rwa [Option.some.inj hfound] at hx
    · cases hfound
  · intro hk
    have hklen := (List.getElem?_eq_some_iff.mp hk).1
    have hhalve : halve xs x 0 xs.length = k := halve_eq h hk (Nat.zero_le k) (by omega) (by omega)
    rw [locate?, hhalve, if_pos hk]

/-- An element's place in an ascending list is the number of those below it. -/
theorem countP_lt_eq (h : xs.Pairwise (· < ·)) (hk : xs[k]? = some x) :
    xs.countP (· < x) = k := by
  induction xs generalizing k with
  | nil => simp at hk
  | cons y ys ih =>
    obtain ⟨hy, hys⟩ := List.pairwise_cons.mp h
    cases k with
    | zero =>
      obtain rfl : y = x := Option.some.inj hk
      refine List.countP_eq_zero.mpr fun z hz => ?_
      rw [decide_eq_true_eq]
      rcases List.mem_cons.mp hz with rfl | hz
      · exact Nat.lt_irrefl _
      · exact Nat.lt_asymm (hy z hz)
    | succ k =>
      have hyx : y < x := hy x (List.mem_of_getElem? hk)
      rw [List.countP_cons, ih hys hk, if_pos (by simpa using hyx)]

end

/-! ### The path up -/

/-- A node joined with the one beside it, on the side that its position says, is the node above. -/
theorem parent_beside (P : Poseidon.Params) (leaf : Nat → Scalar) (height index : Nat) :
    parent P (perfectNode P leaf height index) (perfectNode P leaf height (index ^^^ 1))
      (index % 2 == 1) = perfectNode P leaf (height + 1) (index / 2) := by
  obtain ⟨k, rfl | rfl⟩ := Nat.even_or_odd' index
  · have hside : (2 * k % 2 == 1) = false := by simp
    rw [Nat.xor_one_of_even (even_two_mul k), hside, Nat.mul_div_cancel_left k Nat.two_pos]
    rfl
  · have hside : ((2 * k + 1) % 2 == 1) = true := by simp [Nat.add_mod]
    have hhalf : (2 * k + 1) / 2 = k := by omega
    rw [Nat.xor_one_of_odd (odd_two_mul_add_one k), hside, hhalf, Nat.add_sub_cancel]
    rfl

namespace Tree

theorem length_path (t : Tree) (height index n : Nat) : (t.path height index n).length = n := by
  induction n generalizing height index with
  | zero => rfl
  | succ n ih => rw [path, List.length_cons, ih]

/-- The sides on the way up are the position's binary digits. -/
theorem map_snd_path (t : Tree) (height index n : Nat) :
    (t.path height index n).map Prod.snd = (List.range n).map index.testBit := by
  induction n generalizing height index with
  | zero => rfl
  | succ n ih =>
    rw [path, List.map_cons, ih, List.range_succ_eq_map, List.map_cons, List.map_map,
      Nat.testBit_zero]
    refine congrArg₂ List.cons rfl (List.map_congr_left fun i _ => ?_)
    exact (Nat.testBit_succ index i).symm

/-- Folding the path goes from node to node: it ends at the node above the one it starts from. -/
theorem fold_path {P : Poseidon.Params} {leaf : Nat → Scalar} {t : Tree} (height index n : Nat)
    (hnode : ∀ h < height + n, ∀ i, t.node h i = perfectNode P leaf h i) :
    (t.path height index n).foldl (fun node step => parent P node step.1 step.2)
      (perfectNode P leaf height index) = perfectNode P leaf (height + n) (index / 2 ^ n) := by
  induction n generalizing height index with
  | zero => rw [path, List.foldl_nil, Nat.pow_zero, Nat.div_one, Nat.add_zero]
  | succ n ih =>
    have habove := ih (height + 1) (index / 2) fun h hh => hnode h (by omega)
    rw [path, List.foldl_cons, hnode height (by omega), parent_beside, habove, Nat.add_right_comm,
      Nat.div_div_eq_div_mul, ← Nat.pow_succ', Nat.add_assoc]

/-! ### Proving -/

theorem prove_eq_ok {t : Tree} {leaf : Scalar} {k : Nat} (h : t.position? leaf = some k) :
    t.prove leaf = .ok
      ⟨leaf, (t.path 0 k t.depth).map Prod.fst, (t.path 0 k t.depth).map Prod.snd⟩ := by
  rw [prove, h]

theorem prove_eq_notFound {t : Tree} {leaf : Scalar} (h : t.position? leaf = none) :
    t.prove leaf = .error .notFound := by
  rw [prove, h]

variable {P : Poseidon.Params} {depth : Nat} {leaves : List Scalar} {t : Tree}

/-- A place among the leaves is the number of given leaves below. -/
theorem card_filter_lt_eq (ht : build P depth leaves = .ok t) {leaf : Scalar} {k : Nat}
    (hk : t.leaves[k]? = some leaf) : (leaves.toFinset.filter (· < leaf)).card = k := by
  obtain ⟨-, -, rfl⟩ := (build_eq_ok_iff P).mp ht
  rw [leaves_sparse] at hk
  have hascending := canonical_ascending leaves
  have hfilter : leaves.toFinset.filter (· < leaf) =
      ((canonical leaves).filter (· < leaf)).toFinset := by
    rw [List.toFinset_filter, toFinset_canonical]
    simp
  rw [hfilter, List.toFinset_card_of_nodup (hascending.nodup.filter _),
    ← List.countP_eq_length_filter, countP_lt_eq hascending hk]

/-- The path up from a leaf's place spells the place. -/
theorem index_path (hdepth : t.depth ≤ maxDepth) {leaf : Scalar} {k : Nat} (hk : k < 2 ^ t.depth) :
    InclusionProof.index
      ⟨leaf, (t.path 0 k t.depth).map Prod.fst, (t.path 0 k t.depth).map Prod.snd⟩ = k := by
  have hbits : ((t.path 0 k t.depth).map Prod.snd).length ≤ 64 := by
    rw [List.length_map, length_path]
    exact hdepth.trans (by decide)
  rw [InclusionProof.index_eq hbits, map_snd_path, lowestFirst_digits]
  exact Nat.mod_eq_of_lt hk

/-- The path up from a leaf's place is accepted as a proof of the leaf. -/
theorem verify_path (ht : build P depth leaves = .ok t) {leaf : Scalar} {k : Nat}
    (hk : t.leaves[k]? = some leaf) :
    InclusionProof.verify P t.root t.depth
      ⟨leaf, (t.path 0 k t.depth).map Prod.fst, (t.path 0 k t.depth).map Prod.snd⟩ = true := by
  obtain ⟨-, hroom, rfl⟩ := (build_eq_ok_iff P).mp ht
  rw [leaves_sparse] at hk
  obtain ⟨hklen, hleaf⟩ := List.getElem?_eq_some_iff.mp hk
  have hstart : perfectNode P ((canonical leaves).getD · emptyLeaf) 0 k = leaf := by
    rw [perfectNode, List.getD_eq_getElem _ _ hklen, hleaf]
  have hfold := fold_path 0 k depth fun h hh i =>
    node_sparse P (show h ≤ depth by omega) (canonical leaves) i
  rw [hstart, Nat.div_eq_of_lt (by omega), Nat.zero_add] at hfold
  refine (InclusionProof.verify_iff P).mpr ⟨?_, ?_, ?_⟩
  · rw [List.length_map, length_path]
  · rw [List.length_map, length_path]
  · rw [InclusionProof.computeRoot, ← List.zip_of_prod rfl rfl]
    exact hfold.trans (root_sparse P depth _).symm

/-- A leaf that was given has a proof that is accepted. -/
theorem exists_prove (ht : build P depth leaves = .ok t) {leaf : Scalar} (h : leaf ∈ leaves) :
    ∃ proof, t.prove leaf = .ok proof ∧ proof.leaf = leaf ∧
      proof.verify P t.root depth = true := by
  have hpadded := isPadded_of_build P ht
  obtain ⟨k, hk⟩ := List.mem_iff_getElem?.mp ((hpadded.mem leaf).mpr h)
  have hverify := verify_path ht hk
  rw [hpadded.depth_eq] at hverify
  rw [prove_eq_ok ((locate?_eq_some_iff hpadded.ascending).mpr hk), hpadded.depth_eq]
  exact ⟨_, rfl, rfl, hverify⟩

/-- A leaf that was not given has none. -/
theorem prove_absent (ht : build P depth leaves = .ok t) {leaf : Scalar} (h : leaf ∉ leaves) :
    t.prove leaf = .error .notFound := by
  have hpadded := isPadded_of_build P ht
  refine prove_eq_notFound (Option.eq_none_iff_forall_ne_some.mpr fun k hk => ?_)
  have hplace := (locate?_eq_some_iff hpadded.ascending).mp hk
  exact h ((hpadded.mem leaf).mp (List.mem_of_getElem? hplace))

/-- **A leaf is proved exactly when it was given.** Its proof has one sibling and one side for each
height, names the number of distinct given leaves below it, and is accepted; of any other leaf it is
said that it is not there. -/
theorem prove_complete (ht : build P depth leaves = .ok t) (leaf : Scalar) :
    ((∃ proof, t.prove leaf = .ok proof) ↔ leaf ∈ leaves) ∧
      (t.contains leaf = true ↔ leaf ∈ leaves) ∧
      (leaf ∉ leaves → t.prove leaf = .error .notFound) ∧
      ∀ proof, t.prove leaf = .ok proof →
        proof.leaf = leaf ∧ proof.siblings.length = depth ∧ proof.pathBits.length = depth ∧
          proof.index = (leaves.toFinset.filter (· < leaf)).card ∧
          proof.verify P t.root t.depth = true := by
  have hpadded := isPadded_of_build P ht
  have hposition : ∀ k, t.position? leaf = some k ↔ t.leaves[k]? = some leaf := fun k =>
    locate?_eq_some_iff hpadded.ascending
  cases hfound : t.position? leaf with
  | none =>
    have habsent : leaf ∉ leaves := by
      rw [← hpadded.mem, List.mem_iff_getElem?]
      rintro ⟨k, hk⟩
      rw [(hposition k).mpr hk] at hfound
      cases hfound
    simp [contains, hfound, prove_eq_notFound hfound, habsent]
  | some k =>
    have hk := (hposition k).mp hfound
    have hpresent : leaf ∈ leaves := (hpadded.mem leaf).mp (List.mem_of_getElem? hk)
    rw [prove_eq_ok hfound]
    refine ⟨iff_of_true ⟨_, rfl⟩ hpresent, iff_of_true (by rw [contains, hfound]; rfl) hpresent,
      fun habsent => absurd hpresent habsent, ?_⟩
    rintro _ ⟨⟩
    obtain ⟨⟨-, hdepth⟩, -⟩ := (build_eq_ok_iff P).mp ht
    obtain rfl := hpadded.depth_eq
    have hroom : k < 2 ^ t.depth :=
      Nat.lt_of_lt_of_le (List.getElem?_eq_some_iff.mp hk).1 (length_leaves_le P ht)
    refine ⟨rfl, ?_, ?_, ?_, verify_path ht hk⟩
    · rw [List.length_map, length_path]
    · rw [List.length_map, length_path]
    · rw [index_path hdepth hroom, card_filter_lt_eq ht hk]

/-- Of three leaves out of order and repeated, the largest; and one that was not given. -/
theorem prove_complete_largest :
    ∃ t, build Poseidon.standard 2 [.ofNat 9, .ofNat 3, .ofNat 9, .ofNat 5] = .ok t ∧
      (∃ proof, t.prove (.ofNat 9) = .ok proof ∧ proof.index = 2 ∧
        proof.verify Poseidon.standard t.root t.depth = true) ∧
      t.prove (.ofNat 4) = .error .notFound := by
  generalize Poseidon.standard = P
  obtain ⟨t, ht⟩ : ∃ t, build P 2 [.ofNat 9, .ofNat 3, .ofNat 9, .ofNat 5] = .ok t :=
    exists_build P (by decide) (by decide)
  obtain ⟨hproved, -, -, hproof⟩ := prove_complete ht (.ofNat 9)
  obtain ⟨proof, hprove⟩ := hproved.mpr (by decide)
  obtain ⟨-, -, -, hindex, hverify⟩ := hproof proof hprove
  refine ⟨t, ht, ⟨proof, hprove, hindex.trans (by decide), hverify⟩, ?_⟩
  exact (prove_complete ht (.ofNat 4)).2.2.1 (by decide)

end Tree

end Attest.Merkle
