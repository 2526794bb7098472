import Mathlib.Data.Finset.Card
import Mathlib.Data.List.GetD
import Mathlib.Data.List.Sort
import Attest.Merkle.Tree

/-! The canonical order of leaves.

Sorting and then dropping repeats leaves a strictly ascending list with the given
elements (`canonical_ascending`, `mem_canonical`). There is only one such list
(`canonical_eq`), and its length is the number of distinct leaves
(`length_canonical`). -/
namespace Attest.Merkle

/-! ### Dropping repeats -/

theorem mem_dedupSorted {x : Scalar} (xs : List Scalar) : x ∈ dedupSorted xs ↔ x ∈ xs := by
  fun_induction dedupSorted xs with
  | case1 a rest ih => simp [ih]
  | case2 a b rest _ ih => simp only [List.mem_cons, ih]
  | case3 rest _ => rfl

/-- Of a list in order, each element that is kept is below those after it. -/
theorem dedupSorted_ascending {xs : List Scalar} (h : xs.Pairwise (· ≤ ·)) :
    (dedupSorted xs).Pairwise (· < ·) := by
  fun_induction dedupSorted xs with
  | case1 a rest ih => exact ih h.of_cons
  | case2 a b rest hne ih =>
    refine List.pairwise_cons.mpr ⟨fun x hx => ?_, ih h.of_cons⟩
    have hab : a.val < b.val :=
      Nat.lt_of_le_of_ne (List.rel_of_pairwise_cons h List.mem_cons_self)
        fun he => hne (Residue.ext he)
    rcases List.mem_cons.mp ((mem_dedupSorted _).mp hx) with rfl | hx
    · exact hab
    · exact Nat.lt_of_lt_of_le hab (List.rel_of_pairwise_cons h.of_cons hx)
  | case3 rest hshort =>
    match rest with
    | [] => exact .nil
    | [a] => exact List.pairwise_singleton _ a
    | a :: b :: rest => exact absurd rfl (hshort a b rest)

/-! ### The canonical list -/

theorem mem_canonical {x : Scalar} (leaves : List Scalar) : x ∈ canonical leaves ↔ x ∈ leaves := by
  rw [canonical, mem_dedupSorted, List.mem_mergeSort]

/-- Sorting puts the leaves in order. -/
theorem pairwise_mergeSort_le (leaves : List Scalar) :
    (leaves.mergeSort fun a b => decide (a ≤ b)).Pairwise (· ≤ ·) := by
  have hsorted : (leaves.mergeSort fun a b => decide (a ≤ b)).Pairwise
      (fun a b => decide (a ≤ b) = true) := by
    apply List.pairwise_mergeSort
    · intro a b c hab hbc
      simp only [decide_eq_true_eq, Residue.le_def] at hab hbc ⊢
      exact Nat.le_trans hab hbc
    · intro a b
      simp only [Bool.or_eq_true, decide_eq_true_eq, Residue.le_def]
      exact Nat.le_total a.val b.val
  exact hsorted.imp of_decide_eq_true

theorem canonical_ascending (leaves : List Scalar) : (canonical leaves).Pairwise (· < ·) :=
  dedupSorted_ascending (pairwise_mergeSort_le leaves)

instance : Std.Irrefl (α := Scalar) (· < ·) := ⟨fun a => Nat.lt_irrefl a.val⟩

instance : Std.Asymm (α := Scalar) (· < ·) := ⟨fun _ _ => Nat.lt_asymm⟩

/-- The ascending list of what was given is the canonical one. -/
theorem canonical_eq {leaves xs : List Scalar} (h : xs.Pairwise (· < ·))
    (hmem : ∀ x, x ∈ xs ↔ x ∈ leaves) : canonical leaves = xs :=
  (canonical_ascending leaves).eq_of_mem_iff h fun x =>
    (mem_canonical leaves).trans (hmem x).symm

theorem mem_iff_of_canonical_eq {leaves xs : List Scalar} (h : canonical leaves = xs) (x : Scalar) :
    x ∈ leaves ↔ x ∈ xs := by
  rw [← h, mem_canonical]

theorem eq_nil_of_canonical_eq {leaves : List Scalar} (h : canonical leaves = []) : leaves = [] :=
  List.eq_nil_iff_forall_not_mem.mpr fun x hx =>
    List.not_mem_nil ((mem_iff_of_canonical_eq h x).mp hx)

theorem toFinset_canonical (leaves : List Scalar) :
    (canonical leaves).toFinset = leaves.toFinset := by
  ext x
  rw [List.mem_toFinset, List.mem_toFinset, mem_canonical]

/-- The canonical list is as long as the leaves are many. -/
theorem length_canonical (leaves : List Scalar) :
    (canonical leaves).length = leaves.toFinset.card := by
  rw [← toFinset_canonical, List.toFinset_card_of_nodup (canonical_ascending leaves).nodup]

/-! ### Ascending lists -/

/-- What stands above an element of an ascending list stands after it. -/
theorem lt_getD_iff {xs : List Scalar} {x : Scalar} {k i : Nat} (h : xs.Pairwise (· < ·))
    (hk : xs[k]? = some x) (hi : i < xs.length) : x < xs.getD i emptyLeaf ↔ k < i := by
  obtain ⟨hklen, rfl⟩ := List.getElem?_eq_some_iff.mp hk
  rw [List.getD_eq_getElem _ _ hi]
  have hordered := List.pairwise_iff_getElem.mp h
  constructor
  · intro hlt
    by_contra hle
    rcases Nat.lt_or_eq_of_le (Nat.le_of_not_lt hle) with hik | rfl
    · exact Nat.lt_asymm hlt (hordered i k hi hklen hik)
    · exact Nat.lt_irrefl _ hlt
  · exact hordered k i hklen hi

/-- Nothing in an ascending list but its first element is zero. -/
theorem getD_eq_zero {xs : List Scalar} {i : Nat} (h : xs.Pairwise (· < ·)) (hi : i < xs.length)
    (hzero : xs.getD i emptyLeaf = 0) : i = 0 := by
  by_contra hne
  have hfirst : xs[0]? = some xs[0] := List.getElem?_eq_getElem (by omega)
  have hlt := (lt_getD_iff h hfirst hi).mpr (Nat.pos_of_ne_zero hne)
  rw [hzero] at hlt
  exact Nat.not_lt_zero _ hlt

end Attest.Merkle
