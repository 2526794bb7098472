import Attest.Proofs.Merkle.Binding

/-! One position, one proof, whatever the root.

The root need not be any tree's. Two paths with the same sides that fold to the same node are
followed together: at each height both hash the same pair, and then they came by the same node and
sibling, or they hash two different pairs to one node (`fold_eq_or_collision`). A proof that is
accepted has a sibling for each of its sides, so nothing of it is left out of the fold, and two
accepted proofs with the same sides are one proof (`InclusionProof.verify_unique`). -/
namespace Attest.Merkle

variable (P : Poseidon.Params)

theorem sides_injective {a b s t : Scalar} {isRight : Bool}
    (h : sides a s isRight = sides b t isRight) : a = b ∧ s = t := by
  cases isRight with
  | false => exact ⟨congrArg Prod.fst h, congrArg Prod.snd h⟩
  | true => exact ⟨congrArg Prod.snd h, congrArg Prod.fst h⟩

/-- Two paths with the same sides that fold to the same node are one path from one node, or at some
height they hash different pairs to the same node. -/
theorem fold_eq_or_collision (xs ys : List (Scalar × Bool)) (a b : Scalar)
    (hsides : xs.map Prod.snd = ys.map Prod.snd)
    (h : xs.foldl (fun n step => parent P n step.1 step.2) a =
      ys.foldl (fun n step => parent P n step.1 step.2) b) :
    (a = b ∧ xs = ys) ∨
      ∃ pair ∈ (foldedPairs P a xs).zip (foldedPairs P b ys), Collision P pair.1 pair.2 := by
  induction xs generalizing ys a b with
  | nil =>
    obtain rfl := List.map_eq_nil_iff.mp hsides.symm
    exact .inl ⟨h, rfl⟩
  | cons x xs ih =>
    obtain ⟨s, isRight⟩ := x
    obtain ⟨⟨t, side⟩, ys, rfl, hside, hrest⟩ := List.map_eq_cons_iff.mp hsides.symm
    obtain rfl : side = isRight := hside
    rw [List.foldl_cons, List.foldl_cons] at h
    rw [foldedPairs, foldedPairs, List.zip_cons_cons]
    rcases ih ys _ _ hrest.symm h with ⟨hparents, rfl⟩ | ⟨pair, hpair, hcollision⟩
    · -- Above this height the paths are one; here the pairs decide.
      by_cases hsame : sides a s side = sides b t side
      · obtain ⟨rfl, rfl⟩ := sides_injective hsame
        exact .inl ⟨rfl, rfl⟩
      · rw [parent_eq, parent_eq] at hparents
        exact .inr ⟨_, List.mem_cons_self, hsame, hparents⟩
    · exact .inr ⟨pair, List.mem_cons_of_mem _ hpair, hcollision⟩

namespace InclusionProof
variable {p q : InclusionProof} {root : Scalar} {depth : Nat}

/-- Proofs with the same sides and a sibling for each that fold to the same root are one, or hash
different pairs to the same node at some height. -/
theorem eq_or_collision (hp : p.siblings.length = p.pathBits.length)
    (hq : q.siblings.length = q.pathBits.length) (hbits : p.pathBits = q.pathBits)
    (hroot : p.computeRoot P = q.computeRoot P) :
    p = q ∨ ∃ pair ∈ (p.pairs P).zip (q.pairs P), Collision P pair.1 pair.2 := by
  have hsides :
      (p.siblings.zip p.pathBits).map Prod.snd = (q.siblings.zip q.pathBits).map Prod.snd := by
    rw [List.map_snd_zip hp.ge, List.map_snd_zip hq.ge, hbits]
  refine (fold_eq_or_collision P _ _ _ _ hsides hroot).imp_left ?_
  rintro ⟨hleaf, hzip⟩
  have hsiblings := congrArg (List.map Prod.fst) hzip
  rw [List.map_fst_zip hp.le, List.map_fst_zip hq.le] at hsiblings
  cases p
  cases q
  subst hleaf hbits hsiblings
  rfl

/-- **Under one root there is one proof for a position.** Two proofs with the same sides that are
accepted for a root and a depth have the same leaf and the same siblings — or, followed together,
they hash different pairs to the same node at some height. -/
theorem verify_unique (hp : p.verify P root depth = true) (hq : q.verify P root depth = true)
    (hbits : p.pathBits = q.pathBits) :
    p = q ∨ ∃ pair ∈ (p.pairs P).zip (q.pairs P), Collision P pair.1 pair.2 := by
  obtain ⟨hpsiblings, hpbits, hproot⟩ := (verify_iff P).mp hp
  obtain ⟨hqsiblings, hqbits, hqroot⟩ := (verify_iff P).mp hq
  exact eq_or_collision P (hpsiblings.trans hpbits.symm) (hqsiblings.trans hqbits.symm) hbits
    (hproot.trans hqroot.symm)

/-- Without rounds a hash forgets its first input: two siblings of one leaf are accepted for one
root, and the pairs that they make collide. -/
theorem verify_unique_roundless :
    ∃ P : Poseidon.Params, ∃ p q : InclusionProof,
      p.verify P (.ofNat 7) 1 = true ∧ q.verify P (.ofNat 7) 1 = true ∧ p.pathBits = q.pathBits ∧
        p ≠ q ∧ ∃ pair ∈ (p.pairs P).zip (q.pairs P), Collision P pair.1 pair.2 := by
  let P : Poseidon.Params := ⟨0, 0, [], ⟨.zero, .zero, .zero⟩⟩
  have hp : InclusionProof.verify P (.ofNat 7) 1 ⟨.ofNat 5, [.ofNat 3], [true]⟩ = true := by decide
  have hq : InclusionProof.verify P (.ofNat 7) 1 ⟨.ofNat 5, [.ofNat 4], [true]⟩ = true := by decide
  have hne : (⟨.ofNat 5, [.ofNat 3], [true]⟩ : InclusionProof) ≠
      ⟨.ofNat 5, [.ofNat 4], [true]⟩ := by decide
  exact ⟨P, _, _, hp, hq, rfl, hne, (verify_unique P hp hq rfl).resolve_left hne⟩

end InclusionProof

end Attest.Merkle
