import Mathlib.GroupTheory.Perm.Cycle.Type
import Attest.Proofs.Curve.Group

/-! How many elements the groups of points have.

A coordinate `x` has at most two points, so there are at most one more than twice as many elements
as coordinates (`Group.card_le`); and their number is odd, because no point is its own negation
(`Group.not_two_dvd_card`). So an element whose order is more than a third of the bound has all
others as its multiples (`Group.exists_nsmul_eq`). The first generator is one, and its order is
the order of the curve's groups: every point of the first curve is in the group of that order
(`G1.order_nsmul`). -/
namespace Attest.Bn254

variable {F : Type} [CurveField F]

namespace Group

/-- A root of the right side of the equation, where there is one. -/
noncomputable def root (x : F) : F := Classical.epsilon fun y => y * y = Point.rightSide x

/-- An element by its `x` and by which of two roots its `y` is. -/
noncomputable def code : Group F → Option (F × Bool)
  | .zero => none
  | .some x y _ => some (x, decide (y = root x))

theorem code_injective : Function.Injective (code : Group F → Option (F × Bool)) := by
  rintro (_ | ⟨x, y, h⟩) (_ | ⟨x', y', h'⟩) heq
  · rfl
  · exact nomatch heq
  · exact nomatch heq
  · simp only [code, Option.some.injEq, Prod.mk.injEq, decide_eq_decide] at heq
    obtain ⟨rfl, hroot⟩ := heq
    have hy := nonsingular_iff.mp h
    have hy' := nonsingular_iff.mp h'
    have hr : root x * root x = Point.rightSide x :=
      Classical.epsilon_spec (p := fun y => y * y = Point.rightSide x) ⟨y, hy⟩
    -- two roots of one square are opposite, and the code says which of them is meant
    have hsame : y = y' := by
      by_cases hyr : y = root x
      · rw [hyr, hroot.mp hyr]
      · rw [(mul_self_eq_mul_self_iff.mp (hy.trans hr.symm)).resolve_left hyr,
          (mul_self_eq_mul_self_iff.mp (hy'.trans hr.symm)).resolve_left (mt hroot.mpr hyr)]
    subst hsame
    rfl

instance : Finite (Group F) := Finite.of_injective code code_injective

theorem card_le : Nat.card (Group F) ≤ 2 * Nat.card F + 1 := by
  refine (Nat.card_le_card_of_injective code code_injective).trans_eq ?_
  rw [Finite.card_option, Nat.card_prod, Nat.card_eq_fintype_card (α := Bool), Fintype.card_bool,
    mul_comm]

theorem add_self_ne_zero {P : Group F} (h : P ≠ 0) : P + P ≠ 0 := by
  cases P with
  | zero => exact absurd rfl h
  | some x y hP =>
    obtain ⟨_, htangent⟩ := exists_tangent hP
    obtain ⟨_, heq⟩ := add_self_of_tangent hP htangent
    rw [heq]
    exact nofun

theorem not_two_dvd_card : ¬2 ∣ Nat.card (Group F) := by
  intro h
  obtain ⟨P, hP⟩ := exists_prime_addOrderOf_dvd_card' 2 h
  have hne : P ≠ 0 := by
    rintro rfl
    rw [addOrderOf_zero] at hP
    exact absurd hP (by decide)
  exact add_self_ne_zero hne (by rw [← two_nsmul, ← hP, addOrderOf_nsmul_eq_zero])

/-- An element of large order has all others as its multiples. -/
theorem exists_nsmul_eq {g : Group F} (h : 2 * Nat.card F + 1 < 3 * addOrderOf g) (P : Group F) :
    ∃ n : Nat, n • g = P := by
  obtain ⟨m, hm⟩ := addOrderOf_dvd_natCard g
  have hcard : Nat.card (Group F) < addOrderOf g * 3 :=
    mul_comm (addOrderOf g) 3 ▸ card_le.trans_lt h
  have hlt : m < 3 := Nat.lt_of_mul_lt_mul_left (hm ▸ hcard)
  -- the index of the multiples is below three, and odd
  have hone : m = 1 := by
    have hpos : 0 < Nat.card (Group F) := Nat.card_pos
    have hodd := not_two_dvd_card (F := F)
    rw [hm] at hpos hodd
    interval_cases m
    · omega
    · rfl
    · exact absurd (Dvd.intro_left _ rfl) hodd
  have htop : AddSubgroup.zmultiples g = ⊤ :=
    AddSubgroup.eq_top_of_card_eq _ (by rw [Nat.card_zmultiples, hm, hone, mul_one])
  have hmem : P ∈ AddSubgroup.zmultiples g := htop ▸ AddSubgroup.mem_top P
  exact mem_multiples_iff_mem_zmultiples.mpr hmem

end Group

/-! ### The first group -/

/-- An element of prime order, as a computation finds it. -/
theorem Group.addOrderOf_eq {p : Nat} (hp : p.Prime) {P : Group F}
    (h : (P.toPoint.mul p).z = 0) (hne : P.toPoint ≠ .infinity) : addOrderOf P = p := by
  have : Fact p.Prime := ⟨hp⟩
  refine addOrderOf_eq_prime ((nsmul_eq_zero_iff P).mpr h) ?_
  rintro rfl
  exact hne rfl

namespace G1

theorem generator_onCurve : G1.generator.OnCurve := by
  have h : (Residue.ofNat 2 * Residue.ofNat 2 : Base) = Point.rightSide 1 := by decide
  exact h

/-- The generator, as an element. -/
def element : Group Base := .some _ _ (nonsingular_iff.mpr generator_onCurve)

theorem addOrderOf_element : addOrderOf element = order :=
  Group.addOrderOf_eq order_prime (by decide +kernel) nofun

/-- **Every point of the first curve is in the group of prime order.** -/
theorem order_nsmul (P : Group Base) : order • P = 0 := by
  have hlarge : 2 * Nat.card Base + 1 < 3 * addOrderOf element := by
    rw [addOrderOf_element, Residue.card_eq]
    decide
  obtain ⟨n, rfl⟩ := Group.exists_nsmul_eq hlarge P
  rw [smul_smul, mul_comm, ← smul_smul, ← addOrderOf_element, addOrderOf_nsmul_eq_zero, smul_zero]

end G1

end Attest.Bn254
