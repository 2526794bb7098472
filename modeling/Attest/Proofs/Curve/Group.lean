import Mathlib.AlgebraicGeometry.EllipticCurve.Affine.Point
import Attest.Proofs.Curve.Field

/-! Triples compute in the group of the curve.

The points of a curve are a group by chords and tangents (`Group`), whose elements are written as
points (`Group.toPoint`). A triple stands for an element (`Jacobian.StandsFor`); doubling, adding
and multiplying triples does so for the elements (`StandsFor.double`, `StandsFor.add`,
`StandsFor.addPoint`, `standsFor_mul`), and comparing them too (`StandsFor.same_iff`). -/
namespace Attest.Bn254

section
variable (F : Type) [CurveField F]

/-- The curve `y² = x³ + b`. -/
def curve : WeierstrassCurve.Affine F := ⟨0, 0, 0, 0, Curve.b⟩

/-- The points of the curve, with their group law. -/
abbrev Group := (curve F).Point

end

variable {F : Type} [CurveField F] {x y : F}

theorem negY_eq (x y : F) : (curve F).negY x y = -y := by
  simp [WeierstrassCurve.Affine.negY, curve]

theorem equation_iff : (curve F).Equation x y ↔ y * y = Point.rightSide x := by
  rw [WeierstrassCurve.Affine.equation_iff, Point.rightSide, pow_two, pow_three']
  simp [curve]

/-- No point has `y = 0`. -/
theorem y_ne_zero (h : y * y = Point.rightSide x) : y ≠ 0 := by
  rintro rfl
  exact CurveField.rootless x (h.symm.trans (mul_zero 0))

theorem two_mul_ne_zero (h : y ≠ 0) : 2 * y ≠ 0 := mul_ne_zero CurveField.two_ne_zero h

theorem ne_neg (h : y ≠ 0) : y ≠ -y := fun heq =>
  two_mul_ne_zero h (by linear_combination heq)

theorem nonsingular_iff : (curve F).Nonsingular x y ↔ y * y = Point.rightSide x := by
  rw [WeierstrassCurve.Affine.nonsingular_iff', equation_iff, and_iff_left_iff_imp]
  exact fun h => .inr (by simpa [curve] using two_mul_ne_zero (y_ne_zero h))

/-! ### Elements and points -/

/-- An element of the group, as a point. -/
def Group.toPoint : Group F → Point F
  | .zero => .infinity
  | .some x y _ => .affine x y

theorem Group.toPoint_injective : Function.Injective (toPoint : Group F → Point F) := by
  rintro (_ | ⟨x, y, _⟩) (_ | ⟨x', y', _⟩) h
  · rfl
  · exact nomatch h
  · exact nomatch h
  · obtain ⟨rfl, rfl⟩ := Point.affine.inj h
    rfl

theorem Group.toPoint_onCurve (P : Group F) : P.toPoint.OnCurve := by
  cases P with
  | zero => trivial
  | some x y h => exact nonsingular_iff.mp h

/-- Every point of the curve is an element of the group. -/
theorem Point.OnCurve.exists_toPoint {p : Point F} (h : p.OnCurve) :
    ∃ P : Group F, P.toPoint = p := by
  cases p with
  | infinity => exact ⟨.zero, rfl⟩
  | affine x y => exact ⟨.some x y (nonsingular_iff.mpr h), rfl⟩

/-! ### Sums by coordinates -/

namespace Group
variable {x₁ y₁ x₂ y₂ ℓ : F} {h₁ : (curve F).Nonsingular x₁ y₁} {h₂ : (curve F).Nonsingular x₂ y₂}

theorem addX_eq (x₁ x₂ ℓ : F) : (curve F).addX x₁ x₂ ℓ = ℓ * ℓ - x₁ - x₂ := by
  simp [WeierstrassCurve.Affine.addX, curve, pow_two]

theorem addY_eq (x₁ x₂ y₁ ℓ : F) :
    (curve F).addY x₁ x₂ y₁ ℓ = ℓ * (x₁ - (ℓ * ℓ - x₁ - x₂)) - y₁ := by
  rw [WeierstrassCurve.Affine.addY, negY_eq, WeierstrassCurve.Affine.negAddY, addX_eq]
  ring

/-- The tangent at a point has a slope, since no point has `y = 0`. -/
theorem exists_tangent (h : (curve F).Nonsingular x₁ y₁) : ∃ ℓ, 2 * y₁ * ℓ = 3 * x₁ * x₁ :=
  ⟨_, mul_div_cancel₀ _ (two_mul_ne_zero (y_ne_zero (nonsingular_iff.mp h)))⟩

/-- So has the chord through two points with different `x`. -/
theorem exists_chord (h : x₁ ≠ x₂) (y₁ y₂ : F) : ∃ ℓ, (x₂ - x₁) * ℓ = y₂ - y₁ :=
  ⟨_, mul_div_cancel₀ _ (sub_ne_zero.mpr h.symm)⟩

/-- An element is known by its coordinates. -/
theorem exists_some_eq (hx : x₁ = x₂) (hy : y₁ = y₂) :
    ∃ h, .some x₁ y₁ h₁ = (.some x₂ y₂ h : Group F) := by
  subst hx hy
  exact ⟨h₁, rfl⟩

variable (h₁ h₂) in
/-- The chord through two points meets the curve a third time opposite to their sum. -/
theorem add_of_chord (hne : x₁ ≠ x₂) (hℓ : (x₂ - x₁) * ℓ = y₂ - y₁) : ∃ h, .some x₁ y₁ h₁ +
    .some x₂ y₂ h₂ = (.some (ℓ * ℓ - x₁ - x₂) (ℓ * (x₁ - (ℓ * ℓ - x₁ - x₂)) - y₁) h : Group F) := by
  have hslope : (curve F).slope x₁ x₂ y₁ y₂ = ℓ := by
    rw [WeierstrassCurve.Affine.slope_of_X_ne hne, div_eq_iff (sub_ne_zero_of_ne hne)]
    linear_combination hℓ
  rw [WeierstrassCurve.Affine.Point.add_of_X_ne hne]
  exact exists_some_eq (by rw [hslope, addX_eq]) (by rw [hslope, addY_eq])

variable (h₁) in
/-- The tangent at a point meets the curve again opposite to the point's double. -/
theorem add_self_of_tangent (hℓ : 2 * y₁ * ℓ = 3 * x₁ * x₁) : ∃ h, .some x₁ y₁ h₁ +
    .some x₁ y₁ h₁ = (.some (ℓ * ℓ - x₁ - x₁) (ℓ * (x₁ - (ℓ * ℓ - x₁ - x₁)) - y₁) h : Group F) := by
  have hy := y_ne_zero (nonsingular_iff.mp h₁)
  have hne : y₁ ≠ (curve F).negY x₁ y₁ := negY_eq x₁ y₁ ▸ ne_neg hy
  have hslope : (curve F).slope x₁ x₁ y₁ y₁ = ℓ := by
    rw [WeierstrassCurve.Affine.slope_of_Y_ne rfl hne, negY_eq, sub_neg_eq_add, ← two_mul,
      div_eq_iff (two_mul_ne_zero hy)]
    simp only [curve]
    linear_combination -hℓ
  rw [WeierstrassCurve.Affine.Point.add_self_of_Y_ne hne]
  exact exists_some_eq (by rw [hslope, addX_eq]) (by rw [hslope, addY_eq])

/-- Two points with one `x` that are not the same cancel. -/
theorem add_of_x_eq (hx : x₁ = x₂) (hy : y₁ ≠ y₂) :
    (.some x₁ y₁ h₁ : Group F) + .some x₂ y₂ h₂ = 0 := by
  refine WeierstrassCurve.Affine.Point.add_of_Y_eq hx ?_
  have hsquare : y₁ * y₁ = y₂ * y₂ := by
    rw [nonsingular_iff.mp h₁, nonsingular_iff.mp h₂, hx]
  rw [negY_eq]
  exact (mul_self_eq_mul_self_iff.mp hsquare).resolve_left hy

end Group

/-! ### Triples -/

namespace Jacobian

/-- The triple stands for the element. -/
def StandsFor (j : Jacobian F) : Group F → Prop
  | .zero => j.z = 0
  | .some x y _ => j.z ≠ 0 ∧ j.x = x * (j.z * j.z) ∧ j.y = y * (j.z * j.z * j.z)

variable {j k : Jacobian F} {P Q : Group F}

theorem StandsFor.z_eq_zero_iff (h : j.StandsFor P) : j.z = 0 ↔ P = 0 := by
  cases P with
  | zero => exact iff_of_true h rfl
  | some x y hP => exact iff_of_false h.1 nofun

theorem standsFor_zero : (zero : Jacobian F).StandsFor 0 := rfl

theorem standsFor_ofPoint (P : Group F) : (ofPoint P.toPoint).StandsFor P := by
  cases P with
  | zero => rfl
  | some x y h => exact ⟨one_ne_zero, by simp [ofPoint, Group.toPoint]⟩

theorem StandsFor.double (h : j.StandsFor P) : j.double.StandsFor (P + P) := by
  cases P with
  | zero =>
    have hz : j.z = 0 := h
    rw [Jacobian.double, if_pos hz]
    exact h
  | some x y hP =>
    obtain ⟨jx, jy, z⟩ := j
    obtain ⟨hz, rfl, rfl⟩ : z ≠ 0 ∧ jx = x * (z * z) ∧ jy = y * (z * z * z) := h
    have hy := y_ne_zero (nonsingular_iff.mp hP)
    obtain ⟨ℓ, htangent⟩ := Group.exists_tangent hP
    obtain ⟨hsum, heq⟩ := Group.add_self_of_tangent hP htangent
    rw [heq, Jacobian.double, if_neg hz]
    refine ⟨?_, ?_, ?_⟩
    · show y * (z * z * z) * z + y * (z * z * z) * z ≠ 0
      rw [show y * (z * z * z) * z + y * (z * z * z) * z = 2 * y * (z * z * (z * z)) by ring]
      exact mul_ne_zero (two_mul_ne_zero hy) (mul_self_ne_zero.mpr (mul_self_ne_zero.mpr hz))
    · dsimp only
      linear_combination -(z ^ 8 * (2 * y * ℓ + 3 * x * x)) * htangent
    · dsimp only
      linear_combination -(z ^ 12 * (12 * x * y ^ 2 -
        ((3 * x * x) ^ 2 + 3 * x * x * (2 * y * ℓ) + (2 * y * ℓ) ^ 2))) * htangent

theorem StandsFor.add (h : j.StandsFor P) (hk : k.StandsFor Q) : (j.add k).StandsFor (P + Q) := by
  cases P with
  | zero =>
    have hz : j.z = 0 := h
    rw [Jacobian.add, if_pos hz]
    exact (zero_add Q).symm ▸ hk
  | some x₁ y₁ hP =>
  cases Q with
  | zero =>
    have hz : k.z = 0 := hk
    rw [Jacobian.add, if_neg h.1, if_pos hz]
    exact (add_zero (.some x₁ y₁ hP : Group F)).symm ▸ h
  | some x₂ y₂ hQ =>
    have hdouble := h.double
    obtain ⟨jx, jy, z⟩ := j
    obtain ⟨kx, ky, w⟩ := k
    obtain ⟨hz, rfl, rfl⟩ : z ≠ 0 ∧ jx = x₁ * (z * z) ∧ jy = y₁ * (z * z * z) := h
    obtain ⟨hw, rfl, rfl⟩ : w ≠ 0 ∧ kx = x₂ * (w * w) ∧ ky = y₂ * (w * w * w) := hk
    have hzw : z * w ≠ 0 := mul_ne_zero hz hw
    rw [Jacobian.add, if_neg hz, if_neg hw]
    dsimp only
    -- both differences are those of the coordinates, stretched
    have hX : x₂ * (w * w) * (z * z) - x₁ * (z * z) * (w * w) =
        (x₂ - x₁) * (z * w * (z * w)) := by ring
    have hY : y₂ * (w * w * w) * z * (z * z) - y₁ * (z * z * z) * w * (w * w) =
        (y₂ - y₁) * (z * w * (z * w) * (z * w)) := by ring
    rw [hX, hY]
    by_cases hx : x₁ = x₂
    · rw [if_pos (by rw [hx, sub_self, zero_mul])]
      by_cases hy : y₁ = y₂
      · subst hx hy
        rw [if_pos (by rw [sub_self, zero_mul])]
        exact hdouble
      · rw [if_neg (mul_ne_zero (sub_ne_zero.mpr (Ne.symm hy))
          (mul_ne_zero (mul_ne_zero hzw hzw) hzw)), Group.add_of_x_eq hx hy]
        exact standsFor_zero
    · have hne := sub_ne_zero.mpr (Ne.symm hx)
      obtain ⟨ℓ, hchord⟩ := Group.exists_chord hx y₁ y₂
      obtain ⟨hsum, heq⟩ := Group.add_of_chord hP hQ hx hchord
      rw [heq, if_neg (mul_ne_zero hne (mul_ne_zero hzw hzw)), ← hchord]
      refine ⟨?_, ?_, ?_⟩
      · exact mul_ne_zero hzw (mul_ne_zero hne (mul_ne_zero hzw hzw))
      · dsimp only
        ring
      · dsimp only
        ring

/-- Adding a point is adding the triple of it. -/
theorem StandsFor.addPoint (h : j.StandsFor P) (Q : Group F) :
    (j.addPoint Q.toPoint).StandsFor (P + Q) := by
  cases Q with
  | zero => exact (add_zero P).symm ▸ h
  | some x y hQ =>
    have hadd := h.add (standsFor_ofPoint (.some x y hQ))
    simpa [Jacobian.add, Jacobian.addPoint, ofPoint, Group.toPoint] using hadd

/-- One bit after the other, a multiple is gathered. -/
theorem StandsFor.mulBits {n : Nat} (Q : Group F) (bits : List Bool) (h : j.StandsFor (n • Q)) :
    (Jacobian.mulBits Q.toPoint bits j).StandsFor (spelled n bits • Q) := by
  induction bits generalizing j n with
  | nil => exact h
  | cons b rest ih =>
    refine ih (n := 2 * n + b.toNat) ?_
    have htwice : j.double.StandsFor ((2 * n) • Q) := by
      rw [two_mul, add_nsmul]
      exact h.double
    cases b with
    | false => exact htwice
    | true =>
      rw [Bool.toNat_true, succ_nsmul]
      exact htwice.addPoint Q

/-- **A multiple of a point stands for the multiple of the element.** -/
theorem standsFor_mul (P : Group F) (n : Nat) : (P.toPoint.mul n).StandsFor (n • P) := by
  have h := StandsFor.mulBits (n := 0) P (binary n) ((zero_nsmul P).symm ▸ standsFor_zero)
  rwa [spelled_binary] at h

/-- Triples are compared as what they stand for. -/
theorem StandsFor.same_iff (h : j.StandsFor P) (hk : k.StandsFor Q) :
    j.same k = true ↔ P = Q := by
  cases P with
  | zero =>
    have hz : j.z = 0 := h
    rw [same, if_pos hz, decide_eq_true_iff, hk.z_eq_zero_iff]
    exact eq_comm
  | some x₁ y₁ hP =>
  cases Q with
  | zero =>
    have hz : k.z = 0 := hk
    rw [same, if_neg h.1, if_pos hz]
    exact iff_of_false nofun nofun
  | some x₂ y₂ hQ =>
    obtain ⟨jx, jy, z⟩ := j
    obtain ⟨kx, ky, w⟩ := k
    obtain ⟨hz, rfl, rfl⟩ : z ≠ 0 ∧ jx = x₁ * (z * z) ∧ jy = y₁ * (z * z * z) := h
    obtain ⟨hw, rfl, rfl⟩ : w ≠ 0 ∧ kx = x₂ * (w * w) ∧ ky = y₂ * (w * w * w) := hk
    have hzw : z * w ≠ 0 := mul_ne_zero hz hw
    rw [same, if_neg hz, if_neg hw]
    simp only [Bool.and_eq_true, decide_eq_true_eq, WeierstrassCurve.Affine.Point.some.injEq]
    constructor
    · rintro ⟨hx, hy⟩
      exact ⟨mul_right_cancel₀ (mul_ne_zero hzw hzw) (by linear_combination hx),
        mul_right_cancel₀ (mul_ne_zero (mul_ne_zero hzw hzw) hzw) (by linear_combination hy)⟩
    · rintro ⟨rfl, rfl⟩
      exact ⟨by ring, by ring⟩

/-- The point of a triple is that of the element. -/
theorem StandsFor.toPoint (h : j.StandsFor P) : j.toPoint = P.toPoint := by
  cases P with
  | zero => exact if_pos h
  | some x y hP =>
    obtain ⟨hz, hx, hy⟩ := h
    refine (if_neg hz).trans (congrArg₂ Point.affine ?_ ?_)
    · rw [hx]
      field_simp
    · rw [hy]
      field_simp

end Jacobian

namespace Group
variable {n : Nat}

theorem nsmul_eq_zero_iff (P : Group F) : n • P = 0 ↔ (P.toPoint.mul n).z = 0 :=
  (Jacobian.standsFor_mul P n).z_eq_zero_iff.symm

theorem toPoint_nsmul (P : Group F) : (n • P).toPoint = (P.toPoint.mul n).toPoint :=
  (Jacobian.standsFor_mul P n).toPoint.symm

end Group

end Attest.Bn254
