import Attest.Proofs.Curve.Order
import Attest.Curve.Subgroup

/-! The quick check of membership is exact.

The Frobenius map is a homomorphism of the second curve's group (`G2.frobeniusHom`), so the check
asks whether a homomorphism is zero at a point (`G2.inSubgroup_iff_gap`). The generator has the
prime order, and the point `G2.cotorsion` has the cofactor as its order and is mapped to an element
of the same order; so their sum has all elements as its multiples (`G2.exists_nsmul_element`), and
the homomorphism is zero exactly where the prime order is (`G2.inSubgroup_iff`). -/
namespace Attest.Bn254

/-- The group of prime order. -/
def Point.InGroup {F : Type} [CurveField F] (p : Point F) : Prop :=
  ∃ P : Group F, P.toPoint = p ∧ order • P = 0

namespace Point
variable {F : Type} [CurveField F] {x y : F}

theorem inGroup_infinity : (infinity : Point F).InGroup := ⟨0, rfl, nsmul_zero order⟩

theorem InGroup.onCurve {p : Point F} (h : p.InGroup) : p.OnCurve := by
  obtain ⟨P, rfl, -⟩ := h
  exact P.toPoint_onCurve

theorem InGroup.neg (h : (affine x y).InGroup) : (affine x (-y)).InGroup := by
  obtain ⟨P, hP, hzero⟩ := h
  cases P with
  | zero => exact nomatch hP
  | some x' y' hP' =>
    obtain ⟨rfl, rfl⟩ := Point.affine.inj hP
    refine ⟨-(.some x' y' hP' : Group F), ?_, by rw [smul_neg, hzero, neg_zero]⟩
    exact congrArg (affine x') (negY_eq x' y')

end Point

namespace G2

/-! ### The Frobenius map -/

theorem conj_ne_zero {a : Quadratic} (h : a ≠ 0) : a.conj ≠ 0 :=
  (map_ne_zero Quadratic.conjHom).mpr h

theorem frobeniusX_eq : frobeniusX = Quadratic.nonResidue ^ ((basePrime - 1) / 3) :=
  powBinary_binary ..

theorem frobeniusY_eq : frobeniusY = Quadratic.nonResidue ^ ((basePrime - 1) / 2) :=
  powBinary_binary ..

theorem nonResidue_ne_zero : Quadratic.nonResidue ≠ 0 :=
  fun h => one_ne_zero (congrArg Quadratic.im h)

theorem frobeniusX_ne_zero : frobeniusX ≠ 0 :=
  frobeniusX_eq ▸ pow_ne_zero _ nonResidue_ne_zero

theorem frobeniusY_ne_zero : frobeniusY ≠ 0 :=
  frobeniusY_eq ▸ pow_ne_zero _ nonResidue_ne_zero

/-- Both are the same power of the element that they come from. -/
theorem frobenius_cube : frobeniusX * frobeniusX * frobeniusX = frobeniusY * frobeniusY := by
  rw [frobeniusX_eq, frobeniusY_eq, ← pow_add, ← pow_add, ← pow_add]
  rfl

/-- The map takes the curve to itself. -/
theorem conj_b_mul : (Curve.b : Quadratic).conj * (frobeniusY * frobeniusY) = Curve.b := by
  decide +kernel

/-- What the map multiplies conjugate slopes by. -/
theorem exists_slopeFactor : ∃ u, u * frobeniusX = frobeniusY ∧ u * u = frobeniusX := by
  have hne := frobeniusX_ne_zero
  refine ⟨frobeniusY / frobeniusX, div_mul_cancel₀ _ hne, ?_⟩
  rw [div_mul_div_comm, ← frobenius_cube, mul_assoc]
  exact mul_div_cancel_right₀ _ (mul_ne_zero hne hne)

theorem frobenius_onCurve {x y : Quadratic} (h : y * y = Point.rightSide x) :
    y.conj * frobeniusY * (y.conj * frobeniusY) = Point.rightSide (x.conj * frobeniusX) := by
  have hconj := congrArg Quadratic.conjHom h
  simp only [Point.rightSide, map_mul, map_add, Quadratic.conjHom_apply] at hconj
  rw [Point.rightSide]
  linear_combination frobeniusY * frobeniusY * hconj - x.conj * x.conj * x.conj * frobenius_cube +
    conj_b_mul

theorem frobenius_nonsingular {x y : Quadratic} (h : (curve Quadratic).Nonsingular x y) :
    (curve Quadratic).Nonsingular (x.conj * frobeniusX) (y.conj * frobeniusY) :=
  nonsingular_iff.mpr (frobenius_onCurve (nonsingular_iff.mp h))

/-- The Frobenius map on elements. -/
def frobeniusElement : Group Quadratic → Group Quadratic
  | .zero => .zero
  | .some _ _ h => .some _ _ (frobenius_nonsingular h)

/-- The map keeps points apart. -/
theorem conj_mul_ne {a b c : Quadratic} (hc : c ≠ 0) (h : a ≠ b) : a.conj * c ≠ b.conj * c :=
  fun heq => h (Quadratic.conjHom.injective (mul_right_cancel₀ hc heq))

/-- The third point of a line goes to that of the line's image. -/
theorem conj_third {u : Quadratic} (hY : u * frobeniusX = frobeniusY) (hX : u * u = frobeniusX)
    (x₁ x₂ y₁ ℓ : Quadratic) : Point.affine ((ℓ * ℓ - x₁ - x₂).conj * frobeniusX)
      ((ℓ * (x₁ - (ℓ * ℓ - x₁ - x₂)) - y₁).conj * frobeniusY) =
    .affine (ℓ.conj * u * (ℓ.conj * u) - x₁.conj * frobeniusX - x₂.conj * frobeniusX)
      (ℓ.conj * u * (x₁.conj * frobeniusX -
        (ℓ.conj * u * (ℓ.conj * u) - x₁.conj * frobeniusX - x₂.conj * frobeniusX)) -
          y₁.conj * frobeniusY) := by
  simp only [← Quadratic.conjHom_apply, map_sub, map_mul]
  refine congrArg₂ Point.affine ?_ ?_
  · linear_combination -(Quadratic.conjHom ℓ * Quadratic.conjHom ℓ) * hX
  · linear_combination Quadratic.conjHom ℓ ^ 3 * (u * hX + hY) -
      Quadratic.conjHom ℓ * (2 * Quadratic.conjHom x₁ + Quadratic.conjHom x₂) * hY

/-- A double goes to the double: the tangent's image is the image's tangent. -/
theorem frobeniusElement_add_self {x y : Quadratic} (h : (curve Quadratic).Nonsingular x y) :
    frobeniusElement (.some x y h + .some x y h) =
      frobeniusElement (.some x y h) + frobeniusElement (.some x y h) := by
  obtain ⟨u, hY, hX⟩ := exists_slopeFactor
  obtain ⟨ℓ, htangent⟩ := Group.exists_tangent h
  have hconj := congrArg Quadratic.conjHom htangent
  simp only [map_mul, map_ofNat, Quadratic.conjHom_apply] at hconj
  have himage : 2 * (y.conj * frobeniusY) * (ℓ.conj * u) =
      3 * (x.conj * frobeniusX) * (x.conj * frobeniusX) := by
    linear_combination frobeniusY * u * hconj + 3 * x.conj * x.conj * (frobeniusX * hX - u * hY)
  obtain ⟨_, heq⟩ := Group.add_self_of_tangent h htangent
  obtain ⟨_, heq'⟩ := Group.add_self_of_tangent (frobenius_nonsingular h) himage
  rw [heq]
  refine Eq.trans (Group.toPoint_injective ?_) heq'.symm
  exact conj_third hY hX ..

/-- A sum goes to the sum: the chord's image is the images' chord. -/
theorem frobeniusElement_add_of_ne {x₁ y₁ x₂ y₂ : Quadratic} (hx : x₁ ≠ x₂)
    (h₁ : (curve Quadratic).Nonsingular x₁ y₁) (h₂ : (curve Quadratic).Nonsingular x₂ y₂) :
    frobeniusElement (.some x₁ y₁ h₁ + .some x₂ y₂ h₂) =
      frobeniusElement (.some x₁ y₁ h₁) + frobeniusElement (.some x₂ y₂ h₂) := by
  obtain ⟨u, hY, hX⟩ := exists_slopeFactor
  obtain ⟨ℓ, hchord⟩ := Group.exists_chord hx y₁ y₂
  have hconj := congrArg Quadratic.conjHom hchord
  simp only [map_mul, map_sub, Quadratic.conjHom_apply] at hconj
  have himage : (x₂.conj * frobeniusX - x₁.conj * frobeniusX) * (ℓ.conj * u) =
      y₂.conj * frobeniusY - y₁.conj * frobeniusY := by
    linear_combination frobeniusY * hconj + (x₂.conj - x₁.conj) * ℓ.conj * hY
  obtain ⟨_, heq⟩ := Group.add_of_chord h₁ h₂ hx hchord
  obtain ⟨_, heq'⟩ := Group.add_of_chord (frobenius_nonsingular h₁) (frobenius_nonsingular h₂)
    (conj_mul_ne frobeniusX_ne_zero hx) himage
  rw [heq]
  refine Eq.trans (Group.toPoint_injective ?_) heq'.symm
  exact conj_third hY hX ..

theorem frobeniusElement_add (P Q : Group Quadratic) :
    frobeniusElement (P + Q) = frobeniusElement P + frobeniusElement Q := by
  cases P with
  | zero =>
    exact (congrArg frobeniusElement (zero_add Q)).trans (zero_add (frobeniusElement Q)).symm
  | some x₁ y₁ hP =>
  cases Q with
  | zero =>
    exact (congrArg frobeniusElement (add_zero (.some x₁ y₁ hP : Group Quadratic))).trans
      (add_zero (frobeniusElement (.some x₁ y₁ hP))).symm
  | some x₂ y₂ hQ =>
    by_cases hx : x₁ = x₂
    · by_cases hy : y₁ = y₂
      · subst hx hy
        exact frobeniusElement_add_self hP
      · -- points that cancel have images that do
        rw [Group.add_of_x_eq hx hy]
        exact (Group.add_of_x_eq (by rw [hx]) (conj_mul_ne frobeniusY_ne_zero hy)).symm
    · exact frobeniusElement_add_of_ne hx hP hQ

/-- The Frobenius map, as the homomorphism that it is. -/
def frobeniusHom : Group Quadratic →+ Group Quadratic where
  toFun := frobeniusElement
  map_zero' := rfl
  map_add' := frobeniusElement_add

theorem standsFor_frobenius {j : Jacobian Quadratic} {P : Group Quadratic} (h : j.StandsFor P) :
    (frobenius j).StandsFor (frobeniusHom P) := by
  cases P with
  | zero =>
    have hz : j.z = 0 := h
    show j.z.conj = 0
    rw [hz]
    rfl
  | some x y hP =>
    obtain ⟨hz, hx, hy⟩ := h
    refine ⟨conj_ne_zero hz, ?_, ?_⟩
    · show j.x.conj * frobeniusX = x.conj * frobeniusX * (j.z.conj * j.z.conj)
      simp only [hx, ← Quadratic.conjHom_apply, map_mul]
      ring
    · show j.y.conj * frobeniusY = y.conj * frobeniusY * (j.z.conj * j.z.conj * j.z.conj)
      simp only [hy, ← Quadratic.conjHom_apply, map_mul]
      ring

/-! ### The check -/

/-- The difference between the two sides of the check. -/
def gap : Group Quadratic →+ Group Quadratic where
  toFun P :=
    let multiple := generatingNumber • P
    let once := frobeniusHom multiple
    let twice := frobeniusHom once
    multiple + P + once + twice - (frobeniusHom twice + frobeniusHom twice)
  map_zero' := by simp
  map_add' P Q := by
    simp only [nsmul_add, map_add]
    abel

/-- The check asks whether the difference is zero. -/
theorem inSubgroup_iff_gap (P : Group Quadratic) : inSubgroup P.toPoint = true ↔ gap P = 0 := by
  have hmultiple := Jacobian.standsFor_mul P generatingNumber
  have honce := standsFor_frobenius hmultiple
  have htwice := standsFor_frobenius honce
  have hleft := ((hmultiple.addPoint P).add honce).add htwice
  exact (hleft.same_iff (standsFor_frobenius htwice).double).trans sub_eq_zero.symm

/-! ### Elements of known order -/

theorem generator_onCurve : G2.generator.OnCurve := by
  refine show _ * _ = Point.rightSide _ from ?_
  decide +kernel

/-- The generator, as an element. -/
def element : Group Quadratic := .some _ _ (nonsingular_iff.mpr generator_onCurve)

/-- What the number of the second curve's points has besides the order. -/
def cofactor : Nat := cofactorPrimes.prod

/-- A point whose order is the cofactor: the prime order's multiple of a point with `x = 1`. -/
def cotorsion : G2 :=
  .affine
    ⟨Residue.ofNat 12449809347824824073929964793537538272792066846557360436674515403760722048593,
      Residue.ofNat 6833220850417336253699040162630430029311385334883328197502640595056151302508⟩
    ⟨Residue.ofNat 12676962405547438761413333211314096723026960849353574309063316773424184031811,
      Residue.ofNat 12628908397913110544468529427854163908017316685594631546736530946916541228307⟩

theorem cotorsion_onCurve : cotorsion.OnCurve := by
  refine show _ * _ = Point.rightSide _ from ?_
  decide +kernel

/-- The point of that order, as an element. -/
def coelement : Group Quadratic := .some _ _ (nonsingular_iff.mpr cotorsion_onCurve)

/-- What is computed of the two points: their multiples by their orders, and the check of the
generator and of the other point's multiples by parts of its order. -/
theorem computed : (generator.mul order).z = 0 ∧ inSubgroup generator = true ∧
    (cotorsion.mul cofactor).z = 0 ∧
      ∀ l ∈ cofactorPrimes, inSubgroup (cotorsion.mul (cofactor / l)).toPoint = false := by
  decide +kernel

theorem addOrderOf_element : addOrderOf element = order :=
  Group.addOrderOf_eq order_prime computed.1 nofun

theorem gap_element : gap element = 0 := (inSubgroup_iff_gap element).mp computed.2.1

theorem cofactor_nsmul_coelement : cofactor • coelement = 0 :=
  (Group.nsmul_eq_zero_iff coelement).mpr computed.2.2.1

theorem gap_nsmul_ne_zero : ∀ l ∈ cofactorPrimes, (cofactor / l) • gap coelement ≠ 0 := by
  intro l hl hzero
  have hfails : inSubgroup (coelement.toPoint.mul (cofactor / l)).toPoint = false :=
    computed.2.2.2 l hl
  rw [← map_nsmul, ← inSubgroup_iff_gap, Group.toPoint_nsmul, hfails] at hzero
  exact nomatch hzero

theorem addOrderOf_gap_coelement : addOrderOf (gap coelement) = cofactor := by
  refine addOrderOf_eq_of_nsmul_and_div_prime_nsmul (by decide) ?_ fun l hl hdvd => ?_
  · rw [← map_nsmul, cofactor_nsmul_coelement, map_zero]
  · obtain ⟨l', hl', hdvd⟩ := hl.prime.dvd_prod_iff.mp hdvd
    obtain rfl := (Nat.prime_dvd_prime_iff_eq hl (cofactorPrimes_prime l' hl')).mp hdvd
    exact gap_nsmul_ne_zero l hl'

theorem addOrderOf_coelement : addOrderOf coelement = cofactor :=
  Nat.dvd_antisymm (addOrderOf_dvd_of_nsmul_eq_zero cofactor_nsmul_coelement)
    (addOrderOf_gap_coelement ▸ addOrderOf_map_dvd gap coelement)

theorem addOrderOf_add : addOrderOf (element + coelement) = order * cofactor := by
  rw [(AddCommute.all element coelement).addOrderOf_add_eq_mul_addOrderOf_of_coprime,
    addOrderOf_element, addOrderOf_coelement]
  rw [addOrderOf_element, addOrderOf_coelement]
  decide

theorem exists_nsmul_eq (P : Group Quadratic) : ∃ n : Nat, n • (element + coelement) = P := by
  refine Group.exists_nsmul_eq ?_ P
  rw [addOrderOf_add, Quadratic.card_eq]
  decide

/-- **The check of membership is exact**: it succeeds on a point of the second curve just when the
prime order's multiple of the point is zero. -/
theorem inSubgroup_iff (P : Group Quadratic) : inSubgroup P.toPoint = true ↔ order • P = 0 := by
  -- of a multiple of the sum of the two points, the check sees the second one's part only
  obtain ⟨n, rfl⟩ := exists_nsmul_eq P
  have hpos : 0 < order := order_prime.pos
  rw [inSubgroup_iff_gap, map_nsmul, map_add, gap_element, zero_add,
    ← addOrderOf_dvd_iff_nsmul_eq_zero, addOrderOf_gap_coelement, smul_smul,
    ← addOrderOf_dvd_iff_nsmul_eq_zero, addOrderOf_add, Nat.mul_dvd_mul_iff_left hpos]

end G2

end Attest.Bn254
