import Mathlib.NumberTheory.LegendreSymbol.Basic
import Attest.Proofs.Curve.Decoded
import Attest.Proofs.Field

/-! The two fields of coordinates.

Minus one has no root in the base field, so the quadratic extension is a field, and its norm the
product with the conjugate. Neither curve has a point with `y = 0`, because minus the constant of
its equation is no cube (`CurveField.rootless`); this is what the groups of points need to know of
their fields. -/
namespace Attest.Bn254

namespace Base

theorem neg_one_not_square : ¬IsSquare (-1 : Base) := by
  rintro ⟨s, hs⟩
  have hsquare : IsSquare (-1 : ZMod basePrime) := ⟨s.toZMod, by
    rw [← Residue.toZMod_mul, ← hs, Residue.toZMod_neg, Residue.toZMod_one]⟩
  exact ZMod.exists_sq_eq_neg_one_iff.mp hsquare (by decide)

/-- A sum of two squares is zero only when both are. -/
theorem eq_zero_of_sum_of_squares {a b : Base} (h : a * a + b * b = 0) : a = 0 ∧ b = 0 := by
  have hb : b = 0 := by
    by_contra hb
    refine neg_one_not_square ⟨a / b, ?_⟩
    field_simp
    linear_combination -h
  exact ⟨mul_self_eq_zero.mp (by simpa [hb] using h), hb⟩

theorem two_ne_zero : (2 : Base) ≠ 0 := by decide

theorem half_add_half (a : Base) : a * half + a * half = a := by
  have htwo : half + half = 1 := by decide
  rw [← mul_add, htwo, mul_one]

end Base

/-! ### The quadratic extension -/

namespace Quadratic

@[simp] theorem re_zero : (0 : Quadratic).re = 0 := rfl
@[simp] theorem im_zero : (0 : Quadratic).im = 0 := rfl
@[simp] theorem re_one : (1 : Quadratic).re = 1 := rfl
@[simp] theorem im_one : (1 : Quadratic).im = 0 := rfl
@[simp] theorem re_add (a b : Quadratic) : (a + b).re = a.re + b.re := rfl
@[simp] theorem im_add (a b : Quadratic) : (a + b).im = a.im + b.im := rfl
@[simp] theorem re_sub (a b : Quadratic) : (a - b).re = a.re - b.re := rfl
@[simp] theorem im_sub (a b : Quadratic) : (a - b).im = a.im - b.im := rfl
@[simp] theorem re_conj (a : Quadratic) : a.conj.re = a.re := rfl
@[simp] theorem im_conj (a : Quadratic) : a.conj.im = -a.im := rfl

attribute [simp] re_neg im_neg re_mul im_mul

instance : CommRing Quadratic where
  add_assoc a b c := ext (add_assoc ..) (add_assoc ..)
  zero_add a := ext (zero_add _) (zero_add _)
  add_zero a := ext (add_zero _) (add_zero _)
  add_comm a b := ext (add_comm ..) (add_comm ..)
  neg_add_cancel a := ext (neg_add_cancel _) (neg_add_cancel _)
  sub_eq_add_neg a b := ext (sub_eq_add_neg ..) (sub_eq_add_neg ..)
  left_distrib a b c := ext (by simp; ring) (by simp; ring)
  right_distrib a b c := ext (by simp; ring) (by simp; ring)
  zero_mul a := ext (by simp) (by simp)
  mul_zero a := ext (by simp) (by simp)
  mul_assoc a b c := ext (by simp; ring) (by simp; ring)
  one_mul a := ext (by simp) (by simp)
  mul_one a := ext (by simp) (by simp)
  mul_comm a b := ext (by simp; ring) (by simp; ring)
  nsmul := nsmulRec
  zsmul := zsmulRec

theorem norm_eq_zero_iff {a : Quadratic} : a.norm = 0 ↔ a = 0 := by
  constructor
  · intro h
    obtain ⟨hre, him⟩ := Base.eq_zero_of_sum_of_squares h
    exact ext hre him
  · rintro rfl
    show (0 : Base) * 0 + 0 * 0 = 0
    ring

theorem mul_inv_self {a : Quadratic} (h : a ≠ 0) : a * a⁻¹ = 1 := by
  have hnorm : a.norm ≠ 0 := fun hzero => h (norm_eq_zero_iff.mp hzero)
  have hre : a⁻¹.re = a.norm⁻¹ * a.re := rfl
  have him : a⁻¹.im = a.norm⁻¹ * -a.im := rfl
  refine ext ?_ ?_
  · rw [re_mul, hre, him]
    calc a.re * (a.norm⁻¹ * a.re) - a.im * (a.norm⁻¹ * -a.im) = a.norm⁻¹ * a.norm := by
          unfold norm
          ring
      _ = 1 := by rw [inv_mul_cancel₀ hnorm]
  · rw [im_mul, hre, him, im_one]
    ring

instance : Nontrivial Quadratic := ⟨0, 1, by decide⟩

instance : Field Quadratic where
  inv := Inv.inv
  mul_inv_cancel _ h := mul_inv_self h
  inv_zero := by
    refine ext (mul_zero _) ?_
    show (norm 0)⁻¹ * -(0 : Base) = 0
    rw [neg_zero, mul_zero]
  nnqsmul := _
  nnqsmul_def := fun _ _ => rfl
  qsmul := _
  qsmul_def := fun _ _ => rfl

/-- An element is its two coefficients. -/
def equivProd : Quadratic ≃ Base × Base where
  toFun a := (a.re, a.im)
  invFun a := ⟨a.1, a.2⟩
  left_inv _ := rfl
  right_inv _ := rfl

instance : Finite Quadratic := Finite.of_equiv _ equivProd.symm

theorem card_eq : Nat.card Quadratic = basePrime * basePrime := by
  rw [Nat.card_congr equivProd, Nat.card_prod, Residue.card_eq]

/-- Conjugation, as the ring homomorphism that it is. -/
def conjHom : Quadratic →+* Quadratic where
  toFun := conj
  map_zero' := ext rfl (neg_zero)
  map_one' := ext rfl (neg_zero)
  map_add' a b := ext rfl (neg_add ..)
  map_mul' a b := ext (by simp) (by simp; ring)

theorem conjHom_apply (a : Quadratic) : conjHom a = a.conj := rfl

end Quadratic

/-! ### Fields of curves -/

/-- In a finite field an element is no cube when its power by a third of the others is not one. -/
theorem mul_self_mul_ne {F : Type} [Field F] [Finite F] {a : F} (ha : a ≠ 0)
    (hthird : 3 ∣ Nat.card F - 1) (hpow : a ^ ((Nat.card F - 1) / 3) ≠ 1) (x : F) :
    x * x * x ≠ a := by
  rintro rfl
  have hx : x ≠ 0 := by
    rintro rfl
    exact ha (mul_zero _)
  have := Fintype.ofFinite F
  refine hpow ?_
  rw [show x * x * x = x ^ 3 by ring, ← pow_mul, Nat.mul_div_cancel' hthird,
    Nat.card_eq_fintype_card, FiniteField.pow_card_sub_one_eq_one x hx]

/-- A finite field of coordinates, with a curve that no point with `y = 0` is on. -/
class CurveField (F : Type) extends Field F, Curve F where
  [finite : Finite F]
  two_ne_zero : (2 : F) ≠ 0
  rootless : ∀ x : F, Point.rightSide x ≠ 0

instance (F : Type) [c : CurveField F] : Finite F := c.finite

instance : CurveField Base where
  toField := inferInstance
  b := Curve.b
  decEq := inferInstance
  two_ne_zero := Base.two_ne_zero
  rootless x h := by
    refine mul_self_mul_ne (a := -Curve.b) (by decide) ?_ ?_ x (eq_neg_of_add_eq_zero_left h)
    · rw [Residue.card_eq]
      decide
    · rw [Residue.card_eq]
      decide +kernel

instance : CurveField Quadratic where
  toField := inferInstance
  b := Curve.b
  decEq := inferInstance
  two_ne_zero := by
    intro h
    exact Base.two_ne_zero (congrArg Quadratic.re h)
  rootless x h := by
    obtain ⟨hne, hpow⟩ : -(Curve.b : Quadratic) ≠ 0 ∧
        powBinary (-Curve.b : Quadratic) (binary ((basePrime * basePrime - 1) / 3)) ≠ 1 := by
      decide +kernel
    refine mul_self_mul_ne hne ?_ ?_ x (eq_neg_of_add_eq_zero_left h)
    · rw [Quadratic.card_eq]
      decide
    · rwa [Quadratic.card_eq, ← powBinary_binary]

end Attest.Bn254
