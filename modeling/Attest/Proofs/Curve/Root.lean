import Attest.Proofs.Curve.Field

/-! Square roots are found.

Every square of the base field has a root that is found, with its inverse
(`Base.sqrtInv?_mul_self`), and so has every square of the quadratic extension
(`Quadratic.sqrt?_mul_self`). There the norm of the square of `c + d u` gives, up to sign, the sum
of the squares of `c` and `d`; of the two candidates made from it one is the square of `c`, the
other minus the square of `d` and no square at all. -/
namespace Attest.Bn254

namespace Base

/-- What the exponent is chosen for. -/
theorem mul_inverse_mul_inverse {y : Base} (hy : y ≠ 0) :
    y * y * powBinary (y * y) rootExponent * powBinary (y * y) rootExponent = 1 := by
  have hexponent : 2 + 4 * ((basePrime - 3) / 4) = basePrime - 1 := by decide
  rw [rootExponent, powBinary_binary, ← Residue.pow_pred_eq_one hy, ← hexponent]
  ring

theorem sqrtInv?_mul_self {y : Base} (hy : y ≠ 0) :
    ∃ root inverse, sqrtInv? (y * y) = some (root, inverse) ∧ root * inverse = 1 := by
  have hone := mul_inverse_mul_inverse hy
  refine ⟨_, powBinary (y * y) rootExponent, if_pos ?_, hone⟩
  generalize powBinary (y * y) rootExponent = inverse at hone
  linear_combination y * y * hone

theorem sqrt?_mul_self (y : Base) : ∃ root, sqrt? (y * y) = some root := by
  by_cases hy : y = 0
  · subst hy
    rw [mul_zero, sqrt?, sqrtInv?, zero_mul, if_pos (mul_zero 0)]
    exact ⟨0, rfl⟩
  · obtain ⟨root, inverse, hroot, -⟩ := sqrtInv?_mul_self hy
    exact ⟨root, congrArg (Option.map Prod.fst) hroot⟩

end Base

namespace Quadratic

/-- The square of the real part leads to a root. -/
theorem rootFrom?_mul_self {y : Quadratic} (hy : y.re ≠ 0) :
    ∃ root, rootFrom? (y * y) (y.re * y.re) = some root := by
  obtain ⟨re, inverse, hroots, hone⟩ := Base.sqrtInv?_mul_self hy
  have hsquare : re * re = y.re * y.re := Base.sqrtInv?_sound hroots
  have him : (y * y).im * Base.half * inverse = y.re * y.im * inverse := by
    calc (y * y).im * Base.half * inverse
        = (y.re * y.im * Base.half + y.re * y.im * Base.half) * inverse := by
          rw [im_mul]
          ring
      _ = y.re * y.im * inverse := by rw [Base.half_add_half]
  have hroot : (⟨re, y.re * y.im * inverse⟩ : Quadratic) * ⟨re, y.re * y.im * inverse⟩ = y * y := by
    refine ext ?_ ?_
    · rw [re_mul, re_mul]
      linear_combination (1 + y.im * y.im * inverse * inverse) * hsquare -
        y.im * y.im * (re * inverse + 1) * hone
    · rw [im_mul, im_mul]
      linear_combination 2 * y.re * y.im * hone
  unfold rootFrom?
  rw [hroots, Option.bind_eq_bind, Option.bind_some]
  dsimp only
  rw [him]
  exact ⟨_, if_pos hroot⟩

/-- The square of a real number has a real root, so a real square without one is the square of an
imaginary number. -/
theorem re_eq_zero_of_sqrt?_eq_none {y : Quadratic} (hzero : (y * y).im = 0)
    (hnone : Base.sqrt? (y * y).re = none) : y.re = 0 := by
  rw [re_mul] at hnone
  rw [im_mul] at hzero
  have hprod : 2 * (y.re * y.im) = 0 := by linear_combination hzero
  rcases mul_eq_zero.mp ((mul_eq_zero.mp hprod).resolve_left Base.two_ne_zero) with h | h
  · exact h
  · obtain ⟨root, hroot⟩ := Base.sqrt?_mul_self y.re
    rw [h, mul_zero, sub_zero, hroot] at hnone
    exact nomatch hnone

/-- **Every square of the extension has a root that is found.** -/
theorem sqrt?_mul_self (y : Quadratic) : ∃ root, sqrt? (y * y) = some root := by
  have hre : (y * y).re = y.re * y.re - y.im * y.im := re_mul y y
  have him : (y * y).im = y.re * y.im + y.im * y.re := im_mul y y
  unfold sqrt?
  by_cases hzero : (y * y).im = 0
  · rw [if_pos hzero]
    split
    · exact ⟨_, rfl⟩
    · next hnone =>
      have hreal := re_eq_zero_of_sqrt?_eq_none hzero hnone
      obtain ⟨root, hroot⟩ := Base.sqrt?_mul_self y.im
      have hneg : -(y * y).re = y.im * y.im := by
        rw [hre, hreal]
        ring
      exact ⟨_, by rw [hneg, hroot]; rfl⟩
  · rw [if_neg hzero]
    have hreal : y.re ≠ 0 := fun h => hzero (by rw [him, h, zero_mul, mul_zero, add_zero])
    have hnorm : (y * y).norm = (y.re * y.re + y.im * y.im) * (y.re * y.re + y.im * y.im) := by
      rw [norm, hre, him]
      ring
    obtain ⟨n, hn⟩ := Base.sqrt?_mul_self (y.re * y.re + y.im * y.im)
    obtain ⟨root, hroot⟩ := rootFrom?_mul_self hreal
    rw [hnorm, hn, Option.bind_eq_bind, Option.bind_some, hre]
    dsimp only
    -- the root of the norm is the sum of the squares or its negation
    rcases mul_self_eq_mul_self_iff.mp (Base.sqrt?_sound hn) with rfl | rfl
    · have hdelta : (y.re * y.re - y.im * y.im + (y.re * y.re + y.im * y.im)) * Base.half =
          y.re * y.re := by
        linear_combination Base.half_add_half (y.re * y.re)
      rw [hdelta, hroot]
      exact ⟨root, rfl⟩
    · have hdelta : (y.re * y.re - y.im * y.im + -(y.re * y.re + y.im * y.im)) * Base.half -
          -(y.re * y.re + y.im * y.im) = y.re * y.re := by
        linear_combination -Base.half_add_half (y.im * y.im)
      rw [hdelta, hroot]
      cases rootFrom? _ _ <;> exact ⟨_, rfl⟩

end Quadratic

end Attest.Bn254
