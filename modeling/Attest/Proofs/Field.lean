import Mathlib.FieldTheory.Finite.Basic
import Attest.Bn254
import Attest.Proofs.Ring
import Attest.Proofs.Primality

/-! Residues of a prime form a field.

The inverse that residues compute with is the field's, by Fermat's little theorem
(`Residue.pow_pred_eq_one`); there are as many residues as the modulus says (`Residue.card_eq`).
Powers by binary digits are powers in any monoid (`powBinary_binary`). -/
namespace Attest

/-- A power by the digits of a number is the power by the number. -/
theorem powBinary_binary {α : Type} [Monoid α] (x : α) (n : Nat) :
    powBinary x (binary n) = x ^ n := by
  -- the digits read so far spell the exponent of what is gathered
  have key (digits : List Bool) : ∀ k, digits.foldl
      (fun acc digit => if digit then acc * acc * x else acc * acc) (x ^ k) =
        x ^ spelled k digits := by
    induction digits with
    | nil => exact fun k => rfl
    | cons digit rest ih =>
      intro k
      have hstep : (if digit then x ^ k * x ^ k * x else x ^ k * x ^ k) =
          x ^ (2 * k + digit.toNat) := by
        cases digit
        · simp [two_mul, pow_add]
        · simp [two_mul, pow_add]
      rw [List.foldl_cons, hstep, ih]
      rfl
  rw [powBinary, ← pow_zero x]
  exact (key (binary n) 0).trans (by rw [spelled_binary])

namespace Residue
variable {m : Nat} [Modulus m]

/-- Residues are the ring of integers modulo `m`. -/
def equivZMod : Residue m ≃+* ZMod m :=
  have : NeZero m := ⟨modulus_pos.ne'⟩
  { toFun := toZMod
    invFun := fun z => ofNat z.val
    left_inv := fun a => toZMod_injective (by rw [toZMod_ofNat, ZMod.natCast_zmod_val])
    right_inv := fun z => by rw [toZMod_ofNat, ZMod.natCast_zmod_val]
    map_add' := toZMod_add
    map_mul' := toZMod_mul }

theorem card_eq : Nat.card (Residue m) = m := by
  rw [Nat.card_congr equivZMod.toEquiv, Nat.card_zmod]

instance : Finite (Residue m) :=
  have : NeZero m := ⟨modulus_pos.ne'⟩
  Finite.of_equiv (ZMod m) equivZMod.symm.toEquiv

section
variable [Fact m.Prime]

/-- Fermat's little theorem. -/
theorem pow_pred_eq_one {a : Residue m} (h : a ≠ 0) : a ^ (m - 1) = 1 := by
  have hne : a.toZMod ≠ 0 := fun hzero => h (toZMod_injective (hzero.trans toZMod_zero.symm))
  exact toZMod_injective (by
    rw [toZMod_pow, ZMod.pow_card_sub_one_eq_one hne, toZMod_one])

instance : Nontrivial (Residue m) := equivZMod.toEquiv.nontrivial

variable [hodd : Fact (2 < m)]

instance : Field (Residue m) where
  inv := Inv.inv
  div := Div.div
  mul_inv_cancel a h := by
    have hm : m - 2 + 1 = m - 1 := by have := hodd.out; omega
    show a * a ^ (m - 2) = 1
    rw [← pow_succ', hm, pow_pred_eq_one h]
  inv_zero := by
    have hm : m - 2 ≠ 0 := by have := hodd.out; omega
    exact zero_pow hm
  nnqsmul := _
  nnqsmul_def := fun _ _ => rfl
  qsmul := _
  qsmul_def := fun _ _ => rfl

end

end Residue

namespace Bn254

instance : Fact basePrime.Prime := ⟨basePrime_prime⟩
instance : Fact (2 < basePrime) := ⟨by decide⟩

end Bn254

end Attest
