import Mathlib.Data.ZMod.Basic
import Mathlib.Tactic.Ring
import Attest.Proofs.Digits
import Attest.Residue

/-! Residues form a commutative ring.

A residue is read in the ring `ZMod m`, where two residues are equal exactly when
they are equal here (`toZMod_injective`) and every operation is the ring's. The
ring laws of residues are those of `ZMod m` read back. The power is the one that
residues compute with, by the binary digits of the exponent (`toZMod_pow`). -/
namespace Attest

namespace Residue
variable {m : Nat}

/-! ### The reading in `ZMod` -/

def toZMod (a : Residue m) : ZMod m := a.val

theorem toZMod_injective : Function.Injective (toZMod : Residue m → ZMod m) := by
  intro a b h
  have hval : a.val % m = b.val % m := (ZMod.natCast_eq_natCast_iff' a.val b.val m).mp h
  rw [Nat.mod_eq_of_lt a.isLt, Nat.mod_eq_of_lt b.isLt] at hval
  exact ext hval

theorem toZMod_add (a b : Residue m) : (a + b).toZMod = a.toZMod + b.toZMod := by
  simp [toZMod, val_add]

section
variable [Modulus m]

theorem toZMod_ofNat (n : Nat) : (ofNat n : Residue m).toZMod = n := by
  simp [toZMod, val_ofNat]

theorem toZMod_zero : (0 : Residue m).toZMod = 0 :=
  (toZMod_ofNat 0).trans Nat.cast_zero

theorem toZMod_one : (1 : Residue m).toZMod = 1 :=
  (toZMod_ofNat 1).trans Nat.cast_one

theorem toZMod_mul (a b : Residue m) : (a * b).toZMod = a.toZMod * b.toZMod := by
  simp [toZMod, val_mul]

theorem toZMod_neg (a : Residue m) : (-a).toZMod = -a.toZMod := by
  simp [toZMod, val_neg, Nat.cast_sub (Nat.le_of_lt a.isLt)]

omit [Modulus m] in
theorem toZMod_sub (a b : Residue m) : (a - b).toZMod = a.toZMod - b.toZMod := by
  simp [toZMod, val_sub, Nat.cast_sub (Nat.le_of_lt b.isLt), sub_eq_add_neg]

theorem toZMod_powBinary (x : Residue m) (digits : List Bool) :
    (powBinary x digits).toZMod = x.toZMod ^ spelled 0 digits := by
  have key : ∀ (n : Nat) (acc : Residue m), acc.toZMod = x.toZMod ^ n →
      (digits.foldl (fun acc digit => if digit then acc * acc * x else acc * acc) acc).toZMod =
        x.toZMod ^ spelled n digits := by
    induction digits with
    | nil => exact fun n acc h => h
    | cons digit rest ih =>
      intro n acc h
      refine ih (2 * n + digit.toNat) _ ?_
      cases digit
      · simp only [Bool.false_eq_true, if_false, toZMod_mul, h, Bool.toNat_false]
        ring
      · simp only [if_true, toZMod_mul, h, Bool.toNat_true]
        ring
  exact key 0 1 (by rw [toZMod_one, pow_zero])

theorem toZMod_pow (a : Residue m) (n : Nat) : (a ^ n).toZMod = a.toZMod ^ n :=
  (toZMod_powBinary a (binary n)).trans (by rw [spelled_binary])

/-! ### The ring -/

instance : CommRing (Residue m) where
  add_assoc a b c := toZMod_injective (by simp only [toZMod_add, add_assoc])
  zero_add a := toZMod_injective (by rw [toZMod_add, toZMod_zero, zero_add])
  add_zero a := toZMod_injective (by rw [toZMod_add, toZMod_zero, add_zero])
  add_comm a b := toZMod_injective (by rw [toZMod_add, toZMod_add, add_comm])
  left_distrib a b c := toZMod_injective (by simp only [toZMod_add, toZMod_mul, mul_add])
  right_distrib a b c := toZMod_injective (by simp only [toZMod_add, toZMod_mul, add_mul])
  zero_mul a := toZMod_injective (by rw [toZMod_mul, toZMod_zero, zero_mul])
  mul_zero a := toZMod_injective (by rw [toZMod_mul, toZMod_zero, mul_zero])
  mul_assoc a b c := toZMod_injective (by simp only [toZMod_mul, mul_assoc])
  one_mul a := toZMod_injective (by rw [toZMod_mul, toZMod_one, one_mul])
  mul_one a := toZMod_injective (by rw [toZMod_mul, toZMod_one, mul_one])
  mul_comm a b := toZMod_injective (by rw [toZMod_mul, toZMod_mul, mul_comm])
  neg_add_cancel a := toZMod_injective (by rw [toZMod_add, toZMod_neg, neg_add_cancel, toZMod_zero])
  sub_eq_add_neg a b :=
    toZMod_injective (by rw [toZMod_sub, toZMod_add, toZMod_neg, sub_eq_add_neg])
  natCast_zero := rfl
  natCast_succ n := toZMod_injective (by
    show (ofNat (n + 1) : Residue m).toZMod = (ofNat n + 1 : Residue m).toZMod
    rw [toZMod_add, toZMod_ofNat, toZMod_ofNat, toZMod_one, Nat.cast_succ])
  nsmul := nsmulRec
  zsmul := zsmulRec
  npow n a := a ^ n
  npow_zero a := toZMod_injective (by rw [toZMod_pow, pow_zero, toZMod_one])
  npow_succ n a := toZMod_injective (by rw [toZMod_mul, toZMod_pow, toZMod_pow, pow_succ])

/-- A number below the modulus is its class's representative. -/
theorem val_ofNat_of_lt {n : Nat} (h : n < m) : (ofNat n : Residue m).val = n :=
  Nat.mod_eq_of_lt h

theorem ofNat_val (a : Residue m) : ofNat a.val = a :=
  ext (val_ofNat_of_lt a.isLt)

end

end Residue

end Attest
