import Mathlib.Tactic.Ring
import Attest.Binary

/-! Numbers spelled by binary digits, in either order.

The low digits of a number spell its remainder (`spelled_lowDigits`,
`lowestFirst_digits`), and as many digits as `binary` takes spell the number. -/
namespace Attest

/-- The number that binary digits spell, most significant first, after those of `n`. -/
def spelled (n : Nat) (digits : List Bool) : Nat :=
  digits.foldl (fun n digit => 2 * n + digit.toNat) n

theorem spelled_lowDigits (n k acc : Nat) :
    spelled acc ((List.range k).reverse.map n.testBit) = Nat.pow 2 k * acc + n % Nat.pow 2 k := by
  induction k generalizing acc with
  | zero => simp [spelled, Nat.mod_one]
  | succ k ih =>
    rw [List.range_succ, List.reverse_append, List.reverse_singleton, List.singleton_append,
      List.map_cons]
    show spelled (2 * acc + (n.testBit k).toNat) _ = _
    rw [ih]
    show 2 ^ k * (2 * acc + (n.testBit k).toNat) + n % 2 ^ k = 2 ^ (k + 1) * acc + n % 2 ^ (k + 1)
    rw [Nat.mod_pow_succ, Nat.toNat_testBit]
    ring

/-- The binary digits of a number spell it. -/
theorem spelled_binary (n : Nat) : spelled 0 (binary n) = n := by
  rw [binary, spelled_lowDigits, Nat.mul_zero, Nat.zero_add]
  exact Nat.mod_eq_of_lt Nat.lt_log2_self

/-- The number that bits spell, lowest first. -/
def lowestFirst (bits : List Bool) : Nat := bits.foldr (fun b n => 2 * n + b.toNat) 0

theorem lowestFirst_cons (b : Bool) (bits : List Bool) :
    lowestFirst (b :: bits) = 2 * lowestFirst bits + b.toNat := rfl

theorem lowestFirst_lt (bits : List Bool) : lowestFirst bits < 2 ^ bits.length := by
  induction bits with
  | nil => exact Nat.one_pos
  | cons b bits ih =>
    have hb := Bool.toNat_lt b
    rw [lowestFirst_cons, List.length_cons, Nat.pow_succ]
    omega

theorem lowestFirst_digits (n k : Nat) :
    lowestFirst ((List.range k).map n.testBit) = n % Nat.pow 2 k := by
  have h := spelled_lowDigits n k 0
  rw [List.map_reverse, spelled, List.foldl_reverse, Nat.mul_zero, Nat.zero_add] at h
  exact h

end Attest
