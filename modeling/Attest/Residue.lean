import Attest.Binary

/-! Integers modulo `m`, each kept as its least non-negative representative.

The operations are those of the ring `ℤ/m`; `inv` is the inverse when `m` is
prime, by Fermat's little theorem. Two residues are equal exactly when their
representatives are (`Residue.ext`), and order is the order of representatives. -/
namespace Attest

structure Residue (m : Nat) where
  val : Nat
  isLt : val < m
deriving DecidableEq

/-- A number that has residues. -/
class Modulus (m : Nat) : Prop where
  pos : 0 < m

namespace Residue
variable {m : Nat}

theorem ext {a b : Residue m} (h : a.val = b.val) : a = b := by
  cases a; cases b; simp_all

theorem ext_iff {a b : Residue m} : a = b ↔ a.val = b.val :=
  ⟨fun h => h ▸ rfl, ext⟩

section
variable [Modulus m]

theorem modulus_pos : 0 < m := Modulus.pos

/-- The class of `n`. -/
def ofNat (n : Nat) : Residue m := ⟨n % m, Nat.mod_lt n modulus_pos⟩

instance : Inhabited (Residue m) := ⟨ofNat 0⟩
instance : NatCast (Residue m) := ⟨ofNat⟩
instance : Zero (Residue m) := ⟨ofNat 0⟩
instance : One (Residue m) := ⟨ofNat 1⟩

protected def add (a b : Residue m) : Residue m :=
  let s := a.val + b.val
  if h : s < m then ⟨s, h⟩ else ⟨s - m, by have := a.isLt; have := b.isLt; omega⟩

protected def neg (a : Residue m) : Residue m :=
  if h : a.val = 0 then ⟨0, modulus_pos⟩ else ⟨m - a.val, by have := a.isLt; omega⟩

protected def sub (a b : Residue m) : Residue m :=
  if h : b.val ≤ a.val then ⟨a.val - b.val, by have := a.isLt; omega⟩
  else ⟨a.val + m - b.val, by have := b.isLt; omega⟩

protected def mul (a b : Residue m) : Residue m :=
  ⟨a.val * b.val % m, Nat.mod_lt _ modulus_pos⟩

instance : Add (Residue m) := ⟨Residue.add⟩
instance : Neg (Residue m) := ⟨Residue.neg⟩
instance : Sub (Residue m) := ⟨Residue.sub⟩
instance : Mul (Residue m) := ⟨Residue.mul⟩

theorem val_ofNat (n : Nat) : (ofNat n : Residue m).val = n % m := rfl

omit [Modulus m] in
theorem val_add (a b : Residue m) : (a + b).val = (a.val + b.val) % m := by
  show (Residue.add a b).val = _
  have ha := a.isLt
  have hb := b.isLt
  by_cases h : a.val + b.val < m
  · simp [Residue.add, h, Nat.mod_eq_of_lt h]
  · simp only [Residue.add, h, ↓reduceDIte]
    rw [Nat.mod_eq_sub_mod (Nat.le_of_not_lt h), Nat.mod_eq_of_lt (by omega)]

/-- `a * b + c * d`, reduced once. -/
def mulAdd (a b c d : Residue m) : Residue m :=
  ⟨(a.val * b.val + c.val * d.val) % m, Nat.mod_lt _ modulus_pos⟩

/-- `a * b - c * d`, reduced once. -/
def mulSub (a b c d : Residue m) : Residue m :=
  ⟨(a.val * b.val + (m - c.val) * d.val) % m, Nat.mod_lt _ modulus_pos⟩

theorem val_mul (a b : Residue m) : (a * b).val = a.val * b.val % m := rfl

theorem mulAdd_eq (a b c d : Residue m) : mulAdd a b c d = a * b + c * d :=
  ext (by simp [mulAdd, val_add, val_mul, Nat.add_mod])

theorem val_neg (a : Residue m) : (-a).val = (m - a.val) % m := by
  show (Residue.neg a).val = _
  have ha := a.isLt
  unfold Residue.neg
  split
  · next h => simp [h]
  · next h => exact (Nat.mod_eq_of_lt (show m - a.val < m by omega)).symm

omit [Modulus m] in
theorem val_sub (a b : Residue m) : (a - b).val = (a.val + (m - b.val)) % m := by
  show (Residue.sub a b).val = _
  have ha := a.isLt
  have hb := b.isLt
  unfold Residue.sub
  split
  · next h =>
    show a.val - b.val = _
    rw [show a.val + (m - b.val) = a.val - b.val + m by omega, Nat.add_mod_right,
      Nat.mod_eq_of_lt (by omega)]
  · next h =>
    show a.val + m - b.val = _
    rw [show a.val + (m - b.val) = a.val + m - b.val by omega, Nat.mod_eq_of_lt (by omega)]

instance : Pow (Residue m) Nat := ⟨fun a n => powBinary a (binary n)⟩

theorem mulSub_eq (a b c d : Residue m) : mulSub a b c d = a * b - c * d := by
  apply ext
  have hc := c.isLt
  have hr := Nat.mod_lt (c.val * d.val) (modulus_pos (m := m))
  have h : (m - c.val) * d.val + c.val * d.val = m * d.val := by
    rw [← Nat.add_mul, Nat.sub_add_cancel (Nat.le_of_lt hc)]
  have hq := Nat.div_add_mod (c.val * d.val) m
  show (a.val * b.val + (m - c.val) * d.val) % m = _
  rw [val_sub, val_mul, val_mul, Nat.add_mod, Nat.add_mod (a.val * b.val % m)]
  suffices (m - c.val) * d.val % m = (m - c.val * d.val % m) % m by
    simp only [this, Nat.mod_mod, Nat.add_mod_mod]
  have e : (m - c.val) * d.val % m =
      ((m - c.val) * d.val + c.val * d.val + (m - c.val * d.val % m)) % m := by
    rw [show (m - c.val) * d.val + c.val * d.val + (m - c.val * d.val % m) =
      (m - c.val) * d.val + m * (c.val * d.val / m + 1) by rw [Nat.mul_add]; omega]
    rw [Nat.add_mul_mod_self_left]
  rw [e, h, Nat.mul_add_mod]

/-- The inverse when `m` is prime; `0` for `0`. -/
def inv (a : Residue m) : Residue m := a ^ (m - 2)

instance : Inv (Residue m) := ⟨inv⟩
instance : Div (Residue m) := ⟨fun a b => a * b⁻¹⟩

/-- The class of an integer of either sign, given as a sign and a magnitude. -/
def ofSigned (negative : Bool) (magnitude : Nat) : Residue m :=
  if negative then -ofNat magnitude else ofNat magnitude

end

instance : LT (Residue m) := ⟨fun a b => a.val < b.val⟩
instance : LE (Residue m) := ⟨fun a b => a.val ≤ b.val⟩
instance (a b : Residue m) : Decidable (a < b) := Nat.decLt a.val b.val
instance (a b : Residue m) : Decidable (a ≤ b) := Nat.decLe a.val b.val
instance : Ord (Residue m) := ⟨fun a b => compare a.val b.val⟩

theorem lt_def {a b : Residue m} : a < b ↔ a.val < b.val := Iff.rfl
theorem le_def {a b : Residue m} : a ≤ b ↔ a.val ≤ b.val := Iff.rfl

end Residue

end Attest
