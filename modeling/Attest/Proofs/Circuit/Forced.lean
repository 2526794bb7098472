import Mathlib.Algebra.BigOperators.Fin
import Mathlib.Algebra.Field.ZMod
import Attest.Proofs.Circuit.Range
import Attest.Proofs.Primality

/-! What a circuit forces on every assignment.

`Builder.Adds` is about the private scalars that a program allocates itself. `Builder.Forces` is
about any: wherever the constraints hold that the program leaves behind, whatever the scalars are,
its result is as it says. A bit is zero or one then, so whichever bits are chosen spell a number
below `2 ^ n`; the wire's number is that one's remainder and no greater. So the range check is met
by the wire's own digits when its number is below `2 ^ n`, and by no bits at all when it is not
(`Builder.fitsIn_exact`). -/
namespace Attest

/-- A product of residues of a prime is zero only if one of them is. -/
theorem Residue.mul_eq_zero_iff {m : Nat} [Modulus m] (hm : m.Prime) {a b : Residue m} :
    a * b = 0 ↔ a = 0 ∨ b = 0 := by
  have : Fact m.Prime := ⟨hm⟩
  rw [← toZMod_injective.eq_iff, ← toZMod_injective.eq_iff, ← toZMod_injective.eq_iff, toZMod_mul,
    toZMod_zero, mul_eq_zero]

/-- A residue of a number is no greater than the number. -/
theorem Residue.val_ofNat_le {m : Nat} [Modulus m] (n : Nat) : (ofNat n : Residue m).val ≤ n :=
  Nat.mod_le n m

namespace Circuit

/-! ### Bits as a sum -/

/-- The sum in which each term counts double what the one before it does. -/
theorem sum_two_pow {α R : Type} [CommSemiring R] (f : α → R) (xs : List α) :
    ∑ i : Fin xs.length, f xs[i] * 2 ^ (i : Nat) = xs.foldr (fun x n => 2 * n + f x) 0 := by
  induction xs with
  | nil => rfl
  | cons x xs ih =>
    have hshift : ∑ i : Fin xs.length, f xs[i] * 2 ^ ((i : Nat) + 1) =
        2 * ∑ i : Fin xs.length, f xs[i] * 2 ^ (i : Nat) := by
      rw [Finset.mul_sum]
      exact Finset.sum_congr rfl fun i _ => by ring
    rw [List.foldr_cons, ← ih, ← hshift]
    refine (Fin.sum_univ_succ _).trans ?_
    simp [add_comm]

/-- **Bits add up to their combinations' sum**, each counting double what the one before it does,
under any assignment. -/
theorem eval_ofBits (bits : List Bit) (value : Assignment) :
    (Wire.ofBits bits).combination.eval value =
      ∑ i : Fin bits.length, bits[i].combination.eval value * 2 ^ (i : Nat) := by
  rw [(linear_eval value).ofBits bits, sum_two_pow fun b : Bit => b.combination.eval value]
  rfl

/-- **Bits spell their number modulo the order of the field.** -/
theorem val_ofBits (bits : List Bit) : (Wire.ofBits bits).value.val =
    (∑ i : Fin bits.length, bits[i].isSet.toNat * 2 ^ (i : Nat)) % Bn254.order := by
  have hbits : List.Forall₂ (fun (c : Bit) b => c.wire.value = if b then 1 else 0) bits
      (bits.map Bit.isSet) := by
    rw [List.forall₂_map_right_iff, List.forall₂_same]
    exact fun c _ => rfl
  rw [linear_value.ofBits_eq hbits, Residue.val_ofNat, sum_two_pow fun b : Bit => b.isSet.toNat,
    lowestFirst, List.foldr_map]

/-! ### Programs -/

namespace Builder

/-- Wherever the constraints hold that `m` leaves behind, the ones before it do, and its result is
as `result` says. -/
def Forces (s : System) (m : Builder α) (result : α → System → Prop) : Prop :=
  ∀ u, (m.run s).2.HoldsIn u → s.HoldsIn u ∧ result (m.run s).1 u

namespace Forces
variable {s : System} {Q : α → System → Prop} {R : β → System → Prop}

theorem pure {a : α} (h : ∀ u, Q a u) : Forces s (pure a) Q :=
  fun u hu => ⟨hu, h u⟩

/-- What is forced of a result, what comes after it may use. -/
theorem bind {m : Builder α} {f : α → Builder β} (hm : Forces s m Q)
    (hf : ∀ a t, Forces t (f a) fun b u => Q a u → R b u) : Forces s (m >>= f) R := by
  intro u hu
  obtain ⟨ht, hresult⟩ := hf _ _ u hu
  obtain ⟨hs, hforced⟩ := hm u ht
  exact ⟨hs, hresult hforced⟩

theorem mapM {f : α → Builder β} {Q : β → System → Prop} (hf : ∀ x s, Forces s (f x) Q)
    (xs : List α) :
    Forces s (xs.mapM f) fun ys u => ys.length = xs.length ∧ ∀ y ∈ ys, Q y u := by
  induction xs generalizing s with
  | nil => exact .pure fun _ => ⟨rfl, List.forall_mem_nil _⟩
  | cons x xs ih =>
    rw [List.mapM_cons]
    refine (hf x s).bind fun y t => ih.bind fun ys v => .pure fun u hys hy => ?_
    exact ⟨congrArg Nat.succ hys.1, List.forall_mem_cons.mpr ⟨hy, hys.2⟩⟩

end Forces

variable {s : System} {a b : Wire} {w : Wire} {x : Scalar}

theorem witness_forces (x : Scalar) : Forces s (witness x) fun _ _ => True :=
  fun _ hu => ⟨hu, trivial⟩

theorem enforce_forces (c : Constraint) : Forces s (enforce c) fun _ u => c.Holds u.value :=
  fun u hu => (s.holdsIn_push u c).mp hu

theorem enforceEqual_forces (a b : Wire) : Forces s (enforceEqual a b) fun _ u =>
    a.combination.eval u.value = b.combination.eval u.value := by
  intro u hu
  obtain ⟨hs, hequal⟩ := enforce_forces _ u hu
  refine ⟨hs, sub_eq_zero.mp ?_⟩
  rwa [Constraint.Holds, Combination.eval_sub, Combination.eval_constant u.value_one, mul_one,
    Combination.eval_zero] at hequal

/-- A bit is zero or one, whatever it was meant to be. -/
theorem bit_forces (isSet : Bool) : Forces s (bit isSet) fun c u =>
    ∃ b : Bool, c.combination.eval u.value = if b then 1 else 0 := by
  refine (witness_forces _).bind fun y t => (enforce_forces _).bind fun _ v => .pure fun u hu _ => ?_
  have hzero : y.combination.eval u.value * (1 - y.combination.eval u.value) = 0 := by
    rwa [Constraint.Holds, Combination.eval_sub, Combination.eval_constant u.value_one,
      Combination.eval_zero] at hu
  rcases (Residue.mul_eq_zero_iff Bn254.order_prime).mp hzero with h | h
  · exact ⟨false, h⟩
  · exact ⟨true, (sub_eq_zero.mp h).symm⟩

/-- Bits that are zero or one are truth values. -/
theorem exists_forall₂_truth {bits : List Bit} {u : System}
    (h : ∀ c ∈ bits, ∃ b : Bool, c.combination.eval u.value = if b then 1 else 0) :
    ∃ bs : List Bool, List.Forall₂ (fun c b => c.combination.eval u.value = if b then 1 else 0)
      bits bs := by
  induction bits with
  | nil => exact ⟨[], .nil⟩
  | cons c bits ih =>
    obtain ⟨⟨b, hb⟩, hrest⟩ := List.forall_mem_cons.mp h
    obtain ⟨bs, hbs⟩ := ih hrest
    exact ⟨b :: bs, .cons hb hbs⟩

/-- The wire is the residue of a number of `n` digits, whichever bits are chosen for them. -/
theorem fitsIn_forces (w : Wire) (n : Nat) : Forces s (fitsIn n w) fun _ u =>
    ∃ k < Nat.pow 2 n, w.combination.eval u.value = Residue.ofNat k := by
  refine (Forces.mapM (fun i t => bit_forces (w.value.val.testBit i)) (List.range n)).bind
    fun bits t => ?_
  intro u hu
  obtain ⟨ht, hequal⟩ := enforceEqual_forces _ _ u hu
  refine ⟨ht, fun ⟨hlength, hbits⟩ => ?_⟩
  obtain ⟨bs, hbs⟩ := exists_forall₂_truth hbits
  refine ⟨lowestFirst bs, ?_, hequal.symm.trans ((linear_eval u.value).ofBits_eq hbs)⟩
  have hlt := lowestFirst_lt bs
  rwa [← hbs.length_eq, hlength, List.length_range] at hlt

/-- **The range check is sound**: no choice of bits meets it for a number that has more than `n`
digits. -/
theorem lt_of_fitsIn (hw : w.Worth x s) (n : Nat) {u : System} (hu : s.Extends u)
    (h : ((fitsIn n w).run s).2.HoldsIn u) : x.val < Nat.pow 2 n := by
  obtain ⟨-, k, hk, hequal⟩ := fitsIn_forces w n u h
  rw [hw.eval u hu] at hequal
  rw [hequal]
  exact Nat.lt_of_le_of_lt (Residue.val_ofNat_le k) hk

/-- **The range check is exact for every width that a scalar has.** Bits of any kind spell the sum
of the powers of two that are set, modulo the order of the field, both in value and under every
assignment. Checking that a wire has `n` digits adds a demand that its own digits meet exactly when
its number is below `2 ^ n`, and that no other bits meet when it is not. -/
theorem fitsIn_exact :
    (∀ bits : List Bit, (Wire.ofBits bits).value.val =
      (∑ i : Fin bits.length, bits[i].isSet.toNat * 2 ^ (i : Nat)) % Bn254.order) ∧
    (∀ (bits : List Bit) (value : Assignment), (Wire.ofBits bits).combination.eval value =
      ∑ i : Fin bits.length, bits[i].combination.eval value * 2 ^ (i : Nat)) ∧
    ∀ (s : System) (w : Wire) (x : Scalar), w.Worth x s → ∀ n ≤ 254,
      let t := ((fitsIn n w).run s).2
      (∀ u, t.Extends u → (t.HoldsIn u ↔ s.HoldsIn u ∧ x.val < 2 ^ n)) ∧
      ∀ u, s.Extends u → t.HoldsIn u → x.val < 2 ^ n :=
  ⟨val_ofBits, eval_ofBits, fun _ _ _ hw n _ =>
    ⟨(fitsIn_adds hw n).holds, fun _ hu h => lt_of_fitsIn hw n hu h⟩⟩

/-- The greatest scalar has 254 digits, and a check for one less is not met by any bits. -/
theorem fitsIn_exact_greatest :
    let w := ((witness (-1)).run .empty).1
    let s := ((witness (-1)).run .empty).2
    w.Worth (-1) s ∧ 253 ≤ 254 ∧ ((fitsIn 254 w).run s).2.Satisfied ∧
      ∀ u, s.Extends u → ¬((fitsIn 253 w).run s).2.HoldsIn u := by
  intro w s
  have hw : w.Worth (-1) s := (witness_adds (-1)).result
  obtain ⟨-, -, hexact⟩ := fitsIn_exact
  obtain ⟨hmet, -⟩ := hexact s w (-1) hw 254 (Nat.le_refl _)
  obtain ⟨-, hforced⟩ := hexact s w (-1) hw 253 (by decide)
  refine ⟨hw, by decide, (hmet _ (.refl _)).mpr ⟨fun c hc => ?_, by decide⟩, fun u hu h => ?_⟩
  · exact absurd hc (Array.not_mem_empty c)
  · exact absurd (hforced u hu h) (by decide)

end Builder

end Circuit

end Attest
