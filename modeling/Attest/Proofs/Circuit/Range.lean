import Attest.Circuit.Range
import Attest.Proofs.Circuit.Gadget

/-! A wire fits in `n` bits exactly when its number is below `2 ^ n`.

However bits are read, they spell their number modulo the order of the field
(`Linear.ofBits_eq`, `ofBits_worth`), and the low `n` digits of a number spell its
remainder. That remainder is at most the number, so it is below the order too and
no other number of its class is in the way: the digits spell the wire exactly when
nothing was cut off (`fitsIn_adds`). -/
namespace Attest

/-- A remainder stands for the residue exactly when nothing was cut off. -/
theorem Residue.ofNat_mod_eq_iff {m : Nat} [Modulus m] (x : Residue m) {k : Nat} (hk : 0 < k) :
    ofNat (x.val % k) = x ↔ x.val < k := by
  constructor
  · intro h
    have hlt : x.val % k < m := Nat.lt_of_le_of_lt (Nat.mod_le x.val k) x.isLt
    have hval : x.val % k = x.val := by rw [← val_ofNat_of_lt hlt, h]
    rw [← hval]
    exact Nat.mod_lt _ hk
  · intro h
    rw [Nat.mod_eq_of_lt h, ofNat_val]

namespace Circuit

/-- Bits are worth truth values, one by one. -/
abbrev BitsWorth (bits : List Bit) (bs : List Bool) (s : System) : Prop :=
  List.Forall₂ (fun c b => Builder.BitWorth c b s) bits bs

variable {s : System} {r : Wire → Scalar} {bits : List Bit} {bs : List Bool}

/-- What is read off wires turns their sums and multiples into those of scalars. -/
structure Linear (r : Wire → Scalar) : Prop where
  zero : r ⟨0, 0⟩ = 0
  add : ∀ a b, r (a + b) = r a + r b
  scale : ∀ k a, r (a.scale k) = k * r a

theorem linear_value : Linear Wire.value :=
  ⟨rfl, fun _ _ => rfl, fun _ _ => rfl⟩

theorem linear_eval (value : Assignment) : Linear fun w => w.combination.eval value :=
  ⟨rfl, fun a b => Combination.eval_add value a.combination b.combination,
    fun k a => Combination.eval_scale value k a.combination⟩

/-- Each bit counts double what the one before it does. -/
theorem Linear.ofBits (h : Linear r) (bits : List Bit) :
    r (.ofBits bits) = bits.foldr (fun b n => 2 * n + r b.wire) 0 := by
  have key : ∀ (sum : Wire) (weight : Scalar),
      r (bits.foldl (fun part b => (part.1 + b.wire.scale part.2, part.2 + part.2))
        (sum, weight)).1 = r sum + weight * bits.foldr (fun b n => 2 * n + r b.wire) 0 := by
    induction bits with
    | nil => exact fun sum weight => by simp
    | cons b bits ih =>
      intro sum weight
      rw [List.foldl_cons, ih, h.add, h.scale, List.foldr_cons]
      ring
  refine (key ⟨0, 0⟩ 1).trans ?_
  rw [h.zero, zero_add, one_mul]

/-- Bits that are read as truth values spell the number of these, modulo the order of the field. -/
theorem Linear.ofBits_eq (hr : Linear r)
    (h : List.Forall₂ (fun c b => r c.wire = if b then 1 else 0) bits bs) :
    r (.ofBits bits) = Residue.ofNat (lowestFirst bs) := by
  rw [hr.ofBits]
  induction h with
  | nil => rfl
  | @cons c b bits bs hc _ ih =>
    rw [List.foldr_cons, ih, hc, lowestFirst_cons]
    show 2 * (lowestFirst bs : Scalar) + (if b then 1 else 0) =
      ((2 * lowestFirst bs + b.toNat : Nat) : Scalar)
    cases b <;> simp

/-- Bits spell their number, modulo the order of the field. -/
theorem ofBits_worth (h : BitsWorth bits bs s) :
    (Wire.ofBits bits).Worth (Residue.ofNat (lowestFirst bs)) s :=
  ⟨linear_value.ofBits_eq (h.imp fun _ _ hc => hc.wire.value),
    fun u hu => (linear_eval u.value).ofBits_eq (h.imp fun _ _ hc => hc.wire.eval u hu)⟩

namespace Builder

/-- A program run for each element of a list, when none of the runs demands anything. -/
theorem mapM_adds {f : α → Builder β} {Q : α → β → System → Prop}
    (hQ : ∀ x y s t, Q x y s → s.Extends t → Q x y t) (hf : ∀ x s, Adds s (f x) True (Q x))
    (xs : List α) : Adds s (xs.mapM f) True (fun ys t => List.Forall₂ (Q · · t) xs ys) := by
  induction xs generalizing s with
  | nil => exact .pure .nil
  | cons x xs ih =>
    rw [List.mapM_cons]
    refine (hf x s).andThen fun y t _ hy => ?_
    exact ih.andThen fun ys u hu hys => .pure (.cons (hQ x y t u hy hu) hys)

theorem digits_adds (w : Wire) (n : Nat) : Adds s (digits w n) True
    (BitsWorth · ((List.range n).map w.value.val.testBit)) := by
  have hbits := mapM_adds (s := s) (f := fun i => bit (w.value.val.testBit i))
    (Q := fun i c t => BitWorth c (w.value.val.testBit i) t)
    (fun _ _ _ _ h hst => h.extend hst) (fun i t => bit_adds _) (List.range n)
  refine hbits.weaken Iff.rfl fun bits t _ h => ?_
  exact List.forall₂_map_right_iff.mpr h.flip

/-- **The range check is exact**: it is met when the wire's number has no more than `n` digits, and
only then. -/
theorem fitsIn_adds {w : Wire} {x : Scalar} (hw : w.Worth x s) (n : Nat) :
    Adds s (fitsIn n w) (x.val < Nat.pow 2 n) (fun _ _ => True) := by
  refine (digits_adds w n).andThen fun bits t ht hbits => ?_
  have hspelled := ofBits_worth hbits
  rw [lowestFirst_digits, hw.value] at hspelled
  refine (enforceEqual_adds hspelled (hw.extend ht)).weaken ?_ fun _ _ _ h => h
  exact x.ofNat_mod_eq_iff (Nat.pow_pos Nat.two_pos)

end Builder

end Circuit

end Attest
