import Attest.Proofs.Circuit.Evaluation

/-! What a circuit program adds to a system.

`Builder.Adds s m demand result` says everything a later proof needs of a program
`m` run from a system `s`: it only adds scalars, the constraints it adds hold
exactly when `demand` does — whatever is allocated after them — and its result is
as `result` says. Programs are taken apart by `Adds.bind` and `Adds.foldlM`, one
lemma for each primitive. The arithmetic of wires demands nothing: only
`enforceEqual` does. -/
namespace Attest.Circuit

namespace Builder

structure Adds (s : System) (m : Builder α) (demand : Prop) (result : α → System → Prop) :
    Prop where
  grows : s.Extends (m.run s).2
  holds : ∀ u, (m.run s).2.Extends u → ((m.run s).2.HoldsIn u ↔ s.HoldsIn u ∧ demand)
  result : result (m.run s).1 (m.run s).2

namespace Adds
variable {s : System} {p q : Prop} {Q : α → System → Prop} {R : β → System → Prop}

theorem pure {a : α} (h : Q a s) : Adds s (pure a) True Q :=
  ⟨.refl s, fun _ _ => (and_iff_left trivial).symm, h⟩

theorem bind {m : Builder α} {f : α → Builder β} (hm : Adds s m p Q)
    (hf : ∀ a t, s.Extends t → Q a t → Adds t (f a) q R) : Adds s (m >>= f) (p ∧ q) R := by
  obtain ⟨hgrows, hholds, hresult⟩ := hf _ _ hm.grows hm.result
  refine ⟨hm.grows.trans hgrows, fun u hu => ?_, hresult⟩
  exact (hholds u hu).trans ((and_congr_left' (hm.holds u (hgrows.trans hu))).trans and_assoc)

/-- What comes after a program that demands nothing. -/
theorem andThen {m : Builder α} {f : α → Builder β} (hm : Adds s m True Q)
    (hf : ∀ a t, s.Extends t → Q a t → Adds t (f a) q R) : Adds s (m >>= f) q R := by
  obtain ⟨hgrows, hholds, hresult⟩ := hm.bind hf
  exact ⟨hgrows, fun u hu => (hholds u hu).trans (and_congr_right' (iff_of_eq (true_and q))), hresult⟩

theorem weaken {m : Builder α} {Q' : α → System → Prop} (hm : Adds s m p Q) (hpq : p ↔ q)
    (hQ : ∀ a t, s.Extends t → Q a t → Q' a t) : Adds s m q Q' :=
  ⟨hm.grows, fun u hu => (hm.holds u hu).trans (and_congr_right' hpq), hQ _ _ hm.grows hm.result⟩

/-- A fold over a list, step for step beside a fold of what the results stand for. -/
theorem foldlM {f : α → β → Builder α} {g : γ → β → γ} {R : γ → α → System → Prop} {t : System}
    {c : γ} {a : α} (xs : List β)
    (step : ∀ c a x t, x ∈ xs → s.Extends t → R c a t → Adds t (f a x) True (R (g c x)))
    (hst : s.Extends t) (h : R c a t) : Adds t (xs.foldlM f a) True (R (xs.foldl g c)) := by
  induction xs generalizing t c a with
  | nil => exact .pure h
  | cons x xs ih =>
    rw [List.foldlM_cons, List.foldl_cons]
    refine (step c a x t List.mem_cons_self hst h).andThen fun a' t' ht' ha' => ?_
    exact ih (fun c a y u hy => step c a y u (List.mem_cons_of_mem x hy)) (hst.trans ht') ha'

/-- A whole circuit is satisfied when its demand is met, and only then. -/
theorem satisfied_iff {m : Builder α} (hm : Adds .empty m p Q) :
    (m.run .empty).2.Satisfied ↔ p := by
  have hempty : System.empty.HoldsIn (m.run .empty).2 := fun c hc => by simp [System.empty] at hc
  exact (hm.holds _ (.refl _)).trans (and_iff_right hempty)

end Adds

/-! ### Primitives -/

variable {s : System} {a b : Wire} {x y : Scalar}

theorem input_adds (x : Scalar) : Adds s (input x) True (·.Worth x) := by
  refine ⟨s.extends_input x, fun _ _ => (and_iff_left trivial).symm, rfl, fun u hu => ?_⟩
  have hlast : u.value (.input s.inputs.size) = x := System.Extends.value_lastInput hu
  show (Combination.ofTerm (.input s.inputs.size) 1).eval u.value = x
  rw [Combination.eval_ofTerm, hlast, one_mul]

theorem witness_adds (x : Scalar) : Adds s (witness x) True (·.Worth x) := by
  refine ⟨s.extends_witness x, fun _ _ => (and_iff_left trivial).symm, rfl, fun u hu => ?_⟩
  have hlast : u.value (.witness s.witness.size) = x := System.Extends.value_lastWitness hu
  show (Combination.ofTerm (.witness s.witness.size) 1).eval u.value = x
  rw [Combination.eval_ofTerm, hlast, one_mul]

/-- One more constraint, whose truth does not depend on what is allocated later. -/
theorem enforce_adds {c : Constraint} {p : Prop} (h : ∀ u, s.Extends u → (c.Holds u.value ↔ p)) :
    Adds s (enforce c) p (fun _ _ => True) := by
  refine ⟨⟨List.prefix_rfl, List.prefix_rfl⟩, fun u hu => ?_, trivial⟩
  have hu : s.Extends u := ⟨hu.inputs, hu.witness⟩
  exact (s.holdsIn_push u c).trans (and_congr_right' (h u hu))

theorem enforceEqual_adds (ha : a.Worth x s) (hb : b.Worth y s) :
    Adds s (enforceEqual a b) (x = y) (fun _ _ => True) := by
  refine enforce_adds fun u hu => ?_
  show (a.combination - b.combination).eval u.value * (Combination.constant 1).eval u.value =
    (0 : Combination).eval u.value ↔ x = y
  rw [Combination.eval_sub, Combination.eval_constant u.value_one, Combination.eval_zero,
    ha.eval u hu, hb.eval u hu, mul_one, sub_eq_zero]

theorem mul_adds (ha : a.Worth x s) (hb : b.Worth y s) : Adds s (mul a b) True (·.Worth (x * y)) := by
  unfold mul
  split
  · next k hk =>
    rw [ha.eq_constant hk]
    exact .pure (hb.scale k)
  · next k _ hk =>
    rw [hb.eq_constant hk, mul_comm]
    exact .pure (ha.scale k)
  · rw [ha.value, hb.value]
    refine (witness_adds (x * y)).andThen fun c t ht hc => ?_
    refine (enforce_adds (p := True) fun u hu => ?_).andThen fun _ v hv _ => .pure (hc.extend hv)
    show a.combination.eval u.value * b.combination.eval u.value = c.combination.eval u.value ↔ True
    rw [ha.eval u (ht.trans hu), hb.eval u (ht.trans hu), hc.eval u hu, eq_self]

/-- What a bit is worth. -/
structure BitWorth (c : Bit) (b : Bool) (s : System) : Prop where
  isSet : c.isSet = b
  wire : c.wire.Worth (if b then 1 else 0) s

theorem BitWorth.extend {c : Bit} {b : Bool} {t : System} (h : BitWorth c b s)
    (hst : s.Extends t) : BitWorth c b t :=
  ⟨h.isSet, h.wire.extend hst⟩

theorem bit_adds (b : Bool) : Adds s (bit b) True (BitWorth · b) := by
  refine (witness_adds (if b then 1 else 0)).andThen fun x t ht hx => ?_
  refine (enforce_adds (p := True) fun u hu => ?_).andThen fun _ v hv _ =>
    .pure ⟨rfl, rfl, fun u hu => hx.eval u (hv.trans hu)⟩
  show x.combination.eval u.value * (Combination.constant 1 - x.combination).eval u.value =
    (0 : Combination).eval u.value ↔ True
  rw [Combination.eval_sub, Combination.eval_constant u.value_one, Combination.eval_zero,
    hx.eval u hu, iff_true]
  cases b <;> simp

theorem select_adds {c : Bit} {isSet : Bool} (hc : BitWorth c isSet s) (ha : a.Worth x s)
    (hb : b.Worth y s) : Adds s (select c a b) True (·.Worth (if isSet then x else y)) := by
  refine (mul_adds hc.wire (ha.sub hb)).andThen fun d t ht hd => .pure ?_
  have hsum := (hb.extend ht).add hd
  have hvalue : y + (if isSet then (1 : Scalar) else 0) * (x - y) = if isSet then x else y := by
    cases isSet <;> simp
  rwa [hvalue] at hsum

end Builder

end Attest.Circuit
