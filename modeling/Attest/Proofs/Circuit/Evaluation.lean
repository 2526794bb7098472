import Attest.Circuit.Wire
import Attest.Proofs.Ring

/-! What combinations evaluate to, and how systems grow.

Evaluation turns the operations of combinations into those of scalars
(`Combination.eval_add`, `eval_sub`, `eval_scale`). A circuit program only ever
adds to its system (`System.Extends`), so a wire that is worth a scalar keeps its
worth (`Wire.Worth.extend`): from then on its combination evaluates to that
scalar, whatever else is allocated. -/
namespace Attest.Circuit

namespace Combination

theorem eval_zero (value : Assignment) : (0 : Combination).eval value = 0 := rfl

theorem eval_ofTerm (value : Assignment) (v : Variable) (k : Scalar) :
    (ofTerm v k).eval value = k * value v :=
  add_zero _

theorem eval_cons (value : Assignment) (v : Variable) (k : Scalar)
    (ts : List (Variable × Scalar)) :
    eval value ⟨(v, k) :: ts⟩ = k * value v + eval value ⟨ts⟩ := rfl

theorem eval_merge (value : Assignment) (xs ys : List (Variable × Scalar)) :
    eval value ⟨merge xs ys⟩ = eval value ⟨xs⟩ + eval value ⟨ys⟩ := by
  fun_induction merge xs ys with
  | case1 ys => exact (zero_add _).symm
  | case2 xs => exact (add_zero _).symm
  | case3 v a xs b ys ih =>
    simp only [eval_cons, ih]
    ring
  | case4 v a xs w b ys _ _ ih =>
    simp only [eval_cons, ih]
    ring
  | case5 v a xs w b ys _ _ ih =>
    simp only [eval_cons, ih]
    ring

theorem eval_add (value : Assignment) (a b : Combination) :
    (a + b).eval value = a.eval value + b.eval value :=
  eval_merge value a.terms b.terms

theorem eval_scale (value : Assignment) (k : Scalar) (c : Combination) :
    (c.scale k).eval value = k * c.eval value := by
  obtain ⟨ts⟩ := c
  induction ts with
  | nil => exact (mul_zero k).symm
  | cons t ts ih =>
    obtain ⟨v, a⟩ := t
    have ih : eval value ⟨ts.map fun t => (t.1, k * t.2)⟩ = k * eval value ⟨ts⟩ := ih
    simp only [scale, List.map_cons, eval_cons, ih]
    ring

theorem eval_sub (value : Assignment) (a b : Combination) :
    (a - b).eval value = a.eval value - b.eval value := by
  have h : (a - b).eval value = a.eval value + (b.scale (-1)).eval value :=
    eval_merge value a.terms (b.scale (-1)).terms
  rw [h, eval_scale]
  ring

theorem eval_constant {value : Assignment} (h : value .one = 1) (k : Scalar) :
    (constant k).eval value = k := by
  rw [constant, eval_ofTerm, h, mul_one]

/-- A combination that stands for a constant evaluates to it. -/
theorem eval_of_constant? {value : Assignment} (h : value .one = 1) {c : Combination} {k : Scalar}
    (hc : c.constant? = some k) : c.eval value = k := by
  obtain ⟨ts⟩ := c
  unfold constant? at hc
  split at hc
  · next hts =>
    obtain rfl : ts = [] := hts
    exact Option.some.inj hc
  · next k' hts =>
    obtain rfl : ts = [(.one, k')] := hts
    obtain rfl : k' = k := Option.some.inj hc
    exact eval_constant h k'
  · cases hc

end Combination

/-! ### Systems grow -/

namespace System

theorem value_one (s : System) : s.value .one = 1 := rfl

/-- `t` holds the scalars of `s`, in their places, and maybe more. -/
structure Extends (s t : System) : Prop where
  inputs : s.inputs.toList <+: t.inputs.toList
  witness : s.witness.toList <+: t.witness.toList

theorem Extends.refl (s : System) : s.Extends s :=
  ⟨List.prefix_rfl, List.prefix_rfl⟩

theorem Extends.trans {s t u : System} (h : s.Extends t) (h' : t.Extends u) : s.Extends u :=
  ⟨h.inputs.trans h'.inputs, h.witness.trans h'.witness⟩

theorem extends_input (s : System) (x : Scalar) :
    s.Extends { s with inputs := s.inputs.push x } :=
  ⟨by simp, List.prefix_rfl⟩

theorem extends_witness (s : System) (x : Scalar) :
    s.Extends { s with witness := s.witness.push x } :=
  ⟨List.prefix_rfl, by simp⟩

private theorem getD_of_prefix {xs ys : Array Scalar} (h : xs.toList <+: ys.toList) {i : Nat}
    (hi : i < xs.size) : ys[i]?.getD 0 = xs[i]?.getD 0 := by
  obtain ⟨rest, hrest⟩ := h
  have hlen : i < xs.toList.length := by simpa using hi
  rw [← Array.getElem?_toList, ← Array.getElem?_toList, ← hrest, List.getElem?_append_left hlen]

/-- A public scalar keeps its value. -/
theorem Extends.value_input {s t : System} (h : s.Extends t) {i : Nat} (hi : i < s.inputs.size) :
    t.value (.input i) = s.value (.input i) :=
  getD_of_prefix h.inputs hi

/-- A private scalar keeps its value. -/
theorem Extends.value_witness {s t : System} (h : s.Extends t) {i : Nat}
    (hi : i < s.witness.size) : t.value (.witness i) = s.value (.witness i) :=
  getD_of_prefix h.witness hi

/-- The public scalar that was allocated last has its value. -/
theorem Extends.value_lastInput {s t : System} {x : Scalar}
    (h : Extends { s with inputs := s.inputs.push x } t) : t.value (.input s.inputs.size) = x := by
  rw [h.value_input (by simp)]
  simp [value]

theorem Extends.value_lastWitness {s t : System} {x : Scalar}
    (h : Extends { s with witness := s.witness.push x } t) :
    t.value (.witness s.witness.size) = x := by
  rw [h.value_witness (by simp)]
  simp [value]

/-- The constraints of `s` hold of the scalars of `u`. -/
def HoldsIn (s u : System) : Prop := ∀ c ∈ s.constraints, c.Holds u.value

theorem holdsIn_push (s u : System) (c : Constraint) :
    HoldsIn { s with constraints := s.constraints.push c } u ↔ s.HoldsIn u ∧ c.Holds u.value := by
  simp only [HoldsIn, Array.mem_push, or_imp, forall_and, forall_eq]

end System

/-! ### What a wire is worth -/

/-- The wire has the value `x`, and so has its combination, in the system and in all that extend
it. -/
structure Wire.Worth (w : Wire) (x : Scalar) (s : System) : Prop where
  value : w.value = x
  eval : ∀ u, s.Extends u → w.combination.eval u.value = x

namespace Wire.Worth
variable {s t : System} {a b : Wire} {x y : Scalar}

theorem extend (h : a.Worth x s) (hst : s.Extends t) : a.Worth x t :=
  ⟨h.value, fun u hu => h.eval u (hst.trans hu)⟩

theorem constant (k : Scalar) (s : System) : (Wire.constant k).Worth k s :=
  ⟨rfl, fun u _ => Combination.eval_constant u.value_one k⟩

theorem add (ha : a.Worth x s) (hb : b.Worth y s) : (a + b).Worth (x + y) s := by
  refine ⟨congrArg₂ (· + ·) ha.value hb.value, fun u hu => ?_⟩
  show (a.combination + b.combination).eval u.value = x + y
  rw [Combination.eval_add, ha.eval u hu, hb.eval u hu]

theorem sub (ha : a.Worth x s) (hb : b.Worth y s) : (a - b).Worth (x - y) s := by
  refine ⟨congrArg₂ (· - ·) ha.value hb.value, fun u hu => ?_⟩
  show (a.combination - b.combination).eval u.value = x - y
  rw [Combination.eval_sub, ha.eval u hu, hb.eval u hu]

theorem scale (k : Scalar) (ha : a.Worth x s) : (a.scale k).Worth (k * x) s := by
  refine ⟨congrArg (k * ·) ha.value, fun u hu => ?_⟩
  show (a.combination.scale k).eval u.value = k * x
  rw [Combination.eval_scale, ha.eval u hu]

/-- A wire whose combination is constant is worth that constant. -/
theorem eq_constant (ha : a.Worth x s) {k : Scalar} (hk : a.combination.constant? = some k) :
    x = k :=
  (ha.eval s (.refl s)).symm.trans (Combination.eval_of_constant? s.value_one hk)

end Wire.Worth

end Attest.Circuit
