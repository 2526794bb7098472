import Mathlib.Data.List.Forall2
import Attest.Circuit.Statement

/-! The constraints of a circuit do not depend on its values.

Two runs of a program with different values go in lockstep (`Builder.Lockstep`):
from systems alike they leave systems alike, with the same constraints over the same
variables, and their wires stand for the same combinations. Every gadget is in
lockstep with itself, so circuits of witnesses of one shape are alike, and a key made
for one fits the others. A lockstep also counts what it makes public: gadgets
publish nothing, and a circuit publishes its public scalars in order. -/
namespace Attest.Circuit

/-- The same constraints over as many public and private scalars. -/
structure System.Alike (s t : System) : Prop where
  inputs : s.inputs.size = t.inputs.size
  witness : s.witness.size = t.witness.size
  constraints : s.constraints = t.constraints

theorem System.Alike.refl (s : System) : s.Alike s := ⟨rfl, rfl, rfl⟩

/-- The wires stand for the same combination. -/
def Wire.Alike (a b : Wire) : Prop := a.combination = b.combination

namespace Wire.Alike
variable {a a' b b' : Wire}

theorem refl (a : Wire) : a.Alike a := rfl

theorem add (ha : a.Alike a') (hb : b.Alike b') : (a + b).Alike (a' + b') :=
  congrArg₂ (· + ·) ha hb

theorem sub (ha : a.Alike a') (hb : b.Alike b') : (a - b).Alike (a' - b') :=
  congrArg₂ (· - ·) ha hb

theorem scale (k : Scalar) (ha : a.Alike a') : (a.scale k).Alike (a'.scale k) :=
  congrArg (Combination.scale k) ha

end Wire.Alike

def Bit.Alike (b c : Bit) : Prop := b.combination = c.combination

namespace Builder

/-- Whatever systems alike they start from, the programs leave systems alike and related results;
the first publishes the given scalars. -/
structure Lockstep (m : Builder α) (n : Builder β) (published : List Scalar) (R : α → β → Prop) :
    Prop where
  alike : ∀ s t, s.Alike t → (m.run s).2.Alike (n.run t).2
  related : ∀ s t, s.Alike t → R (m.run s).1 (n.run t).1
  publishes : ∀ s, (m.run s).2.inputs.toList = s.inputs.toList ++ published

namespace Lockstep
variable {m : Builder α} {n : Builder β} {p q : List Scalar} {Q : α → β → Prop}

theorem pure {a : α} {b : β} (h : Q a b) : Lockstep (pure a) (pure b) [] Q :=
  ⟨fun _ _ h => h, fun _ _ _ => h, fun s => (List.append_nil s.inputs.toList).symm⟩

theorem bind {f : α → Builder γ} {g : β → Builder δ} {R : γ → δ → Prop}
    (hm : Lockstep m n p Q) (hf : ∀ a b, Q a b → Lockstep (f a) (g b) q R) :
    Lockstep (m >>= f) (n >>= g) (p ++ q) R := by
  refine ⟨fun s t h => ?_, fun s t h => ?_, fun s => ?_⟩
  · exact (hf _ _ (hm.related s t h)).alike _ _ (hm.alike s t h)
  · exact (hf _ _ (hm.related s t h)).related _ _ (hm.alike s t h)
  · have hlast := (hf _ _ (hm.related s s (.refl s))).publishes (m.run s).2
    rw [hm.publishes, List.append_assoc] at hlast
    exact hlast

/-- What comes after programs that publish nothing. -/
theorem andThen {f : α → Builder γ} {g : β → Builder δ} {R : γ → δ → Prop}
    (hm : Lockstep m n [] Q) (hf : ∀ a b, Q a b → Lockstep (f a) (g b) q R) :
    Lockstep (m >>= f) (n >>= g) q R :=
  hm.bind hf

/-- Folds over lists of one length. -/
theorem foldlM {f : α → γ → Builder α} {g : β → δ → Builder β} {T : γ → δ → Prop}
    {us : List γ} {vs : List δ} (hlists : List.Forall₂ T us vs)
    (step : ∀ a b u v, Q a b → T u v → Lockstep (f a u) (g b v) [] Q) {a : α} {b : β}
    (h : Q a b) : Lockstep (us.foldlM f a) (vs.foldlM g b) [] Q := by
  induction hlists generalizing a b with
  | nil => exact .pure h
  | cons huv _ ih =>
    rw [List.foldlM_cons, List.foldlM_cons]
    exact (step a b _ _ h huv).andThen fun a b hab => ih hab

/-- A program run for each element of a list. -/
theorem mapM {f : γ → Builder α} {g : γ → Builder β} (h : ∀ x, Lockstep (f x) (g x) [] Q)
    (us : List γ) : Lockstep (us.mapM f) (us.mapM g) [] (List.Forall₂ Q) := by
  induction us with
  | nil => exact .pure .nil
  | cons u us ih =>
    rw [List.mapM_cons, List.mapM_cons]
    exact (h u).andThen fun _ _ hab => ih.andThen fun _ _ hrest => .pure (.cons hab hrest)

end Lockstep

/-! ### Primitives -/

variable {a a' b b' : Wire}

theorem input_lockstep (x y : Scalar) : Lockstep (input x) (input y) [x] Wire.Alike := by
  refine ⟨fun s t h => ⟨?_, h.witness, h.constraints⟩, fun s t h => ?_, fun s => Array.toList_push⟩
  · show (s.inputs.push x).size = (t.inputs.push y).size
    rw [Array.size_push, Array.size_push, h.inputs]
  · exact congrArg (fun i => Combination.ofTerm (.input i) 1) h.inputs

theorem witness_lockstep (x y : Scalar) : Lockstep (witness x) (witness y) [] Wire.Alike := by
  refine ⟨fun s t h => ⟨h.inputs, ?_, h.constraints⟩, fun s t h => ?_,
    fun s => (List.append_nil s.inputs.toList).symm⟩
  · show (s.witness.push x).size = (t.witness.push y).size
    rw [Array.size_push, Array.size_push, h.witness]
  · exact congrArg (fun i => Combination.ofTerm (.witness i) 1) h.witness

theorem enforce_lockstep {c d : Constraint} (h : c = d) :
    Lockstep (enforce c) (enforce d) [] (fun _ _ => True) := by
  subst h
  refine ⟨fun s t h => ⟨h.inputs, h.witness, ?_⟩, fun _ _ _ => trivial,
    fun s => (List.append_nil s.inputs.toList).symm⟩
  exact congrArg (Array.push · c) h.constraints

theorem enforceEqual_lockstep (ha : a.Alike a') (hb : b.Alike b') :
    Lockstep (enforceEqual a b) (enforceEqual a' b') [] (fun _ _ => True) :=
  enforce_lockstep (congrArg (fun c => Constraint.mk c (.constant 1) 0) (ha.sub hb))

theorem mul_lockstep (ha : a.Alike a') (hb : b.Alike b') :
    Lockstep (mul a b) (mul a' b') [] Wire.Alike := by
  have hleft : a'.combination = a.combination := ha.symm
  have hright : b'.combination = b.combination := hb.symm
  unfold mul
  rw [hleft, hright]
  cases a.combination.constant? with
  | some k => exact .pure (hb.scale k)
  | none =>
    cases b.combination.constant? with
    | some k => exact .pure (ha.scale k)
    | none =>
      refine (witness_lockstep _ _).andThen fun c d hcd => ?_
      have hsame : c.combination = d.combination := hcd
      exact (enforce_lockstep (by rw [hsame])).andThen fun _ _ _ => .pure hcd

theorem bit_lockstep (x y : Bool) : Lockstep (bit x) (bit y) [] Bit.Alike := by
  refine (witness_lockstep _ _).andThen fun c d hcd => ?_
  have hsame : c.combination = d.combination := hcd
  exact (enforce_lockstep (by rw [hsame])).andThen fun _ _ _ => .pure hcd

theorem select_lockstep {c d : Bit} (hcd : c.Alike d) (ha : a.Alike a') (hb : b.Alike b') :
    Lockstep (select c a b) (select d a' b') [] Wire.Alike := by
  have hwires : c.wire.Alike d.wire := hcd
  exact (mul_lockstep hwires (ha.sub hb)).andThen fun _ _ h => .pure (hb.add h)

/-! ### The hash -/

end Builder

/-- Lane for lane, the wires are alike. -/
structure Lanes.Alike (l k : Lanes) : Prop where
  capacity : l.capacity.Alike k.capacity
  first : l.first.Alike k.first
  second : l.second.Alike k.second

namespace Lanes.Alike
variable {l k : Lanes}

theorem addConstants (h : l.Alike k) (s : Poseidon.State) :
    (l.addConstants s).Alike (k.addConstants s) :=
  ⟨h.capacity.add (.refl _), h.first.add (.refl _), h.second.add (.refl _)⟩

theorem dot (h : l.Alike k) (row : Poseidon.State) : (l.dot row).Alike (k.dot row) :=
  ((h.capacity.scale _).add (h.first.scale _)).add (h.second.scale _)

theorem mix (h : l.Alike k) (m : Poseidon.Matrix) : (l.mix m).Alike (k.mix m) :=
  ⟨h.dot m.capacity, h.dot m.first, h.dot m.second⟩

end Lanes.Alike

structure Absorbed.Alike (x y : Absorbed) : Prop where
  lanes : x.lanes.Alike y.lanes
  fill : x.fill = y.fill

namespace Builder
variable (P : Poseidon.Params) {a a' b b' : Wire} {l k : Lanes}

theorem power_lockstep (ha : a.Alike a') : Lockstep (power a) (power a') [] Wire.Alike :=
  (mul_lockstep ha ha).andThen fun _ _ hsquare =>
    (mul_lockstep hsquare hsquare).andThen fun _ _ hfourth => mul_lockstep hfourth ha

theorem round_lockstep (h : l.Alike k) (r : Bool × Poseidon.State) :
    Lockstep (round P l r) (round P k r) [] Lanes.Alike := by
  obtain ⟨full, key⟩ := r
  have hkeyed := h.addConstants key
  refine (power_lockstep hkeyed.capacity).andThen fun c c' hcapacity => ?_
  cases full
  · have hlanes : Lanes.Alike { l.addConstants key with capacity := c }
        { k.addConstants key with capacity := c' } := ⟨hcapacity, hkeyed.first, hkeyed.second⟩
    exact .pure (hlanes.mix P.mixing)
  · refine (power_lockstep hkeyed.first).andThen fun x x' hfirst => ?_
    refine (power_lockstep hkeyed.second).andThen fun y y' hsecond => ?_
    have hlanes : Lanes.Alike ⟨c, x, y⟩ ⟨c', x', y'⟩ := ⟨hcapacity, hfirst, hsecond⟩
    exact .pure (hlanes.mix P.mixing)

theorem permute_lockstep (h : l.Alike k) :
    Lockstep (permute P l) (permute P k) [] Lanes.Alike := by
  refine .foldlM (T := Eq) (List.forall₂_eq_eq_eq ▸ rfl) (fun l k r _ h hr => ?_) h
  subst hr
  exact round_lockstep P h r

theorem absorb_lockstep {x y : Absorbed} (hxy : x.Alike y) (ha : a.Alike a') :
    Lockstep (absorb P x a) (absorb P y a') [] Absorbed.Alike := by
  have hl := hxy.lanes
  unfold absorb
  rw [← hxy.fill]
  cases x.fill with
  | empty => exact .pure ⟨⟨hl.capacity, hl.first.add ha, hl.second⟩, rfl⟩
  | first => exact .pure ⟨⟨hl.capacity, hl.first, hl.second.add ha⟩, rfl⟩
  | both =>
    refine (permute_lockstep P hl).andThen fun l k h => ?_
    exact .pure ⟨⟨h.capacity, h.first.add ha, h.second⟩, rfl⟩

theorem hash_lockstep {ws vs : List Wire} (h : List.Forall₂ Wire.Alike ws vs) :
    Lockstep (hash P ws) (hash P vs) [] Wire.Alike := by
  have hzero : Absorbed.Alike ⟨.zero, .empty⟩ ⟨.zero, .empty⟩ := ⟨⟨.refl _, .refl _, .refl _⟩, rfl⟩
  have hlength : (Wire.constant (Residue.ofNat ws.length)).Alike
      (.constant (Residue.ofNat vs.length)) := by
    rw [h.length_eq]
    exact .refl _
  refine (absorb_lockstep P hzero hlength).andThen fun x y hxy => ?_
  refine (Lockstep.foldlM h (fun _ _ _ _ hxy hw => absorb_lockstep P hxy hw) hxy).andThen
    fun x y hxy => ?_
  exact (permute_lockstep P hxy.lanes).andThen fun _ _ h => .pure h.first

/-! ### Bounds -/

theorem ofBits_alike {bits cs : List Bit} (h : List.Forall₂ Bit.Alike bits cs) :
    (Wire.ofBits bits).Alike (Wire.ofBits cs) := by
  have key : ∀ (a b : Wire) (weight : Scalar), a.Alike b →
      Wire.Alike
        (bits.foldl (fun sum c => (sum.1 + c.wire.scale sum.2, sum.2 + sum.2)) (a, weight)).1
        (cs.foldl (fun sum c => (sum.1 + c.wire.scale sum.2, sum.2 + sum.2)) (b, weight)).1 := by
    induction h with
    | nil => exact fun a b weight hab => hab
    | @cons c d bits cs hcd _ ih =>
      intro a b weight hab
      have hwires : c.wire.Alike d.wire := hcd
      exact ih _ _ _ (hab.add (hwires.scale weight))
  exact key ⟨0, 0⟩ ⟨0, 0⟩ 1 (.refl _)

theorem digits_lockstep (w v : Wire) (n : Nat) :
    Lockstep (digits w n) (digits v n) [] (List.Forall₂ Bit.Alike) :=
  .mapM (fun _ => bit_lockstep _ _) (List.range n)

theorem fitsIn_lockstep (n : Nat) (ha : a.Alike a') :
    Lockstep (fitsIn n a) (fitsIn n a') [] (fun _ _ => True) :=
  (digits_lockstep a a' n).andThen fun _ _ h => enforceEqual_lockstep (ofBits_alike h) ha

/-! ### Circuits -/

theorem openClaim_lockstep (value document value' document' : Scalar) (ha : a.Alike a') :
    Lockstep (openClaim P value document a) (openClaim P value' document' a') [] Wire.Alike := by
  refine (witness_lockstep _ _).andThen fun v v' hv => ?_
  refine (witness_lockstep _ _).andThen fun d d' hd => ?_
  refine (hash_lockstep P (.cons hv (.cons hd .nil))).andThen fun h h' hh => ?_
  exact (enforceEqual_lockstep hh ha).andThen fun _ _ _ => .pure hv

theorem climb_lockstep (ha : a.Alike a') (step step' : Scalar × Bool) :
    Lockstep (climb P a step) (climb P a' step') [] Wire.Alike := by
  refine (witness_lockstep _ _).andThen fun sibling sibling' hsibling => ?_
  refine (bit_lockstep _ _).andThen fun c c' hc => ?_
  refine (select_lockstep hc hsibling ha).andThen fun left left' hleft => ?_
  refine (select_lockstep hc ha hsibling).andThen fun right right' hright => ?_
  exact hash_lockstep P (.cons hleft (.cons hright .nil))

end Builder

end Circuit

open Circuit.Builder

theorem ThresholdWitness.constrain_lockstep (P : Poseidon.Params) (w v : ThresholdWitness) :
    Lockstep (w.constrain P) (v.constrain P) [w.commitment, w.threshold] (fun _ _ => True) := by
  refine (input_lockstep _ _).bind fun c c' hc => ?_
  refine (input_lockstep _ _).bind (q := []) fun b b' hb => ?_
  refine (openClaim_lockstep P _ _ _ _ hc).andThen fun x x' hx => ?_
  refine (fitsIn_lockstep thresholdBits hx).andThen fun _ _ _ => ?_
  refine (fitsIn_lockstep thresholdBits hb).andThen fun _ _ _ => ?_
  exact fitsIn_lockstep thresholdBits (hx.sub hb)

/-- Paths of one length have the same layout. -/
theorem MembershipWitness.constrain_lockstep (P : Poseidon.Params) {w v : MembershipWitness}
    (h : (w.siblings.zip w.pathBits).length = (v.siblings.zip v.pathBits).length) :
    Lockstep (w.constrain P) (v.constrain P) [w.root, w.commitment] (fun _ _ => True) := by
  have hpaths : List.Forall₂ (fun _ _ => True) (w.siblings.zip w.pathBits)
      (v.siblings.zip v.pathBits) :=
    List.forall₂_of_length_eq_of_get h fun _ _ _ => trivial
  refine (input_lockstep _ _).bind fun r r' hr => ?_
  refine (input_lockstep _ _).bind (q := []) fun c c' hc => ?_
  refine (openClaim_lockstep P _ _ _ _ hc).andThen fun x x' hx => ?_
  refine (hash_lockstep P (.cons hx .nil)).andThen fun leaf leaf' hleaf => ?_
  have hfold := Lockstep.foldlM (f := climb P) (g := climb P) hpaths
    (fun _ _ step step' hn _ => climb_lockstep P hn step step') hleaf
  exact hfold.andThen fun top top' htop => enforceEqual_lockstep htop hr

end Attest
