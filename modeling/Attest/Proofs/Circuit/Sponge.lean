import Attest.Circuit.Hash
import Attest.Proofs.Circuit.Gadget

/-! The hash inside a circuit is the hash.

Wires follow the sponge of scalars step for step: through the power map, a round,
the permutation and an absorbed input, lanes that are worth a state become lanes
worth the next one. `hash_adds` is the end of it: the gadget demands nothing, and
its wire is worth the hash of what the given wires are worth. -/
namespace Attest.Circuit

/-- Three lanes are worth a state. -/
structure Lanes.Worth (l : Lanes) (x : Poseidon.State) (s : System) : Prop where
  capacity : l.capacity.Worth x.capacity s
  first : l.first.Worth x.first s
  second : l.second.Worth x.second s

namespace Lanes.Worth
variable {s t : System} {l : Lanes} {x : Poseidon.State}

theorem extend (h : l.Worth x s) (hst : s.Extends t) : l.Worth x t :=
  ⟨h.capacity.extend hst, h.first.extend hst, h.second.extend hst⟩

theorem zero (s : System) : Lanes.zero.Worth Poseidon.State.zero s :=
  ⟨.constant 0 s, .constant 0 s, .constant 0 s⟩

theorem addConstants (h : l.Worth x s) (k : Poseidon.State) :
    (l.addConstants k).Worth (x.add k) s :=
  ⟨h.capacity.add (.constant _ s), h.first.add (.constant _ s), h.second.add (.constant _ s)⟩

theorem dot (h : l.Worth x s) (row : Poseidon.State) : (l.dot row).Worth (row.dot x) s :=
  ((h.capacity.scale _).add (h.first.scale _)).add (h.second.scale _)

theorem mix (h : l.Worth x s) (m : Poseidon.Matrix) : (l.mix m).Worth (m.apply x) s :=
  ⟨h.dot m.capacity, h.dot m.first, h.dot m.second⟩

end Lanes.Worth

/-- A sponge of wires is worth a sponge. -/
structure Absorbed.Worth (a : Absorbed) (x : Poseidon.Sponge) (s : System) : Prop where
  lanes : a.lanes.Worth x.lanes s
  fill : a.fill = x.fill

namespace Builder
variable (P : Poseidon.Params) {s : System}

theorem power_adds {a : Wire} {x : Scalar} (ha : a.Worth x s) :
    Adds s (power a) True (·.Worth (Poseidon.power x)) := by
  refine (mul_adds ha ha).andThen fun square t ht hsquare => ?_
  refine (mul_adds hsquare hsquare).andThen fun fourth u hu hfourth => ?_
  exact mul_adds hfourth (ha.extend (ht.trans hu))

theorem round_adds {l : Lanes} {x : Poseidon.State} (hl : l.Worth x s)
    (r : Bool × Poseidon.State) : Adds s (round P l r) True (·.Worth (P.round x r)) := by
  obtain ⟨full, key⟩ := r
  have hkeyed := hl.addConstants key
  refine (power_adds hkeyed.capacity).andThen fun capacity t ht hcapacity => ?_
  cases full
  · have hlanes : Lanes.Worth { l.addConstants key with capacity }
        { x.add key with capacity := Poseidon.power (x.add key).capacity } t :=
      ⟨hcapacity, hkeyed.first.extend ht, hkeyed.second.extend ht⟩
    exact .pure (hlanes.mix P.mixing)
  · refine (power_adds (hkeyed.first.extend ht)).andThen fun first u hu hfirst => ?_
    refine (power_adds (hkeyed.second.extend (ht.trans hu))).andThen fun second v hv hsecond => ?_
    have hlanes : Lanes.Worth ⟨capacity, first, second⟩ ((x.add key).map Poseidon.power) v :=
      ⟨hcapacity.extend (hu.trans hv), hfirst.extend hv, hsecond⟩
    exact .pure (hlanes.mix P.mixing)

theorem permute_adds {l : Lanes} {x : Poseidon.State} (hl : l.Worth x s) :
    Adds s (permute P l) True (·.Worth (P.permute x)) :=
  .foldlM (R := fun x l t => Lanes.Worth l x t) P.schedule
    (fun _ _ r _ _ _ h => round_adds P h r) (.refl s) hl

theorem absorb_adds {a : Absorbed} {x : Poseidon.Sponge} {w : Wire} {y : Scalar}
    (ha : a.Worth x s) (hw : w.Worth y s) : Adds s (absorb P a w) True (·.Worth (x.absorb P y)) := by
  have hl := ha.lanes
  unfold absorb Poseidon.Sponge.absorb
  rw [ha.fill]
  cases x.fill with
  | empty => exact .pure ⟨⟨hl.capacity, hl.first.add hw, hl.second⟩, rfl⟩
  | first => exact .pure ⟨⟨hl.capacity, hl.first, hl.second.add hw⟩, rfl⟩
  | both =>
    refine (permute_adds P hl).andThen fun l t ht h => ?_
    exact .pure ⟨⟨h.capacity, h.first.add (hw.extend ht), h.second⟩, rfl⟩

/-- Wires that are worth scalars hold them as their values. -/
theorem worth_values {ws : List Wire} {xs : List Scalar}
    (h : List.Forall₂ (fun w x => w.Worth x s) ws xs) :
    (∀ w ∈ ws, w.Worth w.value s) ∧ ws.map Wire.value = xs := by
  induction h with
  | nil => exact ⟨fun w hw => absurd hw List.not_mem_nil, rfl⟩
  | @cons w x ws xs hw _ ih =>
    refine ⟨fun v hv => ?_, congrArg₂ List.cons hw.value ih.2⟩
    rcases List.mem_cons.mp hv with rfl | hv
    · rw [hw.value]
      exact hw
    · exact ih.1 v hv

/-- **The gadget computes the hash**: it adds constraints that are always met, and its wire is worth
the hash of what the given wires are worth. -/
theorem hash_adds {ws : List Wire} {xs : List Scalar}
    (hws : List.Forall₂ (fun w x => w.Worth x s) ws xs) :
    Adds s (hash P ws) True (·.Worth (P.hash xs)) := by
  obtain ⟨hworth, rfl⟩ := worth_values hws
  have hstart : (⟨.zero, .empty⟩ : Absorbed).Worth .empty s := ⟨.zero s, rfl⟩
  have hlength : (Wire.constant (Residue.ofNat ws.length)).Worth (Residue.ofNat ws.length) s :=
    .constant _ s
  refine (absorb_adds P hstart hlength).andThen fun start t ht hstart => ?_
  have hfold := Adds.foldlM (s := s) ws (g := fun x w => x.absorb P w.value)
    (R := fun x a t => Absorbed.Worth a x t)
    (fun x a w u hw hu ha => absorb_adds P ha ((hworth w hw).extend hu)) ht hstart
  refine hfold.andThen fun last u _ hlast => ?_
  refine (permute_adds P hlast.lanes).andThen fun l v _ hl => .pure ?_
  have hvalue : P.hash (ws.map Wire.value) = (P.permute ((ws.foldl (fun x w => x.absorb P w.value)
      (Poseidon.Sponge.empty.absorb P (Residue.ofNat ws.length))).lanes)).first := by
    rw [Poseidon.Params.hash, List.length_map, Poseidon.Sponge.absorbAll, List.foldl_map,
      Poseidon.Sponge.squeeze]
  rw [hvalue]
  exact hl.first

end Builder

end Attest.Circuit
