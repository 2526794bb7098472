import Attest.Proofs.Assembly
import Attest.Proofs.Circuit.Layout
import Attest.Proofs.Circuit.Membership

/-! The system that a witness makes, and what it states.

A witness of the right shape always makes a system: it publishes the witness's signals
and is satisfied exactly when the witness's statement holds
(`Witness.Shaped.synthesizes`). Which variables and constraints it has depends on the
shape alone (`Witness.Shaped.alike`), so the witness of zeros stands for all others of
its predicate and depth. -/
namespace Attest

open Circuit

/-- The claim hashes to its commitment, value and bound fit 64 bits, and the bound is not the
larger. -/
def ThresholdWitness.Holds (P : Poseidon.Params) (w : ThresholdWitness) : Prop :=
  w.commitment = P.hash [w.value, w.documentHash] ∧ w.value.val < 2 ^ 64 ∧
    w.threshold.val < 2 ^ 64 ∧ w.threshold.val ≤ w.value.val

theorem ThresholdWitness.constrained_iff_holds (P : Poseidon.Params) (w : ThresholdWitness) :
    ((w.constrain P).run .empty).2.Satisfied ↔ w.Holds P := by
  refine (constrain_adds P w .empty).satisfied_iff.trans ?_
  exact and_congr eq_comm
    (and_congr_right fun hvalue => and_congr_right fun hbound => val_sub_fits_iff hvalue hbound)

namespace Witness
variable {P : Poseidon.Params} {p : Predicate} {depth : Nat} {w v : Witness} {s t : System}

/-- The statement of a witness is true. -/
def Holds (P : Poseidon.Params) : Witness → Prop
  | .threshold w => w.Holds P
  | .membership w => w.Holds P

/-- A witness of the right shape makes a system, which publishes its signals and is satisfied by
true statements only. -/
theorem Shaped.synthesizes (P : Poseidon.Params) (h : w.Shaped depth p) :
    ∃ s, w.synthesize P = .ok s ∧ s.inputs.toList = w.publicSignals ∧
      (s.Satisfied ↔ w.Holds P) := by
  cases h with
  | threshold w =>
    have hlayout := ThresholdWitness.constrain_lockstep P w w
    exact ⟨((w.constrain P).run .empty).2, rfl, hlayout.publishes .empty,
      w.constrained_iff_holds P⟩
  | @membership w hsiblings hpathBits =>
    have hsystem := MembershipWitness.synthesize_eq_ok_iff (P := P).mpr
      ⟨⟨rfl, hpathBits.trans hsiblings.symm⟩, rfl⟩
    have hlayout := MembershipWitness.constrain_lockstep P (w := w) (v := w) rfl
    exact ⟨_, hsystem, hlayout.publishes .empty, w.constrained_iff_holds P⟩

/-- Witnesses of one shape make systems alike. -/
theorem Shaped.alike (hw : w.Shaped depth p) (hv : v.Shaped depth p)
    (hs : w.synthesize P = .ok s) (ht : v.synthesize P = .ok t) : s.Alike t := by
  cases hw with
  | threshold w =>
    cases hv with
    | threshold v =>
      obtain rfl := Except.ok.inj hs
      obtain rfl := Except.ok.inj ht
      exact (ThresholdWitness.constrain_lockstep P w v).alike _ _ (.refl .empty)
  | @membership w hsiblings hpathBits =>
    cases hv with
    | @membership v hsiblings' hpathBits' =>
      obtain rfl := (MembershipWitness.synthesize_eq_ok_iff.mp hs).2
      obtain rfl := (MembershipWitness.synthesize_eq_ok_iff.mp ht).2
      have hpaths : (w.siblings.zip w.pathBits).length = (v.siblings.zip v.pathBits).length := by
        simp only [List.length_zip, hsiblings, hpathBits, hsiblings', hpathBits']
      exact (MembershipWitness.constrain_lockstep P hpaths).alike _ _ (.refl .empty)

end Witness

end Attest
