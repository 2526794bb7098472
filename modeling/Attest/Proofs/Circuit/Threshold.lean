import Attest.Circuit.Statement
import Attest.Proofs.Circuit.Range
import Attest.Proofs.Circuit.Sponge

/-! The threshold circuit says that a committed value reaches its bound.

`openClaim_adds` is the part that both circuits share: opening a claim demands
that its hash is the commitment. Three range checks follow. With both operands
below `2 ^ 64`, their difference in the field is below it too exactly when the
bound is not the larger one: otherwise the difference wraps to within `2 ^ 64` of
the order, which has 254 bits (`val_sub_fits_iff`). -/
namespace Attest

open Circuit

/-- Of two numbers that fit, the difference fits exactly when it does not wrap. -/
theorem val_sub_fits_iff {a b : Scalar} (ha : a.val < Nat.pow 2 thresholdBits)
    (hb : b.val < Nat.pow 2 thresholdBits) :
    (a - b).val < Nat.pow 2 thresholdBits ↔ b.val ≤ a.val := by
  have hroom : Nat.pow 2 thresholdBits + Nat.pow 2 thresholdBits ≤ Bn254.order := by decide
  rw [Residue.val_sub]
  by_cases hle : b.val ≤ a.val
  · have hmod : (a.val + (Bn254.order - b.val)) % Bn254.order = a.val - b.val := by
      rw [show a.val + (Bn254.order - b.val) = a.val - b.val + Bn254.order by omega,
        Nat.add_mod_right, Nat.mod_eq_of_lt (by omega)]
    rw [hmod]
    exact iff_of_true (by omega) hle
  · have hmod : (a.val + (Bn254.order - b.val)) % Bn254.order = a.val + (Bn254.order - b.val) :=
      Nat.mod_eq_of_lt (by omega)
    rw [hmod]
    exact iff_of_false (by omega) hle

namespace Circuit.Builder
variable (P : Poseidon.Params) {s : System}

/-- Opening a claim demands that it hashes to its commitment. -/
theorem openClaim_adds (value documentHash : Scalar) {commitment : Wire} {c : Scalar}
    (hc : commitment.Worth c s) : Adds s (openClaim P value documentHash commitment)
      (P.hash [value, documentHash] = c) (·.Worth value) := by
  refine (witness_adds value).andThen fun v t ht hv => ?_
  refine (witness_adds documentHash).andThen fun d u hu hd => ?_
  refine (hash_adds P (.cons (hv.extend hu) (.cons hd .nil))).andThen fun h w hw hh => ?_
  have hopened := (enforceEqual_adds hh (hc.extend (ht.trans (hu.trans hw)))).bind
    (R := fun w t => Wire.Worth w value t)
    fun _ y hy _ => Adds.pure (hv.extend (hu.trans (hw.trans hy)))
  exact hopened.weaken (and_iff_left trivial) fun _ _ _ h => h

end Circuit.Builder

namespace ThresholdWitness
open Circuit.Builder

theorem constrain_adds (P : Poseidon.Params) (w : ThresholdWitness) (s : System) :
    Adds s (w.constrain P)
      (P.hash [w.value, w.documentHash] = w.commitment ∧ w.value.val < Nat.pow 2 thresholdBits ∧
        w.threshold.val < Nat.pow 2 thresholdBits ∧
        (w.value - w.threshold).val < Nat.pow 2 thresholdBits) (fun _ _ => True) := by
  refine (input_adds w.commitment).andThen fun commitment t _ hcommitment => ?_
  refine (input_adds w.threshold).andThen fun threshold u hu hthreshold => ?_
  refine (openClaim_adds P w.value w.documentHash (hcommitment.extend hu)).bind
    fun value v hv hvalue => ?_
  refine (fitsIn_adds hvalue thresholdBits).bind fun _ x hx _ => ?_
  have hthreshold := hthreshold.extend (hv.trans hx)
  refine (fitsIn_adds hthreshold thresholdBits).bind fun _ y hy _ => ?_
  exact fitsIn_adds ((hvalue.extend (hx.trans hy)).sub (hthreshold.extend hy)) thresholdBits

/-- **The threshold circuit is satisfied exactly by true statements**: the claim hashes to the
commitment, value and bound fit 64 bits as numbers, and the bound is not the larger. -/
theorem satisfied_synthesize_iff (P : Poseidon.Params) (w : ThresholdWitness) :
    (w.synthesize P).Satisfied ↔
      w.commitment = P.hash [w.value, w.documentHash] ∧ w.value.val < 2 ^ 64 ∧
        w.threshold.val < 2 ^ 64 ∧ w.threshold.val ≤ w.value.val := by
  refine (constrain_adds P w .empty).satisfied_iff.trans ?_
  refine and_congr eq_comm (and_congr_right fun hvalue => and_congr_right fun hthreshold => ?_)
  exact val_sub_fits_iff hvalue hthreshold

end ThresholdWitness

end Attest
