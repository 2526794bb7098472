import Attest.Groth16.Scheme
import Attest.Proofs.Proving.Scheme

/-! A key made for a system is fit for proving.

Its lists hold one point for each variable of the system, the constant included
(`ProvingKey.length_left` and its like), so proving never breaks off for want of the
constant's. The proof system of the service is complete, then, wherever its proofs of
satisfied systems verify (`groth16_complete`), and then it attests exactly the true statements
(`groth16_attestsTruths`). -/
namespace Attest

namespace Bn254

theorem length_inverses {F : Type} [One F] [Mul F] [Inv F] (xs : List F) :
    (inverses xs).length = xs.length := by
  have key : ∀ acc : F, (inverses.go xs acc).1.length = xs.length := by
    induction xs with
    | nil => exact fun acc => rfl
    | cons x rest ih => exact fun acc => congrArg Nat.succ (ih (acc * x))
  exact key 1

variable {F : Type} [Curve F]

theorem length_toPoints (ps : List (Jacobian F)) : (Jacobian.toPoints ps).length = ps.length := by
  rw [Jacobian.toPoints, List.length_map, List.length_zip, length_inverses, List.length_map,
    Nat.min_self]

theorem Multiples.length_mulAll (m : Multiples F) (ns : List Nat) :
    (m.mulAll ns).length = ns.length := by
  rw [mulAll, length_toPoints, List.length_map]

end Bn254

namespace Circuit.System

/-- How many variables a system has, the constant included. -/
def columnCount (s : System) : Nat := 1 + s.inputs.size + s.witness.size

theorem columnCount_pos (s : System) : 0 < s.columnCount := by
  rw [columnCount]
  omega

theorem length_sumColumns (s : System) (side : Constraint → Combination) (weights : List Scalar) :
    (s.sumColumns side weights).length = s.columnCount := by
  have hterms : ∀ (terms : List (Variable × Scalar)) (weight : Scalar) (sums : Array Scalar),
      (terms.foldl (fun sums t => sums.modify (s.column t.1) (· + weight * t.2)) sums).size =
        sums.size := by
    intro terms weight
    induction terms with
    | nil => exact fun sums => rfl
    | cons t rest ih => exact fun sums => (ih _).trans Array.size_modify
  have hrows : ∀ (rows : List (Constraint × Scalar)) (sums : Array Scalar),
      (rows.foldl (fun sums row => (side row.1).terms.foldl
        (fun sums t => sums.modify (s.column t.1) (· + row.2 * t.2)) sums) sums).size =
        sums.size := by
    intro rows
    induction rows with
    | nil => exact fun sums => rfl
    | cons row rest ih => exact fun sums => (ih _).trans (hterms _ _ sums)
  rw [sumColumns, Array.length_toList, hrows, Array.size_replicate]
  rfl

end Circuit.System

namespace Groth16
open Bn254 Circuit

/-- Each column's multiple of a point. -/
theorem length_mulAll_columns {F : Type} [Curve F] (m : Multiples F) (s : System)
    (side : Constraint → Combination) (weights : List Scalar) :
    (m.mulAll ((s.sumColumns side weights).map (·.val))).length = s.columnCount := by
  rw [Multiples.length_mulAll, List.length_map, System.length_sumColumns]

namespace ProvingKey
variable (t : Secrets) (s : System)

theorem length_left : (generate t s).left.length = s.columnCount :=
  length_mulAll_columns (.ofPoint G1.generator) s (·.left) _

theorem length_right : (generate t s).right.length = s.columnCount :=
  length_mulAll_columns (.ofPoint G1.generator) s (·.right) _

theorem length_rightTwin : (generate t s).rightTwin.length = s.columnCount :=
  length_mulAll_columns (.ofPoint G2.generator) s (·.right) _

/-- Proving with a key that was made for a system does not break off. -/
theorem exists_prove? (m : Mask) (u : System) :
    ∃ proof, (generate t s).prove? m u = some proof := by
  have hfull : ∀ {F : Type} {ps : List (Point F)}, ps.length = s.columnCount →
      ps.isEmpty = false := fun h =>
    List.isEmpty_eq_false_iff.mpr (List.ne_nil_of_length_pos (h ▸ s.columnCount_pos))
  rw [prove?, hfull (length_left t s), hfull (length_right t s), hfull (length_rightTwin t s)]
  exact ⟨_, rfl⟩

end ProvingKey

end Groth16

section Service
open Circuit
variable {P : Poseidon.Params} {p : Predicate} {depth : Nat} {entropy : Entropy}

theorem groth16_complete {s : System}
    (verifies : ∀ t, t.Alike s → t.Satisfied → ∀ mask proof,
      groth16.prove (groth16.setup entropy s) mask t = some proof →
        groth16.verify (groth16.verifyingKey (groth16.setup entropy s)) proof t.inputs.toList =
          .ok true) : groth16.Complete (groth16.setup entropy s) s := by
  refine ⟨fun t _ _ mask => ?_, verifies⟩
  obtain ⟨proof, hproof⟩ :=
    Groth16.ProvingKey.exists_prove? (.ofEntropy entropy) s (.ofEntropy mask) t
  exact ⟨proof.toBytes, congrArg (Option.map Groth16.Proof.toBytes) hproof⟩

/-- **With a key that the service made it attests exactly the true statements**, wherever the proofs
that it makes of satisfied systems verify. -/
theorem groth16_attestsTruths {key : Groth16.ProvingKey}
    (hkey : groth16.setupPredicate P p depth entropy = .ok key)
    (verifies : ∀ s, (Witness.blank depth p).synthesize P = .ok s → ∀ t, t.Alike s → t.Satisfied →
      ∀ mask proof, groth16.prove key mask t = some proof →
        groth16.verify (groth16.verifyingKey key) proof t.inputs.toList = .ok true) :
    groth16.AttestsTruths P p depth key := by
  obtain ⟨-, s, hs, rfl⟩ := Scheme.setupPredicate_eq_ok_iff.mp hkey
  exact (groth16_complete (verifies s hs)).attestsTruths hs

end Service

end Attest
