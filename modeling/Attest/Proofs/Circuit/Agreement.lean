import Attest.Proofs.Circuit.Range
import Attest.Proofs.Circuit.Sponge

/-! The hash of a list, computed and constrained.

Each scalar of the list comes into the circuit as a private scalar or as a constant
(`Origin`), in any mixture. Wires come in with their scalars as their worth, and from there
the hash inside the circuit follows the hash (`hash_adds`): the circuit is satisfied, and
its wire carries the hash of the list. -/
namespace Attest.Circuit

/-- How a scalar comes into a circuit. -/
inductive Origin where
  | witness
  | constant

namespace Builder
variable (P : Poseidon.Params)

def enter : Origin × Scalar → Builder Wire
  | (.witness, x) => witness x
  | (.constant, x) => return .constant x

/-- The wire of the hash of a list that comes in. -/
def hashOf (xs : List (Origin × Scalar)) : Builder Wire := do
  hash P (← xs.mapM enter)

theorem enter_adds (x : Origin × Scalar) (s : System) : Adds s (enter x) True (·.Worth x.2) := by
  obtain ⟨origin, x⟩ := x
  cases origin with
  | witness => exact witness_adds x
  | constant => exact .pure (.constant x s)

theorem hashOf_adds (xs : List (Origin × Scalar)) (s : System) :
    Adds s (hashOf P xs) True (·.Worth (P.hash (xs.map Prod.snd))) := by
  have henter := mapM_adds (Q := fun (x : Origin × Scalar) w t => Wire.Worth w x.2 t)
    (fun _ _ _ _ hw hst => Wire.Worth.extend hw hst) enter_adds xs (s := s)
  refine henter.andThen fun ws t _ hws => hash_adds P ?_
  exact List.forall₂_map_right_iff.mpr hws.flip

/-- **The hash inside a circuit agrees with the hash**: whatever list comes in, and however, the
system is satisfied and the wire has the list's hash as its value and as what its combination
evaluates to. From any other system on, all constraints that are added are met. -/
theorem hashOf_agrees (xs : List (Origin × Scalar)) :
    ((hashOf P xs).run .empty).2.Satisfied ∧
      ∀ s, ((hashOf P xs).run s).1.value = P.hash (xs.map Prod.snd) ∧
        ((hashOf P xs).run s).1.combination.eval ((hashOf P xs).run s).2.value =
          P.hash (xs.map Prod.snd) ∧
        (((hashOf P xs).run s).2.Satisfied ↔ s.HoldsIn ((hashOf P xs).run s).2) := by
  refine ⟨(hashOf_adds P xs .empty).satisfied_iff.mpr trivial, fun s => ?_⟩
  obtain ⟨-, hholds, hworth⟩ := hashOf_adds P xs s
  refine ⟨hworth.value, hworth.eval _ (.refl _), ?_⟩
  exact (hholds _ (.refl _)).trans (and_iff_left trivial)

end Builder

end Attest.Circuit
