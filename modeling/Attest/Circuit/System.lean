import Attest.Circuit.Combination

/-! Rank-one constraint systems.

A constraint says that the product of two combinations is a third. A system
holds its constraints together with the value of each public and private scalar,
in order of allocation, and is satisfied when every constraint holds of them. -/
namespace Attest.Circuit

structure Constraint where
  left : Combination
  right : Combination
  product : Combination
deriving DecidableEq, Inhabited

def Constraint.Holds (value : Assignment) (c : Constraint) : Prop :=
  c.left.eval value * c.right.eval value = c.product.eval value

instance (value : Assignment) (c : Constraint) : Decidable (c.Holds value) :=
  inferInstanceAs (Decidable (_ = _))

structure System where
  inputs : Array Scalar
  witness : Array Scalar
  constraints : Array Constraint
deriving DecidableEq, Inhabited

namespace System

def empty : System := ⟨#[], #[], #[]⟩

def value (s : System) : Assignment
  | .one => 1
  | .input i => s.inputs[i]?.getD 0
  | .witness i => s.witness[i]?.getD 0

def Satisfied (s : System) : Prop := ∀ c ∈ s.constraints, c.Holds s.value

instance (s : System) : Decidable s.Satisfied :=
  decidable_of_iff (s.constraints.all (fun c => decide (c.Holds s.value)) = true) <| by
    rw [Array.all_eq_true_iff_forall_mem]
    simp only [decide_eq_true_eq, Satisfied]

end System

end Attest.Circuit
