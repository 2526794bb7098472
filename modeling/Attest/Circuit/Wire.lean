import Attest.Circuit.System

/-! Wires: the values that a circuit computes with.

A wire has a value and the combination of variables that stands for it. Sums
and multiples of wires are wires already; a product of two that are not
constant is a new private scalar and the constraint that defines it. A circuit
is a program in `Builder`, which collects scalars and constraints in order. -/
namespace Attest.Circuit

structure Wire where
  value : Scalar
  combination : Combination
deriving DecidableEq, Inhabited

abbrev Builder := StateM System

namespace Wire

def constant (k : Scalar) : Wire := ⟨k, .constant k⟩

instance : Add Wire := ⟨fun a b => ⟨a.value + b.value, a.combination + b.combination⟩⟩
instance : Sub Wire := ⟨fun a b => ⟨a.value - b.value, a.combination - b.combination⟩⟩

def scale (k : Scalar) (a : Wire) : Wire := ⟨k * a.value, a.combination.scale k⟩

end Wire

namespace Builder

/-- A new public scalar. -/
def input (x : Scalar) : Builder Wire := do
  let index := (← get).inputs.size
  modify fun s => { s with inputs := s.inputs.push x }
  return ⟨x, .ofTerm (.input index) 1⟩

/-- A new private scalar. -/
def witness (x : Scalar) : Builder Wire := do
  let index := (← get).witness.size
  modify fun s => { s with witness := s.witness.push x }
  return ⟨x, .ofTerm (.witness index) 1⟩

def enforce (c : Constraint) : Builder Unit :=
  modify fun s => { s with constraints := s.constraints.push c }

def enforceEqual (a b : Wire) : Builder Unit :=
  enforce ⟨a.combination - b.combination, .constant 1, 0⟩

def mul (a b : Wire) : Builder Wire :=
  match a.combination.constant?, b.combination.constant? with
  | some k, _ => return b.scale k
  | none, some k => return a.scale k
  | none, none => do
    let c ← witness (a.value * b.value)
    enforce ⟨a.combination, b.combination, c.combination⟩
    return c

end Builder

/-- A wire whose value is zero or one. -/
structure Bit where
  isSet : Bool
  combination : Combination
deriving DecidableEq, Inhabited

namespace Bit

def value (b : Bit) : Scalar := if b.isSet then 1 else 0

def wire (b : Bit) : Wire := ⟨b.value, b.combination⟩

end Bit

namespace Builder

/-- A new private scalar that is constrained to be zero or one. -/
def bit (isSet : Bool) : Builder Bit := do
  let x ← witness (if isSet then 1 else 0)
  enforce ⟨x.combination, .constant 1 - x.combination, 0⟩
  return ⟨isSet, x.combination⟩

/-- `a` when the bit is set, else `b`. -/
def select (isSet : Bit) (a b : Wire) : Builder Wire :=
  return b + (← mul isSet.wire (a - b))

end Builder

end Attest.Circuit
