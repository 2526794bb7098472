import Attest.Circuit.Wire
import Attest.Poseidon.Sponge

/-! The sponge hash inside a circuit.

Each step does to wires what the sponge does to scalars; only the power map
costs constraints. Its value is the hash of the wires' values. -/
namespace Attest.Circuit

/-- The three lanes, as wires. -/
structure Lanes where
  capacity : Wire
  first : Wire
  second : Wire

namespace Lanes

def zero : Lanes := ⟨.constant 0, .constant 0, .constant 0⟩

def addConstants (l : Lanes) (s : Poseidon.State) : Lanes :=
  ⟨l.capacity + .constant s.capacity, l.first + .constant s.first, l.second + .constant s.second⟩

def dot (row : Poseidon.State) (l : Lanes) : Wire :=
  l.capacity.scale row.capacity + l.first.scale row.first + l.second.scale row.second

def mix (m : Poseidon.Matrix) (l : Lanes) : Lanes :=
  ⟨l.dot m.capacity, l.dot m.first, l.dot m.second⟩

end Lanes

/-- A sponge of wires. -/
structure Absorbed where
  lanes : Lanes
  fill : Poseidon.Fill

namespace Builder

def power (x : Wire) : Builder Wire := do
  let square ← mul x x
  mul (← mul square square) x

variable (P : Poseidon.Params)

def round (l : Lanes) (r : Bool × Poseidon.State) : Builder Lanes := do
  let keyed := l.addConstants r.2
  let capacity ← power keyed.capacity
  if r.1 then
    let first ← power keyed.first
    let second ← power keyed.second
    return Lanes.mix P.mixing ⟨capacity, first, second⟩
  else
    return Lanes.mix P.mixing { keyed with capacity }

def permute (l : Lanes) : Builder Lanes := P.schedule.foldlM (round P) l

def absorb (s : Absorbed) (x : Wire) : Builder Absorbed :=
  match s.fill with
  | .empty => return ⟨{ s.lanes with first := s.lanes.first + x }, .first⟩
  | .first => return ⟨{ s.lanes with second := s.lanes.second + x }, .both⟩
  | .both => do
    let lanes ← permute P s.lanes
    return ⟨{ lanes with first := lanes.first + x }, .first⟩

/-- The hash of a list of wires, its length absorbed first. -/
def hash (xs : List Wire) : Builder Wire := do
  let start ← absorb P ⟨.zero, .empty⟩ (.constant (Residue.ofNat xs.length))
  let last ← xs.foldlM (absorb P) start
  return (← permute P last.lanes).first

end Builder

end Attest.Circuit
