import Attest.Bn254

/-! The Poseidon permutation on three lanes.

One lane is the capacity and two are the rate. A round adds its key to the
lanes, raises lanes to the fifth power — all of them in a full round, the
capacity lane alone in a partial one — and mixes them by a matrix. Half of the
full rounds come first, then the partial ones, then the rest. -/
namespace Attest.Poseidon

/-- The three lanes. -/
structure State where
  capacity : Scalar
  first : Scalar
  second : Scalar
deriving DecidableEq

namespace State

def zero : State := ⟨0, 0, 0⟩

def add (s t : State) : State :=
  ⟨s.capacity + t.capacity, s.first + t.first, s.second + t.second⟩

def map (f : Scalar → Scalar) (s : State) : State :=
  ⟨f s.capacity, f s.first, f s.second⟩

def dot (s t : State) : Scalar :=
  s.capacity * t.capacity + s.first * t.first + s.second * t.second

def toList (s : State) : List Scalar := [s.capacity, s.first, s.second]

end State

/-- The rows of a three by three matrix. -/
structure Matrix where
  capacity : State
  first : State
  second : State

def Matrix.apply (m : Matrix) (s : State) : State :=
  ⟨m.capacity.dot s, m.first.dot s, m.second.dot s⟩

def Matrix.rows (m : Matrix) : List State := [m.capacity, m.first, m.second]

/-- Everything that fixes the permutation. -/
structure Params where
  fullRounds : Nat
  partialRounds : Nat
  /-- One key for each round, in the order of the rounds. -/
  roundKeys : List State
  mixing : Matrix

/-- The number of lanes that take input. -/
def rate : Nat := 2

def capacity : Nat := 1

/-- The exponent of the power map. -/
def exponent : Nat := 5

def power (x : Scalar) : Scalar :=
  let square := x * x
  square * square * x

namespace Params
variable (P : Params)

/-- The rounds in order: whether each is full, and its key. -/
def schedule : List (Bool × State) :=
  (List.replicate (P.fullRounds / 2) true ++ List.replicate P.partialRounds false ++
    List.replicate (P.fullRounds - P.fullRounds / 2) true).zip P.roundKeys

def round (s : State) (r : Bool × State) : State :=
  let keyed := s.add r.2
  P.mixing.apply
    (if r.1 then keyed.map power else { keyed with capacity := power keyed.capacity })

def permute (s : State) : State := P.schedule.foldl P.round s

end Params

end Attest.Poseidon
