import Attest.Poseidon.Permutation

/-! The sponge hash of a list of scalars.

Inputs are added into the two rate lanes one after the other; the lanes are
permuted when an input finds both of them taken, and once more before the
answer is read off the first of them. A hash absorbs the length of the list and
then the list, so that lists of different lengths never absorb the same
sequence. -/
namespace Attest.Poseidon

/-- Which of the two rate lanes have taken input since the last permutation. -/
inductive Fill where
  | empty
  | first
  | both
deriving DecidableEq

structure Sponge where
  lanes : State
  fill : Fill

namespace Sponge

def empty : Sponge := ⟨State.zero, .empty⟩

variable (P : Params)

def absorb (s : Sponge) (x : Scalar) : Sponge :=
  match s.fill with
  | .empty => ⟨{ s.lanes with first := s.lanes.first + x }, .first⟩
  | .first => ⟨{ s.lanes with second := s.lanes.second + x }, .both⟩
  | .both =>
    let lanes := P.permute s.lanes
    ⟨{ lanes with first := lanes.first + x }, .first⟩

def absorbAll (s : Sponge) (xs : List Scalar) : Sponge := xs.foldl (absorb P) s

def squeeze (s : Sponge) : Scalar := (P.permute s.lanes).first

end Sponge

namespace Params
variable (P : Params)

/-- The hash of a list, its length absorbed first. -/
def hash (xs : List Scalar) : Scalar :=
  ((Sponge.empty.absorb P (Residue.ofNat xs.length)).absorbAll P xs).squeeze P

def hashPair (left right : Scalar) : Scalar := P.hash [left, right]

end Params

end Attest.Poseidon
