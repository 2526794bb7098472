import Attest.Poseidon.Grain
import Attest.Poseidon.Sponge

/-! The permutation's parameters over the scalar field of BN254.

Nothing is chosen by hand: the round keys are the generator's outputs below the
modulus, in order, and the mixing matrix is the Cauchy matrix of the six that
follow, each reduced. -/
namespace Attest.Poseidon

/-- Bits of the scalar modulus. -/
def scalarBits : Nat := 254

/-- Generated scalars below the modulus. -/
def sampled : Nat → Grain.Register → List Scalar × Grain.Register
  | 0, r => ([], r)
  | n + 1, r =>
    let (x, r) := Grain.below Bn254.order scalarBits 4096 r
    let (xs, r) := sampled n r
    (Residue.ofNat x :: xs, r)

/-- Generated scalars, reduced. -/
def reduced : Nat → Grain.Register → List Scalar × Grain.Register
  | 0, r => ([], r)
  | n + 1, r =>
    let (x, r) := Grain.bits scalarBits 0 r
    let (xs, r) := reduced n r
    (Residue.ofNat x :: xs, r)

/-- The list in threes. -/
def states : List Scalar → List State
  | a :: b :: c :: rest => ⟨a, b, c⟩ :: states rest
  | _ => []

/-- The matrix of the inverses of the sums of a row's and a column's scalar. -/
def cauchy (rows columns : State) : Matrix :=
  let row := fun x => columns.map fun y => (x + y)⁻¹
  ⟨row rows.capacity, row rows.first, row rows.second⟩

def derive (fullRounds partialRounds : Nat) : Params :=
  let rounds := fullRounds + partialRounds
  let (keys, r) := sampled (3 * rounds) (Grain.seed scalarBits 3 fullRounds partialRounds)
  let corners := states (reduced 6 r).1
  { fullRounds, partialRounds
    roundKeys := states keys
    mixing := cauchy (corners.headD State.zero) ((corners.drop 1).headD State.zero) }

/-- The parameters that commitments, trees and circuits share. -/
def standard : Params := derive 8 57

/-- The parameters in one line, as shown to an operator. -/
def Params.describe (P : Params) : String :=
  s!"HashBackend \x7b full_rounds: {P.fullRounds}, partial_rounds: {P.partialRounds}, " ++
    s!"rate: {rate}, .. \x7d"

end Attest.Poseidon
