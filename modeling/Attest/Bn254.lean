import Attest.Residue

/-! The curve BN254's two prime fields.

Scalars are integers modulo the order of the curve's groups; coordinates of
points are integers modulo the base prime. Every value of this library that is
hashed, committed to or proved about is a scalar. -/
namespace Attest

namespace Bn254

/-- The prime order of the curve's groups. -/
def order : Nat :=
  21888242871839275222246405745257275088548364400416034343698204186575808495617

/-- The prime over which the curve is defined. -/
def basePrime : Nat :=
  21888242871839275222246405745257275088696311157297823662689037894645226208583

instance : Modulus order := ⟨by decide⟩
instance : Modulus basePrime := ⟨by decide⟩

/-- A coordinate. -/
abbrev Base := Residue basePrime

end Bn254

/-- An element of the scalar field. -/
abbrev Scalar := Residue Bn254.order

/-- The bytes of memory that a scalar takes. -/
def Scalar.footprint : Nat := 32

end Attest
