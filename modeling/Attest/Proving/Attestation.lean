import Attest.Bytes
import Attest.Bn254

/-! What a proving request yields. -/
namespace Attest

/-- The bytes of a proof, and the public scalars it is about. -/
structure Attestation where
  proof : Bytes
  publicSignals : List Scalar
deriving DecidableEq

end Attest
