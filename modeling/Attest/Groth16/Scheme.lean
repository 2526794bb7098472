import Attest.Groth16.Prove
import Attest.Groth16.Setup
import Attest.Groth16.Verify
import Attest.Proving.Scheme

/-! The proof system of the service: three points of BN254 prove a circuit. -/
namespace Attest

def groth16 : Scheme Groth16.ProvingKey Groth16.VerifyingKey where
  setup entropy s := .generate (.ofEntropy entropy) s
  verifyingKey k := k.verifying
  writeProvingKey k := k.toBytes
  readProvingKey := Groth16.ProvingKey.ofBytes
  writeVerifyingKey k := k.toBytes
  readVerifyingKey := Groth16.VerifyingKey.ofBytes
  prove k entropy s := (k.prove? (.ofEntropy entropy) s).map Groth16.Proof.toBytes
  verify k proof signals := k.verify proof signals

end Attest
