import Attest.Bn254

/-! Scalars made of machine words.

A word without a sign is the scalar of its number. The size of a signed word is
taken without a sign before it is negated: the least word is no exception, though
its size is no signed word. -/
namespace Attest.Scalar

def ofWord (w : UInt64) : Scalar := Residue.ofNat w.toNat

def ofDoubleWord (w : BitVec 128) : Scalar := Residue.ofNat w.toNat

def ofSignedWord (w : Int64) : Scalar :=
  let size := ofWord w.abs.toUInt64
  if w < 0 then -size else size

end Attest.Scalar
