import Attest.Curve.Compressed

/-! Proofs and keys, and their bytes.

A proof is three points, and its bytes are theirs in order: 128 of them. A
verifying key holds, for each public scalar and one more in front, a point of
the first group; a proving key holds the verifying key and five lists of
points, one entry for each variable or power it is combined with. -/
namespace Attest.Groth16
open Bn254

structure Proof where
  a : G1
  b : G2
  c : G1
deriving DecidableEq, Inhabited

structure VerifyingKey where
  alpha : G1
  beta : G2
  gamma : G2
  delta : G2
  /-- The public part: a constant, then one point for each public scalar. -/
  inputs : List G1
deriving DecidableEq, Inhabited

structure ProvingKey where
  verifying : VerifyingKey
  beta : G1
  delta : G1
  /-- The left, and twice the right, combinations of each variable at the secret point. -/
  left : List G1
  right : List G1
  rightTwin : List G2
  /-- The powers of the secret point times the vanishing polynomial. -/
  quotient : List G1
  /-- The private part, one point for each private variable. -/
  witness : List G1
deriving DecidableEq, Inhabited

/-- The value at the head of a byte string. -/
def decode (read : Reader α) (bs : Bytes) : Except DecodeError α := (read.run bs).map Prod.fst

namespace Proof

def read : Reader Proof := do
  return { a := ← Point.read, b := ← Point.read, c := ← Point.read }

def toBytes (p : Proof) : Bytes := p.a.write ++ p.b.write ++ p.c.write

def ofBytes (bs : Bytes) : Except Failure Proof :=
  (decode read bs).mapError (·.toFailure fun e => .malformedProof s!"invalid proof: {e}")

end Proof

namespace VerifyingKey

def read : Reader VerifyingKey := do
  return {
    alpha := ← Point.read
    beta := ← Point.read
    gamma := ← Point.read
    delta := ← Point.read
    inputs := ← Point.readList }

def toBytes (k : VerifyingKey) : Bytes :=
  k.alpha.write ++ k.beta.write ++ k.gamma.write ++ k.delta.write ++ Point.writeList k.inputs

def ofBytes (bs : Bytes) : Except Failure VerifyingKey :=
  (decode read bs).mapError (·.toFailure fun e => .malformedProof s!"invalid verifying key: {e}")

/-- How many public scalars the key expects. -/
def publicCount (k : VerifyingKey) : Nat := k.inputs.length - 1

end VerifyingKey

namespace ProvingKey

def read : Reader ProvingKey := do
  return {
    verifying := ← VerifyingKey.read
    beta := ← Point.read
    delta := ← Point.read
    left := ← Point.readList
    right := ← Point.readList
    rightTwin := ← Point.readList
    quotient := ← Point.readList
    witness := ← Point.readList }

def toBytes (k : ProvingKey) : Bytes :=
  k.verifying.toBytes ++ k.beta.write ++ k.delta.write ++ Point.writeList k.left ++
    Point.writeList k.right ++ Point.writeList k.rightTwin ++ Point.writeList k.quotient ++
    Point.writeList k.witness

def ofBytes (bs : Bytes) : Except Failure ProvingKey :=
  (decode read bs).mapError (·.toFailure .serialization)

end ProvingKey

end Attest.Groth16
