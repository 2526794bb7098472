import Attest.Failure
import Attest.Poseidon.Sponge
import Attest.Scalar.Numeral

/-! Claims and their commitments.

A claim binds a private value to the document it was read from. A document is
known by its digest, a byte string of any length, which is reduced into the
field; `Claim.commit` hashes the value and the reduced digest, without salt, so
that equal claims have equal commitments. An attribute alone is committed to by
its leaf, the hash of the one-element list. -/
namespace Attest

/-- A document's digest as supplied, most significant byte first. -/
structure Digest where
  bytes : Bytes
deriving DecidableEq

/-- A digest reduced into the field. -/
structure DocumentHash where
  scalar : Scalar
deriving DecidableEq

namespace Digest

/-- Reads hexadecimal digits, with or without `0x`, between blanks. -/
def parse (s : String) : Except Text.Hex.Error Digest :=
  let cs := Text.trim s.toList
  (Text.Hex.decode ((Text.Hex.afterMark? cs).getD cs)).map Digest.mk

def reduce (d : Digest) : DocumentHash := ⟨Scalar.ofBytes d.bytes⟩

end Digest

structure Claim where
  value : Scalar
  document : DocumentHash
deriving DecidableEq

namespace Claim

/-- Reads a claim from the text of its value and the text of its document's digest. -/
def parse (value digest : String) : Except Failure Claim := do
  let value ← (Scalar.parse value).mapError (.invalidInput ·.message)
  let digest ← (Digest.parse digest).mapError (.invalidInput ·.message)
  return ⟨value, digest.reduce⟩

def commit (P : Poseidon.Params) (c : Claim) : Scalar := P.hash [c.value, c.document.scalar]

/-- The commitment of the claim given as text, in canonical hexadecimal. -/
def commitText (P : Poseidon.Params) (value digest : String) : Except Failure String :=
  (parse value digest).map fun c => (c.commit P).toHex

end Claim

/-- The leaf that stands for a bare value. -/
def attributeLeaf (P : Poseidon.Params) (value : Scalar) : Scalar := P.hash [value]

/-- The largest numeric country code. -/
def maxCountryCode : Nat := 999

/-- The leaves of an allow list of numeric country codes, in the order given. -/
def countryLeaves (P : Poseidon.Params) (codes : List Nat) : Except Failure (List Scalar) :=
  codes.mapM fun code =>
    if code ≤ maxCountryCode then .ok (attributeLeaf P (Residue.ofNat code))
    else .error (.invalidInput s!"country code must be 0-{maxCountryCode} (got {code})")

end Attest
