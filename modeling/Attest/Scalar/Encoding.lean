import Attest.Bn254
import Attest.Text.Hex

/-! Scalars as bytes and as text.

The canonical forms are the 32-byte big-endian string and, as text, `0x` with
its 64 lowercase digits. Reading bytes reduces: a byte string of any length is
the scalar its number is congruent to. -/
namespace Attest.Scalar

/-- The width of a canonical encoding in bytes. -/
def byteWidth : Nat := 32

/-- The scalar congruent to a big-endian number. -/
def ofBytes (bs : Bytes) : Scalar := Residue.ofNat bs.toNatBE

def toBytes (x : Scalar) : Bytes := Bytes.ofNatBE byteWidth x.val

def toHex (x : Scalar) : String :=
  String.ofList ('0' :: 'x' :: Text.Hex.encode (toBytes x))

def toDecimal (x : Scalar) : String := Nat.repr x.val

theorem length_toBytes (x : Scalar) : (toBytes x).length = 32 :=
  Bytes.length_ofNatBE ..

end Attest.Scalar
