import Attest.Proofs.Ring
import Attest.Scalar.Encoding

/-! Numbers in bytes, in either order.

A fixed width keeps a number's remainder (`toNatLE_ofNatLE`, `toNatBE_ofNatBE`). A
scalar's canonical encoding is wide enough for its number, so reading it gives the
scalar back (`Scalar.ofBytes_toBytes`), and encodings in a row are read one by one
(`Scalar.readAll_encoded`). -/
namespace Attest

namespace Bytes

theorem toNatLE_ofNatLE (width n : Nat) : toNatLE (ofNatLE width n) = n % 256 ^ width := by
  induction width generalizing n with
  | zero => simp [ofNatLE, toNatLE, Nat.mod_one]
  | succ width ih =>
    have hbyte : (UInt8.ofNat (n % 256)).toNat = n % 256 := by simp
    rw [ofNatLE, toNatLE, ih, hbyte, Nat.pow_succ', Nat.mod_mul]

theorem toNatLE_lt (bs : Bytes) : toNatLE bs < 256 ^ bs.length := by
  induction bs with
  | nil => exact Nat.one_pos
  | cons b rest ih =>
    have hb := b.toNat_lt
    rw [toNatLE, List.length_cons, Nat.pow_succ']
    omega

theorem ofNatLE_toNatLE (bs : Bytes) : ofNatLE bs.length (toNatLE bs) = bs := by
  induction bs with
  | nil => rfl
  | cons b rest ih =>
    have hb := b.toNat_lt
    have hmod : (b.toNat + 256 * toNatLE rest) % 256 = b.toNat := by omega
    have hdiv : (b.toNat + 256 * toNatLE rest) / 256 = toNatLE rest := by omega
    rw [toNatLE, List.length_cons, ofNatLE, hmod, hdiv, ih, UInt8.ofNat_toNat]

/-- The two orders mirror each other. -/
theorem toNatBE_reverse (bs : Bytes) : toNatBE bs.reverse = toNatLE bs := by
  rw [toNatBE, List.foldl_reverse]
  induction bs with
  | nil => rfl
  | cons b rest ih =>
    rw [List.foldr_cons, ih, toNatLE]
    ring

theorem toNatBE_ofNatBE (width n : Nat) : toNatBE (ofNatBE width n) = n % 256 ^ width := by
  rw [ofNatBE, toNatBE_reverse, toNatLE_ofNatLE]

end Bytes

namespace Scalar

theorem val_lt_width (x : Scalar) : x.val < 256 ^ byteWidth :=
  Nat.lt_trans x.isLt (by decide)

/-- Reading a canonical encoding gives the scalar back. -/
theorem ofBytes_toBytes (x : Scalar) : ofBytes (toBytes x) = x := by
  rw [ofBytes, toBytes, Bytes.toNatBE_ofNatBE, Nat.mod_eq_of_lt x.val_lt_width, Residue.ofNat_val]

/-- So many scalars from the front of a byte string. -/
def readAll : Nat → Bytes → List Scalar
  | 0, _ => []
  | n + 1, bs => ofBytes (bs.take byteWidth) :: readAll n (bs.drop byteWidth)

theorem readAll_encoded (xs : List Scalar) : readAll xs.length (xs.flatMap toBytes) = xs := by
  induction xs with
  | nil => rfl
  | cons x rest ih =>
    have hwidth : (toBytes x).length = byteWidth := length_toBytes x
    rw [List.length_cons, readAll, List.flatMap_cons, List.take_left' hwidth,
      List.drop_left' hwidth, ofBytes_toBytes, ih]

end Scalar

end Attest
