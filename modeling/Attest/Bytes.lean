/-! Byte strings, and the numbers they spell in either byte order.

`Bytes.ofNatBE` and `Bytes.ofNatLE` write a number in a fixed width;
`toNatBE` and `toNatLE` read a byte string of any length. -/
namespace Attest

abbrev Bytes := List UInt8

namespace Bytes

/-- The number spelled with the most significant byte first. -/
def toNatBE (bs : Bytes) : Nat :=
  bs.foldl (fun n b => n * 256 + b.toNat) 0

/-- The number spelled with the least significant byte first. -/
def toNatLE : Bytes → Nat
  | [] => 0
  | b :: rest => b.toNat + 256 * toNatLE rest

/-- The low `width` bytes of `n`, least significant first. -/
def ofNatLE : Nat → Nat → Bytes
  | 0, _ => []
  | width + 1, n => UInt8.ofNat (n % 256) :: ofNatLE width (n / 256)

/-- The low `width` bytes of `n`, most significant first. -/
def ofNatBE (width n : Nat) : Bytes :=
  (ofNatLE width n).reverse

theorem length_ofNatLE (width n : Nat) : (ofNatLE width n).length = width := by
  induction width generalizing n with
  | zero => rfl
  | succ w ih => simp [ofNatLE, ih]

theorem length_ofNatBE (width n : Nat) : (ofNatBE width n).length = width := by
  simp [ofNatBE, length_ofNatLE]

/-- The bytes of a text in UTF-8. -/
def ofText (cs : List Char) : Bytes :=
  cs.flatMap String.utf8EncodeChar

/-- The text spelled in UTF-8, if the bytes are well formed. -/
def toText? (bs : Bytes) : Option String :=
  String.fromUTF8? ⟨bs.toArray⟩

/-- The character at the head of the bytes, and how many of them spell it. -/
def head? (bs : Bytes) : Option (Char × Nat) :=
  [1, 2, 3, 4].findSome? fun n =>
    match (toText? (bs.take n)).map String.toList with
    | some [c] => some (c, n)
    | _ => none

/-- The characters that the bytes spell in order, with nothing in place of a byte that is part of
none. -/
def pieces : Bytes → List (Option Char)
  | [] => []
  | b :: rest =>
    match head? (b :: rest) with
    | some (c, n) => some c :: pieces (rest.drop (n - 1))
    | none => none :: pieces rest
termination_by bs => bs.length
decreasing_by all_goals simp; try omega

end Bytes

end Attest
