import Attest.Bytes
import Attest.Curve.Subgroup
import Attest.Failure
import Attest.Memory

/-! Points as bytes.

A coordinate is 32 bytes, least significant first. A point is its `x`, with two
flags in the top bits of the last byte: one for the larger of the two `y`, one
for infinity. Reading refuses coordinates past the prime, both flags together,
an `x` without a point and a point outside the group of prime order; bytes
after the last one needed are left alone, and the coordinate of a point at
infinity is read and dropped. A list of points has its length in front and is
checked for the group only after all of it has been read; a length of more
points than memory can address is not even begun. -/
namespace Attest.Bn254

inductive DecodeError where
  | unexpectedEnd
  | invalidData
  | unexpectedFlags
  /-- A list announces more points than memory can address. -/
  | unaddressable
deriving DecidableEq

def DecodeError.message : DecodeError → String
  | .unexpectedEnd =>
    "I/O error: Error \x7b kind: UnexpectedEof, message: \"failed to fill whole buffer\" \x7d"
  | .invalidData => "the input buffer contained invalid data"
  | .unexpectedFlags => "the call expects empty flags"
  | .unaddressable => "capacity overflow"

/-- A decoding error as a failure: what memory cannot hold is reported to nobody. -/
def DecodeError.toFailure (report : String → Failure) : DecodeError → Failure
  | .unaddressable => .exhausted
  | e => report e.message

/-- Reads a value at the head of a byte string and gives the bytes after it. -/
abbrev Reader (α : Type) := StateT Bytes (Except DecodeError) α

/-- The number in the next `width` bytes, least significant first. -/
def Reader.nat (width : Nat) : Reader Nat := fun bs =>
  let head := bs.take width
  if head.length < width then throw .unexpectedEnd
  else pure (Bytes.toNatLE head, bs.drop width)

/-- What the two top bits of a point's last byte say. -/
inductive Sign where
  | smaller
  | larger
  | infinity
deriving DecidableEq

def Sign.bits : Sign → Nat
  | .smaller => 0
  | .infinity => 1
  | .larger => 2

def Sign.ofBits? : Nat → Option Sign
  | 0 => some .smaller
  | 1 => some .infinity
  | 2 => some .larger
  | _ => none

/-- The bits of a coordinate's bytes below the two flags. -/
def flagShift : Nat := 254

def coordinate (n : Nat) : Except DecodeError Base :=
  if h : n < basePrime then .ok ⟨n, h⟩ else .error .invalidData

/-- A coordinate without flags. -/
def Reader.base : Reader Base := do coordinate (← Reader.nat 32)

/-- A coordinate with flags: the flags are looked at first. -/
def Reader.flaggedBase : Reader (Base × Sign) := do
  let n ← Reader.nat 32
  match Sign.ofBits? (n / Nat.pow 2 flagShift) with
  | none => throw .unexpectedFlags
  | some sign => return (← coordinate (n % Nat.pow 2 flagShift), sign)

/-- A coordinate field whose points have a byte form. -/
class Compressible (F : Type) extends Curve F, LT F where
  [decLT : DecidableLT F]
  sqrt? : F → Option F
  read : Reader (F × Sign)
  write : F → Sign → Bytes
  /-- The bytes of memory that a point takes: its two coordinates and a word. -/
  footprint : Nat
  inSubgroup : Point F → Bool

instance Compressible.decidableLT [c : Compressible F] : DecidableLT F := c.decLT

def writeBase (x : Base) (sign : Sign) : Bytes :=
  Bytes.ofNatLE 32 (x.val + sign.bits * Nat.pow 2 flagShift)

instance : Compressible Base where
  sqrt? := Base.sqrt?
  read := Reader.flaggedBase
  write := writeBase
  footprint := 72
  inSubgroup _ := true

instance : Compressible Quadratic where
  sqrt? := Quadratic.sqrt?
  read := do
    let re ← Reader.base
    let (im, sign) ← Reader.flaggedBase
    return (⟨re, im⟩, sign)
  write x sign := writeBase x.re .smaller ++ writeBase x.im sign
  footprint := 136
  inSubgroup := G2.inSubgroup

namespace Point
variable {F : Type} [Compressible F]

/-- The point at `x` with the smaller or the larger `y`. -/
def lift? (x : F) (sign : Sign) : Option (Point F) :=
  match sign with
  | .infinity => some infinity
  | sign =>
    (Compressible.sqrt? (rightSide x)).map fun y =>
      let minus := -y
      let (small, large) := if y < minus then (y, minus) else (minus, y)
      affine x (if sign = .larger then large else small)

def check (p : Point F) : Except DecodeError Unit :=
  match p with
  | infinity => .ok ()
  | p => if Compressible.inSubgroup p then .ok () else .error .invalidData

/-- A point of the curve, in the group or not. -/
def readUnchecked : Reader (Point F) := do
  let (x, sign) ← Compressible.read (F := F)
  match lift? x sign with
  | some p => return p
  | none => throw .invalidData

def read : Reader (Point F) := do
  let p ← readUnchecked
  check p
  return p

def write : Point F → Bytes
  | infinity => Compressible.write (F := F) 0 .infinity
  | affine x y => Compressible.write x (if -y < y then .larger else .smaller)

def readMany : Nat → Reader (List (Point F))
  | 0 => return []
  | n + 1 => do
    let p ← readUnchecked
    return p :: (← readMany n)

def readList : Reader (List (Point F)) := do
  let n ← Reader.nat 8
  if !Memory.holds n (Compressible.footprint F) then throw .unaddressable
  let ps ← readMany n
  ps.forM fun p => check p
  return ps

def writeList (ps : List (Point F)) : Bytes :=
  Bytes.ofNatLE 8 ps.length ++ ps.flatMap write

end Point

end Attest.Bn254
