import Attest.Circuit.Wire

/-! Bounds on a wire, by its binary digits.

`fitsIn n` allocates the low `n` digits of the wire's number as bits and demands
that they spell the wire. This holds exactly when the number is below `2 ^ n`,
as long as no two spellings agree modulo the order of the field.

The service takes its digits from a library's decomposition of the whole scalar,
the first `n` of all there are. The rest of that decomposition is left out here,
the other bits and the constraints that spell the scalar with them: they can be
met for every scalar, and what is shown of these `n` digits is shown without
them. -/
namespace Attest.Circuit

/-- The number that bits spell, lowest first. -/
def Wire.ofBits (bits : List Bit) : Wire :=
  (bits.foldl (fun (sum, weight) b => (sum + b.wire.scale weight, weight + weight))
    ((⟨0, 0⟩ : Wire), (1 : Scalar))).1

namespace Builder

/-- The low `n` digits of the wire's number, lowest first. -/
def digits (w : Wire) (n : Nat) : Builder (List Bit) :=
  (List.range n).mapM fun i => bit (w.value.val.testBit i)

def fitsIn (n : Nat) (w : Wire) : Builder Unit := do
  enforceEqual (.ofBits (← digits w n)) w

end Builder

end Attest.Circuit
