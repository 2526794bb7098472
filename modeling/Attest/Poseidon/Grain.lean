/-! The Grain generator in self-shrinking mode.

An eighty-bit linear feedback register gives bits in pairs; the second bit of a
pair is an output when the first is set and is dropped otherwise. The register
is a number whose bit `i` is the bit that leaves after `i` more steps. -/
namespace Attest.Poseidon.Grain

abbrev Register := Nat

/-- The bit that the register feeds back. -/
def feedback (r : Register) : Bool :=
  r.testBit 62 ^^ r.testBit 51 ^^ r.testBit 38 ^^ r.testBit 23 ^^ r.testBit 13 ^^ r.testBit 0

/-- One step: the bit fed back, and the register that holds it in its last place. -/
def step (r : Register) : Bool × Register :=
  let b := feedback r
  (b, r / 2 + if b then Nat.pow 2 79 else 0)

def steps : Nat → Register → Register
  | 0, r => r
  | n + 1, r => steps n (step r).2

/-- The next output, after at most `tries` dropped pairs. -/
def next : Nat → Register → Bool × Register
  | 0, r => step r
  | tries + 1, r =>
    match step r with
    | (true, r) => step r
    | (false, r) => next tries (step r).2

/-- `n` bits, most significant first, as a number appended to `acc`. -/
def bits : Nat → Nat → Register → Nat × Register
  | 0, acc, r => (acc, r)
  | n + 1, acc, r =>
    let (b, r) := next 4096 r
    bits n (2 * acc + b.toNat) r

/-- The first number below `bound` among `width`-bit outputs, with at most `tries` above it. -/
def below (bound width : Nat) : Nat → Register → Nat × Register
  | 0, r => (0, r)
  | tries + 1, r =>
    match bits width 0 r with
    | (n, r) => if n < bound then (n, r) else below bound width tries r

/-- The register that describes a permutation: a prime field of `fieldBits` bits, a power map,
`width` lanes and the numbers of rounds, in fields of 2, 4, 12, 12, 10 and 10 bits, then ones. The
first 160 outputs are skipped. -/
def seed (fieldBits width fullRounds partialRounds : Nat) : Register :=
  let fields : List (Nat × Nat) :=
    [(2, 1), (4, 0), (12, fieldBits), (12, width), (10, fullRounds), (10, partialRounds),
      (30, Nat.pow 2 30 - 1)]
  let bitsOf := fun (f : Nat × Nat) => (List.range f.1).map fun i => f.2.testBit (f.1 - 1 - i)
  steps 160 ((fields.flatMap bitsOf).foldr (fun b r => 2 * r + b.toNat) 0)

end Attest.Poseidon.Grain
