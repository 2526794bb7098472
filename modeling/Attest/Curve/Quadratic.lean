import Attest.Bn254

/-! The quadratic extension of the base field, with `u * u = -1`.

Its elements are the coordinates of the curve's second group. Order compares the
coefficient of `u` first. `sqrt?` finds a square root whenever its answer,
squared again, gives the element back. -/
namespace Attest.Bn254

namespace Base

/-- The exponent that takes a square to the inverse of its root, for a prime that leaves three on
division by four. -/
def rootExponent : List Bool := binary ((basePrime - 3) / 4)

/-- A square root and its inverse; both are zero for zero. -/
def sqrtInv? (a : Base) : Option (Base × Base) :=
  let inverse := powBinary a rootExponent
  let root := a * inverse
  if root * root = a then some (root, inverse) else none

def sqrt? (a : Base) : Option Base := (sqrtInv? a).map Prod.fst

/-- The inverse of two. -/
def half : Base := Residue.ofNat ((basePrime + 1) / 2)

end Base

/-- `re + im * u`. -/
structure Quadratic where
  re : Base
  im : Base
deriving DecidableEq

namespace Quadratic

instance : Zero Quadratic := ⟨⟨0, 0⟩⟩
instance : One Quadratic := ⟨⟨1, 0⟩⟩
instance : Add Quadratic := ⟨fun a b => ⟨a.re + b.re, a.im + b.im⟩⟩
instance : Sub Quadratic := ⟨fun a b => ⟨a.re - b.re, a.im - b.im⟩⟩
instance : Neg Quadratic := ⟨fun a => ⟨-a.re, -a.im⟩⟩
instance : Mul Quadratic :=
  ⟨fun a b => ⟨.mulSub a.re b.re a.im b.im, .mulAdd a.re b.im a.im b.re⟩⟩

def conj (a : Quadratic) : Quadratic := ⟨a.re, -a.im⟩

def scale (k : Base) (a : Quadratic) : Quadratic := ⟨k * a.re, k * a.im⟩

/-- The product with the conjugate. -/
def norm (a : Quadratic) : Base := a.re * a.re + a.im * a.im

instance : Inv Quadratic := ⟨fun a => scale a.norm⁻¹ a.conj⟩

/-- The element whose sixth root builds the field of the pairing. -/
def nonResidue : Quadratic := ⟨Residue.ofNat 9, 1⟩

instance : LT Quadratic := ⟨fun a b => a.im < b.im ∨ (a.im = b.im ∧ a.re < b.re)⟩
instance (a b : Quadratic) : Decidable (a < b) :=
  inferInstanceAs (Decidable (a.im < b.im ∨ (a.im = b.im ∧ a.re < b.re)))

/-- The root whose real part is a root of `delta`, if there is one. -/
def rootFrom? (a : Quadratic) (delta : Base) : Option Quadratic := do
  let (re, inverse) ← Base.sqrtInv? delta
  let root : Quadratic := ⟨re, a.im * Base.half * inverse⟩
  if root * root = a then some root else none

def sqrt? (a : Quadratic) : Option Quadratic :=
  if a.im = 0 then
    match Base.sqrt? a.re with
    | some s => some ⟨s, 0⟩
    | none => (Base.sqrt? (-a.re)).map fun s => ⟨0, s⟩
  else do
    let n ← Base.sqrt? a.norm
    let delta := (a.re + n) * Base.half
    (rootFrom? a delta).or (rootFrom? a (delta - n))

end Quadratic

end Attest.Bn254
