/-! Double-precision magnitudes in exact arithmetic.

A magnitude is `mantissa * 2 ^ exponent` with at most 53 bits of mantissa.
`ofRatio` rounds a ratio to the nearest one, ties to the even mantissa, and
fails past the largest; products and quotients are the rounded exact ones.
`digits` are the fewest decimal digits that round back, the nearest such where
several do. -/
namespace Attest.Decimal

structure Binary64 where
  mantissa : Nat
  exponent : Int
deriving DecidableEq

namespace Binary64

def zero : Binary64 := ⟨0, 0⟩

/-- The exponent of the smallest positive magnitude. -/
def minExponent : Int := -1074

/-- `n / d` rounded to a whole number, a tie to the even one. -/
def roundDiv (n d : Nat) : Nat :=
  let q := n / d
  let twice := 2 * (n % d)
  if twice < d ∨ (twice = d ∧ q % 2 = 0) then q else q + 1

/-- The ratio `n / (d * 2 ^ e)` as a pair of naturals. -/
def scale (n d : Nat) (e : Int) : Nat × Nat :=
  if e < 0 then (n * Nat.pow 2 e.natAbs, d) else (n, d * Nat.pow 2 e.natAbs)

/-- The exponent at which `n / d` has 53 bits before the point, or the least one. -/
def exponentFor (n d : Nat) : Int :=
  let guess : Int := n.log2 - d.log2 - 52
  let whole := fun e => let r := scale n d e; r.1 / r.2
  let e :=
    if whole guess < Nat.pow 2 52 then guess - 1
    else if Nat.pow 2 53 ≤ whole guess then guess + 1
    else guess
  max e minExponent

/-- The magnitude nearest to `n / d`, unless that lies past the largest. -/
def ofRatio (n d : Nat) : Option Binary64 :=
  if n = 0 then some zero
  else
    let e := exponentFor n d
    let r := scale n d e
    let m := roundDiv r.1 r.2
    let (m, e) := if m = Nat.pow 2 53 then (Nat.pow 2 52, e + 1) else (m, e)
    if e > 971 then none else some ⟨m, e⟩

/-- The magnitude as a ratio. -/
def toRatio (x : Binary64) : Nat × Nat :=
  if x.exponent < 0 then (x.mantissa, Nat.pow 2 x.exponent.natAbs)
  else (x.mantissa * Nat.pow 2 x.exponent.natAbs, 1)

def mul (x y : Binary64) : Option Binary64 :=
  let (a, b) := x.toRatio
  let (c, d) := y.toRatio
  ofRatio (a * c) (b * d)

def div (x y : Binary64) : Option Binary64 :=
  let (a, b) := x.toRatio
  let (c, d) := y.toRatio
  ofRatio (a * d) (b * c)

/-- Whether `n / d` rounds to the magnitude. -/
def covers (x : Binary64) (n d : Nat) : Bool := ofRatio n d == some x

/-- The place of the leading decimal digit of `n / d`, below the number given. -/
def leadingPlace (n d : Nat) : Int :=
  let guess : Int := (Nat.toDigits 10 n).length - (Nat.toDigits 10 d).length
  let atLeast := fun (p : Int) =>
    if p < 0 then n * Nat.pow 10 p.natAbs ≥ d else n ≥ d * Nat.pow 10 p.natAbs
  if atLeast guess then guess else guess - 1

/-- Among the two `count`-digit decimals around the magnitude, the nearest that rounds back. -/
def atDigits (x : Binary64) (count : Nat) : Option (Nat × Int) :=
  let (n, d) := x.toRatio
  let unit : Int := leadingPlace n d - count + 1
  let asRatio := fun (c : Nat) =>
    if unit < 0 then (c, Nat.pow 10 unit.natAbs) else (c * Nat.pow 10 unit.natAbs, 1)
  let (gn, gd) :=
    if unit < 0 then (n * Nat.pow 10 unit.natAbs, d) else (n, d * Nat.pow 10 unit.natAbs)
  let low := gn / gd
  let fits := fun c => let r := asRatio c; x.covers r.1 r.2
  let nearest := roundDiv gn gd
  let other := if nearest = low then low + 1 else low
  if fits nearest then some (nearest, unit)
  else if fits other then some (other, unit)
  else none

/-- The digits without zeros at their end, and the place of the last. -/
def dropZeros : Nat → Nat → Int → Nat × Int
  | 0, c, p => (c, p)
  | fuel + 1, c, p => if c % 10 = 0 ∧ c ≠ 0 then dropZeros fuel (c / 10) (p + 1) else (c, p)

/-- The shortest decimal that rounds back: a whole number and the place of its last digit. -/
def shortest (x : Binary64) : Nat × Int :=
  if x.mantissa = 0 then (0, 0)
  else
    let (c, p) := ((List.range 17).findSome? fun k => x.atDigits (k + 1)).getD (0, 0)
    dropZeros 20 c p

/-- The shortest decimal as text: positional from 0.00001 up to sixteen digits before the point,
with an exponent past either end. -/
def render (x : Binary64) : List Char :=
  let (c, place) := x.shortest
  let ds := Nat.toDigits 10 c
  let point : Int := ds.length + place
  if 0 ≤ place ∧ point ≤ 16 then ds ++ List.replicate place.natAbs '0' ++ ['.', '0']
  else if 0 < point ∧ point ≤ 16 then ds.take point.natAbs ++ '.' :: ds.drop point.natAbs
  else if -5 < point ∧ point ≤ 0 then '0' :: '.' :: List.replicate point.natAbs '0' ++ ds
  else
    let e := point - 1
    let mantissa := if ds.length = 1 then ds else ds.take 1 ++ '.' :: ds.drop 1
    mantissa ++ 'e' :: (if e < 0 then '-' else '+') :: Nat.toDigits 10 e.natAbs

end Binary64

end Attest.Decimal
