import Attest.Curve.Quadratic

/-! The two groups of BN254.

Both are the points of a curve `y² = x³ + b`, over the base field and over its
quadratic extension, with the point at infinity as zero. Points that are kept,
sent or compared are in affine form; sums run through `Jacobian` triples, which
stand for `(x / z², y / z³)` and need no division. -/
namespace Attest.Bn254

/-- A field of coordinates and the constant of the curve over it. -/
class Curve (F : Type) extends Zero F, One F, Add F, Sub F, Neg F, Mul F, Inv F where
  b : F
  [decEq : DecidableEq F]

instance [c : Curve F] : DecidableEq F := c.decEq

instance : Curve Base where
  b := Residue.ofNat 3

instance : Curve Quadratic where
  b := Quadratic.scale (Residue.ofNat 3) Quadratic.nonResidue⁻¹

inductive Point (F : Type) where
  | infinity
  | affine (x y : F)
deriving DecidableEq, Inhabited

/-- A point of the first group. -/
abbrev G1 := Point Base

/-- A point of the second group's curve. -/
abbrev G2 := Point Quadratic

namespace Point
variable {F : Type} [Curve F]

/-- The right side of the curve's equation. -/
def rightSide (x : F) : F := x * x * x + Curve.b

def OnCurve : Point F → Prop
  | infinity => True
  | affine x y => y * y = rightSide x

def neg : Point F → Point F
  | infinity => infinity
  | affine x y => affine x (-y)

end Point

/-- `(x / z², y / z³)`, or infinity when `z` is zero. -/
structure Jacobian (F : Type) where
  x : F
  y : F
  z : F
deriving Inhabited

namespace Jacobian
variable {F : Type} [Curve F]

def zero : Jacobian F := ⟨1, 1, 0⟩

def ofPoint : Point F → Jacobian F
  | .infinity => zero
  | .affine x y => ⟨x, y, 1⟩

/-- The affine point, given the inverse of `z`. -/
def toPointWith (p : Jacobian F) (zInverse : F) : Point F :=
  if p.z = 0 then .infinity
  else
    let zz := zInverse * zInverse
    .affine (p.x * zz) (p.y * zz * zInverse)

def toPoint (p : Jacobian F) : Point F := p.toPointWith p.z⁻¹

@[specialize]
def double (p : Jacobian F) : Jacobian F :=
  if p.z = 0 then p
  else
    let a := p.x * p.x
    let b := p.y * p.y
    let c := b * b
    let t := p.x * b
    let d := t + t + (t + t)
    let e := a + a + a
    let x := e * e - (d + d)
    let c2 := c + c
    let c4 := c2 + c2
    let yz := p.y * p.z
    ⟨x, e * (d - x) - (c4 + c4), yz + yz⟩

@[specialize]
def add (p q : Jacobian F) : Jacobian F :=
  if p.z = 0 then q
  else if q.z = 0 then p
  else
    let pzz := p.z * p.z
    let qzz := q.z * q.z
    let u := p.x * qzz
    let v := q.x * pzz
    let s := p.y * q.z * qzz
    let t := q.y * p.z * pzz
    let h := v - u
    let r := t - s
    if h = 0 then
      if r = 0 then double p else zero
    else
      let hh := h * h
      let hhh := h * hh
      let w := u * hh
      let x := r * r - hhh - (w + w)
      ⟨x, r * (w - x) - s * hhh, p.z * q.z * h⟩

/-- The sum with an affine point. -/
@[specialize]
def addPoint (p : Jacobian F) (q : Point F) : Jacobian F :=
  match q with
  | .infinity => p
  | .affine qx qy =>
    if p.z = 0 then ⟨qx, qy, 1⟩
    else
      let pzz := p.z * p.z
      let h := qx * pzz - p.x
      let r := qy * p.z * pzz - p.y
      if h = 0 then
        if r = 0 then double p else zero
      else
        let hh := h * h
        let hhh := h * hh
        let w := p.x * hh
        let x := r * r - hhh - (w + w)
        ⟨x, r * (w - x) - p.y * hhh, p.z * h⟩

/-- The multiple by the number whose bits are given, most significant first, added to twice as many
of `acc` for each bit. -/
@[specialize]
def mulBits (q : Point F) : List Bool → Jacobian F → Jacobian F
  | [], acc => acc
  | b :: rest, acc =>
    let twice := double acc
    mulBits q rest (if b then twice.addPoint q else twice)

/-- The two triples stand for one point. -/
def same (p q : Jacobian F) : Bool :=
  if p.z = 0 then decide (q.z = 0)
  else if q.z = 0 then false
  else
    let pzz := p.z * p.z
    let qzz := q.z * q.z
    decide (p.x * qzz = q.x * pzz) && decide (p.y * q.z * qzz = q.y * p.z * pzz)

end Jacobian

namespace Point
variable {F : Type} [Curve F]

def mul (n : Nat) (p : Point F) : Jacobian F := Jacobian.mulBits p (binary n) .zero

end Point

/-- The generator of the first group. -/
def G1.generator : G1 := .affine 1 (Residue.ofNat 2)

/-- The generator of the second group. -/
def G2.generator : G2 :=
  .affine
    ⟨Residue.ofNat 10857046999023057135944570762232829481370756359578518086990519993285655852781,
      Residue.ofNat 11559732032986387107991004021392285783925812861821192530917403151452391805634⟩
    ⟨Residue.ofNat 8495653923123431417604973247489272438418190587263600148770280649306958101930,
      Residue.ofNat 4082367875863433681332203403145435568316851327593401208105741076214120093531⟩

end Attest.Bn254
