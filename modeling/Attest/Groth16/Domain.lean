import Attest.Bn254

/-! Domains of evaluation: the powers of a root of unity.

A domain has `2 ^ k` points. `evaluate` takes a polynomial's coefficients to its
values at them, halving the domain at each step, and `interpolate` takes them
back. -/
namespace Attest.Groth16

/-- A scalar that generates every nonzero scalar. -/
def generator : Scalar := Residue.ofNat 5

/-- The generator of the domain of `2 ^ k` points. -/
def root (k : Nat) : Scalar := generator ^ ((Bn254.order - 1) / Nat.pow 2 k)

/-- The least `k` with `n ≤ 2 ^ k`. -/
def levelsFor (n : Nat) : Nat := if n ≤ 1 then 0 else (n - 1).log2 + 1

/-- The first `n` multiples of `x` by powers of `w`. -/
def powers (w : Scalar) : Nat → Scalar → List Scalar
  | 0, _ => []
  | n + 1, x => x :: powers w n (x * w)

/-- The elements at even positions and those at odd ones. -/
def alternate {α : Type} : List α → List α × List α
  | [] => ([], [])
  | x :: rest => let (odd, even) := alternate rest; (x :: even, odd)

/-- Values at the powers of `w`, of which there are `2 ^ k`. -/
def evaluate : Nat → Scalar → List Scalar → List Scalar
  | 0, _, xs => xs
  | k + 1, w, xs =>
    let (even, odd) := alternate xs
    let square := w * w
    let low := evaluate k square even
    let high := List.zipWith (· * ·) (powers w (Nat.pow 2 k) 1) (evaluate k square odd)
    List.zipWith (· + ·) low high ++ List.zipWith (· - ·) low high

/-- Coefficients from values at the powers of `w`. -/
def interpolate (k : Nat) (w : Scalar) (ys : List Scalar) : List Scalar :=
  let share := (Residue.ofNat (Nat.pow 2 k) : Scalar)⁻¹
  (evaluate k w⁻¹ ys).map (share * ·)

/-- Coefficients of the polynomial stretched by `g`. -/
def stretch (g : Scalar) (xs : List Scalar) : List Scalar :=
  List.zipWith (· * ·) (powers g xs.length 1) xs

/-- The polynomial that is zero on the domain, at `x`. -/
def vanishing (k : Nat) (x : Scalar) : Scalar := x ^ Nat.pow 2 k - 1

end Attest.Groth16
