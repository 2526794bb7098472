/-! Powers by the binary digits of an exponent. -/
namespace Attest

/-- The binary digits of a number, most significant first. -/
def binary (n : Nat) : List Bool := (List.range (n.log2 + 1)).reverse.map n.testBit

/-- The power by the number that the digits spell: for each digit the square, times `x` if set. -/
@[specialize]
def powBinary {α : Type} [One α] [Mul α] (x : α) (digits : List Bool) : α :=
  digits.foldl (fun acc digit =>
    let square := acc * acc
    if digit then square * x else square) 1

end Attest
