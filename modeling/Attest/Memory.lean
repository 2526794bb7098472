/-! What memory can hold.

A list whose elements would take more bytes than can be addressed is not even
begun: the work that asks for it breaks off. Every smaller request is assumed to
be met. A machine has far less than the `2 ^ 63` bytes that can be addressed, and
ends a program that asks for more than it has; that is left out here, where a
list of points is decoded whatever number of them its bytes announce, up to that
bound. -/
namespace Attest.Memory

/-- The number of bytes that can be addressed. -/
def addressable : Nat := UInt64.size / 2

/-- There is room for `count` elements of `size` bytes each. -/
def holds (count size : Nat) : Bool := count * size < addressable

end Attest.Memory
