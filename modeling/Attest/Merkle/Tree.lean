import Attest.Failure
import Attest.Memory
import Attest.Poseidon.Sponge

/-! Trees of fixed depth over a set of leaves.

The leaves of a tree are the distinct given ones in ascending order, so the
root depends on their set alone. Every position past them holds the empty leaf,
and subtrees that hold nothing else are never built: a level keeps the nodes
above the leaves, and a node past them is the hash of the empty subtree of its
height. -/
namespace Attest.Merkle

/-- The deepest tree that is built. -/
def maxDepth : Nat := 32

/-- What every unused position holds. -/
def emptyLeaf : Scalar := 0

variable (P : Poseidon.Params)

/-- An empty subtree's hash, followed by those of the `n` heights above it. -/
def emptyHashesFrom (z : Scalar) : Nat → List Scalar
  | 0 => [z]
  | n + 1 => z :: emptyHashesFrom (P.hashPair z z) n

/-- The hashes of the empty subtrees of heights zero to `depth`. -/
def emptyHashes (depth : Nat) : List Scalar := emptyHashesFrom P emptyLeaf depth

/-- The hashes of the empty subtrees, if there is room for so many. -/
def emptyHashes? (depth : Nat) : Option (List Scalar) :=
  if Memory.holds (depth + 1) Scalar.footprint then some (emptyHashes P depth) else none

def checkDepth (depth : Nat) : Except Failure Unit :=
  if depth = 0 ∨ maxDepth < depth then
    .error (.invalidInput s!"merkle depth must be 1-{maxDepth} (got {depth})")
  else .ok ()

/-- The root of the tree without leaves, which admits nothing. -/
def emptyRoot (depth : Nat) : Except Failure Scalar := do
  checkDepth depth
  return (emptyHashes P depth).getLastD emptyLeaf

/-- Drops every element equal to the one before it. -/
def dedupSorted : List Scalar → List Scalar
  | a :: b :: rest => if a = b then dedupSorted (b :: rest) else a :: dedupSorted (b :: rest)
  | rest => rest

/-- The distinct elements in ascending order. -/
def canonical (leaves : List Scalar) : List Scalar :=
  dedupSorted (leaves.mergeSort fun a b => decide (a ≤ b))

/-- Where halving ends among the `size` positions from `base` on: the half that begins above `x` is
left off each time. -/
def halve (xs : List Scalar) (x : Scalar) (base size : Nat) : Nat :=
  if size ≤ 1 then base
  else
    let middle := base + size / 2
    halve xs x (if x < xs.getD middle emptyLeaf then base else middle) (size - size / 2)
termination_by size

/-- The position of an element of an ascending list, found by halving. -/
def locate? (xs : List Scalar) (x : Scalar) : Option Nat :=
  let index := halve xs x 0 xs.length
  if xs[index]? = some x then some index else none

/-- The level above a level whose missing nodes are `empty`. -/
def parents (empty : Scalar) : List Scalar → List Scalar
  | left :: right :: rest => P.hashPair left right :: parents empty rest
  | [left] => [P.hashPair left empty]
  | [] => []

/-- A level and those above it, one for each hash of an empty subtree. -/
def levelsFrom (level : List Scalar) : List Scalar → List (List Scalar)
  | [] => []
  | empty :: above => level :: levelsFrom (parents P empty level) above

structure Tree where
  depth : Nat
  /-- The nodes above the leaves at each height, the leaves themselves at height zero. -/
  levels : List (List Scalar)
  /-- The hash of the empty subtree of each height. -/
  empties : List Scalar

namespace Tree

def build (depth : Nat) (leaves : List Scalar) : Except Failure Tree := do
  checkDepth depth
  let sorted := canonical leaves
  if Nat.pow 2 depth < sorted.length then throw (.capacityExceeded sorted.length depth)
  let empties := emptyHashes P depth
  return { depth, levels := levelsFrom P sorted empties, empties }

/-- The node at a height and a position, the position counted from the left. -/
def node (t : Tree) (height index : Nat) : Scalar :=
  ((t.levels.getD height []).getD index (t.empties.getD height emptyLeaf))

def root (t : Tree) : Scalar := t.node t.depth 0

/-- The distinct leaves in ascending order. -/
def leaves (t : Tree) : List Scalar := t.levels.headD []

/-- The position of a leaf, counted from the left. -/
def position? (t : Tree) (leaf : Scalar) : Option Nat := locate? t.leaves leaf

def contains (t : Tree) (leaf : Scalar) : Bool := (t.position? leaf).isSome

end Tree

end Attest.Merkle
