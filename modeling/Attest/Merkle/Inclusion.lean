import Attest.Merkle.Tree

/-! Evidence that a leaf stands in a tree.

A proof carries the sibling met at each height on the way up and, for each, on
which side the path runs. It is accepted against a root and a depth when it has
exactly that many siblings and bits and folds to the root: with fewer, an inner
node could pose as a leaf. -/
namespace Attest.Merkle

structure InclusionProof where
  leaf : Scalar
  siblings : List Scalar
  /-- At each height, whether the node on the path is a right child. -/
  pathBits : List Bool
deriving DecidableEq

variable (P : Poseidon.Params)

/-- The parent of a node, given its sibling and whether the node is the right child. -/
def parent (node sibling : Scalar) (isRight : Bool) : Scalar :=
  if isRight then P.hashPair sibling node else P.hashPair node sibling

namespace InclusionProof

/-- The position that the first 64 bits spell, lowest bit first. -/
def index (proof : InclusionProof) : Nat :=
  (proof.pathBits.take 64).foldr (fun b n => 2 * n + b.toNat) 0

/-- The leaf folded upwards, as far as both lists reach. -/
def computeRoot (proof : InclusionProof) : Scalar :=
  (proof.siblings.zip proof.pathBits).foldl (fun node step => parent P node step.1 step.2)
    proof.leaf

/-- The proof for the leaf's parent, one level shorter. -/
def climb? (proof : InclusionProof) : Option InclusionProof :=
  match proof.siblings, proof.pathBits with
  | sibling :: siblings, isRight :: pathBits =>
    some { leaf := parent P proof.leaf sibling isRight, siblings, pathBits }
  | _, _ => none

def verify (root : Scalar) (depth : Nat) (proof : InclusionProof) : Bool :=
  proof.siblings.length == depth && proof.pathBits.length == depth && proof.computeRoot P == root

end InclusionProof

namespace Tree

/-- The path from a position up through the given number of heights. -/
def path (t : Tree) (height index : Nat) : Nat → List (Scalar × Bool)
  | 0 => []
  | n + 1 => (t.node height (index ^^^ 1), index % 2 == 1) :: path t (height + 1) (index / 2) n

def prove (t : Tree) (leaf : Scalar) : Except Failure InclusionProof :=
  match t.position? leaf with
  | none => .error .notFound
  | some index =>
    let path := t.path 0 index t.depth
    .ok { leaf, siblings := path.map Prod.fst, pathBits := path.map Prod.snd }

end Tree

end Attest.Merkle
