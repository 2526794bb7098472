import Attest.Claim
import Attest.Merkle.Inclusion
import Attest.Service.Messages

/-! Commitments to a claim and to an allow list.

These answers need no key: they are functions of the request, and of a depth for
the tree when the request gives none. Root and proof come from one tree, over
the leaves of the values. -/
namespace Attest.Service

def commitment (P : Poseidon.Params) (r : CommitmentRequest) : Except Failure Scalar := do
  let digest ← (Digest.parse r.documentHash).mapError (.invalidInput ·.message)
  return Claim.commit P ⟨r.value, digest.reduce⟩

/-- The tree over the leaves of bare values. -/
def allowList (P : Poseidon.Params) (depth : Nat) (values : List Scalar) :
    Except Failure Merkle.Tree :=
  Merkle.Tree.build P depth (values.map (attributeLeaf P))

def allowListRoot (P : Poseidon.Params) (defaultDepth : Nat) (r : RootRequest) :
    Except Failure RootReply := do
  let tree ← allowList P (r.depth.getD defaultDepth) r.values
  return { root := tree.root, depth := tree.depth, leafCount := tree.leaves.length }

def allowListProof (P : Poseidon.Params) (defaultDepth : Nat) (r : InclusionRequest) :
    Except Failure InclusionReply := do
  let tree ← allowList P (r.depth.getD defaultDepth) r.values
  return { root := tree.root, proof := ← tree.prove (attributeLeaf P r.target) }

end Attest.Service
