import Attest.Artifact.Manifest
import Attest.Artifact.Setup
import Attest.Artifact.Store
import Attest.Binary
import Attest.Bn254
import Attest.Bytes
import Attest.Calldata
import Attest.Circuit.Combination
import Attest.Circuit.Hash
import Attest.Circuit.Range
import Attest.Circuit.Statement
import Attest.Circuit.System
import Attest.Circuit.Wire
import Attest.Claim
import Attest.CommandLine
import Attest.Curve.Compressed
import Attest.Curve.Pairing
import Attest.Curve.Point
import Attest.Curve.Quadratic
import Attest.Curve.Subgroup
import Attest.Curve.Sum
import Attest.Curve.Tower
import Attest.Decimal.Binary64
import Attest.Failure
import Attest.Files
import Attest.Groth16.Domain
import Attest.Groth16.Keys
import Attest.Groth16.Prove
import Attest.Groth16.Quadratic
import Attest.Groth16.Scheme
import Attest.Groth16.Setup
import Attest.Groth16.Verify
import Attest.Inputs
import Attest.Json.Codec
import Attest.Json.Reading
import Attest.Json.Value
import Attest.Main
import Attest.Memory
import Attest.Merkle.Inclusion
import Attest.Merkle.Tree
import Attest.Path
import Attest.Poseidon.Derived
import Attest.Poseidon.Grain
import Attest.Poseidon.Permutation
import Attest.Poseidon.Sponge
import Attest.Predicate
import Attest.Proofs.Artifact.Calls
import Attest.Proofs.Artifact.Gate
import Attest.Proofs.Artifact.History
import Attest.Proofs.Artifact.Interrupted
import Attest.Proofs.Artifact.Manifest
import Attest.Proofs.Artifact.Sealing
import Attest.Proofs.Artifact.Setup
import Attest.Proofs.Artifact.Store
import Attest.Proofs.Artifact.Usable
import Attest.Proofs.Artifact.Work
import Attest.Proofs.Assembly
import Attest.Proofs.Bytes
import Attest.Proofs.Calldata
import Attest.Proofs.Circuit.Agreement
import Attest.Proofs.Circuit.Evaluation
import Attest.Proofs.Circuit.Exclusion
import Attest.Proofs.Circuit.Forced
import Attest.Proofs.Circuit.Gadget
import Attest.Proofs.Circuit.Layout
import Attest.Proofs.Circuit.Membership
import Attest.Proofs.Circuit.Range
import Attest.Proofs.Circuit.Sponge
import Attest.Proofs.Circuit.Statement
import Attest.Proofs.Circuit.Threshold
import Attest.Proofs.Claim
import Attest.Proofs.Curve.Chunk
import Attest.Proofs.Curve.Decoded
import Attest.Proofs.Curve.Encoding
import Attest.Proofs.Curve.Field
import Attest.Proofs.Curve.Group
import Attest.Proofs.Curve.Order
import Attest.Proofs.Curve.Root
import Attest.Proofs.Curve.Subgroup
import Attest.Proofs.Curve.Taken
import Attest.Proofs.Digits
import Attest.Proofs.Directories
import Attest.Proofs.Field
import Attest.Proofs.Files
import Attest.Proofs.Groth16.Aliases
import Attest.Proofs.Groth16.Encoding
import Attest.Proofs.Groth16.Setup
import Attest.Proofs.Groth16.Verify
import Attest.Proofs.Json.Reading
import Attest.Proofs.Json.Record
import Attest.Proofs.Json.RoundTrip
import Attest.Proofs.Json.Spelling
import Attest.Proofs.Json.Token
import Attest.Proofs.Merkle.Binding
import Attest.Proofs.Merkle.Canonical
import Attest.Proofs.Merkle.Completeness
import Attest.Proofs.Merkle.Empty
import Attest.Proofs.Merkle.Perfect
import Attest.Proofs.Merkle.Position
import Attest.Proofs.Merkle.Root
import Attest.Proofs.Poseidon.Blocks
import Attest.Proofs.Primality
import Attest.Proofs.Proving.Blank
import Attest.Proofs.Proving.Pipeline
import Attest.Proofs.Proving.Requests
import Attest.Proofs.Proving.Scheme
import Attest.Proofs.Proving.Signals
import Attest.Proofs.Ring
import Attest.Proofs.Scalar.Canonical
import Attest.Proofs.Scalar.Encodings
import Attest.Proofs.Scalar.Numeral
import Attest.Proofs.Scalar.Order
import Attest.Proofs.Schema
import Attest.Proofs.Secrecy
import Attest.Proofs.Service.Aliases
import Attest.Proofs.Service.AllowLists
import Attest.Proofs.Service.Blame
import Attest.Proofs.Service.Commitment
import Attest.Proofs.Service.Environment
import Attest.Proofs.Service.Errand
import Attest.Proofs.Service.Isolation
import Attest.Proofs.Service.Issued
import Attest.Proofs.Service.Plain
import Attest.Proofs.Service.Posted
import Attest.Proofs.Service.Route
import Attest.Proofs.Service.Settings
import Attest.Proofs.Service.Verification
import Attest.Proofs.Service.VerifyBody
import Attest.Proofs.Service.Visit
import Attest.Proofs.Text.Base64
import Attest.Proofs.Text.Blank
import Attest.Proofs.Text.Digits
import Attest.Proofs.Text.Hex
import Attest.Proofs.Text.Magnitude
import Attest.Proofs.Wire.Denoted
import Attest.Proofs.Wire.Inputs
import Attest.Proofs.Wire.Material
import Attest.Proofs.Wire.Signals
import Attest.Proving.Attestation
import Attest.Proving.Pipeline
import Attest.Proving.Scheme
import Attest.Proving.Stage
import Attest.Residue
import Attest.Scalar.Encoding
import Attest.Scalar.Numeral
import Attest.Scalar.Word
import Attest.Service.Commitments
import Attest.Service.Dispatch
import Attest.Service.Http
import Attest.Service.Keyring
import Attest.Service.MediaType
import Attest.Service.Messages
import Attest.Service.Route
import Attest.Service.Server
import Attest.Service.Settings
import Attest.Service.Target
import Attest.Text.Base64
import Attest.Text.Blank
import Attest.Text.Digits
import Attest.Text.Hex
import Attest.Text.Printable
import Attest.Text.Quoted
import Attest.Wire.Material
import Attest.Wire.Scalar
import Attest.Witness
