import Attest.Poseidon.Derived
import Attest.Proofs.Ring

/-! The sponge hash by blocks.

The sponge takes one scalar at a time and permutes when it must; seen from outside it takes blocks
of two, adds each to the rate lanes and permutes after each (`Params.hash_eq_output`). What is
absorbed is the length of a list and then the list, and that determines the list
(`absorbed_injective`): a last block that lacks its second scalar is not mistaken for one
whose second scalar is zero. So lists with one hash are blocks that collide
(`Params.hash_blockwise`). -/
namespace Attest.Poseidon

/-- One or two scalars that are absorbed together. -/
abbrev Block := Scalar × Option Scalar

/-- A list in twos, the last scalar alone where there is an odd one. -/
def blocks : List Scalar → List Block
  | [] => []
  | [x] => [(x, none)]
  | x :: y :: rest => (x, some y) :: blocks rest

/-- The blocks of a list that is hashed, its length in front. -/
def absorbed (xs : List Scalar) : List Block := blocks (Residue.ofNat xs.length :: xs)

/-- The block with a zero for a scalar that is missing. -/
def Block.filled (b : Block) : Block := (b.1, some (b.2.getD 0))

/-- A block added to the rate lanes. -/
def State.addBlock (s : State) (b : Block) : State :=
  { s with first := s.first + b.1, second := (b.2.map (s.second + ·)).getD s.second }

namespace Params
variable (P : Params)

def absorbBlock (s : State) (b : Block) : State := P.permute (s.addBlock b)

/-- The first rate lane after blocks, from lanes of zeros. -/
def output (bs : List Block) : Scalar := (bs.foldl P.absorbBlock State.zero).first

/-- Different blocks with one output. -/
def Collide (bs cs : List Block) : Prop := bs ≠ cs ∧ P.output bs = P.output cs

end Params

/-! ### One scalar at a time -/

namespace Sponge
variable (P : Params)

/-- The lanes that the next block is added to, in a sponge between two blocks. -/
def ready (s : Sponge) : State := if s.fill = .both then P.permute s.lanes else s.lanes

variable {P} {s : Sponge}

theorem absorb_ready (h : s.fill ≠ .first) (x : Scalar) :
    s.absorb P x = ⟨{ s.ready P with first := (s.ready P).first + x }, .first⟩ := by
  obtain ⟨lanes, fill⟩ := s
  cases fill with
  | empty => rfl
  | first => exact absurd rfl h
  | both => rfl

/-- Two scalars are a block, which is followed by a permutation before anything else is absorbed. -/
theorem absorb_absorb (h : s.fill ≠ .first) (x y : Scalar) :
    (s.absorb P x).absorb P y = ⟨(s.ready P).addBlock (x, some y), .both⟩ := by
  rw [absorb_ready h]
  rfl

/-- **A sponge between two blocks takes scalars as it takes their blocks.** -/
theorem squeeze_absorbAll (h : s.fill ≠ .first) (xs : List Scalar)
    (hne : xs ≠ [] ∨ s.fill = .both) :
    (s.absorbAll P xs).squeeze P = ((blocks xs).foldl P.absorbBlock (s.ready P)).first := by
  -- by twos, as blocks are cut: between two blocks the sponge is empty or full
  induction xs using blocks.induct generalizing s with
  | case1 =>
    obtain hne | hboth := hne
    · exact absurd rfl hne
    · exact congrArg State.first (if_pos hboth).symm
  | case2 x =>
    show ((s.absorb P x).squeeze P) = _
    rw [absorb_ready h]
    rfl
  | case3 x y rest ih =>
    show ((((s.absorb P x).absorb P y)).absorbAll P rest).squeeze P = _
    rw [absorb_absorb h, ih (by simp) (.inr rfl)]
    rfl

end Sponge

/-! ### What is absorbed -/

/-- Lists of one length are known by their blocks, even with zeros for what is missing. -/
theorem filled_blocks_injective {xs ys : List Scalar} (hlength : xs.length = ys.length)
    (h : (blocks xs).map Block.filled = (blocks ys).map Block.filled) : xs = ys := by
  induction xs using blocks.induct generalizing ys with
  | case1 => exact (List.length_eq_zero_iff.mp hlength.symm).symm
  | case2 x =>
    -- of one length with this list, the other one ends in half a block too
    obtain ⟨y, rfl⟩ := List.length_eq_one_iff.mp hlength.symm
    simpa [blocks, Block.filled] using h
  | case3 x x' rest ih =>
    match ys, hlength with
    | y :: y' :: others, hlength =>
      simp only [blocks, Block.filled, List.map_cons, Option.getD_some, List.cons.injEq,
        Prod.mk.injEq, Option.some.injEq] at h
      obtain ⟨⟨rfl, rfl⟩, hrest⟩ := h
      have hothers : rest.length = others.length := by simpa using hlength
      rw [ih hothers hrest]

/-- The first scalar absorbed is the length of the list. -/
theorem head?_filled_absorbed (xs : List Scalar) :
    ((absorbed xs).map Block.filled).head?.map Prod.fst = some (Residue.ofNat xs.length) := by
  cases xs <;> rfl

/-- **Lists are known by what is absorbed of them**, shorter than the order as they are, even with
zeros for what is missing. -/
theorem absorbed_injective {xs ys : List Scalar} (hxs : xs.length < Bn254.order)
    (hys : ys.length < Bn254.order)
    (h : (absorbed xs).map Block.filled = (absorbed ys).map Block.filled) : xs = ys := by
  have hfirst := head?_filled_absorbed xs
  rw [h, head?_filled_absorbed, Option.some.injEq, Residue.ext_iff, Residue.val_ofNat_of_lt hxs,
    Residue.val_ofNat_of_lt hys] at hfirst
  have hlists := filled_blocks_injective (by simp [hfirst]) h
  exact (List.cons.inj hlists).2

namespace Params
variable (P : Params)

/-- **The hash absorbs the blocks of the list behind its length**, and permutes after each. -/
theorem hash_eq_output (xs : List Scalar) : P.hash xs = P.output (absorbed xs) :=
  Sponge.squeeze_absorbAll (s := .empty) (by decide) (Residue.ofNat xs.length :: xs)
    (.inl (List.cons_ne_nil _ _))

/-- A missing scalar is absorbed as a zero is. -/
theorem absorbBlock_filled (s : State) (b : Block) :
    P.absorbBlock s b.filled = P.absorbBlock s b := by
  obtain ⟨x, y⟩ := b
  cases y with
  | none => simp [absorbBlock, State.addBlock, Block.filled]
  | some y => rfl

theorem output_filled (bs : List Block) : P.output (bs.map Block.filled) = P.output bs := by
  simp only [output, List.foldl_map, absorbBlock_filled]

/-- **The hash is the block sponge, and nothing is confused by how its input ends.** For every
list, whatever its length, the hash is the output of the blocks of the list behind its length. And
two different lists are absorbed as different blocks, also where a missing scalar is read as zero;
so if they hash to one scalar, these blocks collide. -/
theorem hash_blockwise :
    (∀ xs, P.hash xs = P.output (blocks (Residue.ofNat xs.length :: xs))) ∧
      ∀ xs ys : List Scalar, xs.length < Bn254.order → ys.length < Bn254.order → xs ≠ ys →
        (absorbed xs).map Block.filled ≠ (absorbed ys).map Block.filled ∧
          (P.hash xs = P.hash ys →
            P.Collide ((absorbed xs).map Block.filled) ((absorbed ys).map Block.filled)) := by
  refine ⟨P.hash_eq_output, fun xs ys hxs hys hne => ?_⟩
  have hblocks : (absorbed xs).map Block.filled ≠ (absorbed ys).map Block.filled :=
    fun h => hne (absorbed_injective hxs hys h)
  refine ⟨hblocks, fun h => ⟨hblocks, ?_⟩⟩
  rw [output_filled, output_filled, ← hash_eq_output, ← hash_eq_output, h]

/-- One scalar, and the same with a zero behind it. -/
theorem hash_blockwise_zero :
    let x : Scalar := Residue.ofNat 840
    [x].length < Bn254.order ∧ [x, 0].length < Bn254.order ∧ [x] ≠ [x, 0] ∧
      (absorbed [x]).map Block.filled ≠ (absorbed [x, 0]).map Block.filled ∧
      (standard.hash [x] = standard.hash [x, 0] →
        standard.Collide ((absorbed [x]).map Block.filled)
          ((absorbed [x, 0]).map Block.filled)) := by
  intro x
  have hone : [x].length < Bn254.order := by decide
  have htwo : [x, 0].length < Bn254.order := by decide
  have hne : [x] ≠ [x, 0] := by decide
  exact ⟨hone, htwo, hne, standard.hash_blockwise.2 [x] [x, 0] hone htwo hne⟩

end Params

end Attest.Poseidon
