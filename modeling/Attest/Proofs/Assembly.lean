import Attest.Witness

/-! What an assembled witness is made of.

Each way of taking an input succeeds on one kind of entry alone (`takeScalar_eq_ok_iff`
and its like). So inputs make a witness exactly when all their names are declared and
the witness holds, field for field, the input of the field's name, with a path as long
as the tree is deep (`Witness.assemble_eq_ok_iff`). -/
namespace Attest

/-- A truth value as a scalar. -/
def ofBit (b : Bool) : Scalar := if b then 1 else 0

/-- A computation succeeds by steps that do. -/
theorem bind_eq_ok_iff {x : Except ε α} {f : α → Except ε β} {b : β} :
    x >>= f = .ok b ↔ ∃ a, x = .ok a ∧ f a = .ok b := by
  cases x with
  | error e => exact iff_of_false (fun h => nomatch h) fun ⟨a, h, _⟩ => nomatch h
  | ok a => exact ⟨fun h => ⟨a, rfl, h⟩, fun ⟨a', ha, h⟩ => Except.ok.inj ha ▸ h⟩

theorem mapError_eq_ok_iff {x : Except ε α} {f : ε → ε'} {a : α} :
    x.mapError f = .ok a ↔ x = .ok a := by
  cases x with
  | error e => constructor <;> intro h <;> cases h
  | ok b => constructor <;> exact fun h => congrArg Except.ok (Except.ok.inj h)

theorem eq_ok_of_toOption {x : Except ε α} {a : α} (h : x.toOption = some a) : x = .ok a := by
  cases x with
  | ok b => exact congrArg Except.ok (Option.some.inj h)
  | error e => exact nomatch h

/-! ### The witness of some inputs -/

structure ThresholdWitness.TakenFrom (secret revealed : Inputs) (w : ThresholdWitness) : Prop where
  value : secret.get? "value" = some (.scalar w.value)
  documentHash : secret.get? "document_hash" = some (.scalar w.documentHash)
  commitment : revealed.get? "commitment" = some (.scalar w.commitment)
  threshold : revealed.get? "threshold" = some (.scalar w.threshold)

structure MembershipWitness.TakenFrom (secret revealed : Inputs) (w : MembershipWitness) :
    Prop where
  value : secret.get? "value" = some (.scalar w.value)
  documentHash : secret.get? "document_hash" = some (.scalar w.documentHash)
  siblings : secret.get? "siblings" = some (.array w.siblings)
  pathBits : secret.get? "path_bits" = some (.array (w.pathBits.map ofBit))
  root : revealed.get? "root" = some (.scalar w.root)
  commitment : revealed.get? "commitment" = some (.scalar w.commitment)

namespace Witness
variable {secret revealed inputs : Inputs} {name : String} {length depth : Nat} {p : Predicate}

/-- It is for the predicate, and its path is as long as the tree is deep. -/
inductive Shaped (depth : Nat) : Predicate → Witness → Prop
  | threshold (w : ThresholdWitness) : Shaped depth .threshold (.threshold w)
  | membership {w : MembershipWitness} (siblings : w.siblings.length = depth)
    (pathBits : w.pathBits.length = depth) : Shaped depth .membership (.membership w)

/-- Every field is the input of its name. -/
def TakenFrom (secret revealed : Inputs) : Witness → Prop
  | .threshold w => w.TakenFrom secret revealed
  | .membership w => w.TakenFrom secret revealed

/-- The schema declares every name, with that visibility. -/
def Declared (p : Predicate) (depth : Nat) (visibility : Visibility) (inputs : Inputs) : Prop :=
  ∀ name ∈ inputs.names, ∃ s ∈ schema depth p, s.name = name ∧ s.visibility = visibility

theorem Shaped.predicate_eq {w : Witness} (h : w.Shaped depth p) : w.predicate = p := by
  cases h <;> rfl

theorem blank_shaped (depth : Nat) (p : Predicate) : (blank depth p).Shaped depth p := by
  cases p with
  | threshold => exact .threshold _
  | membership => exact .membership List.length_replicate List.length_replicate

/-! ### Taking inputs -/

theorem checkNames_eq_ok_iff {visibility : Visibility} {u : Unit} :
    checkNames p depth visibility inputs = .ok u ↔ Declared p depth visibility inputs := by
  unfold checkNames
  split
  · next name hname =>
    refine iff_of_false (fun h => nomatch h) fun h => ?_
    obtain ⟨s, hs, hdeclared⟩ := h name (List.mem_of_find?_eq_some hname)
    have hunknown := List.find?_some hname
    rw [Bool.not_eq_true', List.any_eq_false] at hunknown
    exact hunknown s hs (by simpa using hdeclared)
  · next hnone =>
    refine iff_of_true rfl fun name hname => ?_
    simpa using List.find?_eq_none.mp hnone name hname

theorem takeScalar_eq_ok_iff {x : Scalar} :
    takeScalar inputs name = .ok x ↔ inputs.get? name = some (.scalar x) := by
  unfold takeScalar
  split
  · next y hy => simp [hy]
  · next ys hys => simp [hys]
  · next hnone => simp [hnone]

theorem takeArray_eq_ok_iff {xs : List Scalar} :
    takeArray inputs name length = .ok xs ↔
      inputs.get? name = some (.array xs) ∧ xs.length = length := by
  unfold takeArray
  split
  · next ys hys =>
    rw [hys, Option.some.injEq, Input.array.injEq]
    split
    · next hlength =>
      rw [Except.ok.injEq]
      exact ⟨fun h => ⟨h, h ▸ hlength⟩, And.left⟩
    · next hlength => exact iff_of_false (fun h => nomatch h) fun ⟨h, h'⟩ => hlength (h ▸ h')
  · next y hy => simp [hy]
  · next hnone => simp [hnone]

theorem bit?_eq_some_iff {x : Scalar} {b : Bool} : bit? x = some b ↔ x = ofBit b := by
  unfold bit? ofBit
  have : (1 : Scalar) ≠ 0 := by decide
  cases b <;> grind

theorem mapM_bit?_eq_some_iff {xs : List Scalar} {bits : List Bool} :
    xs.mapM bit? = some bits ↔ xs = bits.map ofBit := by
  induction xs generalizing bits with
  | nil => simp [eq_comm]
  | cons x xs ih =>
    simp only [List.mapM_cons, bind_pure_comp, Option.bind_eq_bind, Option.bind_eq_some_iff,
      Option.map_eq_map, Option.map_eq_some_iff, bit?_eq_some_iff, ih]
    cases bits with
    | nil => simp
    | cons b bits => grind

theorem takeBits_eq_ok_iff {bits : List Bool} :
    takeBits inputs name length = .ok bits ↔
      inputs.get? name = some (.array (bits.map ofBit)) ∧ bits.length = length := by
  unfold takeBits
  rw [bind_eq_ok_iff]
  constructor
  · rintro ⟨xs, hxs, hbits⟩
    obtain ⟨hget, hlength⟩ := takeArray_eq_ok_iff.mp hxs
    split at hbits
    · next bits' hmap =>
      obtain rfl := Except.ok.inj hbits
      obtain rfl := mapM_bit?_eq_some_iff.mp hmap
      exact ⟨hget, (List.length_map ofBit).symm.trans hlength⟩
    · exact nomatch hbits
  · rintro ⟨hget, hlength⟩
    refine ⟨_, takeArray_eq_ok_iff.mpr ⟨hget, (List.length_map ofBit).trans hlength⟩, ?_⟩
    rw [mapM_bit?_eq_some_iff.mpr rfl]

/-- **Inputs make a witness exactly when all their names are declared and the witness is what they
hold**, with a path of the depth. -/
theorem assemble_eq_ok_iff {w : Witness} :
    assemble p depth secret revealed = .ok w ↔
      Declared p depth .secret secret ∧ Declared p depth .revealed revealed ∧
        w.Shaped depth p ∧ w.TakenFrom secret revealed := by
  unfold assemble
  simp only [bind_eq_ok_iff, checkNames_eq_ok_iff, exists_and_left, exists_const]
  refine and_congr_right' (and_congr_right' ?_)
  cases p with
  | threshold =>
    simp only [bind_eq_ok_iff, takeScalar_eq_ok_iff]
    constructor
    · rintro ⟨x, hx, d, hd, c, hc, t, ht, h⟩
      obtain rfl := Except.ok.inj h
      exact ⟨.threshold _, ⟨hx, hd, hc, ht⟩⟩
    · rintro ⟨⟨⟩, h⟩
      exact ⟨_, h.value, _, h.documentHash, _, h.commitment, _, h.threshold, rfl⟩
  | membership =>
    simp only [bind_eq_ok_iff, takeScalar_eq_ok_iff, takeArray_eq_ok_iff, takeBits_eq_ok_iff]
    constructor
    · rintro ⟨bits, ⟨hbits, hpath⟩, x, hx, d, hd, siblings, ⟨hsiblings, hlength⟩, r, hr, c, hc, h⟩
      obtain rfl := Except.ok.inj h
      exact ⟨.membership hlength hpath, ⟨hx, hd, hsiblings, hbits, hr, hc⟩⟩
    · rintro ⟨hshaped, h⟩
      cases hshaped with
      | membership hlength hpath =>
        exact ⟨_, ⟨h.pathBits, hpath⟩, _, h.value, _, h.documentHash, _, ⟨h.siblings, hlength⟩,
          _, h.root, _, h.commitment, rfl⟩

end Witness

end Attest
