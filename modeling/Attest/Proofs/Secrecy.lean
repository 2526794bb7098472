import Attest.Proofs.Schema

/-! Assembling a witness lets nothing of the private values out.

What a private map shows is its outline: its names, and of each input whether it is a list and how
long. Two maps of one outline are taken in the same way everywhere (`Except.Alike`): a step fails on
both and for one cause, or succeeds on both. The bits of a path are the one place where a value
decides, and there only whether all of them are zero or one. So the public scalars and every error
are functions of the outline, of that one fact and of the public map (`Witness.assemble_blind`). -/
namespace Attest

/-- Both computations fail, and for one cause, or both succeed, with related results. -/
inductive Except.Alike {ε α β : Type} (R : α → β → Prop) : Except ε α → Except ε β → Prop
  | error (e : ε) : Alike R (.error e) (.error e)
  | ok {a : α} {b : β} : R a b → Alike R (.ok a) (.ok b)

namespace Except.Alike
variable {ε α β γ δ : Type} {x : Except ε α} {y : Except ε β} {Q : α → β → Prop}

theorem bind {f : α → Except ε γ} {g : β → Except ε δ} {R : γ → δ → Prop} (h : Alike Q x y)
    (hf : ∀ a b, Q a b → Alike R (f a) (g b)) : Alike R (x >>= f) (y >>= g) := by
  cases h with
  | error e => exact .error e
  | ok hab => exact hf _ _ hab

/-- A computation is alike to itself. -/
theorem refl (x : Except ε α) : Alike Eq x x := by
  cases x with
  | error e => exact .error e
  | ok a => exact .ok rfl

end Except.Alike

/-! ### What a map shows -/

/-- Whether an input is a list, and of which length. -/
def Input.arity : Input → Arity
  | .scalar _ => .scalar
  | .array xs => .array xs.length

namespace Inputs
variable {m m' : Inputs} {name : String}

/-- The names of a map, each with the arity of its input. -/
def outline (m : Inputs) : List (String × Arity) := m.entries.map fun e => (e.1, e.2.arity)

/-- The bits of the path, if they are given as a list, are all zero or one. -/
def BitsOnly (m : Inputs) : Prop :=
  ∀ xs, m.get? "path_bits" = some (.array xs) → ∀ x ∈ xs, x = 0 ∨ x = 1

theorem names_eq (m : Inputs) : m.names = m.outline.map Prod.fst := by
  rw [outline, List.map_map]
  rfl

/-- The outline says under which names there is something, and of which arity. -/
theorem arity_get? (m : Inputs) (name : String) :
    (m.get? name).map Input.arity = (m.outline.find? fun e => e.1 == name).map Prod.snd := by
  rw [get?, outline, List.find?_map, Option.map_map, Option.map_map]
  rfl

/-- In maps of one outline a name has nothing, two scalars, or two lists of one length. -/
theorem get?_cases (h : m.outline = m'.outline) (name : String) :
    (m.get? name = none ∧ m'.get? name = none) ∨
      (∃ x y, m.get? name = some (.scalar x) ∧ m'.get? name = some (.scalar y)) ∨
      ∃ xs ys, m.get? name = some (.array xs) ∧ m'.get? name = some (.array ys) ∧
        xs.length = ys.length := by
  have harity : (m.get? name).map Input.arity = (m'.get? name).map Input.arity := by
    rw [arity_get?, arity_get?, h]
  cases hx : m.get? name with
  | none =>
    rw [hx, Option.map_none, eq_comm, Option.map_eq_none_iff] at harity
    exact .inl ⟨rfl, harity⟩
  | some x =>
    rw [hx, Option.map_some, eq_comm, Option.map_eq_some_iff] at harity
    obtain ⟨y, hy, hxy⟩ := harity
    rw [hy]
    cases x with
    | scalar x => cases y with
      | scalar y => exact .inr (.inl ⟨x, y, rfl, rfl⟩)
      | array => exact nomatch hxy
    | array xs => cases y with
      | scalar => exact nomatch hxy
      | array ys => exact .inr (.inr ⟨xs, ys, rfl, rfl, (Arity.array.inj hxy).symm⟩)

theorem bitsOnly_iff {xs : List Scalar} (h : m.get? "path_bits" = some (.array xs)) :
    m.BitsOnly ↔ ∀ x ∈ xs, x = 0 ∨ x = 1 := by
  simp only [BitsOnly, h, Option.some.injEq, Input.array.injEq, forall_eq']

end Inputs

/-! ### Taking inputs of one outline -/

namespace Witness
variable {p : Predicate} {depth length : Nat} {secret secret' revealed : Inputs} {name : String}

theorem checkNames_congr (visibility : Visibility) (h : secret.outline = secret'.outline) :
    checkNames p depth visibility secret = checkNames p depth visibility secret' := by
  unfold checkNames
  rw [Inputs.names_eq, Inputs.names_eq, h]

theorem takeScalar_alike (h : secret.outline = secret'.outline) (name : String) :
    Except.Alike (fun _ _ => True) (takeScalar secret name) (takeScalar secret' name) := by
  unfold takeScalar
  obtain ⟨hx, hy⟩ | ⟨x, y, hx, hy⟩ | ⟨xs, ys, hx, hy, -⟩ := Inputs.get?_cases h name
  · rw [hx, hy]
    exact .error _
  · rw [hx, hy]
    exact .ok trivial
  · rw [hx, hy]
    exact .error _

/-- Lists that are taken are the ones under the name. -/
theorem takeArray_alike (h : secret.outline = secret'.outline) (name : String) (length : Nat) :
    Except.Alike (fun xs ys => secret.get? name = some (.array xs) ∧
      secret'.get? name = some (.array ys)) (takeArray secret name length)
      (takeArray secret' name length) := by
  unfold takeArray
  obtain ⟨hx, hy⟩ | ⟨x, y, hx, hy⟩ | ⟨xs, ys, hx, hy, hlength⟩ := Inputs.get?_cases h name
  · rw [hx, hy]
    exact .error _
  · rw [hx, hy]
    exact .error _
  · simp only [hx, hy, hlength]
    split
    · exact .ok ⟨rfl, rfl⟩
    · exact .error _

/-- A list is read as truth values exactly when all of it is zero or one. -/
theorem mapM_bit?_eq_none_iff {xs : List Scalar} :
    xs.mapM bit? = none ↔ ¬∀ x ∈ xs, x = 0 ∨ x = 1 := by
  rw [Option.eq_none_iff_forall_ne_some, forall_bit_iff, not_exists]
  exact forall_congr' fun bits => not_congr mapM_bit?_eq_some_iff

theorem takeBits_alike (h : secret.outline = secret'.outline)
    (hbits : secret.BitsOnly ↔ secret'.BitsOnly) :
    Except.Alike (fun _ _ => True) (takeBits secret "path_bits" length)
      (takeBits secret' "path_bits" length) := by
  refine (takeArray_alike h "path_bits" length).bind fun xs ys ⟨hxs, hys⟩ => ?_
  rw [Inputs.bitsOnly_iff hxs, Inputs.bitsOnly_iff hys] at hbits
  have hboth : xs.mapM bit? = none ↔ ys.mapM bit? = none := by
    rw [mapM_bit?_eq_none_iff, mapM_bit?_eq_none_iff, hbits]
  cases hx : xs.mapM bit? with
  | none =>
    rw [hboth.mp hx]
    exact .error _
  | some bits =>
    cases hy : ys.mapM bit? with
    | none =>
      rw [hboth.mpr hy] at hx
      exact nomatch hx
    | some => exact .ok trivial

/-- **Assembling goes alike on private maps of one outline**, their path bits being bits in both or
in neither: it fails on both with one error, or makes witnesses of the same public scalars. -/
theorem assemble_alike (h : secret.outline = secret'.outline)
    (hbits : p = .membership → (secret.BitsOnly ↔ secret'.BitsOnly)) :
    Except.Alike (fun w w' => w.publicSignals = w'.publicSignals)
      (assemble p depth secret revealed) (assemble p depth secret' revealed) := by
  have htake (name : String) := takeScalar_alike h name
  have hgiven (name : String) := Except.Alike.refl (takeScalar revealed name)
  unfold assemble
  rw [checkNames_congr .secret h]
  refine (Except.Alike.refl (checkNames p depth .secret secret')).bind fun _ _ _ => ?_
  refine (Except.Alike.refl (checkNames p depth .revealed revealed)).bind fun _ _ _ => ?_
  cases p with
  | threshold =>
    refine (htake "value").bind fun _ _ _ => ?_
    refine (htake "document_hash").bind fun _ _ _ => ?_
    refine (hgiven "commitment").bind ?_
    rintro c _ rfl
    refine (hgiven "threshold").bind ?_
    rintro t _ rfl
    exact .ok rfl
  | membership =>
    -- the one step whose outcome is decided by private values
    refine (takeBits_alike h (hbits rfl)).bind fun _ _ _ => ?_
    refine (htake "value").bind fun _ _ _ => ?_
    refine (htake "document_hash").bind fun _ _ _ => ?_
    refine (takeArray_alike h "siblings" depth).bind fun _ _ _ => ?_
    refine (hgiven "root").bind ?_
    rintro r _ rfl
    refine (hgiven "commitment").bind ?_
    rintro c _ rfl
    exact .ok rfl

/-- **Nothing of the private values is let out.** Whatever the public map and the depth, two private
maps with the same names and arities — and, for an allow list, path bits that are bits in both or in
neither — are refused with the same error and so the same text, or make witnesses with the same
public scalars. -/
theorem assemble_blind (p : Predicate) (depth : Nat) (revealed secret secret' : Inputs)
    (h : secret.outline = secret'.outline)
    (hbits : p = .membership → (secret.BitsOnly ↔ secret'.BitsOnly)) :
    (∃ e, assemble p depth secret revealed = .error e ∧
        assemble p depth secret' revealed = .error e) ∨
      ∃ w w', assemble p depth secret revealed = .ok w ∧
        assemble p depth secret' revealed = .ok w' ∧ w.publicSignals = w'.publicSignals := by
  have halike : Except.Alike _ (assemble p depth secret revealed)
      (assemble p depth secret' revealed) := assemble_alike h hbits
  generalize assemble p depth secret revealed = x at halike
  generalize assemble p depth secret' revealed = y at halike
  cases halike with
  | error e => exact .inl ⟨e, rfl, rfl⟩
  | ok hpublic => exact .inr ⟨_, _, rfl, rfl, hpublic⟩

/-- Two holders on different sides of one allow list, under the same root and commitment. -/
theorem assemble_blind_path :
    let holder := fun value sibling side : Nat => Inputs.ofList [
      ("value", .scalar (Residue.ofNat value)), ("document_hash", .scalar 1),
      ("siblings", .array [Residue.ofNat sibling]), ("path_bits", .array [Residue.ofNat side])]
    let revealed := Inputs.ofList [("root", .scalar 0), ("commitment", .scalar 1)]
    (holder 840 276 0).outline = (holder 276 840 1).outline ∧
      ((holder 840 276 0).BitsOnly ↔ (holder 276 840 1).BitsOnly) ∧
      ((∃ e, assemble .membership 1 (holder 840 276 0) revealed = .error e ∧
          assemble .membership 1 (holder 276 840 1) revealed = .error e) ∨
        ∃ w w', assemble .membership 1 (holder 840 276 0) revealed = .ok w ∧
          assemble .membership 1 (holder 276 840 1) revealed = .ok w' ∧
          w.publicSignals = w'.publicSignals) := by
  intro holder revealed
  have houtline : (holder 840 276 0).outline = (holder 276 840 1).outline := by decide
  have hleft : (holder 840 276 0).get? "path_bits" = some (.array [Residue.ofNat 0]) := by decide
  have hright : (holder 276 840 1).get? "path_bits" = some (.array [Residue.ofNat 1]) := by decide
  have hbits : (holder 840 276 0).BitsOnly ↔ (holder 276 840 1).BitsOnly := by
    rw [Inputs.bitsOnly_iff hleft, Inputs.bitsOnly_iff hright]
    decide
  exact ⟨houtline, hbits, assemble_blind .membership 1 revealed _ _ houtline fun _ => hbits⟩

end Witness

end Attest
