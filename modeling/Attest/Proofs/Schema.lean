import Attest.Proofs.Assembly

/-! Inputs that make a witness are those that the schema declares.

The schema decides which names are expected; which inputs are looked for, and in which shape, is
written out once more for each predicate. Both agree: a witness is made of every declared input in
its declared shape (`Witness.Shaped.given`), and declared inputs that are all there in their shape
make one (`Witness.exists_taken`). So a pair of maps is accepted exactly when it fits the schema,
at any depth (`Witness.assemble_exact`). -/
namespace Attest

/-! ### Inputs that fit a schema -/

/-- The input is of the arity: one scalar, or a list of exactly that length. -/
inductive Input.Has : Input → Arity → Prop
  | scalar (x : Scalar) : Has (.scalar x) .scalar
  | array (xs : List Scalar) : Has (.array xs) (.array xs.length)

namespace Inputs
variable {p : Predicate} {depth : Nat} {name : String} {inputs secret revealed : Inputs}

/-- The names are the declared ones of a visibility, and every input is of its declared arity. -/
structure Conform (p : Predicate) (depth : Nat) (visibility : Visibility) (inputs : Inputs) :
    Prop where
  names : ∀ name, name ∈ inputs.names ↔
    ∃ s ∈ schema depth p, s.name = name ∧ s.visibility = visibility
  arity : ∀ s ∈ schema depth p, s.visibility = visibility →
    ∀ x, inputs.get? s.name = some x → x.Has s.arity

/-- The map of a visibility. -/
def source (secret revealed : Inputs) : Visibility → Inputs
  | .secret => secret
  | .revealed => revealed

/-- Both maps conform to the schema, and the path bits are bits. -/
structure Fit (p : Predicate) (depth : Nat) (secret revealed : Inputs) : Prop where
  conform : ∀ visibility, (source secret revealed visibility).Conform p depth visibility
  pathBits : ∀ xs, secret.get? "path_bits" = some (.array xs) → ∀ x ∈ xs, x = 0 ∨ x = 1

/-- Every declared input is there, and of its arity. -/
def Given (p : Predicate) (depth : Nat) (secret revealed : Inputs) : Prop :=
  ∀ s ∈ schema depth p, ∃ x, (source secret revealed s.visibility).get? s.name = some x ∧
    x.Has s.arity

theorem mem_names_iff : name ∈ inputs.names ↔ ∃ x, inputs.get? name = some x := by
  simp only [names, get?, List.mem_map, Option.map_eq_some_iff]
  constructor
  · rintro ⟨e, he, rfl⟩
    have hfound : (inputs.entries.find? fun a => a.1 == e.1).isSome :=
      List.find?_isSome.mpr ⟨e, he, beq_self_eq_true e.1⟩
    obtain ⟨a, ha⟩ := Option.isSome_iff_exists.mp hfound
    exact ⟨a.2, a, ha, rfl⟩
  · rintro ⟨_, e, he, -⟩
    have hname := List.find?_some he
    exact ⟨e, List.mem_of_find?_eq_some he, eq_of_beq hname⟩

/-- Two maps conform when nothing in them is undeclared and everything declared is given. -/
theorem forall_conform_iff :
    (∀ visibility, (source secret revealed visibility).Conform p depth visibility) ↔
      (∀ visibility, Witness.Declared p depth visibility (source secret revealed visibility)) ∧
        Given p depth secret revealed := by
  constructor
  · intro h
    refine ⟨fun v name hname => ((h v).names name).mp hname, fun s hs => ?_⟩
    obtain ⟨x, hx⟩ := mem_names_iff.mp (((h s.visibility).names s.name).mpr ⟨s, hs, rfl, rfl⟩)
    exact ⟨x, hx, (h s.visibility).arity s hs rfl x hx⟩
  · rintro ⟨hdeclared, hgiven⟩ v
    refine ⟨fun name => ⟨hdeclared v name, ?_⟩, ?_⟩
    · rintro ⟨s, hs, rfl, rfl⟩
      obtain ⟨x, hx, -⟩ := hgiven s hs
      exact mem_names_iff.mpr ⟨x, hx⟩
    · rintro s hs rfl x hx
      obtain ⟨y, hy, harity⟩ := hgiven s hs
      rwa [Option.some.inj (hx.symm.trans hy)]

theorem Given.scalar (h : Given p depth secret revealed) (visibility : Visibility) (name : String)
    (hs : ⟨name, visibility, .scalar⟩ ∈ schema depth p) :
    ∃ x, (source secret revealed visibility).get? name = some (.scalar x) := by
  obtain ⟨_, hx, ⟨x⟩⟩ := h _ hs
  exact ⟨x, hx⟩

theorem Given.array (h : Given p depth secret revealed) (visibility : Visibility) (name : String)
    (length : Nat) (hs : ⟨name, visibility, .array length⟩ ∈ schema depth p) :
    ∃ xs, (source secret revealed visibility).get? name = some (.array xs) ∧
      xs.length = length := by
  obtain ⟨x, hx, hhas⟩ := h _ hs
  cases hhas with
  | array xs => exact ⟨xs, hx, rfl⟩

end Inputs

/-! ### The inputs of a witness -/

namespace Witness
variable {p : Predicate} {depth : Nat} {secret revealed : Inputs} {w : Witness}

/-- A witness is made of every declared input, in its arity. -/
theorem Shaped.given (hw : w.Shaped depth p) (h : w.TakenFrom secret revealed) :
    Inputs.Given p depth secret revealed := by
  intro s hs
  cases hw with
  | threshold w =>
    simp only [schema, List.mem_cons, List.not_mem_nil, or_false] at hs
    rcases hs with rfl | rfl | rfl | rfl
    · exact ⟨_, h.value, .scalar _⟩
    · exact ⟨_, h.documentHash, .scalar _⟩
    · exact ⟨_, h.commitment, .scalar _⟩
    · exact ⟨_, h.threshold, .scalar _⟩
  | membership hsiblings hbits =>
    simp only [schema, List.mem_cons, List.not_mem_nil, or_false] at hs
    rcases hs with rfl | rfl | rfl | rfl | rfl | rfl
    · exact ⟨_, h.value, .scalar _⟩
    · exact ⟨_, h.documentHash, .scalar _⟩
    · exact ⟨_, h.siblings, hsiblings ▸ .array _⟩
    · refine ⟨_, h.pathBits, ?_⟩
      rw [← hbits, ← List.length_map ofBit]
      exact .array _
    · exact ⟨_, h.root, .scalar _⟩
    · exact ⟨_, h.commitment, .scalar _⟩

theorem forall_bit_iff {xs : List Scalar} :
    (∀ x ∈ xs, x = 0 ∨ x = 1) ↔ ∃ bits : List Bool, xs = bits.map ofBit := by
  constructor
  · intro h
    refine ⟨xs.map fun x => decide (x = 1), ?_⟩
    rw [List.map_map, List.map_congr_left (g := id), List.map_id]
    intro x hx
    rcases h x hx with rfl | rfl
    · rfl
    · rfl
  · rintro ⟨bits, rfl⟩ x hx
    obtain ⟨b, -, rfl⟩ := List.mem_map.mp hx
    cases b with
    | false => exact .inl rfl
    | true => exact .inr rfl

/-- Declared inputs that are all given, the path bits being bits, make a witness. -/
theorem exists_taken (h : Inputs.Given p depth secret revealed)
    (hbits : ∀ xs, secret.get? "path_bits" = some (.array xs) → ∀ x ∈ xs, x = 0 ∨ x = 1) :
    ∃ w : Witness, w.Shaped depth p ∧ w.TakenFrom secret revealed := by
  cases p with
  | threshold =>
    obtain ⟨value, hvalue⟩ := h.scalar .secret "value" (by simp [schema])
    obtain ⟨hash, hhash⟩ := h.scalar .secret "document_hash" (by simp [schema])
    obtain ⟨commitment, hcommitment⟩ := h.scalar .revealed "commitment" (by simp [schema])
    obtain ⟨threshold, hthreshold⟩ := h.scalar .revealed "threshold" (by simp [schema])
    exact ⟨.threshold ⟨value, hash, commitment, threshold⟩, .threshold _,
      ⟨hvalue, hhash, hcommitment, hthreshold⟩⟩
  | membership =>
    obtain ⟨value, hvalue⟩ := h.scalar .secret "value" (by simp [schema])
    obtain ⟨hash, hhash⟩ := h.scalar .secret "document_hash" (by simp [schema])
    obtain ⟨siblings, hsiblings, hlength⟩ := h.array .secret "siblings" depth (by simp [schema])
    obtain ⟨xs, hxs, hpath⟩ := h.array .secret "path_bits" depth (by simp [schema])
    obtain ⟨root, hroot⟩ := h.scalar .revealed "root" (by simp [schema])
    obtain ⟨commitment, hcommitment⟩ := h.scalar .revealed "commitment" (by simp [schema])
    obtain ⟨bits, rfl⟩ := forall_bit_iff.mp (hbits xs hxs)
    rw [List.length_map] at hpath
    exact ⟨.membership ⟨value, hash, siblings, bits, root, commitment⟩,
      .membership hlength hpath, ⟨hvalue, hhash, hsiblings, hxs, hroot, hcommitment⟩⟩

/-- The path bits of a witness's inputs are bits. -/
theorem Shaped.bits (hw : w.Shaped depth p) (h : w.TakenFrom secret revealed)
    (hsecret : Declared p depth .secret secret) {xs : List Scalar}
    (hxs : secret.get? "path_bits" = some (.array xs)) : ∀ x ∈ xs, x = 0 ∨ x = 1 := by
  cases hw with
  | threshold w =>
    -- The schema of a threshold does not declare path bits at all.
    obtain ⟨s, hs, hname, -⟩ := hsecret _ (Inputs.mem_names_iff.mpr ⟨_, hxs⟩)
    simp only [schema, List.mem_cons, List.not_mem_nil, or_false] at hs
    rcases hs with rfl | rfl | rfl | rfl <;> exact absurd hname (by decide)
  | membership =>
    obtain rfl := Input.array.inj (Option.some.inj (hxs.symm.trans h.pathBits))
    exact forall_bit_iff.mpr ⟨_, rfl⟩

/-- A witness made of inputs that fit the schema has the shape of its predicate. -/
theorem shaped_of_given (h : w.TakenFrom secret revealed) (hp : w.predicate = p)
    (hgiven : Inputs.Given p depth secret revealed) : w.Shaped depth p := by
  cases w with
  | threshold w => exact hp ▸ .threshold w
  | membership w =>
    obtain rfl := hp
    obtain ⟨xs, hxs, hlength⟩ := hgiven.array .secret "siblings" depth (by simp [schema, predicate])
    obtain ⟨ys, hys, hpath⟩ := hgiven.array .secret "path_bits" depth (by simp [schema, predicate])
    obtain rfl := Input.array.inj (Option.some.inj (hxs.symm.trans h.siblings))
    obtain rfl := Input.array.inj (Option.some.inj (hys.symm.trans h.pathBits))
    exact .membership hlength ((List.length_map ofBit).symm.trans hpath)

/-- The witness of some inputs, in terms of the schema. -/
theorem assemble_eq_ok_iff_fit :
    assemble p depth secret revealed = .ok w ↔
      Inputs.Fit p depth secret revealed ∧ w.predicate = p ∧ w.TakenFrom secret revealed := by
  rw [assemble_eq_ok_iff]
  constructor
  · rintro ⟨hsecret, hrevealed, hw, h⟩
    have hdeclared (v) : Declared p depth v (Inputs.source secret revealed v) := by
      cases v with
      | secret => exact hsecret
      | revealed => exact hrevealed
    have hconform := Inputs.forall_conform_iff.mpr ⟨hdeclared, hw.given h⟩
    exact ⟨⟨hconform, fun _ hxs => hw.bits h hsecret hxs⟩, hw.predicate_eq, h⟩
  · rintro ⟨hfit, hp, h⟩
    obtain ⟨hdeclared, hgiven⟩ := Inputs.forall_conform_iff.mp hfit.conform
    exact ⟨hdeclared .secret, hdeclared .revealed, shaped_of_given h hp hgiven, h⟩

theorem exists_assemble_iff :
    (∃ w, assemble p depth secret revealed = .ok w) ↔ Inputs.Fit p depth secret revealed := by
  constructor
  · rintro ⟨w, hw⟩
    exact (assemble_eq_ok_iff_fit.mp hw).1
  · intro hfit
    obtain ⟨-, hgiven⟩ := Inputs.forall_conform_iff.mp hfit.conform
    obtain ⟨w, hw, h⟩ := exists_taken hgiven hfit.pathBits
    exact ⟨w, assemble_eq_ok_iff_fit.mpr ⟨hfit, hw.predicate_eq, h⟩⟩

/-- **Inputs make a witness exactly when they fit the schema**: a witness of the predicate whose
fields are the inputs of their names, the path bits as truth values. All other inputs are
refused. -/
theorem assemble_exact (p : Predicate) (depth : Nat) (secret revealed : Inputs) :
    ((∃ w, assemble p depth secret revealed = .ok w) ↔ Inputs.Fit p depth secret revealed) ∧
      (∀ w, assemble p depth secret revealed = .ok w ↔
        Inputs.Fit p depth secret revealed ∧ w.predicate = p ∧ w.TakenFrom secret revealed) ∧
      ((∃ reason, (assemble p depth secret revealed).mapError Error.toFailure =
        .error (.proofGeneration reason)) ↔ ¬Inputs.Fit p depth secret revealed) := by
  refine ⟨exists_assemble_iff, fun w => assemble_eq_ok_iff_fit, ?_⟩
  rw [← exists_assemble_iff]
  cases h : assemble p depth secret revealed with
  | ok w => exact iff_of_false (fun ⟨_, hreason⟩ => nomatch hreason) (not_not_intro ⟨w, rfl⟩)
  | error e => exact iff_of_true ⟨_, rfl⟩ fun ⟨_, hw⟩ => nomatch hw

/-- A tree of depth zero asks for lists that are there and empty. -/
example : (assemble .membership 0
    (.ofList [("value", .scalar 1), ("document_hash", .scalar 0), ("siblings", .array []),
      ("path_bits", .array [])])
    (.ofList [("root", .scalar 1), ("commitment", .scalar 1)])).toOption =
      some (.membership ⟨1, 0, [], [], 1, 1⟩) := by decide

end Witness

end Attest
