import Attest.Proofs.Wire.Signals

/-! Named inputs that are read back from what they are written as.

An input is looked at as a scalar first and then as a list of them, and no list is a scalar
(`input_restores`). A map is written in the order of its names, and in that order every entry goes
to the end of those before it (`Inputs.ofList_entries`); so a map of any names is restored
(`inputs_restores`). -/
namespace Attest

namespace Inputs

/-- A name behind all others is put at the end. -/
theorem place_last {name : String} {x : Input} {es : List (String × Input)}
    (h : ∀ e ∈ es, e.1 < name) : place name x es = es ++ [(name, x)] := by
  induction es with
  | nil => rfl
  | cons e rest ih =>
    have he := h e List.mem_cons_self
    have hne : name ≠ e.1 := fun heq => String.lt_irrefl _ (heq ▸ he)
    rw [place, if_neg (String.lt_asymm he), if_neg hne,
      ih fun e' he' => h e' (List.mem_cons_of_mem _ he'), List.cons_append]

/-- Entries in order go to the end one after the other. -/
theorem entries_insertAll {m : Inputs} {es : List (String × Input)}
    (h : (m.entries ++ es).Pairwise fun a b => a.1 < b.1) :
    (es.foldl (fun m e => m.insert e.1 e.2) m).entries = m.entries ++ es := by
  induction es generalizing m with
  | nil => exact (List.append_nil _).symm
  | cons e rest ih =>
    have hlast : (m.insert e.1 e.2).entries = m.entries ++ [e] :=
      place_last fun a ha => (List.pairwise_append.mp h).2.2 a ha e List.mem_cons_self
    rw [List.append_cons, ← hlast] at h ⊢
    exact ih h

/-- A map is made up of its entries. -/
theorem ofList_entries (m : Inputs) : ofList m.entries = m :=
  Inputs.ext (entries_insertAll (m := .empty) m.ascending)

end Inputs

namespace Wire
open Json

theorem scalar_restores (x : Scalar) : scalar.Restores x :=
  ⟨.text _, scalar_read_of_canonical (canonicalScalar_restores x).read_write⟩

/-! ### One input -/

variable {room : Nat} {r : Reading}

theorem input_read_of_scalar {x : Scalar} (husable : r.isUsable room) (h : scalar.read r = .ok x) :
    (input room).read r = .ok (.scalar x) := by
  have hplain : plainScalar? r = some x := by
    rw [plainScalar?, h]
    rfl
  simp only [input, husable, if_true, hplain]

theorem input_read_of_list {xs : List Scalar} (husable : r.isUsable room)
    (hnone : ∀ x, scalar.read r ≠ .ok x) (h : scalar.list.read r = .ok xs) :
    (input room).read r = .ok (.array xs) := by
  have hplain : plainScalar? r = none := by
    rw [plainScalar?]
    cases hread : scalar.read r with
    | ok x => exact absurd hread (hnone x)
    | error fault => rfl
  simp only [input, husable, if_true, hplain, h]

theorem scalars_usable (room : Nat) (xs : List Scalar) :
    Reading.areUsable room (Reading.ofItems (xs.map scalar.write)) = true := by
  induction xs with
  | nil => rfl
  | cons x rest ih =>
    rw [List.map_cons, Reading.ofItems, Reading.areUsable, ih]
    rfl

/-- An input is restored, if there is room for a list. -/
theorem input_restores (hroom : 0 < room) (x : Input) : (input room).Restores x := by
  cases x with
  | scalar x =>
    exact ⟨(scalar_restores x).inRange, input_read_of_scalar rfl (scalar_restores x).read_write⟩
  | array xs =>
    have hlist := Codec.Restores.list fun x (_ : x ∈ xs) => scalar_restores x
    refine ⟨hlist.inRange, input_read_of_list ?_ (fun x => ?_) hlist.read_write⟩
    · obtain ⟨room, rfl⟩ := Nat.exists_eq_succ_of_ne_zero (Nat.pos_iff_ne_zero.mp hroom)
      exact scalars_usable room xs
    · exact Codec.wrongType_ne_ok _ _ _

/-! ### Maps of inputs -/

theorem readInputs_written (hroom : 0 < room) (m : Inputs) (es : List (String × Input)) :
    readInputs room m (Reading.ofMembers (es.map fun e => (e.1, (input room).write e.2))) =
      .ok (es.foldl (fun m e => m.insert e.1 e.2) m) := by
  induction es generalizing m with
  | nil => rfl
  | cons e rest ih =>
    rw [List.map_cons, Reading.ofMembers, readInputs, (input_restores hroom e.2).read_write]
    exact ih _

/-- **A map of inputs is restored**, whatever the names. -/
theorem inputs_restores (hroom : 0 < room) (m : Inputs) : (inputs room).Restores m := by
  constructor
  · refine Reading.ofJson_object_inRange ?_
    exact List.forall_mem_map.mpr fun e _ => (input_restores hroom e.2).inRange
  · show readInputs room .empty (Reading.ofMembers _) = .ok m
    rw [readInputs_written hroom]
    exact congrArg Except.ok m.ofList_entries

end Wire

end Attest
