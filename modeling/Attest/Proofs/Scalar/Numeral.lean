import Attest.Failure
import Attest.Proofs.Ring
import Attest.Proofs.Text.Blank
import Attest.Proofs.Text.Hex
import Attest.Scalar.Numeral

/-! Which texts are integers, and which scalars they are.

`Written cs n` is the notation: decimal digits, or hexadecimal ones behind `0x` or `0X`, and at
most one minus sign in front. `ofTrimmed` reads the number itself, and reads exactly the texts that
are so written (`ofTrimmed_eq_ok_iff`). The scalar that is read is its residue, although it is
reduced at every digit (`Scalar.ofDigits_eq`, `Scalar.parse_eq`); so a scalar is read from a text
exactly when what trimming leaves is a numeral, and is that integer's residue
(`Scalar.parse_exact`). -/
namespace Attest

/-- A signed integer as written: minus zero keeps its sign. -/
structure Numeral where
  negative : Bool
  magnitude : Nat
deriving DecidableEq

namespace Numeral

/-- The number that unsigned digits denote, in either radix. -/
def magnitude? (cs : List Char) : Except Error Nat :=
  match Text.Hex.afterMark? cs with
  | some digits =>
    match Text.Hex.decode digits with
    | .ok bytes => .ok bytes.toNatBE
    | .error fault => .error (.hex fault)
  | none =>
    if cs.isEmpty then .error .empty
    else
      match Text.digits? 10 cs with
      | some ds => .ok (Text.value 10 ds)
      | none => .error (.notDecimal (String.ofList cs))

/-- Reads a trimmed text. -/
def ofTrimmed (cs : List Char) : Except Error Numeral :=
  match cs with
  | '-' :: digits => (magnitude? digits).map (⟨true, ·⟩)
  | digits => (magnitude? digits).map (⟨false, ·⟩)

def toScalar (n : Numeral) : Scalar := Residue.ofSigned n.negative n.magnitude

/-- The digits of a number without a sign, in either radix. -/
inductive Unsigned : List Char → Nat → Prop
  | decimal {cs n} : Text.Spells 10 cs n → Unsigned cs n
  | hex {mark cs n} : mark = 'x' ∨ mark = 'X' → Text.Spells 16 cs n →
      Unsigned ('0' :: mark :: cs) n

/-- The texts of a numeral. -/
inductive Written : List Char → Numeral → Prop
  | positive {cs n} : Unsigned cs n → Written cs ⟨false, n⟩
  | negative {cs n} : Unsigned cs n → Written ('-' :: cs) ⟨true, n⟩

/-- The integer that is meant. -/
def toInt (n : Numeral) : Int := if n.negative then -n.magnitude else n.magnitude

variable {cs : List Char} {n : Nat}

theorem not_isDigit_ten {c : Char} (hc : c = 'x' ∨ c = 'X' ∨ c = '-') (d : Nat) :
    ¬Text.IsDigit 10 c d := by
  rintro ⟨hd, h⟩
  have hnone : ∀ d < 10, Nat.digitChar d ≠ 'x' ∧ Nat.digitChar d ≠ '-' := by decide
  rcases hc with rfl | rfl | rfl
  · exact (hnone d hd).1 h
  · exact (hnone d hd).1 h
  · exact (hnone d hd).2 h

theorem afterMark?_eq_some_iff {digits : List Char} : Text.Hex.afterMark? cs = some digits ↔
    ∃ mark, (mark = 'x' ∨ mark = 'X') ∧ cs = '0' :: mark :: digits := by
  unfold Text.Hex.afterMark?
  split <;> grind

/-- Text behind a mark is not decimal. -/
theorem unsigned_marked_iff {mark : Char} (hmark : mark = 'x' ∨ mark = 'X') :
    Unsigned ('0' :: mark :: cs) n ↔ Text.Spells 16 cs n := by
  constructor
  · intro h
    cases h with
    | decimal h =>
      obtain ⟨d, hd⟩ := h.isDigit mark (by simp)
      exact absurd hd (not_isDigit_ten (hmark.imp_right .inl) d)
    | hex _ h => exact h
  · exact .hex hmark

theorem unsigned_unmarked_iff (h : Text.Hex.afterMark? cs = none) :
    Unsigned cs n ↔ Text.Spells 10 cs n := by
  constructor
  · intro hcs
    cases hcs with
    | decimal hcs => exact hcs
    | hex hmark _ => rcases hmark with rfl | rfl <;> cases h
  · exact .decimal

/-- **A number without a sign is read exactly when it is written in a radix.** -/
theorem magnitude?_eq_ok_iff : magnitude? cs = .ok n ↔ Unsigned cs n := by
  unfold magnitude?
  split
  · next digits hmark =>
    obtain ⟨mark, hx, rfl⟩ := afterMark?_eq_some_iff.mp hmark
    rw [unsigned_marked_iff hx, ← Text.Hex.decode_ok_iff]
    cases Text.Hex.decode digits <;> simp
  · next hmark =>
    rw [unsigned_unmarked_iff hmark, Text.spells_iff (by decide)]
    cases hdigits : Text.digits? 10 cs <;> cases cs <;> simp

theorem not_unsigned_minus : ¬Unsigned ('-' :: cs) n := by
  intro h
  cases h with
  | decimal h =>
    obtain ⟨d, hd⟩ := h.isDigit '-' (by simp)
    exact not_isDigit_ten (by simp) d hd

theorem map_eq_ok_iff {ε α β : Type} {f : α → β} {x : Except ε α} {y : β} :
    x.map f = .ok y ↔ ∃ a, x = .ok a ∧ f a = y := by
  cases x <;> simp [Except.map]

/-- **A trimmed text is read exactly when it is a numeral's, and as that numeral.** -/
theorem ofTrimmed_eq_ok_iff {n : Numeral} : ofTrimmed cs = .ok n ↔ Written cs n := by
  unfold ofTrimmed
  split
  · next digits =>
    simp only [map_eq_ok_iff, magnitude?_eq_ok_iff]
    constructor
    · rintro ⟨k, hk, rfl⟩
      exact .negative hk
    · intro h
      cases h with
      | positive h => exact absurd h not_unsigned_minus
      | negative h => exact ⟨_, h, rfl⟩
  · next hminus =>
    simp only [map_eq_ok_iff, magnitude?_eq_ok_iff]
    constructor
    · rintro ⟨k, hk, rfl⟩
      exact .positive hk
    · intro h
      cases h with
      | positive h => exact ⟨_, h, rfl⟩
      | negative h => exact absurd rfl (hminus _)

theorem val_toScalar (n : Numeral) : (n.toScalar.val : Int) = n.toInt % Bn254.order := by
  obtain ⟨negative, magnitude⟩ := n
  cases negative with
  | false => exact Int.natCast_mod magnitude Bn254.order
  | true =>
    have hlt := Nat.le_of_lt (Nat.mod_lt magnitude (Residue.modulus_pos (m := Bn254.order)))
    show ((-Residue.ofNat magnitude : Scalar).val : Int) = -magnitude % Bn254.order
    rw [Residue.val_neg, Residue.val_ofNat, Int.natCast_mod, Nat.cast_sub hlt, Int.natCast_mod,
      Int.sub_emod_left]
    exact (Int.mod_modEq magnitude Bn254.order).neg

theorem toScalar_eq_iff {n : Numeral} {x : Scalar} :
    n.toScalar = x ↔ (x.val : Int) = n.toInt % Bn254.order := by
  rw [← val_toScalar, Nat.cast_inj, Residue.ext_iff, eq_comm]

end Numeral

namespace Scalar

/-- **Reducing at every digit comes to reducing the whole number.** -/
theorem ofDigits_eq (radix : Nat) (ds : List Nat) :
    ofDigits radix ds = Residue.ofNat (Text.value radix ds) := by
  induction ds using List.reverseRecOn with
  | nil => rfl
  | append_singleton ds d ih =>
    rw [ofDigits] at ih ⊢
    rw [List.foldl_append, ih, Text.value_append]
    apply Residue.toZMod_injective
    simp [Residue.toZMod_add, Residue.toZMod_mul, Residue.toZMod_ofNat]

theorem parseUnsigned_eq (cs : List Char) :
    parseUnsigned cs = (Numeral.magnitude? cs).map Residue.ofNat := by
  unfold parseUnsigned Numeral.magnitude?
  cases Text.Hex.afterMark? cs with
  | some digits =>
    dsimp only
    cases Text.Hex.decode digits <;> rfl
  | none =>
    dsimp only
    split
    · rfl
    · cases Text.digits? 10 cs with
      | none => rfl
      | some ds => exact congrArg Except.ok (ofDigits_eq 10 ds)

/-- A text is read as the residue of the integer that is written there. -/
theorem parse_eq (s : String) :
    parse s = (Numeral.ofTrimmed (Text.trim s.toList)).map Numeral.toScalar := by
  unfold parse
  generalize Text.trim s.toList = cs
  split
  · next digits =>
    rw [parseUnsigned_eq, Numeral.ofTrimmed]
    cases Numeral.magnitude? digits <;> rfl
  · next hminus =>
    rw [parseUnsigned_eq, Numeral.ofTrimmed]
    · cases Numeral.magnitude? cs <;> rfl
    · exact hminus

/-- **The parser of integer texts takes numerals and nothing else, for what they mean**: a scalar is
read exactly when the trimmed text is a numeral, and it is that integer's residue. Every other text
is refused as invalid. -/
theorem parse_exact (s : String) :
    (∀ x, parse s = .ok x ↔ ∃ t n, Text.Trimmed s.toList t ∧ Numeral.Written t n ∧
      (x.val : Int) = n.toInt % Bn254.order) ∧
    ((∃ reason, (parse s).mapError (Failure.invalidInput ·.message) =
        .error (.invalidInput reason)) ↔
      ¬∃ t n, Text.Trimmed s.toList t ∧ Numeral.Written t n) := by
  simp only [Text.trimmed_iff, exists_and_left, exists_eq_left, ← Numeral.ofTrimmed_eq_ok_iff,
    ← Numeral.toScalar_eq_iff, parse_eq]
  refine ⟨fun x => Numeral.map_eq_ok_iff, ?_⟩
  cases Numeral.ofTrimmed (Text.trim s.toList) <;> simp [Except.map, Except.mapError]

/-- An odd number of digits in either case, behind a sign and between blanks. -/
example : parse " -0Xf0A\u00a0" = .ok (-Residue.ofNat 3850) := rfl

end Scalar

end Attest
