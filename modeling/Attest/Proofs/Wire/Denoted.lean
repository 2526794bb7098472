import Mathlib.Data.Int.ModEq
import Attest.Proofs.Wire.Inputs

/-! Scalars that are read from what they denote.

An item is read as a scalar exactly when it denotes an integer, and then as that integer's residue
(`scalar_read_eq_ok_iff`): a number and a text in either radix are one scalar when their integers
are congruent (`Scalar.ofInt_eq_iff`). -/
namespace Attest

namespace Scalar

/-- The residue of an integer. -/
def ofInt (n : Int) : Scalar := Residue.ofSigned (decide (n < 0)) n.natAbs

theorem val_ofInt (n : Int) : ((ofInt n).val : Int) = n % Bn254.order := by
  have hint : Numeral.toInt ⟨decide (n < 0), n.natAbs⟩ = n := by
    by_cases h : n < 0
    · simp only [Numeral.toInt, h, decide_true, if_true]
      omega
    · simp only [Numeral.toInt, h, decide_false]
      exact Int.natAbs_of_nonneg (Int.not_lt.mp h)
  have hval := Numeral.val_toScalar ⟨decide (n < 0), n.natAbs⟩
  rwa [hint] at hval

/-- Integers have one residue exactly when they are congruent. -/
theorem ofInt_eq_iff {m n : Int} : ofInt m = ofInt n ↔ m ≡ n [ZMOD Bn254.order] := by
  rw [Residue.ext_iff, ← Int.natCast_inj, val_ofInt, val_ofInt]
  rfl

theorem eq_ofInt_iff {x : Scalar} {n : Int} : x = ofInt n ↔ (x.val : Int) = n % Bn254.order := by
  rw [Residue.ext_iff, ← Int.natCast_inj, val_ofInt]

theorem toScalar_eq_ofInt (n : Numeral) : n.toScalar = ofInt n.toInt :=
  eq_ofInt_iff.mpr n.val_toScalar

end Scalar

namespace Wire
open Json
variable {r : Reading} {x : Scalar}

/-- A text denotes the numeral that it is read as. -/
theorem denotes_text_iff {s : String} {n : Int} : Denotes (.text s) n ↔
    ∃ numeral, Numeral.ofTrimmed (Text.trim s.toList) = .ok numeral ∧ numeral.toInt = n := by
  constructor
  · intro h
    cases h with
    | text ht hn =>
      rw [Text.trimmed_iff] at ht
      subst ht
      exact ⟨_, Numeral.ofTrimmed_eq_ok_iff.mpr hn, rfl⟩
  · rintro ⟨numeral, h, rfl⟩
    exact .text (Text.trimmed_trim _) (Numeral.ofTrimmed_eq_ok_iff.mp h)

/-- What a text denotes, where reading it can be computed. -/
theorem denotes_of_toOption {s : String} {n : Numeral}
    (h : (Numeral.ofTrimmed (Text.trim s.toList)).toOption = some n) :
    Denotes (.text s) n.toInt :=
  denotes_text_iff.mpr ⟨n, eq_ok_of_toOption h, rfl⟩

theorem denotes_ofInt (n : Int) : Denotes (.ofInt n) n := by
  cases n with
  | ofNat k => exact .natural k
  | negSucc k => exact .negative (k + 1)

/-- **A whole number is denoted by its decimal text.** -/
theorem denotes_toString (n : Int) : Denotes (.text (toString n)) n := by
  have hunsigned (k : Nat) : Numeral.Unsigned (Nat.toDigits 10 k) k :=
    .decimal (Text.spells_toDigits k)
  cases n with
  | ofNat k =>
    have htrimmed := Text.trimmed_trim (Nat.toDigits 10 k)
    rw [(hunsigned k).trim_eq, ← Text.toList_toString_ofNat] at htrimmed
    refine .text (n := ⟨false, k⟩) htrimmed ?_
    rw [Text.toList_toString_ofNat]
    exact .positive (hunsigned k)
  | negSucc k =>
    have htrimmed := Text.trimmed_trim ('-' :: Nat.toDigits 10 (k + 1))
    rw [Text.trim_eq_self (List.forall_mem_cons.mpr ⟨rfl, (hunsigned (k + 1)).not_isBlank⟩),
      ← Text.toList_toString_negSucc] at htrimmed
    refine .text (n := ⟨true, k + 1⟩) htrimmed ?_
    rw [Text.toList_toString_negSucc]
    exact .negative (hunsigned (k + 1))

theorem parse_eq_ok_iff {s : String} :
    Scalar.parse s = .ok x ↔ ∃ n, Denotes (.text s) n ∧ Scalar.ofInt n = x := by
  rw [Scalar.parse_eq, Numeral.map_eq_ok_iff]
  constructor
  · rintro ⟨numeral, h, rfl⟩
    exact ⟨_, denotes_text_iff.mpr ⟨numeral, h, rfl⟩, (Scalar.toScalar_eq_ofInt numeral).symm⟩
  · rintro ⟨_, hn, rfl⟩
    obtain ⟨numeral, h, rfl⟩ := denotes_text_iff.mp hn
    exact ⟨numeral, h, Scalar.toScalar_eq_ofInt numeral⟩

/-- **An item is a scalar exactly when it denotes an integer, and the residue of that.** -/
theorem scalar_read_eq_ok_iff :
    scalar.read r = .ok x ↔ ∃ n, Denotes r n ∧ Scalar.ofInt n = x := by
  cases r with
  | natural k =>
    have hread : scalar.read (.natural k) = .ok (Scalar.ofInt k) :=
      congrArg Except.ok (Scalar.toScalar_eq_ofInt ⟨false, k⟩)
    rw [hread, Except.ok.injEq]
    constructor
    · exact fun h => ⟨_, .natural k, h⟩
    · rintro ⟨n, h, rfl⟩
      rw [h.unique (.natural k)]
  | negative k =>
    have hread : scalar.read (.negative k) = .ok (Scalar.ofInt (-k)) :=
      congrArg Except.ok (Scalar.toScalar_eq_ofInt ⟨true, k⟩)
    rw [hread, Except.ok.injEq]
    constructor
    · exact fun h => ⟨_, .negative k, h⟩
    · rintro ⟨n, h, rfl⟩
      rw [h.unique (.negative k)]
  | text s => exact mapError_eq_ok_iff.trans parse_eq_ok_iff
  | _ => exact iff_of_false (Codec.wrongType_ne_ok _ _ _) fun ⟨_, h, _⟩ => nomatch h

/-- **Items are scalars exactly when each of them denotes an integer.** -/
theorem scalars_read_eq_ok_iff {xs : List Scalar} : scalar.list.read r = .ok xs ↔
    ∃ items ns, r = .array items ∧ List.Forall₂ Denotes items ns ∧ ns.map Scalar.ofInt = xs := by
  rw [Codec.list_read_eq_ok_iff]
  refine exists_congr fun items => ?_
  rw [exists_and_left]
  refine and_congr_right' ?_
  induction items generalizing xs with
  | nil => cases xs <;> simp
  | cons r rest ih =>
    constructor
    · intro h
      cases h with
      | cons hx hxs =>
        obtain ⟨n, hn, rfl⟩ := scalar_read_eq_ok_iff.mp hx
        obtain ⟨ns, hns, rfl⟩ := ih.mp hxs
        exact ⟨n :: ns, .cons hn hns, rfl⟩
    · rintro ⟨_, h, rfl⟩
      cases h with
      | cons hn hns =>
        exact .cons (scalar_read_eq_ok_iff.mpr ⟨_, hn, rfl⟩) (ih.mpr ⟨_, hns, rfl⟩)

end Wire

end Attest
