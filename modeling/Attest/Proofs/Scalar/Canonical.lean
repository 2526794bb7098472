import Attest.Proofs.Assembly
import Attest.Proofs.Bytes
import Attest.Proofs.Scalar.Numeral
import Attest.Proofs.Text.Magnitude

/-! Which texts are a scalar without reduction.

A text is canonical when what trimming leaves is a number without a sign below the order; it is
then read as the scalar of that very number (`Scalar.parseCanonical_eq_ok_iff`), and reduction
would change nothing (`Scalar.parse_of_parseCanonical`). The text that a scalar is written as is
one of them (`Scalar.parseCanonical_toHex`). The range is decided by the digits as text, and that
is the range of the number (`Numeral.belowOrder_iff`); `Scalar.canonical_exact` says what becomes
of every text. -/
namespace Attest

namespace Text

theorem IsDigit.ascii {radix d : Nat} {c : Char} (hr : radix ≤ 16) (h : IsDigit radix c d) :
    c.toNat < 128 := by
  by_contra hc
  exact digitChar_ne_toLower (Nat.le_of_not_lt hc) (Nat.lt_of_lt_of_le h.1 hr) h.2

/-- What holds of every digit among the characters of ASCII holds of every digit. -/
theorem IsDigit.of_ascii {radix d : Nat} {c : Char} {motive : Char → Prop} (hr : radix ≤ 16)
    (hascii : ∀ k < 128, ∀ d < radix, Nat.digitChar d = (Char.ofNat k).toLower →
      motive (Char.ofNat k)) (h : IsDigit radix c d) : motive c := by
  have hc := hascii c.toNat (h.ascii hr) d h.1
  rw [Char.ofNat_toNat] at hc
  exact hc h.2

theorem not_isBlank_of_isDigit {radix d : Nat} {c : Char} (hr : radix ≤ 16)
    (h : IsDigit radix c d) : isBlank c = false := by
  have hhex : IsDigit 16 c d := ⟨Nat.lt_of_lt_of_le h.1 hr, h.2⟩
  refine hhex.of_ascii (motive := fun c => isBlank c = false) (Nat.le_refl 16) ?_
  decide +kernel

/-- Decimal digits have no case. -/
theorem toLower_of_isDigit_ten {c : Char} {d : Nat} (h : IsDigit 10 c d) : c.toLower = c := by
  refine h.of_ascii (motive := fun c => c.toLower = c) (by decide) ?_
  decide +kernel

/-- The digits of bytes spell the number that the bytes do. -/
theorem Hex.spells_encode {bs : Bytes} (hne : bs ≠ []) :
    Spells 16 (Hex.encode bs) (Bytes.toNatBE bs) := by
  have hdigit : ∀ d < 16, Nat.digitChar d = (Hex.digitChar d).toLower := by decide
  induction bs using List.reverseRecOn with
  | nil => exact absurd rfl hne
  | append_singleton bs b ih =>
    have hb := b.toNat_lt
    have hhigh : IsDigit 16 (Hex.digitChar (b.toNat / 16)) (b.toNat / 16) :=
      ⟨by omega, hdigit _ (by omega)⟩
    have hlow : IsDigit 16 (Hex.digitChar (b.toNat % 16)) (b.toNat % 16) :=
      ⟨by omega, hdigit _ (by omega)⟩
    by_cases hbs : bs = []
    · subst hbs
      have hspells := (Spells.digit hhigh).more hlow
      rw [Nat.mul_comm, Nat.div_add_mod] at hspells
      simpa [Hex.encode, Hex.encodeByte, Bytes.toNatBE] using hspells
    · have hspells := ((ih hbs).more hhigh).more hlow
      have hnumber : (Bytes.toNatBE bs * 16 + b.toNat / 16) * 16 + b.toNat % 16 =
          Bytes.toNatBE bs * 256 + b.toNat := by omega
      rw [hnumber] at hspells
      simpa [Hex.encode, Hex.encodeByte, Bytes.toNatBE] using hspells

end Text

namespace Numeral
variable {cs : List Char} {n : Nat}

theorem Unsigned.not_isBlank (h : Unsigned cs n) : ∀ c ∈ cs, Text.isBlank c = false := by
  cases h with
  | decimal h =>
    intro c hc
    obtain ⟨d, hd⟩ := h.isDigit c hc
    exact Text.not_isBlank_of_isDigit (by decide) hd
  | hex hmark h =>
    intro c hc
    rcases List.mem_cons.mp hc with rfl | hc
    · rfl
    · rcases List.mem_cons.mp hc with rfl | hc
      · rcases hmark with rfl | rfl <;> rfl
      · obtain ⟨d, hd⟩ := h.isDigit c hc
        exact Text.not_isBlank_of_isDigit (by decide) hd

/-- Trimming leaves a number alone. -/
theorem Unsigned.trim_eq (h : Unsigned cs n) : Text.trim cs = cs :=
  Text.trim_eq_self h.not_isBlank

/-- A number has one value. -/
theorem Unsigned.unique {k : Nat} (h : Unsigned cs n) (hk : Unsigned cs k) : n = k := by
  rw [← magnitude?_eq_ok_iff] at h hk
  exact Except.ok.inj (h.symm.trans hk)

/-! ### The range of a text -/

theorem orderDecimal_spells : Text.Spells 10 orderDecimal.toList Bn254.order :=
  (Text.spells_iff (by decide)).mpr ⟨by decide +kernel, by decide +kernel⟩

theorem orderHex_spells : Text.Spells 16 orderHex.toList Bn254.order :=
  (Text.spells_iff (by decide)).mpr ⟨by decide +kernel, by decide +kernel⟩

/-- **The digits of a number, compared with the order's as text, say whether it is below.** -/
theorem belowOrder_iff (h : Unsigned cs n) : belowOrder cs = true ↔ n < Bn254.order := by
  unfold belowOrder
  split
  · next digits hmark =>
    obtain ⟨mark, hx, rfl⟩ := afterMark?_eq_some_iff.mp hmark
    exact Text.below_iff (by decide) ((unsigned_marked_iff hx).mp h) orderHex_spells
      (by decide +kernel) (by decide +kernel)
  · next hmark =>
    have hspells := (unsigned_unmarked_iff hmark).mp h
    have hlower : cs.map Char.toLower = cs := by
      refine (List.map_congr_left fun c hc => ?_).trans (List.map_id cs)
      obtain ⟨d, hd⟩ := hspells.isDigit c hc
      exact Text.toLower_of_isDigit_ten hd
    rw [← hlower]
    exact Text.below_iff (by decide) hspells orderDecimal_spells (by decide +kernel)
      (by decide +kernel)

/-- Digits that cannot be read are no number that is too large. -/
theorem ofTrimmed_ne_notBelowModulus (cs : List Char) (text : String) :
    ofTrimmed cs ≠ .error (.notBelowModulus text) := by
  have hmagnitude : ∀ (digits : List Char) (negative : Bool),
      (magnitude? digits).map (Numeral.mk negative) ≠ .error (.notBelowModulus text) := by
    intro digits negative
    unfold magnitude?
    split
    · split <;> simp [Except.map]
    · split
      · simp [Except.map]
      · split <;> simp [Except.map]
  unfold ofTrimmed
  split <;> exact hmagnitude _ _

end Numeral

namespace Scalar
variable {s : String} {x y : Scalar}

/-! ### What is read -/

theorem parse_of_unsigned {n : Nat} (h : Numeral.Unsigned (Text.trim s.toList) n) :
    parse s = .ok (Residue.ofNat n) := by
  rw [parse_eq, Numeral.ofTrimmed_eq_ok_iff.mpr (.positive h)]
  rfl

theorem parseCanonical_of_parse (h : parse s = .ok x) :
    parseCanonical s =
      if (Text.trim s.toList).head? = some '-' then
        .error (.negative (String.ofList (Text.trim s.toList)))
      else if Numeral.belowOrder (Text.trim s.toList) then .ok x
      else .error (.notBelowModulus (String.ofList (Text.trim s.toList))) := by
  rw [parseCanonical, h]
  rfl

/-- A number without a sign is read if it is below the order, and refused as it stands if not. -/
theorem parseCanonical_of_unsigned {n : Nat} (h : Numeral.Unsigned (Text.trim s.toList) n) :
    parseCanonical s = if n < Bn254.order then .ok (Residue.ofNat n)
      else .error (.notBelowModulus (String.ofList (Text.trim s.toList))) := by
  have hminus : (Text.trim s.toList).head? ≠ some '-' := by
    intro hhead
    obtain ⟨digits, hdigits⟩ := List.head?_eq_some_iff.mp hhead
    rw [hdigits] at h
    exact Numeral.not_unsigned_minus h
  rw [parseCanonical_of_parse (parse_of_unsigned h), if_neg hminus]
  simp only [Numeral.belowOrder_iff h]

/-- Every other text is refused, and not for its size. -/
theorem parseCanonical_of_not_unsigned (h : ¬∃ n, Numeral.Unsigned (Text.trim s.toList) n) :
    ∃ e, parseCanonical s = .error e ∧ ∀ text, e ≠ .notBelowModulus text := by
  cases hread : Numeral.ofTrimmed (Text.trim s.toList) with
  | error e =>
    refine ⟨e, by rw [parseCanonical, parse_eq, hread]; rfl, fun text he => ?_⟩
    exact Numeral.ofTrimmed_ne_notBelowModulus _ text (he ▸ hread)
  | ok n =>
    have hparse : parse s = .ok n.toScalar := by
      rw [parse_eq, hread]
      rfl
    have hwritten := Numeral.ofTrimmed_eq_ok_iff.mp hread
    rw [parseCanonical_of_parse hparse]
    generalize Text.trim s.toList = t at h hwritten
    cases hwritten with
    | positive hunsigned => exact absurd ⟨_, hunsigned⟩ h
    | negative => exact ⟨_, if_pos rfl, fun text => Numeral.Error.noConfusion⟩

/-- **A canonical text is a number without a sign that needs no reduction**, and read as the scalar
of that number. -/
theorem parseCanonical_eq_ok_iff :
    parseCanonical s = .ok x ↔ Numeral.Unsigned (Text.trim s.toList) x.val := by
  by_cases hunsigned : ∃ n, Numeral.Unsigned (Text.trim s.toList) n
  · obtain ⟨n, hn⟩ := hunsigned
    have hvalue : Numeral.Unsigned (Text.trim s.toList) x.val ↔ n = x.val :=
      ⟨hn.unique, fun h => h ▸ hn⟩
    rw [parseCanonical_of_unsigned hn, hvalue]
    by_cases hlt : n < Bn254.order
    · rw [if_pos hlt, Except.ok.injEq, Residue.ext_iff, Residue.val_ofNat_of_lt hlt]
    · rw [if_neg hlt]
      exact iff_of_false (fun h => nomatch h) fun h => hlt (h ▸ x.isLt)
  · obtain ⟨e, he, -⟩ := parseCanonical_of_not_unsigned hunsigned
    rw [he]
    exact iff_of_false (fun h => nomatch h) fun h => hunsigned ⟨_, h⟩

theorem parse_of_parseCanonical (h : parseCanonical s = .ok x) : parse s = .ok x := by
  rw [parseCanonical_eq_ok_iff] at h
  rw [parse_eq, Numeral.ofTrimmed_eq_ok_iff.mpr (.positive h)]
  exact congrArg Except.ok (Residue.ofNat_val x)

/-- What a scalar is written as is canonical. -/
theorem parseCanonical_toHex (x : Scalar) : parseCanonical (toHex x) = .ok x := by
  have hne : toBytes x ≠ [] := List.ne_nil_of_length_pos (by rw [length_toBytes]; decide)
  have hspells := Text.Hex.spells_encode hne
  rw [toBytes, Bytes.toNatBE_ofNatBE, Nat.mod_eq_of_lt x.val_lt_width] at hspells
  have hunsigned := Numeral.Unsigned.hex (.inl rfl) hspells
  rw [parseCanonical_eq_ok_iff, toHex, String.toList_ofList]
  rw [← hunsigned.trim_eq] at hunsigned
  exact hunsigned

/-- **A text is read as canonical exactly when, trimmed, it is a number without a sign below the
order**, in either radix and with any zeros in front, and for that number. Every other text is
refused as invalid, and such a number from the order on as too large. -/
theorem canonical_exact (s : String) :
    (∀ x, parseCanonical s = .ok x ↔ ∃ t n, Text.Trimmed s.toList t ∧ Numeral.Unsigned t n ∧
      n < Bn254.order ∧ x.val = n) ∧
    ((∃ reason, (parseCanonical s).mapError (Failure.invalidInput ·.message) =
        .error (.invalidInput reason)) ↔
      ¬∃ t n, Text.Trimmed s.toList t ∧ Numeral.Unsigned t n ∧ n < Bn254.order) ∧
    ∀ text, parseCanonical s = .error (.notBelowModulus text) ↔
      ∃ t n, Text.Trimmed s.toList t ∧ Numeral.Unsigned t n ∧ Bn254.order ≤ n ∧
        String.ofList t = text := by
  simp only [Text.trimmed_iff, exists_and_left, exists_eq_left]
  refine ⟨fun x => ?_, ?_, fun text => ?_⟩
  · rw [parseCanonical_eq_ok_iff]
    exact ⟨fun h => ⟨_, h, x.isLt, rfl⟩, fun ⟨n, h, _, hx⟩ => hx ▸ h⟩
  · cases hread : parseCanonical s with
    | ok x =>
      have hunsigned := parseCanonical_eq_ok_iff.mp hread
      exact iff_of_false (fun ⟨_, h⟩ => nomatch h) (not_not.mpr ⟨_, hunsigned, x.isLt⟩)
    | error e =>
      refine iff_of_true ⟨_, rfl⟩ fun ⟨n, hn, hlt⟩ => ?_
      rw [parseCanonical_of_unsigned hn, if_pos hlt] at hread
      exact nomatch hread
  · by_cases hunsigned : ∃ n, Numeral.Unsigned (Text.trim s.toList) n
    · obtain ⟨n, hn⟩ := hunsigned
      rw [parseCanonical_of_unsigned hn]
      by_cases hlt : n < Bn254.order
      · rw [if_pos hlt]
        refine iff_of_false (fun h => nomatch h) fun ⟨k, hk, hle, _⟩ => ?_
        exact absurd (hn.unique hk ▸ hlt) (Nat.not_lt.mpr hle)
      · rw [if_neg hlt, Except.error.injEq, Numeral.Error.notBelowModulus.injEq]
        exact ⟨fun h => ⟨n, hn, Nat.le_of_not_lt hlt, h⟩, fun ⟨_, _, _, h⟩ => h⟩
    · obtain ⟨e, he, hother⟩ := parseCanonical_of_not_unsigned hunsigned
      rw [he]
      exact iff_of_false (fun h => hother text (Except.error.inj h)) fun ⟨n, hn, _⟩ =>
        hunsigned ⟨n, hn⟩

/-- The order itself, in capitals and behind zeros. -/
example :
    parseCanonical "0X0030644E72E131A029B85045B68181585D2833E84879B9709143E1F593F0000001" =
      .error (.notBelowModulus
        "0X0030644E72E131A029B85045B68181585D2833E84879B9709143E1F593F0000001") := by
  decide +kernel

end Scalar

end Attest
