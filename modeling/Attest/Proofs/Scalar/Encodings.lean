import Attest.Proofs.Wire.Denoted
import Attest.Scalar.Word

/-! The forms of a scalar, and the ways to one scalar.

A scalar is written as bytes, as hexadecimal text and as decimal text; each form spells the number
between zero and the order (`Scalar.spelled`), and whatever decodes the form gives the scalar back
(`Scalar.restored`). From the other side, an integer comes as a machine word, as text in either
radix and as bytes: all of them make its residue (`Scalar.made_ofInt`), and one more order makes no
difference. `Scalar.forms_agree` says both. -/
namespace Attest.Scalar

/-! ### What is written -/

/-- The digits that hexadecimal text is written with. -/
def lowercaseDigits : List Char := "0123456789abcdef".toList

/-- The forms that a scalar is written in spell its number. -/
structure Spelled (x : Scalar) : Prop where
  below : x.val < Bn254.order
  /-- The bytes are 32, the most significant first. -/
  width : (toBytes x).length = 32
  bytes : (toBytes x).toNatBE = x.val
  /-- The mark, and 64 lowercase digits. -/
  hex : ∃ digits, x.toHex.toList = '0' :: 'x' :: digits ∧ digits.length = 64 ∧
    (∀ c ∈ digits, c ∈ lowercaseDigits) ∧ Text.Spells 16 digits x.val
  decimal : Text.Spells 10 x.toDecimal.toList x.val

/-- Every form is read back, by whatever reads it. -/
structure Restored (x : Scalar) : Prop where
  bytes : ofBytes (toBytes x) = x
  hex : parse x.toHex = .ok x
  canonicalHex : parseCanonical x.toHex = .ok x
  decimal : parse x.toDecimal = .ok x
  canonicalDecimal : parseCanonical x.toDecimal = .ok x

theorem mem_lowercaseDigits : ∀ d < 16, Text.Hex.digitChar d ∈ lowercaseDigits := by decide

theorem lowercase_encode (bs : Bytes) : ∀ c ∈ Text.Hex.encode bs, c ∈ lowercaseDigits := by
  intro c hc
  obtain ⟨b, -, hc⟩ := List.mem_flatMap.mp hc
  have hb := b.toNat_lt
  have hhigh := mem_lowercaseDigits (b.toNat / 16) (by omega)
  have hlow := mem_lowercaseDigits (b.toNat % 16) (Nat.mod_lt _ (by decide))
  simp only [Text.Hex.encodeByte, List.mem_cons, List.not_mem_nil, or_false] at hc
  rcases hc with rfl | rfl
  · exact hhigh
  · exact hlow

theorem toNatBE_toBytes (x : Scalar) : (toBytes x).toNatBE = x.val := by
  rw [toBytes, Bytes.toNatBE_ofNatBE, Nat.mod_eq_of_lt x.val_lt_width]

theorem spells_toDecimal (x : Scalar) : Text.Spells 10 x.toDecimal.toList x.val := by
  rw [toDecimal, Nat.toList_repr]
  exact Text.spells_toDigits x.val

/-- **Every form spells the number of the scalar**, in a fixed width but for the decimal one. -/
theorem spelled (x : Scalar) : x.Spelled where
  below := x.isLt
  width := length_toBytes x
  bytes := toNatBE_toBytes x
  hex := by
    have hne : toBytes x ≠ [] := List.ne_nil_of_length_pos (by rw [length_toBytes]; decide)
    refine ⟨Text.Hex.encode (toBytes x), ?_, ?_, lowercase_encode _, ?_⟩
    · rw [toHex, String.toList_ofList]
    · rw [Text.Hex.length_encode, length_toBytes]
    · rw [← toNatBE_toBytes]
      exact Text.Hex.spells_encode hne
  decimal := spells_toDecimal x

theorem parseCanonical_toDecimal (x : Scalar) : parseCanonical (toDecimal x) = .ok x := by
  have hunsigned := Numeral.Unsigned.decimal (spells_toDecimal x)
  rw [parseCanonical_eq_ok_iff, hunsigned.trim_eq]
  exact hunsigned

theorem restored (x : Scalar) : x.Restored where
  bytes := ofBytes_toBytes x
  hex := parse_of_parseCanonical (parseCanonical_toHex x)
  canonicalHex := parseCanonical_toHex x
  decimal := parse_of_parseCanonical (parseCanonical_toDecimal x)
  canonicalDecimal := parseCanonical_toDecimal x

/-! ### What is made of an integer -/

/-- Whatever is given as the integer `n` makes the scalar `x`. -/
structure Made (n : Int) (x : Scalar) : Prop where
  word : ∀ w : UInt64, (w.toNat : Int) = n → ofWord w = x
  doubleWord : ∀ w : BitVec 128, (w.toNat : Int) = n → ofDoubleWord w = x
  signedWord : ∀ w : Int64, w.toInt = n → ofSignedWord w = x
  /-- Decimal or hexadecimal digits, with a sign or without, between blanks. -/
  text : ∀ s t k, Text.Trimmed s.toList t → Numeral.Written t k → k.toInt = n → parse s = .ok x
  /-- Bytes of any length, with any zeros in front. -/
  bytes : ∀ bs : Bytes, (bs.toNatBE : Int) = n →
    ∀ zeros, ofBytes (List.replicate zeros 0 ++ bs) = x

theorem ofInt_natCast (n : Nat) : ofInt n = Residue.ofNat n := by
  rw [eq_comm, eq_ofInt_iff, Residue.val_ofNat, Int.natCast_mod]

theorem ofInt_neg_natCast (n : Nat) : ofInt (-n) = -Residue.ofNat n :=
  (toScalar_eq_ofInt ⟨true, n⟩).symm

/-- The size of a signed word is counted without a sign, also for the least word. -/
theorem toNat_abs (w : Int64) : w.abs.toUInt64.toNat = w.toInt.natAbs := by
  show w.toBitVec.abs.toNat = w.toBitVec.toInt.natAbs
  have hlt := w.toBitVec.isLt
  rw [BitVec.toNat_abs, BitVec.toInt_eq_msb_cond]
  split
  · omega
  · exact (Int.natAbs_natCast _).symm

theorem ofSignedWord_eq (w : Int64) : ofSignedWord w = ofInt w.toInt := by
  have hsize : ofWord w.abs.toUInt64 = Residue.ofNat w.toInt.natAbs := by rw [ofWord, toNat_abs]
  have hsign : w < 0 ↔ w.toInt < 0 := Int64.lt_iff_toInt_lt
  unfold ofSignedWord
  rw [hsize]
  by_cases h : w.toInt < 0
  · rw [if_pos (hsign.mpr h), ← ofInt_neg_natCast, Int.ofNat_natAbs_of_nonpos h.le, Int.neg_neg]
  · rw [if_neg (mt hsign.mp h), ← ofInt_natCast, Int.natAbs_of_nonneg (Int.not_lt.mp h)]

theorem toNatBE_zeros (zeros : Nat) (bs : Bytes) :
    Bytes.toNatBE (List.replicate zeros 0 ++ bs) = bs.toNatBE := by
  induction zeros with
  | zero => rfl
  | succ zeros ih => exact ih

/-- **Whatever an integer is given as, it makes the residue.** -/
theorem made_ofInt (n : Int) : Made n (ofInt n) where
  word := by
    rintro w rfl
    exact (ofInt_natCast _).symm
  doubleWord := by
    rintro w rfl
    exact (ofInt_natCast _).symm
  signedWord := by
    rintro w rfl
    exact ofSignedWord_eq w
  text := by
    rintro s t k hs ht rfl
    exact Wire.parse_eq_ok_iff.mpr ⟨_, .text hs ht, rfl⟩
  bytes := by
    rintro bs rfl zeros
    rw [ofBytes, toNatBE_zeros, ofInt_natCast]

theorem ofInt_add_order (n : Int) : ofInt (n + Bn254.order) = ofInt n :=
  ofInt_eq_iff.mpr (Int.add_modEq_right)

/-- **A scalar's forms and the ways to a scalar agree.** What every scalar is written as spells its
number, as 32 bytes, as the mark with 64 lowercase digits and in decimal, and each of them is read
back by everything that reads it. For every integer, all words, texts and bytes that stand for it
make one scalar, its residue, and so do those that stand for the integer and one order more. -/
theorem forms_agree :
    (∀ x : Scalar, x.Spelled ∧ x.Restored) ∧
      ∀ n : Int, ((ofInt n).val : Int) = n % Bn254.order ∧ Made n (ofInt n) ∧
        Made (n + Bn254.order) (ofInt n) := by
  refine ⟨fun x => ⟨spelled x, restored x⟩, fun n => ⟨val_ofInt n, made_ofInt n, ?_⟩⟩
  rw [← ofInt_add_order]
  exact made_ofInt _

/-- The least signed word has a size that is no signed word. -/
example : ofSignedWord Int64.minValue = -Residue.ofNat 9223372036854775808 := by decide

end Attest.Scalar
