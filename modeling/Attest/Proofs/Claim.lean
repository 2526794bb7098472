import Attest.Claim
import Attest.Proofs.Scalar.Canonical

/-! Which texts are digests, and what the field keeps of them.

A digest is hexadecimal digits between blanks, with the mark or without it (`Digest.denotes_iff`).
Of the number that the digits spell a claim keeps the residue alone (`Digest.reduce_congr`), the
scalar that the digits are read as behind the mark (`Digest.reduce_parse`). -/
namespace Attest.Digest
open Text (Spells IsDigit)

/-- The digits of a digest, with the mark in front or without it. -/
inductive Written : List Char → Nat → Prop
  | plain {cs n} : Spells 16 cs n → Written cs n
  | marked {mark cs n} : mark = 'x' ∨ mark = 'X' → Spells 16 cs n → Written ('0' :: mark :: cs) n

/-- The text spells the number, between blanks. -/
def Denotes (s : String) (n : Nat) : Prop := ∃ t, Text.Trimmed s.toList t ∧ Written t n

/-- The digits are hexadecimal ones. -/
def IsHex (cs : List Char) : Prop := ∀ c ∈ cs, ∃ d, IsDigit 16 c d

variable {s : String} {cs : List Char} {n : Nat}

/-- No mark is taken off digits: none of them is an `x`. -/
theorem afterMark?_of_isHex (h : IsHex cs) : Text.Hex.afterMark? cs = none := by
  have hnone : ∀ d < 16, Nat.digitChar d ≠ 'x' := by decide
  rw [Option.eq_none_iff_forall_ne_some]
  intro digits hmark
  obtain ⟨mark, hx, rfl⟩ := Numeral.afterMark?_eq_some_iff.mp hmark
  obtain ⟨d, hd, hdigit⟩ := h mark (by simp)
  rcases hx with rfl | rfl
  · exact hnone d hd hdigit
  · exact hnone d hd hdigit

theorem written_iff : Written cs n ↔ Spells 16 ((Text.Hex.afterMark? cs).getD cs) n := by
  constructor
  · intro h
    cases h with
    | plain h => rwa [afterMark?_of_isHex h.isDigit]
    | marked hmark h =>
      rw [Numeral.afterMark?_eq_some_iff.mpr ⟨_, hmark, rfl⟩]
      exact h
  · intro h
    cases hmark : Text.Hex.afterMark? cs with
    | none =>
      rw [hmark] at h
      exact .plain h
    | some digits =>
      rw [hmark] at h
      obtain ⟨mark, hx, rfl⟩ := Numeral.afterMark?_eq_some_iff.mp hmark
      exact .marked hx h

/-- **A text is read as a digest exactly when it spells a number, and to bytes that spell it.** -/
theorem denotes_iff : Denotes s n ↔ ∃ d, parse s = .ok d ∧ d.bytes.toNatBE = n := by
  simp only [Denotes, Text.trimmed_iff, exists_eq_left, written_iff, ← Text.Hex.decode_ok_iff,
    parse, Numeral.map_eq_ok_iff]
  constructor
  · rintro ⟨bytes, hbytes, hn⟩
    exact ⟨⟨bytes⟩, ⟨bytes, hbytes, rfl⟩, hn⟩
  · rintro ⟨_, ⟨bytes, hbytes, rfl⟩, hn⟩
    exact ⟨bytes, hbytes, hn⟩

/-- Digests of congruent numbers are one in the field, however many bytes they have. -/
theorem reduce_congr {d e : Digest} (h : d.bytes.toNatBE ≡ e.bytes.toNatBE [MOD Bn254.order]) :
    d.reduce = e.reduce :=
  congrArg DocumentHash.mk (Residue.ext h)

/-! ### Digits -/

theorem IsHex.not_isBlank (h : IsHex cs) : ∀ c ∈ cs, Text.isBlank c = false := by
  intro c hc
  obtain ⟨d, hd⟩ := h c hc
  exact Text.not_isBlank_of_isDigit (by decide) hd

theorem parse_of_isHex (h : IsHex s.toList) :
    parse s = (Text.Hex.decode s.toList).map Digest.mk := by
  simp only [parse, Text.trim_eq_self h.not_isBlank, afterMark?_of_isHex h, Option.getD_none]

/-- Behind the mark the digits are a number without a sign. -/
theorem parse_marked (h : IsHex s.toList) : Scalar.parse ("0x" ++ s) =
    ((Text.Hex.decode s.toList).map Scalar.ofBytes).mapError Numeral.Error.hex := by
  have hchars : ("0x" ++ s).toList = '0' :: 'x' :: s.toList := String.toList_append
  have hblank : ∀ c ∈ '0' :: 'x' :: s.toList, Text.isBlank c = false :=
    List.forall_mem_cons.mpr ⟨rfl, List.forall_mem_cons.mpr ⟨rfl, h.not_isBlank⟩⟩
  have hmark : Text.Hex.afterMark? ('0' :: 'x' :: s.toList) = some s.toList := rfl
  rw [Scalar.parse, hchars, Text.trim_eq_self hblank]
  show Scalar.parseUnsigned ('0' :: 'x' :: s.toList) = _
  rw [Scalar.parseUnsigned, hmark]
  dsimp only
  cases Text.Hex.decode s.toList <;> rfl

/-- **Digits are reduced to what they are read as behind the mark**, or refused as they are
there. -/
theorem reduce_parse (h : IsHex s.toList) :
    ((parse s).map (·.reduce.scalar)).mapError Numeral.Error.hex = Scalar.parse ("0x" ++ s) := by
  rw [parse_of_isHex h, parse_marked h]
  cases Text.Hex.decode s.toList <;> rfl

/-- Digits are refused only where there are none. -/
theorem exists_parse (h : IsHex s.toList) (hne : s ≠ "") : ∃ d, parse s = .ok d := by
  obtain ⟨n, hn⟩ := Text.exists_spells (by simpa using hne) h
  have htrimmed := Text.trimmed_trim s.toList
  rw [Text.trim_eq_self h.not_isBlank] at htrimmed
  obtain ⟨d, hd, -⟩ := denotes_iff.mp ⟨_, htrimmed, .plain hn⟩
  exact ⟨d, hd⟩

end Attest.Digest
