import Attest.Proofs.Json.RoundTrip
import Attest.Proofs.Scalar.Canonical
import Attest.Wire.Scalar

/-! Lists of scalars that are checked against a proof.

`Denotes` is the integer that an item of a list means, in whatever notation. An item is taken when
it means its integer outright (`Signal`), and then as the scalar of that very integer
(`canonicalScalar_read_eq_ok_iff`), so no item stands for the scalar of another integer
(`Denotes.eq_iff`). What is taken so is also what the reader of plain scalars makes of it
(`scalar_read_of_canonical`). -/
namespace Attest.Wire
open Json

/-- The integer that a number or an integer text means. -/
inductive Denotes : Reading → Int → Prop
  | natural (n : Nat) : Denotes (.natural n) n
  | negative (n : Nat) : Denotes (.negative n) (-n)
  | text {s t n} : Text.Trimmed s.toList t → Numeral.Written t n → Denotes (.text s) n.toInt

/-- A whole number that is not negative and fits 64 bits, or a text of a canonical scalar. -/
inductive Signal : Reading → Prop
  | natural {n : Nat} : n < UInt64.size → Signal (.natural n)
  | text {s x} : Scalar.parseCanonical s = .ok x → Signal (.text s)

variable {r r' : Reading} {items items' : List Reading} {x y : Scalar} {xs ys : List Scalar}

/-- An item means one integer. -/
theorem Denotes.unique {m n : Int} (hm : Denotes r m) (hn : Denotes r n) : m = n := by
  cases hm with
  | natural => cases hn; rfl
  | negative => cases hn; rfl
  | text ht hm =>
    cases hn with
    | text ht' hn =>
      rw [Text.trimmed_iff] at ht ht'
      subst ht ht'
      rw [← Numeral.ofTrimmed_eq_ok_iff] at hm hn
      rw [Except.ok.inj (hm.symm.trans hn)]

/-- Numbers of 64 bits need no reduction. -/
theorem wordSize_lt_order : UInt64.size < Bn254.order := by decide

/-! ### Items -/

theorem canonicalScalar_read_text {s : String} :
    canonicalScalar.read (.text s) = .ok x ↔ Scalar.parseCanonical s = .ok x :=
  mapError_eq_ok_iff

/-- **An item is taken exactly when it means its integer outright, and as the scalar of that
integer.** -/
theorem canonicalScalar_read_eq_ok_iff (hr : r.InRange) :
    canonicalScalar.read r = .ok x ↔ Signal r ∧ Denotes r x.val := by
  cases r with
  | natural n =>
    cases hr with
    | natural hn =>
      have hval := Residue.val_ofNat_of_lt (Nat.lt_trans hn wordSize_lt_order)
      show Except.ok (Residue.ofNat n) = .ok x ↔ _
      rw [Except.ok.injEq]
      constructor
      · rintro rfl
        refine ⟨.natural hn, ?_⟩
        rw [hval]
        exact .natural n
      · rintro ⟨-, h⟩
        apply Residue.ext
        have := h.unique (.natural n)
        omega
  | text s =>
    rw [canonicalScalar_read_text]
    constructor
    · intro h
      refine ⟨.text h, ?_⟩
      have hunsigned := Scalar.parseCanonical_eq_ok_iff.mp h
      exact .text (n := ⟨false, x.val⟩) (Text.trimmed_trim _) (.positive hunsigned)
    · rintro ⟨hsignal, hx⟩
      cases hsignal with
      | @text _ y h =>
        have hunsigned := Scalar.parseCanonical_eq_ok_iff.mp h
        have hy := Denotes.text (n := ⟨false, y.val⟩) (Text.trimmed_trim _) (.positive hunsigned)
        obtain rfl : x = y := Residue.ext (Int.ofNat.inj (hx.unique hy))
        exact h
  | negative n => exact iff_of_false (fun h => nomatch h) fun h => nomatch h.1
  | _ => exact iff_of_false (Codec.wrongType_ne_ok _ _ _) fun h => nomatch h.1

theorem exists_canonicalScalar_read_iff (hr : r.InRange) :
    (∃ x, canonicalScalar.read r = .ok x) ↔ Signal r := by
  constructor
  · rintro ⟨x, hx⟩
    exact ((canonicalScalar_read_eq_ok_iff hr).mp hx).1
  · intro h
    cases h with
    | natural => exact ⟨_, rfl⟩
    | text h => exact ⟨_, canonicalScalar_read_text.mpr h⟩

/-- Items that mean the same integer are taken as the same scalar, and no others are. -/
theorem Denotes.eq_iff (hx : Denotes r x.val) (hy : Denotes r' y.val) :
    x = y ↔ ∃ n, Denotes r n ∧ Denotes r' n := by
  constructor
  · rintro rfl
    exact ⟨_, hx, hy⟩
  · rintro ⟨n, hn, hn'⟩
    exact Residue.ext (Int.ofNat.inj ((hx.unique hn).trans (hy.unique hn').symm))

/-- Reduction changes nothing about an item that is taken. -/
theorem scalar_read_of_canonical (h : canonicalScalar.read r = .ok x) : scalar.read r = .ok x := by
  cases r with
  | natural n => exact h
  | text s =>
    exact mapError_eq_ok_iff.mpr (Scalar.parse_of_parseCanonical (canonicalScalar_read_text.mp h))
  | negative n => exact nomatch h
  | _ => exact absurd h (Codec.wrongType_ne_ok _ _ _)

/-- What a scalar is written as is taken as that scalar. -/
theorem canonicalScalar_restores (x : Scalar) : canonicalScalar.Restores x :=
  ⟨.text _, canonicalScalar_read_text.mpr (Scalar.parseCanonical_toHex x)⟩

/-! ### Lists -/

theorem canonicalScalars_read_eq_ok_iff :
    canonicalScalar.list.read (.array items) = .ok xs ↔
      List.Forall₂ (fun r x => canonicalScalar.read r = .ok x) items xs := by
  rw [Codec.list_read_eq_ok_iff]
  constructor
  · rintro ⟨_, heq, h⟩
    rwa [Reading.array.inj heq]
  · exact fun h => ⟨items, rfl, h⟩

/-- **A list is taken exactly when each of its items means its integer outright**, and as the
scalars of these integers. -/
theorem canonicalScalars_read_iff (hitems : (Reading.array items).InRange) :
    canonicalScalar.list.read (.array items) = .ok xs ↔
      (∀ r ∈ items, Signal r) ∧ List.Forall₂ (fun r x => Denotes r x.val) items xs := by
  rw [canonicalScalars_read_eq_ok_iff, ← List.forall₂_and_left, List.forall₂_iff_zip,
    List.forall₂_iff_zip]
  have hitem {r x} (h : (r, x) ∈ items.zip xs) :=
    canonicalScalar_read_eq_ok_iff (x := x) (hitems.of_mem (List.of_mem_zip h).1)
  refine and_congr_right' ⟨fun h _ _ hzip => ?_, fun h _ _ hzip => ?_⟩
  · exact (hitem hzip).mp (h hzip)
  · exact (hitem hzip).mpr (h hzip)

/-- There are such scalars for all such items. -/
theorem exists_canonicalScalars_read_iff (hitems : (Reading.array items).InRange) :
    (∃ xs, canonicalScalar.list.read (.array items) = .ok xs) ↔ ∀ r ∈ items, Signal r := by
  simp only [canonicalScalars_read_eq_ok_iff]
  rw [Codec.exists_forall₂_iff]
  exact forall₂_congr fun r hr => exists_canonicalScalar_read_iff (hitems.of_mem hr)

/-- **Two lists that are taken are the same scalars exactly when they mean the same integers**, item
by item. -/
theorem denotes_eq_iff (h : List.Forall₂ (fun r x => Denotes r x.val) items xs)
    (h' : List.Forall₂ (fun r x => Denotes r x.val) items' ys) :
    xs = ys ↔ List.Forall₂ (fun r r' => ∃ n, Denotes r n ∧ Denotes r' n) items items' := by
  induction h generalizing items' ys with
  | nil => cases h' <;> simp
  | cons hx _ ih =>
    cases h' with
    | nil => simp
    | cons hy hrest => rw [List.cons.injEq, List.forall₂_cons, hx.eq_iff hy, ih hrest]

theorem scalars_read_of_canonical (h : canonicalScalar.list.read r = .ok xs) :
    scalar.list.read r = .ok xs := by
  rw [Codec.list_read_eq_ok_iff] at h ⊢
  obtain ⟨items, rfl, h⟩ := h
  exact ⟨items, rfl, h.imp fun _ _ => scalar_read_of_canonical⟩

theorem canonicalScalars_restores (xs : List Scalar) : canonicalScalar.list.Restores xs :=
  .list fun x _ => canonicalScalar_restores x

/-- Scalars are written the same wherever they are read. -/
theorem canonicalScalars_read_write (xs : List Scalar) :
    canonicalScalar.list.read (Reading.ofJson (scalar.list.write xs)) = .ok xs :=
  (canonicalScalars_restores xs).read_write

/-- **The text that a list of scalars is written as is taken as that list.** -/
theorem canonicalScalars_ofText_render (xs : List Scalar) :
    canonicalScalar.list.ofText (scalar.list.write xs).render = .ok xs := by
  have hrange := (canonicalScalars_restores xs).inRange
  exact (Codec.ofText_render _ hrange).trans (canonicalScalars_read_write xs)

end Attest.Wire
