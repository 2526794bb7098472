import Mathlib.Data.List.Dedup
import Mathlib.Data.List.TFAE
import Mathlib.Data.String.Basic
import Attest.Proofs.Merkle.Canonical
import Attest.Proofs.Scalar.Encodings

/-! The order of scalars, as it shows in what they are written as.

Of two rows of bytes that are as long the lexicographically first spells the smaller number
(`Bytes.lt_iff_toNatBE_lt`), and so it is with their hexadecimal digits
(`Text.Hex.encode_lt_iff_toNatBE_lt`). Scalars are written in one width, so the order of their
numbers is that of their bytes and that of their texts, and whoever has the texts alone sorts and
thins them out to those of the canonical list (`Scalar.order_agrees`). -/
namespace Attest

variable {as bs : Bytes}

/-! ### Rows of bytes -/

namespace Bytes

theorem toNatBE_eq_value (bs : Bytes) : bs.toNatBE = Text.value 256 (bs.map UInt8.toNat) := by
  rw [toNatBE, Text.value, List.foldl_map]

theorem forall_mem_map_toNat (bs : Bytes) : ∀ d ∈ bs.map UInt8.toNat, d < 256 := by
  intro d hd
  obtain ⟨b, -, rfl⟩ := List.mem_map.mp hd
  exact b.toNat_lt

/-- **Of rows with as many bytes the one that comes first spells the smaller number.** -/
theorem lt_iff_toNatBE_lt (h : as.length = bs.length) : as < bs ↔ as.toNatBE < bs.toNatBE := by
  have hbytes : (as.map UInt8.toNat).lex (bs.map UInt8.toNat) (fun a b => decide (a < b)) =
      as.lex bs fun a b => decide (a < b) :=
    Text.lex_map fun _ _ _ _ => ⟨UInt8.lt_iff_toNat_lt.symm, UInt8.toNat_inj⟩
  rw [← List.lex_eq_true_iff_lt, ← hbytes, toNatBE_eq_value, toNatBE_eq_value]
  exact Text.lex_iff_value_lt (forall_mem_map_toNat as) (forall_mem_map_toNat bs) (by simpa using h)

end Bytes

namespace Text.Hex

theorem toLower_encode (bs : Bytes) : (encode bs).map Char.toLower = encode bs := by
  -- digit by digit along the list, not by an instance for all characters
  have hlower : ∀ c ∈ Scalar.lowercaseDigits, c.toLower = c := List.map_inj_left.mp (by decide)
  exact (List.map_congr_left fun c hc => hlower c (Scalar.lowercase_encode bs c hc)).trans
    (List.map_id _)

/-- The digits of bytes are the characters of a row of numbers below sixteen, and the row denotes
what the bytes spell. -/
theorem exists_digits (hne : bs ≠ []) : ∃ ds, (∀ d ∈ ds, d < 16) ∧
    encode bs = ds.map Nat.digitChar ∧ value 16 ds = bs.toNatBE := by
  obtain ⟨ds, hds, hdigits, hvalue⟩ := (spells_encode hne).digits
  exact ⟨ds, hds, (toLower_encode bs).symm.trans hdigits, hvalue⟩

/-- **Digits come in the order of the numbers that their bytes spell**, where there are as many. -/
theorem encode_lt_iff_toNatBE_lt (hne : as ≠ []) (h : as.length = bs.length) :
    encode as < encode bs ↔ as.toNatBE < bs.toNatBE := by
  have hne' : bs ≠ [] := fun hnil => hne (List.length_eq_zero_iff.mp (by rw [h, hnil]; rfl))
  have hlength : (encode as).length = (encode bs).length := by
    rw [length_encode, length_encode, h]
  obtain ⟨ds, hds, hd, hdvalue⟩ := exists_digits hne
  obtain ⟨es, hes, he, hevalue⟩ := exists_digits hne'
  rw [hd, he, List.length_map, List.length_map] at hlength
  rw [← List.lex_eq_true_iff_lt, hd, he, lex_digitChar hds hes, ← hdvalue, ← hevalue]
  exact lex_iff_value_lt hds hes hlength

end Text.Hex

/-! ### Scalars -/

namespace Scalar
variable {x y : Scalar}

theorem compare_eq_lt_iff : compare x y = .lt ↔ x.val < y.val :=
  Nat.compare_eq_lt

theorem length_toBytes_eq (x y : Scalar) : (toBytes x).length = (toBytes y).length := by
  rw [length_toBytes, length_toBytes]

theorem toBytes_lt_iff : toBytes x < toBytes y ↔ x.val < y.val := by
  rw [Bytes.lt_iff_toNatBE_lt (length_toBytes_eq x y), toNatBE_toBytes, toNatBE_toBytes]

theorem toHex_lt_iff : toHex x < toHex y ↔ x.val < y.val := by
  have hne : toBytes x ≠ [] := List.ne_nil_of_length_pos (by rw [length_toBytes]; decide)
  rw [String.lt_iff_toList_lt, toHex, toHex, String.toList_ofList, String.toList_ofList,
    List.cons_lt_cons_iff, List.cons_lt_cons_iff,
    Text.Hex.encode_lt_iff_toNatBE_lt hne (length_toBytes_eq x y), toNatBE_toBytes, toNatBE_toBytes]
  simp

theorem toBytes_injective : Function.Injective toBytes := fun x y h => by
  rw [← ofBytes_toBytes x, h, ofBytes_toBytes]

theorem toHex_injective : Function.Injective toHex := fun x y h =>
  Except.ok.inj ((restored x).hex.symm.trans ((congrArg parse h).trans (restored y).hex))

end Scalar

/-! ### Lists -/

namespace Merkle
variable {β : Type} [LE β] [DecidableLE β] [DecidableEq β] {f : Scalar → β}

/-- Of a list in order, dropping what equals its neighbour drops every repeat. -/
theorem dedupSorted_eq_dedup {xs : List Scalar} (h : xs.Pairwise (· ≤ ·)) :
    dedupSorted xs = xs.dedup := by
  fun_induction dedupSorted xs with
  | case1 a rest ih => rw [ih h.of_cons, List.dedup_cons_of_mem List.mem_cons_self]
  | case2 a b rest hne ih =>
    -- what stands behind is above the next one, and that one is above this one
    have hnot : a ∉ b :: rest := by
      intro ha
      have hascending := dedupSorted_ascending h
      rw [dedupSorted, if_neg hne, List.pairwise_cons] at hascending
      exact Nat.lt_irrefl _ (hascending.1 a ((mem_dedupSorted _).mpr ha))
    rw [ih h.of_cons, List.dedup_cons_of_notMem hnot]
  | case3 rest hshort =>
    match rest with
    | [] => rfl
    | [a] => rfl
    | a :: b :: rest => exact absurd rfl (hshort a b rest)

/-- Whatever scalars are replaced by, as long as the order stays, the canonical list becomes the
sorted distinct replacements. -/
theorem canonical_map (hf : Function.Injective f) (hle : ∀ x y, f x ≤ f y ↔ x ≤ y)
    (xs : List Scalar) :
    (canonical xs).map f = ((xs.map f).mergeSort fun a b => decide (a ≤ b)).dedup := by
  have hsort : (xs.mergeSort fun a b => decide (a ≤ b)).map f =
      (xs.map f).mergeSort fun a b => decide (a ≤ b) :=
    List.map_mergeSort fun x _ y _ => decide_eq_decide.mpr (hle x y).symm
  rw [canonical, dedupSorted_eq_dedup (pairwise_mergeSort_le xs), ← List.dedup_map_of_injective hf,
    hsort]

end Merkle

namespace Scalar

/-- **The order of scalars is that of their numbers, and shows in their bytes and in their texts.**
So sorting and thinning out scalars comes to the same as sorting and thinning out what they are
written as. -/
theorem order_agrees :
    (∀ x y : Scalar, [x < y, compare x y = .lt, x.val < y.val, toBytes x < toBytes y,
      toHex x < toHex y].TFAE) ∧
    ∀ xs : List Scalar,
      (Merkle.canonical xs).map toHex =
        ((xs.map toHex).mergeSort fun s t => decide (s ≤ t)).dedup ∧
      (Merkle.canonical xs).map toBytes =
        ((xs.map toBytes).mergeSort fun as bs => decide (as ≤ bs)).dedup := by
  refine ⟨fun x y => ?_, fun xs => ⟨?_, ?_⟩⟩
  · tfae_have 1 ↔ 3 := Residue.lt_def
    tfae_have 2 ↔ 3 := compare_eq_lt_iff
    tfae_have 4 ↔ 3 := toBytes_lt_iff
    tfae_have 5 ↔ 3 := toHex_lt_iff
    tfae_finish
  · refine Merkle.canonical_map toHex_injective (fun x y => ?_) xs
    rw [← not_lt, toHex_lt_iff, Nat.not_lt, Residue.le_def]
  · refine Merkle.canonical_map toBytes_injective (fun x y => ?_) xs
    rw [← List.not_lt, toBytes_lt_iff, Nat.not_lt, Residue.le_def]

end Scalar

end Attest
