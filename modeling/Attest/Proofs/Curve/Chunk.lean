import Attest.Proofs.Curve.Root
import Attest.Proofs.Curve.Subgroup
import Attest.Curve.Compressed
import Attest.Proofs.Bytes

/-! What the bytes of a coordinate say.

The 32 bytes of a coordinate, or 64 in the extension, hold the numbers of a coordinate and two flags
(`Chunk`). What is read is what they say, and the bytes that say it are the ones that are written
(`LawfulCompressible`); no two strings say the same. With square roots, their order and the
exact check of membership these are the laws from which points are read and written. -/
namespace Attest.Bn254

/-- What a row of bytes holds: numbers in the places of a coordinate, and two flags. -/
structure Chunk where
  numbers : List Nat
  larger : Bool
  infinity : Bool

namespace Chunk

/-- The flags are the top bits of the last 32 bytes' number. -/
def ofNumber (front : List Nat) (n : Nat) : Chunk where
  numbers := front ++ [n % Nat.pow 2 flagShift]
  larger := n.testBit (flagShift + 1)
  infinity := n.testBit flagShift

/-- The sign that the flags stand for, unless both are set. -/
def sign? (k : Chunk) : Option Sign :=
  match k.larger, k.infinity with
  | false, false => some .smaller
  | false, true => some .infinity
  | true, false => some .larger
  | true, true => none

end Chunk

/-! ### Numbers and flags -/

theorem Sign.ofBits?_eq_some_iff {n : Nat} {sign : Sign} :
    ofBits? n = some sign ↔ n = sign.bits := by
  constructor
  · intro h
    unfold ofBits? at h
    split at h <;> cases h <;> rfl
  · rintro rfl
    cases sign <;> rfl

theorem Sign.bits_lt (sign : Sign) : sign.bits < 4 := by cases sign <;> decide

theorem Chunk.sign?_ofNumber {n : Nat} (front : List Nat) (h : n < Nat.pow 2 256) :
    (ofNumber front n).sign? = Sign.ofBits? (n / Nat.pow 2 flagShift) := by
  have hlow : n.testBit flagShift = (n / Nat.pow 2 flagShift).testBit 0 :=
    (congrArg n.testBit (zero_add flagShift)).symm.trans (Nat.testBit_add n 0 flagShift)
  have hhigh : n.testBit (flagShift + 1) = (n / Nat.pow 2 flagShift).testBit 1 :=
    (congrArg n.testBit (add_comm flagShift 1)).trans (Nat.testBit_add n 1 flagShift)
  have hbits : n / Nat.pow 2 flagShift < 4 :=
    Nat.div_lt_of_lt_mul (h.trans_eq (by decide))
  -- the number ends with the two flags, so what is above the coordinate is one of four
  simp only [ofNumber, sign?, hlow, hhigh]
  generalize n / Nat.pow 2 flagShift = bits at hbits
  interval_cases bits <;> rfl

theorem basePrime_lt : basePrime < Nat.pow 2 flagShift := by decide

theorem mod_div_flagShift_iff {n : Nat} {x : Base} {sign : Sign} :
    n % Nat.pow 2 flagShift = x.val ∧ n / Nat.pow 2 flagShift = sign.bits ↔
      n = x.val + sign.bits * Nat.pow 2 flagShift := by
  have hx : x.val < Nat.pow 2 flagShift := x.isLt.trans basePrime_lt
  constructor
  · rintro ⟨hmod, hdiv⟩
    rw [← hmod, ← hdiv, mul_comm, Nat.mod_add_div]
  · rintro rfl
    rw [Nat.add_mul_mod_self_right, Nat.mod_eq_of_lt hx, Nat.add_mul_div_right _ _ (by decide),
      Nat.div_eq_of_lt hx, zero_add]
    exact ⟨rfl, rfl⟩

/-- The numbers and the sign are those of a coordinate just when the number is put together from
them. -/
theorem Chunk.ofNumber_iff {n : Nat} {front : List Nat} {x : Base} {sign : Sign}
    (h : n < Nat.pow 2 256) :
    (ofNumber front n).numbers = front ++ [x.val] ∧ (ofNumber front n).sign? = some sign ↔
      n = x.val + sign.bits * Nat.pow 2 flagShift := by
  rw [sign?_ofNumber front h, Sign.ofBits?_eq_some_iff, ← mod_div_flagShift_iff]
  simp only [ofNumber, List.append_cancel_left_eq, List.cons.injEq, and_true]

/-- The same with a number in front. -/
theorem Chunk.ofNumber_pair_iff {m n : Nat} {x : Quadratic} {sign : Sign} (h : n < Nat.pow 2 256) :
    (ofNumber [m] n).numbers = [x.re.val, x.im.val] ∧ (ofNumber [m] n).sign? = some sign ↔
      m = x.re.val ∧ n = x.im.val + sign.bits * Nat.pow 2 flagShift := by
  have hfront : (ofNumber [m] n).numbers = [x.re.val, x.im.val] ↔
      m = x.re.val ∧ (ofNumber [m] n).numbers = [m] ++ [x.im.val] := by
    simp [ofNumber]
  rw [hfront, and_assoc, ofNumber_iff h]

theorem toNatLE_lt_of_length {bs : Bytes} (h : bs.length = 32) :
    Bytes.toNatLE bs < Nat.pow 2 256 := by
  have hlt := Bytes.toNatLE_lt bs
  rw [h] at hlt
  exact hlt.trans_eq (by decide)

theorem toNatLE_writeBase (x : Base) (sign : Sign) :
    Bytes.toNatLE (writeBase x sign) = x.val + sign.bits * Nat.pow 2 flagShift := by
  have hx : x.val < Nat.pow 2 flagShift := x.isLt.trans basePrime_lt
  have hbits : sign.bits * Nat.pow 2 flagShift ≤ 3 * Nat.pow 2 flagShift :=
    Nat.mul_le_mul_right _ (Nat.le_of_lt_succ sign.bits_lt)
  have hwidth : 256 ^ 32 = 4 * Nat.pow 2 flagShift := by decide
  rw [writeBase, Bytes.toNatLE_ofNatLE]
  exact Nat.mod_eq_of_lt (by omega)

theorem length_writeBase (x : Base) (sign : Sign) : (writeBase x sign).length = 32 :=
  Bytes.length_ofNatLE ..

theorem writeBase_eq_iff {bs : Bytes} {x : Base} {sign : Sign} (h : bs.length = 32) :
    Bytes.toNatLE bs = x.val + sign.bits * Nat.pow 2 flagShift ↔ bs = writeBase x sign := by
  constructor
  · intro heq
    rw [writeBase, ← heq, ← h, Bytes.ofNatLE_toNatLE]
  · rintro rfl
    exact toNatLE_writeBase x sign

/-- The bytes of an element of the extension are those of its two coefficients. -/
theorem writeQuadratic_eq_iff {bs : Bytes} {x : Quadratic} {sign : Sign} (h : bs.length = 64) :
    Bytes.toNatLE (bs.take 32) = x.re.val ∧
      Bytes.toNatLE (bs.drop 32) = x.im.val + sign.bits * Nat.pow 2 flagShift ↔
    bs = writeBase x.re .smaller ++ writeBase x.im sign := by
  have htake : (bs.take 32).length = 32 := List.length_take_of_le (by omega)
  have hdrop : (bs.drop 32).length = 32 := by rw [List.length_drop, h]
  have hre : x.re.val = x.re.val + Sign.smaller.bits * Nat.pow 2 flagShift := by
    rw [Sign.bits, zero_mul, add_zero]
  rw [hre, writeBase_eq_iff htake, writeBase_eq_iff hdrop]
  constructor
  · rintro ⟨hfront, hback⟩
    rw [← hfront, ← hback, List.take_append_drop]
  · intro heq
    rw [heq, List.take_left' (length_writeBase ..), List.drop_left' (length_writeBase ..)]
    exact ⟨rfl, rfl⟩

/-! ### Readers -/

namespace Reader
variable {bs rest : Bytes}

theorem nat_run_eq_ok_iff {width n : Nat} : (nat width).run bs = .ok (n, rest) ↔
    width ≤ bs.length ∧ rest = bs.drop width ∧ Bytes.toNatLE (bs.take width) = n := by
  have hrun : (nat width).run bs =
      if (bs.take width).length < width then .error DecodeError.unexpectedEnd
      else .ok (Bytes.toNatLE (bs.take width), bs.drop width) := rfl
  rw [hrun, List.length_take]
  split
  · next h => exact iff_of_false nofun fun ⟨hle, _⟩ => by omega
  · next h =>
    rw [Except.ok.injEq, Prod.mk.injEq]
    exact ⟨fun ⟨hn, hrest⟩ => ⟨by omega, hrest.symm, hn⟩, fun ⟨_, hrest, hn⟩ => ⟨hn, hrest.symm⟩⟩

theorem coordinate_eq_ok_iff {n : Nat} {x : Base} : coordinate n = .ok x ↔ n = x.val := by
  unfold coordinate
  split
  · next h => rw [Except.ok.injEq, Residue.ext_iff]
  · next h => exact iff_of_false (by simp) fun heq => h (heq ▸ x.isLt)

theorem lift_run_eq_ok_iff {α : Type} {x : Except DecodeError α} {a : α} :
    (liftM x : Reader α).run bs = .ok (a, rest) ↔ x = .ok a ∧ rest = bs := by
  cases x with
  | error e => exact iff_of_false nofun nofun
  | ok b =>
    have hrun : (liftM (.ok b : Except DecodeError α) : Reader α).run bs = .ok (b, bs) := rfl
    rw [hrun, Except.ok.injEq, Except.ok.injEq, Prod.mk.injEq, eq_comm (a := bs)]

theorem base_run_eq_ok_iff {x : Base} : base.run bs = .ok (x, rest) ↔
    32 ≤ bs.length ∧ rest = bs.drop 32 ∧ Bytes.toNatLE (bs.take 32) = x.val := by
  unfold base
  simp only [bind_run_eq_ok_iff, nat_run_eq_ok_iff, lift_run_eq_ok_iff, coordinate_eq_ok_iff]
  constructor
  · rintro ⟨_, _, ⟨hle, rfl, rfl⟩, hx, rfl⟩
    exact ⟨hle, rfl, hx⟩
  · rintro ⟨hle, rfl, hx⟩
    exact ⟨_, _, ⟨hle, rfl, rfl⟩, hx, rfl⟩

theorem flaggedBase_run_eq_ok_iff {x : Base} {sign : Sign} :
    flaggedBase.run bs = .ok ((x, sign), rest) ↔ 32 ≤ bs.length ∧ rest = bs.drop 32 ∧
      Bytes.toNatLE (bs.take 32) = x.val + sign.bits * Nat.pow 2 flagShift := by
  unfold flaggedBase
  rw [bind_run_eq_ok_iff]
  simp only [nat_run_eq_ok_iff]
  constructor
  · rintro ⟨n, _, ⟨hle, rfl, rfl⟩, hrun⟩
    split at hrun
    · exact nomatch hrun
    · next sign' hsign =>
      obtain ⟨x', _, hlift, hpure⟩ := bind_run_eq_ok_iff.mp hrun
      obtain ⟨hx, rfl⟩ := lift_run_eq_ok_iff.mp hlift
      obtain ⟨heq, rfl⟩ := Prod.ext_iff.mp (Except.ok.inj hpure)
      obtain ⟨rfl, rfl⟩ := Prod.ext_iff.mp heq
      exact ⟨hle, rfl, mod_div_flagShift_iff.mp
        ⟨coordinate_eq_ok_iff.mp hx, Sign.ofBits?_eq_some_iff.mp hsign⟩⟩
  · rintro ⟨hle, rfl, hn⟩
    obtain ⟨hmod, hdiv⟩ := mod_div_flagShift_iff.mpr hn
    refine ⟨_, _, ⟨hle, rfl, rfl⟩, ?_⟩
    rw [Sign.ofBits?_eq_some_iff.mpr hdiv]
    exact bind_run_eq_ok_iff.mpr
      ⟨x, _, lift_run_eq_ok_iff.mpr ⟨coordinate_eq_ok_iff.mpr hmod, rfl⟩, rfl⟩

theorem quadratic_run_eq_ok_iff {x : Quadratic} {sign : Sign} :
    (Compressible.read (F := Quadratic)).run bs = .ok ((x, sign), rest) ↔
      64 ≤ bs.length ∧ rest = bs.drop 64 ∧ Bytes.toNatLE ((bs.take 64).take 32) = x.re.val ∧
        Bytes.toNatLE ((bs.take 64).drop 32) = x.im.val + sign.bits * Nat.pow 2 flagShift := by
  simp only [Compressible.read, bind_run_eq_ok_iff, base_run_eq_ok_iff, Prod.exists,
    flaggedBase_run_eq_ok_iff, List.take_take, List.drop_take]
  constructor
  · rintro ⟨re, _, ⟨hle, rfl, hre⟩, im, sign', _, ⟨hle', rfl, him⟩, hpure⟩
    obtain ⟨heq, rfl⟩ := Prod.ext_iff.mp (Except.ok.inj hpure)
    obtain ⟨rfl, rfl⟩ := Prod.ext_iff.mp heq
    rw [List.length_drop] at hle'
    exact ⟨by omega, List.drop_drop, hre, him⟩
  · rintro ⟨hle, rfl, hre, him⟩
    refine ⟨_, _, ⟨by omega, rfl, hre⟩, _, _, _, ⟨?_, rfl, him⟩, ?_⟩
    · rw [List.length_drop]
      omega
    · rw [List.drop_drop]
      rfl

end Reader

/-! ### Order in the extension -/

theorem Quadratic.lt_or_lt {a b : Quadratic} (h : a ≠ b) : a < b ∨ b < a := by
  rcases Nat.lt_trichotomy a.im.val b.im.val with him | him | him
  · exact .inl (.inl him)
  · rcases Nat.lt_trichotomy a.re.val b.re.val with hre | hre | hre
    · exact .inl (.inr ⟨Residue.ext him, hre⟩)
    · exact absurd (ext (Residue.ext hre) (Residue.ext him)) h
    · exact .inr (.inr ⟨Residue.ext him.symm, hre⟩)
  · exact .inr (.inl him)

theorem Quadratic.lt_asymm {a b : Quadratic} (h : a < b) : ¬b < a := by
  rintro (him' | ⟨him', hre'⟩)
  · rcases h with him | ⟨him, -⟩
    · exact Nat.lt_asymm him him'
    · exact Nat.lt_irrefl _ (him ▸ him')
  · rcases h with him | ⟨-, hre⟩
    · exact Nat.lt_irrefl _ (him' ▸ him)
    · exact Nat.lt_asymm hre hre'

/-! ### Fields whose points have a lawful byte form -/

/-- A field of a curve whose points have a byte form. -/
class CompressibleField (F : Type) extends CurveField F, Compressible F

/-- What is read and written of a point, its signs, and the square roots behind it obey these
laws. -/
class LawfulCompressible (F : Type) [CompressibleField F] where
  /-- How many bytes a point takes. -/
  width : Nat
  chunk : Bytes → Chunk
  /-- The numbers of a coordinate, in their order. -/
  numbers : F → List Nat
  numbers_injective : Function.Injective numbers
  numbers_lt : ∀ x, ∀ n ∈ numbers x, n < basePrime
  exists_numbers : ∀ {bs}, (∀ n ∈ (chunk bs).numbers, n < basePrime) →
    ∃ x, (chunk bs).numbers = numbers x
  read_iff : ∀ {bs rest : Bytes} {x : F} {sign : Sign},
    Compressible.read.run bs = .ok ((x, sign), rest) ↔
      width ≤ bs.length ∧ rest = bs.drop width ∧ (chunk (bs.take width)).numbers = numbers x ∧
        (chunk (bs.take width)).sign? = some sign
  length_write : ∀ (x : F) (sign : Sign), (Compressible.write x sign).length = width
  write_iff : ∀ {bs : Bytes} {x : F} {sign : Sign}, bs.length = width →
    ((chunk bs).numbers = numbers x ∧ (chunk bs).sign? = some sign ↔
      bs = Compressible.write x sign)
  sqrt?_sound : ∀ {a root : F}, Compressible.sqrt? a = some root → root * root = a
  sqrt?_mul_self : ∀ y : F, ∃ root, Compressible.sqrt? (y * y) = some root
  lt_or_lt : ∀ {a b : F}, a ≠ b → a < b ∨ b < a
  lt_asymm : ∀ {a b : F}, a < b → ¬b < a
  inSubgroup_iff : ∀ P : Group F, Compressible.inSubgroup P.toPoint = true ↔ order • P = 0
  footprint_pos : 0 < Compressible.footprint F

instance : CompressibleField Base where
  toCurveField := inferInstance
  lt := LT.lt
  decLT := inferInstance
  sqrt? := Compressible.sqrt?
  read := Compressible.read
  write := Compressible.write
  footprint := Compressible.footprint Base
  inSubgroup := Compressible.inSubgroup

instance : LawfulCompressible Base where
  width := 32
  chunk bs := .ofNumber [] (Bytes.toNatLE bs)
  numbers x := [x.val]
  numbers_injective _ _ h := Residue.ext (List.cons.inj h).1
  numbers_lt x n hn := by
    rw [List.mem_singleton.mp hn]
    exact x.isLt
  exists_numbers h := ⟨⟨_, h _ (List.mem_singleton.mpr rfl)⟩, rfl⟩
  read_iff := by
    intro bs rest x sign
    refine Reader.flaggedBase_run_eq_ok_iff.trans (and_congr_right fun hle => and_congr_right' ?_)
    exact (Chunk.ofNumber_iff (toNatLE_lt_of_length (List.length_take_of_le hle))).symm
  length_write := length_writeBase
  write_iff h := (Chunk.ofNumber_iff (toNatLE_lt_of_length h)).trans (writeBase_eq_iff h)
  sqrt?_sound := Base.sqrt?_sound
  sqrt?_mul_self := Base.sqrt?_mul_self
  lt_or_lt h := Nat.lt_or_gt_of_ne fun heq => h (Residue.ext heq)
  lt_asymm := Nat.lt_asymm
  inSubgroup_iff P := iff_of_true rfl (G1.order_nsmul P)
  footprint_pos := by decide

instance : CompressibleField Quadratic where
  toCurveField := inferInstance
  lt := LT.lt
  decLT := inferInstance
  sqrt? := Compressible.sqrt?
  read := Compressible.read
  write := Compressible.write
  footprint := Compressible.footprint Quadratic
  inSubgroup := Compressible.inSubgroup

instance : LawfulCompressible Quadratic where
  width := 64
  chunk bs := .ofNumber [Bytes.toNatLE (bs.take 32)] (Bytes.toNatLE (bs.drop 32))
  numbers x := [x.re.val, x.im.val]
  numbers_injective _ _ h := Quadratic.ext (Residue.ext (List.cons.inj h).1)
    (Residue.ext (List.cons.inj (List.cons.inj h).2).1)
  numbers_lt x n hn := by
    rcases List.mem_pair.mp hn with rfl | rfl
    · exact x.re.isLt
    · exact x.im.isLt
  exists_numbers h := ⟨⟨⟨_, h _ List.mem_cons_self⟩, ⟨_, h _ (List.mem_cons_of_mem _
    (List.mem_singleton.mpr rfl))⟩⟩, rfl⟩
  read_iff := by
    intro bs rest x sign
    refine Reader.quadratic_run_eq_ok_iff.trans (and_congr_right fun hle => and_congr_right' ?_)
    have hback : ((bs.take 64).drop 32).length = 32 := by
      rw [List.length_drop, List.length_take_of_le hle]
    exact (Chunk.ofNumber_pair_iff (toNatLE_lt_of_length hback)).symm
  length_write x sign := by
    show (writeBase x.re .smaller ++ writeBase x.im sign).length = 64
    rw [List.length_append, length_writeBase, length_writeBase]
  write_iff h := by
    refine (Chunk.ofNumber_pair_iff (toNatLE_lt_of_length ?_)).trans (writeQuadratic_eq_iff h)
    rw [List.length_drop, h]
  sqrt?_sound := Quadratic.sqrt?_sound
  sqrt?_mul_self := Quadratic.sqrt?_mul_self
  lt_or_lt := Quadratic.lt_or_lt
  lt_asymm := Quadratic.lt_asymm
  inSubgroup_iff := G2.inSubgroup_iff
  footprint_pos := by decide

theorem width_base : LawfulCompressible.width Base = 32 := rfl

theorem width_quadratic : LawfulCompressible.width Quadratic = 64 := rfl

end Attest.Bn254
