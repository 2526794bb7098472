import Attest.Proofs.Text.Digits
import Attest.Text.Hex

/-! What hexadecimal text denotes once its digits are packed into bytes.

The decoder reads the bytes of a text, two digits into one. On a whole number of pairs the bytes
spell the digits' number (`decodePairs_eq`), and a zero in front changes no number; so a text is
decoded exactly when its characters spell a number in radix sixteen, and to bytes that spell the
same (`decode_ok_iff`). What was encoded from bytes is decoded to these bytes, the zeros in front
included (`decode_encode`). -/
namespace Attest.Text.Hex

theorem length_encode (bs : Bytes) : (encode bs).length = 2 * bs.length := by
  induction bs with
  | nil => rfl
  | cons b rest ih =>
    rw [encode, List.flatMap_cons, List.length_append, ← encode, ih, List.length_cons]
    exact Nat.add_comm 2 _

/-! ### Bytes as digits -/

theorem nibble?_lt {b : UInt8} {d : Nat} (h : nibble? b = some d) : d < 16 := by
  simp only [nibble?] at h
  grind

theorem nibble?_of_not_ascii {b : UInt8} (h : 128 ≤ b.toNat) : nibble? b = none := by
  simp only [nibble?]
  grind

theorem nibble?_ascii : ∀ k < 128, nibble? (UInt8.ofNat k) = digit? 16 (Char.ofNat k) := by
  decide +kernel

theorem utf8EncodeChar_ascii {c : Char} (h : c.toNat < 128) :
    String.utf8EncodeChar c = [UInt8.ofNat c.toNat] :=
  if_pos (Nat.le_of_lt_succ h)

/-- The first byte of a character that is not ASCII is not ASCII. -/
theorem utf8EncodeChar_not_ascii {c : Char} (h : 128 ≤ c.toNat) :
    ∃ b rest, String.utf8EncodeChar c = b :: rest ∧ 128 ≤ b.toNat := by
  have hne : ¬c.val.toNat ≤ 127 := Nat.not_le.mpr h
  simp only [String.utf8EncodeChar, if_neg hne]
  split_ifs <;> exact ⟨_, _, rfl, by rw [UInt8.toNat_ofNat']; omega⟩

/-- The bytes of a text are hexadecimal digits exactly when its characters are. -/
theorem mapM_nibble?_ofText (cs : List Char) :
    (Bytes.ofText cs).mapM nibble? = digits? 16 cs := by
  induction cs with
  | nil => rfl
  | cons c rest ih =>
    have hcons : Bytes.ofText (c :: rest) = String.utf8EncodeChar c ++ Bytes.ofText rest := rfl
    rw [hcons, digits?, List.mapM_cons]
    by_cases h : c.toNat < 128
    · have hdigit := nibble?_ascii c.toNat h
      rw [Char.ofNat_toNat] at hdigit
      rw [utf8EncodeChar_ascii h, List.singleton_append, List.mapM_cons, hdigit, ih, digits?]
    · have h := Nat.le_of_not_lt h
      obtain ⟨b, bytes, hb, hhigh⟩ := utf8EncodeChar_not_ascii h
      rw [hb, List.cons_append, List.mapM_cons, nibble?_of_not_ascii hhigh, digit?_of_not_ascii h]
      rfl

/-! ### Pairs -/

theorem mapM_nibble?_pair (high low : UInt8) (rest : Bytes) :
    (high :: low :: rest).mapM nibble? =
      (nibble? high).bind fun h => (nibble? low).bind fun l =>
        (rest.mapM nibble?).map fun ds => h :: l :: ds := by
  simp only [List.mapM_cons, Option.bind_eq_bind, Option.pure_def, Option.bind_assoc,
    Option.bind_some, Option.map_eq_bind, Function.comp_def]

/-- Two digits packed into a byte go on from a number as the digits do. -/
theorem packed_byte {high low : UInt8} {h l : Nat} (hhigh : nibble? high = some h)
    (hlow : nibble? low = some l) (n : Nat) :
    n * 256 + (UInt8.ofNat (16 * h + l)).toNat = (n * 16 + h) * 16 + l := by
  have hh := nibble?_lt hhigh
  have hl := nibble?_lt hlow
  rw [UInt8.toNat_ofNat', Nat.mod_eq_of_lt (by omega)]
  omega

theorem toOption_map {ε α β : Type} (f : α → β) (x : Except ε α) :
    (x.map f).toOption = x.toOption.map f := by
  cases x <;> rfl

/-- A whole number of pairs is decoded when its bytes are digits, and goes on from a number as the
digits do. -/
theorem decodePairs_eq (position n : Nat) (bs : Bytes) (heven : 2 ∣ bs.length) :
    (decodePairs position bs).toOption.map (List.foldl (fun n b => n * 256 + b.toNat) n) =
      (bs.mapM nibble?).map (List.foldl (fun n d => n * 16 + d) n) := by
  fun_induction decodePairs position bs generalizing n with
  | case1 position high low rest h l hlow hhigh ih =>
    have hpacked :
        List.foldl (fun n b => n * 256 + b.toNat) n ∘ (UInt8.ofNat (16 * h + l) :: ·) =
          List.foldl (fun n b => n * 256 + b.toNat) ((n * 16 + h) * 16 + l) := by
      funext bytes
      rw [Function.comp_apply, List.foldl_cons, packed_byte hhigh hlow]
    rw [toOption_map, Option.map_map, hpacked, ih _ ((Nat.dvd_add_left (Nat.dvd_refl 2)).mp heven),
      mapM_nibble?_pair, hhigh, hlow, Option.bind_some, Option.bind_some, Option.map_map]
    rfl
  | case2 position high low rest hhigh => simp [Except.toOption, hhigh]
  | case3 position high low rest h hlow hhigh => simp [Except.toOption, hhigh, hlow]
  | case4 position single d hsingle => exact absurd heven (by simp)
  | case5 position single hsingle => exact absurd heven (by simp)
  | case6 => rfl

/-! ### A text -/

theorem two_dvd_length_padded (bs : Bytes) : 2 ∣ (padded bs).length := by
  unfold padded
  split
  · rw [List.length_cons]
    omega
  · omega

/-- The zero that fills up the first pair changes no number. -/
theorem value_padded (bs : Bytes) :
    ((padded bs).mapM nibble?).map (value 16) = (bs.mapM nibble?).map (value 16) := by
  unfold padded
  split
  · have hzero : nibble? 48 = some 0 := by decide
    rw [List.mapM_cons, hzero]
    cases bs.mapM nibble? with
    | none => rfl
    | some ds => exact congrArg some (value_zero_cons ds)
  · rfl

/-- **A text is decoded exactly when it spells a number, and to bytes that spell it too.** -/
theorem decode_ok_iff {cs : List Char} {n : Nat} :
    (∃ bytes, decode cs = .ok bytes ∧ bytes.toNatBE = n) ↔ Spells 16 cs n := by
  have hpairs : (decodePairs 0 (padded (Bytes.ofText cs))).toOption.map Bytes.toNatBE =
      (digits? 16 cs).map (value 16) := by
    rw [← mapM_nibble?_ofText, ← value_padded]
    exact decodePairs_eq 0 0 _ (two_dvd_length_padded _)
  rw [spells_iff (by decide), ← hpairs, decode]
  cases cs with
  | nil => simp
  | cons c rest =>
    cases decodePairs 0 (padded (Bytes.ofText (c :: rest))) <;> simp [Except.toOption]

/-! ### Bytes that were encoded -/

theorem digitChar_ascii : ∀ k < 16, (digitChar k).toNat < 128 ∧
    nibble? (UInt8.ofNat (digitChar k).toNat) = some k := by
  decide

theorem ofText_encodeByte (b : UInt8) : Bytes.ofText (encodeByte b) =
    [UInt8.ofNat (digitChar (b.toNat / 16)).toNat,
      UInt8.ofNat (digitChar (b.toNat % 16)).toNat] := by
  have hhigh := digitChar_ascii (b.toNat / 16) (by have := b.toNat_lt; omega)
  have hlow := digitChar_ascii (b.toNat % 16) (Nat.mod_lt _ (by decide))
  simp only [Bytes.ofText, encodeByte, List.flatMap_cons, List.flatMap_nil,
    utf8EncodeChar_ascii hhigh.1, utf8EncodeChar_ascii hlow.1, List.cons_append, List.nil_append]

theorem ofText_encode_cons (b : UInt8) (rest : Bytes) : Bytes.ofText (encode (b :: rest)) =
    Bytes.ofText (encodeByte b) ++ Bytes.ofText (encode rest) :=
  List.flatMap_append

/-- The two digits of a byte spell it. -/
theorem decodePairs_encodeByte (position : Nat) (b : UInt8) (rest : Bytes) :
    decodePairs position (Bytes.ofText (encodeByte b) ++ rest) =
      (decodePairs (position + 2) rest).map (b :: ·) := by
  have hhigh := digitChar_ascii (b.toNat / 16) (by have := b.toNat_lt; omega)
  have hlow := digitChar_ascii (b.toNat % 16) (Nat.mod_lt _ (by decide))
  have hbyte : UInt8.ofNat (16 * (b.toNat / 16) + b.toNat % 16) = b := by
    rw [Nat.div_add_mod, UInt8.ofNat_toNat]
  rw [ofText_encodeByte, List.cons_append, List.singleton_append, decodePairs, hhigh.2, hlow.2]
  dsimp only
  rw [hbyte]

theorem decodePairs_encode (position : Nat) (bs : Bytes) :
    decodePairs position (Bytes.ofText (encode bs)) = .ok bs := by
  induction bs generalizing position with
  | nil => rfl
  | cons b rest ih =>
    rw [ofText_encode_cons, decodePairs_encodeByte, ih]
    rfl

theorem padded_encode (bs : Bytes) :
    padded (Bytes.ofText (encode bs)) = Bytes.ofText (encode bs) := by
  have heven : (Bytes.ofText (encode bs)).length % 2 = 0 := by
    induction bs with
    | nil => rfl
    | cons b rest ih =>
      rw [ofText_encode_cons, ofText_encodeByte, List.length_append]
      exact (Nat.add_mod_left 2 _).trans ih
  exact if_neg (by rw [heven]; decide)

/-- **What bytes are encoded as is decoded to these bytes.** -/
theorem decode_encode {bs : Bytes} (h : bs ≠ []) : decode (encode bs) = .ok bs := by
  have hne : (encode bs).isEmpty = false := by
    obtain ⟨b, rest, rfl⟩ := List.exists_cons_of_ne_nil h
    rfl
  rw [decode, hne, padded_encode]
  exact decodePairs_encode 0 bs

end Attest.Text.Hex
