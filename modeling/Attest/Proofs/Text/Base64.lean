import Mathlib.Tactic.Set
import Attest.Text.Base64

/-! Reading base 64 takes back what writing gives.

A digit is never the padding (`digitChar_ne_padding`), so four characters of which the last is a
digit are three bytes wherever they stand, and the reading follows the writing three bytes at a
time (`decode?_encode`). -/
namespace Attest.Text.Base64

/-! ### Digits -/

theorem digit?_digitChar {n : Nat} (h : n < 64) : digit? (digitChar n) = some n := by
  have hall : ∀ n < 64, digit? (digitChar n) = some n := by decide +kernel
  exact hall n h

theorem digitChar_ne_padding {n : Nat} (h : n < 64) : digitChar n ≠ '=' := by
  intro heq
  have hdigit := digit?_digitChar h
  rw [heq] at hdigit
  exact nomatch hdigit

/-! ### Groups of four digits -/

/-- Four characters of which the last is no padding are three bytes. -/
theorem decode?_group {a b c d : Char} (hd : d ≠ '=') (rest : List Char) :
    decode? (a :: b :: c :: d :: rest) = do
      let n := (← digit? a) * 262144 + (← digit? b) * 4096 + (← digit? c) * 64 + (← digit? d)
      let bytes ← decode? rest
      return UInt8.ofNat (n / 65536) :: UInt8.ofNat (n / 256) :: UInt8.ofNat n :: bytes := by
  rw [decode?]
  · exact fun _ h _ => absurd h hd
  · exact fun h _ => absurd h hd

/-- A number is a byte when it is one up to the bits that a byte has no room for. -/
theorem ofNat_eq {n : Nat} {b : UInt8} (h : n % 256 = b.toNat) : UInt8.ofNat n = b := by
  apply UInt8.toNat_inj.mp
  rw [UInt8.toNat_ofNat']
  exact h

theorem decode?_encode_three (a b c : UInt8) {bs : Bytes} (h : decode? (encode bs) = some bs) :
    decode? (encode (a :: b :: c :: bs)) = some (a :: b :: c :: bs) := by
  have ha := a.toNat_lt
  have hb := b.toNat_lt
  have hc := c.toNat_lt
  rw [encode]
  set n := a.toNat * 65536 + b.toNat * 256 + c.toNat
  have hn : n / 262144 < 64 := by omega
  have hsum : n / 262144 * 262144 + n / 4096 % 64 * 4096 + n / 64 % 64 * 64 + n % 64 = n := by omega
  rw [decode?_group (digitChar_ne_padding (Nat.mod_lt _ (by decide))), h, digit?_digitChar hn]
  simp only [digit?_digitChar (Nat.mod_lt _ (show 64 > 0 by decide)), Option.bind_eq_bind,
    Option.bind_some, hsum, Option.pure_def]
  rw [ofNat_eq (b := a) (by omega), ofNat_eq (b := b) (by omega), ofNat_eq (b := c) (by omega)]

/-- Two bytes leave two bits over, which are zero. -/
theorem decode?_encode_two (a b : UInt8) : decode? (encode [a, b]) = some [a, b] := by
  have ha := a.toNat_lt
  have hb := b.toNat_lt
  rw [encode]
  set n := a.toNat * 1024 + b.toNat * 4
  have hn : n / 4096 < 64 := by omega
  have hsum : n / 4096 * 4096 + n / 64 % 64 * 64 + n % 64 = n := by omega
  rw [decode?]
  · simp only [digit?_digitChar hn, digit?_digitChar (Nat.mod_lt _ (show 64 > 0 by decide)),
      Option.bind_eq_bind, Option.bind_some, hsum]
    rw [if_pos (by omega), ofNat_eq (b := a) (by omega), ofNat_eq (b := b) (by omega)]
  · exact digitChar_ne_padding (Nat.mod_lt _ (by decide))

/-- One byte leaves four bits over, which are zero. -/
theorem decode?_encode_one (a : UInt8) : decode? (encode [a]) = some [a] := by
  have ha := a.toNat_lt
  rw [encode]
  set n := a.toNat * 16
  have hn : n / 64 < 64 := by omega
  have hsum : n / 64 * 64 + n % 64 = n := by omega
  rw [decode?]
  simp only [digit?_digitChar hn, digit?_digitChar (Nat.mod_lt _ (show 64 > 0 by decide)),
    Option.bind_eq_bind, Option.bind_some, hsum]
  rw [if_pos (by omega), ofNat_eq (b := a) (by omega)]

/-- **Bytes are read back from what they are written as.** -/
theorem decode?_encode (bs : Bytes) : decode? (encode bs) = some bs := by
  fun_induction encode bs with
  | case1 a b c rest _ ih => exact decode?_encode_three a b c ih
  | case2 a b => exact decode?_encode_two a b
  | case3 a => exact decode?_encode_one a
  | case4 => rfl

end Attest.Text.Base64
