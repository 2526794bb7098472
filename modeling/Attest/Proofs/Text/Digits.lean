import Mathlib.Data.List.Induction
import Attest.Text.Digits

/-! What a row of digits denotes.

`Spells radix cs n` is the notation itself: one digit spells its value, and a digit after a row
that spells `n` makes it `n * radix` and the digit's value more. A row is read exactly when it
spells a number, and as that number (`spells_iff`). -/
namespace Attest.Text

/-- `c` is the digit of `d` in the radix, letters in either case. -/
def IsDigit (radix : Nat) (c : Char) (d : Nat) : Prop :=
  d < radix ∧ Nat.digitChar d = c.toLower

/-- The digits `cs`, at least one, are a number in the radix. -/
inductive Spells (radix : Nat) : List Char → Nat → Prop
  | digit {c d} : IsDigit radix c d → Spells radix [c] d
  | more {cs n c d} : Spells radix cs n → IsDigit radix c d →
      Spells radix (cs ++ [c]) (n * radix + d)

variable {radix : Nat} {c : Char} {d n : Nat} {cs : List Char}

theorem Spells.isDigit (h : Spells radix cs n) : ∀ c ∈ cs, ∃ d, IsDigit radix c d := by
  induction h with
  | digit hc => simpa using ⟨_, hc⟩
  | more _ hc ih => simpa [or_imp, forall_and] using ⟨ih, _, hc⟩

/-! ### One digit -/

/-- The digits among the ASCII characters, one character after the other. -/
theorem digit?_ascii : ∀ k < 128, ∀ d < 16,
    digit? 16 (Char.ofNat k) = some d ↔ Nat.digitChar d = (Char.ofNat k).toLower := by
  decide +kernel

theorem digit?_of_not_ascii (h : 128 ≤ c.toNat) : digit? radix c = none := by
  have hbeyond (a : Char) (ha : a.toNat < 128) : ¬c ≤ a :=
    fun hle => absurd (Nat.lt_of_le_of_lt hle ha) (Nat.not_lt.mpr h)
  have hdigit := hbeyond '9' (by decide)
  have hsmall := hbeyond 'f' (by decide)
  have hcapital := hbeyond 'F' (by decide)
  simp [digit?, hdigit, hsmall, hcapital]

theorem digitChar_ne_toLower (h : 128 ≤ c.toNat) (hd : d < 16) : Nat.digitChar d ≠ c.toLower := by
  have hlower : c.toLower = c := by
    refine dif_neg fun hletter => ?_
    have : c.toNat ≤ 90 := hletter.2
    omega
  have hascii : ∀ d < 16, (Nat.digitChar d).toNat < 128 := by decide
  rw [hlower]
  rintro rfl
  exact absurd (hascii d hd) (Nat.not_lt.mpr h)

/-- The radix only bounds the digits. -/
theorem digit?_eq_some_iff_lt :
    digit? radix c = some d ↔ d < radix ∧ digit? 16 c = some d := by
  simp only [digit?, Option.ite_none_right_eq_some, Option.some.injEq]
  constructor
  · rintro ⟨⟨hradix, h⟩, rfl⟩
    exact ⟨hradix, ⟨h, h⟩, rfl⟩
  · rintro ⟨hradix, ⟨-, h⟩, rfl⟩
    exact ⟨⟨hradix, h⟩, rfl⟩

/-- **A character is read as a digit exactly when it is one.** -/
theorem digit?_eq_some_iff (hr : radix ≤ 16) : digit? radix c = some d ↔ IsDigit radix c d := by
  rw [digit?_eq_some_iff_lt, IsDigit]
  refine and_congr_right fun hd => ?_
  have hd : d < 16 := Nat.lt_of_lt_of_le hd hr
  by_cases h : c.toNat < 128
  · have := digit?_ascii c.toNat h d hd
    rwa [Char.ofNat_toNat] at this
  · have h := Nat.le_of_not_lt h
    simp [digit?_of_not_ascii h, digitChar_ne_toLower h hd]

/-! ### A row of digits -/

theorem digits?_append_eq_some_iff {ds : List Nat} :
    digits? radix (cs ++ [c]) = some ds ↔
      ∃ es d, digits? radix cs = some es ∧ digit? radix c = some d ∧ es ++ [d] = ds := by
  simp [digits?, List.mapM_append, Option.bind_eq_some_iff]

theorem value_append (ds : List Nat) (d : Nat) :
    value radix (ds ++ [d]) = value radix ds * radix + d := by
  simp [value]

theorem value_zero_cons (ds : List Nat) : value radix (0 :: ds) = value radix ds := by
  simp [value]

theorem digits?_of_spells (hr : radix ≤ 16) (h : Spells radix cs n) :
    ∃ ds, digits? radix cs = some ds ∧ value radix ds = n := by
  induction h with
  | @digit c d hc =>
    exact ⟨[d], by simp [digits?, (digit?_eq_some_iff hr).mpr hc], by simp [value]⟩
  | more _ hc ih =>
    obtain ⟨ds, hds, rfl⟩ := ih
    refine ⟨ds ++ [_], ?_, value_append ds _⟩
    exact digits?_append_eq_some_iff.mpr ⟨ds, _, hds, (digit?_eq_some_iff hr).mpr hc, rfl⟩

theorem spells_of_digits? (hr : radix ≤ 16) (hne : cs ≠ []) {ds : List Nat}
    (h : digits? radix cs = some ds) : Spells radix cs (value radix ds) := by
  induction cs using List.reverseRecOn generalizing ds with
  | nil => exact absurd rfl hne
  | append_singleton cs c ih =>
    obtain ⟨es, d, hes, hd, rfl⟩ := digits?_append_eq_some_iff.mp h
    have hc : IsDigit radix c d := (digit?_eq_some_iff hr).mp hd
    by_cases hempty : cs = []
    · subst hempty
      obtain rfl : es = [] := by simpa [digits?] using hes.symm
      simpa [value] using Spells.digit hc
    · rw [value_append]
      exact (ih hempty hes).more hc

/-- **A row of digits is read exactly when it spells a number, and as that number.** -/
theorem spells_iff (hr : radix ≤ 16) :
    Spells radix cs n ↔ cs ≠ [] ∧ (digits? radix cs).map (value radix) = some n := by
  simp only [Option.map_eq_some_iff]
  constructor
  · intro h
    refine ⟨?_, digits?_of_spells hr h⟩
    cases h <;> simp
  · rintro ⟨hne, ds, hds, rfl⟩
    exact spells_of_digits? hr hne hds

/-- A row of digits spells a number. -/
theorem exists_spells (hne : cs ≠ []) (h : ∀ c ∈ cs, ∃ d, IsDigit radix c d) :
    ∃ n, Spells radix cs n := by
  induction cs using List.reverseRecOn with
  | nil => exact absurd rfl hne
  | append_singleton cs c ih =>
    obtain ⟨d, hd⟩ := h c (by simp)
    by_cases hempty : cs = []
    · subst hempty
      exact ⟨d, .digit hd⟩
    · obtain ⟨n, hn⟩ := ih hempty fun c hc => h c (List.mem_append_left _ hc)
      exact ⟨_, hn.more hd⟩

/-- The decimal digits of a number spell it. -/
theorem spells_toDigits (n : Nat) : Spells 10 (Nat.toDigits 10 n) n := by
  induction n using Nat.strongRecOn with
  | ind n ih =>
    have hdigit : ∀ d < 10, IsDigit 10 d.digitChar d := by
      unfold IsDigit
      decide
    by_cases hn : n < 10
    · rw [Nat.toDigits_of_lt_base hn]
      exact .digit (hdigit n hn)
    · have hn := Nat.le_of_not_lt hn
      have hspells := (ih (n / 10) (Nat.div_lt_self (by omega) (by decide))).more
        (hdigit (n % 10) (Nat.mod_lt n (by decide)))
      rwa [← Nat.toDigits_of_base_le (by decide) hn, Nat.div_add_mod'] at hspells

theorem toList_toString_ofNat (n : Nat) :
    (toString (Int.ofNat n)).toList = Nat.toDigits 10 n :=
  Nat.toList_repr

theorem toList_toString_negSucc (n : Nat) :
    (toString (Int.negSucc n)).toList = '-' :: Nat.toDigits 10 (n + 1) := by
  show ("-" ++ Nat.repr (n + 1)).toList = _
  rw [String.toList_append, Nat.toList_repr]
  rfl

end Attest.Text
