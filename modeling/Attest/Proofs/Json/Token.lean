import Mathlib.Data.List.DropRight
import Attest.Json.Value
import Attest.Proofs.Json.Reading
import Attest.Proofs.Text.Digits

/-! Reading the smallest pieces of a text: blanks, numbers and strings.

A number is read up to the first character that could not go on with it (`number_toDigits`), a
string up to its closing quote, every escape of which is undone (`value_quote`). -/
namespace Attest.Json

/-- Nothing but blanks. -/
def Blank (cs : List Char) : Prop := ∀ c ∈ cs, Reading.isSpace c

namespace Reading

/-! ### Blanks -/

theorem skipSpace_blank {b : List Char} (hb : Blank b) (cs : List Char) :
    skipSpace (b ++ cs) = skipSpace cs :=
  List.dropWhile_append_of_pos hb

theorem skipSpace_cons {c : Char} (hc : isSpace c = false) (cs : List Char) :
    skipSpace (c :: cs) = c :: cs :=
  List.dropWhile_cons_of_neg (by simp [hc])

/-- Blanks are skipped up to what is none. -/
theorem skipSpace_stop {b : List Char} (hb : Blank b) {c : Char} (hc : isSpace c = false)
    (cs : List Char) : skipSpace (b ++ c :: cs) = c :: cs := by
  rw [skipSpace_blank hb, skipSpace_cons hc]

theorem skipSpace_skipSpace (cs : List Char) : skipSpace (skipSpace cs) = skipSpace cs :=
  List.dropWhile_idempotent _ cs

theorem value_skipSpace (gap : Option Char) (fuel : Nat) (cs : List Char) :
    value gap fuel (skipSpace cs) = value gap fuel cs := by
  cases fuel with
  | zero => rfl
  | succ fuel => rw [value, value, skipSpace_skipSpace]

theorem items_skipSpace (gap : Option Char) (fuel : Nat) (cs : List Char) :
    items gap fuel (skipSpace cs) = items gap fuel cs := by
  cases fuel with
  | zero => rfl
  | succ fuel => rw [items, items, value_skipSpace]

theorem members_skipSpace (gap : Option Char) (fuel : Nat) (cs : List Char) :
    members gap fuel (skipSpace cs) = members gap fuel cs := by
  cases fuel with
  | zero => rfl
  | succ fuel => rw [members, members, value_skipSpace]

/-! ### Numbers -/

/-- A number ends here: none of these characters could go on with it. -/
def Ends (rest : List Char) : Prop :=
  ∀ c ∈ rest.head?, isDigit c = false ∧ c ≠ '.' ∧ c ≠ 'e' ∧ c ≠ 'E'

theorem isDigit_of_mem_toDigits {n : Nat} {c : Char} (h : c ∈ Nat.toDigits 10 n) : isDigit c := by
  have hdigit := Nat.isDigit_of_mem_toDigits (by decide) (by decide) h
  simpa [isDigit, Char.isDigit, Char.le_def] using hdigit

/-- A number other than zero has no zero in front. -/
theorem head?_toDigits_ne {n : Nat} (h : n ≠ 0) : (Nat.toDigits 10 n).head? ≠ some '0' := by
  induction n using Nat.strongRecOn with
  | ind n ih =>
    by_cases hn : n < 10
    · rw [Nat.toDigits_of_lt_base hn]
      have : ∀ n < 10, n ≠ 0 → n.digitChar ≠ '0' := by decide
      simpa using this n hn h
    · have hn := Nat.le_of_not_lt hn
      rw [Nat.toDigits_of_base_le (by decide) hn,
        List.head?_append_of_ne_nil _ Nat.toDigits_ne_nil]
      exact ih (n / 10) (Nat.div_lt_self (by omega) (by decide)) (by omega)

theorem decimal_toDigits (n : Nat) : decimal (Nat.toDigits 10 n) = n := by
  induction n using Nat.strongRecOn with
  | ind n ih =>
    have hdigit : ∀ d < 10, d.digitChar.toNat - 48 = d := by decide
    by_cases hn : n < 10
    · rw [Nat.toDigits_of_lt_base hn]
      simp [decimal, Text.value, hdigit n hn]
    · have hn := Nat.le_of_not_lt hn
      have hprefix := ih (n / 10) (Nat.div_lt_self (by omega) (by decide))
      rw [decimal] at hprefix
      rw [Nat.toDigits_of_base_le (by decide) hn, decimal, List.map_append, List.map_singleton,
        Text.value_append, hprefix, hdigit _ (Nat.mod_lt n (by decide))]
      omega

theorem takeWhile_isDigit_append {ds rest : List Char} (hds : ∀ c ∈ ds, isDigit c)
    (hrest : Ends rest) : (ds ++ rest).takeWhile isDigit = ds := by
  rw [List.takeWhile_append_of_pos hds]
  cases rest with
  | nil => simp
  | cons c rest => simp [(hrest c rfl).1]

theorem fraction?_of_ends {rest : List Char} (h : Ends rest) :
    fraction? rest = some ([], rest) := by
  unfold fraction?
  split
  · next rest => exact absurd rfl (h '.' rfl).2.1
  · rfl

theorem exponent?_of_ends {rest : List Char} (h : Ends rest) :
    exponent? rest = some ((false, []), rest) := by
  cases rest with
  | nil => rfl
  | cons c rest => simp [exponent?, (h c rfl).2.2]

/-- The digits of a number are a whole part and nothing else. -/
theorem parts?_toDigits (n : Nat) {rest : List Char} (hrest : Ends rest) :
    parts? (Nat.toDigits 10 n ++ rest) = some (⟨Nat.toDigits 10 n, [], false, []⟩, rest) := by
  have hwhole := takeWhile_isDigit_append (fun c => isDigit_of_mem_toDigits (n := n)) hrest
  have hzero : ¬((Nat.toDigits 10 n).head? = some '0' ∧ 1 < (Nat.toDigits 10 n).length) := by
    rintro ⟨hhead, hlength⟩
    by_cases h : n = 0
    · subst h
      exact absurd hlength (by decide)
    · exact head?_toDigits_ne h hhead
  simp [parts?, hwhole, Nat.toDigits_ne_nil, hzero, fraction?_of_ends hrest,
    exponent?_of_ends hrest]

theorem number_toDigits {n : Nat} (hn : n < UInt64.size) {rest : List Char} (hrest : Ends rest) :
    number false (Nat.toDigits 10 n ++ rest) = (.natural n, some rest) := by
  simp [number, parts?_toDigits n hrest, decimal_toDigits, hn]

theorem number_minus_toDigits {n : Nat} (hpos : 0 < n) (hn : n ≤ UInt64.size / 2)
    {rest : List Char} (hrest : Ends rest) :
    number true (Nat.toDigits 10 n ++ rest) = (.negative n, some rest) := by
  simp [number, parts?_toDigits n hrest, decimal_toDigits, hpos, hn]

/-! ### Strings -/

theorem hex4?_control : ∀ n < 32, ∀ rest, hex4?
    ('0' :: '0' :: Text.Hex.digitChar (n / 16) :: Text.Hex.digitChar (n % 16) :: rest) =
      some (n, rest) := by
  intro n hn rest
  have hdigits : ∀ n < 32, (Text.digits? 16
      ['0', '0', Text.Hex.digitChar (n / 16), Text.Hex.digitChar (n % 16)]).map (Text.value 16) =
        some n := by decide
  obtain ⟨ds, hds, hvalue⟩ := Option.map_eq_some_iff.mp (hdigits n hn)
  rw [hex4?, hds, Option.map_some, hvalue]

/-- An escaped character is read as the character. -/
theorem string_escape (fuel : Nat) (read : List Char) (c : Char) (cs : List Char) :
    string none (fuel + 1) read true (escape c ++ cs) = string none fuel (c :: read) true cs := by
  unfold escape
  split_ifs with hquote hslash hnewline hreturn htab hback hfeed hcontrol
  · subst hquote
    rfl
  · subst hslash
    rfl
  · subst hnewline
    rfl
  · subst hreturn
    rfl
  · subst htab
    rfl
  · subst hback
    rfl
  · subst hfeed
    rfl
  · have hn : c.toNat < 32 := hcontrol
    have hhigh : isHighSurrogate c.toNat = false := by
      simp [isHighSurrogate]
      omega
    have hlow : isLowSurrogate c.toNat = false := by
      simp [isLowSurrogate]
      omega
    simp only [List.cons_append, List.nil_append, string, hex4?_control _ hn, hhigh, hlow,
      Char.ofNat_toNat]
    rfl
  · have hsound : (none != some c) = true := rfl
    rw [List.singleton_append, string, hsound]
    · simp [hslash, hcontrol]
    · exact hquote
    · exact fun _ h => absurd h hslash
    · exact fun _ _ h => absurd h hslash

theorem string_quoted (s : List Char) (rest : List Char) (fuel : Nat) (read : List Char)
    (hfuel : s.length < fuel) :
    string none fuel read true (s.flatMap escape ++ '"' :: rest) =
      (.text (String.ofList (read.reverse ++ s)), some rest) := by
  induction s generalizing fuel read with
  | nil =>
    obtain ⟨fuel, rfl⟩ := Nat.exists_eq_succ_of_ne_zero (Nat.ne_zero_of_lt hfuel)
    simp [string]
  | cons c s ih =>
    obtain ⟨fuel, rfl⟩ := Nat.exists_eq_succ_of_ne_zero (Nat.ne_zero_of_lt hfuel)
    rw [List.flatMap_cons, List.append_assoc, string_escape, ih _ _ (Nat.lt_of_succ_lt_succ hfuel)]
    simp

/-- A character takes one at least, and six at most, as a Unicode escape does. -/
theorem length_escape (c : Char) : 1 ≤ (escape c).length ∧ (escape c).length ≤ 6 := by
  unfold escape
  split_ifs <;> simp

theorem length_flatMap_escape (s : List Char) :
    s.length ≤ (s.flatMap escape).length ∧ (s.flatMap escape).length ≤ 6 * s.length := by
  induction s with
  | nil => simp
  | cons c s ih =>
    rw [List.flatMap_cons, List.length_append, List.length_cons]
    have := length_escape c
    omega

theorem length_quote_le (s : String) : (quote s).length ≤ 6 * s.toList.length + 2 := by
  have := (length_flatMap_escape s.toList).2
  rw [quote, List.cons_append, List.length_cons, List.length_append, List.length_singleton]
  omega

theorem value_quote (s : String) (fuel : Nat) (rest : List Char) :
    value none (fuel + 1) (quote s ++ rest) = (.text s, some rest) := by
  have hlength := (length_flatMap_escape s.toList).1
  have hstring := string_quoted s.toList rest
    ((s.toList.flatMap escape ++ '"' :: rest).length + 1) [] (by rw [List.length_append]; omega)
  rw [List.reverse_nil, List.nil_append, String.ofList_toList] at hstring
  rw [quote, List.append_assoc, List.cons_append, List.singleton_append]
  exact hstring

/-! ### Values -/

theorem ne_of_isDigit {c d : Char} (hc : isDigit c) (hd : isDigit d = false) : c ≠ d := by
  rintro rfl
  exact absurd hc (by simp [hd])

theorem not_isSpace_of_isDigit {c : Char} (hc : isDigit c) : isSpace c = false := by
  have hne {d : Char} := ne_of_isDigit (d := d) hc
  simp [isSpace, hne (d := ' ') rfl, hne (d := '\n') rfl, hne (d := '\t') rfl,
    hne (d := '\r') rfl]

/-- No digit opens a value of another kind. -/
theorem value_digit {c : Char} (hc : isDigit c) (gap : Option Char) (fuel : Nat) (cs : List Char) :
    value gap (fuel + 1) (c :: cs) = number false (c :: cs) := by
  have hne {d : Char} := ne_of_isDigit (d := d) hc
  rw [value, skipSpace_cons (not_isSpace_of_isDigit hc)]
  simp [hne (d := 'n') rfl, hne (d := 't') rfl, hne (d := 'f') rfl, hne (d := '-') rfl,
    hne (d := '"') rfl, hne (d := '[') rfl, hne (d := '\x7b') rfl, hc]

theorem value_toDigits {n : Nat} (hn : n < UInt64.size) (fuel : Nat) {rest : List Char}
    (hrest : Ends rest) :
    value none (fuel + 1) (Nat.toDigits 10 n ++ rest) = (.natural n, some rest) := by
  obtain ⟨c, ds, hds⟩ := List.exists_cons_of_ne_nil (Nat.toDigits_ne_nil (n := n) (b := 10))
  have hc : isDigit c := isDigit_of_mem_toDigits (hds ▸ List.mem_cons_self)
  have hnumber := number_toDigits hn hrest
  rw [hds, List.cons_append] at hnumber ⊢
  rw [value_digit hc, hnumber]

/-- What a whole number of 64 bits is read as. -/
def ofInt : Int → Reading
  | .ofNat n => .natural n
  | .negSucc n => .negative (n + 1)

/-- **A whole number of 64 bits is read from its decimal text.** -/
theorem value_toString {n : Int} (hlow : -(UInt64.size / 2 : Nat) ≤ n) (hhigh : n < UInt64.size)
    (fuel : Nat) {rest : List Char} (hrest : Ends rest) :
    value none (fuel + 1) ((toString n).toList ++ rest) = (ofInt n, some rest) := by
  cases n with
  | ofNat k =>
    rw [Text.toList_toString_ofNat]
    exact value_toDigits (Int.ofNat_lt.mp hhigh) fuel hrest
  | negSucc k =>
    have hk : k + 1 ≤ UInt64.size / 2 := by omega
    rw [Text.toList_toString_negSucc]
    exact number_minus_toDigits (Nat.succ_pos k) hk hrest

theorem value_blank {c : Char} (hc : isSpace c) (gap : Option Char) (fuel : Nat) (cs : List Char) :
    value gap fuel (c :: cs) = value gap fuel cs := by
  have hskip : skipSpace (c :: cs) = skipSpace cs := List.dropWhile_cons_of_pos hc
  rw [← value_skipSpace, hskip, value_skipSpace]

/-- What may stand behind a value: a number before it has come to its end. -/
theorem ends_blank {b rest : List Char} (hb : Blank b) (hrest : Ends rest) : Ends (b ++ rest) := by
  cases b with
  | nil => exact hrest
  | cons c b =>
    intro d hd
    obtain rfl := Option.some.inj hd
    have hc := hb _ List.mem_cons_self
    simp only [isSpace, Bool.or_eq_true, beq_iff_eq] at hc
    rcases hc with ((rfl | rfl) | rfl) | rfl <;> decide

theorem ends_cons {c : Char} (hc : isDigit c = false ∧ c ≠ '.' ∧ c ≠ 'e' ∧ c ≠ 'E')
    (rest : List Char) : Ends (c :: rest) := by
  intro d hd
  obtain rfl := Option.some.inj hd
  exact hc

end Reading

end Attest.Json
