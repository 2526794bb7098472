import Mathlib.Tactic.Ring
import Attest.Proofs.Text.Digits

/-! Digits compared as text.

Of two rows with equally many digits the lexicographically first denotes the smaller number
(`lex_iff_value_lt`), and of two others the shorter, if the longer begins with no zero
(`value_lt_of_length_lt`). So `below`, which looks at lengths and characters alone, compares the
numbers that the digits spell (`below_iff`), whatever their number. -/
namespace Attest.Text

variable {radix : Nat} {ds es : List Nat}

/-! ### Rows of digits as numbers -/

theorem value_cons (d : Nat) (ds : List Nat) :
    value radix (d :: ds) = d * radix ^ ds.length + value radix ds := by
  induction ds using List.reverseRecOn with
  | nil => simp [value]
  | append_singleton ds e ih =>
    rw [← List.cons_append, value_append, value_append, ih, List.length_append,
      List.length_singleton]
    ring

theorem value_lt (h : ∀ d ∈ ds, d < radix) : value radix ds < radix ^ ds.length := by
  induction ds with
  | nil => simp [value]
  | cons d ds ih =>
    obtain ⟨hd, hds⟩ := List.forall_mem_cons.mp h
    have hrest := ih hds
    have hfirst : d * radix ^ ds.length + radix ^ ds.length ≤ radix * radix ^ ds.length := by
      rw [← Nat.succ_mul]
      exact Nat.mul_le_mul_right _ hd
    rw [value_cons, List.length_cons, Nat.pow_succ']
    omega

/-- Fewer digits denote less than more of them that begin with no zero. -/
theorem value_lt_of_length_lt (hradix : 0 < radix) (hds : ∀ d ∈ ds, d < radix)
    (hes : es.head? ≠ some 0) (hlength : ds.length < es.length) :
    value radix ds < value radix es := by
  obtain ⟨e, rest, rfl⟩ := List.exists_cons_of_length_pos (Nat.zero_lt_of_lt hlength)
  have hpos : 0 < e := Nat.pos_of_ne_zero fun h => hes (congrArg some h)
  calc value radix ds < radix ^ ds.length := value_lt hds
    _ ≤ radix ^ rest.length := Nat.pow_le_pow_right hradix (Nat.le_of_lt_succ hlength)
    _ ≤ e * radix ^ rest.length := Nat.le_mul_of_pos_left _ hpos
    _ ≤ value radix (e :: rest) := by
      rw [value_cons]
      exact Nat.le_add_right ..

/-- Zeros in front change no number. -/
theorem value_dropZeros (ds : List Nat) : value radix (ds.dropWhile (· == 0)) = value radix ds := by
  induction ds with
  | nil => rfl
  | cons d ds ih =>
    by_cases hd : d = 0
    · subst hd
      rw [List.dropWhile_cons_of_pos rfl, ih, value_zero_cons]
    · rw [List.dropWhile_cons_of_neg (by simpa using hd)]

/-! ### The order of rows -/

/-- Of rows with as many digits the one that comes first denotes less. -/
theorem lex_iff_value_lt (hds : ∀ d ∈ ds, d < radix) (hes : ∀ e ∈ es, e < radix)
    (hlength : ds.length = es.length) :
    ds.lex es (fun d e => decide (d < e)) = true ↔ value radix ds < value radix es := by
  induction ds generalizing es with
  | nil =>
    obtain rfl := List.length_eq_zero_iff.mp hlength.symm
    simp
  | cons d ds ih =>
    obtain ⟨e, es, rfl⟩ := List.exists_cons_of_length_eq_add_one hlength.symm
    obtain ⟨-, hds⟩ := List.forall_mem_cons.mp hds
    obtain ⟨-, hes⟩ := List.forall_mem_cons.mp hes
    have hlength := Nat.succ.inj hlength
    have hd := value_lt hds
    have he := value_lt hes
    rw [List.cons_lex_cons, Bool.or_eq_true, Bool.and_eq_true, decide_eq_true_eq, beq_iff_eq,
      ih hds hes hlength, value_cons, value_cons, hlength]
    rw [hlength] at hd
    -- the first digits decide unless they are equal, since the rest is less than one of their units
    have hunit : ∀ {a b : Nat}, a < b →
        a * radix ^ es.length + radix ^ es.length ≤ b * radix ^ es.length := fun hab => by
      rw [← Nat.succ_mul]
      exact Nat.mul_le_mul_right _ hab
    rcases Nat.lt_trichotomy d e with hlt | rfl | hgt
    · have := hunit hlt
      exact iff_of_true (.inl hlt) (by omega)
    · simp
    · have := hunit hgt
      exact iff_of_false (by omega) (by omega)

theorem digitChar_lt_iff : ∀ d < 16, ∀ e < 16,
    (Nat.digitChar d < Nat.digitChar e ↔ d < e) ∧ (Nat.digitChar d = Nat.digitChar e ↔ d = e) := by
  decide

/-- Rows keep their order when each entry is replaced by one that stands to the others as it
does. -/
theorem lex_map {α β : Type} [LT α] [DecidableLT α] [BEq α] [LawfulBEq α] [LT β] [DecidableLT β]
    [BEq β] [LawfulBEq β] {f : α → β} {as bs : List α}
    (h : ∀ a ∈ as, ∀ b ∈ bs, (f a < f b ↔ a < b) ∧ (f a = f b ↔ a = b)) :
    (as.map f).lex (bs.map f) (fun a b => decide (a < b)) = as.lex bs fun a b => decide (a < b) := by
  induction as generalizing bs with
  | nil => cases bs <;> rfl
  | cons a as ih =>
    cases bs with
    | nil => rfl
    | cons b bs =>
      obtain ⟨hlt, heq⟩ := h a List.mem_cons_self b List.mem_cons_self
      have hsame : (f a == f b) = (a == b) := Bool.eq_iff_iff.mpr (by simpa using heq)
      have hrest := ih fun a ha b hb => h a (List.mem_cons_of_mem _ ha) b (List.mem_cons_of_mem _ hb)
      rw [List.map_cons, List.map_cons, List.cons_lex_cons, List.cons_lex_cons, hrest,
        decide_eq_decide.mpr hlt, hsame]

/-- Digits stand in the order of what they denote. -/
theorem lex_digitChar (hds : ∀ d ∈ ds, d < 16) (hes : ∀ e ∈ es, e < 16) :
    (ds.map Nat.digitChar).lex (es.map Nat.digitChar) (fun a b => decide (a < b)) =
      ds.lex es fun d e => decide (d < e) :=
  lex_map fun d hd e he => digitChar_lt_iff d (hds d hd) e (hes e he)

/-! ### Digits as characters -/

/-- What a row of digits spells is the number of their values, and lowercase digits are the values'
own characters. -/
theorem Spells.digits {cs : List Char} {n : Nat} (h : Spells radix cs n) :
    ∃ ds, (∀ d ∈ ds, d < radix) ∧ cs.map Char.toLower = ds.map Nat.digitChar ∧
      value radix ds = n := by
  induction h with
  | @digit c d hc => exact ⟨[d], by simpa using hc.1, by simp [hc.2], by simp [value]⟩
  | @more cs n c d _ hc ih =>
    obtain ⟨ds, hds, hcs, rfl⟩ := ih
    refine ⟨ds ++ [d], ?_, by simp [hcs, hc.2], value_append ds d⟩
    simpa [or_imp, forall_and] using ⟨hds, hc.1⟩

theorem Spells.radix_pos {cs : List Char} {n : Nat} (h : Spells radix cs n) : 0 < radix := by
  cases h with
  | digit hc => exact Nat.zero_lt_of_lt hc.1
  | more _ hc => exact Nat.zero_lt_of_lt hc.1

theorem dropZeros_map (ds : List Nat) :
    (ds.map Nat.digitChar).dropWhile (· == '0') = (ds.dropWhile (· == 0)).map Nat.digitChar := by
  induction ds with
  | nil => rfl
  | cons d ds ih =>
    have hzero : (d.digitChar == '0') = (d == 0) := Bool.eq_iff_iff.mpr (by simp)
    rw [List.map_cons, List.dropWhile_cons, List.dropWhile_cons, hzero, ih]
    split <;> rfl

theorem head?_dropZeros_ne (ds : List Nat) : (ds.dropWhile (· == 0)).head? ≠ some 0 := by
  intro h
  have hnot := List.head?_dropWhile_not (· == 0) ds
  rw [h] at hnot
  exact absurd hnot (by decide)

/-- **Comparing digits as text compares the numbers that they spell.** -/
theorem below_iff {cs bound : List Char} {n m : Nat} (hradix : radix ≤ 16) (hcs : Spells radix cs n)
    (hbound : Spells radix bound m) (hlower : bound.map Char.toLower = bound)
    (hzero : bound.head? ≠ some '0') : below (cs.map Char.toLower) bound = true ↔ n < m := by
  have hpos := hcs.radix_pos
  obtain ⟨ds, hds, hdigits, rfl⟩ := hcs.digits
  obtain ⟨es, hes, hbounds, rfl⟩ := hbound.digits
  obtain rfl := hlower.symm.trans hbounds
  have hes0 : es.head? ≠ some 0 := fun h => hzero (by rw [List.head?_map, h]; rfl)
  have hkept : ∀ d ∈ ds.dropWhile (· == 0), d < radix := fun d hd =>
    hds d ((List.dropWhile_sublist _).subset hd)
  rw [below, hdigits, dropZeros_map, ← value_dropZeros ds]
  simp only [List.length_map]
  split
  · next hshorter => exact iff_of_true rfl (value_lt_of_length_lt hpos hkept hes0 hshorter)
  · split
    · next hlonger =>
      have hlt := value_lt_of_length_lt hpos hes (head?_dropZeros_ne ds) hlonger
      exact iff_of_false Bool.false_ne_true (Nat.lt_asymm hlt)
    · next hlonger =>
      rw [lex_digitChar (fun d hd => (hkept d hd).trans_le hradix) fun e he =>
        (hes e he).trans_le hradix]
      exact lex_iff_value_lt hkept hes (by omega)

end Attest.Text
