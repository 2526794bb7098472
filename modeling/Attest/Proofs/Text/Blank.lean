import Mathlib.Data.List.DropRight
import Attest.Text.Blank

/-! What trimming leaves of a text.

`Trimmed cs t` says what `t` is without saying how it is found: `cs` is `t` between blanks, and
`t` neither begins nor ends with one. There is one such text, and `trim` finds it
(`trimmed_iff`). -/
namespace Attest.Text

/-- `t` is all of `cs` but the blanks at its two ends. -/
structure Trimmed (cs t : List Char) : Prop where
  split : ∃ front back, cs = front ++ t ++ back ∧
    (∀ c ∈ front, isBlank c) ∧ ∀ c ∈ back, isBlank c
  head : ∀ c ∈ t.head?, ¬isBlank c
  last : ∀ c ∈ t.getLast?, ¬isBlank c

theorem not_isBlank_of_head_dropWhile {cs : List Char} {c : Char}
    (h : (cs.dropWhile isBlank).head? = some c) : ¬isBlank c := by
  have hnot := List.head?_dropWhile_not isBlank cs
  rw [h] at hnot
  exact Bool.eq_false_iff.mp hnot

/-- Dropping from the front stops at the first character that is no blank. -/
theorem dropWhile_isBlank_append {t : List Char} (h : ∀ c ∈ t.head?, ¬isBlank c) (hne : t ≠ [])
    (back : List Char) : (t ++ back).dropWhile isBlank = t ++ back := by
  cases t with
  | nil => exact absurd rfl hne
  | cons c rest => exact List.dropWhile_cons_of_neg (h c rfl)

theorem trim_eq_rdropWhile (cs : List Char) :
    trim cs = (cs.dropWhile isBlank).rdropWhile isBlank := rfl

theorem trimmed_trim (cs : List Char) : Trimmed cs (trim cs) where
  split := by
    refine ⟨cs.takeWhile isBlank, (cs.dropWhile isBlank).rtakeWhile isBlank, ?_,
      fun _ => List.mem_takeWhile_imp, fun _ => List.mem_rtakeWhile_imp⟩
    rw [trim_eq_rdropWhile, List.append_assoc, List.rdropWhile_append_rtakeWhile,
      List.takeWhile_append_dropWhile]
  head := by
    intro c hc
    -- what is left after both ends begins as what is left after the first
    obtain ⟨back, hback⟩ := List.rdropWhile_prefix isBlank (l := cs.dropWhile isBlank)
    apply not_isBlank_of_head_dropWhile
    rw [← hback, List.head?_append, ← trim_eq_rdropWhile, Option.mem_def.mp hc, Option.some_or]
  last := by
    intro c hc
    rw [trim, List.getLast?_reverse] at hc
    exact not_isBlank_of_head_dropWhile hc

theorem Trimmed.eq_trim {cs t : List Char} (h : Trimmed cs t) : t = trim cs := by
  obtain ⟨front, back, rfl, hfront, hback⟩ := h.split
  rw [trim, List.append_assoc, List.dropWhile_append_of_pos hfront]
  by_cases hne : t = []
  · subst hne
    rw [List.nil_append, List.dropWhile_eq_nil_iff.mpr hback]
    rfl
  · have hlast : ∀ c ∈ t.reverse.head?, ¬isBlank c := by simpa using h.last
    have hrest := dropWhile_isBlank_append hlast (by simpa using hne) []
    rw [List.append_nil] at hrest
    rw [dropWhile_isBlank_append h.head hne, List.reverse_append,
      List.dropWhile_append_of_pos (by simpa using hback), hrest, List.reverse_reverse]

/-- **Trimming is exact.** -/
theorem trimmed_iff {cs t : List Char} : Trimmed cs t ↔ t = trim cs :=
  ⟨Trimmed.eq_trim, fun h => h ▸ trimmed_trim cs⟩

/-- Trimming leaves a text without blanks alone. -/
theorem trim_eq_self {cs : List Char} (h : ∀ c ∈ cs, isBlank c = false) : trim cs = cs := by
  refine (trimmed_iff.mp ⟨⟨[], [], by simp⟩, fun c hc => ?_, fun c hc => ?_⟩).symm
  · simp [h c (List.mem_of_mem_head? hc)]
  · simp [h c (List.mem_of_getLast? hc)]

end Attest.Text
