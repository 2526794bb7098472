import Attest.Json.Reading

/-! What kind of value a reader can meet.

A number is kept as a whole one only if it fits 64 bits with its sign, wherever it stands in
the text (`Reading.ofBytes_inRange`). So whoever gets a whole number out of a reading need not
bound it again. -/
namespace Attest.Json.Reading

/-- Every whole number in the value fits 64 bits. -/
inductive InRange : Reading → Prop
  | null : InRange .null
  | bool (b : Bool) : InRange (.bool b)
  | natural {n : Nat} (h : n < UInt64.size) : InRange (.natural n)
  | negative {n : Nat} (hpos : 0 < n) (h : n ≤ UInt64.size / 2) : InRange (.negative n)
  | float (negative : Bool) (x : Decimal.Binary64) : InRange (.float negative x)
  | hugeNumber : InRange .hugeNumber
  | text (s : String) : InRange (.text s)
  | badText : InRange .badText
  | array {items : List Reading} (h : ∀ r ∈ items, InRange r) : InRange (.array items)
  | object {members : List (Reading × Reading)} (keys : ∀ m ∈ members, InRange m.1)
      (values : ∀ m ∈ members, InRange m.2) : InRange (.object members)
  | broken : InRange .broken

variable {gap : Option Char}

theorem InRange.of_mem {items : List Reading} {r : Reading} (h : InRange (.array items))
    (hr : r ∈ items) : r.InRange := by
  cases h with
  | array h => exact h r hr

theorem InRange.of_member {members : List (Reading × Reading)} {m : Reading × Reading}
    (h : InRange (.object members)) (hm : m ∈ members) : m.2.InRange := by
  cases h with
  | object keys values => exact values m hm

theorem word_inRange {r : Reading} (h : r.InRange) (rest cs : List Char) :
    (word rest r cs).1.InRange := by
  unfold word
  split
  · exact h
  · exact .broken

theorem number_inRange (negative : Bool) (cs : List Char) : (number negative cs).1.InRange := by
  unfold number
  split
  · exact .broken
  · dsimp only
    split
    · next h => exact .natural h.2.2
    · split
      · next h => exact .negative h.2.2.1 h.2.2.2
      · split
        · exact .float negative _
        · exact .hugeNumber

theorem string_inRange (fuel : Nat) (read : List Char) (sound : Bool) (cs : List Char) :
    (string gap fuel read sound cs).1.InRange := by
  induction fuel generalizing read sound cs with
  | zero => exact .broken
  | succ fuel ih =>
    unfold string
    split
    · exact .broken
    · dsimp only
      split
      · exact .text _
      · exact .badText
    · split
      · exact .broken
      · split
        · split <;> exact ih _ _ _
        · split <;> exact ih _ _ _
    · split
      · exact ih _ _ _
      · exact .broken
    · split
      · exact .broken
      · exact ih _ _ _

/-! One level of nesting: a value, the elements of an array and the members of an object. -/

section
variable {fuel : Nat}

theorem value_inRange (hitems : ∀ cs, ∀ r ∈ (items gap fuel cs).1, r.InRange)
    (hmembers : ∀ cs, ∀ m ∈ (members gap fuel cs).1, m.1.InRange ∧ m.2.InRange) (cs : List Char) :
    (value gap (fuel + 1) cs).1.InRange := by
  unfold value
  split
  · exact word_inRange .null _ _
  · exact word_inRange (.bool true) _ _
  · exact word_inRange (.bool false) _ _
  · exact number_inRange true _
  · exact string_inRange _ _ _ _
  · split
    · exact .array fun r hr => nomatch hr
    · exact .array (hitems _)
  · split
    · exact .object (fun m hm => nomatch hm) fun m hm => nomatch hm
    · exact .object (fun m hm => (hmembers _ m hm).1) fun m hm => (hmembers _ m hm).2
  · split
    · exact number_inRange false _
    · exact .broken
  · exact .broken

theorem items_inRange (hvalue : ∀ cs, (value gap fuel cs).1.InRange)
    (hitems : ∀ cs, ∀ r ∈ (items gap fuel cs).1, r.InRange) (cs : List Char) :
    ∀ r ∈ (items gap (fuel + 1) cs).1, r.InRange := by
  have hitem := hvalue cs
  unfold items
  split
  · next item hv =>
    rw [hv] at hitem
    exact List.forall_mem_singleton.mpr hitem
  · next item rest hv =>
    rw [hv] at hitem
    split
    · exact List.forall_mem_cons.mpr ⟨hitem, hitems _⟩
    · exact List.forall_mem_singleton.mpr hitem
    · exact List.forall_mem_cons.mpr ⟨hitem, List.forall_mem_singleton.mpr .broken⟩

theorem members_inRange (hvalue : ∀ cs, (value gap fuel cs).1.InRange)
    (hmembers : ∀ cs, ∀ m ∈ (members gap fuel cs).1, m.1.InRange ∧ m.2.InRange) (cs : List Char) :
    ∀ m ∈ (members gap (fuel + 1) cs).1, m.1.InRange ∧ m.2.InRange := by
  have hkey := hvalue cs
  unfold members
  split
  · next key hk =>
    rw [hk] at hkey
    exact List.forall_mem_singleton.mpr ⟨hkey, .broken⟩
  · next key rest hk =>
    rw [hk] at hkey
    split
    · next rest _ =>
      have hitem := hvalue rest
      split
      · next item hv =>
        rw [hv] at hitem
        exact List.forall_mem_singleton.mpr ⟨hkey, hitem⟩
      · next item rest hv =>
        rw [hv] at hitem
        split
        · exact List.forall_mem_cons.mpr ⟨⟨hkey, hitem⟩, hmembers _⟩
        · exact List.forall_mem_singleton.mpr ⟨hkey, hitem⟩
        · exact List.forall_mem_cons.mpr
            ⟨⟨hkey, hitem⟩, List.forall_mem_singleton.mpr ⟨.broken, .broken⟩⟩
    · exact List.forall_mem_singleton.mpr ⟨hkey, .broken⟩

end

theorem nested_inRange (gap : Option Char) (fuel : Nat) :
    (∀ cs, (value gap fuel cs).1.InRange) ∧
      (∀ cs, ∀ r ∈ (items gap fuel cs).1, r.InRange) ∧
      ∀ cs, ∀ m ∈ (members gap fuel cs).1, m.1.InRange ∧ m.2.InRange := by
  induction fuel with
  | zero =>
    refine ⟨fun cs => .broken, fun cs => ?_, fun cs => ?_⟩
    · rw [items]
      exact List.forall_mem_singleton.mpr .broken
    · rw [members]
      exact List.forall_mem_singleton.mpr ⟨.broken, .broken⟩
  | succ fuel ih =>
    obtain ⟨hvalue, hitems, hmembers⟩ := ih
    exact ⟨value_inRange hitems hmembers, items_inRange hvalue hitems,
      members_inRange hvalue hmembers⟩

/-- **Whatever is read from bytes is in range.** -/
theorem ofBytes_inRange (bs : Bytes) : (ofBytes bs).1.InRange := by
  unfold ofBytes
  split
  · exact (nested_inRange none _).1 _
  · exact (nested_inRange _ _).1 _

end Attest.Json.Reading
