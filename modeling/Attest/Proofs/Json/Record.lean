import Mathlib.Data.List.Forall2
import Attest.Json.Codec
import Attest.Proofs.Assembly

/-! What codecs take.

A list is read element by element (`Codec.list_read_eq_ok_iff`). An object is read field by field,
in whatever order its members stand: a field gets the one value given under its name
(`Codec.Fields.storeAll_cons_eq_ok_iff`), and of the members that no field takes nothing is asked
but that they are JSON (`Codec.Fields.storeAll_nil_eq_ok_iff`). A record is an object from whose
members its fields are gathered, or a list that has them in order
(`Codec.record_read_eq_ok_iff`). -/
namespace Attest.Json

namespace Reading

/-- The values under a name, in the order of the text. -/
def named (name : String) : List (Reading × Reading) → List Reading
  | [] => []
  | (.text key, r) :: rest => if key = name then r :: named name rest else named name rest
  | _ :: rest => named name rest

/-- The members that are not under the name. -/
def others (name : String) : List (Reading × Reading) → List (Reading × Reading)
  | [] => []
  | (.text key, r) :: rest =>
    if key = name then others name rest else (.text key, r) :: others name rest
  | m :: rest => m :: others name rest

theorem mem_named_iff {name : String} {members : List (Reading × Reading)} {r : Reading} :
    r ∈ named name members ↔ (.text name, r) ∈ members := by
  fun_induction named name members with
  | case1 => simp
  | case2 s rest ih => simp [ih]
  | case3 key s rest hkey ih => simp [ih, Ne.symm hkey]
  | case4 m rest hm ih =>
    have hne : (.text name, r) ≠ m := fun h => hm _ _ h.symm
    simp [ih, hne]

/-- Members under one name are not among those under another. -/
theorem named_others {name other : String} (h : name ≠ other)
    (members : List (Reading × Reading)) :
    named name (others other members) = named name members := by
  fun_induction others other members with
  | case1 => rfl
  | case2 r rest ih => simp [named, ih, Ne.symm h]
  | case3 key r rest hkey ih => simp [named, ih]
  | case4 m rest hm ih => rw [named.eq_3 _ _ _ hm, named.eq_3 _ _ _ hm, ih]

end Reading

open Reading

namespace Codec
variable {α : Type}

theorem wrongType_ne_ok (expected : String) (r : Reading) (x : α) :
    wrongType expected r ≠ .ok x := by
  unfold wrongType
  cases found r <;> exact fun h => nomatch h

theorem skip_eq_ok_iff {r : Reading} {u : Unit} : skip r = .ok u ↔ r.isWhole := by
  unfold skip
  split <;> simp [*]

theorem text_read_eq_ok_iff {r : Reading} {s : String} : text.read r = .ok s ↔ r = .text s := by
  unfold text
  dsimp only
  split
  · simp
  · next h => exact iff_of_false (wrongType_ne_ok _ _ _) (h s)

theorem natural_read_eq_ok_iff {bound n : Nat} {name : String} {r : Reading} :
    (natural bound name).read r = .ok n ↔ r = .natural n ∧ n < bound := by
  cases r with
  | natural k =>
    rw [natural, Reading.natural.injEq]
    dsimp only
    split
    · next hk =>
      rw [Except.ok.injEq]
      exact ⟨fun h => ⟨h, h ▸ hk⟩, fun h => h.1⟩
    · next hk => exact iff_of_false (fun h => nomatch h) fun h => hk (h.1 ▸ h.2)
  | negative k => exact iff_of_false (fun h => nomatch h) fun h => nomatch h.1
  | _ => exact iff_of_false (wrongType_ne_ok _ _ _) fun h => nomatch h.1

theorem optional_read_eq_ok_iff {c : Codec α} {r : Reading} {x : Option α} :
    c.optional.read r = .ok x ↔
      (r = .null ∧ x = none) ∨ r ≠ .null ∧ ∃ y, c.read r = .ok y ∧ some y = x := by
  unfold optional
  dsimp only
  split
  · simp [eq_comm]
  · next hnull =>
    rw [or_iff_right fun h => hnull h.1, and_iff_right hnull]
    cases c.read r <;> simp [Except.map]

/-- Elements are read one by one. -/
theorem readItems_eq_ok_iff {read : Reading → Except Fault α} {items : List Reading} {xs : List α} :
    readItems read items = .ok xs ↔ List.Forall₂ (fun r x => read r = .ok x) items xs := by
  induction items generalizing xs with
  | nil => cases xs <;> simp [readItems]
  | cons r rest ih =>
    rw [readItems, bind_eq_ok_iff]
    constructor
    · rintro ⟨x, hx, h⟩
      obtain ⟨ys, hys, h⟩ := bind_eq_ok_iff.mp h
      obtain rfl := Except.ok.inj h
      exact .cons hx (ih.mp hys)
    · intro h
      cases h with
      | cons hx hxs => exact ⟨_, hx, bind_eq_ok_iff.mpr ⟨_, ih.mpr hxs, rfl⟩⟩

theorem list_read_eq_ok_iff {c : Codec α} {r : Reading} {xs : List α} :
    c.list.read r = .ok xs ↔
      ∃ items, r = .array items ∧ List.Forall₂ (fun r x => c.read r = .ok x) items xs := by
  unfold list
  dsimp only
  split
  · simp [readItems_eq_ok_iff]
  · next h => exact iff_of_false (wrongType_ne_ok _ _ _) fun ⟨items, hr, _⟩ => h items hr

/-- Of some items there is a list exactly when each of them is one of its elements. -/
theorem exists_forall₂_iff {β : Type} {items : List β} {p : β → α → Prop} :
    (∃ xs, List.Forall₂ p items xs) ↔ ∀ r ∈ items, ∃ x, p r x := by
  induction items with
  | nil => simp
  | cons r rest ih =>
    rw [List.forall_mem_cons, ← ih]
    constructor
    · rintro ⟨xs, h⟩
      cases h with
      | cons hx hxs => exact ⟨⟨_, hx⟩, _, hxs⟩
    · rintro ⟨⟨x, hx⟩, xs, hxs⟩
      exact ⟨x :: xs, .cons hx hxs⟩

/-! ### Fields and their values -/

section
variable {ts : List Type}

/-- What the first field holds, and what the others do. -/
def Slots.held (slot : Option α) (slots : Slots ts) : Slots (α :: ts) := (slot, slots)

/-- The value of the first field, and those of the others. -/
def Values.pair (x : α) (xs : Values ts) : Values (α :: ts) := (x, xs)

end

namespace Fields
open Slots (held)
open Values (pair)
variable {ts : List Type}

/-- What a field holds after the values given under its name: what it held before, or the only
one of them if it was vacant. -/
def Filled (codec : Codec α) (slot : Option α) : List Reading → Option α → Prop
  | [], slot' => slot' = slot
  | [r], slot' => slot = none ∧ ∃ x, codec.read r = .ok x ∧ slot' = some x
  | _ :: _ :: _, _ => False

/-- A field that holds a value takes no other. -/
theorem not_filled_taken {codec : Codec α} {x : α} {r : Reading} {given : List Reading}
    {slot : Option α} : ¬Filled codec (some x) (r :: given) slot := by
  cases given <;> simp [Filled]

theorem filled_vacant_iff {codec : Codec α} {r : Reading} {given : List Reading}
    {slot : Option α} : Filled codec none (r :: given) slot ↔
      ∃ x, codec.read r = .ok x ∧ Filled codec (some x) given slot := by
  match given with
  | [] => simp [Filled]
  | [_] => simp [Filled]
  | _ :: _ :: _ => simp [Filled]

/-! ### Members one by one -/

section Members
variable {fields : Fields ts} {name key : String} {codec : Codec α} {absent slot : Option α}
  {rest : Fields ts} {slots : Slots ts} {r : Reading} {members : List (Reading × Reading)}

theorem storeAll_text_eq_ok_iff {slots' : Slots ts} :
    fields.storeAll slots ((.text key, r) :: members) = .ok slots' ↔
      ∃ s, fields.store slots key r = .ok s ∧ fields.storeAll s members = .ok slots' :=
  bind_eq_ok_iff

/-- A member whose key is no text stops the reading. -/
theorem storeAll_ne_ok {k : Reading} (hk : ∀ key, k ≠ .text key) (slots' : Slots ts) :
    fields.storeAll slots ((k, r) :: members) ≠ .ok slots' := by
  rw [storeAll.eq_3 _ _ _ _ fun key r h => hk key (Prod.ext_iff.mp h).1]
  exact fun h => nomatch h

theorem store_vacant_eq_ok_iff {slots' : Slots (α :: ts)} :
    (cons name codec absent rest).store (held none slots) name r = .ok slots' ↔
      ∃ x, codec.read r = .ok x ∧ held (some x) slots = slots' := by
  have hstore : (cons name codec absent rest).store (held none slots) name r =
      codec.read r >>= fun x => .ok (held (some x) slots) := if_pos rfl
  rw [hstore, bind_eq_ok_iff]
  simp

theorem store_taken_ne_ok {x : α} (slots' : Slots (α :: ts)) :
    (cons name codec absent rest).store (held (some x) slots) name r ≠ .ok slots' := by
  have hstore : (cons name codec absent rest).store (held (some x) slots) name r =
      .error (.mismatch s!"duplicate field `{name}`") := if_pos rfl
  rw [hstore]
  exact fun h => nomatch h

theorem store_other_eq_ok_iff (h : key ≠ name) {slots' : Slots (α :: ts)} :
    (cons name codec absent rest).store (held slot slots) key r = .ok slots' ↔
      ∃ s, rest.store slots key r = .ok s ∧ held slot s = slots' := by
  have hstore : (cons name codec absent rest).store (held slot slots) key r =
      rest.store slots key r >>= fun s => .ok (held slot s) := if_neg h
  rw [hstore, bind_eq_ok_iff]
  simp

end Members

/-- Past the last field a member has only to be JSON. -/
theorem storeAll_nil_eq_ok_iff {members : List (Reading × Reading)} {slots slots' : Slots []} :
    nil.storeAll slots members = .ok slots' ↔
      ∀ m ∈ members, (∃ key, m.1 = .text key) ∧ m.2.isWhole := by
  induction members generalizing slots with
  | nil => exact iff_of_true rfl fun m hm => nomatch hm
  | cons m rest ih =>
    obtain ⟨k, r⟩ := m
    rw [List.forall_mem_cons]
    by_cases hk : ∃ key, k = .text key
    · obtain ⟨key, rfl⟩ := hk
      rw [storeAll_text_eq_ok_iff]
      constructor
      · rintro ⟨s, hs, hrest⟩
        obtain ⟨u, hu, -⟩ := bind_eq_ok_iff.mp hs
        exact ⟨⟨⟨key, rfl⟩, skip_eq_ok_iff.mp hu⟩, ih.mp hrest⟩
      · rintro ⟨⟨-, hr⟩, hrest⟩
        exact ⟨slots, bind_eq_ok_iff.mpr ⟨(), skip_eq_ok_iff.mpr hr, rfl⟩, ih.mpr hrest⟩
    · exact iff_of_false (storeAll_ne_ok (fun key h => hk ⟨key, h⟩) _) fun h => hk h.1.1

/-- **A field gets the one value given under its name**, and the other members go to the fields
after it. -/
theorem storeAll_cons_eq_ok_iff {name : String} {codec : Codec α} {absent : Option α}
    {rest : Fields ts} {slot slot' : Option α} {slots slots' : Slots ts}
    {members : List (Reading × Reading)} :
    (cons name codec absent rest).storeAll (held slot slots) members = .ok (held slot' slots') ↔
      Filled codec slot (named name members) slot' ∧
        rest.storeAll slots (others name members) = .ok slots' := by
  induction members generalizing slot slots with
  | nil =>
    constructor
    · intro h
      obtain ⟨rfl, rfl⟩ := Prod.ext_iff.mp (Except.ok.inj h)
      exact ⟨rfl, rfl⟩
    · rintro ⟨rfl, h⟩
      exact congrArg (fun s => Except.ok (held slot' s)) (Except.ok.inj h)
  | cons m members ih =>
    obtain ⟨k, r⟩ := m
    by_cases hk : ∃ key, k = .text key
    · obtain ⟨key, rfl⟩ := hk
      rw [storeAll_text_eq_ok_iff, named, others]
      by_cases hkey : key = name
      · subst hkey
        rw [if_pos rfl, if_pos rfl]
        cases slot with
        | none =>
          simp only [store_vacant_eq_ok_iff, filled_vacant_iff]
          constructor
          · rintro ⟨_, ⟨x, hx, rfl⟩, hall⟩
            obtain ⟨hfilled, hrest⟩ := ih.mp hall
            exact ⟨⟨x, hx, hfilled⟩, hrest⟩
          · rintro ⟨⟨x, hx, hfilled⟩, hrest⟩
            exact ⟨_, ⟨x, hx, rfl⟩, ih.mpr ⟨hfilled, hrest⟩⟩
        | some x =>
          exact iff_of_false (fun ⟨s, hs, _⟩ => store_taken_ne_ok s hs)
            fun ⟨hfilled, _⟩ => not_filled_taken hfilled
      · rw [if_neg hkey, if_neg hkey, storeAll_text_eq_ok_iff]
        simp only [store_other_eq_ok_iff hkey]
        constructor
        · rintro ⟨_, ⟨s, hs, rfl⟩, hall⟩
          obtain ⟨hfilled, hrest⟩ := ih.mp hall
          exact ⟨hfilled, s, hs, hrest⟩
        · rintro ⟨hfilled, s, hs, hrest⟩
          exact ⟨_, ⟨s, hs, rfl⟩, ih.mpr ⟨hfilled, hrest⟩⟩
    · have hne : ∀ key, k ≠ .text key := fun key h => hk ⟨key, h⟩
      rw [others.eq_3 _ _ _ fun key r h => hne key (Prod.ext_iff.mp h).1]
      exact iff_of_false (storeAll_ne_ok hne _) fun h => storeAll_ne_ok hne _ h.2

/-! ### A whole object, a whole list -/

/-- Reads the fields from the members of an object. -/
def readMembers (fields : Fields ts) (members : List (Reading × Reading)) :
    Except Fault (Values ts) := do
  fields.close (← fields.storeAll (vacant ts) members)

/-- The value of a field: the one value given under its name, or what stands for none. -/
def Given (codec : Codec α) (absent : Option α) : List Reading → α → Prop
  | [], x => absent = some x
  | [r], x => codec.read r = .ok x
  | _ :: _ :: _, _ => False

theorem given_none_iff {codec : Codec α} {given : List Reading} {x : α} :
    Given codec none given x ↔ ∃ r, given = [r] ∧ codec.read r = .ok x := by
  match given with
  | [] => simp [Given]
  | [r] => simp [Given]
  | _ :: _ :: _ => simp [Given]

theorem exists_filled_iff {codec : Codec α} {absent : Option α} {given : List Reading} {x : α} :
    (∃ slot, Filled codec none given slot ∧ slot.or absent = some x) ↔
      Given codec absent given x := by
  match given with
  | [] => simp [Filled, Given]
  | [r] => simp [Filled, Given]
  | _ :: _ :: _ => simp [Filled, Given]

theorem readMembers_nil_eq_ok_iff {members : List (Reading × Reading)} {vs : Values []} :
    nil.readMembers members = .ok vs ↔
      ∀ m ∈ members, (∃ key, m.1 = .text key) ∧ m.2.isWhole := by
  rw [readMembers, bind_eq_ok_iff]
  constructor
  · rintro ⟨slots, hslots, -⟩
    exact storeAll_nil_eq_ok_iff.mp hslots
  · exact fun h => ⟨(), storeAll_nil_eq_ok_iff.mpr h, rfl⟩

section
variable {name : String} {codec : Codec α} {absent : Option α} {rest : Fields ts} {x : α}
  {xs : Values ts}

theorem close_cons_eq_ok_iff {slot : Option α} {slots : Slots ts} :
    (cons name codec absent rest).close (held slot slots) = .ok (pair x xs) ↔
      slot.or absent = some x ∧ rest.close slots = .ok xs := by
  have hpair (y : α) : (rest.close slots >>= fun ys => .ok (pair y ys)) = .ok (pair x xs) ↔
      some y = some x ∧ rest.close slots = .ok xs := by
    rw [bind_eq_ok_iff, Option.some.injEq]
    constructor
    · rintro ⟨ys, hys, h⟩
      obtain ⟨rfl, rfl⟩ := Prod.ext_iff.mp (Except.ok.inj h)
      exact ⟨rfl, hys⟩
    · rintro ⟨rfl, hxs⟩
      exact ⟨xs, hxs, rfl⟩
  cases slot with
  | some y => exact hpair y
  | none =>
    cases absent with
    | some y => exact hpair y
    | none => exact iff_of_false (fun h => nomatch h) fun h => nomatch h.1

/-- **A field of an object is the one value under its name.** -/
theorem readMembers_cons_eq_ok_iff {members : List (Reading × Reading)} :
    (cons name codec absent rest).readMembers members = .ok (pair x xs) ↔
      Given codec absent (named name members) x ∧
        rest.readMembers (others name members) = .ok xs := by
  rw [readMembers, readMembers, bind_eq_ok_iff, bind_eq_ok_iff, ← exists_filled_iff]
  constructor
  · rintro ⟨⟨slot, slots⟩, hstore, hclose⟩
    obtain ⟨hfilled, hrest⟩ := storeAll_cons_eq_ok_iff.mp hstore
    obtain ⟨hslot, hxs⟩ := close_cons_eq_ok_iff.mp hclose
    exact ⟨⟨slot, hfilled, hslot⟩, slots, hrest, hxs⟩
  · rintro ⟨⟨slot, hfilled, hslot⟩, slots, hrest, hxs⟩
    exact ⟨held slot slots, storeAll_cons_eq_ok_iff.mpr ⟨hfilled, hrest⟩,
      close_cons_eq_ok_iff.mpr ⟨hslot, hxs⟩⟩

/-- A field of a list is the value at its place. -/
theorem readInOrder_cons_eq_ok_iff {expected : String} {seen : Nat} {items : List Reading} :
    (cons name codec absent rest).readInOrder expected seen items = .ok (pair x xs) ↔
      ∃ r left, items = r :: left ∧ codec.read r = .ok x ∧
        rest.readInOrder expected (seen + 1) left = .ok xs := by
  cases items with
  | nil => exact iff_of_false (fun h => nomatch h) fun ⟨r, left, h, _⟩ => nomatch h
  | cons r left =>
    have hread : (cons name codec absent rest).readInOrder expected seen (r :: left) =
        codec.read r >>= fun y => rest.readInOrder expected (seen + 1) left >>= fun ys =>
          .ok (pair y ys) := rfl
    rw [hread, bind_eq_ok_iff]
    constructor
    · rintro ⟨y, hy, h⟩
      obtain ⟨ys, hys, h⟩ := bind_eq_ok_iff.mp h
      obtain ⟨rfl, rfl⟩ := Prod.ext_iff.mp (Except.ok.inj h)
      exact ⟨r, left, rfl, hy, hys⟩
    · rintro ⟨_, _, ⟨rfl, rfl⟩, hx, hxs⟩
      exact ⟨x, hx, bind_eq_ok_iff.mpr ⟨xs, hxs, rfl⟩⟩

end

theorem readInOrder_nil_eq_ok_iff {expected : String} {seen : Nat} {items : List Reading}
    {vs : Values []} : nil.readInOrder expected seen items = .ok vs ↔ items = [] := by
  cases items with
  | nil => exact iff_of_true rfl rfl
  | cons r rest => exact iff_of_false (fun h => nomatch h) (List.cons_ne_nil r rest)

/-- Each field is given its value by the members, and the members that are left are JSON. -/
def Gathered : {ts : List Type} → Fields ts → List (Reading × Reading) → Values ts → Prop
  | _, .nil, members, _ => ∀ m ∈ members, (∃ key, m.1 = .text key) ∧ m.2.isWhole
  | _, .cons name codec absent rest, members, (x, xs) =>
    Given codec absent (named name members) x ∧ rest.Gathered (others name members) xs

theorem readMembers_eq_ok_iff {fields : Fields ts} {members : List (Reading × Reading)}
    {vs : Values ts} : fields.readMembers members = .ok vs ↔ fields.Gathered members vs := by
  induction fields generalizing members with
  | nil => exact readMembers_nil_eq_ok_iff
  | cons name codec absent rest ih =>
    obtain ⟨x, xs⟩ := vs
    exact readMembers_cons_eq_ok_iff.trans (and_congr_right' ih)

/-- The items are the values of the fields, one for each of them. -/
def Ordered : {ts : List Type} → Fields ts → List Reading → Values ts → Prop
  | _, .nil, items, _ => items = []
  | _, .cons _ codec _ rest, items, (x, xs) =>
    ∃ r left, items = r :: left ∧ codec.read r = .ok x ∧ rest.Ordered left xs

theorem readInOrder_eq_ok_iff {fields : Fields ts} {expected : String} {seen : Nat}
    {items : List Reading} {vs : Values ts} :
    fields.readInOrder expected seen items = .ok vs ↔ fields.Ordered items vs := by
  induction fields generalizing seen items with
  | nil => exact readInOrder_nil_eq_ok_iff
  | cons name codec absent rest ih =>
    obtain ⟨x, xs⟩ := vs
    refine readInOrder_cons_eq_ok_iff.trans ?_
    exact exists₂_congr fun r left => and_congr_right' (and_congr_right' ih)

end Fields

/-- **A record is an object of its fields, or a list of them.** -/
theorem record_read_eq_ok_iff {ts : List Type} {name : String} {fields : Fields ts}
    {ofValues : Values ts → α} {toValues : α → Values ts} {r : Reading} {a : α} :
    (record name fields ofValues toValues).read r = .ok a ↔
      ∃ vs, ofValues vs = a ∧
        ((∃ members, r = .object members ∧ fields.Gathered members vs) ∨
          ∃ items, r = .array items ∧ fields.Ordered items vs) := by
  cases r with
  | object members =>
    have hread : (record name fields ofValues toValues).read (.object members) =
        fields.readMembers members >>= fun vs => .ok (ofValues vs) :=
      (bind_assoc ..).symm
    rw [hread, bind_eq_ok_iff]
    simp [Fields.readMembers_eq_ok_iff, and_comm]
  | array items =>
    have hread : (record name fields ofValues toValues).read (.array items) =
        fields.readInOrder s!"struct {name} with {fields.count} elements" 0 items >>= fun vs =>
          .ok (ofValues vs) := rfl
    rw [hread, bind_eq_ok_iff]
    simp [Fields.readInOrder_eq_ok_iff, and_comm]
  | _ => exact iff_of_false (wrongType_ne_ok _ _ _) (by simp)

/-- A text is read as the value at its head, with nothing but blanks behind it. -/
theorem ofBytes_eq_ok_iff {c : Codec α} {bytes : Bytes} {x : α} :
    c.ofBytes bytes = .ok x ↔ c.read (Reading.ofBytes bytes).1 = .ok x ∧
      ∃ rest, (Reading.ofBytes bytes).2 = some rest ∧ Reading.skipSpace rest = [] := by
  rw [ofBytes]
  rcases Reading.ofBytes bytes with ⟨r, rest⟩
  rw [ofStep, bind_eq_ok_iff]
  cases rest with
  | none => exact iff_of_false (fun ⟨_, _, h⟩ => nomatch h) fun ⟨_, _, h, _⟩ => nomatch h
  | some rest =>
    simp only [List.isEmpty_iff]
    constructor
    · rintro ⟨y, hy, h⟩
      split at h
      · next hrest =>
        obtain rfl := Except.ok.inj h
        exact ⟨hy, rest, rfl, hrest⟩
      · cases h
    · rintro ⟨hx, _, ⟨⟩, hrest⟩
      exact ⟨x, hx, if_pos hrest⟩

end Codec

end Attest.Json
