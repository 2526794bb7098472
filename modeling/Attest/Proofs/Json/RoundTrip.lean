import Attest.Proofs.Json.Record
import Attest.Proofs.Json.Spelling

/-! Values that are read back from what they are written as.

`Codec.Restores c x` says that of one value. A list is restored when its elements are
(`Restores.list`), and a record when its fields have different names and each of them is
(`Restores.record`); and what is restored is restored from its text as well, on one line or on
many, as characters or as bytes (`Restores.roundTrips`). -/
namespace Attest.Json.Codec
open Reading
variable {α β : Type} {c : Codec α} {x : α}

/-- The value can be written, and is read back from what is written. -/
structure Restores (c : Codec α) (x : α) : Prop where
  inRange : (ofJson (c.write x)).InRange
  read_write : c.read (ofJson (c.write x)) = .ok x

/-- A text is read as its bytes are. -/
theorem ofBytes_ofText (c : Codec α) (s : String) :
    c.ofBytes (Bytes.ofText s.toList) = c.ofText s := by
  rw [ofBytes, Reading.ofBytes_ofText, ofText]

/-- The value is read back from its text on one line and on many, as characters and as bytes. -/
structure RoundTrips (c : Codec α) (x : α) : Prop where
  render : c.ofText (c.write x).render = .ok x
  pretty : c.ofText (c.write x).pretty = .ok x
  renderBytes : c.ofBytes (Bytes.ofText (c.write x).render.toList) = .ok x
  prettyBytes : c.ofBytes (Bytes.ofText (c.write x).pretty.toList) = .ok x

namespace Restores

theorem ofPrefix_render (h : c.Restores x) :
    c.ofPrefix (Bytes.ofText (c.write x).render.toList) = .ok x := by
  rw [ofPrefix, ofBytes_render h.inRange, h.read_write]

theorem ofBytes_pretty (h : c.Restores x) :
    c.ofBytes (Bytes.ofText (c.write x).pretty.toList) = .ok x := by
  rw [Codec.ofBytes_pretty c h.inRange, h.read_write]

/-- **What is restored is restored from its text.** -/
theorem roundTrips (h : c.Restores x) : c.RoundTrips x := by
  have hrender : c.ofText (c.write x).render = .ok x :=
    (Codec.ofText_render c h.inRange).trans h.read_write
  have hpretty := h.ofBytes_pretty
  exact ⟨hrender, (c.ofBytes_ofText _).symm.trans hpretty, (c.ofBytes_ofText _).trans hrender,
    hpretty⟩

theorem text (s : String) : text.Restores s := ⟨.text s, rfl⟩

theorem bool (b : Bool) : bool.Restores b := ⟨.bool b, rfl⟩

theorem byte (b : UInt8) : byte.Restores b := by
  refine ⟨.natural (Nat.lt_trans b.toNat_lt (by decide)), ?_⟩
  have hread : (Codec.natural 256 "u8").read (.natural b.toNat) = .ok b.toNat := if_pos b.toNat_lt
  show ((Codec.natural 256 "u8").read (.natural b.toNat)).map UInt8.ofNat = .ok b
  rw [hread]
  exact congrArg Except.ok UInt8.ofNat_toNat

theorem natural {bound n : Nat} (name : String) (hn : n < bound) (hbound : bound ≤ UInt64.size) :
    (natural bound name).Restores n :=
  ⟨.natural (Nat.lt_of_lt_of_le hn hbound), if_pos hn⟩

theorem list {xs : List α} (h : ∀ x ∈ xs, c.Restores x) : c.list.Restores xs := by
  refine ⟨ofJson_array_inRange (List.forall_mem_map.mpr fun x hx => (h x hx).inRange), ?_⟩
  have hitems : ofJson (c.list.write xs) = .array ((xs.map c.write).map ofJson) :=
    congrArg Reading.array (ofItems_eq _)
  rw [hitems, list_read_eq_ok_iff]
  refine ⟨_, rfl, ?_⟩
  induction xs with
  | nil => exact .nil
  | cons x rest ih =>
    have hrest := ih (fun y hy => h y (List.mem_cons_of_mem _ hy))
      (congrArg Reading.array (ofItems_eq _))
    exact .cons (h x List.mem_cons_self).read_write hrest

end Restores

/-! ### Records -/

namespace Fields
variable {ts : List Type}

/-- The names of the fields in order. -/
def names : {ts : List Type} → Fields ts → List String
  | _, nil => []
  | _, cons name _ _ rest => name :: rest.names

/-- Each field's value is restored. -/
def Restores : {ts : List Type} → Fields ts → Values ts → Prop
  | _, nil, _ => True
  | _, cons _ codec _ rest, (x, xs) => codec.Restores x ∧ rest.Restores xs

theorem mem_write {fields : Fields ts} {xs : Values ts} (h : fields.Restores xs) :
    ∀ m ∈ fields.write xs, m.1 ∈ fields.names ∧ (ofJson m.2).InRange := by
  induction fields with
  | nil => exact fun m hm => nomatch hm
  | cons name codec absent rest ih =>
    obtain ⟨x, xs⟩ := xs
    intro m hm
    rcases List.mem_cons.mp hm with rfl | hm
    · exact ⟨List.mem_cons_self, h.1.inRange⟩
    · have hrest := ih h.2 m hm
      exact ⟨List.mem_cons_of_mem _ hrest.1, hrest.2⟩

/-- Members under other names are passed by. -/
theorem named_ofMembers {name : String} {members : List (String × Json)}
    (h : ∀ m ∈ members, m.1 ≠ name) :
    named name (ofMembers members) = [] ∧ others name (ofMembers members) = ofMembers members := by
  induction members with
  | nil => exact ⟨rfl, rfl⟩
  | cons m rest ih =>
    obtain ⟨hnamed, hothers⟩ := ih fun m hm => h m (List.mem_cons_of_mem _ hm)
    have hm := h m List.mem_cons_self
    rw [ofMembers, named, others, if_neg hm, if_neg hm, hnamed, hothers]
    exact ⟨rfl, rfl⟩

/-- Fields of different names are gathered from what they are written as. -/
theorem gathered_write {fields : Fields ts} {xs : Values ts} (hnames : fields.names.Nodup)
    (h : fields.Restores xs) : fields.Gathered (ofMembers (fields.write xs)) xs := by
  induction fields with
  | nil => exact fun m hm => nomatch hm
  | cons name codec absent rest ih =>
    obtain ⟨x, xs⟩ := xs
    obtain ⟨hname, hrest⟩ := List.nodup_cons.mp hnames
    have hother : ∀ m ∈ rest.write xs, m.1 ≠ name := by
      rintro m hm rfl
      exact hname (mem_write h.2 m hm).1
    obtain ⟨hnamed, hothers⟩ := named_ofMembers hother
    rw [Gathered, write, ofMembers, named, others, if_pos rfl, if_pos rfl, hnamed, hothers]
    exact ⟨h.1.read_write, ih hrest h.2⟩

/-- A member that is no field is passed by. -/
theorem Gathered.passing {fields : Fields ts} {vs : Values ts} {key : String} {r : Reading}
    {members : List (Reading × Reading)} (hkey : key ∉ fields.names) (hr : r.isWhole)
    (h : fields.Gathered members vs) : fields.Gathered ((.text key, r) :: members) vs := by
  induction fields generalizing members with
  | nil => exact List.forall_mem_cons.mpr ⟨⟨⟨key, rfl⟩, hr⟩, h⟩
  | cons name codec absent rest ih =>
    obtain ⟨x, xs⟩ := vs
    rw [names, List.mem_cons, not_or] at hkey
    obtain ⟨hne, hrest⟩ := hkey
    obtain ⟨hx, hxs⟩ := h
    rw [Gathered, named, others, if_neg hne, if_neg hne]
    exact ⟨hx, ih hrest hxs⟩

end Fields

/-- **A record is restored when its fields are and have different names.** -/
theorem Restores.record {ts : List Type} {fields : Fields ts} {ofValues : Values ts → α}
    {toValues : α → Values ts} (name : String) (hnames : fields.names.Nodup)
    (hvalues : ofValues (toValues x) = x) (hfields : fields.Restores (toValues x)) :
    (record name fields ofValues toValues).Restores x where
  inRange := ofJson_object_inRange fun m hm => (Fields.mem_write hfields m hm).2
  read_write := record_read_eq_ok_iff.mpr
    ⟨_, hvalues, .inl ⟨_, rfl, Fields.gathered_write hnames hfields⟩⟩

end Attest.Json.Codec
