import Attest.Json.Codec
import Attest.Proofs.Json.Token

/-! Reading undoes writing.

`Spelled j cs` is the notation of a value, blanks and all: `cs` is a text of `j` with blanks
wherever they may stand. Whatever spells a value is read as that value, and what comes after it
is left (`Reading.value_spelled`); and what `Json.render` writes spells the value
(`Json.render_spelled`). -/
namespace Attest.Json

namespace Reading

/-! ### What a written value is read as -/

mutual

/-- The value as a reader meets it. -/
def ofJson : Json → Reading
  | .null => .null
  | .bool b => .bool b
  | .natural n => .natural n
  | .text s => .text s
  | .array items => .array (ofItems items)
  | .object members => .object (ofMembers members)

def ofItems : List Json → List Reading
  | [] => []
  | item :: rest => ofJson item :: ofItems rest

def ofMembers : List (String × Json) → List (Reading × Reading)
  | [] => []
  | (key, item) :: rest => (.text key, ofJson item) :: ofMembers rest

end

theorem ofItems_eq (items : List Json) : ofItems items = items.map ofJson := by
  induction items with
  | nil => rfl
  | cons item rest ih => rw [ofItems, ih, List.map_cons]

theorem ofMembers_eq (members : List (String × Json)) :
    ofMembers members = members.map fun m => (.text m.1, ofJson m.2) := by
  induction members with
  | nil => rfl
  | cons m rest ih => rw [ofMembers, ih, List.map_cons]

theorem ofJson_natural_inRange {n : Nat} (h : n < UInt64.size) : (ofJson (.natural n)).InRange :=
  .natural h

theorem ofJson_array_inRange {items : List Json} (h : ∀ j ∈ items, (ofJson j).InRange) :
    (ofJson (.array items)).InRange := by
  rw [ofJson, ofItems_eq]
  exact .array (List.forall_mem_map.mpr h)

theorem ofJson_object_inRange {members : List (String × Json)}
    (h : ∀ m ∈ members, (ofJson m.2).InRange) : (ofJson (.object members)).InRange := by
  rw [ofJson, ofMembers_eq]
  exact .object (List.forall_mem_map.mpr fun m _ => .text m.1) (List.forall_mem_map.mpr h)

end Reading

/-! ### The notation -/

mutual

/-- The characters are a text of the value, perhaps with blanks in front. -/
inductive Spelled : Json → List Char → Prop
  | blank {c j cs} : Reading.isSpace c → Spelled j cs → Spelled j (c :: cs)
  | null : Spelled .null ['n', 'u', 'l', 'l']
  | bool (b) : Spelled (.bool b) (ofBool b)
  | natural {n} : n < UInt64.size → Spelled (.natural n) (Nat.toDigits 10 n)
  | text (s) : Spelled (.text s) (quote s)
  | noItems {b} : Blank b → Spelled (.array []) ('[' :: (b ++ [']']))
  | array {items cs} : SpelledItems items cs → Spelled (.array items) ('[' :: cs)
  | noMembers {b} : Blank b → Spelled (.object []) ('\x7b' :: (b ++ ['\x7d']))
  | object {members cs} : SpelledMembers members cs → Spelled (.object members) ('\x7b' :: cs)

/-- The characters are texts of the elements up to the closing bracket. -/
inductive SpelledItems : List Json → List Char → Prop
  | last {j t b} : Spelled j t → Blank b → SpelledItems [j] (t ++ b ++ [']'])
  | more {j t b js u} : Spelled j t → Blank b → SpelledItems js u →
      SpelledItems (j :: js) (t ++ b ++ ',' :: u)

/-- The characters are texts of the members up to the closing brace. -/
inductive SpelledMembers : List (String × Json) → List Char → Prop
  | last {key s a j t b} : Spelled (.text key) s → Blank a → Spelled j t → Blank b →
      SpelledMembers [(key, j)] (s ++ a ++ ':' :: (t ++ b ++ ['\x7d']))
  | more {key s a j t b ms u} : Spelled (.text key) s → Blank a → Spelled j t → Blank b →
      SpelledMembers ms u →
      SpelledMembers ((key, j) :: ms) (s ++ a ++ ':' :: (t ++ b ++ ',' :: u))

end

namespace Reading

/-- A value opens with a character that closes nothing. -/
theorem spelled_head {j : Json} {cs : List Char} : Spelled j cs → ∀ rest,
    ∃ c t, skipSpace (cs ++ rest) = c :: t ∧ c ≠ ']' ∧ c ≠ '\x7d'
  | .blank hc h, rest => by
    obtain ⟨c, t, ht, hne⟩ := spelled_head h rest
    exact ⟨c, t, (List.dropWhile_cons_of_pos hc).trans ht, hne⟩
  | .null, rest => ⟨_, _, rfl, by decide⟩
  | .bool true, rest => ⟨_, _, rfl, by decide⟩
  | .bool false, rest => ⟨_, _, rfl, by decide⟩
  | .natural (n := n) _, rest => by
    obtain ⟨c, ds, hds⟩ := List.exists_cons_of_ne_nil (Nat.toDigits_ne_nil (n := n) (b := 10))
    have hc : isDigit c := isDigit_of_mem_toDigits (hds ▸ List.mem_cons_self)
    rw [hds]
    exact ⟨c, ds ++ rest, skipSpace_cons (not_isSpace_of_isDigit hc) _, ne_of_isDigit hc rfl,
      ne_of_isDigit hc rfl⟩
  | .text s, rest => ⟨_, _, rfl, by decide⟩
  | .noItems _, rest => ⟨_, _, rfl, by decide⟩
  | .array _, rest => ⟨_, _, rfl, by decide⟩
  | .noMembers _, rest => ⟨_, _, rfl, by decide⟩
  | .object _, rest => ⟨_, _, rfl, by decide⟩

theorem items_head {js : List Json} {cs : List Char} (h : SpelledItems js cs) (rest : List Char) :
    ∃ c t, skipSpace (cs ++ rest) = c :: t ∧ c ≠ ']' := by
  cases h with
  | last h hb =>
    simp only [List.append_assoc]
    obtain ⟨c, t, ht, hne, -⟩ := spelled_head h _
    exact ⟨c, t, ht, hne⟩
  | more h hb _ =>
    simp only [List.append_assoc]
    obtain ⟨c, t, ht, hne, -⟩ := spelled_head h _
    exact ⟨c, t, ht, hne⟩

theorem members_head {ms : List (String × Json)} {cs : List Char} (h : SpelledMembers ms cs)
    (rest : List Char) : ∃ c t, skipSpace (cs ++ rest) = c :: t ∧ c ≠ '\x7d' := by
  cases h with
  | last h hb =>
    simp only [List.append_assoc]
    obtain ⟨c, t, ht, -, hne⟩ := spelled_head h _
    exact ⟨c, t, ht, hne⟩
  | more h hb _ =>
    simp only [List.append_assoc]
    obtain ⟨c, t, ht, -, hne⟩ := spelled_head h _
    exact ⟨c, t, ht, hne⟩

theorem value_bracket (gap : Option Char) (fuel : Nat) (cs : List Char) :
    value gap (fuel + 1) ('[' :: cs) =
      match skipSpace cs with
      | ']' :: rest => (.array [], some rest)
      | rest => (.array (items gap fuel rest).1, (items gap fuel rest).2) := rfl

theorem value_brace (gap : Option Char) (fuel : Nat) (cs : List Char) :
    value gap (fuel + 1) ('\x7b' :: cs) =
      match skipSpace cs with
      | '\x7d' :: rest => (.object [], some rest)
      | rest => (.object (members gap fuel rest).1, (members gap fuel rest).2) := rfl

theorem value_array (gap : Option Char) (fuel : Nat) {cs : List Char}
    (h : ∃ c t, skipSpace cs = c :: t ∧ c ≠ ']') : value gap (fuel + 1) ('[' :: cs) =
      (.array (items gap fuel cs).1, (items gap fuel cs).2) := by
  obtain ⟨c, t, ht, hne⟩ := h
  rw [← items_skipSpace, value_bracket, ht]
  split
  · next h => exact absurd (List.cons.inj h).1 hne
  · rfl

theorem value_object (gap : Option Char) (fuel : Nat) {cs : List Char}
    (h : ∃ c t, skipSpace cs = c :: t ∧ c ≠ '\x7d') : value gap (fuel + 1) ('\x7b' :: cs) =
      (.object (members gap fuel cs).1, (members gap fuel cs).2) := by
  obtain ⟨c, t, ht, hne⟩ := h
  rw [← members_skipSpace, value_brace, ht]
  split
  · next h => exact absurd (List.cons.inj h).1 hne
  · rfl

section Steps
variable {gap : Option Char} {fuel : Nat} {cs t u rest : List Char} {key r : Reading}

theorem items_last (hvalue : value gap fuel cs = (r, some t)) (ht : skipSpace t = ']' :: rest) :
    items gap (fuel + 1) cs = ([r], some rest) := by
  rw [items, hvalue]
  simp only [ht]

theorem items_more (hvalue : value gap fuel cs = (r, some t)) (ht : skipSpace t = ',' :: rest) :
    items gap (fuel + 1) cs = (r :: (items gap fuel rest).1, (items gap fuel rest).2) := by
  rw [items, hvalue]
  simp only [ht]

theorem members_last (hkey : value gap fuel cs = (key, some t)) (ht : skipSpace t = ':' :: u)
    (hvalue : value gap fuel u = (r, some v)) (hv : skipSpace v = '\x7d' :: rest) :
    members gap (fuel + 1) cs = ([(key, r)], some rest) := by
  rw [members, hkey]
  simp only [ht, hvalue, hv]

theorem members_more (hkey : value gap fuel cs = (key, some t)) (ht : skipSpace t = ':' :: u)
    (hvalue : value gap fuel u = (r, some v)) (hv : skipSpace v = ',' :: rest) :
    members gap (fuel + 1) cs =
      ((key, r) :: (members gap fuel rest).1, (members gap fuel rest).2) := by
  rw [members, hkey]
  simp only [ht, hvalue, hv]

end Steps

mutual

/-- **Whatever spells a value is read as that value**, and what comes after it is left. -/
theorem value_spelled {j : Json} {cs : List Char} : Spelled j cs → ∀ (fuel : Nat)
    (rest : List Char), cs.length < fuel → Ends rest →
      value none fuel (cs ++ rest) = (ofJson j, some rest)
  | _, 0, _, h, _ => absurd h (Nat.not_lt_zero _)
  | .blank hc h, fuel + 1, rest, hfuel, hrest => by
    rw [List.cons_append, value_blank hc]
    exact value_spelled h (fuel + 1) rest (Nat.lt_of_succ_lt hfuel) hrest
  | .null, _ + 1, _, _, _ => rfl
  | .bool true, _ + 1, _, _, _ => rfl
  | .bool false, _ + 1, _, _, _ => rfl
  | .natural hn, fuel + 1, rest, _, hrest => value_toDigits hn fuel hrest
  | .text s, fuel + 1, rest, _, _ => value_quote s fuel rest
  | .noItems hb, fuel + 1, rest, _, _ => by
    rw [List.cons_append, List.append_assoc, List.singleton_append, value_bracket,
      skipSpace_stop hb rfl]
    rfl
  | .array h, fuel + 1, rest, hfuel, _ => by
    rw [List.cons_append, value_array none fuel (items_head h rest),
      items_spelled h fuel rest (Nat.lt_of_succ_lt_succ hfuel), ofJson]
  | .noMembers hb, fuel + 1, rest, _, _ => by
    rw [List.cons_append, List.append_assoc, List.singleton_append, value_brace,
      skipSpace_stop hb rfl]
    rfl
  | .object h, fuel + 1, rest, hfuel, _ => by
    rw [List.cons_append, value_object none fuel (members_head h rest),
      members_spelled h fuel rest (Nat.lt_of_succ_lt_succ hfuel), ofJson]

theorem items_spelled {js : List Json} {cs : List Char} : SpelledItems js cs → ∀ (fuel : Nat)
    (rest : List Char), cs.length < fuel →
      items none fuel (cs ++ rest) = (ofItems js, some rest)
  | _, 0, _, h => absurd h (Nat.not_lt_zero _)
  | .last h hb, fuel + 1, rest, hfuel => by
    simp only [List.length_append, List.length_singleton] at hfuel
    have hvalue := value_spelled h fuel _ (by omega)
      (ends_blank hb (ends_cons (c := ']') (by decide) rest))
    rw [List.append_assoc, List.append_assoc, List.singleton_append,
      items_last hvalue (skipSpace_stop hb rfl rest), ofItems, ofItems]
  | .more (u := u) h hb hmore, fuel + 1, rest, hfuel => by
    simp only [List.length_append, List.length_cons] at hfuel
    have hvalue := value_spelled h fuel _ (by omega)
      (ends_blank hb (ends_cons (c := ',') (by decide) (u ++ rest)))
    rw [List.append_assoc, List.append_assoc, List.cons_append,
      items_more hvalue (skipSpace_stop hb rfl _), items_spelled hmore fuel rest (by omega),
      ofItems]

theorem members_spelled {ms : List (String × Json)} {cs : List Char} : SpelledMembers ms cs →
    ∀ (fuel : Nat) (rest : List Char), cs.length < fuel →
      members none fuel (cs ++ rest) = (ofMembers ms, some rest)
  | _, 0, _, h => absurd h (Nat.not_lt_zero _)
  | .last (t := t) (b := b) hkey ha h hb, fuel + 1, rest, hfuel => by
    simp only [List.length_append, List.length_cons, List.length_nil] at hfuel
    have hname := value_spelled hkey fuel _ (by omega)
      (ends_blank ha (ends_cons (c := ':') (by decide) (t ++ (b ++ '\x7d' :: rest))))
    have hvalue := value_spelled h fuel _ (by omega)
      (ends_blank hb (ends_cons (c := '\x7d') (by decide) rest))
    simp only [List.append_assoc, List.cons_append, List.nil_append]
    rw [members_last hname (skipSpace_stop ha rfl _) hvalue (skipSpace_stop hb rfl rest),
      ofMembers, ofMembers, ofJson]
  | .more (t := t) (b := b) (u := u) hkey ha h hb hmore, fuel + 1, rest, hfuel => by
    simp only [List.length_append, List.length_cons] at hfuel
    have hname := value_spelled hkey fuel _ (by omega)
      (ends_blank ha (ends_cons (c := ':') (by decide) (t ++ (b ++ ',' :: (u ++ rest)))))
    have hvalue := value_spelled h fuel _ (by omega)
      (ends_blank hb (ends_cons (c := ',') (by decide) (u ++ rest)))
    simp only [List.append_assoc, List.cons_append]
    rw [members_more hname (skipSpace_stop ha rfl _) hvalue (skipSpace_stop hb rfl _),
      members_spelled hmore fuel rest (by omega), ofMembers, ofJson]

end

end Reading

/-! ### What is written -/

theorem blank_nil : Blank [] := fun _ hc => nomatch hc

mutual

/-- **What is written spells the value.** -/
theorem render_spelled : ∀ j : Json, (Reading.ofJson j).InRange → Spelled j j.renderChars
  | .null, _ => .null
  | .bool b, _ => .bool b
  | .natural n, .natural h => by
    rw [renderChars, Nat.toList_repr]
    exact .natural h
  | .text s, _ => .text s
  | .array [], _ => .noItems blank_nil
  | .array (item :: rest), .array h => .array (renderItems_spelled (item :: rest) (by simp) h)
  | .object [], _ => .noMembers blank_nil
  | .object (m :: rest), .object _ h => .object (renderMembers_spelled (m :: rest) (by simp) h)

theorem renderItems_spelled : ∀ items : List Json, items ≠ [] →
    (∀ r ∈ Reading.ofItems items, r.InRange) → SpelledItems items (renderItems items)
  | [], hne, _ => absurd rfl hne
  | [item], _, h => by
    have hitem := render_spelled item (h _ List.mem_cons_self)
    simpa [renderItems] using SpelledItems.last hitem blank_nil
  | item :: next :: rest, _, h => by
    have hitem := render_spelled item (h _ List.mem_cons_self)
    have hrest := renderItems_spelled (next :: rest) (by simp)
      fun r hr => h r (List.mem_cons_of_mem _ hr)
    simpa [renderItems] using SpelledItems.more hitem blank_nil hrest

theorem renderMembers_spelled : ∀ members : List (String × Json), members ≠ [] →
    (∀ m ∈ Reading.ofMembers members, m.2.InRange) → SpelledMembers members (renderMembers members)
  | [], hne, _ => absurd rfl hne
  | [(key, item)], _, h => by
    have hitem := render_spelled item (h _ List.mem_cons_self)
    simpa [renderMembers] using SpelledMembers.last (.text key) blank_nil hitem blank_nil
  | (key, item) :: next :: rest, _, h => by
    have hitem := render_spelled item (h _ List.mem_cons_self)
    have hrest := renderMembers_spelled (next :: rest) (by simp)
      fun m hm => h m (List.mem_cons_of_mem _ hm)
    simpa [renderMembers] using SpelledMembers.more (.text key) blank_nil hitem blank_nil hrest

end

/-- Blanks in front of a text are part of it. -/
theorem Spelled.blanks {b cs : List Char} {j : Json} (hb : Blank b) (h : Spelled j cs) :
    Spelled j (b ++ cs) := by
  induction b with
  | nil => exact h
  | cons c b ih =>
    exact .blank (hb c List.mem_cons_self) (ih fun d hd => hb d (List.mem_cons_of_mem _ hd))

theorem space_blank : Reading.isSpace ' ' := rfl

theorem line_blank (depth : Nat) : Blank (line depth) := by
  intro c hc
  rcases List.mem_cons.mp hc with rfl | hc
  · rfl
  · rw [List.eq_of_mem_replicate hc]
    rfl

mutual

/-- **What is written on many lines spells the value too.** -/
theorem pretty_spelled (depth : Nat) : ∀ j : Json, (Reading.ofJson j).InRange →
    Spelled j (j.prettyChars depth)
  | .null, _ => .null
  | .bool b, _ => .bool b
  | .natural n, .natural h => by
    rw [prettyChars, Nat.toList_repr]
    exact .natural h
  | .text s, _ => .text s
  | .array [], _ => .noItems blank_nil
  | .array (item :: rest), .array h => .array (prettyItems_spelled depth (item :: rest) (by simp) h)
  | .object [], _ => .noMembers blank_nil
  | .object (m :: rest), .object _ h =>
    .object (prettyMembers_spelled depth (m :: rest) (by simp) h)

theorem prettyItems_spelled (depth : Nat) : ∀ items : List Json, items ≠ [] →
    (∀ r ∈ Reading.ofItems items, r.InRange) → SpelledItems items (prettyItems depth items)
  | [], hne, _ => absurd rfl hne
  | [item], _, h => by
    have hitem := pretty_spelled (depth + 1) item (h _ List.mem_cons_self)
    exact .last (hitem.blanks (line_blank _)) (line_blank _)
  | item :: next :: rest, _, h => by
    have hitem := pretty_spelled (depth + 1) item (h _ List.mem_cons_self)
    have hrest := prettyItems_spelled depth (next :: rest) (by simp)
      fun r hr => h r (List.mem_cons_of_mem _ hr)
    simpa [prettyItems] using SpelledItems.more (hitem.blanks (line_blank _)) blank_nil hrest

theorem prettyMembers_spelled (depth : Nat) : ∀ members : List (String × Json), members ≠ [] →
    (∀ m ∈ Reading.ofMembers members, m.2.InRange) →
      SpelledMembers members (prettyMembers depth members)
  | [], hne, _ => absurd rfl hne
  | [(key, item)], _, h => by
    have hkey := Spelled.blanks (line_blank (depth + 1)) (.text key)
    have hitem := Spelled.blank space_blank
      (pretty_spelled (depth + 1) item (h _ List.mem_cons_self))
    simpa [prettyMembers] using SpelledMembers.last hkey blank_nil hitem (line_blank depth)
  | (key, item) :: next :: rest, _, h => by
    have hkey := Spelled.blanks (line_blank (depth + 1)) (.text key)
    have hitem := Spelled.blank space_blank
      (pretty_spelled (depth + 1) item (h _ List.mem_cons_self))
    have hrest := prettyMembers_spelled depth (next :: rest) (by simp)
      fun m hm => h m (List.mem_cons_of_mem _ hm)
    simpa [prettyMembers] using SpelledMembers.more hkey blank_nil hitem blank_nil hrest

end

namespace Reading

/-- A text of a value is read to its end. -/
theorem ofChars_spelled {j : Json} {cs : List Char} (h : Spelled j cs) :
    ofChars cs = (ofJson j, some []) := by
  have hread := value_spelled h (cs.length + 1) [] (Nat.lt_succ_self _) fun _ hc => nomatch hc
  rwa [List.append_nil] at hread

/-- The bytes of a text are read as the text is. -/
theorem ofBytes_ofText (cs : List Char) : ofBytes (Bytes.ofText cs) = ofChars cs := by
  have hbytes : (⟨(Bytes.ofText cs).toArray⟩ : ByteArray) = (String.ofList cs).toByteArray := by
    rw [String.toByteArray_ofList]
    ext1
    simp [List.utf8Encode, Bytes.ofText]
  have htext : (Bytes.ofText cs).toText? = some (String.ofList cs) := by
    rw [Bytes.toText?, hbytes]
    exact dif_pos (String.ofList cs).isValidUTF8
  rw [ofBytes, htext]
  dsimp only
  rw [String.toList_ofList]

theorem ofBytes_render {j : Json} (h : (ofJson j).InRange) :
    ofBytes (Bytes.ofText j.render.toList) = (ofJson j, some []) := by
  rw [ofBytes_ofText, Json.render, String.toList_ofList, ofChars_spelled (render_spelled j h)]

end Reading

/-! ### How long a text is -/

/-- Elements of a bounded length make a list of a bounded length. -/
theorem length_renderItems_le {n : Nat} {items : List Json}
    (h : ∀ j ∈ items, j.renderChars.length ≤ n) :
    (renderItems items).length ≤ (n + 1) * items.length + 1 := by
  induction items with
  | nil => exact Nat.le_refl _
  | cons item rest ih =>
    have hitem := h item List.mem_cons_self
    have hrest := ih fun j hj => h j (List.mem_cons_of_mem _ hj)
    cases rest with
    | nil =>
      rw [renderItems, List.length_append, List.length_singleton, List.length_singleton]
      omega
    | cons next rest =>
      rw [renderItems, List.length_append, List.length_cons, List.length_cons, Nat.mul_succ]
      · omega
      · exact List.cons_ne_nil _ _

/-- A character takes four bytes at most. -/
theorem length_ofText_le (cs : List Char) : (Bytes.ofText cs).length ≤ 4 * cs.length := by
  induction cs with
  | nil => exact Nat.le_refl _
  | cons c rest ih =>
    have hcons : Bytes.ofText (c :: rest) = String.utf8EncodeChar c ++ Bytes.ofText rest := rfl
    have := c.utf8Size_le_four
    rw [hcons, List.length_append, String.length_utf8EncodeChar, List.length_cons]
    omega

/-- Reading the text of a value comes to reading the value. -/
theorem Codec.ofText_render {α : Type} (c : Codec α) {j : Json} (h : (Reading.ofJson j).InRange) :
    c.ofText j.render = c.read (Reading.ofJson j) := by
  rw [ofText, Json.render, String.toList_ofList, Reading.ofChars_spelled (render_spelled j h),
    ofStep]
  cases c.read (Reading.ofJson j) <;> rfl

theorem Codec.ofBytes_pretty {α : Type} (c : Codec α) {j : Json} (h : (Reading.ofJson j).InRange) :
    c.ofBytes (Bytes.ofText j.pretty.toList) = c.read (Reading.ofJson j) := by
  rw [ofBytes, Reading.ofBytes_ofText, Json.pretty, String.toList_ofList,
    Reading.ofChars_spelled (pretty_spelled 0 j h), ofStep]
  cases c.read (Reading.ofJson j) <;> rfl

end Attest.Json
