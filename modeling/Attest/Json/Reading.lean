import Attest.Bytes
import Attest.Decimal.Binary64
import Attest.Text.Digits

/-! What a reader meets in a text that should be JSON.

A `Reading` is a JSON value as far as the text goes: where the text stops being
JSON the value ends in `broken`, and nothing after that place is read. Readers
of typed values walk it in the order of the text, so the first fault they meet
is the first in the text, whichever kind it is of. Two kinds of value can be
passed over but not used: numbers too large for a double, and strings whose
escapes spell half of a surrogate pair or whose bytes spell no text. -/
namespace Attest.Json

inductive Reading where
  | null
  | bool (b : Bool)
  /-- A whole number below `2 ^ 64`. -/
  | natural (n : Nat)
  /-- The negation of a positive whole number of at most `2 ^ 63`. -/
  | negative (n : Nat)
  | float (negative : Bool) (magnitude : Decimal.Binary64)
  | hugeNumber
  | text (s : String)
  | badText
  | array (items : List Reading)
  /-- Keys and values in the order of the text. -/
  | object (members : List (Reading × Reading))
  | broken
deriving Inhabited

namespace Reading

/-- What was read, and the text after it unless reading stopped inside. -/
abbrev Step (α : Type) := α × Option (List Char)

def isSpace (c : Char) : Bool := c == ' ' || c == '\n' || c == '\t' || c == '\r'

def skipSpace (cs : List Char) : List Char := cs.dropWhile isSpace

def word (rest : List Char) (value : Reading) (cs : List Char) : Step Reading :=
  if rest.isPrefixOf cs then (value, some (cs.drop rest.length)) else (.broken, none)

/-! ### Numbers -/

def isDigit (c : Char) : Bool := '0' ≤ c && c ≤ '9'

def decimal (cs : List Char) : Nat := Text.value 10 (cs.map fun c => c.toNat - 48)

/-- A number's digits and exponent, its sign apart. -/
structure Parts where
  whole : List Char
  fraction : List Char
  exponentNegative : Bool
  exponent : List Char

/-- Splits off an optional fraction, which has a digit. -/
def fraction? (cs : List Char) : Option (List Char × List Char) :=
  match cs with
  | '.' :: rest =>
    let ds := rest.takeWhile isDigit
    if ds.isEmpty then none else some (ds, rest.drop ds.length)
  | cs => some ([], cs)

/-- Splits off an optional exponent: its sign and its digits. -/
def exponent? (cs : List Char) : Option ((Bool × List Char) × List Char) :=
  let digits := fun sign (rest : List Char) =>
    let ds := rest.takeWhile isDigit
    if ds.isEmpty then none else some ((sign, ds), rest.drop ds.length)
  match cs with
  | c :: rest =>
    if c = 'e' ∨ c = 'E' then
      match rest with
      | '+' :: rest => digits false rest
      | '-' :: rest => digits true rest
      | rest => digits false rest
    else some ((false, []), cs)
  | [] => some ((false, []), [])

def parts? (cs : List Char) : Option (Parts × List Char) := do
  let whole := cs.takeWhile isDigit
  if whole.isEmpty ∨ (whole.head? = some '0' ∧ 1 < whole.length) then none
  let (fraction, rest) ← fraction? (cs.drop whole.length)
  let ((exponentNegative, exponent), rest) ← exponent? rest
  return ({ whole, fraction, exponentNegative, exponent }, rest)

/-- The leading digits that fit 64 bits, read after `n`; and the digits left over. -/
def takeWord (n : Nat) : List Char → Nat × List Char
  | [] => (n, [])
  | c :: rest =>
    let n' := 10 * n + (c.toNat - 48)
    if n' < UInt64.size then takeWord n' rest else (n, c :: rest)

/-- The double nearest to a power of ten of at most 308. -/
def powerOfTen (k : Nat) : Decimal.Binary64 :=
  (Decimal.Binary64.ofRatio (Nat.pow 10 k) 1).getD .zero

/-- `x` times a power of ten, one rounding for each step of at most 308 places. -/
def scaleTen : Nat → Decimal.Binary64 → Int → Option Decimal.Binary64
  | 0, x, _ => some x
  | fuel + 1, x, e =>
    if e.natAbs ≤ 308 then
      if 0 ≤ e then x.mul (powerOfTen e.natAbs) else x.div (powerOfTen e.natAbs)
    else if x.mantissa = 0 then some x
    else if 0 < e then none
    else (x.div (powerOfTen 308)).bind fun y => scaleTen fuel y (e + 308)

/-- The double that a number stands for: the digits that fit 64 bits, scaled. -/
def magnitude? (p : Parts) : Option Decimal.Binary64 :=
  let (n, left) := takeWord 0 p.whole
  let (n, unread) := takeWord n p.fraction
  let used := p.fraction.length - unread.length
  let places : Int := left.length - used
  let e := decimal p.exponent
  if e < UInt32.size / 2 then
    let e : Int := places + if p.exponentNegative then -(e : Int) else e
    (Decimal.Binary64.ofRatio n 1).bind fun x => scaleTen 8 x (max e (-2000))
  else if n ≠ 0 ∧ ¬p.exponentNegative then none
  else some .zero

def number (negative : Bool) (cs : List Char) : Step Reading :=
  match parts? cs with
  | none => (.broken, none)
  | some (p, rest) =>
    let n := decimal p.whole
    let plain := p.fraction.isEmpty && p.exponent.isEmpty
    let value :=
      if plain ∧ ¬negative ∧ n < UInt64.size then .natural n
      else if plain ∧ negative ∧ 0 < n ∧ n ≤ UInt64.size / 2 then .negative n
      else
        match magnitude? p with
        | some x => .float negative x
        | none => .hugeNumber
    (value, some rest)

/-! ### Strings -/

def hex4? (cs : List Char) : Option (Nat × List Char) :=
  match cs with
  | a :: b :: c :: d :: rest =>
    (Text.digits? 16 [a, b, c, d]).map fun ds => (Text.value 16 ds, rest)
  | _ => none

/-- The character after a backslash that stands for one other character. -/
def shortEscape? (c : Char) : Option Char :=
  match c with
  | '"' => some '"'
  | '\\' => some '\\'
  | '/' => some '/'
  | 'b' => some '\x08'
  | 'f' => some '\x0c'
  | 'n' => some '\n'
  | 'r' => some '\r'
  | 't' => some '\t'
  | _ => none

def isHighSurrogate (n : Nat) : Bool := 0xD800 ≤ n && n ≤ 0xDBFF

def isLowSurrogate (n : Nat) : Bool := 0xDC00 ≤ n && n ≤ 0xDFFF

/-- The second half of a pair, at the head of the text. -/
def lowSurrogate? (cs : List Char) : Option (Nat × List Char) :=
  match cs with
  | '\\' :: 'u' :: rest =>
    match hex4? rest with
    | some (n, rest) => if isLowSurrogate n then some (n, rest) else none
    | none => none
  | _ => none

/-- The rest of a string: `read` holds its characters so far, last first, and `sound` says whether
every escape and every byte so far was part of one. Where bytes are not, `gap` stands for them. -/
def string (gap : Option Char) : Nat → List Char → Bool → List Char → Step Reading
  | 0, _, _, _ => (.broken, none)
  | fuel + 1, read, sound, cs =>
    match cs with
    | [] => (.broken, none)
    | '"' :: rest =>
      (if sound then .text (String.ofList read.reverse) else .badText, some rest)
    | '\\' :: 'u' :: rest =>
      match hex4? rest with
      | none => (.broken, none)
      | some (n, rest) =>
        if isHighSurrogate n then
          match lowSurrogate? rest with
          | some (low, rest) =>
            let c := Char.ofNat ((n - 0xD800) * 0x400 + (low - 0xDC00) + 0x10000)
            string gap fuel (c :: read) sound rest
          | none => string gap fuel read false rest
        else if isLowSurrogate n then string gap fuel read false rest
        else string gap fuel (Char.ofNat n :: read) sound rest
    | '\\' :: c :: rest =>
      match shortEscape? c with
      | some c => string gap fuel (c :: read) sound rest
      | none => (.broken, none)
    | c :: rest =>
      if c < ' ' ∨ c = '\\' then (.broken, none)
      else string gap fuel (c :: read) (sound && gap != some c) rest

/-! ### Values -/

mutual

/-- A value at the head of the text, blanks before it skipped. -/
def value (gap : Option Char) : Nat → List Char → Step Reading
  | 0, _ => (.broken, none)
  | fuel + 1, cs =>
    match skipSpace cs with
    | 'n' :: rest => word ['u', 'l', 'l'] .null rest
    | 't' :: rest => word ['r', 'u', 'e'] (.bool true) rest
    | 'f' :: rest => word ['a', 'l', 's', 'e'] (.bool false) rest
    | '-' :: rest => number true rest
    | '"' :: rest => string gap (rest.length + 1) [] true rest
    | '[' :: rest =>
      match skipSpace rest with
      | ']' :: rest => (.array [], some rest)
      | rest =>
        let (items, rest) := items gap fuel rest
        (.array items, rest)
    | '\x7b' :: rest =>
      match skipSpace rest with
      | '\x7d' :: rest => (.object [], some rest)
      | rest =>
        let (members, rest) := members gap fuel rest
        (.object members, rest)
    | c :: rest => if isDigit c then number false (c :: rest) else (.broken, none)
    | [] => (.broken, none)

/-- An element and those after it, up to the closing bracket. -/
def items (gap : Option Char) : Nat → List Char → Step (List Reading)
  | 0, _ => ([.broken], none)
  | fuel + 1, cs =>
    match value gap fuel cs with
    | (item, none) => ([item], none)
    | (item, some rest) =>
      match skipSpace rest with
      | ',' :: rest =>
        let (more, rest) := items gap fuel rest
        (item :: more, rest)
      | ']' :: rest => ([item], some rest)
      | _ => ([item, .broken], none)

/-- A member and those after it, up to the closing brace. -/
def members (gap : Option Char) : Nat → List Char → Step (List (Reading × Reading))
  | 0, _ => ([(.broken, .broken)], none)
  | fuel + 1, cs =>
    match value gap fuel cs with
    | (key, none) => ([(key, .broken)], none)
    | (key, some rest) =>
      match skipSpace rest with
      | ':' :: rest =>
        match value gap fuel rest with
        | (item, none) => ([(key, item)], none)
        | (item, some rest) =>
          match skipSpace rest with
          | ',' :: rest =>
            let (more, rest) := members gap fuel rest
            ((key, item) :: more, rest)
          | '\x7d' :: rest => ([(key, item)], some rest)
          | _ => ([(key, item), (.broken, .broken)], none)
      | _ => ([(key, .broken)], none)

end

/-- The value that a text begins with, and the text after it. -/
def ofChars (cs : List Char) : Step Reading := value none (cs.length + 1) cs

/-- A character that is none of the pieces. -/
def spare (ps : List (Option Char)) : Char :=
  let candidates := (List.range (ps.length + 1)).map fun n => Char.ofNat (0xF0000 + n)
  (candidates.find? fun c => some c ∉ ps).getD '\ufffd'

/-- The value that a byte string begins with. -/
def ofBytes (bs : Bytes) : Step Reading :=
  match bs.toText? with
  | some s => ofChars s.toList
  | none =>
    let ps := bs.pieces
    let gap := spare ps
    value (some gap) (ps.length + 1) (ps.map (·.getD gap))

/-! ### Passing over -/

def isKey : Reading → Bool
  | .text _ => true
  | .badText => true
  | _ => false

mutual

/-- The value ends where JSON says it does. -/
def isWhole : Reading → Bool
  | .broken => false
  | .array items => areWhole items
  | .object members => membersAreWhole members
  | _ => true

def areWhole : List Reading → Bool
  | [] => true
  | item :: rest => isWhole item && areWhole rest

def membersAreWhole : List (Reading × Reading) → Bool
  | [] => true
  | (key, item) :: rest => isKey key && isWhole item && membersAreWhole rest

end

mutual

/-- Every part of the value can be used, and arrays and objects nest at most `room` deep. -/
def isUsable (room : Nat) : Reading → Bool
  | .broken => false
  | .hugeNumber => false
  | .badText => false
  | .array items => match room with | 0 => false | room + 1 => areUsable room items
  | .object members => match room with | 0 => false | room + 1 => membersAreUsable room members
  | _ => true

def areUsable (room : Nat) : List Reading → Bool
  | [] => true
  | item :: rest => isUsable room item && areUsable room rest

def membersAreUsable (room : Nat) : List (Reading × Reading) → Bool
  | [] => true
  | (key, item) :: rest =>
    isKey key && isUsable room key && isUsable room item && membersAreUsable room rest

end

end Reading

end Attest.Json
