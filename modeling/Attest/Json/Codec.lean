import Attest.Json.Reading
import Attest.Json.Value
import Attest.Text.Quoted

/-! Typed values as JSON.

A codec writes a value and reads it back. Reading meets one of two faults: the
text is not JSON there, or it is JSON of the wrong shape, which is reported in
words. `Codec.list`, `Codec.optional` and `Codec.record` build codecs from
codecs; a record is an object of named fields, or a list of them in order. -/
namespace Attest.Json

inductive Fault where
  /-- The text is not JSON, or holds a value that JSON can spell and no type can hold. -/
  | malformed
  /-- The text is JSON of another shape. -/
  | mismatch (message : String)
deriving DecidableEq

structure Codec (α : Type) where
  read : Reading → Except Fault α
  write : α → Json

namespace Codec

/-- The kind of a value that was met, in words; nothing where reading stops. -/
def found : Reading → Except Fault String
  | .null => .ok "null"
  | .bool b => .ok s!"boolean `{b}`"
  | .natural n => .ok s!"integer `{n}`"
  | .negative n => .ok s!"integer `-{n}`"
  | .float negative x =>
    let sign := if negative then "-" else ""
    .ok s!"floating point `{sign}{String.ofList x.render}`"
  | .text s => .ok s!"string {Text.Quoted.text s}"
  | .array _ => .ok "sequence"
  | .object _ => .ok "map"
  | .badText | .hugeNumber | .broken => .error .malformed

/-- Refuses a value of another kind than the one expected. -/
def wrongType (expected : String) (r : Reading) : Except Fault α := do
  throw (.mismatch s!"invalid type: {← found r}, expected {expected}")

/-- Passes over a value of no interest. -/
def skip (r : Reading) : Except Fault Unit :=
  if r.isWhole then .ok () else .error .malformed

def text : Codec String where
  read
    | .text s => .ok s
    | r => wrongType "a string" r
  write := .text

def bool : Codec Bool where
  read
    | .bool b => .ok b
    | r => wrongType "a boolean" r
  write := .bool

/-- Whole numbers below a bound, the type's name given for messages. -/
def natural (bound : Nat) (name : String) : Codec Nat where
  read
    | .natural n =>
      if n < bound then .ok n
      else .error (.mismatch s!"invalid value: integer `{n}`, expected {name}")
    | .negative n => .error (.mismatch s!"invalid value: integer `-{n}`, expected {name}")
    | r => wrongType name r
  write := .natural

def byte : Codec UInt8 where
  read r := ((natural 256 "u8").read r).map UInt8.ofNat
  write b := .natural b.toNat

/-- Reads every element, the first fault in order reported. -/
def readItems (read : Reading → Except Fault α) : List Reading → Except Fault (List α)
  | [] => .ok []
  | item :: rest => do
    let x ← read item
    return x :: (← readItems read rest)

def list (c : Codec α) : Codec (List α) where
  read
    | .array items => readItems c.read items
    | r => wrongType "a sequence" r
  write xs := .array (xs.map c.write)

def optional (c : Codec α) : Codec (Option α) where
  read
    | .null => .ok none
    | r => (c.read r).map some
  write
    | none => .null
    | some x => c.write x

/-! ### Records -/

/-- The fields of a record in order: name, codec, and the value of a field that is left out. -/
inductive Fields : List Type → Type 1 where
  | nil : Fields []
  | cons {α : Type} {ts : List Type} (name : String) (codec : Codec α) (absent : Option α)
      (rest : Fields ts) : Fields (α :: ts)

/-- A value for each field. -/
def Values : List Type → Type
  | [] => Unit
  | α :: ts => α × Values ts

/-- A value for each field met so far. -/
def Slots : List Type → Type
  | [] => Unit
  | α :: ts => Option α × Slots ts

namespace Fields

def count : Fields ts → Nat
  | .nil => 0
  | .cons _ _ _ rest => rest.count + 1

def vacant : (ts : List Type) → Slots ts
  | [] => ()
  | _ :: ts => (none, vacant ts)

/-- Takes one member of an object: a field's value once, anything else passed over. -/
def store : Fields ts → Slots ts → String → Reading → Except Fault (Slots ts)
  | .nil, slots, _, r => do
    skip r
    return slots
  | .cons name codec _ rest, (slot, slots), key, r =>
    if key = name then
      match slot with
      | some _ => .error (.mismatch s!"duplicate field `{name}`")
      | none => do return (some (← codec.read r), slots)
    else do return (slot, ← rest.store slots key r)

def storeAll (fields : Fields ts) : Slots ts → List (Reading × Reading) → Except Fault (Slots ts)
  | slots, [] => .ok slots
  | slots, (.text key, r) :: members => do fields.storeAll (← fields.store slots key r) members
  | _, _ :: _ => .error .malformed

def close : Fields ts → Slots ts → Except Fault (Values ts)
  | .nil, _ => .ok ()
  | .cons name _ absent rest, (slot, slots) =>
    match slot, absent with
    | some x, _ => do return (x, ← rest.close slots)
    | none, some x => do return (x, ← rest.close slots)
    | none, none => .error (.mismatch s!"missing field `{name}`")

/-- Reads the fields from a list, of which `seen` are behind; `expected` names the whole. -/
def readInOrder (expected : String) (seen : Nat) :
    Fields ts → List Reading → Except Fault (Values ts)
  | .nil, [] => .ok ()
  | .nil, _ :: _ => .error .malformed
  | .cons _ codec _ rest, r :: items => do
    let x ← codec.read r
    return (x, ← rest.readInOrder expected (seen + 1) items)
  | .cons .., [] => .error (.mismatch s!"invalid length {seen}, expected {expected}")

def write : Fields ts → Values ts → List (String × Json)
  | .nil, _ => []
  | .cons name codec _ rest, (x, xs) => (name, codec.write x) :: rest.write xs

end Fields

/-- A record whose fields make up the values of a type, under a name for messages. -/
def record (name : String) (fields : Fields ts) (ofValues : Values ts → α)
    (toValues : α → Values ts) : Codec α where
  read
    | .object members => do
      return ofValues (← fields.close (← fields.storeAll (Fields.vacant ts) members))
    | .array items => do
      let expected := s!"struct {name} with {fields.count} elements"
      return ofValues (← fields.readInOrder expected 0 items)
    | r => wrongType s!"struct {name}" r
  write x := .object (fields.write (toValues x))

/-! ### Texts -/

/-- Reads a value at the head of a byte string, whatever follows it. -/
def ofPrefix (c : Codec α) (bs : Bytes) : Except Fault α := c.read (Reading.ofBytes bs).1

/-- Reads what was met, if nothing but blanks comes after it. -/
def ofStep (c : Codec α) : Reading.Step Reading → Except Fault α
  | (r, rest) => do
    let x ← c.read r
    match rest with
    | some rest => if (Reading.skipSpace rest).isEmpty then return x else throw .malformed
    | none => throw .malformed

/-- Reads a text that holds one value and blanks around it. -/
def ofText (c : Codec α) (s : String) : Except Fault α := c.ofStep (Reading.ofChars s.toList)

/-- Reads a byte string that holds one value and blanks around it. -/
def ofBytes (c : Codec α) (bs : Bytes) : Except Fault α := c.ofStep (Reading.ofBytes bs)

end Codec

end Attest.Json
