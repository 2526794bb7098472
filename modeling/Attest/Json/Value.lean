import Attest.Text.Hex

/-! JSON values and their text.

`Json.render` writes a value without blanks; `Json.pretty` writes each element
and member on a line of its own, two spaces deeper than the line that opens
them. Members keep their order. -/
namespace Attest

inductive Json where
  | null
  | bool (b : Bool)
  | natural (n : Nat)
  | text (s : String)
  | array (items : List Json)
  | object (members : List (String × Json))
deriving Inhabited

namespace Json

/-- A character inside a JSON string. -/
def escape (c : Char) : List Char :=
  if c = '"' then ['\\', '"']
  else if c = '\\' then ['\\', '\\']
  else if c = '\n' then ['\\', 'n']
  else if c = '\r' then ['\\', 'r']
  else if c = '\t' then ['\\', 't']
  else if c = '\x08' then ['\\', 'b']
  else if c = '\x0c' then ['\\', 'f']
  else if c < ' ' then
    ['\\', 'u', '0', '0', Text.Hex.digitChar (c.toNat / 16), Text.Hex.digitChar (c.toNat % 16)]
  else [c]

def quote (s : String) : List Char := '"' :: s.toList.flatMap escape ++ ['"']

def ofBool (b : Bool) : List Char := if b then "true".toList else "false".toList

mutual

def renderChars : Json → List Char
  | .null => "null".toList
  | .bool b => ofBool b
  | .natural n => (Nat.repr n).toList
  | .text s => quote s
  | .array items => '[' :: renderItems items
  | .object members => '\x7b' :: renderMembers members

def renderItems : List Json → List Char
  | [] => [']']
  | [item] => renderChars item ++ [']']
  | item :: rest => renderChars item ++ ',' :: renderItems rest

def renderMembers : List (String × Json) → List Char
  | [] => ['\x7d']
  | [(key, value)] => quote key ++ ':' :: renderChars value ++ ['\x7d']
  | (key, value) :: rest => quote key ++ ':' :: renderChars value ++ ',' :: renderMembers rest

end

def render (j : Json) : String := String.ofList j.renderChars

/-- A new line at a nesting depth. -/
def line (depth : Nat) : List Char := '\n' :: List.replicate (2 * depth) ' '

mutual

def prettyChars (depth : Nat) : Json → List Char
  | .array (item :: items) => '[' :: prettyItems depth (item :: items)
  | .object (member :: members) => '\x7b' :: prettyMembers depth (member :: members)
  | .array [] => ['[', ']']
  | .object [] => ['\x7b', '\x7d']
  | .null => "null".toList
  | .bool b => ofBool b
  | .natural n => (Nat.repr n).toList
  | .text s => quote s

def prettyItems (depth : Nat) : List Json → List Char
  | [] => [']']
  | [item] => line (depth + 1) ++ prettyChars (depth + 1) item ++ line depth ++ [']']
  | item :: rest =>
    line (depth + 1) ++ prettyChars (depth + 1) item ++ ',' :: prettyItems depth rest

def prettyMembers (depth : Nat) : List (String × Json) → List Char
  | [] => ['\x7d']
  | [(key, value)] =>
    line (depth + 1) ++ quote key ++ ':' :: ' ' :: prettyChars (depth + 1) value ++ line depth ++
      ['\x7d']
  | (key, value) :: rest =>
    line (depth + 1) ++ quote key ++ ':' :: ' ' :: prettyChars (depth + 1) value ++
      ',' :: prettyMembers depth rest

end

def pretty (j : Json) : String := String.ofList (j.prettyChars 0)

/-- The member of an object under a key. -/
def member? (key : String) : Json → Option Json
  | .object members => (members.find? fun m => m.1 == key).map Prod.snd
  | _ => none

end Json

end Attest
