/-! Which media types are JSON.

A media type is a type, a slash, a subtype and parameters. It is JSON when its
type is `application` and its subtype, or the part after the subtype's last
plus sign, is `json`, in letters of either case. A text that is no media type is
not JSON; its parameters are read only to tell. -/
namespace Attest.Service.MediaType

/-- The characters of names and of values without quotes. -/
def isTokenChar (c : Char) : Bool :=
  c.isAlphanum || "!#$%&'*+-.^_`|~".toList.contains c

/-- Where the reading of parameters stands. -/
inductive Place where
  /-- In a name, which may still be empty. -/
  | name (isEmpty : Bool)
  | value (isEmpty : Bool)
  /-- Between quotes, where the first character is never the closing quote. -/
  | quoted (isEmpty : Bool)
  | afterQuote
deriving DecidableEq

namespace Place

def step : Place → Char → Option Place
  | name isEmpty, c =>
    if isTokenChar c then some (name false)
    else if c = ' ' ∧ isEmpty then some (name true)
    else if c = '=' ∧ ¬isEmpty then some (value true)
    else none
  | value isEmpty, c =>
    if isTokenChar c then some (value false)
    else if c = '"' ∧ isEmpty then some (quoted true)
    else if c = ';' ∧ ¬isEmpty then some (name true)
    else none
  | quoted isEmpty, c =>
    if c = '"' ∧ ¬isEmpty then some afterQuote
    else if ' ' ≤ c ∧ c ≠ '\x7f' then some (quoted false)
    else none
  | afterQuote, c =>
    if c = ';' then some (name true) else if c = ' ' then some afterQuote else none

/-- Parameters may end here. -/
def isFinal : Place → Bool
  | name isEmpty => isEmpty
  | value _ => true
  | quoted _ => false
  | afterQuote => true

end Place

def areParameters (cs : List Char) : Bool :=
  match cs.foldlM Place.step (.name true) with
  | some place => place.isFinal
  | none => false

/-- What stands before the last plus sign but the first character, and what stands after it. -/
def splitSuffix (cs : List Char) : List Char × Option (List Char) :=
  let suffix := cs.reverse.takeWhile (· ≠ '+')
  let before := cs.reverse.dropWhile (· ≠ '+')
  match before with
  | _ :: front@(_ :: _) => (front.reverse, some suffix.reverse)
  | _ => (cs, none)

def lowercase (cs : List Char) : String := String.ofList (cs.map Char.toLower)

def isJsonSubtype (cs : List Char) : Bool :=
  let (front, suffix) := splitSuffix cs
  lowercase front == "json" || suffix.map lowercase == some "json"

/-- A header's value may hold these characters and be read at all. -/
def isVisible (c : Char) : Bool := (' ' ≤ c && c < '\x7f') || c == '\t'

def isJson (s : String) : Bool :=
  let cs := s.toList
  let kind := cs.takeWhile isTokenChar
  match cs.dropWhile isTokenChar with
  | '/' :: rest =>
    let subtype := rest.takeWhile isTokenChar
    let isWhole := match rest.dropWhile isTokenChar with
      | [] => true
      | c :: parameters => c == ';' && !subtype.isEmpty && areParameters parameters
    cs.all isVisible && isWhole && lowercase kind == "application" && isJsonSubtype subtype
  | _ => false

end Attest.Service.MediaType
