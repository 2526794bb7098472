/-! What a request is sent to.

A target is a path and what follows it, alone or behind a scheme and an
authority; or an authority alone; or a star. `Target.parse` reads one and keeps
the path, which is all that a service looks at: a query is checked and dropped,
a fragment dropped unseen. -/
namespace Attest.Service

structure Target where
  /-- Empty behind an authority alone. -/
  path : String
deriving DecidableEq

namespace Target

/-- The longest target, in bytes. -/
def maxLength : Nat := 65534

/-! ### Authorities -/

/-- What has been met of an authority so far. -/
structure Scan where
  /-- Colons since the last `@` or `]`. -/
  colons : Nat
  opened : Bool
  closed : Bool
  /-- A percent sign since the last `@` or `]`. -/
  percent : Bool

def Scan.start : Scan := ⟨0, false, false, false⟩

/-- The most colons that may stand in one part of an authority before it is known which it is. -/
def maxColons : Nat := 8

def isPlain (c : Char) : Bool := c.isAlphanum || "!$&'()*+,-.;=_~".toList.contains c

/-- A bracket opens once and closes once; a percent sign may stand in what an `@` ends. -/
def Scan.step (s : Scan) (c : Char) : Option Scan :=
  match c with
  | ':' => if s.colons < maxColons then some { s with colons := s.colons + 1 } else none
  | '[' => if s.percent || s.opened then none else some { s with opened := true }
  | ']' =>
    if s.opened && !s.closed then some { s with closed := true, colons := 0, percent := false }
    else none
  | '@' => some { s with colons := 0, percent := false }
  | '%' => some { s with percent := true }
  | c => if isPlain c then some s else none

/-- The characters make up an authority: a host, perhaps behind a name and an `@`, perhaps before
a colon and a port. -/
def isAuthority (cs : List Char) : Bool :=
  match cs.foldlM Scan.step .start with
  | some s => !cs.isEmpty && s.opened == s.closed && s.colons ≤ 1 && !s.percent &&
      cs.getLast? != some '@'
  | none => false

/-! ### Paths -/

/-- Neither a blank nor a control character of ASCII; all beyond ASCII are visible. -/
def isVisible (c : Char) : Bool := ' ' < c && c != '\x7f'

def isPathChar (c : Char) : Bool := isVisible c && !"#<>?`".toList.contains c

def isQueryChar (c : Char) : Bool := isVisible c && !"\"#<>".toList.contains c

def endsPath (c : Char) : Bool := c == '?' || c == '#'

/-- A path, and a query and a fragment after it. -/
def ofPath? (cs : List Char) : Option Target :=
  let path := cs.takeWhile fun c => !endsPath c
  let query := match cs.dropWhile fun c => !endsPath c with
    | '?' :: rest => rest.takeWhile (· != '#')
    | _ => []
  if path.all isPathChar && query.all isQueryChar then some ⟨String.ofList path⟩ else none

/-! ### Targets -/

def isSchemeChar (c : Char) : Bool := c.isAlphanum || "+-.~".toList.contains c

/-- The longest scheme. -/
def maxScheme : Nat := 64

/-- What follows a scheme, a colon and two slashes. -/
def afterScheme? (cs : List Char) : Option (List Char) :=
  let scheme := cs.takeWhile isSchemeChar
  match cs.dropWhile isSchemeChar with
  | ':' :: '/' :: '/' :: rest => if scheme.length ≤ maxScheme then some rest else none
  | _ => none

def endsAuthority (c : Char) : Bool := c == '/' || endsPath c

/-- An authority and a path; a path left out is the root's. -/
def ofAuthority? (cs : List Char) : Option Target :=
  let authority := cs.takeWhile fun c => !endsAuthority c
  if isAuthority authority then
    match cs.dropWhile fun c => !endsAuthority c with
    | '/' :: rest => ofPath? ('/' :: rest)
    | query => ofPath? ('/' :: query)
  else none

def parse (s : String) : Option Target :=
  if maxLength < s.utf8ByteSize then none
  else
    match s.toList with
    | ['*'] => some ⟨"*"⟩
    | '/' :: rest => ofPath? ('/' :: rest)
    | cs =>
      match afterScheme? cs with
      | some rest => ofAuthority? rest
      | none => if isAuthority cs then some ⟨""⟩ else none

end Target

end Attest.Service
