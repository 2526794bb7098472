/-! The command line.

The program takes one command, `serve` or `setup`, and is free to choose when
none is given. Arguments are looked at in order, and the first one that is out of
place or asks for help decides. After `--` nothing is a flag. -/
namespace Attest.CommandLine

inductive Command where
  | serve
  /-- Makes keys; with `force` also in the stead of keys that are there. -/
  | setup (force : Bool)
deriving DecidableEq

/-- Why there is nothing to run. -/
inductive Stop where
  | help
  | version
  | unknownArgument
  | unknownCommand
  | repeatedFlag
  | needlessValue
deriving DecidableEq

inductive Flag where
  | help
  | version
  | force
deriving DecidableEq

namespace Flag

def name : Flag → String
  | help => "help"
  | version => "version"
  | force => "force"

def letter? : Flag → Option Char
  | help => some 'h'
  | version => some 'V'
  | force => none

end Flag

/-- What an argument looks like. -/
inductive Shape where
  | word
  | escape
  | name (s : String) (hasValue : Bool)
  | letters (first : Char)
deriving DecidableEq

def Shape.ofArgument (arg : String) : Shape :=
  match arg.toList with
  | ['-', '-'] => escape
  | '-' :: '-' :: cs => name (String.ofList (cs.takeWhile (· ≠ '='))) (cs.contains '=')
  | '-' :: c :: _ => letters c
  | _ => word

/-- The flag that an argument gives, of those that are known; of a row of letters the first counts,
as every flag with a letter ends the reading. -/
def flagOf (known : List Flag) : Shape → Except Stop Flag
  | .name s hasValue =>
    match known.find? fun f => f.name == s with
    | some f => if hasValue then .error .needlessValue else .ok f
    | none => .error .unknownArgument
  | .letters c =>
    match known.find? fun f => f.letter? == some c with
    | some f => .ok f
    | none => .error .unknownArgument
  | .word | .escape => .error .unknownArgument

/-- Reads what follows a command's name and answers whether `force` was given. -/
def readFlags (known : List Flag) (force : Bool) : List String → Except Stop Bool
  | [] => .ok force
  | arg :: rest =>
    let shape := Shape.ofArgument arg
    if shape = .escape ∧ rest = [] then .ok force
    else
      match flagOf known shape with
      | .error e => .error e
      | .ok .help => .error .help
      | .ok .version => .error .version
      | .ok .force => if force then .error .repeatedFlag else readFlags known true rest

def commandNames : List String := ["serve", "setup", "help"]

/-- What `help` is asked about: nothing, or one command. -/
def readHelp : List String → Stop
  | [] => .help
  | [name] => if name ∈ commandNames then .help else .unknownCommand
  | _ => .unknownCommand

/-- Reads the arguments after the program's name. -/
def parse : List String → Except Stop (Option Command)
  | [] => .ok none
  | "serve" :: rest => (readFlags [.help] false rest).map fun _ => some .serve
  | "setup" :: rest => (readFlags [.help, .force] false rest).map fun force => some (.setup force)
  | "help" :: rest => .error (readHelp rest)
  | arg :: rest =>
    match Shape.ofArgument arg, rest with
    | .escape, [] => .ok none
    | .escape, name :: _ =>
      .error (if name ∈ commandNames then .unknownArgument else .unknownCommand)
    | .word, _ => .error .unknownCommand
    | shape, _ =>
      match flagOf [.help, .version] shape with
      | .ok .version => .error .version
      | .ok _ => .error .help
      | .error e => .error e

end Attest.CommandLine
