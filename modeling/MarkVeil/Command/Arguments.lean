/-
Arguments of the command.

`Arguments.parse` reads them from left to right; the first that does not fit decides the error. Expanding the path is
left to its first parameter.
-/
import MarkVeil.Decoration.Kind

namespace MarkVeil.Command

open MarkVeil.Decoration (Kind UnknownKind)

structure Arguments where
  /-- the document, missing only if there are settings to write -/
  path? : Option String
  /-- list decorations instead of showing the document -/
  dump : Bool
  /-- save the settings -/
  writeConfig : Bool
  /-- kinds to disable, in the order given -/
  disabled : List Kind
  deriving DecidableEq, Repr

inductive ArgumentError where
  | missingKind
  | unknownKind (e : UnknownKind)
  | unknownOption (option : String)
  | secondFile
  | noFile
  deriving DecidableEq, Repr

def ArgumentError.message : ArgumentError → String
  | missingKind => "--disable needs a decoration kind"
  | unknownKind e => e.message
  | unknownOption option => "unknown option " ++ option
  | secondFile => "only one file can be opened"
  | noFile => "no markdown file given"

namespace Arguments

def empty : Arguments := ⟨none, false, false, []⟩

def isOption (arg : String) : Bool := ['-', '-'].isPrefixOf arg.toList

/-- read the rest of the arguments, given what those before ask for -/
def scan (expand : String → String) (a : Arguments) : List String → Except ArgumentError Arguments
  | [] => .ok a
  | "--disable" :: rest =>
    match rest with
    | [] => .error .missingKind
    | name :: rest =>
      match Kind.parse name with
      | .ok k => scan expand { a with disabled := a.disabled ++ [k] } rest
      | .error e => .error (.unknownKind e)
  | arg :: rest =>
    if arg = "--dump" then scan expand { a with dump := true } rest
    else if arg = "--write-config" then scan expand { a with writeConfig := true } rest
    else if isOption arg then .error (.unknownOption arg)
    else if a.path?.isSome then .error .secondFile
    else scan expand { a with path? := some (expand arg) } rest

/-- what the arguments ask for; there is a document or settings to write -/
def parse (expand : String → String) (args : List String) : Except ArgumentError Arguments :=
  match scan expand empty args with
  | .ok a => if a.path?.isNone ∧ ¬ a.writeConfig then .error .noFile else .ok a
  | .error e => .error e

end Arguments

end MarkVeil.Command
