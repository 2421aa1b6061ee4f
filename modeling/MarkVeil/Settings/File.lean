/-
The text of the settings file.

A decorator's options are three values of a TOML document. `toText` writes all three. `ofText?` takes the default for
each that is left out and looks at no other; if one of the three is not of its type, or a kind is unknown, no options
are read.
-/
import MarkVeil.Editor.Decorator
import MarkVeil.Toml.Read
import MarkVeil.Toml.Value

namespace MarkVeil.Settings

open MarkVeil.Decoration (Kind)
open MarkVeil.Editor (Options)
open MarkVeil.Toml (Entries Value)

/-- names of the three values -/
def languagesKey : String := "languages"
def revealKey : String := "reveal_selected_lines"
def disabledKey : String := "disabled_kinds"

def items? : Value → Option (List Value)
  | .array vs => some vs
  | .tables rows => some (rows.map (.table .header))
  | _ => none

def text? : Value → Option String
  | .text s => some (String.ofList s)
  | _ => none

def boolean? : Value → Option Bool
  | .boolean b => some b
  | _ => none

/-- an empty list or table -/
def isVoid : Value → Bool
  | .array [] => true
  | .table _ [] => true
  | _ => false

/-- a kind: its name, alone or as the name of nothing in a table -/
def kind? : Value → Option Kind
  | .text s => Kind.ofName? (String.ofList s)
  | .table _ [(k, v)] => if isVoid v then Kind.ofName? (String.ofList k) else none
  | _ => none

def texts? (v : Value) : Option (List String) := (items? v).bind (·.mapM text?)

def kinds? (v : Value) : Option (List Kind) := (items? v).bind (·.mapM kind?)

/-- a named value, or what stands for it if it is left out; none if the value is of another type -/
def entry? (es : Entries) (name : String) (decode? : Value → Option α) (default : α) : Option α :=
  match es.lookup name.toList with
  | some v => decode? v
  | none => some default

def ofTable? (es : Entries) : Option Options := do
  let languages ← entry? es languagesKey texts? Options.default.languages
  let reveal ← entry? es revealKey boolean? Options.default.revealSelectedLines
  let disabled ← entry? es disabledKey kinds? Options.default.disabledKinds
  return ⟨languages, reveal, disabled⟩

def ofText? (s : List Char) : Option Options := (Toml.readTable? s).bind ofTable?

def toText (o : Options) : List Char :=
  Toml.writeAssignment languagesKey.toList (Toml.writeArray (o.languages.map fun l => Toml.write l.toList)) ++
  Toml.writeAssignment revealKey.toList (Toml.writeBoolean o.revealSelectedLines) ++
  Toml.writeAssignment disabledKey.toList (Toml.writeArray (o.disabledKinds.map fun k => Toml.write k.name.toList))

end MarkVeil.Settings
