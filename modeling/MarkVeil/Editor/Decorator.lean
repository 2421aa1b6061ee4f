/-
Decorating an editor's document.

A host tells its language, text, positions and selections, and is told which stretches to decorate, one call for each
kind. `update` leaves documents of other languages alone.
-/
import MarkVeil.Decoration.Extract
import MarkVeil.Editor.Selection

namespace MarkVeil.Editor

open MarkVeil.Text
open MarkVeil.Decoration (Kind Range Reader extract)

structure Options where
  /-- identifiers of the languages to decorate -/
  languages : List String
  /-- show raw Markdown on selected lines -/
  revealSelectedLines : Bool
  /-- kinds never applied -/
  disabledKinds : List Kind
  deriving DecidableEq, Repr

namespace Options

def default : Options := ⟨["markdown", "md", "mdx"], true, []⟩

/-- two identifiers that differ at most in the case of ASCII letters -/
def sameIdentifier (a b : String) : Bool := a.toList.map Char.toLower == b.toList.map Char.toLower

def appliesTo (o : Options) (language : String) : Bool := o.languages.any (sameIdentifier · language)

def isEnabled (o : Options) (k : Kind) : Bool := !o.disabledKinds.contains k

end Options

/-- what an editor tells about its document -/
structure Host where
  language : String
  text : List Char
  position : Nat → Position
  selections : List Selection

/-- an editor is told to decorate exactly these stretches with a kind -/
abbrev Call := Kind × List Extent

def decorations (o : Options) (h : Host) (read : Reader := Token.parse) : Groups :=
  let selections := if o.revealSelectedLines then h.selections else []
  (Groups.ofRanges (extract h.text read) selections fun offset => (h.position offset).line).restrict o.isEnabled

/-- one call for each kind -/
def calls (g : Groups) : List Call := Kind.all.map fun k => (k, g.get k)

/-- decorate a host's document: the decorations and the calls made, none if the language is left alone -/
def update (o : Options) (h : Host) (read : Reader := Token.parse) : Option Groups × List Call :=
  if o.appliesTo h.language then (some (decorations o h read), calls (decorations o h read)) else (none, [])

def clear : List Call := calls Groups.empty

end MarkVeil.Editor
