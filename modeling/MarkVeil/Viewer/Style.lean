/-
Looks of text on a terminal, and the look of each kind of decoration.
-/
import MarkVeil.Decoration.Kind

namespace MarkVeil.Viewer

open MarkVeil.Decoration (Kind)

inductive Color where
  | cyan
  | blue
  | yellow
  | magenta
  | darkGray
  deriving DecidableEq, Repr

structure Style where
  color? : Option Color := none
  bold : Bool := false
  italic : Bool := false
  underlined : Bool := false
  crossedOut : Bool := false
  deriving DecidableEq, Repr

namespace Style

def plain : Style := {}

def ofKind : Kind → Style
  | .hide => plain
  | .bold => { bold := true }
  | .italic => { italic := true }
  | .boldItalic => { bold := true, italic := true }
  | .strikethrough => { crossedOut := true }
  | .code => { color? := some .yellow }
  | .heading => { bold := true }
  | .heading1 => { color? := some .cyan, bold := true, underlined := true }
  | .heading2 => { color? := some .cyan, bold := true }
  | .heading3 => { color? := some .blue, bold := true }
  | .link => { color? := some .blue, underlined := true }
  | .image => { color? := some .magenta, italic := true }

end Style

end MarkVeil.Viewer
