/-
Paired inline emphasis.

Strong and em share one styled range when one lies in the other; strike never shares.
-/
import MarkVeil.Decoration.Kind
import MarkVeil.Token.Node

namespace MarkVeil.Marker

open MarkVeil.Token (Kind)

inductive Emphasis where
  | strong
  | em
  | strike
  deriving DecidableEq, Repr

namespace Emphasis

def defaultMarker : Emphasis → String
  | strong => "**"
  | em => "*"
  | strike => "~~"

/-- kind of the styled content; `mixed` when bold and italic meet in it -/
def styledKind : Emphasis → (mixed : Bool) → Decoration.Kind
  | strike, _ => .strikethrough
  | _, true => .boldItalic
  | strong, false => .bold
  | em, false => .italic

/-- shares the styled range of an emphasis around it -/
def merges : Emphasis → Bool
  | strike => false
  | _ => true

def ofOpen? : Kind → Option Emphasis
  | .strongOpen => some strong
  | .emOpen => some em
  | .strikeOpen => some strike
  | _ => none

def ofClose? : Kind → Option Emphasis
  | .strongClose => some strong
  | .emClose => some em
  | .strikeClose => some strike
  | _ => none

end Emphasis

end MarkVeil.Marker
