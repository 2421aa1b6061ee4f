/-
How elements are written in the text.

A token covers the lines of its element. A code span, an emphasis, a heading, a fence or a list carries its marker as
it is written in the text from the element's offset on; where the text has no such marker, a default stands for it.
-/
import MarkVeil.Markdown.Inline
import MarkVeil.Text.Blank
import MarkVeil.Text.Source
import MarkVeil.Token.Node

namespace MarkVeil.Token

open MarkVeil.Text
open MarkVeil.Markdown (LinkForm Stress)

/-! ## Sources and markers -/

def textAfter (src : Source) (offset : Nat) : List Char := (dropBytes? src.text offset).getD []

def textOf (src : Source) (e : Extent) : List Char := (slice? src.text e.start e.stop).getD []

/-- line of the last byte of an extent -/
def lastLineOf (src : Source) (e : Extent) : Nat := src.lines.lineOf (max (e.stop - 1) e.start)

def spanOf (src : Source) (e : Extent) : LineSpan := LineSpan.ofLines (src.lines.lineOf e.start) (lastLineOf src e + 1)

/-- at most `limit` copies of `c` from an offset on -/
def runLenAt (src : Source) (offset : Nat) (c : Char) (limit : Nat) : Nat :=
  min (countRun c (textAfter src offset)) limit

/-- marker of an emphasis: up to `limit` copies of the delimiter it begins with -/
def stressMarker (src : Source) (offset limit : Nat) (plain : Char) : List Char :=
  match textAfter src offset with
  | c :: _ =>
    if c = '*' ∨ c = '_' ∨ c = '~' then List.replicate (runLenAt src offset c limit) c else List.replicate limit plain
  | [] => List.replicate limit plain

/-- marker of a code span: its backticks -/
def codeMarker (src : Source) (offset : Nat) : List Char :=
  List.replicate (max 1 (countRun '`' (textAfter src offset))) '`'

/-- marker of a heading: number signs, or the character of its underline -/
def headingMarker (src : Source) (e : Extent) (level : Nat) : List Char :=
  if (trimStart (textOf src e)).head? = some '#' then List.replicate level '#'
  else
    match ((src.lines.text? src.text (spanOf src e).last).bind fun line => (trim line).head?) with
    | some c => if c = '=' ∨ c = '-' then [c] else [if level = 1 then '=' else '-']
    | none => [if level = 1 then '=' else '-']

/-- marker of a fence: its backticks or tildes, if the text goes on behind spaces -/
def fenceMarkup (src : Source) (offset : Nat) : List Char :=
  let s := (textAfter src offset).dropWhile (· == ' ')
  match s with
  | c :: _ => if c = '`' ∨ c = '~' then List.replicate (countRun c s) c else ['`', '`', '`']
  | [] => []

/-- marker of a bullet list: its first character -/
def bulletMarker (src : Source) (offset : Nat) : List Char := ((trimStart (textAfter src offset)).head?).toList

/-- marker of an ordered list: what follows its first number -/
def numberMarker (src : Source) (offset : Nat) : List Char :=
  match (trimStart (textAfter src offset)).dropWhile Char.isDigit with
  | ')' :: _ => [')']
  | _ => ['.']

/-! ## Shapes of inline elements -/

/-- tokens and HTML element of an emphasis, its longest marker and the delimiter it is written with by default -/
def stressShape : Stress → Kind × Kind × String × Nat × Char
  | .emphasis => (.emOpen, .emClose, "em", 1, '*')
  | .strong => (.strongOpen, .strongClose, "strong", 2, '*')
  | .strike => (.strikeOpen, .strikeClose, "s", 2, '~')

/-- marker of a link: a bracket, an angle bracket, or both brackets when its target is elsewhere -/
def linkMarker : LinkForm → String
  | .inline => "["
  | .autolink => "<"
  | .reference => "[]"

end MarkVeil.Token
