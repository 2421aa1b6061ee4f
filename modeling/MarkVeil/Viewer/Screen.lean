/-
The viewer's screen.

A framed panel shows the document from the line it is scrolled to, with the document's path in the upper edge; the
last row explains the keys. Text that does not fit is cut off, control characters are left out, and rows are filled
with blanks. A panel of one row is its upper edge, and one of one column its left edge.
-/
import MarkVeil.Viewer.View

namespace MarkVeil.Viewer

def visible (s : List Char) : List Char :=
  s.filter fun c => !(c.toNat < 32 || (127 ≤ c.toNat && c.toNat < 160))

/-- a row of exactly `width` characters: the text cut off, or filled up with `fill` -/
def fitRow (fill : Char) (width : Nat) (s : List Char) : List Char :=
  s.take width ++ List.replicate (width - s.length) fill

/-- a row between two edges -/
def edged (left right fill : Char) (width : Nat) (s : List Char) : List Char :=
  match width with
  | 0 => []
  | 1 => [left]
  | n + 2 => left :: (fitRow fill n s ++ [right])

def help : List Char := "q: Quit | ↑/k: Previous line | ↓/j: Next line".toList

namespace View

/-- the farthest a panel can be scrolled -/
def maxScroll : Nat := 65535

/-- number of document lines that fit a screen -/
def panelLines (height : Nat) : Nat := height - 1 - 2

/-- `count` of the document's lines from the line `first` on, each behind its gutter -/
def renderFrom (v : View) (first count : Nat) : List (List Span) :=
  let ms := v.marks
  ((v.lines.lines.zipIdx.drop first).take count).map fun (e, n) => v.renderLine ms n e

def panel (v : View) (width height : Nat) : List (List Char) :=
  let title := visible (' ' :: (v.path.toList ++ [' ']))
  let lines := (v.renderFrom (min v.scroll maxScroll) (height - 2)).map fun spans => visible (spans.flatMap (·.text))
  let rows := (List.range (height - 2)).map fun n => edged '│' '│' ' ' width ((lines[n]?).getD [])
  (edged '┌' '┐' '─' width title :: (rows ++ [edged '└' '┘' '─' width []])).take height

/-- scroll to the cursor and draw: the view and the screen's rows -/
def draw (width height : Nat) (v : View) : View × List (List Char) :=
  let v := v.follow (panelLines height)
  (v, if height = 0 then [] else v.panel width (height - 1) ++ [fitRow ' ' width help])

end View

end MarkVeil.Viewer
