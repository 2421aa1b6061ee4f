/-
A document in a terminal.

The line of the cursor is the only selection, so it always shows raw Markdown; every other line shows its text without
what is hidden. `follow` scrolls no farther than the cursor needs. `marks` tells for every byte how it is drawn, and
`lineSpans` cuts a line into runs of characters drawn alike.
-/
import MarkVeil.Editor.Decorator
import MarkVeil.Viewer.Style

namespace MarkVeil.Viewer

open MarkVeil.Text
open MarkVeil.Decoration (Kind Reader)
open MarkVeil.Editor (Call Groups Host Options Selection)

/-- how a byte is drawn -/
inductive Mark where
  | plain
  | hidden
  | styled (kind : Kind)
  deriving DecidableEq, Repr

/-- a run of text in one style -/
structure Span where
  text : List Char
  style : Style
  deriving DecidableEq, Repr

structure View where
  path : String
  text : List Char
  lines : LineIndex
  cursor : Nat
  scroll : Nat
  applied : Groups
  deriving Repr

namespace View

def ofText (path : String) (text : List Char) : View := ⟨path, text, LineIndex.ofText text, 0, 0, Groups.empty⟩

def nextLine (v : View) : View := if v.cursor + 1 < v.lines.count then { v with cursor := v.cursor + 1 } else v

def previousLine (v : View) : View := { v with cursor := v.cursor - 1 }

/-- scroll as far as the cursor needs to be among `height` lines -/
def follow (height : Nat) (v : View) : View :=
  if v.cursor < v.scroll then { v with scroll := v.cursor }
  else if 0 < height ∧ v.scroll + height ≤ v.cursor then { v with scroll := v.cursor + 1 - height }
  else v

def host (v : View) : Host := ⟨"markdown", v.text, v.lines.position, [Selection.line v.cursor]⟩

/-- what a decorator tells the view -/
def apply (v : View) (c : Call) : View := { v with applied := v.applied.set c.1 c.2 }

def update (o : Options) (v : View) (read : Reader := Token.parse) : Option Groups × View :=
  let (groups?, calls) := Editor.update o v.host read
  (groups?, calls.foldl apply v)

/-- draw a stretch of bytes; a stretch that does not fit changes nothing -/
def paint (m : Mark) (marks : List Mark) (e : Extent) : List Mark :=
  if e.start ≤ e.stop ∧ e.stop ≤ marks.length then
    marks.take e.start ++ List.replicate (e.stop - e.start) m ++ marks.drop e.stop
  else marks

/-- how every byte is drawn; what is hidden comes last and wins -/
def marks (v : View) : List Mark :=
  let blank := List.replicate (byteLen v.text) Mark.plain
  let styled := (v.applied.entries.filter (·.1.isStyled)).foldl
    (fun ms entry => entry.2.foldl (paint (.styled entry.1)) ms) blank
  (v.applied.get .hide).foldl (paint .hidden) styled

/-- a run of characters drawn alike, last first -/
structure Run where
  mark : Mark
  chars : List Char

/-- a finished run; hidden runs are not drawn -/
def Run.spans (r : Run) : List Span :=
  match r.mark with
  | .hidden => []
  | .plain => [⟨r.chars.reverse, Style.plain⟩]
  | .styled k => [⟨r.chars.reverse, Style.ofKind k⟩]

/-- runs of the characters from an offset on; a character is drawn as its first byte -/
def runs (marks : List Mark) : (offset : Nat) → Option Run → List Char → List Span
  | _, none, [] => []
  | _, some r, [] => r.spans
  | offset, r?, c :: s =>
    let m := (marks[offset]?).getD .plain
    match r? with
    | none => runs marks (offset + c.utf8Size) (some ⟨m, [c]⟩) s
    | some r =>
      if r.mark = m then runs marks (offset + c.utf8Size) (some ⟨m, c :: r.chars⟩) s
      else r.spans ++ runs marks (offset + c.utf8Size) (some ⟨m, [c]⟩) s

/-- a stretch of text as spans -/
def lineSpans (text : List Char) (e : Extent) (marks : List Mark) : List Span :=
  runs marks e.start none ((slice? text e.start e.stop).getD [])

/-- what stands before each line -/
def gutter (atCursor : Bool) : Span := ⟨if atCursor then ['▶', ' '] else [' ', ' '], { color? := some .darkGray }⟩

def renderLine (v : View) (marks : List Mark) (n : Nat) (e : Extent) : List Span :=
  gutter (n == v.cursor) :: lineSpans v.text e marks

/-- the document's lines, each behind its gutter -/
def renderLines (v : View) : List (List Span) := v.lines.lines.mapIdx (v.renderLine v.marks)

end View

end MarkVeil.Viewer
