/-
Reading a Markdown document.

`Document.ofText` is the reader: blocks with their inline elements, everything with its byte extent. The first reading
gives the outline and the labels of all link definitions; only then are paragraphs settled, since a definition may
stand after its use. The dialect is CommonMark with strikethrough.
-/
import MarkVeil.Markdown.Outline
import MarkVeil.Markdown.Paragraph

namespace MarkVeil.Markdown

open MarkVeil.Text

/-- a block with its inline elements -/
abbrev ReadBlock := Block (List Inline)

namespace Document

/-- what every paragraph of a document shares: its text and the labels it defines, case folded -/
structure Whole where
  text : List Char
  labels : List (List Char)

/-- the inline elements of a leaf block that lies within containers, outermost first -/
def settlePieces (w : Whole) (cs : List Container) (extent : Extent) (pieces : List Piece) : List Inline :=
  Paragraph.ofPieces ⟨(takeBytes? w.text extent.stop).getD w.text, cs, w.labels⟩ pieces

mutual

/-- settle the paragraphs of a block -/
def settle (w : Whole) (cs : List Container) : Block (List Piece) → ReadBlock
  | .paragraph e pieces => .paragraph e (settlePieces w cs e pieces)
  | .heading e level pieces => .heading e level (settlePieces w cs e pieces)
  | .rule e => .rule e
  | .fence e info body closed => .fence e info body closed
  | .indented e body => .indented e body
  | .html e body => .html e body
  | .within e c blocks => .within e c (settleAll w (cs ++ [c]) blocks)

def settleAll (w : Whole) (cs : List Container) : List (Block (List Piece)) → List ReadBlock
  | [] => []
  | b :: bs => settle w cs b :: settleAll w cs bs

end

def ofText (text : List Char) : List ReadBlock :=
  let outline := Outline.ofText text
  settleAll ⟨text, outline.2.map foldCase⟩ [] outline.1

end Document

end MarkVeil.Markdown
