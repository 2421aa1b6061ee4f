/-
From a text to its decorations.

`ofTree` walks a token tree and decorates headings, code fences and inline content, then settles overlaps. It accepts
any tree, also one that does not belong to the text: what is not found in the text is left out. `extract` decorates
the tree that a reader makes of the text.
-/
import MarkVeil.Decoration.Overlap
import MarkVeil.Decoration.Scan
import MarkVeil.Marker.CodeSpan
import MarkVeil.Marker.Heading
import MarkVeil.Token.Builder

namespace MarkVeil.Decoration

open MarkVeil.Text
open MarkVeil.Token (Node)
open MarkVeil.Marker

def atxHeading (src : Source) (line level : Nat) : List Range :=
  match src.lines.extent? line, src.lineText? line with
  | some r, some text =>
    match Heading.atx? text level with
    | some parts =>
      hide (r.start + parts.marker.start) (r.start + parts.marker.stop) ++
        style (.heading (r.start + parts.contentStart) r.stop level)
    | none => []
  | _, _ => []

/-- where the content of a setext heading begins and ends: its first line up to the line before its underline -/
def setextContent? (src : Source) (first underline : Nat) : Option (Nat × Nat) :=
  match src.lines.start? first, src.lineText? first, src.lines.stop? (underline - 1) with
  | some start, some text, some stop => some (start + Heading.contentStart text, stop)
  | _, _, _ => none

def setextHeading (src : Source) (span : LineSpan) (level : Nat) : List Range :=
  let underline := span.last
  if underline ≤ span.start then []
  else
    match src.lines.start? underline, (src.lineText? underline).bind Heading.underline? with
    | some base, some marker =>
      hide (base + marker.start) (base + marker.stop) ++
        match setextContent? src span.start underline with
        | some (start, stop) => style (.heading start stop level)
        | none => []
    | _, _ => []

def heading (src : Source) (n : Node) : List Range :=
  match n.headingLevel?, n.span? with
  | some level, some span =>
    if !src.hasLine span.start then []
    else if n.markup = "=" ∨ n.markup = "-" then setextHeading src span level
    else atxHeading src span.start level
  | _, _ => []

/-- the closing fence on a line behind the opening fence's -/
def closingFence? (src : Source) (first : Nat) (marker : List Char) (line : Nat) : Option (List Range) :=
  if line ≤ first then none
  else
    match src.lines.start? line, (src.lineText? line).bind (Fence.closing? · marker) with
    | some base, some close => some (hide (base + close.start) (base + close.stop))
    | _, _ => none

/-- ranges of a code fence; the closing fence is on its last line, or on the one after that -/
def fence (src : Source) (n : Node) : List Range :=
  match n.span? with
  | none => []
  | some span =>
    let marker := if n.markup.isEmpty then Fence.defaultMarker.toList else n.markup.toList
    match src.lines.start? span.start,
        (src.lineText? span.start).bind (Fence.opening? · marker (n.info?.map String.toList)) with
    | some base, some first =>
      hide (base + first.start) (base + first.stop) ++
        ((closingFence? src span.start marker span.last).or
          (closingFence? src span.start marker span.stop)).getD []
    | _, _ => []

/-- ranges of a run of inline tokens that no `inline` token holds -/
def bareRun (src : Source) (run : List Node) : List Range :=
  match run with
  | [] => []
  | n :: _ => (Scan.start src n.span?).run src run

mutual

/-- ranges of a token that is no inline token -/
def walk (src : Source) : Node → List Range
  | ⟨kind, span?, markup, tag, info?, content?, children⟩ =>
    match kind with
    | .headingOpen => heading src ⟨kind, span?, markup, tag, info?, content?, children⟩
    | .fence => fence src ⟨kind, span?, markup, tag, info?, content?, children⟩
    | .inline => (Scan.start src span?).run src children
    | _ => walkAll src [] children

/-- ranges of tokens in order, after a run of inline tokens, last first -/
def walkAll (src : Source) (run : List Node) : List Node → List Range
  | [] => bareRun src run.reverse
  | n :: ns =>
    if n.kind.isInline then walkAll src (n :: run) ns
    else bareRun src run.reverse ++ (walk src n ++ walkAll src [] ns)

end

/-- what a tree gives before overlaps are settled -/
def collect (src : Source) (root : Node) : List Range := walkAll src [] [root]

/-- decorations of a text by a token tree -/
def ofTree (src : Source) (root : Node) : List Range := resolve (collect src root) (byteLen src.text)

/-- a reader makes a token tree of a text -/
abbrev Reader := List Char → Node

def extract (text : List Char) (read : Reader := Token.parse) : List Range := ofTree (Source.ofText text) (read text)

end MarkVeil.Decoration
