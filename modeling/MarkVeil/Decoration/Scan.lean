/-
Finding the markers of inline tokens.

Tokens carry lines and markup but no offsets. `Scan.run` goes through the tokens of a paragraph from left to right
with a cursor that moves past every marker and text found, so equal markers resolve to successive places. An open
emphasis or link leaves a frame behind until its closing token. What is found becomes hides and styled ranges at once;
what is not found is left out. Of nested strong and em only the outermost is styled, as bold-italic if both occur.
-/
import MarkVeil.Decoration.Range
import MarkVeil.Marker.CodeSpan
import MarkVeil.Marker.Emphasis
import MarkVeil.Marker.Link
import MarkVeil.Text.Source
import MarkVeil.Token.Node

namespace MarkVeil.Decoration

open MarkVeil.Text
open MarkVeil.Token (Node)
open MarkVeil.Marker (Emphasis)

/-- a hide, unless it has no bytes -/
def hide (start stop : Nat) : List Range := if start < stop then [.hide start stop] else []

/-- a styled range, unless it has no bytes -/
def style (r : Range) : List Range := if r.start < r.stop then [r] else []

/-- an open construct that waits for its closing token -/
inductive Frame where
  /-- `contentStart?` is none when the opening marker was not found; `mixed` when bold and italic meet inside;
  `suppressed` when an emphasis around it is styled instead -/
  | emphasis (emphasis : Emphasis) (marker : List Char) (contentStart? : Option Nat) (mixed suppressed : Bool)
  /-- `resume?` is the offset just past the link -/
  | link (resume? : Option Nat)
  deriving DecidableEq, Repr

namespace Frame

def isOpen (e : Emphasis) : Frame → Bool
  | .emphasis e' .. => e' == e
  | .link _ => false

def isLink : Frame → Bool
  | .emphasis .. => false
  | .link _ => true

def isOuter : Frame → Bool
  | .emphasis e _ _ _ suppressed => e.merges && !suppressed
  | .link _ => false

/-- note an emphasis inside -/
def mix (inner : Emphasis) : Frame → Frame
  | .emphasis e marker contentStart? mixed suppressed =>
    .emphasis e marker contentStart? (mixed || e != inner) suppressed
  | f => f

/-- note an emphasis inside the outermost frame that takes it in, if there is one; frames are innermost first -/
def mixOuter? (inner : Emphasis) : List Frame → Option (List Frame)
  | [] => none
  | f :: fs =>
    match mixOuter? inner fs with
    | some fs => some (f :: fs)
    | none => if f.isOuter then some (f.mix inner :: fs) else none

end Frame

/-- a scan in progress; frames are innermost first -/
structure Scan where
  cursor : Nat
  frames : List Frame
  deriving DecidableEq, Repr

namespace Scan

/-- a scan after a token, and the ranges that the token gave -/
abbrev Step := Scan × List Range

def start (src : Source) (span? : Option LineSpan) : Scan :=
  ⟨(span?.bind fun span => src.lines.start? span.start).getD 0, []⟩

def markerOf (n : Node) (default : List Char) : List Char := if n.markup.isEmpty then default else n.markup.toList

def contentOf? (n : Node) : Option (List Char) := n.content?.map String.toList

/-- past the text of a token, searched from the token's first line on -/
def skipText (src : Source) (n : Node) (sc : Scan) : Scan :=
  match contentOf? n with
  | none => sc
  | some content =>
    let lineStart := (n.span?.bind fun span => src.lines.start? span.start).getD 0
    match src.findForward? (max sc.cursor lineStart) (n.span?.map (·.last)) content with
    | some found => { sc with cursor := found + byteLen content }
    | none => sc

/-- the opening marker: on the token's line, or before its content -/
def locateOpen? (src : Source) (n : Node) (marker : List Char) (sc : Scan) : Option Nat :=
  match n.span? with
  | some span => src.findOnLine? span.start marker sc.cursor
  | none => (contentOf? n).bind fun content => src.findBefore? content marker

/-- the closing marker: on the token's line, or after its content -/
def locateClose? (src : Source) (n : Node) (marker : List Char) (sc : Scan) : Option Nat :=
  match n.span? with
  | some span => src.findOnLine? span.start marker sc.cursor
  | none => (contentOf? n).bind fun content => src.findAfter? content marker

def openEmphasis (src : Source) (n : Node) (e : Emphasis) (sc : Scan) : Step :=
  let marker := markerOf n e.defaultMarker.toList
  let found? := sc.locateOpen? src n marker
  let contentStart? := found?.map (· + byteLen marker)
  let outer? := if e.merges then Frame.mixOuter? e sc.frames else none
  (⟨contentStart?.getD sc.cursor, .emphasis e marker contentStart? false outer?.isSome :: outer?.getD sc.frames⟩,
    match found? with
    | some found => hide found (found + byteLen marker)
    | none => [])

/-- an emphasis closes, and with it whatever is still open inside -/
def closeEmphasis (src : Source) (n : Node) (e : Emphasis) (sc : Scan) : Step :=
  match sc.frames.dropWhile fun f => !f.isOpen e with
  | .emphasis _ openMarker contentStart? mixed suppressed :: frames =>
    let marker := markerOf n openMarker
    match sc.locateClose? src n marker with
    | none => (⟨sc.cursor, frames⟩, [])
    | some found =>
      let styled := match contentStart? with
        | some start => if suppressed then [] else style (.styled start found (e.styledKind mixed))
        | none => []
      (⟨max sc.cursor (found + byteLen marker), frames⟩, styled ++ hide found (found + byteLen marker))
  | _ => (sc, [])

/-- length of a code span's runs of backticks -/
def tickLen (n : Node) : Nat := if n.markup.isEmpty then 1 else byteLen n.markup.toList

/-- where a code span opens -/
def locateTicks? (src : Source) (n : Node) (run : Nat) (sc : Scan) : Option Nat :=
  match n.span? with
  | some span =>
    ((src.scanStart? span.start sc.cursor).bind fun start => Marker.findRun? src.text start run).filter
      fun found => src.lines.lineOf found == span.start
  | none => (contentOf? n).bind fun content => src.findBefore? content (List.replicate run '`')

/-- a code span; one that does not close before the end of its last line is left out -/
def codeSpan (src : Source) (n : Node) (sc : Scan) : Step :=
  let run := tickLen n
  let limit := (n.span?.bind fun span => src.lines.stop? span.last).getD (byteLen src.text)
  match sc.locateTicks? src n run with
  | none => (sc, [])
  | some first =>
    match (Marker.findRun? src.text (first + run) run).filter fun last => last + run ≤ limit with
    | none => (sc, [])
    | some last =>
      ({ sc with cursor := last + run },
        hide first (first + run) ++ hide last (last + run) ++ style (.styled (first + run) last .code))

/-- hides around a label and its style, for a link or image that begins a line's `base` bytes on -/
def partRanges (base : Nat) (p : Marker.Link.Parts) (kind : Kind) : List Range :=
  hide (base + p.full.start) (base + p.label.start) ++ hide (base + p.closeBracket) (base + p.closeBracket + 1) ++
    hide (base + p.openParen) (base + p.openParen + 1) ++ hide (base + p.closeParen) (base + p.full.stop) ++
    style (.styled (base + p.label.start) (base + p.label.stop) kind)

/-- a line of a token: where it starts, its content, and where on it the scan goes on -/
def lineAt? (src : Source) (line : Nat) (sc : Scan) : Option (Nat × List Char × Nat) :=
  (src.lines.start? line).bind fun base =>
    (src.lineText? line).bind fun text => (src.scanStart? line sc.cursor).map fun start => (base, text, start - base)

/-- an autolink: the offset past it, and the step to its address -/
def openAutolink? (src : Source) (line : Nat) (sc : Scan) : Option (Nat × Nat × List Range) :=
  (sc.lineAt? src line).bind fun (base, text, start) =>
    (Marker.Link.findAutolink? text start).map fun angle =>
      (base + angle.stop, base + angle.start + 1,
        hide (base + angle.start) (base + angle.start + 1) ++ hide (base + angle.stop - 1) (base + angle.stop) ++
          style (.styled (base + angle.start + 1) (base + angle.stop - 1) .link))

/-- a link with its target: the offset past it, and the step to its label -/
def openInline? (src : Source) (line : Nat) (sc : Scan) : Option (Nat × Nat × List Range) :=
  (sc.lineAt? src line).bind fun (base, text, start) =>
    (Marker.Link.findLink? text start).map fun p => (base + p.full.stop, base + p.label.start, partRanges base p .link)

/-- a link opens; one whose target is elsewhere stays as written -/
def openLink (src : Source) (n : Node) (sc : Scan) : Step :=
  let found? := n.span?.bind fun span =>
    if n.markup = "<" then sc.openAutolink? src span.start
    else if n.markup = "[" then sc.openInline? src span.start
    else none
  match found? with
  | some (resume, cursor, ranges) => (⟨cursor, .link (some resume) :: sc.frames⟩, ranges)
  | none => ({ sc with frames := .link none :: sc.frames }, [])

/-- a link closes, and with it whatever is still open inside -/
def closeLink (sc : Scan) : Scan :=
  match sc.frames.dropWhile fun f => !f.isLink with
  | .link resume? :: frames => ⟨max sc.cursor (resume?.getD 0), frames⟩
  | _ => sc

def image (src : Source) (n : Node) (sc : Scan) : Step :=
  match n.span?.bind fun span =>
      (sc.lineAt? src span.start).bind fun (base, text, start) =>
        (Marker.Link.findImage? text start).map fun p => (base, p) with
  | some (base, p) => ({ sc with cursor := base + p.full.stop }, partRanges base p .image)
  | none => (sc, [])

def step (src : Source) (sc : Scan) (n : Node) : Step :=
  match n.kind with
  | .text => (sc.skipText src n, [])
  | .htmlInline => (sc.skipText src n, [])
  | .strongOpen => sc.openEmphasis src n .strong
  | .emOpen => sc.openEmphasis src n .em
  | .strikeOpen => sc.openEmphasis src n .strike
  | .strongClose => sc.closeEmphasis src n .strong
  | .emClose => sc.closeEmphasis src n .em
  | .strikeClose => sc.closeEmphasis src n .strike
  | .codeInline => sc.codeSpan src n
  | .linkOpen => sc.openLink src n
  | .linkClose => (sc.closeLink, [])
  | .image => sc.image src n
  | _ => (sc, [])

def run (src : Source) : Scan → List Node → List Range
  | _, [] => []
  | sc, n :: ns => (sc.step src n).2 ++ run src (sc.step src n).1 ns

def after (src : Source) (sc : Scan) (ns : List Node) : Scan := ns.foldl (fun sc n => (sc.step src n).1) sc

end Scan

end MarkVeil.Decoration
