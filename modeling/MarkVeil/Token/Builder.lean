/-
From the events of a document to its token tree.

`Builder` takes one event after another. Block tokens are written at once; inline tokens go to a container, which is
opened with the first of them, grows with each over its lines, and is written before the next block token. Elements
that have started wait on a stack for what their stop writes. While an image waits, inline tokens are its own.
-/
import MarkVeil.Markdown.Event
import MarkVeil.Token.Markup

namespace MarkVeil.Token

open MarkVeil.Text
open MarkVeil.Markdown (Event Stress Tag)

def textToken (src : Source) (t : List Char) (e : Extent) : Node :=
  { kind := .text, span? := spanOf src e, content? := String.ofList ((slice? src.text e.start e.stop).getD t) }

def htmlToken (src : Source) (t : List Char) (e : Extent) : Node :=
  { kind := .htmlInline, span? := spanOf src e, content? := String.ofList t }

/-- an element that has started, and what its stop writes -/
inductive Pending where
  /-- a token on the last line of the span -/
  | block (closing : Kind) (tag markup : String) (span : LineSpan)
  /-- a token on the last line of the extent -/
  | inline (closing : Kind) (tag markup : String) (content? : Option String) (e : Extent)
  /-- an image, with the tokens of its description so far -/
  | image (n : Node)
  /-- a block of code or HTML, with its text so far -/
  | literal (n : Node)
  | ignored
  deriving Repr

structure Builder where
  /-- block tokens, last first -/
  blocks : List Node
  /-- container of the inline tokens since the last block token -/
  inline? : Option Node
  /-- innermost first -/
  pending : List Pending
  deriving Repr

namespace Builder

def empty : Builder := ⟨[], none, []⟩

/-- a token more in the innermost image that waits -/
def intoImage? (n : Node) : List Pending → Option (List Pending)
  | [] => none
  | .image m :: ps => some (.image { m with children := m.children ++ [n] } :: ps)
  | p :: ps => (intoImage? n ps).map (p :: ·)

/-- write an inline token, which covers the lines of an extent if it does not say which -/
def pushInline (src : Source) (n : Node) (e : Extent) (b : Builder) : Builder :=
  match intoImage? n b.pending with
  | some pending => { b with pending }
  | none =>
    let span := n.span?.getD (spanOf src e)
    let c := b.inline?.getD { kind := .inline, span? := span }
    { b with inline? := some { c with span? := c.span?.map (·.hull span), children := c.children ++ [n] } }

def flush (b : Builder) : Builder := { b with blocks := b.inline?.toList ++ b.blocks, inline? := none }

def pushBlock (n : Node) (b : Builder) : Builder :=
  let b := b.flush
  { b with blocks := n :: b.blocks }

/-- let an element wait for its stop -/
def await (p : Pending) (b : Builder) : Builder := { b with pending := p :: b.pending }

/-! ## Events -/

def openBlock (src : Source) (e : Extent) (opening closing : Kind) (tag : String) (markup : List Char) (b : Builder) :
    Builder :=
  let markup := String.ofList markup
  let span := spanOf src e
  (b.pushBlock { kind := opening, span? := span, markup, tag }).await (.block closing tag markup span)

def openLiteral (n : Node) (b : Builder) : Builder := b.flush.await (.literal n)

def openStress (src : Source) (kind : Stress) (e : Extent) (b : Builder) : Builder :=
  let (opening, closing, tag, limit, plain) := stressShape kind
  let marker := stressMarker src e.start limit plain
  let markup := String.ofList marker
  let content? := (slice? src.text (e.start + byteLen marker) (e.stop - byteLen marker)).map String.ofList
  (b.pushInline src { kind := opening, span? := LineSpan.line (src.lines.lineOf e.start), markup, tag, content? } e).await
    (.inline closing tag markup content? e)

def start (src : Source) (tag : Tag) (e : Extent) (b : Builder) : Builder :=
  match tag with
  | .paragraph => b.openBlock src e .paragraphOpen .paragraphClose "p" []
  | .heading level =>
    b.openBlock src e .headingOpen .headingClose (String.ofList ['h', level.digitChar]) (headingMarker src e level)
  | .quote => b.openBlock src e .blockquoteOpen .blockquoteClose "blockquote" ['>']
  | .orderedList => b.openBlock src e .orderedListOpen .orderedListClose "ol" (numberMarker src e.start)
  | .bulletList => b.openBlock src e .bulletListOpen .bulletListClose "ul" (bulletMarker src e.start)
  | .item => b.openBlock src e .listItemOpen .listItemClose "li" []
  | .fence info =>
    let info := trim info
    b.openLiteral { kind := .fence, span? := spanOf src e, markup := String.ofList (fenceMarkup src e.start),
                    tag := "code", info? := if info.isEmpty then none else some (String.ofList info) }
  | .indented => b.openLiteral { kind := .codeBlock, span? := spanOf src e, tag := "code" }
  | .html => b.openLiteral { kind := .htmlBlock, span? := spanOf src e }
  | .stress kind => b.openStress src kind e
  | .link form =>
    (b.pushInline src { kind := .linkOpen, span? := spanOf src e, markup := linkMarker form, tag := "a" } e).await
      (.inline .linkClose "a" (linkMarker form) none e)
  | .image => b.await (.image { kind := .image, span? := spanOf src e, markup := "![", tag := "img" })
  | .other => b.await .ignored

def stop (src : Source) (b : Builder) : Builder :=
  match b.pending with
  | [] => b
  | p :: pending =>
    let b := { b with pending }
    match p with
    | .block closing tag markup span => b.pushBlock { kind := closing, span? := LineSpan.line span.last, markup, tag }
    | .inline closing tag markup content? e =>
      b.pushInline src { kind := closing, span? := LineSpan.line (lastLineOf src e), markup, tag, content? } e
    -- an image covers lines, so the extent is not asked for
    | .image n => b.pushInline src n ⟨0, 0⟩
    | .literal n => { b with blocks := n :: b.blocks }
    | .ignored => b

/-- add to the text of the block of code or HTML that has just started, or else write a token -/
def addText (src : Source) (t : List Char) (n : Node) (e : Extent) (b : Builder) : Builder :=
  match b.pending with
  | .literal m :: pending =>
    { b with pending := .literal { m with content? := some (m.content?.getD "" ++ String.ofList t) } :: pending }
  | _ => b.pushInline src n e

def step (src : Source) (b : Builder) : Event × Extent → Builder
  | (.start tag, e) => b.start src tag e
  | (.stop, _) => b.stop src
  | (.text t, e) => b.addText src t (textToken src t e) e
  | (.code t, e) =>
    b.pushInline src { kind := .codeInline, span? := spanOf src e, markup := String.ofList (codeMarker src e.start),
                       tag := "code", content? := String.ofList t } e
  | (.html t, e) => b.addText src t (htmlToken src t e) e
  | (.inlineHtml t, e) => b.pushInline src (htmlToken src t e) e
  | (.softBreak, e) => b.pushInline src { kind := .softBreak, span? := spanOf src e } e
  | (.hardBreak, e) => b.pushInline src { kind := .hardBreak, span? := spanOf src e } e
  | (.rule, e) =>
    b.pushBlock { kind := .hr, span? := spanOf src e, markup := String.ofList (trim (textOf src e)), tag := "hr" }
  | (.other, _) => b

def run (src : Source) (b : Builder) (es : List (Event × Extent)) : Builder := es.foldl (step src) b

def finish (src : Source) (b : Builder) : Node :=
  { kind := .document, span? := LineSpan.ofLines 0 src.lines.count, children := b.flush.blocks.reverse }

end Builder

/-- the token tree that events of a text make -/
def ofEvents (src : Source) (es : List (Event × Extent)) : Node := (Builder.empty.run src es).finish src

def parse (text : List Char) : Node := ofEvents (Source.ofText text) (Markdown.Document.events text)

end MarkVeil.Token
