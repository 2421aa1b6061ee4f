/-
The token tree of a document, by recursion over its blocks.

The builder reads events, with a stack of the elements that have started. `ofBlocks` writes the same tokens by recursion
over the blocks that the events are of, to a stream that gathers inline tokens between block tokens. That it is the same
tree is `ofReport_eq`; proofs about the blocks of a document go over this form.
-/
import MarkVeil.Markdown.Event
import MarkVeil.Token.Markup

namespace MarkVeil.Token

open MarkVeil.Text
open MarkVeil.Markdown (Container Inline ReadBlock isBare)

/-! ## Inline tokens -/

mutual

def ofInline (src : Source) : Inline → List Node
  | .text e => [{ kind := .text, span? := spanOf src e, content? := String.ofList (textOf src e) }]
  | .code e content =>
    [{ kind := .codeInline, span? := spanOf src e, markup := String.ofList (codeMarker src e.start), tag := "code",
       content? := String.ofList content }]
  | .html e content => [{ kind := .htmlInline, span? := spanOf src e, content? := String.ofList content }]
  | .softBreak e => [{ kind := .softBreak, span? := spanOf src e }]
  | .hardBreak e => [{ kind := .hardBreak, span? := spanOf src e }]
  | .stress e kind children =>
    let (opening, closing, tag, limit, plain) := stressShape kind
    let marker := stressMarker src e.start limit plain
    let markup := String.ofList marker
    let content? := (slice? src.text (e.start + byteLen marker) (e.stop - byteLen marker)).map String.ofList
    { kind := opening, span? := LineSpan.line (src.lines.lineOf e.start), markup, tag, content? } ::
      (ofInlines src children ++
        [{ kind := closing, span? := LineSpan.line (lastLineOf src e), markup, tag, content? }])
  | .link e form children =>
    { kind := .linkOpen, span? := spanOf src e, markup := linkMarker form, tag := "a" } ::
      (ofInlines src children ++
        [{ kind := .linkClose, span? := LineSpan.line (lastLineOf src e), markup := linkMarker form, tag := "a" }])
  | .image e children =>
    [{ kind := .image, span? := spanOf src e, markup := "![", tag := "img", children := ofInlines src children }]

def ofInlines (src : Source) : List Inline → List Node
  | [] => []
  | i :: is => ofInline src i ++ ofInlines src is

end

/-! ## Block tokens -/

/-- a token stream being written: block tokens, and the inline tokens since the last of them, both last first -/
structure Stream where
  blocks : List Node
  inlines : List Node
  deriving Repr

/-- lines that hold all of some tokens -/
def hull : List Node → Option LineSpan
  | [] => none
  | n :: ns =>
    match n.span?, hull ns with
    | some a, some b => some (a.hull b)
    | some a, none => some a
    | none, b => b

namespace Stream

/-- gather pending inline tokens -/
def flush (st : Stream) : Stream :=
  match st.inlines with
  | [] => st
  | ns => ⟨{ kind := .inline, span? := hull ns, children := ns.reverse } :: st.blocks, []⟩

def block (n : Node) (st : Stream) : Stream :=
  let st := st.flush
  { st with blocks := n :: st.blocks }

def inline (ns : List Node) (st : Stream) : Stream := { st with inlines := ns.reverse ++ st.inlines }

/-- write a token that opens an element, what `body` writes, and the token that closes it on its last line -/
def pair (opening closing : Kind) (span : LineSpan) (markup : List Char) (tag : String) (body : Stream → Stream)
    (st : Stream) : Stream :=
  let markup := String.ofList markup
  (body (st.block { kind := opening, span? := span, markup, tag })).block
    { kind := closing, span? := LineSpan.line span.last, markup, tag }

/-- write a token that holds literal text, if it has any -/
def literal (kind : Kind) (span : LineSpan) (markup : List Char) (tag : String) (info body : List Char) (st : Stream) :
    Stream :=
  st.block { kind, span? := span, markup := String.ofList markup, tag,
             info? := if info.isEmpty then none else some (String.ofList info),
             content? := if body.isEmpty then none else some (String.ofList body) }

end Stream

/-- tokens and HTML element of a container that begins at an offset, and its marker -/
def containerShape (src : Source) (offset : Nat) : Container → Kind × Kind × String × List Char
  | .quote => (.blockquoteOpen, .blockquoteClose, "blockquote", ['>'])
  | .list delimiter _ =>
    if delimiter = '.' ∨ delimiter = ')' then
      (.orderedListOpen, .orderedListClose, "ol", numberMarker src offset)
    else (.bulletListOpen, .bulletListClose, "ul", bulletMarker src offset)
  | .item _ => (.listItemOpen, .listItemClose, "li", [])

mutual

/-- write the tokens of a block; a bare paragraph is only its inline tokens -/
def writeBlock (src : Source) (bare : Bool) : ReadBlock → Stream → Stream
  | .paragraph e content, st =>
    if bare then st.inline (ofInlines src content)
    else st.pair .paragraphOpen .paragraphClose (spanOf src e) [] "p" fun st => st.inline (ofInlines src content)
  | .heading e level content, st =>
    st.pair .headingOpen .headingClose (spanOf src e) (headingMarker src e level) (String.ofList ['h', level.digitChar])
      fun st => st.inline (ofInlines src content)
  | .rule e, st =>
    st.block { kind := .hr, span? := spanOf src e, markup := String.ofList (trim (textOf src e)), tag := "hr" }
  | .fence e info body _, st => st.literal .fence (spanOf src e) (fenceMarkup src e.start) "code" (trim info) body
  | .indented e body, st => st.literal .codeBlock (spanOf src e) [] "code" [] body
  | .html e body, st => st.literal .htmlBlock (spanOf src e) [] "" [] body
  | .within e c blocks, st =>
    let (opening, closing, tag, marker) := containerShape src e.start c
    st.pair opening closing (spanOf src e) marker tag fun st => writeBlocks src (isBare bare c) blocks st

def writeBlocks (src : Source) (bare : Bool) : List ReadBlock → Stream → Stream
  | [], st => st
  | b :: bs, st => writeBlocks src bare bs (writeBlock src bare b st)

end

def ofBlocks (src : Source) (blocks : List ReadBlock) : Node :=
  { kind := .document, span? := LineSpan.ofLines 0 src.lines.count,
    children := (writeBlocks src false blocks ⟨[], []⟩).flush.blocks.reverse }

end MarkVeil.Token
