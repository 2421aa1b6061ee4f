/-
A document as events.

The elements of a document are told in the order of the text: an element starts, what is inside it follows, and it
stops. Every event comes with the extent of what it tells of; a stop has that of its whole element.
-/
import MarkVeil.Markdown.Document

namespace MarkVeil.Markdown

open MarkVeil.Text

/-- what an element is; `other` stands for all that has no tokens -/
inductive Tag where
  | paragraph
  | heading (level : Nat)
  | quote
  | orderedList
  | bulletList
  | item
  | fence (info : List Char)
  | indented
  | html
  | stress (kind : Stress)
  | link (form : LinkForm)
  | image
  | other
  deriving DecidableEq, Repr

inductive Event where
  | start (tag : Tag)
  /-- the end of the element that started last and has not ended -/
  | stop
  | text (t : List Char)
  | code (t : List Char)
  | html (t : List Char)
  | inlineHtml (t : List Char)
  | softBreak
  | hardBreak
  | rule
  | other
  deriving DecidableEq, Repr

/-- the events of an element around others -/
def enclose (tag : Tag) (e : Extent) (inside : List (Event × Extent)) : List (Event × Extent) :=
  (.start tag, e) :: (inside ++ [(.stop, e)])

mutual

def Inline.events (s : List Char) : Inline → List (Event × Extent)
  | .text e => [(.text ((slice? s e.start e.stop).getD []), e)]
  | .code e content => [(.code content, e)]
  | .html e content => [(.inlineHtml content, e)]
  | .softBreak e => [(.softBreak, e)]
  | .hardBreak e => [(.hardBreak, e)]
  | .stress e kind children => enclose (.stress kind) e (eventsAll s children)
  | .link e form children => enclose (.link form) e (eventsAll s children)
  | .image e children => enclose .image e (eventsAll s children)

def Inline.eventsAll (s : List Char) : List Inline → List (Event × Extent)
  | [] => []
  | i :: is => i.events s ++ eventsAll s is

end

def Container.tag : Container → Tag
  | .quote => .quote
  | .list delimiter _ => if delimiter = '.' ∨ delimiter = ')' then .orderedList else .bulletList
  | .item _ => .item

/-- paragraphs of the items of a tight list are bare; a list says what holds for its items -/
def isBare (bare : Bool) : Container → Bool
  | .quote => false
  | .list _ tight => tight
  | .item _ => bare

mutual

/-- the events of a block; a bare paragraph is only its inline elements -/
def Block.events (s : List Char) (bare : Bool) : ReadBlock → List (Event × Extent)
  | .paragraph e content =>
    if bare then Inline.eventsAll s content else enclose .paragraph e (Inline.eventsAll s content)
  | .heading e level content => enclose (.heading level) e (Inline.eventsAll s content)
  | .rule e => [(.rule, e)]
  | .fence e info body _ => enclose (.fence info) e (if body.isEmpty then [] else [(.text body, e)])
  | .indented e body => enclose .indented e (if body.isEmpty then [] else [(.text body, e)])
  | .html e body => enclose .html e (if body.isEmpty then [] else [(.html body, e)])
  | .within e c blocks => enclose c.tag e (Block.eventsAll s (isBare bare c) blocks)

def Block.eventsAll (s : List Char) (bare : Bool) : List ReadBlock → List (Event × Extent)
  | [] => []
  | b :: bs => Block.events s bare b ++ Block.eventsAll s bare bs

end

def Document.events (s : List Char) : List (Event × Extent) := Block.eventsAll s false (Document.ofText s)

end MarkVeil.Markdown
