/-
Blocks of a document.

A block covers a half-open stretch of the text. Leaf blocks with inline content carry it as a value of `α`: pieces
after the first reading of the document, inline elements after the second. `Block.Open` is the reading in progress:
the containers still open, innermost first, each with the blocks it holds so far.
-/
import MarkVeil.Markdown.LineStart

namespace MarkVeil.Markdown

open MarkVeil.Text

inductive Block (α : Type) where
  | paragraph (extent : Extent) (content : α)
  | heading (extent : Extent) (level : Nat) (content : α)
  | rule (extent : Extent)
  /-- a fenced code block; `closed` tells whether a closing fence ended it -/
  | fence (extent : Extent) (info body : List Char) (closed : Bool)
  | indented (extent : Extent) (body : List Char)
  | html (extent : Extent) (body : List Char)
  /-- a container and its blocks -/
  | within (extent : Extent) (container : Container) (blocks : List (Block α))
  deriving Repr

namespace Block

/-- a container still open, with the blocks it holds so far, last first -/
structure Frame (α : Type) where
  container : Container
  start : Nat
  blocks : List (Block α)
  deriving Repr

/-- a document being read -/
structure Open (α : Type) where
  /-- open containers, innermost first -/
  frames : List (Frame α)
  /-- finished blocks outside every open container, last first -/
  blocks : List (Block α)
  /-- end of the line of an item whose marker stands alone on it -/
  bareItem? : Option Nat
  /-- the last line was blank in a way that makes a list loose -/
  blankBefore : Bool
  /-- labels of the link definitions so far, last first -/
  labels : List (List Char)
  deriving Repr

namespace Open

variable {α : Type}

def empty : Open α := ⟨[], [], none, false, []⟩

/-- open containers, outermost first -/
def containers (o : Open α) : List Container := (o.frames.map (·.container)).reverse

/-- add a finished block to the innermost open container -/
def add (b : Block α) (o : Open α) : Open α :=
  match o.frames with
  | [] => { o with blocks := b :: o.blocks }
  | f :: fs => { o with frames := { f with blocks := b :: f.blocks } :: fs }

/-- close the innermost container at an offset; a tight list settles a bare item -/
def close (stop : Nat) (o : Open α) : Open α :=
  match o.frames with
  | [] => o
  | f :: fs =>
    let o := { o with frames := fs }.add (.within ⟨f.start, stop⟩ f.container f.blocks.reverse)
    match f.container with
    | .list _ true => { o with bareItem? := none }
    | _ => o

def closeTo (n stop : Nat) : Nat → Open α → Open α
  | 0, o => o
  | fuel + 1, o => if o.frames.length ≤ n then o else closeTo n stop fuel (o.close stop)

def enter (container : Container) (start : Nat) (o : Open α) : Open α :=
  { o with frames := ⟨container, start, []⟩ :: o.frames }

/-- change the innermost container that is `depth` containers out -/
def modify (depth : Nat) (f : Container → Container) (o : Open α) : Open α :=
  { o with frames := o.frames.modify depth fun g => { g with container := f g.container } }

/-- a list that has blank lines between its items or their blocks -/
def loosen : Container → Container
  | .list d _ => .list d false
  | c => c

/-- the container `depth` containers out -/
def container? (depth : Nat) (o : Open α) : Option Container := (o.frames[depth]?).map (·.container)

/-- an item whose marker stood alone ends at a blank line -/
def settleBareItem (o : Open α) : Open α :=
  let o := match o.bareItem?, o.blankBefore, o.container? 0 with
    | some stop, true, some (.item _) => o.close stop
    | _, _, _ => o
  { o with bareItem? := none }

/-- end a list whose last item is closed, before a block that is no item of it -/
def endList (stop : Nat) (o : Open α) : Open α :=
  let o := o.settleBareItem
  let o := match o.container? 0 with
    | some (.list ..) => o.close stop
    | _ => o
  if o.blankBefore then { o.modify 1 loosen with blankBefore := false } else o

def beginList (start : Nat) (delimiter : Char) (o : Open α) : Open α :=
  { o.enter (.list delimiter true) start with blankBefore := false }

/-- go on with the open list if it has the same delimiter, or begin a new one -/
def continueList (start : Nat) (delimiter : Char) (o : Open α) : Open α :=
  let o := o.settleBareItem
  match o.container? 0 with
  | some (.list d _) =>
    if d = delimiter then if o.blankBefore then { o.modify 0 loosen with blankBefore := false } else o
    else (o.endList start).beginList start delimiter
  | some _ => (o.endList start).beginList start delimiter
  | none => o.beginList start delimiter

/-- note a blank line; a bare item cannot go on after it -/
def noteBlank (o : Open α) : Open α :=
  match o.container? 0 with
  | none => o
  | some .quote => o
  | some (.item _) =>
    if o.bareItem?.isSome then { o.modify 0 (fun _ => .item 0) with blankBefore := true }
    else { o with blankBefore := true }
  | some (.list ..) => { o with blankBefore := true }

def finish (stop : Nat) (o : Open α) : List (Block α) := (o.closeTo 0 stop o.frames.length).blocks.reverse

end Open

end Block

end MarkVeil.Markdown
