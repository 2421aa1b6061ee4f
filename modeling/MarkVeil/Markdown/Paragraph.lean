/-
From the pieces of a paragraph to its inline elements.

Pieces are settled from left to right. Code spans, autolinks and raw HTML take the pieces up to their end. A closing
bracket takes everything since the bracket it closes, if a target or the label of a definition makes it a link or an
image; no link holds a link, so earlier brackets that could open one are spent then. Runs of delimiters are paired
last, inside each link and image on its own.
-/
import MarkVeil.Markdown.Html
import MarkVeil.Markdown.Inline
import MarkVeil.Markdown.Target
import MarkVeil.Text.CaseFold

namespace MarkVeil.Markdown.Paragraph

open MarkVeil.Text

/-- where a paragraph stands -/
structure Setting where
  /-- the text up to the end of the paragraph's block -/
  text : List Char
  containers : List Container
  /-- labels of link definitions, case folded -/
  labels : List (List Char)

namespace Setting

def after (e : Setting) (offset : Nat) : List Char := (dropBytes? e.text offset).getD []

/-- offset of where `rest`, an end of the text, begins -/
def offsetOf (e : Setting) (rest : List Char) : Nat := byteLen e.text - byteLen rest

/-- past the markers that a new line repeats -/
def skip (e : Setting) : List Char → List Char := Container.skipRepeats e.containers

def label? (e : Setting) : List Char → Option (List Char × List Char)
  | '[' :: s => Target.label? (fun t => some (e.skip t)) s
  | _ => none

/-- a definition has this label -/
def defines (e : Setting) (label : List Char) : Bool := e.labels.contains (foldCase label)

end Setting

/-- a bracket that may open a link or an image, and the parts after it, last first; a spent one no longer may -/
structure Bracket where
  image : Bool
  spent : Bool
  extent : Extent
  parts : List Part
  deriving Repr

/-- open brackets, innermost first; the parts before them, last first; closing brackets that end no label -/
structure State where
  brackets : List Bracket
  parts : List Part
  failed : List Nat
  deriving Repr

namespace State

def add (part : Part) (st : State) : State :=
  match st.brackets with
  | [] => { st with parts := part :: st.parts }
  | b :: bs => { st with brackets := { b with parts := part :: b.parts } :: bs }

def addItem (i : Inline) (st : State) : State := st.add (.item i)

/-- parts after a bracket that opens nothing go to the one outside it -/
def dropBracket (st : State) : State :=
  match st.brackets with
  | [] => st
  | b :: bs => (b.parts.reverse.foldl (fun st part => st.add part)
      ({ st with brackets := bs }.addItem (.text b.extent)))

def dropAll : Nat → State → State
  | 0, st => st
  | n + 1, st => dropAll n st.dropBracket

/-- the innermost bracket opens an element that ends at `stop`; a link spends the brackets around it -/
def closeBracket (form : LinkForm) (stop : Nat) (st : State) : State :=
  match st.brackets with
  | [] => st
  | b :: bs =>
    let children := Part.resolve b.parts.reverse
    if b.image then { st with brackets := bs }.addItem (.image ⟨b.extent.start, stop⟩ children)
    else
      let bs := bs.map fun b => if b.image then b else { b with spent := true }
      { st with brackets := bs }.addItem (.link ⟨b.extent.start, stop⟩ form children)

end State

/-- pieces from an offset on, the first one cut there -/
def piecesFrom (offset : Nat) : List Piece → List Piece
  | [] => []
  | q :: rest => if q.stop ≤ offset then piecesFrom offset rest else { q with start := max q.start offset } :: rest

/-- a later run of exactly `n` backticks, and the pieces after it -/
def closingTicks? (n : Nat) : List Piece → Option (Piece × List Piece)
  | [] => none
  | q :: rest =>
    match q.mark with
    | .ticks m _ => if m = n then some (q, rest) else closingTicks? n rest
    | _ => closingTicks? n rest

/-- the text of a code span with each line end as a space, without the markers that new lines repeat -/
def joinLines (skip : List Char → List Char) : Nat → List Char → List Char
  | 0, _ => []
  | _, [] => []
  | fuel + 1, c :: s =>
    if c = '\n' ∨ c = '\r' then ' ' :: joinLines skip fuel (skip s) else c :: joinLines skip fuel s

/-- what a code span shows: one space at each end goes, unless there is nothing else -/
def codeContent (skip : List Char → List Char) (s : List Char) : List Char :=
  let s := joinLines skip s.length s
  if s.head? = some ' ' ∧ s.getLast? = some ' ' ∧ ¬ s.all (· == ' ') then s.tail.dropLast else s

/-- a run of backticks: the state and the pieces left -/
def ticks (e : Setting) (q : Piece) (n : Nat) (escaped : Bool) (st : State) (rest : List Piece) :
    State × List Piece :=
  let needed := if escaped then n - 1 else n
  match if needed = 0 then none else closingTicks? needed rest with
  | none => (st.addItem (.text ⟨q.start, q.stop⟩), rest)
  | some (closer, rest) =>
    let content := codeContent e.skip ((slice? e.text q.stop closer.start).getD [])
    if escaped then
      ((st.addItem (.text ⟨q.start, q.start + 1⟩)).addItem (.code ⟨q.start + 1, closer.stop⟩ content), rest)
    else (st.addItem (.code ⟨q.start, closer.stop⟩ content), rest)

/-- an opening angle bracket: the state and the pieces left -/
def angle (e : Setting) (q : Piece) (st : State) (rest : List Piece) : State × List Piece :=
  let plain := (st.addItem (.text ⟨q.start, q.stop⟩), rest)
  match rest with
  | [] => plain
  | next :: _ =>
    let s := e.after next.start
    match Html.autolink? s with
    | some after =>
      let stop := e.offsetOf after
      (st.addItem (.link ⟨q.start, stop⟩ .autolink [.text ⟨q.start + 1, stop - 1⟩]), piecesFrom stop rest)
    | none =>
      match Html.inline? e.skip ('<' :: s) with
      | some (content, after) =>
        let stop := e.offsetOf after
        (st.addItem (.html ⟨q.start, stop⟩ content), piecesFrom stop rest)
      | none => plain

/-- what follows a closing bracket that has no target -/
inductive Follow where
  /-- a label, where it ends and the pieces after it -/
  | label (label : List Char) (stop : Nat) (rest : List Piece)
  /-- a label whose end is no piece -/
  | broken
  /-- empty brackets, and the pieces after them -/
  | emptyLabel (rest : List Piece)
  | other

/-- what follows a closing bracket, read at the next piece -/
def follow (e : Setting) (rest : List Piece) : Follow :=
  match rest with
  | [] => .other
  | next :: _ =>
    match e.after next.start with
    | '[' :: ']' :: _ => .emptyLabel (rest.drop 2)
    | s =>
      match e.label? s with
      | some (label, after) =>
        let stop := e.offsetOf after
        match rest.dropWhile fun q => q.stop ≤ stop - 1 with
        | [] => .broken
        | _ :: rest => .label label stop rest
      | none => .other

/-- a bracket's own text as the label of a definition, up to the closing bracket `q` -/
def ownLabel (e : Setting) (b : Bracket) (q : Piece) : Bool :=
  match e.label? ((slice? e.text (b.extent.stop - 1) q.stop).getD []) with
  | some (label, rest) => rest.isEmpty && e.defines label
  | none => false

/-- a closing bracket: the state and the pieces left -/
def linkClose (e : Setting) (q : Piece) (st : State) (rest : List Piece) : State × List Piece :=
  let plain (st : State) := (st.dropBracket.addItem (.text ⟨q.start, q.stop⟩), rest)
  match st.brackets with
  | [] => plain st
  | b :: _ =>
    if b.spent then plain st
    else
      match Target.inline? e.skip (e.after q.stop) with
      | some after =>
        let stop := e.offsetOf after
        (st.closeBracket .inline stop, piecesFrom stop rest)
      | none =>
        let tried := st.failed.contains q.start
        match follow e rest with
        | .label label stop rest' =>
          if e.defines label then (st.closeBracket .reference stop, rest')
          else plain { st with failed := (stop - 1) :: st.failed }
        | .broken => plain st
        | .emptyLabel rest' =>
          if !tried ∧ ownLabel e b q then (st.closeBracket .reference q.stop, rest') else plain st
        | .other => if !tried ∧ ownLabel e b q then (st.closeBracket .reference q.stop, rest) else plain st

/-- settle the next piece: the state and the pieces left -/
def step (e : Setting) (st : State) (q : Piece) (rest : List Piece) : State × List Piece :=
  let extent : Extent := ⟨q.start, q.stop⟩
  match q.mark with
  | .text => (st.addItem (.text extent), rest)
  | .reference => (st.addItem (.text extent), rest)
  | .softBreak => (st.addItem (.softBreak extent), rest)
  | .hardBreak _ => (st.addItem (.hardBreak extent), rest)
  | .run delimiter count opens closes => (st.add (.run ⟨delimiter, q.start, count, count, opens, closes⟩), rest)
  | .ticks n escaped => ticks e q n escaped st rest
  | .angle => angle e q st rest
  | .imageOpen => ({ st with brackets := ⟨true, false, extent, []⟩ :: st.brackets }, rest)
  | .linkOpen => ({ st with brackets := ⟨false, false, extent, []⟩ :: st.brackets }, rest)
  | .linkClose => linkClose e q st rest

/-- settle all pieces; fuel is their number -/
def steps (e : Setting) : Nat → State → List Piece → State
  | 0, st, _ => st
  | _, st, [] => st
  | fuel + 1, st, q :: rest =>
    let (st, rest) := step e st q rest
    steps e fuel st rest

def ofPieces (e : Setting) (pieces : List Piece) : List Inline :=
  let st := steps e pieces.length ⟨[], [], []⟩ pieces
  Part.resolve (st.dropAll st.brackets.length).parts.reverse

end MarkVeil.Markdown.Paragraph
