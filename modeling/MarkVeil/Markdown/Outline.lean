/-
The outline of a document: its blocks, with paragraphs cut into pieces.

The text is read a block at a time. Each block's first line closes the containers whose markers it does not repeat and
opens new ones; what is left of it decides the block, and the block reads as many lines as belong to it. A paragraph
ends before a line that `interrupts` it, and other lines go on with it even without its markers. Link definitions
leave no block, only their label. `ofText` is the whole reading.
-/
import MarkVeil.Markdown.Block
import MarkVeil.Markdown.Entity
import MarkVeil.Markdown.Html
import MarkVeil.Markdown.Piece
import MarkVeil.Markdown.Target

namespace MarkVeil.Markdown.Outline

open MarkVeil.Text

/-- a block with its paragraphs in pieces -/
abbrev RawBlock := Block (List Piece)

/-! ## First lines -/

def atx? (s : List Char) : Option Nat :=
  let level := countRun '#' s
  if 1 ≤ level ∧ level ≤ 6 ∧ ((s.drop level).head?.all isAsciiBlank) then some level else none

/-- a setext underline: its level and the rest after its line -/
def setext? (s : List Char) : Option (Nat × List Char) :=
  match s with
  | '=' :: _ => (blankLine? (s.drop (countRun '=' s))).map fun rest => (1, rest)
  | '-' :: _ => (blankLine? (s.drop (countRun '-' s))).map fun rest => (2, rest)
  | _ => none

/-- an opening code fence: its character and length; no backtick follows a fence of backticks on its line -/
def fence? (s : List Char) : Option (Char × Nat) :=
  match s with
  | '`' :: _ =>
    let n := countRun '`' s
    if 3 ≤ n ∧ !(lineOf (s.drop n)).contains '`' then some ('`', n) else none
  | '~' :: _ => if 3 ≤ countRun '~' s then some ('~', countRun '~' s) else none
  | _ => none

/-- the end of a code fence: the rest after the spaces that may follow it -/
def fenceEnd? (c : Char) (n : Nat) (s : List Char) : Option (List Char) :=
  if s.isEmpty then some []
  else
    let k := countRun c s
    let rest := (s.drop k).dropWhile (· == ' ')
    if n ≤ k ∧ atLineEnd rest then some rest else none

/-- an item marker that may interrupt a paragraph: whether it counts from one or has no number, and the rest -/
def marker? (s : List Char) : Option (Bool × List Char) :=
  match s with
  | [] => none
  | c :: t =>
    let found := if c = '-' ∨ c = '+' ∨ c = '*' then some (true, t)
      else
        let (count, value, rest) := Entity.number Entity.decimalDigit? 10 9 0 0 s
        match rest with
        | d :: rest => if 0 < count ∧ (d = '.' ∨ d = ')') then some (value == 1, rest) else none
        | [] => none
    match found with
    | some (first, rest) =>
      match rest with
      | ' ' :: _ => found
      | '\t' :: _ => found
      | _ => if atLineEnd rest then some (first, rest) else none
    | none => none

/-- HTML that begins a block, and may do so inside a paragraph -/
def htmlInterrupts : List Char → Bool
  | '<' :: s => (Html.blockEnd? s).isSome || Html.opensBlock s
  | _ => false

/-- the line ends the paragraph before it; `inside` tells whether it repeats all markers -/
def interrupts (inside : Bool) (s : List Char) : Bool :=
  atLineEnd s || (rule? s).isSome || (atx? s).isSome || (fence? s).isSome || s.head? == some '>' ||
    (match marker? s with
      | some (first, rest) => !inside || (first && !atBlankLine rest)
      | none => false) ||
    htmlInterrupts s

/-- where a definition goes on after a line end, unless the new line is a block of its own -/
def nextLine (cs : List Container) : Target.NextLine := fun s =>
  let (n, l) := Container.repeats cs (LineStart.ofRest s)
  let (missing, l) := l.columns 4
  let inside := n == cs.length
  if missing = 0 then some l.rest
  else if interrupts inside l.rest ∨ (inside ∧ (setext? l.rest).isSome) then none
  else some l.rest

/-! ## Link definitions -/

/-- blanks in a definition with at most one line end: whether there was one, and the rest -/
def definitionBlanks? (cs : List Container) (s : List Char) : Option (Bool × List Char) :=
  let s := s.dropWhile isGap
  match lineEnd? s with
  | none => some (false, s)
  | some t =>
    ((nextLine cs t).map (List.dropWhile isGap)).bind fun t => if atLineEnd t then none else some (true, t)

/-- the rest after the end of a definition's title -/
def titleEnd? (cs : List Container) (first last : Char) : Nat → List Char → Option (List Char)
  | 0, _ => none
  | fuel + 1, s =>
    match s with
    | [] => none
    | '\\' :: c :: t =>
      if c = '\n' ∨ c = '\r' then titleEnd? cs first last fuel (c :: t) else titleEnd? cs first last fuel t
    | c :: t =>
      if c = last then some t
      else if c = first then none
      else if c = '\n' ∨ c = '\r' then
        ((lineEnd? s).bind (nextLine cs)).bind fun t => if atBlankLine t then none else titleEnd? cs first last fuel t
      else titleEnd? cs first last fuel t

/-- a definition's title: the rest after it -/
def title? (cs : List Container) (s : List Char) : Option (List Char) :=
  (Target.titleMarks? s).bind fun (first, last, s) => titleEnd? cs first last (s.length + 1) s

/-- how deep parentheses nest in the destination of a definition -/
def definitionNesting : Nat := 1

/-- what follows the destination of a definition: an end of line, or a title that ends its line -/
def definitionTail? (cs : List Container) (s : List Char) : Option (List Char) :=
  match definitionBlanks? cs s with
  | none => some s
  | some (newline, t) =>
    if !newline ∧ t.length = s.length then none
    else
      match title? cs t with
      | some rest => if atBlankLine rest then some rest else if newline then some s else none
      | none => if newline then some s else none

/-- a link definition: its label and the rest after it -/
def definition? (cs : List Container) : List Char → Option (List Char × List Char)
  | '[' :: s =>
    (Target.label? (nextLine cs) s).bind fun (label, rest) =>
      match rest with
      | ':' :: rest =>
        ((definitionBlanks? cs rest).bind fun (_, rest) =>
          (Target.destination? definitionNesting rest).bind fun after =>
            if after.length = rest.length then none else definitionTail? cs after).map fun rest => (label, rest)
      | _ => none
  | _ => none

/-! ## Leaf blocks -/

/-- a block, and the place after it -/
abbrev Found := RawBlock × Place

/-- columns left over from a tab, then the line; a carriage return before its last character goes -/
def literalLine (spare : Nat) (line : List Char) : List Char :=
  List.replicate spare ' ' ++
    match line.reverse with
    | c :: '\r' :: before => if c.utf8Size = 1 then before.reverse ++ [c] else line
    | _ => line

/-- the lines of an indented block from `p` on: blank lines count once another line follows them; the place after it,
and whether blank lines came last -/
def indented (cs : List Container) (start : Nat) :
    Nat → (spare : Nat) → (body blanks : List Char) → (stop : Nat) → Place → Found × Bool
  | 0, _, body, blanks, stop, p => ((.indented ⟨start, stop⟩ body, p), !blanks.isEmpty)
  | fuel + 1, spare, body, blanks, stop, p =>
    let line := lineOf p.rest
    let after := p.skip line.length
    let text := blanks ++ literalLine spare line
    let (body, blanks, stop) :=
      if atBlankLine p.rest then (body, text, stop) else (body ++ text, [], after.pos)
    let (n, l) := Container.repeats cs (LineStart.ofRest after.rest)
    let (missing, l) := l.columns 4
    if n < cs.length ∨ (missing ≠ 0 ∧ ¬ l.atEnd) ∨ l.rest.isEmpty then
      ((.indented ⟨start, stop⟩ body, after), !blanks.isEmpty)
    else indented cs start fuel l.spare body blanks stop (after.moveTo l.rest)

/-- the lines of a fenced block from `p` on -/
def fenced (cs : List Container) (start indent : Nat) (c : Char) (n : Nat) (info : List Char) :
    Nat → (body : List Char) → Place → Found
  | 0, body, p => (.fence ⟨start, p.pos⟩ info body false, p)
  | fuel + 1, body, p =>
    let (k, l) := Container.repeats cs (LineStart.ofRest p.rest)
    if k < cs.length then (.fence ⟨start, p.pos⟩ info body false, p)
    else
      let l := (l.columns indent).2
      let (missing, edge) := l.columns (4 - indent)
      match if missing ≠ 0 then fenceEnd? c n edge.rest else none with
      | some rest =>
        (.fence ⟨start, p.offsetOf rest⟩ info body !edge.rest.isEmpty, p.moveTo ((blankLine? rest).getD rest))
      | none =>
        let line := lineOf l.rest
        fenced cs start indent c n info fuel (body ++ literalLine l.spare line) ((p.moveTo l.rest).skip line.length)

/-- a fenced block whose fence begins at `p`, behind `indent` columns -/
def fence (cs : List Container) (indent : Nat) (c : Char) (n : Nat) (p : Place) : Found :=
  let first := p.skip n
  let info := (lineOf (first.rest.dropWhile isGap)).reverse.dropWhile isAsciiBlank
  fenced cs p.pos indent c n (Entity.unescape info.reverse) (p.rest.length + 1) []
    (first.skip (lineOf first.rest).length)

/-- the lines of an HTML block from `p` on, up to one that holds `mark` or else up to a blank line -/
def html (cs : List Container) (start : Nat) (mark? : Option (List Char)) :
    Nat → (spare : Nat) → (body : List Char) → Place → Found
  | 0, _, body, p => (.html ⟨start, p.pos⟩ body, p)
  | fuel + 1, spare, body, p =>
    let line := lineOf p.rest
    let after := p.skip line.length
    let body := body ++ literalLine spare line
    let (n, l) := Container.repeats cs (LineStart.ofRest after.rest)
    let ends : Bool := match mark? with
      | some mark => (find? mark line).isSome
      | none => l.atEnd
    if n < cs.length ∨ ends then (.html ⟨start, after.pos⟩ body, after)
    else if l.rest.isEmpty ∨ (mark?.isNone ∧ atBlankLine l.rest) then
      (.html ⟨start, after.offsetOf l.rest⟩ body, after)
    else html cs start mark? fuel l.spare body (after.moveTo l.rest)

def heading (level : Nat) (p : Place) : Found :=
  let marked := p.skip level
  match lineEnd? marked.rest with
  | some rest => (.heading ⟨p.pos, p.offsetOf rest⟩ level [], p.moveTo rest)
  | none =>
    let first := marked.moveTo (marked.rest.dropWhile isGap)
    let line := LineReading.ofPlace [] first
    let pieces := match line.break? with
      | some ⟨.hardBreak true, s, _⟩ => Piece.pushText s (s + 1) line.pieces
      | _ => line.pieces
    let isEnd (c : Char) : Bool := c == '\n' || c == '\r' || c == ' '
    let text := ((first.rest.take (first.rest.length - line.after.rest.length)).reverse.dropWhile isEnd).reverse
    let closer := (text.reverse.dropWhile (· == '#')).reverse
    let text := if closer.isEmpty then [] else
      if closer.getLast? = some ' ' then (closer.reverse.dropWhile (· == ' ')).reverse else text
    let pieces := match pieces with
      | [] => []
      | q :: more => if text.isEmpty then [] else { q with stop := first.pos + byteLen text } :: more
    (.heading ⟨p.pos, line.after.pos⟩ level pieces.reverse, line.after)

/-- the lines of a paragraph from `p` on -/
def paragraph (cs : List Container) (start : Nat) : Nat → List Piece → Place → Found
  | 0, pieces, p => (.paragraph ⟨start, p.pos⟩ pieces.reverse, p)
  | fuel + 1, pieces, p =>
    let line := LineReading.ofPlace pieces p
    let next := line.after
    /- a backslash at the end of the last line is no break -/
    let last := match line.break? with
      | some ⟨.hardBreak true, s, _⟩ => Piece.pushText s (s + 1) line.pieces
      | _ => line.pieces
    let (n, l) := Container.repeats cs (LineStart.ofRest next.rest)
    let inside := n == cs.length
    let (missing, l) := l.columns 4
    let ended : Found := (.paragraph ⟨start, next.pos⟩ last.reverse, next)
    match if missing ≠ 0 ∧ inside then setext? l.rest else none with
    | some (level, rest) => (.heading ⟨start, next.offsetOf rest⟩ level last.reverse, next.moveTo rest)
    | none =>
      if (missing ≠ 0 ∧ interrupts inside l.rest) ∨ l.blanks.atEnd then ended
      else paragraph cs start fuel (line.break?.toList ++ line.pieces) (next.moveTo l.blanks.rest)

/-! ## The whole text -/

abbrev Reading := Block.Open (List Piece)

/-- the block that begins at `l` -/
inductive First where
  /-- a block, the place after it, and whether it ended in blank lines -/
  | found (b : RawBlock) (after : Place) (blank : Bool)
  | definition (label : List Char) (after : Place)

/-- HTML at `p`, behind `indent` columns -/
def htmlAt? (cs : List Container) (spare indent : Nat) (p : Place) : Option Found :=
  match p.rest with
  | '<' :: s =>
    match Html.blockEnd? s with
    | some mark => some (html cs p.pos (some mark) (p.rest.length + 1) (max spare indent) [] p)
    | none =>
      if Html.opensBlock s ∨ Html.aloneOnLine p.rest then
        some (html cs p.pos none (p.rest.length + 1) (max spare indent) [] p)
      else none
  | _ => none

/-- the leaf block or the definition at `l`, a place on the line that begins at `p` -/
def leaf (cs : List Container) (p : Place) (l : LineStart) : First :=
  let (indent, m) := l.indent 4
  let q := p.moveTo m.rest
  let ofFound (f : Found) : First := .found f.1 f.2 false
  if indent = 4 then
    let (f, blank) := indented cs q.pos (q.rest.length + 1) m.spare [] [] 0 q
    .found f.1 f.2 blank
  else
    match htmlAt? cs l.spare indent q with
    | some f => ofFound f
    | none =>
      match rule? q.rest with
      | some rest => ofFound (.rule ⟨q.pos, q.offsetOf rest⟩, q.moveTo rest)
      | none =>
        match atx? q.rest with
        | some level => ofFound (heading level q)
        | none =>
          match fence? q.rest with
          | some (c, n) => ofFound (fence cs indent c n q)
          | none =>
            match definition? cs q.rest with
            | some (label, rest) => .definition label (q.moveTo ((blankLine? rest).getD rest))
            | none => ofFound (paragraph cs q.pos (q.rest.length + 1) [] q)

/-- open the containers whose markers come next on the line that begins at `p`; the place is where to read on if an
item's marker ends the line -/
def openContainers (p : Place) : Nat → Reading → LineStart → Reading × (LineStart ⊕ Place)
  | 0, o, l => (o, .inl l)
  | fuel + 1, o, l =>
    let (indent, m) := l.indent 4
    let start := p.offsetOf m.rest
    if indent = 4 then (o, .inl l)
    else
      match m.item? indent with
      | some (delimiter, width, m) =>
        let o := (o.continueList (start - indent) delimiter).enter (.item width) (start - indent)
        match blankLine? m.rest with
        | some rest => ({ o with bareItem? := some (p.offsetOf rest) }, .inr (p.moveTo rest))
        | none => openContainers p fuel o m
      | none =>
        match m.quote? with
        | some m => openContainers p fuel ((o.endList p.pos).enter .quote start) m
        | none => (o, .inl l)

/-- read the block whose first line begins at `p` -/
def step (o : Reading) (p : Place) : Reading × Place :=
  let (n, l) := Container.repeats o.containers (LineStart.ofRest p.rest)
  let o := o.closeTo n p.pos o.frames.length
  match openContainers p (p.rest.length + 1) o l with
  | (o, .inr next) => (o, next)
  | (o, .inl l) =>
    match blankLine? l.rest with
    | some rest => (o.noteBlank, p.moveTo rest)
    | none =>
      let o := o.endList (p.offsetOf l.rest)
      match leaf o.containers p l with
      | .found b next blank => ({ o.add b with blankBefore := blank }, next)
      | .definition label next => ({ o with labels := label :: o.labels }, next)

def steps : Nat → Reading → Place → Reading × Place
  | 0, o, p => (o, p)
  | fuel + 1, o, p => if p.rest.isEmpty then (o, p) else
    let (o, p) := step o p
    steps fuel o p

/-- the blocks of a text and the labels it defines, both in order -/
def ofText (s : List Char) : List RawBlock × List (List Char) :=
  let (o, p) := steps (s.length + 1) Block.Open.empty (Place.start s)
  (o.finish p.pos, o.labels.reverse)

end MarkVeil.Markdown.Outline
