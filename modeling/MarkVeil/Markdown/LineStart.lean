/-
The front of a line: white space measured in columns, and the markers of containers.

White space is read a few columns at a time. A tab reaches to the next multiple of four columns, counted from the last
tab, and columns of it that were not asked for stay behind as `spare`. Quotes, bullets and numbers open containers; a
line belongs to an open container when it repeats the container's marker or its indent, which `repeats` counts from
the outermost container inward.
-/
import MarkVeil.Text.Bytes
import MarkVeil.Text.Blank

namespace MarkVeil.Markdown

open MarkVeil.Text

/-- the rest after a line end, if the text is at one; the end of the text counts -/
def lineEnd? : List Char → Option (List Char)
  | [] => some []
  | '\n' :: s => some s
  | '\r' :: '\n' :: s => some s
  | '\r' :: s => some s
  | _ => none

def atLineEnd (s : List Char) : Bool := (lineEnd? s).isSome

/-- the rest after a line that holds only gaps -/
def blankLine? (s : List Char) : Option (List Char) := lineEnd? (s.dropWhile isGap)

/-- only gaps up to the line end -/
def atBlankLine (s : List Char) : Bool := (blankLine? s).isSome

def lineOf : List Char → List Char
  | [] => []
  | c :: s => if c = '\n' then [c] else c :: lineOf s

/-- a thematic break: three or more of one of the marks, and gaps; the rest after its line -/
def rule? (s : List Char) : Option (List Char) :=
  match s with
  | [] => none
  | c :: _ =>
    if c = '*' ∨ c = '-' ∨ c = '_' then go c 0 s else none
where
  go (c : Char) (n : Nat) : List Char → Option (List Char)
    | [] => if 3 ≤ n then some [] else none
    | d :: s =>
      if d = '\n' ∨ d = '\r' then if 3 ≤ n then lineEnd? (d :: s) else none
      else if d = c then go c (n + 1) s
      else if d = ' ' ∨ d = '\t' then go c n s
      else none

/-- a place at the front of a line -/
structure LineStart where
  rest : List Char
  /-- characters since the last tab, or since the line began -/
  column : Nat
  /-- columns of the last tab not yet used -/
  spare : Nat
  deriving Repr

namespace LineStart

/-- a line that has not been read yet -/
def ofRest (s : List Char) : LineStart := ⟨s, 0, 0⟩

def atEnd (l : LineStart) : Bool := atLineEnd l.rest

def next (l : LineStart) : LineStart := ⟨l.rest.drop 1, l.column + 1, l.spare⟩

/-- up to `n` columns of white space; first the number of columns that were missing -/
def columns (n : Nat) (l : LineStart) : Nat × LineStart :=
  go (n - min l.spare n) l.column (l.spare - min l.spare n) l.rest
where
  go (n column spare : Nat) : List Char → Nat × LineStart
    | [] => (n, ⟨[], column, spare⟩)
    | c :: s =>
      if n = 0 then (0, ⟨c :: s, column, spare⟩)
      else if c = ' ' then go (n - 1) (column + 1) spare s
      else if c = '\t' then
        let width := 4 - column % 4
        go (n - min width n) 0 (width - min width n) s
      else (n, ⟨c :: s, column, spare⟩)

/-- indent of the line, at most `n` columns -/
def indent (n : Nat) (l : LineStart) : Nat × LineStart := (n - (l.columns n).1, (l.columns n).2)

def blanks (l : LineStart) : LineStart :=
  ⟨l.rest.dropWhile fun c => c == ' ' || c == '\t', l.column, 0⟩

/-- past a quote marker and the one column that may follow it -/
def quote? (l : LineStart) : Option LineStart :=
  match l.rest with
  | '>' :: _ => some (l.next.columns 1).2
  | _ => none

def skip : Nat → LineStart → LineStart
  | 0, l => l
  | n + 1, l => skip n l.next

/-- after an item's marker: content that starts within four columns sets the indent, farther content does not -/
def itemContent (indent : Nat) (l : LineStart) : Nat × LineStart :=
  if atBlankLine l.rest then (indent, l)
  else
    let (used, l') := l.indent 4
    if used < 4 then (indent + used, l') else (indent, l)

def itemMarker? (indent width : Nat) (l : LineStart) : Option (Nat × LineStart) :=
  let (missing, l') := (l.skip width).columns 1
  if missing = 0 ∨ l'.atEnd then some (itemContent (indent + width + 1) l') else none

/-- past an item marker behind `indent` columns: the delimiter that names the list, and the indent that continues the
item -/
def item? (indent : Nat) (l : LineStart) : Option (Char × Nat × LineStart) :=
  match l.rest with
  | [] => none
  | c :: _ =>
    if c = '-' ∨ c = '+' ∨ c = '*' then
      if (rule? l.rest).isSome then none else (itemMarker? indent 1 l).map fun r => (c, r)
    else
      let digits := runLen Char.isDigit l.rest
      match l.rest.drop digits with
      | d :: _ =>
        if 0 < digits ∧ digits < 10 ∧ (d = '.' ∨ d = ')') then
          (itemMarker? indent (digits + 1) l).map fun r => (d, r)
        else none
      | [] => none

end LineStart

/-- blocks that hold blocks; an item records the indent that continues it -/
inductive Container where
  | quote
  | list (delimiter : Char) (tight : Bool)
  | item (indent : Nat)
  deriving DecidableEq, Repr

namespace Container

/-- a line that repeats the container's marker, and the place after it -/
def repeats? (l : LineStart) : Container → Option LineStart
  | .quote => (l.columns 3).2.quote?
  | .list .. => some l
  | .item n =>
    let (missing, l') := l.columns n
    if missing = 0 ∨ l'.atEnd then some l' else none

/-- how many of the containers, outermost first, a line repeats, and where its own content begins -/
def repeats : List Container → LineStart → Nat × LineStart
  | [], l => (0, l)
  | c :: cs, l =>
    match c.repeats? l with
    | some l' => ((repeats cs l').1 + 1, (repeats cs l').2)
    | none => (0, l)

/-- the rest of a line after the markers it repeats -/
def skipRepeats (cs : List Container) (s : List Char) : List Char := (repeats cs (LineStart.ofRest s)).2.rest

end Container

end MarkVeil.Markdown
