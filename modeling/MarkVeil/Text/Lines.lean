/-
The lines of a text.

A line ends before its terminator, a line feed with the carriage return before it if there is one; a text that ends in
a line feed has an empty last line, so every text has at least one. `LineIndex` keeps each line's extent. `lineOf`
finds the line of an offset and `position` its line and column, both clamped at the end of the text. `LineSpan` is a
stretch of whole lines.
-/
import MarkVeil.Text.Bytes

namespace MarkVeil.Text

/-- a line and a byte column, both from zero -/
structure Position where
  line : Nat
  column : Nat
  deriving DecidableEq, Repr

/-- extents of the lines of a text, terminators left out -/
structure LineIndex where
  lines : List Extent
  len : Nat
  deriving DecidableEq, Repr

namespace LineIndex

/-- lines of the rest of a text: the current one began at `start`, the rest begins at `pos`, after a carriage return iff
`cr` -/
def scan (start pos : Nat) (cr : Bool) : List Char → List Extent
  | [] => [⟨start, pos⟩]
  | c :: s =>
    if c = '\n' then ⟨start, if cr then pos - 1 else pos⟩ :: scan (pos + 1) (pos + 1) false s
    else scan start (pos + c.utf8Size) (c == '\r') s

def ofText (s : List Char) : LineIndex := ⟨scan 0 0 false s, byteLen s⟩

def count (ix : LineIndex) : Nat := ix.lines.length

def extent? (ix : LineIndex) (line : Nat) : Option Extent := ix.lines[line]?

def start? (ix : LineIndex) (line : Nat) : Option Nat := (ix.extent? line).map (·.start)

/-- where a line's content stops, before any terminator -/
def stop? (ix : LineIndex) (line : Nat) : Option Nat := (ix.extent? line).map (·.stop)

def text? (ix : LineIndex) (s : List Char) (line : Nat) : Option (List Char) :=
  (ix.extent? line).bind fun r => slice? s r.start r.stop

/-- line of an offset, the last one from the end of the text on -/
def lineOf (ix : LineIndex) (offset : Nat) : Nat := (ix.lines.takeWhile (·.start ≤ offset)).length - 1

/-- line and column of an offset, clamped to the end of the text -/
def position (ix : LineIndex) (offset : Nat) : Position :=
  let o := min offset ix.len
  let line := ix.lineOf o
  ⟨line, o - (ix.start? line).getD 0⟩

end LineIndex

/-- a half-open stretch of lines -/
structure LineSpan where
  start : Nat
  stop : Nat
  deriving DecidableEq, Repr, Inhabited

namespace LineSpan

/-- the span from `start` to `stop`, stretched to one line if it would be empty -/
def ofLines (start stop : Nat) : LineSpan := ⟨start, max stop (start + 1)⟩

def line (n : Nat) : LineSpan := ofLines n (n + 1)

/-- the last line of the span, its first when it is empty or reversed -/
def last (s : LineSpan) : Nat := max (s.stop - 1) s.start

/-- the least span that holds both -/
def hull (a b : LineSpan) : LineSpan := ⟨min a.start b.start, max a.stop b.stop⟩

end LineSpan

end MarkVeil.Text
