/-
Selections, and decorations grouped for an editor.

An editor shows raw Markdown on selected lines. `ofRanges` leaves out every range that reaches a selected line and
gathers the rest by kind. Groups are listed in the order of their kinds, and only those that hold a range.
-/
import MarkVeil.Decoration.Range
import MarkVeil.Text.Lines

namespace MarkVeil.Editor

open MarkVeil.Text
open MarkVeil.Decoration (Kind Range)

/-- a selection of whole lines, both ends included -/
structure Selection where
  first : Nat
  last : Nat
  deriving DecidableEq, Repr

namespace Selection

/-- the lines between two, in either order -/
def between (a b : Nat) : Selection := ⟨min a b, max a b⟩

def line (n : Nat) : Selection := between n n

/-- shares a line with those from `first` to `last` -/
def meets (s : Selection) (first last : Nat) : Bool := s.first ≤ last && first ≤ s.last

end Selection

/-- stretches of text to decorate, by kind -/
structure Groups where
  entries : List (Kind × List Extent)
  deriving DecidableEq, Repr

namespace Groups

def empty : Groups := ⟨[]⟩

/-- the stretches of every kind, given kind by kind -/
def ofFun (f : Kind → List Extent) : Groups :=
  ⟨Kind.all.filterMap fun k => if (f k).isEmpty then none else some (k, f k)⟩

def get (g : Groups) (k : Kind) : List Extent := (g.entries.lookup k).getD []

def len (g : Groups) : Nat := g.entries.foldr (fun e n => e.2.length + n) 0

def isEmpty (g : Groups) : Bool := g.len == 0

def set (g : Groups) (k : Kind) (es : List Extent) : Groups := ofFun fun k' => if k' = k then es else g.get k'

def restrict (p : Kind → Bool) (g : Groups) : Groups := ofFun fun k => if p k then g.get k else []

/-- the range reaches a selected line -/
def isRevealed (selections : List Selection) (lineOf : Nat → Nat) (r : Range) : Bool :=
  selections.any fun s => s.meets (lineOf r.start) (lineOf r.stop)

/-- ranges that reach no selected line, by kind -/
def ofRanges (ranges : List Range) (selections : List Selection) (lineOf : Nat → Nat) : Groups :=
  let kept := ranges.filter fun r => !isRevealed selections lineOf r
  ofFun fun k => (kept.filter fun r => r.kind = k).map Range.extent

end Groups

end MarkVeil.Editor
