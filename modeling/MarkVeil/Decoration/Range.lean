/-
Decoration ranges.

A range decorates a stretch of bytes. Only the kind that headings of level four to six share records the level.
-/
import MarkVeil.Decoration.Kind

namespace MarkVeil.Decoration

open MarkVeil.Text

structure Range where
  start : Nat
  stop : Nat
  kind : Kind
  level? : Option Nat := none
  deriving DecidableEq, Repr

namespace Range

def hide (start stop : Nat) : Range := ⟨start, stop, .hide, none⟩

def styled (start stop : Nat) (kind : Kind) : Range := ⟨start, stop, kind, none⟩

def heading (start stop level : Nat) : Range :=
  ⟨start, stop, .ofLevel level, if Kind.ofLevel level = .heading then some level else none⟩

def extent (r : Range) : Extent := ⟨r.start, r.stop⟩

/-- number of bytes, zero when the ends are reversed -/
def len (r : Range) : Nat := r.stop - r.start

def isEmpty (r : Range) : Bool := r.len == 0

/-- the text under the range; none if there is no such text -/
def slice? (r : Range) (s : List Char) : Option (List Char) := Text.slice? s r.start r.stop

/-- the same decoration of other bytes -/
def on (r : Range) (e : Extent) : Range := { r with start := e.start, stop := e.stop }

end Range

end MarkVeil.Decoration
