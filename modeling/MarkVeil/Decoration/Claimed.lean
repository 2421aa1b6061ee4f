/-
Bytes already claimed, as intervals.

`Claimed` keeps disjoint intervals that do not touch, in ascending order. `claim` adds an interval and joins it with
all it meets, and `free` cuts an interval into the pieces that no claim covers.
-/
import MarkVeil.Text.Bytes

namespace MarkVeil.Decoration

open MarkVeil.Text

structure Claimed where
  intervals : List Extent
  deriving DecidableEq, Repr

namespace Claimed

def empty : Claimed := ⟨[]⟩

/-- the last interval that starts at or before an offset -/
def before? (c : Claimed) (offset : Nat) : Option Extent := (c.intervals.takeWhile (·.start ≤ offset)).getLast?

/-- the interval that a new one begins: itself, joined with the one before it if they meet -/
def joinLeft (c : Claimed) (r : Extent) : Extent :=
  match c.before? r.start with
  | some p => if r.start ≤ p.stop then ⟨p.start, max r.stop p.stop⟩ else r
  | none => r

def claim (c : Claimed) (r : Extent) : Claimed :=
  let j := c.joinLeft r
  let rest := c.intervals.dropWhile (·.start < j.start)
  let met := rest.takeWhile (·.start ≤ j.stop)
  ⟨c.intervals.takeWhile (·.start < j.start) ++
    ⟨j.start, met.foldl (fun stop i => max stop i.stop) j.stop⟩ :: rest.dropWhile (·.start ≤ j.stop)⟩

/-- pieces of the bytes from `pos` to `stop` that none of the intervals covers -/
def gaps (stop : Nat) : (pos : Nat) → List Extent → List Extent
  | pos, [] => if pos < stop then [⟨pos, stop⟩] else []
  | pos, i :: is =>
    (if pos < i.start then [⟨pos, i.start⟩] else []) ++
      if stop ≤ max pos i.stop then [] else gaps stop (max pos i.stop) is

/-- pieces of an interval that no claim covers -/
def free (c : Claimed) (r : Extent) : List Extent :=
  let pos := match c.before? r.start with
    | some p => max r.start p.stop
    | none => r.start
  gaps r.stop pos ((c.intervals.dropWhile (·.start < r.start)).takeWhile (·.start < r.stop))

end Claimed

end MarkVeil.Decoration
