/-
Settling overlaps.

No byte is styled twice, and none is both styled and hidden. Hides claim their bytes first, then styled ranges from
the shortest to the longest, in order among equals; each keeps the pieces that are still free. Ranges that do not fit
the text and repeated hides go, and the order of the rest stays.
-/
import MarkVeil.Decoration.Claimed
import MarkVeil.Decoration.Range

namespace MarkVeil.Decoration

open MarkVeil.Text

/-- the range covers bytes of a text of that length -/
def Range.fits (len : Nat) (r : Range) : Bool := r.start < r.stop && r.stop ≤ len

/-- ranges that fit, without hides that an earlier one repeats; `seen` are the hides before -/
def keepFitting (len : Nat) : (seen : List Extent) → List Range → List Range
  | _, [] => []
  | seen, r :: rs =>
    if r.fits len then
      if r.kind = .hide then
        if r.extent ∈ seen then keepFitting len seen rs else r :: keepFitting len (r.extent :: seen) rs
      else r :: keepFitting len seen rs
    else keepFitting len seen rs

/-- put a numbered range before the first that is not shorter -/
def insertByLen (x : Nat × Range) : List (Nat × Range) → List (Nat × Range)
  | [] => [x]
  | y :: ys => if x.2.len ≤ y.2.len then x :: y :: ys else y :: insertByLen x ys

/-- numbered ranges from shortest to longest, in order among equals -/
def sortByLen (rs : List (Nat × Range)) : List (Nat × Range) := rs.foldr insertByLen []

/-- let ranges claim what is free, one after the other: the pieces of each -/
def claimAll : Claimed → List (Nat × Range) → List (Nat × List Extent)
  | _, [] => []
  | c, (i, r) :: rs =>
    let pieces := c.free r.extent
    (i, pieces) :: claimAll (pieces.foldl Claimed.claim c) rs

/-- number ranges from `n` on -/
def number (n : Nat) : List Range → List (Nat × Range)
  | [] => []
  | r :: rs => (n, r) :: number (n + 1) rs

/-- the ranges of a text of that length with overlaps settled -/
def resolve (ranges : List Range) (len : Nat) : List Range :=
  let rs := number 0 (keepFitting len [] ranges)
  let hides := rs.filter fun r => !r.2.kind.isStyled
  let claimed := hides.foldl (fun c r => c.claim r.2.extent) Claimed.empty
  let pieces := claimAll claimed (sortByLen (rs.filter fun r => r.2.kind.isStyled))
  rs.flatMap fun (i, r) => if r.kind.isStyled then ((pieces.lookup i).getD []).map r.on else [r]

end MarkVeil.Decoration
