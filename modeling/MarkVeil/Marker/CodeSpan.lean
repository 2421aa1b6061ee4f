/-
The marks of code.

A code span closes at the next run of exactly as many backticks as opened it; longer and shorter runs are content. The
opening fence of a block reaches to the end of its info string. The closing fence is a run of the same character, at
least as long as the opening marker, with only spaces before it and only blanks after it.
-/
import MarkVeil.Text.Blank
import MarkVeil.Text.Bytes

namespace MarkVeil.Marker

open MarkVeil.Text

/-- the first run of exactly `len` backticks from `pos` on; `inRun` when a backtick came just before and counted -/
def runFrom? (len : Nat) : (inRun : Bool) → (pos : Nat) → List Char → Option Nat
  | _, _, [] => none
  | inRun, pos, c :: s =>
    if c = '`' then
      if !inRun ∧ countRun '`' (c :: s) = len then some pos else runFrom? len true (pos + 1) s
    else runFrom? len false (pos + c.utf8Size) s

/-- offset of the first run of exactly `len` backticks at or after an offset -/
def findRun? (s : List Char) (start len : Nat) : Option Nat :=
  match placeFrom? s start with
  | some (pos, rest) => runFrom? len false pos rest
  | none => none

end MarkVeil.Marker

namespace MarkVeil.Marker.Fence

open MarkVeil.Text

def defaultMarker : String := "```"

def opening? (line marker : List Char) (info? : Option (List Char)) : Option Extent :=
  if marker.isEmpty then none
  else
    (find? marker line).map fun start =>
      let stop := start + byteLen marker
      match info?, dropBytes? line stop with
      | some info, some rest =>
        match find? info rest with
        | some at_ => ⟨start, stop + at_ + byteLen info⟩
        | none => ⟨start, stop⟩
      | _, _ => ⟨start, stop⟩

def closing? (line marker : List Char) : Option Extent :=
  match marker with
  | [] => none
  | c :: _ =>
    let indent := countRun ' ' line
    let s := line.drop indent
    let run := countRun c s
    if c.utf8Size = 1 ∧ byteLen marker ≤ run ∧ allBlank (s.drop run) then some ⟨indent, indent + run⟩ else none

end MarkVeil.Marker.Fence
