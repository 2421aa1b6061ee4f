/-
A text with its lines, and searches in it.

Every search is bounded by lines and never starts inside a character; its answer is the offset of a match.
-/
import MarkVeil.Text.Bytes
import MarkVeil.Text.Lines

namespace MarkVeil.Text

structure Source where
  text : List Char
  lines : LineIndex
  deriving Repr

namespace Source

def ofText (s : List Char) : Source := ⟨s, LineIndex.ofText s⟩

def hasLine (src : Source) (line : Nat) : Bool := line < src.lines.count

def lineText? (src : Source) (line : Nat) : Option (List Char) := src.lines.text? src.text line

/-- where to search on a line: at the cursor if it is on the line, else at the start of the line -/
def scanStart? (src : Source) (line cursor : Nat) : Option Nat :=
  (src.lines.extent? line).map fun r => if r.start ≤ cursor ∧ cursor ≤ r.stop then cursor else r.start

def findBetween? (src : Source) (start stop : Nat) (needle : List Char) : Option Nat :=
  (slice? src.text start stop).bind fun s => (find? needle s).map (start + ·)

/-- a marker on a line, at the cursor or later if the cursor is on it -/
def findOnLine? (src : Source) (line : Nat) (marker : List Char) (cursor : Nat) : Option Nat :=
  if marker.isEmpty then none
  else
    (src.scanStart? line cursor).bind fun start =>
      (src.lines.stop? line).bind fun stop => src.findBetween? start stop marker

/-- a needle from an offset on, up to the end of a line or of the text -/
def findForward? (src : Source) (start : Nat) (lastLine? : Option Nat) (needle : List Char) : Option Nat :=
  if needle.isEmpty then none
  else
    (match lastLine? with
      | some line => src.lines.stop? line
      | none => some (byteLen src.text)).bind fun stop => src.findBetween? start stop needle

/-- the last marker before the first occurrence of a content -/
def findBefore? (src : Source) (content marker : List Char) : Option Nat :=
  if content.isEmpty ∨ marker.isEmpty then none
  else (find? content src.text).bind fun pos => (takeBytes? src.text pos).bind (rfind? marker)

/-- the first marker after the first occurrence of a content -/
def findAfter? (src : Source) (content marker : List Char) : Option Nat :=
  if content.isEmpty ∨ marker.isEmpty then none
  else
    (find? content src.text).bind fun pos =>
      (dropBytes? src.text (pos + byteLen content)).bind fun rest =>
        (find? marker rest).map (pos + byteLen content + ·)

end Source

end MarkVeil.Text
