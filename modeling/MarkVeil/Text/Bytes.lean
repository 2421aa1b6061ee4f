/-
Texts as lists of characters, addressed by UTF-8 byte offsets.

`byteLen` is a text's length in bytes. An offset names a place of a text only when it falls between two characters:
`dropBytes?` and `takeBytes?` cut a text at such a place and refuse every other offset, and `slice?` is the text
between two places. `find?` and `rfind?` answer with the offset of a match, so their answers are always places.
-/
namespace MarkVeil.Text

/-- length in UTF-8 bytes -/
def byteLen : List Char → Nat
  | [] => 0
  | c :: s => c.utf8Size + byteLen s

/-- what follows the first `n` bytes; none when `n` is past the end or inside a character -/
def dropBytes? : List Char → Nat → Option (List Char)
  | s, 0 => some s
  | [], _ + 1 => none
  | c :: s, n + 1 => if c.utf8Size ≤ n + 1 then dropBytes? s (n + 1 - c.utf8Size) else none

/-- the first `n` bytes; none when `n` is past the end or inside a character -/
def takeBytes? : List Char → Nat → Option (List Char)
  | _, 0 => some []
  | [], _ + 1 => none
  | c :: s, n + 1 => if c.utf8Size ≤ n + 1 then (takeBytes? s (n + 1 - c.utf8Size)).map (c :: ·) else none

/-- the text between two offsets; none when they are reversed, out of bounds or inside a character -/
def slice? (s : List Char) (start stop : Nat) : Option (List Char) :=
  if start ≤ stop then (dropBytes? s start).bind (takeBytes? · (stop - start)) else none

/-- the first place at or after an offset, with what follows it; none past the end -/
def placeFrom? : List Char → Nat → Option (Nat × List Char)
  | s, 0 => some (0, s)
  | [], _ + 1 => none
  | c :: s, n + 1 => (placeFrom? s (n + 1 - c.utf8Size)).map fun p => (c.utf8Size + p.1, p.2)

def find? (needle : List Char) : List Char → Option Nat
  | [] => if needle.isEmpty then some 0 else none
  | c :: s => if needle.isPrefixOf (c :: s) then some 0 else (find? needle s).map (c.utf8Size + ·)

def rfind? (needle : List Char) : List Char → Option Nat
  | [] => if needle.isEmpty then some 0 else none
  | c :: s =>
    match rfind? needle s with
    | some i => some (c.utf8Size + i)
    | none => if needle.isPrefixOf (c :: s) then some 0 else none

/-- number of characters at the front that satisfy `p` -/
def runLen (p : Char → Bool) : List Char → Nat
  | [] => 0
  | c :: s => if p c then runLen p s + 1 else 0

def countRun (c : Char) (s : List Char) : Nat := runLen (· == c) s

/-- a half-open stretch of byte offsets -/
structure Extent where
  start : Nat
  stop : Nat
  deriving DecidableEq, Repr, Inhabited

namespace Extent

/-- number of bytes, zero when the ends are reversed -/
def len (r : Extent) : Nat := r.stop - r.start

def shift (n : Nat) (r : Extent) : Extent := ⟨n + r.start, n + r.stop⟩

end Extent

theorem byteLen_append (a b : List Char) : byteLen (a ++ b) = byteLen a + byteLen b := by
  induction a with
  | nil => simp [byteLen]
  | cons c a ih => simp [byteLen, ih, Nat.add_assoc]

end MarkVeil.Text
