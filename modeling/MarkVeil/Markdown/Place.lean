/-
A place in a text.

A place knows its byte offset, the characters before it, nearest first, and the characters from it on, so a reader can
look both ways.
-/
import MarkVeil.Text.Bytes

namespace MarkVeil.Markdown

open MarkVeil.Text

structure Place where
  pos : Nat
  before : List Char
  rest : List Char
  deriving Repr

namespace Place

def start (s : List Char) : Place := ⟨0, [], s⟩

/-- `n` characters on -/
def skip : Nat → Place → Place
  | 0, p => p
  | n + 1, p =>
    match p.rest with
    | [] => p
    | c :: s => skip n ⟨p.pos + c.utf8Size, c :: p.before, s⟩

/-- on to where `rest`, an end of the text, begins -/
def moveTo (p : Place) (rest : List Char) : Place := p.skip (p.rest.length - rest.length)

/-- offset of where `rest`, an end of the text, begins -/
def offsetOf (p : Place) (rest : List Char) : Nat := (p.moveTo rest).pos

end Place

end MarkVeil.Markdown
