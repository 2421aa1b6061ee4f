/-
Links, images and autolinks on their lines.

A link is a bracketed label and a target in parentheses that is not empty. A label is made of characters other than a
closing bracket and of whole images, so a link may wrap an image; where both readings of an exclamation mark are open,
the image comes first and the longest label wins. A link right after an exclamation mark is no link but part of an
image.
-/
import MarkVeil.Text.Bytes

namespace MarkVeil.Marker.Link

open MarkVeil.Text

/-- the extents of a link or image and of its label -/
structure Parts where
  full : Extent
  label : Extent
  deriving DecidableEq, Repr

namespace Parts

def closeBracket (p : Parts) : Nat := p.label.stop

def openParen (p : Parts) : Nat := p.label.stop + 1

def closeParen (p : Parts) : Nat := p.full.stop - 1

def shift (n : Nat) (p : Parts) : Parts := ⟨p.full.shift n, p.label.shift n⟩

end Parts

/-- the rest after `](`, a target and `)`; `blank` allows an empty target -/
def target? (blank : Bool) : List Char → Option (List Char)
  | ']' :: '(' :: s =>
    match s.dropWhile (· != ')') with
    | _ :: rest => if !blank ∧ s.head? = some ')' then none else some rest
    | [] => none
  | _ => none

/-- an image inside a label: the rest after it -/
def inner? : List Char → Option (List Char)
  | '!' :: '[' :: s => target? true (s.dropWhile (· != ']'))
  | _ => none

/-- the rest of a label and its target: where the label stops and where the link does; `need` asks for one more item -/
def label? : (fuel : Nat) → (need : Bool) → List Char → Option (List Char × List Char)
  | 0, _, _ => none
  | fuel + 1, need, s =>
    let image := (inner? s).bind (label? fuel false)
    let single := match s with
      | c :: t => if c = ']' then none else label? fuel false t
      | [] => none
    let close := if need then none else (target? false s).map fun rest => (s, rest)
    (image.or single).or close

/-- a link at the front of the text: lengths of its label and of all of it -/
def link? : List Char → Option Parts
  | '[' :: s =>
    (label? (s.length + 1) true s).map fun (labelEnd, rest) =>
      ⟨⟨0, 1 + (byteLen s - byteLen rest)⟩, ⟨1, 1 + (byteLen s - byteLen labelEnd)⟩⟩
  | _ => none

def image? : List Char → Option Parts
  | '!' :: '[' :: s =>
    let labelEnd := s.dropWhile (· != ']')
    (target? false labelEnd).map fun rest =>
      ⟨⟨0, 2 + (byteLen s - byteLen rest)⟩, ⟨2, 2 + (byteLen s - byteLen labelEnd)⟩⟩
  | _ => none

/-- the first link at or after `start`; the rest of the line begins at `pos`, after the character `before?` -/
def findLinkFrom? (start : Nat) : (before? : Option Char) → (pos : Nat) → List Char → Option Parts
  | _, _, [] => none
  | before?, pos, c :: s =>
    match if start ≤ pos ∧ before? ≠ some '!' then link? (c :: s) else none with
    | some parts => some (parts.shift pos)
    | none => findLinkFrom? start (some c) (pos + c.utf8Size) s

/-- the first link at or after an offset -/
def findLink? (line : List Char) (start : Nat) : Option Parts := findLinkFrom? start none 0 line

/-- the first image at or after `start`; the rest of the line begins at `pos` -/
def findImageFrom? (start : Nat) : (pos : Nat) → List Char → Option Parts
  | _, [] => none
  | pos, c :: s =>
    match if start ≤ pos then image? (c :: s) else none with
    | some parts => some (parts.shift pos)
    | none => findImageFrom? start (pos + c.utf8Size) s

/-- the first image at or after an offset -/
def findImage? (line : List Char) (start : Nat) : Option Parts := findImageFrom? start 0 line

/-- the first pair of angle brackets at or after an offset, brackets included -/
def findAutolink? (line : List Char) (start : Nat) : Option Extent :=
  (dropBytes? line start).bind fun rest =>
    (find? ['<'] rest).bind fun i =>
      ((dropBytes? rest (i + 1)).bind (find? ['>'])).map fun j => ⟨start + i, start + i + 1 + j + 1⟩

end MarkVeil.Marker.Link
