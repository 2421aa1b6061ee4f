/-
Labels, destinations and titles of links.

`label?` reads a bracketed label and brings it to its normal form: blanks collapse to one space, those at the ends go,
and case is folded away by the caller's comparison. `destination?` and `title?` only find where the part ends, since
nothing later needs their text. `inline?` reads the parenthesised target of a link.
-/
import MarkVeil.Markdown.Entity
import MarkVeil.Markdown.LineStart

namespace MarkVeil.Markdown.Target

open MarkVeil.Text
open MarkVeil.Markdown.Entity (isAsciiPunctuation)

/-- how a label or a title goes on after a line end; none if it may not -/
abbrev NextLine := List Char → Option (List Char)

/-- blanks inside a label, at most one line end among them: the rest -/
def labelBlanks? (next : NextLine) : Nat → (brk : Bool) → List Char → Option (List Char)
  | 0, _, s => some s
  | fuel + 1, brk, s =>
    match s with
    | [] => some []
    | c :: t =>
      if c = '\n' ∨ c = '\r' then
        if brk then none else ((lineEnd? s).bind next).bind (labelBlanks? next fuel true)
      else if isGap c then labelBlanks? next fuel brk t
      else some s

/-- a label read after its opening bracket, last character first in `acc`: the label and the rest after its bracket -/
def labelFrom? (next : NextLine) : Nat → (acc : List Char) → List Char → Option (List Char × List Char)
  | 0, _, _ => none
  | fuel + 1, acc, s =>
    match s with
    | [] => none
    | '[' :: _ => none
    | ']' :: t => some (acc.reverse, t)
    | '\\' :: c :: t => labelFrom? next fuel (c :: '\\' :: acc) t
    | c :: t =>
      if isAsciiBlank c then
        (labelBlanks? next (s.length + 1) false s).bind (labelFrom? next fuel (' ' :: acc))
      else labelFrom? next fuel (c :: acc) t

/-- longest label, in characters -/
def maxLabel : Nat := 999

/-- a label read after its opening bracket: its normal form and the rest after its closing bracket -/
def label? (next : NextLine) (s : List Char) : Option (List Char × List Char) :=
  match labelFrom? next (s.length + 1) [] s with
  | some (label, rest) =>
    if label.all isAsciiBlank ∨ maxLabel < label.length then none
    else some (((label.dropWhile isAsciiBlank).reverse.dropWhile isAsciiBlank).reverse, rest)
  | none => none

/-- a destination in angle brackets, read after the first -/
def pointed? : List Char → Option (List Char)
  | [] => none
  | '>' :: s => some s
  | '\\' :: c :: s => if isAsciiPunctuation c then pointed? s else pointed? (c :: s)
  | c :: s => if c = '\n' ∨ c = '\r' ∨ c = '<' then none else pointed? s
termination_by structural s => s

/-- a bare destination: parentheses nest at most `limit` deep and are balanced -/
def bare? (limit : Nat) : (nest : Nat) → List Char → Option (List Char)
  | nest, [] => if nest = 0 then some [] else none
  | nest, '\\' :: c :: s => if isAsciiPunctuation c then bare? limit nest s else bare? limit nest (c :: s)
  | nest, c :: s =>
    if c.toNat ≤ 32 then if nest = 0 then some (c :: s) else none
    else if c = '(' then if limit < nest then none else bare? limit (nest + 1) s
    else if c = ')' then if nest = 0 then some (c :: s) else bare? limit (nest - 1) s
    else bare? limit nest s
termination_by structural _ s => s

/-- a link destination: the rest after it -/
def destination? (limit : Nat) : List Char → Option (List Char)
  | '<' :: s => pointed? s
  | s => bare? limit 0 s

/-- the delimiters of a title, if the text is at one -/
def titleMarks? : List Char → Option (Char × Char × List Char)
  | '"' :: s => some ('"', '"', s)
  | '\'' :: s => some ('\'', '\'', s)
  | '(' :: s => some ('(', ')', s)
  | _ => none

/-- the rest after the end of a title -/
def titleEnd? (first last : Char) : List Char → Option (List Char)
  | [] => none
  | '\\' :: c :: s => if isAsciiPunctuation c then titleEnd? first last s else titleEnd? first last (c :: s)
  | c :: s => if c = last then some s else if c = first then none else titleEnd? first last s
termination_by structural s => s

/-- a link title: the rest after it -/
def title? (s : List Char) : Option (List Char) :=
  (titleMarks? s).bind fun (first, last, s) => titleEnd? first last s

/-- gaps around at most one line end -/
def separator (skip : List Char → List Char) (s : List Char) : List Char :=
  let s := s.dropWhile isGap
  match lineEnd? s with
  | some t => (skip t).dropWhile isGap
  | none => s

/-- how deep parentheses nest in the destination of an inline link -/
def inlineNesting : Nat := 32

/-- a link target in parentheses: the rest after it -/
def inline? (skip : List Char → List Char) : List Char → Option (List Char)
  | '(' :: s =>
    (destination? inlineNesting (separator skip s)).bind fun s =>
      let s := separator skip s
      let s := match title? s with
        | some s => separator skip s
        | none => s
      match s with
      | ')' :: rest => some rest
      | _ => none
  | _ => none

end MarkVeil.Markdown.Target
