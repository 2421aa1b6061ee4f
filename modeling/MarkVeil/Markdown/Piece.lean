/-
Pieces of a paragraph's line.

A first reading cuts each line into plain text, runs of delimiters, backticks, brackets, references and line breaks,
each with its byte offsets. Whether a delimiter or bracket means anything is settled later, once the whole paragraph
and every link definition are known. Text next to text is one piece, so a cut between two text pieces marks an escape.
-/
import MarkVeil.Markdown.Entity
import MarkVeil.Markdown.LineStart
import MarkVeil.Markdown.Place
import MarkVeil.Text.Punctuation

namespace MarkVeil.Markdown

open MarkVeil.Text
open MarkVeil.Markdown.Entity (isAsciiPunctuation)

/-- what a piece may turn out to be -/
inductive Mark where
  | text
  | reference
  | softBreak
  | hardBreak (backslash : Bool)
  /-- a whole run of one delimiter -/
  | run (delimiter : Char) (count : Nat) (opens closes : Bool)
  /-- a run of backticks; an escaped one cannot use its first to open a code span -/
  | ticks (count : Nat) (escaped : Bool)
  | angle
  | imageOpen
  | linkOpen
  | linkClose
  deriving DecidableEq, Repr

structure Piece where
  mark : Mark
  start : Nat
  stop : Nat
  deriving DecidableEq, Repr

namespace Piece

/-- append text to pieces, last first, as part of the last one where it continues it -/
def pushText (start stop : Nat) (pieces : List Piece) : List Piece :=
  if stop ≤ start then pieces
  else
    match pieces with
    | ⟨.text, s, e⟩ :: more => if e = start then ⟨.text, s, stop⟩ :: more else ⟨.text, start, stop⟩ :: pieces
    | _ => ⟨.text, start, stop⟩ :: pieces

end Piece

/-- a run between two characters can open: no blank follows; in a word an asterisk needs more of the word after it, and
two tildes open anywhere -/
def runOpens (delimiter : Char) (count : Nat) (before after : Option Char) : Bool :=
  match after, before with
  | none, _ => false
  | some a, none => !isBlank a
  | some a, some b =>
    !isBlank a &&
      ((delimiter == '*' && !isPunctuation a) || (delimiter == '~' && 1 < count) || isBlank b || isPunctuation b)

/-- a run between two characters can close: no blank comes before; in a word an asterisk or two tildes need more of the
word before them, and tildes close after a tilde -/
def runCloses (delimiter : Char) (count : Nat) (before after : Option Char) : Bool :=
  match before, after with
  | none, _ => false
  | some b, none => !isBlank b
  | some b, some a =>
    !isBlank b &&
      (((delimiter == '*' || (delimiter == '~' && 1 < count)) && !isPunctuation b) || (delimiter == '~' && b == '~') ||
        isBlank a || isPunctuation a)

/-- a line cut into pieces, last first; the place after it, and the break it ends in unless the text ends -/
structure LineReading where
  pieces : List Piece
  after : Place
  break? : Option Piece
  deriving Repr

namespace LineReading

/-- the end of a line at `p`, with text pending since `start` -/
def atBreak (pieces : List Piece) (start : Nat) (p : Place) : LineReading :=
  let after := p.moveTo ((lineEnd? p.rest).getD [])
  let slashes := countRun '\\' p.before
  let blanks := runLen isGap p.before
  if slashes % 2 = 1 ∧ ¬ after.rest.isEmpty then
    ⟨Piece.pushText start (p.pos - 1) pieces, after, some ⟨.hardBreak true, p.pos - 1, after.pos⟩⟩
  else if 2 ≤ blanks then
    ⟨Piece.pushText start (p.pos - blanks) pieces, after, some ⟨.hardBreak false, p.pos - blanks, after.pos⟩⟩
  else
    ⟨Piece.pushText start (p.pos - blanks) pieces, after, some ⟨.softBreak, p.pos, after.pos⟩⟩

/-- the end of the text at `p`, with text pending since `start` -/
def atEnd (pieces : List Piece) (start : Nat) (p : Place) : LineReading :=
  ⟨Piece.pushText start (p.pos - min (runLen isGap p.before) (p.pos - start)) pieces, p, none⟩

/-- read a line from `p` on, with text pending since `start` -/
def read : Nat → List Piece → (start : Nat) → Place → LineReading
  | 0, pieces, start, p => atEnd pieces start p
  | fuel + 1, pieces, start, p =>
    /- a piece of `n` characters, `skip` characters on, cuts the pending text -/
    let cut (mark : Mark) (skip n : Nat) : LineReading :=
      let first := p.skip skip
      let last := first.skip n
      read fuel (⟨mark, first.pos, last.pos⟩ :: Piece.pushText start p.pos pieces) last.pos last
    match p.rest with
    | [] => atEnd pieces start p
    | '\n' :: _ => atBreak pieces start p
    | '\r' :: _ => atBreak pieces start p
    | '\\' :: s =>
      match s with
      | [] => read fuel pieces start (p.skip 1)
      | c :: _ =>
        if c = '`' then cut (.ticks (countRun '`' s) true) 1 (countRun '`' s)
        else if isAsciiPunctuation c then
          read fuel (Piece.pushText start p.pos pieces) (p.pos + 1) (p.skip 2)
        else read fuel pieces start (p.skip 1)
    | '`' :: _ => cut (.ticks (countRun '`' p.rest) false) 0 (countRun '`' p.rest)
    | '<' :: s => if s.head? = some '\\' then read fuel pieces start (p.skip 1) else cut .angle 0 1
    | '!' :: s => if s.head? = some '[' then cut .imageOpen 0 2 else read fuel pieces start (p.skip 1)
    | '[' :: _ => cut .linkOpen 0 1
    | ']' :: _ => cut .linkClose 0 1
    | '&' :: _ =>
      match Entity.reference? p.rest with
      | some (_, rest) => cut .reference 0 (p.rest.length - rest.length)
      | none => read fuel pieces start (p.skip 1)
    | c :: _ =>
      if c = '*' ∨ c = '_' ∨ c = '~' then
        let count := countRun c p.rest
        let after := p.rest[count]?
        let opens := runOpens c count p.before.head? after
        let closes := runCloses c count p.before.head? after
        if (opens ∨ closes) ∧ (c = '~' → count ≤ 2) then cut (.run c count opens closes) 0 count
        else read fuel pieces start (p.skip count)
      else read fuel pieces start (p.skip 1)

/-- the line that begins at `p`, appended to the pieces before it; nothing comes before the line -/
def ofPlace (pieces : List Piece) (p : Place) : LineReading :=
  read (p.rest.length + 1) pieces p.pos { p with before := [] }

end LineReading

end MarkVeil.Markdown
