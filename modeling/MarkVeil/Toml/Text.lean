/-
Texts in a TOML document.

A text is written in one of four styles: between double quotes, where a backslash escapes, or between single quotes,
where nothing does; and in each case on one line or, between three quotes, over several. `write` takes the first style
in which the text needs no escape, and else escapes what it must; `read?` accepts every style and gives the text and
the rest.
-/
import MarkVeil.Text.Bytes

namespace MarkVeil.Toml

open MarkVeil.Text

/-- may stand for itself in comments and between quotes: every character but the controls, and the tab -/
def isText (c : Char) : Bool := c == '\t' || (32 ≤ c.toNat && c.toNat != 127)

def hexValue? (c : Char) : Option Nat :=
  if '0' ≤ c ∧ c ≤ '9' then some (c.toNat - 48)
  else if 'a' ≤ c ∧ c ≤ 'f' then some (c.toNat - 87)
  else if 'A' ≤ c ∧ c ≤ 'F' then some (c.toNat - 55)
  else none

def charOf? (n : Nat) : Option Char := if n.isValidChar then some (Char.ofNat n) else none

def named? : Char → Option Char
  | 'b' => some '\x08'
  | 't' => some '\t'
  | 'n' => some '\n'
  | 'f' => some '\x0c'
  | 'r' => some '\r'
  | 'e' => some '\x1b'
  | '"' => some '"'
  | '\\' => some '\\'
  | _ => none

/-- number of hexadecimal digits after a letter behind a backslash -/
def hexCount? : Char → Option Nat
  | 'x' => some 2
  | 'u' => some 4
  | 'U' => some 8
  | _ => none

/-- where a reader of double-quoted text is -/
inductive Mode where
  /-- between characters; `folding` right after a line that ended in a backslash -/
  | plain (folding : Bool)
  /-- after a backslash -/
  | escape
  /-- after a backslash and blanks, before the end of the line -/
  | lineEnd
  /-- inside a code point, `more` digits before the last -/
  | hex (more value : Nat)
  deriving DecidableEq, Repr

/-- quotes at the front close the text: some of them still belong to it, the rest follows -/
def close? (long : Bool) (q : Char) (s : List Char) : Option (List Char × List Char) :=
  let run := countRun q s
  if !long then if run = 0 then none else some ([], s.drop 1)
  else if run < 3 then none
  else some (List.replicate (min run 5 - 3) q, s.drop (min run 5))

/-- a line ends before the carriage return `c` -/
def isReturn (c : Char) (s : List Char) : Bool := c == '\r' && s.head? == some '\n'

/-- the rest of a double-quoted text, and what follows it -/
def readBasic? (long : Bool) : Mode → List Char → Option (List Char × List Char)
  | _, [] => none
  | .plain folding, c :: s =>
    if folding && (c == ' ' || c == '\t' || c == '\n' || isReturn c s) then readBasic? long (.plain true) s
    else
      match close? long '"' (c :: s) with
      | some closed => some closed
      | none =>
        if c = '\\' then readBasic? long .escape s
        else if long && isReturn c s then readBasic? long (.plain false) s
        else if isText c || (long && c == '\n') then (readBasic? long (.plain false) s).map fun r => (c :: r.1, r.2)
        else none
  | .escape, c :: s =>
    match named? c, hexCount? c with
    | some named, _ => (readBasic? long (.plain false) s).map fun r => (named :: r.1, r.2)
    | none, some count => readBasic? long (.hex (count - 1) 0) s
    | none, none =>
      if !long then none
      else if c = '\n' then readBasic? long (.plain true) s
      else if c = ' ' ∨ c = '\t' ∨ isReturn c s then readBasic? long .lineEnd s
      else none
  | .lineEnd, c :: s =>
    if c = '\n' then readBasic? long (.plain true) s
    else if c = ' ' ∨ c = '\t' ∨ isReturn c s then readBasic? long .lineEnd s
    else none
  | .hex more value, c :: s =>
    match hexValue? c with
    | none => none
    | some digit =>
      match more with
      | more + 1 => readBasic? long (.hex more (value * 16 + digit)) s
      | 0 =>
        match charOf? (value * 16 + digit) with
        | some named => (readBasic? long (.plain false) s).map fun r => (named :: r.1, r.2)
        | none => none

/-- the rest of a single-quoted text, and what follows it -/
def readLiteral? (long : Bool) : List Char → Option (List Char × List Char)
  | [] => none
  | c :: s =>
    match close? long '\'' (c :: s) with
    | some closed => some closed
    | none =>
      if long && isReturn c s then readLiteral? long s
      else if isText c || (long && c == '\n') then (readLiteral? long s).map fun r => (c :: r.1, r.2)
      else none

/-- a text over several lines may begin on the line after its quotes -/
def dropLineEnd : List Char → List Char
  | '\n' :: s => s
  | '\r' :: '\n' :: s => s
  | s => s

def readShort? : List Char → Option (List Char × List Char)
  | '"' :: s => readBasic? false (.plain false) s
  | '\'' :: s => readLiteral? false s
  | _ => none

/-- a text in any style, and what follows it -/
def read? : List Char → Option (List Char × List Char)
  | '"' :: '"' :: '"' :: s => readBasic? true (.plain false) (dropLineEnd s)
  | '\'' :: '\'' :: '\'' :: s => readLiteral? true (dropLineEnd s)
  | s => readShort? s

/-- length of the longest run of a character, with a run of `run` before the text -/
def longestRun (q : Char) (run : Nat) : List Char → Nat
  | [] => run
  | c :: s => if c = q then longestRun q (run + 1) s else max run (longestRun q 0 s)

/-- a control character other than the line feed -/
def isControl (c : Char) : Bool := (c.toNat < 32 && c != '\n') || c.toNat == 127

inductive Style where
  | basic
  | literal
  | longBasic
  | longLiteral
  deriving DecidableEq, Repr

/-- the first style in which a text needs no escape; if there is none, double quotes -/
def Style.of (s : List Char) : Style :=
  let controls := s.any isControl
  let feeds := s.contains '\n'
  let escapes := s.contains '\\'
  if !controls && !escapes && longestRun '"' 0 s == 0 && !feeds then .basic
  else if !controls && longestRun '\'' 0 s == 0 && !feeds then .literal
  else if !controls && !escapes && longestRun '"' 0 s ≤ 2 then .longBasic
  else if !controls && longestRun '\'' 0 s ≤ 2 then .longLiteral
  else if feeds then .longBasic
  else .basic

def hexDigit (n : Nat) : Char := if n < 10 then Char.ofNat (48 + n) else Char.ofNat (55 + n)

def escapeChar (c : Char) : List Char :=
  if c = '\x08' then ['\\', 'b']
  else if c = '\t' then ['\\', 't']
  else if c = '\n' then ['\\', 'n']
  else if c = '\x0c' then ['\\', 'f']
  else if c = '\r' then ['\\', 'r']
  else if c = '"' then ['\\', '"']
  else if c = '\\' then ['\\', '\\']
  else if isControl c then ['\\', 'u', '0', '0', hexDigit (c.toNat / 16), hexDigit (c.toNat % 16)]
  else [c]

/-- a text between three double quotes, after `run` double quotes: every third of a run is escaped -/
def escapeLong (run : Nat) : List Char → List Char
  | [] => []
  | c :: s =>
    if c = '"' then if run < 2 then '"' :: escapeLong (run + 1) s else '\\' :: '"' :: escapeLong 0 s
    else (if c = '\n' then ['\n'] else escapeChar c) ++ escapeLong 0 s

/-- a text of several lines begins on a line of its own -/
def leadIn (s : List Char) : List Char := if s.contains '\n' then ['\n'] else []

def write (s : List Char) : List Char :=
  match Style.of s with
  | .basic => '"' :: (s.flatMap escapeChar ++ ['"'])
  | .literal => '\'' :: (s ++ ['\''])
  | .longBasic => ['"', '"', '"'] ++ leadIn s ++ escapeLong 0 s ++ ['"', '"', '"']
  | .longLiteral => ['\'', '\'', '\''] ++ leadIn s ++ s ++ ['\'', '\'', '\'']

end MarkVeil.Toml
