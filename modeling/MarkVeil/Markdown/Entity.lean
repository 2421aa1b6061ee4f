/-
Character references and backslash escapes.

A reference is an ampersand, a name or a number, and a semicolon; `reference?` reads one. Zero stands for the
replacement character, and a number that is no character makes no reference. `unescape` resolves both references and
escapes, and drops carriage returns.
-/
import MarkVeil.Markdown.EntityNames

namespace MarkVeil.Markdown.Entity

/-- ASCII punctuation, the characters that a backslash escapes -/
def isAsciiPunctuation (c : Char) : Bool :=
  let n := c.toNat
  (33 ≤ n && n ≤ 47) || (58 ≤ n && n ≤ 64) || (91 ≤ n && n ≤ 96) || (123 ≤ n && n ≤ 126)

def hexDigit? (c : Char) : Option Nat :=
  if '0' ≤ c ∧ c ≤ '9' then some (c.toNat - 48)
  else if 'a' ≤ c ∧ c ≤ 'f' then some (c.toNat - 87)
  else if 'A' ≤ c ∧ c ≤ 'F' then some (c.toNat - 55)
  else none

def decimalDigit? (c : Char) : Option Nat := if c.isDigit then some (c.toNat - 48) else none

/-- at most `limit` digits in a base: how many, their value and the rest -/
def number (digit? : Char → Option Nat) (base : Nat) : (limit count value : Nat) → List Char → Nat × Nat × List Char
  | 0, count, value, s => (count, value, s)
  | limit + 1, count, value, c :: s =>
    match digit? c with
    | some d => number digit? base limit (count + 1) (value * base + d) s
    | none => (count, value, c :: s)
  | _ + 1, count, value, [] => (count, value, [])

/-- the character of a code point; zero gives the replacement character -/
def charOf? (n : Nat) : Option Char :=
  if n = 0 then some '\uFFFD' else if n.isValidChar then some (Char.ofNat n) else none

/-- a numeric reference, read after its `&#` -/
def numeric? (s : List Char) : Option (List Char × List Char) :=
  let (count, value, rest) :=
    match s with
    | 'x' :: s => number hexDigit? 16 6 0 0 s
    | 'X' :: s => number hexDigit? 16 6 0 0 s
    | s => number decimalDigit? 10 7 0 0 s
  match rest with
  | ';' :: rest => if count = 0 then none else (charOf? value).map fun c => ([c], rest)
  | _ => none

def lookup? (name : List Char) : Option (List Char) :=
  (named.lookup (String.ofList name)).map fun cs => cs.map Char.ofNat

/-- a character reference at the front of the text: what it stands for, and the rest -/
def reference? : List Char → Option (List Char × List Char)
  | '&' :: '#' :: s => numeric? s
  | '&' :: s =>
    match s.dropWhile Char.isAlphanum with
    | ';' :: rest => (lookup? (s.takeWhile Char.isAlphanum)).map fun v => (v, rest)
    | _ => none
  | _ => none

/-- the text with escapes and references resolved -/
def unescape (s : List Char) : List Char := go s.length s
where
  go : Nat → List Char → List Char
    | 0, _ => []
    | _, [] => []
    | n + 1, c :: s =>
      if c = '\r' then go n s
      else if c = '\\' then
        match s with
        | d :: s' => if isAsciiPunctuation d then d :: go n s' else c :: go n s
        | [] => [c]
      else
        match reference? (c :: s) with
        | some (v, rest) => v ++ go n rest
        | none => c :: go n s

end MarkVeil.Markdown.Entity
