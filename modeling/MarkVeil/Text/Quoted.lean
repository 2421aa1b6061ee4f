/-
Text in double quotes, on one line and in visible characters.

`quote` escapes quotes, backslashes and whatever does not show on its own, so a text with line feeds or marks still
fits a line of a report, and `unquote?` reads it back.
-/
import MarkVeil.Text.Bytes
import MarkVeil.Text.Printable

namespace MarkVeil.Text

/-- digits of a number in lower-case hexadecimal -/
def hexDigits (n : Nat) : List Char := Nat.toDigits 16 n

def quoteChar (c : Char) : List Char :=
  if c = '\x00' then ['\\', '0']
  else if c = '\t' then ['\\', 't']
  else if c = '\r' then ['\\', 'r']
  else if c = '\n' then ['\\', 'n']
  else if c = '"' then ['\\', '"']
  else if c = '\\' then ['\\', '\\']
  else if isPrintable c ∧ ¬ extendsGrapheme c then [c]
  else ['\\', 'u', '\x7b'] ++ hexDigits c.toNat ++ ['\x7d']

def quote (s : List Char) : List Char := '"' :: (s.flatMap quoteChar ++ ['"'])

/-- value of hexadecimal digits up to a closing brace, and the rest after it -/
def unquoteHex? : (value : Nat) → List Char → Option (Nat × List Char)
  | _, [] => none
  | value, c :: s =>
    if c = '\x7d' then some (value, s)
    else if '0' ≤ c ∧ c ≤ '9' then unquoteHex? (value * 16 + (c.toNat - 48)) s
    else if 'a' ≤ c ∧ c ≤ 'f' then unquoteHex? (value * 16 + (c.toNat - 87)) s
    else none

/-- the character at the front of the inside of quotes, and the rest -/
def unquoteChar? : List Char → Option (Char × List Char)
  | '\\' :: '0' :: s => some ('\x00', s)
  | '\\' :: 't' :: s => some ('\t', s)
  | '\\' :: 'r' :: s => some ('\r', s)
  | '\\' :: 'n' :: s => some ('\n', s)
  | '\\' :: '"' :: s => some ('"', s)
  | '\\' :: '\\' :: s => some ('\\', s)
  | '\\' :: 'u' :: '\x7b' :: s => (unquoteHex? 0 s).map fun r => (Char.ofNat r.1, r.2)
  | '\\' :: _ => none
  | '"' :: _ => none
  | c :: s => some (c, s)
  | [] => none

/-- the inside of quotes up to the closing quote, which ends the text -/
def unquoteRest? : Nat → List Char → Option (List Char)
  | _, ['"'] => some []
  | 0, _ => none
  | fuel + 1, s => (unquoteChar? s).bind fun (c, rest) => (unquoteRest? fuel rest).map (c :: ·)

/-- the text that `quote` was given -/
def unquote? : List Char → Option (List Char)
  | '"' :: s => unquoteRest? s.length s
  | _ => none

end MarkVeil.Text
