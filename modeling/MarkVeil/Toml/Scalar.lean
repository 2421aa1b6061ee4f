/-
Unquoted values of a TOML document: booleans, numbers, dates and times.

An unquoted value is a word, or a date and a time of day with a space between them. Digits may be grouped by single
underscores. Integers have 128 bits, with or without a sign, and a floating-point number may not be too large for a
finite double.
-/
import MarkVeil.Text.Bytes
import MarkVeil.Toml.Text
import MarkVeil.Toml.Value

namespace MarkVeil.Toml

/-- part of an unquoted value -/
def isWordChar (c : Char) : Bool := c.isAlphanum || c == '_' || c == '+' || c == '-' || c == '.' || c == ':'

/-- one or more digits, an underscore between any two -/
def isGrouped (digit : Char → Bool) : List Char → Bool
  | [] => false
  | [c] => digit c
  | c :: '_' :: s => digit c && isGrouped digit s
  | c :: s => digit c && isGrouped digit s

/-- a whole number in decimal, without a needless zero -/
def isWhole (s : List Char) : Bool := isGrouped Char.isDigit s && (s.head? != some '0' || s.length == 1)

/-- the number that digits of a base stand for, underscores aside -/
def numeral (base : Nat) (s : List Char) : Nat :=
  (s.filterMap hexValue?).foldl (fun n d => n * base + d) 0

/-- a sign and what it stands before -/
def signed : List Char → Bool × List Char
  | '-' :: s => (true, s)
  | '+' :: s => (false, s)
  | s => (false, s)

def isDigitOf (base : Nat) (c : Char) : Bool := (hexValue? c).any (· < base)

/-- a number with a base sign -/
def based? : List Char → Option Nat
  | '0' :: 'x' :: s => if isGrouped (isDigitOf 16) s then some (numeral 16 s) else none
  | '0' :: 'o' :: s => if isGrouped (isDigitOf 8) s then some (numeral 8 s) else none
  | '0' :: 'b' :: s => if isGrouped (isDigitOf 2) s then some (numeral 2 s) else none
  | _ => none

def integer? (w : List Char) : Option Int :=
  match based? w with
  | some n => if n < Nat.pow 2 128 then some n else none
  | none =>
    let (negative, s) := signed w
    if !isWhole s then none
    else
      let n := numeral 10 s
      if negative then if n ≤ Nat.pow 2 127 then some (-n) else none
      else if n < Nat.pow 2 128 then some n else none

/-- halfway from the largest finite double to the power of two after it -/
def doubleBound : Nat := Nat.pow 2 1024 - Nat.pow 2 970

/-- `digits` times ten to the power of `up - down` rounds to a finite double -/
def isFinite (digits : List Char) (up down : Nat) : Bool :=
  let n := numeral 10 digits
  let width := (digits.filter Char.isDigit).length
  n == 0 || width + up ≤ down + 300 ||
    (up ≤ down + 310 && n * Nat.pow 10 (up - down) < doubleBound * Nat.pow 10 (down - up))

def exponent? : List Char → Option (Bool × Nat)
  | [] => some (false, 0)
  | c :: s =>
    let (negative, digits) := signed s
    if (c = 'e' ∨ c = 'E') ∧ isGrouped Char.isDigit digits then some (negative, numeral 10 digits) else none

/-- a floating-point number of digits, with a fraction or an exponent -/
def isDecimal (s : List Char) : Bool :=
  let isGroupedChar := fun c : Char => c.isDigit || c == '_'
  let whole := s.takeWhile isGroupedChar
  let rest := s.dropWhile isGroupedChar
  let fraction := match rest with
    | '.' :: t => t.takeWhile isGroupedChar
    | _ => []
  let power := match rest with
    | '.' :: t => t.dropWhile isGroupedChar
    | t => t
  isWhole whole && !rest.isEmpty && (rest.head? != some '.' || isGrouped Char.isDigit fraction) &&
    match exponent? power with
    | some (negative, n) =>
      let places := (fraction.filter Char.isDigit).length
      if negative then isFinite (whole ++ fraction) 0 (places + n) else isFinite (whole ++ fraction) n places
    | none => false

def isFloat (w : List Char) : Bool :=
  let s := (signed w).2
  s == "inf".toList || s == "nan".toList || isDecimal s

/-- a number of exactly `count` digits at the front, from `low` to `high`, and the rest -/
def field? (count low high : Nat) (s : List Char) : Option (Nat × List Char) :=
  let digits := s.take count
  let n := numeral 10 digits
  if digits.length = count ∧ digits.all Char.isDigit ∧ low ≤ n ∧ n ≤ high then some (n, s.drop count) else none

/-- the rest after a character -/
def after? (c : Char) : List Char → Option (List Char)
  | d :: s => if d = c then some s else none
  | [] => none

def daysIn (year month : Nat) : Nat :=
  if month = 2 then if year % 4 = 0 ∧ (year % 100 ≠ 0 ∨ year % 400 = 0) then 29 else 28
  else if month ∈ [4, 6, 9, 11] then 30
  else 31

def date? (s : List Char) : Option (List Char) := do
  let (year, s) ← field? 4 0 9999 s
  let s ← after? '-' s
  let (month, s) ← field? 2 1 12 s
  let s ← after? '-' s
  let (_, s) ← field? 2 1 (daysIn year month) s
  return s

/-- the rest after a fraction of a second, if there is one -/
def fraction? : List Char → Option (List Char)
  | '.' :: s => if (s.head?.any Char.isDigit) then some (s.dropWhile Char.isDigit) else none
  | s => some s

/-- the rest after a time of day; seconds may be left out -/
def time? (s : List Char) : Option (List Char) := do
  let (_, s) ← field? 2 0 23 s
  let s ← after? ':' s
  let (_, s) ← field? 2 0 59 s
  match s with
  | ':' :: s =>
    let (_, s) ← field? 2 0 60 s
    fraction? s
  | s => return s

/-- the rest after an offset from universal time, if there is one -/
def zone? : List Char → Option (List Char)
  | [] => some []
  | c :: s =>
    if c = 'Z' ∨ c = 'z' then some s
    else if c = '+' ∨ c = '-' then do
      let (_, s) ← field? 2 0 23 s
      let s ← after? ':' s
      let (_, s) ← field? 2 0 59 s
      return s
    else none

/-- the rest after a date and a time of day, behind the date -/
def dayTime? : List Char → Option (List Char)
  | [] => some []
  | c :: s => if c = 'T' ∨ c = 't' ∨ c = ' ' then (time? s).bind zone? else none

/-- a date, a time of day or both -/
def isMoment (w : List Char) : Bool :=
  match date? w with
  | some s => dayTime? s == some []
  | none => time? w == some []

def ofWord? (w : List Char) : Option Value :=
  if w = "true".toList then some (.boolean true)
  else if w = "false".toList then some (.boolean false)
  else
    match integer? w with
    | some n => some (.integer n)
    | none => if isFloat w then some (.float w) else if isMoment w then some (.moment w) else none

/-- the word at the front, with the time of day behind a date, and the rest -/
def takeWord (s : List Char) : List Char × List Char :=
  let w := s.takeWhile isWordChar
  let rest := s.dropWhile isWordChar
  match rest with
  | ' ' :: c :: t =>
    if c.isDigit ∧ date? w = some [] then
      (w ++ ' ' :: (c :: t).takeWhile isWordChar, (c :: t).dropWhile isWordChar)
    else (w, rest)
  | _ => (w, rest)

/-- an unquoted value, and what follows it -/
def readWord? (s : List Char) : Option (Value × List Char) :=
  let (w, rest) := takeWord s
  (ofWord? w).map fun v => (v, rest)

end MarkVeil.Toml
