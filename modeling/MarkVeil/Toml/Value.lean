/-
Values of a TOML document.

A table is a list of named values in the order they were written. Its form tells how it came about, which decides what
may still be added to it: `Entries.assign?` and `Entries.extend?` in the table module are the only ways to add. A value
is written on a line behind its name; an array of several items has each item on a line of its own.
-/
namespace MarkVeil.Toml

/-- how a table came about -/
inductive Form where
  /-- by a header of its own, as an element of an array of tables, or as the document -/
  | header
  /-- as part of the path of a header -/
  | implied
  /-- as part of a dotted key -/
  | dotted
  /-- between braces -/
  | inline
  deriving DecidableEq, Repr

abbrev Key := List Char

inductive Value where
  | text (s : List Char)
  | boolean (b : Bool)
  | integer (n : Int)
  /-- a floating-point number as written -/
  | float (written : List Char)
  /-- a date, a time of day or both, as written -/
  | moment (written : List Char)
  | array (items : List Value)
  | table (form : Form) (entries : List (Key × Value))
  /-- an array of tables, one for each header -/
  | tables (rows : List (List (Key × Value)))
  deriving Repr

abbrev Entries := List (Key × Value)

/-- names from the outermost table inwards -/
abbrev Path := List Key

/-! ## Writing values -/

def writeBoolean (b : Bool) : List Char := (if b then "true" else "false").toList

def writeItemLine (item : List Char) : List Char := "    ".toList ++ item ++ [',', '\n']

def writeArray : List (List Char) → List Char
  | [] => ['[', ']']
  | [item] => '[' :: (item ++ [']'])
  | items => ['[', '\n'] ++ items.flatMap writeItemLine ++ [']']

def writeAssignment (name value : List Char) : List Char := name ++ " = ".toList ++ value ++ ['\n']

end MarkVeil.Toml
