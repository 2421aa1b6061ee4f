/-
Heading markers on their lines.

An ATX heading begins with a run of exactly as many number signs as its level; the underline of a setext heading is a
run of equals signs or dashes alone on its line. Both may stand behind spaces and tabs.
-/
import MarkVeil.Text.Blank
import MarkVeil.Text.Bytes

namespace MarkVeil.Marker.Heading

open MarkVeil.Text

def indentLen (s : List Char) : Nat := runLen (fun c => c == ' ' || c == '\t') s

/-- an ATX marker, and where the content after it begins -/
structure Atx where
  marker : Extent
  contentStart : Nat
  deriving DecidableEq, Repr

def atx? (line : List Char) (level : Nat) : Option Atx :=
  let indent := indentLen line
  let s := line.drop indent
  let run := countRun '#' s
  if level = 0 ∨ run ≠ level then none
  else some ⟨⟨indent, indent + run⟩, indent + run + indentLen (s.drop run)⟩

def underline? (line : List Char) : Option Extent :=
  let indent := indentLen line
  match line.drop indent with
  | c :: s =>
    let run := countRun c (c :: s)
    if (c = '=' ∨ c = '-') ∧ allBlank ((c :: s).drop run) then some ⟨indent, indent + run⟩ else none
  | [] => none

def contentStart (line : List Char) : Nat := indentLen line

end MarkVeil.Marker.Heading
