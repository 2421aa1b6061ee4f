/-
Kinds of decoration.

A hide takes markup out of sight; the other kinds style content. Kinds have a fixed order and a name each, and
`Kind.ofName?` accepts exactly the names.
-/
import MarkVeil.Text.Quoted

namespace MarkVeil.Decoration

open MarkVeil.Text

inductive Kind where
  | hide
  | bold
  | italic
  | boldItalic
  | strikethrough
  | code
  | heading
  | heading1
  | heading2
  | heading3
  | link
  | image
  deriving DecidableEq, Repr

namespace Kind

def all : List Kind :=
  [hide, bold, italic, boldItalic, strikethrough, code, heading, heading1, heading2, heading3, link, image]

/-- place in the order -/
def rank (k : Kind) : Nat := all.idxOf k

def name : Kind → String
  | hide => "hide"
  | bold => "bold"
  | italic => "italic"
  | boldItalic => "boldItalic"
  | strikethrough => "strikethrough"
  | code => "code"
  | heading => "heading"
  | heading1 => "heading1"
  | heading2 => "heading2"
  | heading3 => "heading3"
  | link => "link"
  | image => "image"

def ofName? (s : String) : Option Kind := all.find? (·.name == s)

/-- every kind but the hide styles content -/
def isStyled (k : Kind) : Bool := k != hide

/-- kind of a heading: the first three levels have their own -/
def ofLevel : Nat → Kind
  | 1 => heading1
  | 2 => heading2
  | 3 => heading3
  | _ => heading

theorem mem_all (k : Kind) : k ∈ all := by cases k <;> decide

theorem ofName?_name (k : Kind) : ofName? k.name = some k := by cases k <;> decide

theorem ofName?_eq_some {s : String} {k : Kind} : ofName? s = some k ↔ s = k.name := by
  constructor
  · intro h
    have hname : (k.name == s) = true := List.find?_some (p := fun k : Kind => k.name == s) h
    exact (beq_iff_eq.1 hname).symm
  · rintro rfl
    exact ofName?_name k

end Kind

structure UnknownKind where
  name : String
  deriving DecidableEq, Repr

def UnknownKind.message (e : UnknownKind) : String :=
  "unknown decoration kind: " ++ String.ofList (quote e.name.toList)

def Kind.parse (s : String) : Except UnknownKind Kind :=
  match ofName? s with
  | some k => .ok k
  | none => .error ⟨s⟩

end MarkVeil.Decoration
