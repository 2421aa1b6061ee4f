/-
The token tree of a document.

A document is a flat stream of block tokens: containers and paragraphs come as a token that opens and a token that
closes, and the inline content of a leaf block is gathered in one `inline` token, whose children are a flat stream of
inline tokens. Tokens know their lines and their markup but no byte offsets. `descendants` walks a tree with an
explicit stack, in the order of `preorder`.
-/
import MarkVeil.Text.Lines

namespace MarkVeil.Token

open MarkVeil.Text

inductive Kind where
  | document
  | paragraphOpen | paragraphClose
  | headingOpen | headingClose
  | blockquoteOpen | blockquoteClose
  | bulletListOpen | bulletListClose
  | orderedListOpen | orderedListClose
  | listItemOpen | listItemClose
  | inline
  | text | softBreak | hardBreak
  | strongOpen | strongClose
  | emOpen | emClose
  | strikeOpen | strikeClose
  | codeInline
  | linkOpen | linkClose
  | image
  | fence
  | codeBlock
  | htmlBlock
  | htmlInline
  | hr
  deriving DecidableEq, Repr

namespace Kind

/-- tokens that stand inside an `inline` token -/
def isInline : Kind → Bool
  | text | softBreak | hardBreak | strongOpen | strongClose | emOpen | emClose | strikeOpen | strikeClose
  | codeInline | linkOpen | linkClose | image | htmlInline => true
  | _ => false

end Kind

structure Node where
  kind : Kind
  span? : Option LineSpan := none
  /-- marker text as written -/
  markup : String := ""
  /-- name of the HTML element it stands for -/
  tag : String := ""
  /-- what follows a code fence -/
  info? : Option String := none
  /-- literal text -/
  content? : Option String := none
  children : List Node := []
  deriving Repr

namespace Node

/-- value of a number without a minus sign: digits, behind an optional plus sign -/
def unsigned? (s : List Char) : Option Nat :=
  let digits := match s with
    | '+' :: t => t
    | t => t
  if digits.isEmpty ∨ ¬ digits.all Char.isDigit then none
  else some (digits.foldl (fun n c => n * 10 + (c.toNat - 48)) 0)

/-- level that the tag of a heading names, 1 to 6 -/
def headingLevel? (n : Node) : Option Nat :=
  match n.tag.toList with
  | 'h' :: digits => (unsigned? digits).filter fun level => 1 ≤ level ∧ level ≤ 6
  | _ => none

mutual

def size : Node → Nat
  | ⟨_, _, _, _, _, _, children⟩ => sizeAll children + 1

def sizeAll : List Node → Nat
  | [] => 0
  | n :: ns => size n + sizeAll ns

end

mutual

/-- a node, then each child's nodes in turn -/
def preorder : Node → List Node
  | ⟨kind, span?, markup, tag, info?, content?, children⟩ =>
    ⟨kind, span?, markup, tag, info?, content?, children⟩ :: preorderAll children

def preorderAll : List Node → List Node
  | [] => []
  | n :: ns => preorder n ++ preorderAll ns

end

theorem size_eq (n : Node) : n.size = sizeAll n.children + 1 := by
  cases n
  rfl

theorem sizeAll_append (ns ms : List Node) : sizeAll (ns ++ ms) = sizeAll ns + sizeAll ms := by
  induction ns with
  | nil => exact (Nat.zero_add _).symm
  | cons n ns ih => rw [List.cons_append, sizeAll, sizeAll, ih, Nat.add_assoc]

/-- the top of a stack, and the stack with its children in its place, the first of them on top -/
def pop : List Node → Option Node × List Node
  | [] => (none, [])
  | n :: stack => (some n, n.children ++ stack)

/-- a stack can grow, but the trees on it lose a node each time -/
theorem sizeAll_pop {n : Node} {stack rest : List Node} (h : pop stack = (some n, rest)) :
    sizeAll stack = sizeAll rest + 1 := by
  cases stack with
  | nil => simp [pop] at h
  | cons m stack =>
    obtain ⟨-, rfl⟩ := Prod.mk.inj h
    rw [sizeAll, size_eq, sizeAll_append]
    omega

/-- what comes off a stack, until nothing is left on it -/
def unstack (stack : List Node) : List Node :=
  match _h : pop stack with
  | (none, _) => []
  | (some n, rest) => n :: unstack rest
termination_by sizeAll stack
decreasing_by
  have := sizeAll_pop _h
  omega

/-- a node and all nodes below it, in document order -/
def descendants (n : Node) : List Node := unstack [n]

end Node

end MarkVeil.Token
