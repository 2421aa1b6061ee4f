/-
Inline elements, and the runs of delimiters among them.

`Inline` is what a paragraph holds once it is read. `Part` is an element or a run of delimiters not yet paired.
`Part.resolve` pairs runs: each run that can close looks back for the nearest run of the same delimiter that can open,
two delimiters of each side make strong emphasis and one makes emphasis, and what no run pairs with stays text, one
piece for each delimiter.
-/
import MarkVeil.Markdown.Piece

namespace MarkVeil.Markdown

open MarkVeil.Text

inductive Stress where
  | emphasis
  | strong
  | strike
  deriving DecidableEq, Repr

/-- how a link is written: with its target, as an address in angle brackets, or by the label of a definition -/
inductive LinkForm where
  | inline
  | autolink
  | reference
  deriving DecidableEq, Repr

inductive Inline where
  | text (extent : Extent)
  | code (extent : Extent) (content : List Char)
  | html (extent : Extent) (content : List Char)
  | softBreak (extent : Extent)
  | hardBreak (extent : Extent)
  | stress (extent : Extent) (kind : Stress) (children : List Inline)
  | link (extent : Extent) (form : LinkForm) (children : List Inline)
  | image (extent : Extent) (children : List Inline)
  deriving Repr

/-- a run of one delimiter: `length` as written, `count` still unpaired from `start` on -/
structure Run where
  delimiter : Char
  start : Nat
  count : Nat
  length : Nat
  opens : Bool
  closes : Bool
  deriving DecidableEq, Repr

namespace Run

/-- unpaired delimiters as text, one piece each, last first -/
def texts (r : Run) : List Inline :=
  (List.range r.count).reverse.map fun i => .text ⟨r.start + i, r.start + i + 1⟩

/-- a run that can close pairs with an earlier one that can open: runs of tildes only in equal length, and a run that
can do both only if the lengths do not add up to a multiple of three, unless each is one -/
def pairs (opener closer : Run) : Bool :=
  opener.delimiter == closer.delimiter &&
    (closer.delimiter != '~' || opener.length == closer.length) &&
    ((!closer.opens && !(opener.opens && opener.closes)) || (closer.length + opener.length) % 3 != 0 ||
      closer.length % 3 == 0)

end Run

/-- an element, or a run not yet paired -/
inductive Part where
  | item (i : Inline)
  | run (r : Run)
  deriving Repr

namespace Part

/-- a run that may yet close a pair, and the elements after it, last first -/
structure Pending where
  run : Run
  after : List Inline
  deriving Repr

/-- pending runs, innermost first; elements before all of them, last first; how many of the outermost runs a run of
tildes no longer looks at -/
structure Pairing where
  pending : List Pending
  items : List Inline
  floor : Nat
  deriving Repr

namespace Pairing

def add (new : List Inline) (p : Pairing) : Pairing :=
  match p.pending with
  | [] => { p with items := new ++ p.items }
  | q :: qs => { p with pending := { q with after := new ++ q.after } :: qs }

/-- give up the innermost pending run -/
def drop (p : Pairing) : Pairing :=
  match p.pending with
  | [] => p
  | q :: qs => { p with pending := qs }.add (q.after ++ q.run.texts)

def dropN : Nat → Pairing → Pairing
  | 0, p => p
  | n + 1, p => dropN n p.drop

/-- where, from the innermost on, is the pending run that `closer` pairs with -/
def find? (closer : Run) (p : Pairing) : Option Nat :=
  let seen := if closer.delimiter = '~' then p.pending.take (p.pending.length - p.floor) else p.pending
  seen.findIdx? fun q => q.run.pairs closer

/-- wrap elements in pairs of delimiters, innermost first: `n` on each side, up to `start` and from `stop` on -/
def wrap (delimiter : Char) : Nat → (start stop : Nat) → List Inline → List Inline
  | 0, _, _, children => children
  | 1, start, stop, children =>
    [.stress ⟨start - 1, stop + 1⟩ (if delimiter = '~' then .strike else .emphasis) children]
  | n + 2, start, stop, children =>
    wrap delimiter n (start - 2) (stop + 2)
      [.stress ⟨start - 2, stop + 2⟩ (if delimiter = '~' then .strike else .strong) children]

/-- pair a closing run with the innermost pending run: what is left of the closing run -/
def pair (closer : Run) (p : Pairing) : Run × Pairing :=
  match p.pending with
  | [] => (closer, p)
  | q :: qs =>
    let n := min closer.count q.run.count
    let left := q.run.count - n
    let wrapped := wrap closer.delimiter n (q.run.start + q.run.count) closer.start q.after.reverse
    let p := { p with pending := qs, floor := min p.floor qs.length }
    let p := if left = 0 then p.add wrapped
      else { p with pending := ⟨{ q.run with count := left }, wrapped⟩ :: qs }
    ({ closer with start := closer.start + n, count := closer.count - n }, p)

/-- pair a run that can close as often as possible; fuel is its length -/
def close : Nat → Run → Pairing → Run × Pairing
  | 0, r, p => (r, p)
  | fuel + 1, r, p =>
    if r.count = 0 then (r, p)
    else
      match p.find? r with
      | none => (r, if r.delimiter = '~' then { p with floor := p.pending.length } else p)
      | some n =>
        let (r, p) := (p.dropN n).pair r
        close fuel r p

def step (p : Pairing) : Part → Pairing
  | .item i => p.add [i]
  | .run r =>
    let (r, p) := if r.closes then close r.count r p else (r, p)
    if r.count = 0 then p
    else if r.opens then { p with pending := ⟨r, []⟩ :: p.pending }
    else p.add r.texts

end Pairing

/-- an element that is a run's -/
def isRun : Part → Bool
  | .run _ => true
  | .item _ => false

/-- a hard break that nothing follows breaks no line -/
def endBreak : List Inline → List Inline
  | .hardBreak e :: before => .softBreak e :: before
  | items => items

/-- pair all runs -/
def resolve (parts : List Part) : List Inline :=
  let p := parts.foldl Pairing.step ⟨[], [], 0⟩
  let items := (p.dropN p.pending.length).items
  (if parts.any isRun then endBreak items else items).reverse

end Part

end MarkVeil.Markdown
