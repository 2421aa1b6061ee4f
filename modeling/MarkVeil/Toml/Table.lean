/-
Building the tables of a TOML document.

No name is given twice. A dotted key adds to the table it stands in and to tables that dotted keys or the paths of
headers brought about below it; a header opens a table that is new or only implied so far, and the header of an array
of tables adds one to the array. Tables between braces are closed for good.
-/
import MarkVeil.Toml.Value

namespace MarkVeil.Toml

/-- a value for a key, which may be dotted -/
structure Assignment where
  path : Path
  value : Value
  deriving Repr

/-- a header and the assignments below it -/
structure Section where
  /-- the header of an array of tables -/
  repeated : Bool
  path : Path
  assignments : List Assignment
  deriving Repr

/-- a document: assignments of its own, then sections -/
structure Document where
  top : List Assignment
  sections : List Section
  deriving Repr

namespace Entries

/-- put another value in the place of a name's -/
def replace (k : Key) (v : Value) : Entries → Entries
  | [] => []
  | e :: es => if e.1 = k then (k, v) :: es else e :: replace k v es

/-- name a value; none if the name is taken -/
def insert? (k : Key) (v : Value) (es : Entries) : Option Entries :=
  if (es.lookup k).isSome then none else some (es ++ [(k, v)])

/-- change the table at the end of a path; tables on the way that do not exist come about in the given form -/
def within? (making : Form) (change : Form → Entries → Option Entries) : Path → Form → Entries → Option Entries
  | [], form, es => change form es
  | k :: path, _, es =>
    match es.lookup k with
    | none => (within? making change path making []).map fun t => es ++ [(k, .table making t)]
    | some (.table form t) =>
      if form = .inline ∨ (making = .dotted ∧ form = .header) then none
      else (within? making change path form t).map fun t => replace k (.table form t) es
    | some (.tables rows) =>
      match rows.getLast? with
      | some t => (within? making change path .header t).map fun t => replace k (.tables (rows.dropLast ++ [t])) es
      | none => none
    | some _ => none

/-- add an assignment to a table that itself is not dotted -/
def assign? (es : Entries) (a : Assignment) : Option Entries :=
  match a.path.reverse with
  | [] => none
  | k :: above =>
    within? .dotted (fun form t => if (form = .dotted) = (above = []) then none else insert? k a.value t)
      above.reverse .header es

/-- add assignments one after the other -/
def fill? : Entries → List Assignment → Option Entries
  | es, [] => some es
  | es, a :: as => (assign? es a).bind (fill? · as)

/-- open the table of a header and fill it -/
def open? (k : Key) (as : List Assignment) (es : Entries) : Option Entries :=
  match es.lookup k with
  | none => (fill? [] as).map fun t => es ++ [(k, .table .header t)]
  | some (.table .implied t) => (fill? t as).map fun t => replace k (.table .header t) es
  | some _ => none

/-- add a filled table to an array of tables -/
def push? (k : Key) (as : List Assignment) (es : Entries) : Option Entries :=
  match es.lookup k with
  | none => (fill? [] as).map fun t => es ++ [(k, .tables [t])]
  | some (.tables rows) => (fill? [] as).map fun t => replace k (.tables (rows ++ [t])) es
  | some _ => none

def extend? (es : Entries) (s : Section) : Option Entries :=
  match s.path.reverse with
  | [] => none
  | k :: above =>
    within? .implied (fun _ => if s.repeated then push? k s.assignments else open? k s.assignments)
      above.reverse .header es

def extendAll? : Entries → List Section → Option Entries
  | es, [] => some es
  | es, s :: ss => (extend? es s).bind (extendAll? · ss)

end Entries

def Document.table? (d : Document) : Option Entries := (Entries.fill? [] d.top).bind (Entries.extendAll? · d.sections)

def inlineTable? (as : List Assignment) : Option Value := (Entries.fill? [] as).map (.table .inline)

end MarkVeil.Toml
