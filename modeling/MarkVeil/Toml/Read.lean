/-
Reading TOML documents.

A document is a sequence of assignments and headers, each on a line of its own, with blanks, blank lines and comments
between them. `read?` answers with the table of a document, or none if the text is not one.
-/
import MarkVeil.Toml.Scalar
import MarkVeil.Toml.Table
import MarkVeil.Toml.Text

namespace MarkVeil.Toml

/-- a blank inside a line -/
def isGap (c : Char) : Bool := c == ' ' || c == '\t'

def skipGaps (s : List Char) : List Char := s.dropWhile isGap

/-- the rest behind blanks, line ends and comments; none if a comment holds a control character -/
def skipFiller? : (inComment : Bool) → List Char → Option (List Char)
  | _, [] => some []
  | true, c :: s =>
    if c = '\n' then skipFiller? false s
    else if isText c ∨ isReturn c s then skipFiller? true s
    else none
  | false, c :: s =>
    if isGap c ∨ c = '\n' ∨ isReturn c s then skipFiller? false s
    else if c = '#' then skipFiller? true s
    else some (c :: s)

/-- the rest behind the end of a line; none if anything but blanks and a comment comes before it -/
def endLine? : (inComment : Bool) → List Char → Option (List Char)
  | _, [] => some []
  | inComment, c :: s =>
    if c = '\n' then some s
    else if isReturn c s then endLine? inComment s
    else if inComment then if isText c then endLine? true s else none
    else if isGap c then endLine? false s
    else if c = '#' then endLine? true s
    else none

def isKeyChar (c : Char) : Bool := c.isAlphanum || c == '_' || c == '-'

def readKey? (s : List Char) : Option (Key × List Char) :=
  match s.takeWhile isKeyChar with
  | [] => readShort? s
  | k => some (k, s.dropWhile isKeyChar)

/-- a key, dotted or not, and what follows it and the blanks behind it -/
def readPath? : (fuel : Nat) → List Char → Option (Path × List Char)
  | 0, _ => none
  | fuel + 1, s =>
    (readKey? s).bind fun (k, s) =>
      match skipGaps s with
      | '.' :: t => (readPath? fuel (skipGaps t)).map fun (path, s) => (k :: path, s)
      | t => some ([k], t)

/-- items up to a closing bracket, commas between them and perhaps after the last -/
def readItems? (item : List Char → Option (α × List Char)) (close : Char) :
    (fuel : Nat) → List Char → Option (List α × List Char)
  | 0, _ => none
  | fuel + 1, s =>
    (skipFiller? false s).bind fun s =>
      if s.head? = some close then some ([], s.drop 1)
      else
        (item s).bind fun (a, s) =>
          (skipFiller? false s).bind fun s =>
            match s with
            | [] => none
            | c :: t =>
              if c = close then some ([a], t)
              else if c = ',' then (readItems? item close fuel t).map fun (as, s) => (a :: as, s)
              else none

def readAssignment? (value : List Char → Option (Value × List Char)) (s : List Char) :
    Option (Assignment × List Char) :=
  (readPath? s.length s).bind fun (path, s) =>
    (after? '=' s).bind fun s => (value (skipGaps s)).map fun (v, s) => (⟨path, v⟩, s)

/-- a value with no others in it -/
def readSimple? (s : List Char) : Option (Value × List Char) :=
  if s.head? = some '"' ∨ s.head? = some '\'' then (read? s).map fun (t, s) => (.text t, s) else readWord? s

/-- a value that holds others at most `depth` deep -/
def readValue? : (depth : Nat) → List Char → Option (Value × List Char)
  | 0, s => readSimple? s
  | depth + 1, s =>
    match s with
    | '[' :: t => (readItems? (readValue? depth) ']' (t.length + 1) t).map fun (vs, s) => (.array vs, s)
    | '\x7b' :: t =>
      (readItems? (readAssignment? (readValue? depth)) '\x7d' (t.length + 1) t).bind fun (as, s) =>
        (inlineTable? as).map fun v => (v, s)
    | s => readSimple? s

/-- how deep arrays and tables between braces may hold each other -/
def maxDepth : Nat := 80

/-- a line of a document -/
inductive Statement where
  | assignment (a : Assignment)
  | header (repeated : Bool) (path : Path)
  deriving Repr

/-- the path of a header and what follows its brackets -/
def readHeader? (repeated : Bool) (s : List Char) : Option (Statement × List Char) :=
  let s := skipGaps s
  (readPath? s.length s).bind fun (path, s) =>
    (after? ']' s).bind fun s =>
      (if repeated then after? ']' s else some s).map fun s => (.header repeated path, s)

def readStatement? : List Char → Option (Statement × List Char)
  | '[' :: '[' :: s => readHeader? true s
  | '[' :: s => readHeader? false s
  | s => (readAssignment? (readValue? maxDepth) s).map fun (a, s) => (.assignment a, s)

/-- statements to the end of the text -/
def readStatements? : (fuel : Nat) → List Char → Option (List Statement)
  | 0, _ => none
  | fuel + 1, s =>
    (skipFiller? false s).bind fun s =>
      if s.isEmpty then some []
      else
        (readStatement? s).bind fun (a, s) =>
          (endLine? false s).bind fun s => (readStatements? fuel s).map (a :: ·)

/-- gather the statements below each header -/
def Document.ofStatements : List Statement → Document
  | [] => ⟨[], []⟩
  | .assignment a :: rest =>
    let d := ofStatements rest
    ⟨a :: d.top, d.sections⟩
  | .header repeated path :: rest =>
    let d := ofStatements rest
    ⟨[], ⟨repeated, path, d.top⟩ :: d.sections⟩

/-- a document may begin with a byte order mark -/
def dropMark : List Char → List Char
  | '\uFEFF' :: s => s
  | s => s

def Document.ofText? (s : List Char) : Option Document :=
  let s := dropMark s
  (readStatements? (s.length + 1) s).map Document.ofStatements

def readTable? (s : List Char) : Option Entries := (Document.ofText? s).bind Document.table?

end MarkVeil.Toml
