/-
Environment variables, and paths that name them.

In a path, `$NAME` and `${NAME}` stand for a variable's value, `${NAME:-default}` for a default if there is no such
variable, and `$$` for a dollar sign. A path that needs a variable there is not stays as it is. A tilde in front,
alone or before a slash, stands for the home directory, but only if the path itself begins with it.
-/
import MarkVeil.Text.Alphanumeric

namespace MarkVeil.Settings

open MarkVeil.Text

structure Environment where
  /-- names and values -/
  bindings : List (String × String)
  /-- home directory of the account, for want of one among the variables -/
  accountHome? : Option String := none
  deriving Repr

def isNameChar (c : Char) : Bool := isAlphanumeric c || c == '_'

inductive Piece where
  | literal (c : Char)
  | reference (name : List Char) (default? : Option (List Char))
  deriving DecidableEq, Repr

/-- what stands before and after the first colon with a dash behind it -/
def splitDefault? : List Char → Option (List Char × List Char)
  | [] => none
  | ':' :: '-' :: s => some ([], s)
  | c :: s => (splitDefault? s).map fun r => (c :: r.1, r.2)

/-- what stands between braces: a name, and perhaps a default; a name may not be empty before a default -/
def braced (s : List Char) : Piece :=
  match splitDefault? s with
  | some (c :: name, default) => .reference (c :: name) (some default)
  | _ => .reference s none

theorem length_dropWhile_le (p : Char → Bool) (s : List Char) : (s.dropWhile p).length ≤ s.length :=
  (List.dropWhile_sublist p).length_le

theorem length_lt_of_dropWhile {p : Char → Bool} {s rest : List Char} {c : Char} (h : s.dropWhile p = c :: rest) :
    rest.length < s.length :=
  Nat.lt_of_lt_of_le (by rw [h]; exact Nat.lt_succ_self _) (length_dropWhile_le p s)

def pieces : List Char → List Piece
  | [] => []
  | '$' :: '\x7b' :: s =>
    match h : s.dropWhile (· != '\x7d') with
    | _ :: rest =>
      have := length_lt_of_dropWhile h
      braced (s.takeWhile (· != '\x7d')) :: pieces rest
    | [] => .literal '$' :: .literal '\x7b' :: pieces s
  | '$' :: '$' :: s => .literal '$' :: pieces s
  | '$' :: s =>
    match s.takeWhile isNameChar with
    | [] => .literal '$' :: pieces s
    | name => .reference name none :: pieces (s.dropWhile isNameChar)
  | c :: s => .literal c :: pieces s
termination_by s => s.length
decreasing_by
  · exact Nat.lt_succ_of_lt (Nat.lt_succ_of_lt this)
  · exact Nat.lt_succ_of_lt (Nat.lt_succ_self _)
  · exact Nat.lt_succ_of_lt (Nat.lt_succ_self _)
  · exact Nat.lt_succ_self _
  · exact Nat.lt_succ_of_le (length_dropWhile_le isNameChar s)
  · exact Nat.lt_succ_self _

/-- the variable that a piece needs -/
def Piece.name? : Piece → Option String
  | literal _ => none
  | reference name _ => some (String.ofList name)

def variablesOf (path : String) : List String := (pieces path.toList).filterMap Piece.name?

namespace Environment

def get? (env : Environment) (name : String) : Option String := env.bindings.lookup name

def home? (env : Environment) : Option String :=
  match env.get? "HOME" with
  | some home => if home.isEmpty then env.accountHome? else some home
  | none => env.accountHome?

/-- what a piece stands for; none if it needs a variable there is not -/
def expandPiece? (env : Environment) : Piece → Option (List Char)
  | .literal c => some [c]
  | .reference name default? => ((env.get? (String.ofList name)).map String.toList).or default?

/-- a path with the home directory in the place of a tilde in front -/
def expandTilde (env : Environment) : List Char → List Char
  | '~' :: s =>
    match env.home? with
    | some home => if s = [] ∨ s.head? = some '/' then home.toList ++ s else '~' :: s
    | none => '~' :: s
  | s => s

def expandPath (env : Environment) (path : String) : String :=
  let s := path.toList
  match (pieces s).mapM env.expandPiece? with
  | none => path
  | some parts => String.ofList (if s.head? = some '~' then env.expandTilde parts.flatten else parts.flatten)

def settingsPath (env : Environment) : String :=
  String.ofList (env.expandTilde "~/.config/markdown-live".toList ++ "/config.toml".toList)

end Environment

end MarkVeil.Settings
