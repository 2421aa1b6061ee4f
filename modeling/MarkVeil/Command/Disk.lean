/-
Files and directories.

A disk holds directories and files by their absolute paths. A file is any bytes; it is read as text if they are UTF-8.
A path is followed name by name, as far as there are directories.
-/
namespace MarkVeil.Command

/-- why a file cannot be read or written -/
inductive Fault where
  | notFound
  | alreadyExists
  | notDirectory
  | isDirectory
  | notText
  | other (message : String)
  deriving DecidableEq, Repr

def Fault.message : Fault → String
  | notFound => "No such file or directory (os error 2)"
  | alreadyExists => "File exists (os error 17)"
  | notDirectory => "Not a directory (os error 20)"
  | isDirectory => "Is a directory (os error 21)"
  | notText => "stream did not contain valid UTF-8"
  | other message => message

/-- there is no such file -/
def Fault.isAbsence : Fault → Bool
  | notFound | notDirectory => true
  | _ => false

/-- names from the root on -/
abbrev Place := List String

/-- names of a path: the texts between its slashes -/
def splitPath : (name : List Char) → List Char → List String
  | name, [] => [String.ofList name.reverse]
  | name, c :: s => if c = '/' then String.ofList name.reverse :: splitPath [] s else splitPath (c :: name) s

structure Disk where
  directories : List Place
  /-- the bytes of each file -/
  files : List (Place × ByteArray)

namespace Disk

/-- nothing but the root -/
def empty : Disk := ⟨[], []⟩

def isDirectory (d : Disk) (p : Place) : Bool := p.isEmpty || d.directories.contains p

/-- where names lead from a place -/
def follow (d : Disk) (p : Place) : List String → Except Fault Place
  | [] => .ok p
  | name :: rest =>
    if d.isDirectory p then
      if name = "" ∨ name = "." then follow d p rest
      else if name = ".." then follow d p.dropLast rest
      else follow d (p ++ [name]) rest
    else if (d.files.lookup p).isSome then .error .notDirectory
    else .error .notFound

/-- where a path begins: at the root if a slash comes first -/
def startOf (cwd : Place) (path : String) : Place := if path.toList.head? = some '/' then [] else cwd

def resolve (d : Disk) (cwd : Place) (path : String) : Except Fault Place :=
  if path.isEmpty then .error .notFound else d.follow (startOf cwd path) (splitPath [] path.toList)

def encode (text : List Char) : ByteArray := (String.ofList text).toByteArray

def decode (bytes : ByteArray) : Except Fault (List Char) :=
  match String.fromUTF8? bytes with
  | some s => .ok s.toList
  | none => .error .notText

def textAt (d : Disk) (p : Place) : Except Fault (List Char) :=
  if d.isDirectory p then .error .isDirectory
  else
    match d.files.lookup p with
    | some bytes => decode bytes
    | none => .error .notFound

def read (d : Disk) (cwd : Place) (path : String) : Except Fault (List Char) :=
  match d.resolve cwd path with
  | .ok p => d.textAt p
  | .error e => .error e

/-- add the directories on the way from a place along names, and the one they lead to -/
def makeDirectories (d : Disk) (p : Place) : List String → Except Fault (Disk × Place)
  | [] => .ok (d, p)
  | name :: rest =>
    if name = "" ∨ name = "." then makeDirectories d p rest
    else if name = ".." then makeDirectories d p.dropLast rest
    else
      let p := p ++ [name]
      if (d.files.lookup p).isSome then .error (if rest.isEmpty then .alreadyExists else .notDirectory)
      else if d.isDirectory p then makeDirectories d p rest
      else makeDirectories { d with directories := d.directories ++ [p] } p rest

def put (d : Disk) (p : Place) (text : List Char) : Disk :=
  if (d.files.lookup p).isSome then
    { d with files := d.files.map fun f => if f.1 = p then (p, encode text) else f }
  else { d with files := d.files ++ [(p, encode text)] }

/-- write a file and make the directories above it -/
def write (d : Disk) (cwd : Place) (path : String) (text : List Char) : Except Fault Disk :=
  let names := splitPath [] path.toList
  match d.makeDirectories (startOf cwd path) names.dropLast with
  | .error e => .error e
  | .ok (d, p) =>
    let p := p ++ names.getLast?.toList
    if d.isDirectory p then .error .isDirectory else .ok (d.put p text)

end Disk

end MarkVeil.Command
