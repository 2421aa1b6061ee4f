/-
What a run of the command does, step by step.

A script is a value: it names each step and goes on with the answer. `Script.run` plays it on a disk and gathers what
is printed; a program plays it on the machine it runs on.
-/
import MarkVeil.Command.Disk
import MarkVeil.Editor.Decorator

namespace MarkVeil.Command

open MarkVeil.Editor (Options)

inductive Script where
  /-- end with an exit code -/
  | exit (code : Nat)
  /-- print on standard output -/
  | print (text : List Char) (next : Script)
  /-- print on standard error -/
  | complain (text : List Char) (next : Script)
  /-- read a file -/
  | read (path : String) (next : Except Fault (List Char) → Script)
  /-- write a file, and make the directories above it -/
  | write (path : String) (text : List Char) (next : Except Fault Unit → Script)
  /-- show a document until the reader leaves it -/
  | view (options : Options) (path : String) (text : List Char)

/-- what a run leaves behind -/
structure Outcome where
  code : Nat
  output : List Char
  errors : List Char
  disk : Disk

namespace Script

/-- play a script on a disk, from a directory; nobody looks at what it shows -/
def run (cwd : Place) (disk : Disk) : Script → Outcome
  | exit code => ⟨code, [], [], disk⟩
  | print text next =>
    let o := run cwd disk next
    { o with output := text ++ o.output }
  | complain text next =>
    let o := run cwd disk next
    { o with errors := text ++ o.errors }
  | read path next => run cwd disk (next (disk.read cwd path))
  | write path text next =>
    match disk.write cwd path text with
    | .ok disk => run cwd disk (next (.ok ()))
    | .error e => run cwd disk (next (.error e))
  | view _ _ _ => ⟨0, [], [], disk⟩

end Script

end MarkVeil.Command
