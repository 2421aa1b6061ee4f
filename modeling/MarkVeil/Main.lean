/-
The program: plays the command's script on the machine it runs on.

A document is shown one screen at a time. A line that reads `j` moves the cursor down and `k` moves it up; `q` or the
end of the input leaves.
-/
import MarkVeil.Command.Run
import MarkVeil.Viewer.Screen

namespace MarkVeil.Program

open MarkVeil.Command (Fault Script)
open MarkVeil.Editor (Options)
open MarkVeil.Settings (Environment)
open MarkVeil.Viewer (View)

/-- what an error of the machine is called -/
def faultOf : IO.Error → Fault
  | .noFileOrDirectory _ _ _ => .notFound
  | .inappropriateType _ 20 _ => .notDirectory
  | .inappropriateType _ 21 _ => .isDirectory
  | .alreadyExists _ 17 _ => .alreadyExists
  | e => .other (toString e)

def readText (path : String) : IO (Except Fault (List Char)) := do
  try
    match String.fromUTF8? (← IO.FS.readBinFile path) with
    | some s => return .ok s.toList
    | none => return .error .notText
  catch e => return .error (faultOf e)

def parentOf (path : String) : String :=
  String.ofList ((path.toList.reverse.dropWhile (· != '/')).drop 1).reverse

/-- write a file and make the directories above it -/
def writeText (path : String) (text : List Char) : IO (Except Fault Unit) := do
  try
    let parent := parentOf path
    if !parent.isEmpty then IO.FS.createDirAll parent
    IO.FS.writeFile path (String.ofList text)
    return .ok ()
  catch e => return .error (faultOf e)

/-- show a document until its reader leaves it -/
partial def display (o : Options) (v : View) : IO Unit := do
  let (v, rows) := (v.update o).2.draw 80 24
  rows.forM fun row => IO.println (String.ofList row)
  let line ← (← IO.getStdin).getLine
  if line.isEmpty then return
  match line.toList.head? with
  | some 'q' => return
  | some 'j' => display o v.nextLine
  | some 'k' => display o v.previousLine
  | _ => display o v

def play : Script → IO UInt32
  | .exit code => return code.toUInt32
  | .print text next => do
    IO.print (String.ofList text)
    play next
  | .complain text next => do
    IO.eprint (String.ofList text)
    play next
  | .read path next => do
    let answer ← readText path
    play (next answer)
  | .write path text next => do
    let answer ← writeText path text
    play (next answer)
  | .view o path text => do
    display o (View.ofText path text)
    return 0

def environment (args : List String) : IO Environment := do
  let names := "HOME" :: args.flatMap Settings.variablesOf
  let values ← names.filterMapM fun name => do return (← IO.getEnv name).map fun value => (name, value)
  return ⟨values, none⟩

end MarkVeil.Program

def main (args : List String) : IO UInt32 := do
  let env ← MarkVeil.Program.environment args
  MarkVeil.Program.play (MarkVeil.Command.script MarkVeil.Command.programName env args)
