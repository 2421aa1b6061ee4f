/-
The command.

It reads its arguments and the settings, adds the kinds to disable to the settings, saves them if asked to, and lists
or shows the document. Wrong arguments, unreadable settings and an unreadable document end it with a complaint. A
settings file there is not stands for the default settings. In a listing each decoration takes one line: its kind, its
offsets and the text under it in quotes.
-/
import MarkVeil.Command.Arguments
import MarkVeil.Command.Script
import MarkVeil.Settings.Environment
import MarkVeil.Settings.File
import MarkVeil.Text.Quoted

namespace MarkVeil.Command

open MarkVeil.Text
open MarkVeil.Decoration (Kind Range Reader extract)
open MarkVeil.Editor (Options)
open MarkVeil.Settings (Environment)

inductive SettingsError where
  | unreadable (fault : Fault)
  /-- not a document with well-typed settings -/
  | malformed
  deriving DecidableEq, Repr

def SettingsError.message (path : String) : SettingsError → String
  | unreadable fault => "Failed to read config file at " ++ path ++ ": " ++ fault.message
  | malformed => "Failed to parse config file at " ++ path ++ ": TOML parse error"

/-- the settings in a file, none if there is no file -/
def loadSettings : Except Fault (List Char) → Except SettingsError (Option Options)
  | .error fault => if fault.isAbsence then .ok none else .error (.unreadable fault)
  | .ok text =>
    match Settings.ofText? text with
    | some o => .ok (some o)
    | none => .error .malformed

def disable (o : Options) (k : Kind) : Options :=
  if o.disabledKinds.contains k then o else { o with disabledKinds := o.disabledKinds ++ [k] }

def disableAll (o : Options) (ks : List Kind) : Options := ks.foldl disable o

def digits (n : Nat) : List Char := Nat.toDigits 10 n

def dumpLine (text : List Char) (r : Range) : List Char :=
  r.kind.name.toList ++ ' ' :: (digits r.start ++ '.' :: '.' :: (digits r.stop ++
    ' ' :: (quote ((r.slice? text).getD []) ++ ['\n'])))

/-- the lines of a document's decorations, without disabled kinds -/
def dump (text : List Char) (o : Options) (read : Reader := Token.parse) : List Char :=
  ((extract text read).filter fun r => o.isEnabled r.kind).flatMap (dumpLine text)

def usage (program : String) : String :=
  "Usage: " ++ program ++ " [--dump] [--write-config] [--disable <kind>]... <file.md>\n"

def fail (message : String) : Script := .complain ("Error: " ++ message ++ "\n").toList (.exit 1)

def openDocument (o : Options) (dumping : Bool) (path : String) (read : Reader := Token.parse) : Script :=
  .read path fun
    | .error fault => fail ("Failed to read " ++ path ++ "\n\nCaused by:\n    " ++ fault.message)
    | .ok text => if dumping then .print (dump text o read) (.exit 0) else .view o path text

/-- what is left once the settings are saved -/
def finish (o : Options) (a : Arguments) (read : Reader := Token.parse) : Script :=
  match a.path? with
  | none => .exit 0
  | some path => openDocument o a.dump path read

def withSettings (settingsPath : String) (o : Options) (a : Arguments) (read : Reader := Token.parse) : Script :=
  if a.writeConfig then
    .write settingsPath (Settings.toText o) fun
      | .error fault => fail fault.message
      | .ok () => .print ("Wrote config to " ++ settingsPath ++ "\n").toList (finish o a read)
  else finish o a read

def script (program : String) (env : Environment) (args : List String) (read : Reader := Token.parse) : Script :=
  match Arguments.parse env.expandPath args with
  | .error e => .complain ("Error: " ++ e.message ++ "\n" ++ usage program).toList (.exit 1)
  | .ok a =>
    .read env.settingsPath fun content =>
      match loadSettings content with
      | .error e =>
        .complain ("Error: Failed to load config file: " ++ e.message env.settingsPath ++
          "\nConfig file location: " ++ env.settingsPath ++ "\n").toList (.exit 1)
      | .ok o? => withSettings env.settingsPath (disableAll (o?.getD Options.default) a.disabled) a read

def programName : String := "markdown-live-cli"

end MarkVeil.Command
