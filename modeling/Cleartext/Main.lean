import Cleartext.Command.Program
import Std.Time.DateTime.Timestamp

/-!
# The executable

The host is the system that the program runs on.  A failure of the system
becomes a `Trouble`, and all that is decided is decided by
`Command.program`, which is given the usual libraries.
-/

namespace Cleartext

namespace Host

/-- A reason in the words of the system, in lower case. -/
def Trouble.ofDetails (details : String) : Trouble :=
  .other (String.ofList (details.toList.take 1 |>.map Char.toLower) ++
    String.ofList (details.toList.drop 1))

/-- The reason for a failure of the system. -/
def Trouble.ofSystem : IO.Error → Trouble
  | .noFileOrDirectory .. => .missing
  | .alreadyExists .. => .exists_
  | .inappropriateType _ _ details => .ofDetails details
  | .permissionDenied _ _ details => .ofDetails details
  | .resourceExhausted _ _ details => .ofDetails details
  | .invalidArgument _ _ details => .ofDetails details
  | .noSuchThing _ _ details => .ofDetails details
  | e => .other (toString e)

/-- Tries something on a path. -/
def attempt {α : Type} (action path : String) (x : IO α) : IO (Except FileFlaw α) := do
  match ← x.toBaseIO with
  | .ok a => return .ok a
  | .error e => return .error ⟨action, path, .ofSystem e⟩

/-- What a path leads to on the system. -/
def kindOnSystem (path : String) : IO Kind := do
  match ← (IO.FS.realPath path).toBaseIO with
  | .error _ => return .nothing
  | .ok place =>
    if ← place.isDir then return .directory
    else if ← place.pathExists then return .file
    else return .nothing

/-- Reads a file of the system; a directory opens and fails to be read. -/
def readOnSystem (path : String) : IO (Except FileFlaw Bytes) := do
  let action := if (← kindOnSystem path) = .directory then "read" else "open"
  attempt action path do return (← IO.FS.readBinFile path).toList

/-- Writes a file of the system. -/
def writeOnSystem (mode : IO.FS.Mode) (path : String) (data : Bytes) : IO (Except FileFlaw Unit) :=
  attempt "open" path do
    let handle ← IO.FS.Handle.mk path mode
    handle.write (ByteArray.mk data.toArray)
    handle.flush

instance : Host IO where
  kind := kindOnSystem
  read := readOnSystem
  write := writeOnSystem .write
  writeNew := writeOnSystem .writeNew
  makeDirectory path := attempt "mkdir" path (IO.FS.createDir path)
  now := do return (← Std.Time.Timestamp.now).toMillisecondsSinceUnixEpoch.val.toNat
  print text := IO.print text
  report text := IO.eprint text

end Host

namespace Command

/-- The variables for a key and for the first parts of it. -/
def variablesFor (key : String) : List String :=
  let path := key.splitOn "."
  (List.range path.length).map fun n =>
    Settings.variableName (".".intercalate (path.take (n + 1)))

/-- The variables that the program looks at. -/
def variableNames : List String :=
  ["HOME", "TERM"] ++ Settings.namedVariables.map (·.2) ++
    defaultSettings.flatMap fun setting => variablesFor setting.1

/-- The number of processors that the system lists, which is at least one. -/
def countProcessors : IO Nat := do
  match ← (IO.FS.readFile "/proc/cpuinfo").toBaseIO with
  | .error _ => return 1
  | .ok text => return max 1 ((text.splitOn "\n").filter fun l => l.startsWith "processor").length

end Command

end Cleartext

open Cleartext in
/-- Runs the program with its arguments. -/
def main (args : List String) : IO UInt32 := do
  let known ← Command.variableNames.mapM fun name => do return (name, ← IO.getEnv name)
  let env : Command.Environment :=
    { valueOf := fun name => (known.lookup name).join
      directory := (← IO.currentDir).toString
      processors := ← Command.countProcessors
      isTerminal := ← (← IO.getStdout).isTty
      libraries := .standard }
  Command.program env args
