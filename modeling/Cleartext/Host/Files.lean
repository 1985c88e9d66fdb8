import Cleartext.Bytes
import Cleartext.Error
import Cleartext.Host.Path

/-!
# The host of a program

What a program asks of the system that it runs on: files, directories, and two
streams for text.  Programs are written for any host, so one text of them
serves a real system and a model of one.
-/

namespace Cleartext

namespace Host

/-- Why a file cannot be used. -/
inductive Trouble
  | missing
  | notDirectory
  | isDirectory
  | exists_
  /-- Any other reason, in the words of the system. -/
  | other (text : String)

/-- The wording of a reason. -/
def Trouble.message : Trouble → String
  | .missing => "no such file or directory"
  | .notDirectory => "not a directory"
  | .isDirectory => "is a directory"
  | .exists_ => "file exists"
  | .other text => text

/-- A failed use of a file: what was tried, on which path, and why it
failed. -/
structure FileFlaw where
  action : String
  path : String
  trouble : Trouble

/-- A failed use of a file as a failure. -/
def FileFlaw.error (f : FileFlaw) : Error :=
  .within (.named (f.action ++ " " ++ f.path)) (.other f.trouble.message)

/-- What a path leads to. -/
inductive Kind
  | nothing
  | file
  | directory
deriving DecidableEq, Repr

end Host

open Host in
/-- A host in a monad. -/
class Host (m : Type → Type) where
  /-- What a path leads to. -/
  kind : String → m Kind
  /-- The content of a file. -/
  read : String → m (Except FileFlaw Bytes)
  /-- Writes a file; a file that is there is replaced. -/
  write : String → Bytes → m (Except FileFlaw Unit)
  /-- Writes a file that is not there yet. -/
  writeNew : String → Bytes → m (Except FileFlaw Unit)
  /-- Makes a directory in one that is there. -/
  makeDirectory : String → m (Except FileFlaw Unit)
  /-- The milliseconds since 1970 began. -/
  now : m Nat
  /-- Prints a text as the answer of a program. -/
  print : String → m Unit
  /-- Prints a text beside the answer. -/
  report : String → m Unit

namespace Host

variable {m : Type → Type} [Monad m] [Host m]

/-- Makes directories one after another. -/
def makeEach : List String → m (Except FileFlaw Unit)
  | [] => return .ok ()
  | path :: rest => do
    match ← Host.kind path with
    | .directory => makeEach rest
    | .file => return .error ⟨"mkdir", path, .notDirectory⟩
    | .nothing =>
      match ← Host.makeDirectory path with
      | .ok () => makeEach rest
      | .error flaw => return .error flaw

/-- Makes a directory and those that it is in. -/
def makeDirectories (path : String) : m (Except FileFlaw Unit) := makeEach (passages path)

end Host

end Cleartext
