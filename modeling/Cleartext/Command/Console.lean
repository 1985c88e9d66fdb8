import Cleartext.Run.Job
import Cleartext.Settings.Sources

/-!
# Consoles

What a command knows of its surroundings, and how it fails.
-/

namespace Cleartext.Command

/-- The surroundings of the program. -/
structure Environment where
  /-- The value of a variable. -/
  valueOf : String → Option String
  /-- The directory that relative paths start from. -/
  directory : String
  /-- The number of processors. -/
  processors : Nat
  /-- Whether the answer goes to a terminal. -/
  isTerminal : Bool := false
  libraries : Libraries := .standard

/-- What a command works with. -/
structure Console where
  environment : Environment
  sources : Settings.Sources
  settings : Settings
  colored : Bool

/-- A computation that may fail. -/
abbrev Task (m : Type → Type) := ExceptT Error m

section

variable {m : Type → Type} [Monad m] [Host m]

/-- Logs a line, unless it matters too little. -/
def say (verbose colored : Bool) (line : Run.LogLine) : m Unit :=
  if line.level = .debug && !verbose then pure () else Host.report (line.render colored)

/-- Logs a line of the program. -/
def Console.say (c : Console) (line : Run.LogLine) : m Unit :=
  Command.say c.settings.verbose c.colored { line with indent := Run.outerIndent }

/-- Logs a line of the program within a task. -/
def Console.tell (c : Console) (line : Run.LogLine) : Task m Unit := (c.say line : m Unit)

/-- Prints text as the answer of a command. -/
def answer (text : String) : Task m Unit := (Host.print text : m Unit)

/-- Goes on with the answer of a step, or fails as the step did. -/
def orFail {α : Type} (x : m (Except Error α)) : Task m α := ExceptT.mk x

/-- Goes on with the answer of a file operation. -/
def onFile {α : Type} (x : m (Except Host.FileFlaw α)) : Task m α :=
  ExceptT.mk (do return (← x).mapError Host.FileFlaw.error)

/-- Fails with the name of an activity in front. -/
def during {α : Type} (activity : String) (x : Except Error α) : Except Error α :=
  x.mapError (.within (.named activity))

end

end Cleartext.Command
