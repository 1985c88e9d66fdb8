import Cleartext.Archive.Candidate
import Cleartext.Isolation.Note
import Cleartext.Text.Style

/-!
# The log of a run

A run tells what it does in lines.  A line has a level, a message and fields,
and the message may have parts that stand out.
-/

namespace Cleartext.Run

open Text (Role)

/-- How much a line matters. -/
inductive Level
  | debug
  | info
  | warn
  | error
deriving DecidableEq, Repr

namespace Level

/-- The name of a level. -/
def name : Level → String
  | .debug => "debug"
  | .info => "info"
  | .warn => "warn"
  | .error => "error"

/-- The sign in front of a line. -/
def sign : Level → String
  | .error => "⨯"
  | _ => "•"

/-- The code of the colour of a line. -/
def color : Level → String
  | .debug => "37"
  | .info => "34"
  | .warn => "33"
  | .error => "31"

end Level

/-- A part of a message, which may have a role. -/
structure Phrase where
  role : Option Role := none
  text : String

/-- A part of a message as it is shown. -/
def Phrase.shown (colored : Bool) (p : Phrase) : String :=
  match p.role with
  | some role => Text.styled colored role p.text
  | none => p.text

/-- The blanks in front of a line of the program. -/
def outerIndent : Nat := 3

/-- The blanks in front of a line of a stage. -/
def stageIndent : Nat := 2 * outerIndent

/-- The blanks in front of a line about a single string. -/
def innerIndent : Nat := 3 * outerIndent

/-- A line of the log.  The fields are listed by name. -/
structure LogLine where
  level : Level
  message : List Phrase
  fields : List (String × String) := []
  indent : Nat := stageIndent

namespace LogLine

/-- A line with a plain message. -/
def plain (level : Level) (message : String) (fields : List (String × String) := []) : LogLine :=
  { level, message := [{ text := message }], fields }

/-- The message of a line. -/
def text (l : LogLine) (colored : Bool) : String := String.join (l.message.map (Phrase.shown colored))

/-- The least width of a message. -/
def messageWidth : Nat := 25

/-- A text with blanks behind it up to a width. -/
def padded (width : Nat) (s : String) : String := s ++ "".pushn ' ' (width - s.length)

/-- A line as it is printed. -/
def render (colored : Bool) (l : LogLine) : String :=
  let sign := "".pushn ' ' l.indent ++ l.level.sign
  let message := padded messageWidth (l.text colored)
  let paint (s : String) : String :=
    if colored then s!"\x1b[{l.level.color}m" ++ s ++ "\x1b[0m" else s
  paint (Text.styled colored .bold sign ++ " " ++ message) ++
    String.join (l.fields.map fun (k, v) => " " ++ paint k ++ "=" ++ v) ++ "\n"

end LogLine

/-- The line for a note about an archive. -/
def loadLine : Archive.LoadNote → LogLine
  | .notAClass entryName =>
    .plain .warn "not a class file, passing through" [("entry", entryName)]
  | .duplicate cls first entryName =>
    .plain .warn "duplicate class, keeping the first"
      [("class", cls), ("entry", entryName), ("first", first)]

/-- The line for a note about a routine. -/
def noteLine : Isolation.Note → LogLine
  | .unshrunk cls cause =>
    .plain .debug "leaving constant pool unshrunk" [("class", cls), ("error", cause.message)]
  | .replaced method offset check =>
    .plain .debug "neutralized caller check"
      [("method", method), ("offset", toString offset), ("pattern", check)]
  | .executed line =>
    .plain .debug line.text
      [("depth", toString line.depth), ("method", line.method), ("stack", toString line.stack)]
  | .returned cls method steps =>
    .plain .debug "decrypt routine returned"
      [("class", cls), ("method", method), ("steps", toString steps)]

end Cleartext.Run
