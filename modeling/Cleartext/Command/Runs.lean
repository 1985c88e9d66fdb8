import Cleartext.Command.Classes
import Cleartext.Decimal.Shortest
import Cleartext.Machine.Datum

/-!
# Running routines

The commands that decrypt the strings of an archive and that repeat a saved
call.
-/

namespace Cleartext.Command

open Machine (Datum Emulation)
open Replay (SavedCall)
open Run (LogLine)

section

variable {m : Type → Type} [Monad m] [Host m] (c : Console)

/-! ## Decrypting an archive -/

/-- Where the archive goes when nothing else is said. -/
def defaultOutput (input : String) : String :=
  Host.withoutExtension input ++ ".decrypted" ++ Host.extension input

/-- A number with at least two digits. -/
def twoDigits (n : Int) : String := Text.padLeft 2 '0' (toString n)

/-- The date and the time of day for milliseconds since 1970 began. -/
def dateText (milliseconds : Nat) : String :=
  let seconds := milliseconds / 1000
  let (year, month, day) := Archive.dateOfDay (seconds / 86400 : Nat)
  let rest : Nat := seconds % 86400
  Text.padLeft 4 '0' (toString year) ++ "-" ++ twoDigits month ++ "-" ++ twoDigits day ++ "T" ++
    twoDigits (rest / 3600 : Nat) ++ ":" ++ twoDigits (rest / 60 % 60 : Nat) ++ ":" ++
    twoDigits (rest % 60 : Nat) ++ "Z"

/-- The failures of a run in one text. -/
def failuresText (failures : List Error) : String :=
  (if failures.length = 1 then "1 error occurred:\n\t"
    else s!"{failures.length} errors occurred:\n\t") ++
    "\n\t".intercalate (failures.map fun e => "* " ++ e.message) ++ "\n\n"

/-- The last line of a run. -/
def summaryLine (stats : Run.Stats) (elapsed : Settings.Duration) : LogLine :=
  { level := .info
    message :=
      { role := some .success, text := s!"decrypted {Text.groupedCount stats.decrypted} strings" } ::
      if stats.failed = 0 then []
      else [{ role := some .fault, text := s!", {Text.groupedCount stats.failed} failed" }]
    fields := [("classes", toString stats.classes), ("elapsed", elapsed.text),
      ("patched", toString stats.patched)] }

/-- Decrypts the strings of an archive. -/
def decrypt (input : String) : Task m Unit := do
  let settings := c.settings.decrypt
  let output := if settings.output = "" then defaultOutput input else settings.output
  if settings.progress then
    c.tell (.plain .debug "stderr is not a terminal, progress bar disabled")
  let start ← (Host.now : m Nat)
  let job : Run.Job :=
    { input := Host.cleanPath input, output, settings, directory := c.environment.directory
      date := dateText start, libraries := c.environment.libraries }
  let log : LogLine → m Unit := Command.say c.settings.verbose c.colored
  let summary ← (Run.run log job : m Run.Summary)
  if let some e := summary.failure then throw e
  if !summary.failures.isEmpty then
    c.tell (.plain .debug "call sites left encrypted" [("error", failuresText summary.failures)])
  let stop ← (Host.now : m Nat)
  c.tell (summaryLine summary.stats ⟨((stop - start : Nat) : Int) * 1000000⟩)

/-! ## Repeating a call -/

mutual

/-- A value in plain words.  What stands inside of an array is shown by its
content if it is a string, and else by its place, which is not known. -/
def plainDatum (isInner : Bool) : Datum → String
  | .null => "<nil>"
  | .int v => toString v
  | .long v => toString v
  | .float bits => Decimal.general (Decimal.Binary.ofBits32 bits)
  | .double bits => Decimal.general (Decimal.Binary.ofBits64 bits)
  | .string units => units.text
  | .array component elements =>
    if isInner then "0x0"
    else "&\x7b" ++ component ++ " [" ++ " ".intercalate (plainData elements) ++ "]\x7d"
  | .object cls _ => Machine.externalName cls ++ "@0x0"
  | .address | .deep => ""

/-- Elements in plain words. -/
def plainData : List Datum → List String
  | [] => []
  | d :: rest => plainDatum true d :: plainData rest

end

/-- Reads a saved call. -/
def readCall (path : String) : Task m SavedCall := do
  match ← (Host.read path : m (Except Host.FileFlaw Bytes)) with
  | .error flaw => throw (.within (.named "error reading state file") flaw.error)
  | .ok bytes =>
    match SavedCall.parse (Text.lossy bytes) c.environment.libraries.format with
    | .ok call => return call
    | .error trouble => throw (.other ("error unmarshalling state file: " ++ trouble.message))

/-- The class for a saved call: a routine that decrypts is taken out of its
class and loses its checks. -/
def classFor (call : SavedCall) (cf : ClassFile) : Isolation.Reply Bytes :=
  let settings : Isolation.Settings :=
    { codeSource := call.codeSource, caching := c.environment.libraries.caching }
  (Isolation.Workbench.prepare { settings } cf call.method
    ⟨call.callerClass, call.callerMethod, call.poolSize⟩).1

/-- The line for the failure of a run. -/
def faultLine (steps : Nat) (e : Error) : Option LogLine :=
  e.causes.findSome? fun
    | .fault cls method pc reason _ =>
      some { level := .error, message := [{ role := some .fault, text := reason }]
             fields := [("method", cls ++ "." ++ method), ("pc", toString pc), ("steps", toString steps)] }
    | _ => none

/-- Repeats a saved call. -/
def emulate (path statePath : String) : Task m Unit := do
  let call ← readCall c statePath
  if c.sources.bool "emu.dump" then answer call.summary
  else
    let values ← call.values c.environment.libraries.cast
    let data ← readClass path call.cls
    let cf ← during ("failed to parse " ++ call.cls) (ClassFile.parse data)
    let isRoutine := call.descriptor = Pattern.decryptDescriptor && !c.sources.bool "emu.raw"
    let reply := if isRoutine then classFor c call cf else ⟨.ok data, []⟩
    for note in reply.notes do c.tell (Run.noteLine note)
    let cf ← ClassFile.parse (← reply.answer)
    let em ← Emulation.load cf { call.config with
      maxSteps := c.settings.decrypt.maxSteps, traced := c.sources.bool "emu.trace"
      charsets := c.environment.libraries.charsets }
    let (result, em) := em.invoke call.method call.descriptor (Datum.buildAll values) false
    for line in em.progress.trace.reverse do c.tell (Run.noteLine (.executed line))
    match result with
    | .error e =>
      if let some line := faultLine em.steps e then c.tell line
      throw e
    | .ok v =>
      c.tell (.plain .info (call.cls ++ "." ++ call.method) [("steps", toString em.steps)])
      match Datum.of em.progress.world 3 v with
      | .string units => answer (Text.styled c.colored .value (Text.quoteShort units.text) ++ "\n")
      | d => answer (plainDatum false d ++ "\n")

end

end Cleartext.Command
