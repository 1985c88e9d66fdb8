import Cleartext.Archive.Location
import Cleartext.Archive.Write
import Cleartext.Host.Files
import Cleartext.Libraries
import Cleartext.Run.Session
import Cleartext.Settings.Basic
import Cleartext.Text.Amount

/-!
# Runs

A run goes through four stages: an archive is read, the strings of its classes
are decrypted, the archive is written, and a report is written.  A stage that
has nothing to do is passed over; a stage that fails ends the run.
-/

namespace Cleartext.Run

open Archive (Candidate Entry)
open Isolation (Workbench)
open Replay (SavedCall)
open Text (Json)

/-- What a run is asked to do. -/
structure Job where
  input : String
  output : String := ""
  settings : Settings.Decryption
  /-- The directory that the path of the archive starts from. -/
  directory : String := "/"
  /-- The location that routines see in place of that of the archive. -/
  codeSource : Option String := none
  date : String
  cancelled : Bool := false
  libraries : Libraries := .standard

/-- What a run came to. -/
structure Summary where
  stats : Stats := {}
  /-- What failed at single call sites. -/
  failures : List Error := []
  /-- What ended the run. -/
  failure : Option Error := none

namespace Job

/-- The location of the archive. -/
def location (job : Job) : String :=
  Archive.codeSource (Host.absolutePath job.directory job.input)

/-- A workbench for the routines of the archive. -/
def workbench (job : Job) : Workbench :=
  { settings := {
      codeSource := job.codeSource.getD job.location
      maxSteps := job.settings.maxSteps
      cacheSize := job.settings.cacheSize
      raw := job.settings.raw
      traced := job.settings.trace
      charsets := job.libraries.charsets
      caching := job.libraries.caching } }

/-- The entries of the archive that is written, with rewritten classes in the
place of those that were read. -/
def outputEntries (entries : List Entry) (classes : List Candidate) : List (Except Error Entry) :=
  entries.zipIdx.map fun (e, i) =>
    match Archive.classAt? classes i with
    | none => .ok e.copied
    | some c =>
      if !c.modified then .ok e.copied
      else match c.cf.encode with
        | .ok data => .ok { e.copied with data }
        | .error err => .error (.within (.named ("failed to serialize " ++ c.name)) err)

/-- The report of a run. -/
def report (job : Job) (stats : Stats) : Json :=
  .object <|
    [("input", .text job.input)] ++
    Json.optional "output" (if job.settings.dryRun then "" else job.output) ++
    [("date", .text job.date), ("stats", stats.json)]

end Job

/-! ## Lines -/

/-- The line for the start of a stage. -/
def titleLine (title : String) : LogLine :=
  { level := .info, message := [{ role := some .bold, text := title }], indent := outerIndent }

/-- The line for a stage that is passed over. -/
def idleLine (job : Job) (title : String) : LogLine :=
  .plain .debug "nothing to do" [("dry_run", toString job.settings.dryRun), ("pipe", title)]

/-- The line for an archive that was read. -/
def readLine (job : Job) (entries : List Entry) (classes : List Candidate) : LogLine :=
  .plain .info (Host.baseName job.input)
    [("candidates", toString classes.length), ("entries", toString entries.length),
      ("size", Text.sizeText ((entries.map fun e => e.data.length).foldr (· + ·) 0))]

/-! ## Stages -/

section

variable {m : Type → Type} [Monad m] [Host m] (log : LogLine → m Unit) (job : Job)

/-- Reads the entries of the archive. -/
def readEntries (path : String) : m (Except Error (List Entry)) := do
  let opening (e : Error) : Error := .within (.named ("failed to open archive " ++ path)) e
  match ← Host.read path with
  | .error flaw => return .error (opening flaw.error)
  | .ok bytes =>
    match Archive.openArchive bytes with
    | .error e => return .error (opening e)
    | .ok (data, records) =>
      return (records.mapM (Archive.readEntry data)).mapError (.within (.named ("failed to read " ++ path)))

/-- Loads the classes among the entries of an archive, and tells of what is
odd about them. -/
def loadNoting (path : String) (entries : List Entry) (cancelled : Bool) :
    m (Except Error (List Candidate)) := do
  for note in Archive.impostors entries do log (loadLine note)
  match Archive.loadClasses entries cancelled with
  | .error e => return .error (.within (.named ("failed to load classes from " ++ path)) e)
  | .ok (classes, notes) =>
    for note in notes do log (loadLine note)
    return .ok classes

/-- Saves a call in the directory for saved calls. -/
def saveCall (name : String) (call : SavedCall) : m (Except Host.FileFlaw Unit) := do
  match ← Host.makeDirectories job.settings.stateDir with
  | .error flaw => return .error flaw
  | .ok () =>
    let call := { call with codeSource := job.location }
    Host.write (Host.joinPath job.settings.stateDir name)
      (Bytes.ofText (call.document job.libraries.format))

/-- Logs a line that happened, and saves a call if there is a place for it. -/
def carryOut : Event → m Unit
  | .log line => log line
  | .save name call => do
    if job.settings.stateDir ≠ "" then
      if let .error flaw ← saveCall job name call then
        log (.plain .warn "failed to save state" [("error", flaw.error.message)])

/-- Decrypts the strings of classes. -/
def decryptStage (s : Session Workbench) : m (Except Error (Session Workbench)) := do
  let title := "decrypting strings"
  log (titleLine title)
  if s.classes.isEmpty then
    log (idleLine job title)
    return .ok s
  match s.decrypt Runner.workbench with
  | .error e => return .error e
  | .ok s =>
    for event in s.events.reverse do carryOut log job event
    log (.plain .info s!"decrypted {s.stats.decrypted} strings")
    if 0 < s.stats.failed then
      log (.plain .warn "some call sites were left encrypted" [("failed", toString s.stats.failed)])
    return .ok { s with events := [] }

/-- Writes the archive. -/
def writeStage (entries : List Entry) (s : Session Workbench) : m (Except Error Unit) := do
  let title := "writing archive"
  log (titleLine title)
  if job.settings.dryRun then
    log (idleLine job title)
    return .ok ()
  if job.output = "" then
    log (.plain .warn "pipe skipped" [("reason", "no output archive given for " ++ job.input)])
    return .ok ()
  let (packed, failure) := Archive.packAll (Job.outputEntries entries s.classes)
  match ← Host.write job.output (Archive.assemble packed) with
  | .error flaw => return .error (.within (.named ("failed to create " ++ job.output)) flaw.error)
  | .ok () =>
    match failure with
    | some e => return .error e
    | none =>
      let size := (packed.map fun p => p.entry.data.length).foldr (· + ·) 0
      log (.plain .info job.output
        [("entries", toString entries.length), ("patched", toString s.stats.patched),
          ("size", Text.sizeText size)])
      return .ok ()

/-- Writes the report. -/
def reportStage (stats : Stats) : m (Except Error Unit) := do
  let title := "writing report"
  log (titleLine title)
  let path := job.settings.json
  let text := (job.report stats).document ++ "\n"
  if path = "" then
    log (idleLine job title)
    return .ok ()
  if path = "-" then
    Host.print text
    return .ok ()
  match ← Host.write path (Bytes.ofText text) with
  | .error flaw => return .error (.within (.named ("failed to write report " ++ path)) flaw.error)
  | .ok () =>
    log (.plain .info path [("results", toString stats.results.length)])
    return .ok ()

/-- Ends a run with a failure. -/
def giveUp (stats : Stats) (failures : List Error) (e : Error) : m Summary := do
  if job.cancelled then
    log (.plain .warn "interrupted, nothing written"
      [("decrypted", toString stats.decrypted), ("failed", toString stats.failed)])
  return { stats, failures, failure := some e }

/-- Decrypts the strings of classes that were read, and writes the archive and
the report. -/
def runFrom (entries : List Entry) (s : Session Workbench) : m Summary := do
  match ← decryptStage log job s with
  | .error e => giveUp log job s.stats [] e
  | .ok s =>
    let failures := s.failures.reverse
    match ← writeStage log job entries s with
    | .error e => giveUp log job s.stats failures e
    | .ok () =>
      match ← reportStage log job s.stats with
      | .error e => giveUp log job s.stats failures e
      | .ok () => return { stats := s.stats, failures }

/-- Carries out a run. -/
def run : m Summary := do
  log (titleLine "reading archive")
  match ← readEntries job.input with
  | .error e => giveUp log job {} [] e
  | .ok entries =>
    let stats : Stats := { entries := entries.length }
    match ← loadNoting log job.input entries job.cancelled with
    | .error e => giveUp log job stats [] e
    | .ok classes =>
      log (readLine job entries classes)
      runFrom log job entries
        { classes, kept := job.workbench, stats := { stats with classes := classes.length } }

end

end Cleartext.Run
