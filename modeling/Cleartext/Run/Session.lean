import Cleartext.Code.Editor
import Cleartext.Isolation.Workbench
import Cleartext.Replay.SavedCall
import Cleartext.Run.Log
import Cleartext.Run.Stats

/-!
# Decrypting classes

Every call of a routine is run, and where it answers, the load of the
encrypted string becomes a load of the answer and the call goes.  A class is
rewritten as a whole or not at all: an edit that does not fit leaves it as it
was read.

What happens on the way is a list of events, in the order in which they
happened: lines of the log, and calls to be saved for another try.
-/

namespace Cleartext.Run

open Archive (Candidate)
open Isolation (Identity Note Reply Workbench)
open Pattern (CallSite)
open Replay (SavedCall)

/-- How routines are run.  What is kept between calls is a `σ`. -/
structure Runner (σ : Type) where
  /-- Runs a routine of a class on a string for a caller. -/
  decrypt : σ → ClassFile → String → Identity → Units → Reply Units × σ
  /-- Forgets what is kept of a class that was rewritten. -/
  forget : σ → String → σ

/-- Routines are run on a workbench. -/
def Runner.workbench : Runner Workbench :=
  { decrypt := fun b cf method caller literal => b.decrypt cf method caller literal false
    forget := Workbench.forget }

/-- Something that happened. -/
inductive Event
  | log (line : LogLine)
  /-- A call failed and may be saved under a name. -/
  | save (name : String) (call : SavedCall)

/-! ## One class -/

/-- A class that is being rewritten, what is kept of routines, and what
happened so far, the last first. -/
structure Work (σ : Type) where
  cf : ClassFile
  kept : σ
  results : List CallResult := []
  failures : List Error := []
  events : List Event := []

namespace Work

variable {σ : Type}

/-- Notes an event. -/
def happened (w : Work σ) (e : Event) : Work σ := { w with events := e :: w.events }

/-- Notes what a routine has to tell. -/
def noting (w : Work σ) (notes : List Note) : Work σ :=
  notes.foldl (fun w n => w.happened (.log (noteLine n))) w

/-- Notes a result. -/
def concluded (w : Work σ) (r : CallResult) : Work σ := { w with results := r :: w.results }

/-- Notes a failure at a place of the class. -/
def blamed (w : Work σ) (cls method : String) (offset : Int) (e : Error) : Work σ :=
  { w with failures := .within (.callSite cls method offset) e :: w.failures }

end Work

/-- A call site of a caller with what became of it. -/
def siteResult (caller : Identity) (site : CallSite) (outcome : Outcome) : CallResult :=
  { cls := caller.cls, method := caller.method, offset := site.offset
    routine := site.cls ++ "." ++ site.method, literal := site.literal.text, outcome }

/-- The call at a site for another try; its location is that of the archive,
which is known later. -/
def siteCall (caller : Identity) (site : CallSite) : SavedCall :=
  { cls := site.cls, method := site.method, descriptor := Pattern.decryptDescriptor
    callerClass := caller.cls, callerMethod := caller.method, poolSize := caller.poolSize
    args := [.ofUnits "Ljava/lang/Object;" site.literal] }

/-- The name under which the call at a site is saved. -/
def siteName (caller : Identity) (site : CallSite) : String :=
  s!"{Machine.externalName caller.cls}.{caller.method}@{site.offset}.yaml"

/-- The line for a decrypted string. -/
def decryptedLine (caller : Identity) (site : CallSite) (value : String) : LogLine :=
  { level := .info, message := [{ role := some .value, text := Text.quoteShort value }]
    fields := [("class", caller.cls), ("literal", Text.quoteShort site.literal.text),
      ("method", caller.method)]
    indent := innerIndent }

/-- The line for a call that failed. -/
def failedLine (caller : Identity) (site : CallSite) (e : Error) : LogLine :=
  .plain .debug "decryption failed"
    [("class", caller.cls), ("error", e.message), ("method", caller.method),
      ("routine", site.cls ++ "." ++ site.method)]

/-- Notes that the call at a site failed; the site stays as it is. -/
def Work.left {σ : Type} (w : Work σ) (caller : Identity) (site : CallSite) (e : Error) : Work σ :=
  ((((w.concluded (siteResult caller site (.failed e.message))).blamed caller.cls caller.method
    site.offset e).happened (.log (failedLine caller site e))).happened
      (.save (siteName caller site) (siteCall caller site)))

/-- Stages the load of a constant in place of an encrypted string and its
call. -/
def stageValue (ed : Editor) (site : CallSite) (index : UInt16) : Except Error Editor :=
  match site.found.instructions with
  | [load, call] => do
    let ed ← ed.replace load.offset (Instruction.ldc index)
    ed.delete call.offset
  | _ => .ok ed

section

variable {σ : Type} (runner : Runner σ) (lookup : String → Option ClassFile) (caller : Identity)

/-- Decrypts the string of one call site and stages the edit; whether there is
one.  An edit that cannot be staged is a failure of the whole class. -/
def rewriteSite (ed : Editor) (site : CallSite) (w : Work σ) :
    Except Error (Editor × Bool) × Work σ :=
  match if site.cls = caller.cls then some w.cf else lookup site.cls with
  | none => (.ok (ed, false), w.left caller site (.noRoutine site.cls))
  | some owner =>
    let (reply, kept) := runner.decrypt w.kept owner site.method caller site.literal
    let w := { w with kept }.noting reply.notes
    match reply.answer with
    | .error e => (.ok (ed, false), w.left caller site e)
    | .ok value =>
      match w.cf.pool.edit (Pool.Edit.stringUnits value) with
      | (.error e, pool) => (.error (.unfit site.offset e), { w with cf := { w.cf with pool } })
      | (.ok index, pool) =>
        let w := { w with cf := { w.cf with pool } }
        match stageValue ed site index with
        | .error e => (.error e, w)
        | .ok ed =>
          (.ok (ed, true), (w.concluded (siteResult caller site (.decrypted value.text))).happened
            (.log (decryptedLine caller site value.text)))

/-- Decrypts the strings of the call sites among instructions; the number of
edits.  Every call site takes an instruction, so their number is enough
fuel. -/
def rewriteSites (barriers : List Int) :
    Nat → List Instruction → Editor → Nat → Work σ → Except Error (Editor × Nat) × Work σ
  | 0, _, ed, edits, w => (.ok (ed, edits), w)
  | fuel + 1, instructions, ed, edits, w =>
    match Pattern.next? w.cf.pool barriers Pattern.decryptCalls instructions with
    | .error e => (.error e, w)
    | .ok none => (.ok (ed, edits), w)
    | .ok (some (m, rest)) =>
      match rewriteSite runner lookup caller ed (CallSite.of m) w with
      | (.error e, w) => (.error e, w)
      | (.ok (ed, isEdited), w) =>
        rewriteSites barriers fuel rest ed (if isEdited then edits + 1 else edits) w

/-- A failure to lay out an edit, as one about the layout. -/
def asStructural (e : Error) : Error := if e.isStructural then e else .unfit 0 e

/-- Decrypts the strings of the method at a position; the number of edits. -/
def rewriteMethod (position : Nat) (body : MethodBody) (w : Work σ) : Except Error Nat × Work σ :=
  match Editor.new body with
  | .error e => (.error (.unfit 0 e), w)
  | .ok ed =>
    let instructions := ed.instructions
    match rewriteSites runner lookup caller (Pattern.barriersOf body instructions)
      instructions.length instructions ed 0 w with
    | (.error e, w) => (.error e, w)
    | (.ok (_, 0), w) => (.ok 0, w)
    | (.ok (ed, edits), w) =>
      match ed.commit w.cf.pool with
      | .error e => (.error (asStructural e), w)
      | .ok ed =>
        let methods := w.cf.methods.modify position (·.setBody ed.body)
        (.ok edits, { w with cf := { w.cf with methods } })

end

section

variable {σ : Type} (runner : Runner σ) (lookup : String → Option ClassFile)

/-- Decrypts the strings of methods, the first of which has a position; the
number of edits, or the method that failed. -/
def rewriteMethods (c : Candidate) :
    Nat → List Member → Nat → Work σ → Except (String × Error) Nat × Work σ
  | _, [], edits, w => (.ok edits, w)
  | position, m :: rest, edits, w =>
    match m.body? with
    | none => rewriteMethods c (position + 1) rest edits w
    | some body =>
      let name := m.name c.cf.pool
      match rewriteMethod runner lookup ⟨c.name, name, c.poolCount⟩ position body w with
      | (.error e, w) => (.error (name, e), w)
      | (.ok more, w) => rewriteMethods c (position + 1) rest (edits + more) w

/-- What becomes of a class. -/
inductive Verdict
  /-- No call was decrypted. -/
  | untouched
  | rewritten (cf : ClassFile)
  /-- An edit did not fit: the class stays as it was read. -/
  | abandoned (cause : Error)
  /-- The class makes no sense, and the run has no answer. -/
  | senseless (cause : Error)

/-- The offset that a failure about the layout of an edit is blamed on. -/
def layoutOffset? : Error → Option Int
  | .structural offset _ | .unfit offset _ => some offset
  | .within _ cause => layoutOffset? cause
  | _ => none

/-- Decrypts the strings of a class. -/
def rewriteClass (c : Candidate) (kept : σ) : Verdict × Work σ :=
  match rewriteMethods runner lookup c 0 c.cf.methods 0 { cf := c.cf, kept } with
  | (.error (method, e), w) =>
    match layoutOffset? e with
    | none => (.senseless e, w)
    | some offset => (.abandoned e, w.blamed c.name method offset e)
  | (.ok 0, w) => (.untouched, w)
  | (.ok _, w) =>
    match w.cf.shrink with
    | .ok cf => (.rewritten cf, w)
    | .error e =>
      match e.root with
      | .unknownAttribute _ =>
        (.rewritten w.cf, w.happened (.log (.plain .warn "leaving constant pool unshrunk"
          [("class", c.name), ("error", e.message)])))
      | _ => (.abandoned e, w.blamed c.name "" 0 e)

end

/-! ## All classes -/

/-- The classes of an archive, what is kept of routines, and what a run has
come to.  Failures and events have the last first. -/
structure Session (σ : Type) where
  classes : List Candidate
  kept : σ
  stats : Stats := {}
  failures : List Error := []
  events : List Event := []

namespace Session

variable {σ : Type} (runner : Runner σ)

/-- Takes over what happened in a class. -/
def after (s : Session σ) (w : Work σ) : Session σ :=
  { s with kept := w.kept, failures := w.failures ++ s.failures, events := w.events ++ s.events }

/-- Counts results. -/
def counting (s : Session σ) (results : List CallResult) : Session σ :=
  { s with stats := s.stats.addAll results }

/-- Puts a rewritten class in the place of the one that was read. -/
def replacing (s : Session σ) (c : Candidate) : Session σ :=
  { s with classes := s.classes.map fun k => if k.position = c.position then c else k }

/-- Decrypts the strings of one class. -/
def decryptClass (s : Session σ) (c : Candidate) : Except Error (Session σ) :=
  let lookup (name : String) := (Archive.lookup? s.classes name).map (·.cf)
  match rewriteClass runner lookup c s.kept with
  | (.senseless e, _) => .error e
  | (.untouched, w) => .ok ((s.after w).counting w.results.reverse)
  | (.rewritten cf, w) =>
    let s := ((s.after w).counting w.results.reverse).replacing { c with cf, modified := true }
    .ok { s with stats := { s.stats with patched := s.stats.patched + 1 }
                 kept := runner.forget s.kept c.name }
  | (.abandoned cause, w) =>
    let line := LogLine.plain .warn "leaving class unchanged"
      [("class", c.name), ("error", cause.message)]
    .ok ((s.after (w.happened (.log line))).counting
      (w.results.reverse.map (CallResult.withdrawn cause.message)))

/-- Decrypts the strings of classes one after another. -/
def decryptClasses (s : Session σ) (classes : List Candidate) : Except Error (Session σ) :=
  classes.foldlM (decryptClass runner) s

/-- Decrypts the strings of all classes. -/
def decrypt (s : Session σ) : Except Error (Session σ) := s.decryptClasses runner s.classes

end Session

end Cleartext.Run
