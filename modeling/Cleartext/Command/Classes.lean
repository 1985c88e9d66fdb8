import Cleartext.Class.Listing
import Cleartext.Command.Console
import Cleartext.Diff.Unified

/-!
# Looking at classes

The commands that list the call sites of an archive, list a class, and compare
a class of two archives.
-/

namespace Cleartext.Command

open Archive (Candidate)
open Pattern (CallSite)
open Text (Json)

section

variable {m : Type → Type} [Monad m] [Host m] (c : Console)

/-! ## Call sites -/

/-- A call site and the method that it is in. -/
structure Found where
  cls : String
  method : String
  site : CallSite

namespace Found

/-- The routine of a call site. -/
def routine (f : Found) : String := f.site.cls ++ "." ++ f.site.method

/-- A call site as data. -/
def json (f : Found) : Json :=
  .object [("class", .text f.cls), ("method", .text f.method), ("offset", .number f.site.offset),
    ("routine", .text f.routine), ("literal", .text f.site.literal.text)]

/-- The line of a call site. -/
def text (colored : Bool) (f : Found) : String :=
  let styled := Text.styled colored
  Text.padding 4 ++ styled .methodName s!"{f.method}@{f.site.offset}" ++ " " ++
    styled .routine f.routine ++ " " ++ styled .literal (Text.quoteShort f.site.literal.text) ++ "\n"

end Found

/-- The call sites of a method body. -/
def sitesOf (cf : ClassFile) (method : Member) : Except Error (List Found) :=
  match method.body? with
  | none => .ok []
  | some body => do
    let instructions ← during (cf.memberText method) (Instruction.decodeAll body.bytecode)
    let found ← (Pattern.scan cf.pool (Pattern.barriersOf body instructions) Pattern.decryptCalls
      instructions).mapM id
    return found.map fun x => ⟨cf.name, method.name cf.pool, CallSite.of x⟩

/-- The call sites of a class. -/
def sitesOfClass (cf : ClassFile) : Except Error (List Found) := do
  return (← cf.methods.mapM (sitesOf cf)).flatten

/-- Lists the call sites of classes one after another; all of them. -/
def scanClasses (asJson : Bool) : List Candidate → Task m (List Found)
  | [] => return []
  | k :: rest => do
    let found ← during ("failed to scan " ++ k.name) (sitesOfClass k.cf)
    if !asJson && !found.isEmpty then
      answer (Text.styled c.colored .className (Machine.externalName k.name) ++ "\n" ++
        String.join (found.map (Found.text c.colored)))
    return found ++ (← scanClasses asJson rest)

/-- Lists the call sites of an archive. -/
def scan (path : String) : Task m Unit := do
  let asJson := c.sources.bool "scan.json"
  let only := Machine.namedClass (c.sources.text "scan.class")
  let entries ← orFail (Run.readEntries path)
  let classes ← orFail (Run.loadNoting c.say path entries false)
  let all ← scanClasses c asJson (classes.filter fun k => only = "" || k.name = only)
  if asJson then
    let data : Json := if all.isEmpty then .null else .list (all.map Found.json)
    answer (data.document ++ "\n")
  else
    c.tell (.plain .info s!"found {Text.groupedCount all.length} call sites"
      [("classes", Text.groupedCount classes.length)])

/-! ## Listings -/

/-- The content of the first of records that has a name.  Those in front of it
are read too. -/
def contentNamed (data : Archive.Data) (name : String) :
    List Archive.DirectoryRecord → Except Error (Option Bytes)
  | [] => .ok none
  | r :: rest => do
    let e ← Archive.readEntry data r
    if e.name = name then return some e.data else contentNamed data name rest

/-- The bytes of a class in an archive, or those of a class file. -/
def readClass (path cls : String) : Task m Bytes := do
  if path.endsWith ".class" then onFile (Host.read path)
  else if cls = "" then throw (.other ("a class name is required to read from " ++ path))
  else
    let opening := "failed to open archive " ++ path
    let bytes ← orFail (do return during opening ((← Host.read path).mapError Host.FileFlaw.error))
    let (data, records) ← during opening (Archive.openArchive bytes)
    let wanted := Machine.namedClass cls ++ ".class"
    match ← contentNamed data wanted records with
    | some content => return content
    | none => throw (.other s!"{wanted} not found in {path}")

/-- Lists a class. -/
def list (path cls : String) : Task m Unit := do
  let data ← readClass path cls
  let cf ← during ("failed to parse " ++ path) (ClassFile.parse data)
  answer (Text.styled c.colored .className (Machine.externalName cf.name) ++
    s!" extends {Machine.externalName cf.superName} (version {cf.major}.{cf.minor})\n")
  if c.sources.bool "dis.pool" then
    answer (Text.styled c.colored .faint s!"constant pool ({cf.pool.count}):" ++ "\n" ++
      cf.pool.listing ++ "\n")
  let (text, failure) := cf.listing
  answer text
  if let some e := failure then throw e

/-- The listing of a class, with its constant pool if asked for. -/
def listing (path cls : String) (withPool : Bool) : Task m String := do
  let data ← readClass path cls
  let cf ← during s!"failed to parse {cls} in {path}" (ClassFile.parse data)
  match cf.listing with
  | (_, some e) => throw e
  | (text, none) => return (if withPool then cf.pool.listing ++ "\n" else "") ++ text

/-- Compares a class of two archives. -/
def compare (first second cls : String) : Task m Unit := do
  let withPool := c.sources.bool "diff.pool"
  let before ← listing first cls withPool
  let after ← listing second cls withPool
  let difference := Diff.unified (Host.baseName first) (Host.baseName second) before after
  if difference = "" then c.tell (.plain .info "no differences") else answer difference

end

end Cleartext.Command
