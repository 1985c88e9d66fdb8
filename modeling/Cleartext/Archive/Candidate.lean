import Cleartext.Archive.Entry
import Cleartext.Class.File
import Cleartext.Pattern.Decryption

/-!
# Candidate classes

The classes of an archive that may declare or call a routine that decrypts.
A look at the bytes tells: such a class has the descriptor of the routine in
its constant pool.  Candidates are parsed, in the order of the archive, and of
several classes with one name the first counts.
-/

namespace Cleartext.Archive

/-! ## Looking at the bytes -/

/-- Whether the name of an entry is that of a class. -/
def isClassName (name : String) : Bool := name.endsWith ".class"

/-- Whether data starts as a class does. -/
def isClass (data : Bytes) : Bool := (Bytes.ofU32 magic).isPrefixOf data

/-- Whether `pattern` stands somewhere in `data`. -/
def occurs (pattern : Bytes) : Bytes → Bool
  | [] => pattern.isEmpty
  | b :: rest => pattern.isPrefixOf (b :: rest) || occurs pattern rest

/-- The constant with the descriptor of a routine, as it is stored: its tag,
its length and its text. -/
def descriptorConstant : Bytes :=
  let text := Bytes.ofText Pattern.decryptDescriptor
  1 :: Bytes.ofU16 text.length.toUInt16 ++ text

/-- Whether a class may declare or call a routine that decrypts. -/
def mayUseDecrypt (data : Bytes) : Bool := isClass data && occurs descriptorConstant data

/-! ## Parsed candidates -/

/-- A class of an archive. -/
structure Candidate where
  /-- The position of the entry in the archive. -/
  position : Nat
  entryName : String
  /-- The bytes of the entry. -/
  data : Bytes
  cf : ClassFile
  /-- The size of the constant pool as it was read. -/
  poolCount : Nat
  /-- Whether the class was rewritten. -/
  modified : Bool := false

/-- The internal name of a class. -/
def Candidate.name (c : Candidate) : String := c.cf.name

/-- What loading classes has to tell. -/
inductive LoadNote
  | notAClass (entryName : String)
  | duplicate (cls first entryName : String)

/-- Parses a candidate. -/
def Candidate.parse (position : Nat) (e : Entry) : Except Error Candidate :=
  match ClassFile.parse e.data with
  | .ok cf => .ok { position, entryName := e.name, data := e.data, cf, poolCount := cf.pool.count }
  | .error err => .error (.within (.named e.name) err)

/-- The entries that look like candidates, with their positions. -/
def candidateEntries (entries : List Entry) : List (Entry × Nat) :=
  entries.zipIdx.filter fun (e, _) => isClassName e.name && mayUseDecrypt e.data

/-- Keeps the first of several classes with one name, and tells of the
others. -/
def keepFirst : List Candidate → List Candidate → List Candidate × List LoadNote
  | kept, [] => (kept.reverse, [])
  | kept, c :: rest =>
    match kept.find? fun k => k.name == c.name with
    | none => keepFirst (c :: kept) rest
    | some first =>
      let (classes, notes) := keepFirst kept rest
      (classes, .duplicate c.name first.entryName c.entryName :: notes)

/-- The entries that are named as classes but are none. -/
def impostors (entries : List Entry) : List LoadNote :=
  entries.filterMap fun e =>
    if isClassName e.name && !isClass e.data then some (.notAClass e.name) else none

/-- Parses the candidates among entries.  A cancelled run parses none. -/
def loadClasses (entries : List Entry) (cancelled : Bool) : Except Error (List Candidate × List LoadNote) := do
  let found := candidateEntries entries
  if cancelled && !found.isEmpty then throw .cancelled
  return keepFirst [] (← found.mapM fun (e, i) => Candidate.parse i e)

/-- The class with a name. -/
def lookup? (classes : List Candidate) (name : String) : Option Candidate :=
  classes.find? fun c => c.name == name

/-- The class that was parsed from the entry at a position. -/
def classAt? (classes : List Candidate) (position : Nat) : Option Candidate :=
  classes.find? fun c => c.position == position

end Cleartext.Archive
