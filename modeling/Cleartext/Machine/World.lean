import Cleartext.Class.File
import Cleartext.Machine.Hierarchy
import Cleartext.Machine.Value
import Cleartext.Text.Charset

/-!
# The state of a run

What interpreted code and library methods read and change: the `Setting` of a
run stays fixed, the `World` is its mutable state.  A `Run` is a computation on
both that may halt: by a thrown object, by a failure, or because the code asks
for something that has no meaning, which ends the whole run at once.  What was
done before it halted stays done.
-/

namespace Cleartext.Machine

/-- How a run is set up: the identity that interpreted code sees, limits, and
the charsets that it finds.  A limit of zero stands for the usual one. -/
structure Config where
  codeSource : String := ""
  caller : StackFrame := ⟨"", ""⟩
  poolSize : Int := 0
  maxSteps : Int := 0
  maxDepth : Int := 0
  traced : Bool := false
  charsets : Text.Charsets := .standard

/-- The usual limit of instructions. -/
def usualSteps : Nat := 5000000

/-- The usual limit of nested calls. -/
def usualDepth : Nat := 256

/-- The limit of instructions. -/
def Config.stepLimit (c : Config) : Nat := if c.maxSteps ≤ 0 then usualSteps else c.maxSteps.toNat

/-- The limit of nested calls. -/
def Config.depthLimit (c : Config) : Nat := if c.maxDepth ≤ 0 then usualDepth else c.maxDepth.toNat

/-- A method with a body, ready to run.  Instructions are decoded when they
are reached. -/
structure Routine where
  name : String
  descriptor : String
  isStatic : Bool
  body : MethodBody
  length : Nat
  decoded : Array (Thunk (Except Error Instruction))

/-- The instruction at every offset of a code region. -/
def decodeEverywhere (total : Nat) : Nat → Bytes → List (Thunk (Except Error Instruction))
  | _, [] => []
  | offset, b :: rest =>
    ⟨fun _ => Prod.fst <$> Instruction.read.run ⟨b :: rest, offset, total⟩⟩ ::
      decodeEverywhere total (offset + 1) rest

/-- The routine of a method, if it has a body. -/
def Routine.of? (cf : ClassFile) (m : Member) : Option Routine :=
  m.body?.map fun body =>
    { name := m.name cf.pool, descriptor := m.descriptor cf.pool, isStatic := m.isStatic, body,
      length := body.bytecode.length
      decoded := (decodeEverywhere body.bytecode.length 0 body.bytecode).toArray }

/-- The interpreted class.  A method without a body stands for itself, so that
it hides a later one of the same name and descriptor. -/
structure Program where
  cf : ClassFile
  name : String
  lineage : Lineage
  methods : List ((String × String) × Option Routine)

/-- A class made ready to run. -/
def Program.of (cf : ClassFile) : Program :=
  { cf, name := cf.name, lineage := ⟨cf.name, cf.superName⟩
    methods := cf.methods.map fun m =>
      ((m.name cf.pool, m.descriptor cf.pool), Routine.of? cf m) }

/-- The routine with the given name and descriptor. -/
def Program.routine? (p : Program) (name descriptor : String) : Option Routine :=
  (p.methods.lookup (name, descriptor)).join

/-- What stays fixed while an instruction runs; `active` names the methods on
the call stack, innermost first. -/
structure Setting where
  program : Program
  config : Config
  active : List String

/-- The mutable state of a run. -/
structure World where
  heap : Array Object := #[]
  statics : List (String × Value) := []
  mirrors : List (String × Nat) := []
  interned : List (String × Nat) := []
  hashes : List (Value × Int32) := []
  thread : Option Nat := none

instance : Inhabited World := ⟨{}⟩

/-- How a run is halted. -/
inductive Halt
  /-- The object was thrown. -/
  | thrown (id : Nat)
  /-- The instruction failed. -/
  | failure (e : Error)
  /-- The code asks for something without meaning. -/
  | collapse (lack : Lack)

/-- A computation on the state of a run. -/
abbrev Run := ReaderT Setting (ExceptT Halt (StateM World))

/-- Halts because the machine lacks something. -/
def unsupported {α : Type} (lack : Lack) : Run α := throw (.failure (.unsupported lack))

/-- Halts because of a value that the operation has no meaning for. -/
def collapse {α : Type} : Run α := throw (.collapse .collapse)

/-- Takes the answer of a lookup. -/
def lift {α : Type} : Except Error α → Run α
  | .ok a => return a
  | .error .collapsed => collapse
  | .error e => throw (.failure e)

/-! ## The heap -/

/-- Puts an object on the heap. -/
def alloc (o : Object) : Run Nat := do
  let id := (← getThe World).heap.size
  modify fun w => { w with heap := w.heap.push o }
  return id

/-- Puts an object on the heap and refers to it. -/
def new (o : Object) : Run Value := return .ref (← alloc o)

/-- A new string. -/
def newUnits (units : Units) : Run Value := new (.string units)

/-- A new string. -/
def newText (text : String) : Run Value := newUnits (Units.ofText text)

/-- A new library object. -/
def newHidden (cls : String) (hidden : Hidden) : Run Value := new (.instance cls none hidden)

/-- The object with the given number. -/
def object? (id : Nat) : Run (Option Object) := return (← getThe World).heap[id]?

/-- The object that a value refers to. -/
def deref? : Value → Run (Option Object)
  | .ref id => object? id
  | _ => return none

/-- Changes the object with the given number. -/
def update (id : Nat) (f : Object → Object) : Run Unit :=
  modify fun w => { w with heap := w.heap.modify id f }

/-- Changes the hidden state of an instance. -/
def setHidden (id : Nat) (hidden : Hidden) : Run Unit :=
  update id fun
    | .instance cls fields _ => .instance cls fields hidden
    | o => o

/-! ## Kinds and classes -/

/-- The name of a value's kind in messages. -/
def kindName (v : Value) : Run String := do
  match v with
  | .null => return "<nil>"
  | .int _ => return "int32"
  | .long _ => return "int64"
  | .float _ => return "float32"
  | .double _ => return "float64"
  | .address _ => return "emu.retAddr"
  | .ref id =>
    match ← object? id with
    | some (.string _) => return "*emu.String"
    | some (.array ..) => return "*emu.Array"
    | _ => return "*emu.Object"

/-- The internal name of the class of a value. -/
def runtimeClass (v : Value) : Run String := do
  match ← deref? v with
  | some (.string _) => return "java/lang/String"
  | some (.array component _) => return "[" ++ component
  | some (.instance cls _ _) => return cls
  | none => return topClass

/-- The name of the class of a value, with points. -/
def className (v : Value) : Run String := externalName <$> runtimeClass v

/-- The part of a class type between its first and its last letter, if the
text is long enough to have one. -/
def inner? (text : String) : Option String :=
  match text.toList with
  | _ :: rest => if rest.isEmpty then none else some (String.ofList rest.dropLast)
  | [] => none

/-- Whether an array with the given component type is an instance of a class. -/
def arrayInstanceOf (component cls : String) : Run Bool := do
  match cls.toList with
  | '[' :: wanted =>
    if wanted = component.toList then return true
    match wanted.head? with
    | none => collapse
    | some c =>
      if c ≠ 'L' then return false
      match component.toList.head? with
      | none => collapse
      | some d =>
        if d ≠ 'L' then return false
        match inner? component, inner? (String.ofList wanted) with
        | some source, some target => return (← read).program.lineage.assignable source target
        | _, _ => collapse
  | _ => return cls = topClass || cls = "java/lang/Cloneable" || cls = "java/io/Serializable"

/-- Whether a value is an instance of a class. -/
def instanceOf (v : Value) (cls : String) : Run Bool := do
  match ← deref? v with
  | some (.array component _) => arrayInstanceOf component cls
  | _ => return (← read).program.lineage.assignable (← runtimeClass v) cls

/-! ## Exceptions -/

/-- The call stack that interpreted code sees, innermost first: its own
methods, and below them the configured caller. -/
def callStack : Run (List StackFrame) := do
  let s ← read
  let own := s.active.map fun m => StackFrame.mk s.program.name m
  return if s.config.caller.cls = "" then own else own ++ [s.config.caller]

/-- Throws a new exception; an empty message stands for none. -/
def throwNew {α : Type} (cls message : String) : Run α := do
  let trace ← callStack
  let message ← if message = "" then pure none
    else some <$> alloc (.string (Units.ofText message))
  throw (.thrown (← alloc (.instance cls none (.throwable message trace))))

/-- Throws the exception for a missing object. -/
def throwNull {α : Type} : Run α := throwNew "java/lang/NullPointerException" ""

/-- The text of a string object; empty when it is none. -/
def stringText (id : Nat) : Run String := do
  match ← object? id with
  | some (.string units) => return units.text
  | _ => return ""

/-- A thrown object in words: its class and its message. -/
def thrownText (w : World) (id : Nat) : String :=
  match w.heap[id]? with
  | some (.instance cls _ hidden) =>
    externalName cls ++ match hidden with
      | .throwable (some m) _ =>
        match w.heap[m]? with
        | some (.string units) => ": " ++ units.text
        | _ => ""
      | _ => ""
  | _ => ""

/-! ## Shared objects -/

/-- The object that stands for a class. -/
def mirror (cls : String) : Run Value := do
  match (← getThe World).mirrors.lookup cls with
  | some id => return .ref id
  | none =>
    let id ← alloc (.instance "java/lang/Class" none (.text cls))
    modify fun w => { w with mirrors := (cls, id) :: w.mirrors }
    return .ref id

/-- The shared string with the given units.  Strings are filed under their
text, and of the strings with one text only the last is shared. -/
def intern (units : Units) : Run Value := do
  let key := units.text
  let shared ← match (← getThe World).interned.lookup key with
    | none => pure none
    | some id => do
      match ← object? id with
      | some (.string u) => pure (if u = units then some id else none)
      | _ => pure none
  match shared with
  | some id => return .ref id
  | none =>
    let id ← alloc (.string units)
    modify fun w => { w with interned := (key, id) :: w.interned.filter (·.1 ≠ key) }
    return .ref id

/-- The identity hash of a value: numbered in the order of asking. -/
def identityHash (v : Value) : Run Int32 := do
  let hashes := (← getThe World).hashes
  match hashes.find? fun (x, _) => x.same v with
  | some (_, h) => return h
  | none =>
    let h := Int32.ofNat (hashes.length * 0x61c88647 + 0x1b873593)
    modify fun w => { w with hashes := (v, h) :: w.hashes }
    return h

/-- The value of a constant on the operand stack. -/
def ofLoadable : Loadable → Run Value
  | .int v => return .int v
  | .long v => return .long v
  | .float bits => return .float bits
  | .double bits => return .double bits
  | .string units => intern units
  | .class_ name => mirror name

end Cleartext.Machine
