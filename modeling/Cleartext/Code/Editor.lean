import Cleartext.Class.File
import Cleartext.Class.Layout
import Cleartext.Code.StackMap

/-!
# Editing method bodies

An `Editor` collects edits of a method body and `Editor.commit` lays them out
in one pass.  Offsets and branch distances of staged instructions are those
of the old layout: a staged branch is relative to the instruction it replaces
or stands in front of.

The new layout sends an old instruction start to the place where the next
instruction that is kept or inserted goes, and the end of the code to its new
end.  Branches, the exception table and the attributes of the body follow this
map; an edit that it does not fit is refused and changes nothing.
-/

namespace Cleartext

/-- What becomes of an instruction. -/
inductive Fate
  | keep
  | replace (by_ : Instruction)
  | delete

/-- An instruction with the edits staged at it. -/
structure Staged where
  original : Instruction
  before : Option (List Instruction) := none
  fate : Fate := .keep

/-- A method body with the edits staged for it. -/
structure Editor where
  body : MethodBody
  staged : List Staged

namespace Staged

/-- Whether an edit is staged here. -/
def isEdited (s : Staged) : Bool :=
  s.before.isSome || match s.fate with
    | .keep => false
    | _ => true

/-- The instructions that take the place of the original. -/
def result (s : Staged) : List Instruction :=
  s.before.getD [] ++ match s.fate with
    | .keep => [s.original]
    | .replace ins => [ins]
    | .delete => []

end Staged

/-- A load of a constant whose index needs two bytes, in its long form. -/
def Instruction.lengthened (ins : Instruction) : Instruction :=
  if ins.op = .ldc && 255 < ins.operand.index then
    { op := .ldcW, operand := (.pool16 ins.operand.index : Operand .pool16), wide := ins.wide,
      offset := ins.offset }
  else ins

/-- An instruction at its new offset.  Its distances still count from
`anchor`, an offset of the old layout. -/
structure Placed where
  instruction : Instruction
  anchor : Nat

/-- A new layout: the instructions in place, the new offset of every old
instruction start, and the old and the new length. -/
structure NewLayout where
  placed : List Placed
  starts : List (Nat × Nat)
  oldLength : Nat
  newLength : Nat

/-- Places instructions one after another from `offset` on. -/
def placeAll (anchor offset : Nat) : List Instruction → List Placed × Nat
  | [] => ([], offset)
  | ins :: rest =>
    let ins := { ins.lengthened with offset }
    let (placed, stop) := placeAll anchor (offset + ins.size) rest
    (⟨ins, anchor⟩ :: placed, stop)

/-- Lays out staged instructions from `offset` on. -/
def layOut (offset : Nat) : List Staged → List Placed × List (Nat × Nat) × Nat
  | [] => ([], [], offset)
  | s :: rest =>
    let (placed, next) := placeAll s.original.offset offset s.result
    let (more, starts, stop) := layOut next rest
    (placed ++ more, (s.original.offset, offset) :: starts, stop)

namespace NewLayout

/-- The new offset of an old instruction start or of the end of the code. -/
def offset (l : NewLayout) (old : Int) : Except Error Int :=
  if old = l.oldLength then .ok l.newLength
  else if old < 0 || (l.oldLength : Int) < old then .error (.structural old .outsideCode)
  else match l.starts.lookup old.toNat with
    | some new => .ok new
    | none => .error (.structural old .insideInstruction)

/-- The new offset of a place that execution may go to. -/
def target (l : NewLayout) (old : Int) : Except Error Int := do
  let new ← l.offset old
  if new = l.newLength then .error (.structural old .branchOffEnd) else .ok new

/-- The new distance from `offset` to what was `distance` away from `anchor`. -/
def distance (l : NewLayout) (anchor offset : Nat) (distance : Int32) : Except Error Int32 := do
  return Int32.ofInt ((← l.target (anchor + distance.toInt)) - offset)

/-- The operands of a placed instruction with distances of the new layout. -/
def operand (l : NewLayout) (op : Opcode) (anchor offset : Nat) {s : Shape} :
    Operand s → Except Error (Operand s)
  | .branch16 d => do
    let d ← l.distance anchor offset d
    if Operand.fitsShort d then return .branch16 d
    else throw (.structural anchor (.branchOverflow op d.toInt))
  | .branch32 d => return .branch32 (← l.distance anchor offset d)
  | .table d low high targets => do
    let d ← l.distance anchor offset d
    return .table d low high (← targets.mapM (l.distance anchor offset))
  | .lookup d keys targets => do
    let d ← l.distance anchor offset d
    return .lookup d keys (← targets.mapM (l.distance anchor offset))
  | o => return o

/-- The bytes of a placed instruction. -/
def encode (l : NewLayout) (p : Placed) : Except Error Bytes := do
  let ins := p.instruction
  let operand ← l.operand ins.op p.anchor ins.offset ins.operand
  match { ins with operand }.encodeAt ins.offset with
  | .ok bytes => return bytes
  | .error e => throw (.unfit p.anchor e)

/-- The new exception table, in which rows with an empty range are missing,
and the new index of every old row that is not. -/
def handlers (l : NewLayout) :
    Nat → List Handler → Except Error (List Handler × List (Option Nat))
  | _, [] => .ok ([], [])
  | next, h :: rest => do
    let start ← l.offset h.start.toNat
    let stop ← l.offset h.stop.toNat
    let target ← l.target h.target.toNat
    if stop ≤ start then
      let (rows, indices) ← l.handlers next rest
      return (rows, none :: indices)
    else
      let (rows, indices) ← l.handlers (next + 1) rest
      return ({ h with start := UInt16.ofInt start, stop := UInt16.ofInt stop,
                       target := UInt16.ofInt target } :: rows, some next :: indices)

end NewLayout

/-! ## Attributes of a body -/

/-- The maps that the attributes of a body follow. -/
structure Relocation where
  offset : StackMap.OffsetMap
  handler : Nat → Except Error Nat

namespace Relocation

/-- The new bytes at a site of an attribute body. -/
def site (r : Relocation) (site : Layout.Site) (info : Bytes) : Except Error Bytes :=
  let word (pos : Nat) : Nat := (info.u16At pos).toNat
  match site.kind with
  | .reference => return []
  | .offset => do
    return Bytes.ofU16 (UInt16.ofInt (← r.offset (word site.position)))
  | .span => do
    let start ← r.offset (word site.position)
    let stop ← r.offset (word site.position + word (site.position + 2))
    return Bytes.ofU16 (UInt16.ofInt start) ++ Bytes.ofU16 (UInt16.ofInt (stop - start))
  | .handler => do
    return Bytes.ofU16 (← r.handler (word site.position)).toUInt16

/-- An attribute of a body with its offsets moved.  An attribute of unknown
layout stays as it is. -/
def attribute_ (r : Relocation) (pool : Pool) : Attribute → Except Error Attribute
  | .code .. => .error (.malformed .codeInCode)
  | .raw i name info =>
    if name = "StackMapTable" then do
      return .raw i name (← StackMap.relocate r.offset info)
    else
      let change := Layout.rewrite pool name (fun site info => monadLift (r.site site info)) info
      match change.run () with
      | .ok (info, ()) => .ok (.raw i name info)
      | .error e =>
        match e.root with
        | .unknownAttribute _ => .ok (.raw i name info)
        | _ => .error (.within (.named name) e)

end Relocation

/-- Whether a failure is about the layout of an edit. -/
def Error.isStructural : Error → Bool
  | .structural .. | .unfit .. => true
  | .within _ cause => cause.isStructural
  | _ => false

namespace Editor

/-- An editor without edits. -/
def new (body : MethodBody) : Except Error Editor := do
  let instructions ← Instruction.decodeAll body.bytecode
  return { body, staged := instructions.map fun ins => { original := ins } }

/-- The instructions of the body as it stands. -/
def instructions (e : Editor) : List Instruction := e.staged.map (·.original)

/-- Whether an edit is staged. -/
def isModified (e : Editor) : Bool := e.staged.any (·.isEdited)

/-- Stages an edit at the instruction that starts at `offset`. -/
def stage (e : Editor) (offset : Int) (edit : Staged → Staged) : Except Error Editor :=
  if e.staged.any fun s => (s.original.offset : Int) = offset then
    .ok { e with staged := e.staged.map fun s =>
      if (s.original.offset : Int) = offset then edit s else s }
  else .error (.structural offset .notAnInstruction)

/-- Stages the replacement of an instruction. -/
def replace (e : Editor) (offset : Int) (ins : Instruction) : Except Error Editor :=
  e.stage offset fun s => { s with fate := .replace ins }

/-- Stages the removal of an instruction. -/
def delete (e : Editor) (offset : Int) : Except Error Editor :=
  e.stage offset fun s => { s with fate := .delete }

/-- Stages instructions in front of an instruction, behind those that are
staged there already. -/
def insert (e : Editor) (offset : Int) (instructions : List Instruction) :
    Except Error Editor :=
  e.stage offset fun s => { s with before := some (s.before.getD [] ++ instructions) }

/-- The layout that the staged edits give. -/
def newLayout (e : Editor) : NewLayout :=
  let (placed, starts, newLength) := layOut 0 e.staged
  { placed, starts, oldLength := e.body.bytecode.length, newLength }

/-- The body with the staged edits applied. -/
def edited (e : Editor) (pool : Pool) : Except Error MethodBody := do
  let l := e.newLayout
  if l.newLength = 0 || 65536 ≤ l.newLength then
    throw (.structural 0 (.codeLength l.newLength))
  let code ← l.placed.mapM l.encode
  let (handlers, indices) ← l.handlers 0 e.body.handlers
  let handler (old : Nat) : Except Error Nat :=
    match indices[old]? with
    | some (some new) => .ok new
    | _ => .error (.structural 0 (.droppedHandler old))
  match e.body.attributes.mapM (Relocation.attribute_ ⟨l.offset, handler⟩ pool) with
  | .ok attributes => return { e.body with bytecode := code.flatten, handlers, attributes }
  | .error err => throw (if err.isStructural then err else .unfit 0 err)

/-- Applies the staged edits and starts over with the new body. -/
def commit (e : Editor) (pool : Pool) : Except Error Editor := do
  if !e.isModified then return e
  let body ← e.edited pool
  let instructions := (Instruction.decodeAll body.bytecode).toOption.getD []
  return { body, staged := instructions.map fun ins => { original := ins } }

end Editor

end Cleartext
