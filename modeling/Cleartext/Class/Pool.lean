import Std.Data.HashMap
import Cleartext.Class.Constant
import Cleartext.Code.Instruction
import Cleartext.Text.ModifiedUtf8

/-!
# The constant pool

The table of constants of a class.  Slot zero and the slot behind every wide
entry hold nothing.  `Pool.add` returns the index of an equal entry when there
is one, and appends the constant otherwise; a pool never grows beyond 65535
slots.
-/

namespace Cleartext

/-- A constant pool: its slots, and the first index of every entry. -/
structure Pool where
  slots : Array (Option Constant)
  index : Std.HashMap Constant UInt16

namespace Pool

/-- The pool without entries. -/
def empty : Pool := ⟨#[none], {}⟩

instance : Inhabited Pool := ⟨empty⟩

/-- The first index of every entry of `slots`, when the first of them stands
at `start`. -/
def indexFrom (index : Std.HashMap Constant UInt16) (start : Nat) :
    List (Option Constant) → Std.HashMap Constant UInt16
  | [] => index
  | none :: rest => indexFrom index (start + 1) rest
  | some c :: rest => indexFrom (index.insertIfNew c start.toUInt16) (start + 1) rest

/-- The pool with the given slots. -/
def ofSlots (slots : List (Option Constant)) : Pool := ⟨slots.toArray, indexFrom {} 0 slots⟩

/-- The number of slots, slot zero included. -/
def count (p : Pool) : Nat := p.slots.size

/-- The entry at an index, if the slot holds one. -/
def get? (p : Pool) (i : UInt16) : Option Constant := (p.slots[i.toNat]?).join

/-- The entry at an index. -/
def get (p : Pool) (i : UInt16) : Except Error Constant :=
  match p.get? i with
  | some c => .ok c
  | none => .error (.badIndex (.absent i p.count))

/-- The entries with their indices, in order. -/
def entries (p : Pool) : List (UInt16 × Constant) :=
  p.slots.toList.zipIdx.filterMap fun (slot, i) => slot.map fun c => (i.toUInt16, c)

/-! ## Resolving -/

/-- The failure of finding an entry of another kind. -/
def wrongKind {α : Type} (i : UInt16) (found : Constant) (expected : Tag) : Except Error α :=
  .error (.badIndex (.wrongKind i found.tag expected))

/-- The code units of a text entry. -/
def units (p : Pool) (i : UInt16) : Except Error Units := do
  match ← p.get i with
  | .utf8 raw => ModifiedUtf8.decode raw
  | c => wrongKind i c .utf8

/-- The text of a text entry. -/
def text (p : Pool) (i : UInt16) : Except Error String := Units.text <$> p.units i

/-- The name of a class entry. -/
def className (p : Pool) (i : UInt16) : Except Error String := do
  match ← p.get i with
  | .class_ name => p.text name
  | c => wrongKind i c .class_

/-- The code units of a string entry. -/
def stringUnits (p : Pool) (i : UInt16) : Except Error Units := do
  match ← p.get i with
  | .string text => p.units text
  | c => wrongKind i c .string

/-- The text of a string entry. -/
def stringText (p : Pool) (i : UInt16) : Except Error String := Units.text <$> p.stringUnits i

/-- The name and the descriptor of a name-and-type entry. -/
def nameAndType (p : Pool) (i : UInt16) : Except Error (String × String) := do
  match ← p.get i with
  | .nameAndType name descriptor => return (← p.text name, ← p.text descriptor)
  | c => wrongKind i c .nameAndType

/-- The reference at an index.  An entry of another kind has no answer. -/
def ref (p : Pool) (i : UInt16) : Except Error Ref := do
  match ← p.get i with
  | .member kind owner nameAndType =>
    let owner ← p.className owner
    let (name, descriptor) ← p.nameAndType nameAndType
    return { kind, owner, name, descriptor }
  | _ => .error .collapsed

/-- The value of a loadable entry. -/
def value (p : Pool) (i : UInt16) : Except Error Loadable := do
  match ← p.get i with
  | .integer v => return .int v
  | .float bits => return .float bits
  | .long v => return .long v
  | .double bits => return .double bits
  | .string text => return .string (← p.units text)
  | .class_ name => return .class_ (← p.text name)
  | c => .error (.badIndex (.notLoadable i c.tag))

/-! ## Adding -/

/-- The index of an entry equal to `c`, which is appended when there is none.
A full pool stays as it is. -/
def add (p : Pool) (c : Constant) : Except Error UInt16 × Pool :=
  match p.index[c]? with
  | some i => (.ok i, p)
  | none =>
    if 65535 < p.slots.size + c.width then (.error .poolFull, p)
    else
      let i := p.slots.size.toUInt16
      let ⟨slots, index⟩ := p
      let slots := slots.push (some c)
      let slots := if c.width = 2 then slots.push none else slots
      (.ok i, ⟨slots, index.insert c i⟩)

/-- A pool edit: a computation on a pool that stops at the first failure but
keeps what was added before it. -/
abbrev Edit := ExceptT Error (StateM Pool)

namespace Edit

/-- Adds a constant. -/
def add (c : Constant) : Edit UInt16 := ExceptT.mk fun p => p.add c

/-- Adds a text entry by its code units. -/
def units (u : Units) : Edit UInt16 := add (.utf8 (ModifiedUtf8.encode u))

/-- Adds a text entry. -/
def text (s : String) : Edit UInt16 := units (Units.ofText s)

/-- Adds a class entry. -/
def class_ (name : String) : Edit UInt16 := do add (.class_ (← text name))

/-- Adds a string entry by its code units. -/
def stringUnits (u : Units) : Edit UInt16 := do add (.string (← units u))

/-- Adds a string entry. -/
def string (s : String) : Edit UInt16 := stringUnits (Units.ofText s)

/-- Adds a name-and-type entry. -/
def nameAndType (name descriptor : String) : Edit UInt16 := do
  let name ← text name
  let descriptor ← text descriptor
  add (.nameAndType name descriptor)

/-- Adds a field or method reference. -/
def ref (kind : Tag) (owner name descriptor : String) : Edit UInt16 := do
  let owner ← class_ owner
  let nameAndType ← nameAndType name descriptor
  add (.member kind owner nameAndType)

/-- The shortest instruction that pushes a number; one that fits no immediate
form is added to the pool. -/
def pushInt (v : Int32) : Edit Instruction :=
  if -1 ≤ v && v ≤ 5 then
    let iconst (op : Opcode) (h : op.shape = .none) : Edit Instruction :=
      return { op, operand := h ▸ Operand.none }
    match v.toInt with
    | -1 => iconst .iconstM1 rfl
    | 0 => iconst .iconst0 rfl
    | 1 => iconst .iconst1 rfl
    | 2 => iconst .iconst2 rfl
    | 3 => iconst .iconst3 rfl
    | 4 => iconst .iconst4 rfl
    | _ => iconst .iconst5 rfl
  else if Operand.fitsByte v then
    return { op := .bipush, operand := (.byte v : Operand .byte) }
  else if Operand.fitsShort v then
    return { op := .sipush, operand := (.short v : Operand .short) }
  else return Instruction.ldc (← add (.integer v))

end Edit

/-- Runs an edit. -/
def edit {α : Type} (p : Pool) (e : Edit α) : Except Error α × Pool := e.run.run p

/-! ## Reading and writing -/

/-- Reads the entries of `n` slots, the first of which has the given index. -/
def readSlots (index : Nat) : Nat → Reader (List (Option Constant))
  | 0 => return []
  | n + 1 => do
    let tag : Tag := ⟨← Reader.u8⟩
    if tag.isWide then
      match n with
      | 0 => throw (.malformed (.wideAtEnd tag index))
      | n + 1 =>
        let c ← Constant.readPayload index tag
        return some c :: none :: (← readSlots (index + 2) n)
    else
      let c ← Constant.readPayload index tag
      return some c :: (← readSlots (index + 1) n)

/-- The first reference of an entry that names no entry. -/
def dangling? (p : Pool) : Option (Nat × Constant × UInt16) :=
  p.slots.toList.zipIdx.findSome? fun (slot, i) => do
    let c ← slot
    let r ← c.references.find? fun r => (p.get? r).isNone
    return (i, c, r)

/-- Reads a constant pool. -/
def read : Reader Pool := do
  match (← Reader.u16).toNat with
  | 0 => throw (.malformed .emptyPool)
  | n + 1 =>
    let p := ofSlots (none :: (← readSlots 1 n))
    match p.dangling? with
    | some (i, c, r) => throw (.malformed (.danglingEntry i c.tag r))
    | none => return p

/-- The bytes of a constant pool. -/
def encode (p : Pool) : Bytes :=
  Bytes.ofU16 p.count.toUInt16 ++ p.slots.toList.flatMap fun slot => (slot.map Constant.encode).getD []

end Pool

end Cleartext
