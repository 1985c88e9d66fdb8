import Cleartext.Code.Opcode
import Cleartext.Reader

/-!
# Instructions

An instruction is an opcode with the operands that its shape asks for.
Branch distances are relative to the start of the instruction, as in the
encoding.  The switches are padded to a multiple of four, so the length of an
instruction depends on its offset.

`Instruction.decodeAt` and `Instruction.encodeAt` are inverse to each other up
to the bytes that the format ignores; `sizeAt` is the length of the encoding.
-/

namespace Cleartext

/-- The operands of an instruction, by shape. -/
inductive Operand : Shape → Type
  | none : Operand .none
  | byte (value : Int32) : Operand .byte
  | short (value : Int32) : Operand .short
  | slot (slot : UInt16) : Operand .slot
  | pool8 (index : UInt16) : Operand .pool8
  | pool16 (index : UInt16) : Operand .pool16
  | branch16 (distance : Int32) : Operand .branch16
  | branch32 (distance : Int32) : Operand .branch32
  | increment (slot : UInt16) (delta : Int32) : Operand .increment
  | arrayType (code : UInt8) : Operand .arrayType
  | interface (index : UInt16) (count : UInt8) : Operand .interface
  | dynamic (index : UInt16) : Operand .dynamic
  | dimensions (index : UInt16) (count : UInt8) : Operand .dimensions
  | table (otherwise low high : Int32) (targets : List Int32) : Operand .table
  | lookup (otherwise : Int32) (keys targets : List Int32) : Operand .lookup
  | wide : Operand .wide
  | invalid : Operand .invalid
deriving DecidableEq, Repr

namespace Operand

variable {s : Shape}

/-- The constant pool index, if there is one. -/
def index? : Operand s → Option UInt16
  | pool8 i | pool16 i | interface i _ | dynamic i | dimensions i _ => some i
  | _ => Option.none

/-- The constant pool index, zero when there is none. -/
def index (o : Operand s) : UInt16 := o.index?.getD 0

/-- The local variable, zero when there is none. -/
def local_ : Operand s → UInt16
  | slot n | increment n _ => n
  | _ => 0

/-- The immediate number, zero when there is none. -/
def immediate : Operand s → Int32
  | byte v | short v | increment _ v => v
  | _ => 0

/-- The relative distances an instruction may jump by: none, the branch, or
the default of a switch followed by its targets. -/
def distances : Operand s → List Int32
  | branch16 d | branch32 d => [d]
  | table d _ _ targets | lookup d _ targets => d :: targets
  | _ => []

/-- The code of a primitive array type, zero when there is none. -/
def arrayCode : Operand s → UInt8
  | arrayType code => code
  | _ => 0

/-- The number of dimensions, zero when there is none. -/
def dimensionCount : Operand s → UInt8
  | dimensions _ n => n
  | _ => 0

/-- The distance of a branch, or the default of a switch; zero when there is
none. -/
def distance (o : Operand s) : Int32 := o.distances.headD 0

/-- The distance by which a switch jumps for a key. -/
def select (key : Int32) : Operand s → Int32
  | table otherwise low high targets =>
    if low ≤ key && key ≤ high then targets.getD (key.toInt - low.toInt).toNat 0 else otherwise
  | lookup otherwise keys targets => ((keys.zip targets).lookup key).getD otherwise
  | _ => 0

/-- The number of padding bytes of a switch at `offset`. -/
def padding (offset : Nat) : Nat := 3 - offset % 4

end Operand

/-- A decoded instruction. -/
structure Instruction where
  op : Opcode
  operand : Operand op.shape
  wide : Bool := false
  offset : Nat := 0
deriving DecidableEq, Repr

namespace Operand

/-! ## Sizes -/

/-- The number of bytes of an instruction at `offset` with these operands. -/
def sizeAt {s : Shape} (o : Operand s) (wide : Bool) (offset : Nat) : Nat :=
  match o with
  | .none | .wide | .invalid => 1
  | .byte _ | .pool8 _ | .arrayType _ => 2
  | .short _ | .pool16 _ | .branch16 _ => 3
  | .slot _ => if wide then 4 else 2
  | .increment .. => if wide then 6 else 3
  | .dimensions .. => 4
  | .branch32 _ | .interface .. | .dynamic _ => 5
  | .table _ _ _ targets => 1 + padding offset + 12 + 4 * targets.length
  | .lookup _ _ targets => 1 + padding offset + 8 + 8 * targets.length

/-! ## Decoding -/

/-- Reads the target table of a switch over the keys from `low` to `high`. -/
def readTable (offset : Nat) : Reader (Operand .table) := do
  let _ ← Reader.bytes (padding offset)
  let otherwise ← Reader.i32
  let low ← Reader.i32
  let high ← Reader.i32
  if high < low || 65536 ≤ high.toInt - low.toInt then
    throw (.malformed (.switchBounds low high offset))
  return .table otherwise low high (← Reader.i32.times (high.toInt - low.toInt + 1).toNat)

/-- Reads the pairs of a switch over listed keys. -/
def readLookup (offset : Nat) : Reader (Operand .lookup) := do
  let _ ← Reader.bytes (padding offset)
  let otherwise ← Reader.i32
  let count ← Reader.i32
  if count < 0 || 65536 ≤ count.toInt then
    throw (.malformed (.switchPairs count offset))
  let pairs ← Reader.times (return ((← Reader.i32), (← Reader.i32))) count.toInt.toNat
  return .lookup otherwise (pairs.map (·.1)) (pairs.map (·.2))

/-- Reads a local variable, which takes two bytes in the wide form. -/
def readSlot (wide : Bool) : Reader UInt16 :=
  if wide then Reader.u16 else UInt8.toUInt16 <$> Reader.u8

/-- Reads the operands of the opcode `op` at `offset`, given their shape. -/
def read (op : Opcode) (wide : Bool) (offset : Nat) : (s : Shape) → Reader (Operand s)
  | .none => return .none
  | .byte => return .byte (← Reader.i8)
  | .short => return .short (← Reader.i16)
  | .slot => return .slot (← readSlot wide)
  | .pool8 => return .pool8 (← Reader.u8).toUInt16
  | .pool16 => return .pool16 (← Reader.u16)
  | .branch16 => return .branch16 (← Reader.i16)
  | .branch32 => return .branch32 (← Reader.i32)
  | .increment =>
    if wide then return .increment (← Reader.u16) (← Reader.i16)
    else return .increment (← Reader.u8).toUInt16 (← Reader.i8)
  | .arrayType => return .arrayType (← Reader.u8)
  | .interface => do
    let o := Operand.interface (← Reader.u16) (← Reader.u8)
    let _ ← Reader.u8
    return o
  | .dynamic => do
    let o := Operand.dynamic (← Reader.u16)
    let _ ← Reader.u16
    return o
  | .dimensions => return .dimensions (← Reader.u16) (← Reader.u8)
  | .table => readTable offset
  | .lookup => readLookup offset
  | .wide | .invalid => throw (.malformed (.invalidOpcode op offset))

/-! ## Encoding -/

/-- Whether a number fits a signed byte. -/
def fitsByte (v : Int32) : Bool := -128 ≤ v && v ≤ 127

/-- Whether a number fits a signed word of two bytes. -/
def fitsShort (v : Int32) : Bool := -32768 ≤ v && v ≤ 32767

/-- The lowest byte of a number. -/
def lowByte (v : Int32) : UInt8 := v.toUInt32.toUInt8

/-- The two lowest bytes of a number. -/
def lowShort (v : Int32) : Bytes := Bytes.ofU16 v.toUInt32.toUInt16

/-- The four bytes of a number. -/
def word (v : Int32) : Bytes := Bytes.ofU32 v.toUInt32

/-- The bytes of the operands of `op` at `offset`, or the operand that does
not fit. -/
def encode (op : Opcode) (wide : Bool) (offset : Nat) {s : Shape} :
    Operand s → Except RangeFlaw Bytes
  | .none => .ok []
  | .byte v => if fitsByte v then .ok [lowByte v] else .error (.immediate op v)
  | .short v => if fitsShort v then .ok (lowShort v) else .error (.immediate op v)
  | .slot n =>
    if wide then .ok (Bytes.ofU16 n)
    else if 255 < n then .error (.slotNeedsWide op n)
    else .ok [n.toUInt8]
  | .pool8 i => if 255 < i then .error (.poolIndex i) else .ok [i.toUInt8]
  | .pool16 i => .ok (Bytes.ofU16 i)
  | .branch16 d => if fitsShort d then .ok (lowShort d) else .error (.branch op d)
  | .branch32 d => .ok (word d)
  | .increment n v =>
    if wide then .ok (Bytes.ofU16 n ++ lowShort v)
    else if 255 < n || !fitsByte v then .error (.incrementNeedsWide n v)
    else .ok [n.toUInt8, lowByte v]
  | .arrayType t => .ok [t]
  | .interface i n => .ok (Bytes.ofU16 i ++ [n, 0])
  | .dynamic i => .ok (Bytes.ofU16 i ++ [0, 0])
  | .dimensions i n => .ok (Bytes.ofU16 i ++ [n])
  | .table otherwise low high targets =>
    if (targets.length : Int) ≠ high.toInt - low.toInt + 1 then
      .error (.tableTargets targets.length low high)
    else
      .ok (List.replicate (padding offset) 0 ++ word otherwise ++ word low ++ word high ++
        targets.flatMap word)
  | .lookup otherwise keys targets =>
    if keys.length ≠ targets.length then .error (.lookupPairs keys.length targets.length)
    else
      .ok (List.replicate (padding offset) 0 ++ word otherwise ++
        Bytes.ofU32 keys.length.toUInt32 ++
        (keys.zip targets).flatMap fun (k, t) => word k ++ word t)
  | .wide | .invalid => .error (.invalidOpcode op)

end Operand

namespace Instruction

/-- The number of bytes the instruction takes at `offset`. -/
def sizeAt (ins : Instruction) (offset : Nat) : Nat := ins.operand.sizeAt ins.wide offset

/-- The number of bytes the instruction takes where it stands. -/
def size (ins : Instruction) : Nat := ins.sizeAt ins.offset

/-- The offset of the next instruction. -/
def next (ins : Instruction) : Nat := ins.offset + ins.size

/-- The absolute offsets the instruction may jump to. -/
def targets (ins : Instruction) : List Int :=
  ins.operand.distances.map fun d => ins.offset + d.toInt

/-- Puts a failure to find enough bytes into the place of the instruction. -/
def inPlace (op : Opcode) (offset : Nat) : Error → Error
  | .malformed (.endOfData at_ need left) =>
    .within (.instruction op offset) (.malformed (.endOfData at_ need left))
  | e => e

/-- Reads the operands that follow the opcode of an instruction at `offset`. -/
def readOperands (op : Opcode) (wide : Bool) (offset : Nat) : Reader Instruction := fun c =>
  match (Operand.read op wide offset op.shape).run c with
  | .ok (operand, c) => .ok ({ op, operand, wide, offset }, c)
  | .error e => .error (inPlace op offset e)

/-- Reads the instruction at the cursor. -/
def read : Reader Instruction := fun c =>
  let missing := Except.mapError (inPlace Opcode.nop c.offset)
  match missing c.u8 with
  | .error e => .error e
  | .ok (b, c') =>
    if b = Opcode.wide.code then
      match missing c'.u8 with
      | .error e => .error e
      | .ok (b, c'') =>
        let op : Opcode := ⟨b⟩
        if op.canWiden then readOperands op true c.offset c''
        else .error (.malformed (.notWidenable op c.offset))
    else readOperands ⟨b⟩ false c.offset c'

/-- The instruction at an offset of a code region. -/
def decodeAt (code : Bytes) (offset : Nat) : Except Error Instruction :=
  Prod.fst <$> read.run (Cursor.seek code offset)

/-- The instructions from a cursor on.  Every instruction takes a byte, so
the number of unread bytes is enough fuel. -/
def readAll : Nat → Cursor → Except Error (List Instruction)
  | 0, _ => .ok []
  | fuel + 1, c =>
    if c.rest.isEmpty then .ok []
    else do
      let (ins, c) ← read.run c
      return ins :: (← readAll fuel c)

/-- The instructions of a code region. -/
def decodeAll (code : Bytes) : Except Error (List Instruction) :=
  readAll code.length (Cursor.start code)

/-- The bytes of an instruction placed at `offset`. -/
def encodeAt (ins : Instruction) (offset : Nat) : Except Error Bytes :=
  if ins.wide && !ins.op.canWiden then .error (.operandRange (.cannotWiden ins.op))
  else
    match ins.operand.encode ins.op ins.wide offset with
    | .ok operands =>
      .ok ((if ins.wide then [Opcode.wide.code] else []) ++ ins.op.code :: operands)
    | .error flaw => .error (.operandRange flaw)

/-- Lays out instructions from `offset` on: the instructions with their
offsets, and their bytes.  `index` numbers them in failures. -/
def assembleFrom (index offset : Nat) :
    List Instruction → Except Error (List Instruction × Bytes)
  | [] => .ok ([], [])
  | ins :: rest =>
    match ins.encodeAt offset with
    | .error e => .error (.within (.listed index ins.op) e)
    | .ok bytes => do
      let (placed, code) ← assembleFrom (index + 1) (offset + bytes.length) rest
      return ({ ins with offset } :: placed, bytes ++ code)

/-- Lays out instructions back to back. -/
def assemble (instructions : List Instruction) : Except Error (List Instruction × Bytes) :=
  assembleFrom 0 0 instructions

/-- The load of a pool constant: the short form when the index fits a byte. -/
def ldc (index : UInt16) : Instruction :=
  if 255 < index then { op := .ldcW, operand := (.pool16 index : Operand .pool16) }
  else { op := .ldc, operand := (.pool8 index : Operand .pool8) }

/-- The same instruction with another pool index, if it has one. -/
def withIndex (ins : Instruction) (index : UInt16) : Instruction :=
  let rec set : {s : Shape} → Operand s → Operand s
    | _, .pool8 _ => .pool8 index
    | _, .pool16 _ => .pool16 index
    | _, .interface _ n => .interface index n
    | _, .dynamic _ => .dynamic index
    | _, .dimensions _ n => .dimensions index n
    | _, o => o
  { ins with operand := set ins.operand }

end Instruction

end Cleartext
