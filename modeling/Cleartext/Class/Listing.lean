import Cleartext.Class.File
import Cleartext.Decimal.Shortest

/-!
# Listings

The text of instructions, of a constant pool and of all method bodies of a
class, one line each.
-/

namespace Cleartext

/-- The name of a primitive array type by its code. -/
def arrayTypeName (code : UInt8) : String :=
  match code.toNat with
  | 4 => "boolean"
  | 5 => "char"
  | 6 => "float"
  | 7 => "double"
  | 8 => "byte"
  | 9 => "short"
  | 10 => "int"
  | 11 => "long"
  | n => s!"atype({n})"

namespace Pool

/-- A pool entry in words; empty when there is nothing to say. -/
def describe (p : Pool) (i : UInt16) : String :=
  match p.get? i with
  | none => ""
  | some c =>
    match c with
    | .string _ => "String " ++ Text.quote ((p.stringText i).toOption.getD "")
    | .class_ _ => "class " ++ (p.className i).toOption.getD ""
    | .member kind _ _ =>
      match p.ref i with
      | .ok r => kind.name ++ " " ++ r.text
      | .error _ => ""
    | .integer v => s!"int {v}"
    | .long v => s!"long {v}l"
    | .float bits => "float " ++ Decimal.general (.ofBits32 bits) ++ "f"
    | .double bits => "double " ++ Decimal.general (.ofBits64 bits) ++ "d"
    | .dynamic bootstrap nameAndType | .invokeDynamic bootstrap nameAndType =>
      match p.nameAndType nameAndType with
      | .ok (name, descriptor) => s!"{c.tag.name} #{bootstrap}:{name}:{descriptor}"
      | .error _ => ""
    | .methodHandle .. | .methodType _ => c.tag.name
    | _ => ""

/-- The value of an entry in a pool listing. -/
def listedValue (p : Pool) (i : UInt16) : Constant → String
  | .utf8 raw =>
    match ModifiedUtf8.decode raw with
    | .ok units => Text.quote units.text
    | .error _ => Text.quoteBytes raw
  | .integer v => toString v
  | .long v => toString v
  | .float bits => Decimal.general (.ofBits32 bits)
  | .double bits => Decimal.general (.ofBits64 bits)
  | c =>
    let words := p.describe i
    ".".intercalate (c.references.map fun r => s!"#{r}") ++
      if words = "" then "" else " // " ++ words

/-- The listing of a pool, one line for each entry. -/
def listing (p : Pool) : String :=
  String.join (p.entries.map fun (i, c) =>
    Text.padLeft 6 ' ' s!"#{i}" ++ " = " ++ Text.padRight 18 c.tag.name ++ " " ++
      p.listedValue i c ++ "\n")

end Pool

namespace Instruction

/-- The number that an instruction pushes, if it pushes a known one. -/
def pushedInt? (ins : Instruction) (pool : Option Pool) : Option Int32 :=
  if Opcode.iconstM1.code ≤ ins.op.code && ins.op.code ≤ Opcode.iconst5.code then
    some (ins.op.code.toUInt32.toInt32 - 3)
  else if ins.op = .bipush || ins.op = .sipush then some ins.operand.immediate
  else if ins.op = .ldc || ins.op = .ldcW then
    match pool.bind (·.get? ins.operand.index) with
    | some (.integer v) => some v
    | _ => none
  else none

/-- The operands of an instruction at `offset` in words. -/
def operandText (offset : Nat) (pool : Option Pool) {s : Shape} (o : Operand s) : String :=
  let pooled (i : UInt16) (more : String) : String :=
    let words := (pool.map (·.describe i)).getD ""
    s!" #{i}" ++ more ++ if words = "" then "" else " // " ++ words
  let target (d : Int32) : String := toString (offset + d.toInt)
  match o with
  | .byte v | .short v => s!" {v}"
  | .slot n => s!" {n}"
  | .increment n v => s!" {n}, {v}"
  | .branch16 d | .branch32 d => " " ++ target d
  | .arrayType t => " " ++ arrayTypeName t
  | .pool8 i | .pool16 i | .dynamic i => pooled i ""
  | .interface i n => pooled i s!", {n}"
  | .dimensions i n => pooled i s!", {n}"
  | .table otherwise low high targets =>
    s!" \x7b {low}..{high}" ++
      String.join (targets.zipIdx.map fun (t, j) =>
        let key := low + Int32.ofNat j
        s!"; {key}: " ++ target t) ++
      "; default: " ++ target otherwise ++ " \x7d"
  | .lookup otherwise keys targets =>
    " \x7b" ++ String.join ((keys.zip targets).map fun (k, t) => s!" {k}: " ++ target t ++ ";") ++
      " default: " ++ target otherwise ++ " \x7d"
  | .none | .wide | .invalid => ""

/-- The line of an instruction, with its pool entry in words when the pool is
given. -/
def text (ins : Instruction) (pool : Option Pool) : String :=
  Text.padLeft 5 ' ' (toString ins.offset) ++ ": " ++ (if ins.wide then "wide " else "") ++
    ins.op.name ++ operandText ins.offset pool ins.operand

end Instruction

namespace ClassFile

/-- The line of an exception table row. -/
def handlerText (pool : Pool) (h : Handler) : String :=
  let caught := if h.catchType = 0 then "any" else (pool.className h.catchType).toOption.getD ""
  s!"  try [{h.start}, {h.stop}) -> {h.target} {caught}\n"

/-- The lines of a method, and the failure that cuts them short. -/
def methodListing (cf : ClassFile) (m : Member) : String × Option Error :=
  let title := m.name cf.pool ++ m.descriptor cf.pool ++ "\n"
  match m.body? with
  | none => (title, none)
  | some body =>
    let head := title ++
      s!"  stack={body.maxStack}, locals={body.maxLocals}, length={body.bytecode.length}\n"
    match Instruction.decodeAll body.bytecode with
    | .error e => (head, some (.within (.named (cf.memberText m)) e))
    | .ok instructions =>
      (head ++ String.join (instructions.map fun ins => "  " ++ ins.text cf.pool ++ "\n") ++
        String.join (body.handlers.map (handlerText cf.pool)), none)

/-- The lines of methods up to the first failure. -/
def listMethods (cf : ClassFile) : List Member → String × Option Error
  | [] => ("", none)
  | m :: rest =>
    match cf.methodListing m with
    | (text, some e) => (text, some e)
    | (text, none) =>
      let (more, failure) := cf.listMethods rest
      (text ++ more, failure)

/-- The listing of every method of a class, up to the first body that cannot
be decoded. -/
def listing (cf : ClassFile) : String × Option Error := cf.listMethods cf.methods

end ClassFile

end Cleartext
