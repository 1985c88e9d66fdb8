import Cleartext.Class.File
import Cleartext.Class.Layout

/-!
# References into the pool

Every constant pool index that a class holds outside its pool: of the class
itself, its members, attributes, exception tables and instructions.
`ClassFile.changeReferences` passes each of them, in a fixed order, to a
change and puts the answer in its place.  An index of zero stands for nothing
and stays.
-/

namespace Cleartext

open Layout (Change)

variable {σ : Type}

/-- Changes an index that may be zero. -/
def changeIndex (f : UInt16 → Change σ UInt16) (i : UInt16) : Change σ UInt16 :=
  if i = 0 then return 0 else f i

/-- Changes the pool operands of instructions; `code` holds their bytes. -/
def changeOperands (f : UInt16 → Change σ UInt16) : List Instruction → Bytes → Change σ Bytes
  | [], code => return code
  | ins :: rest, code => do
    let (own, code) := code.splitAt ins.size
    let own ← match ins.operand.index? with
      | none => pure own
      | some i => do
        let x ← (f i).explain fun e => .within (.instruction ins.op ins.offset) e
        if ins.op.shape = .pool8 then
          if 255 < x then throw (.operandRange (.poolIndexAt x ins.offset))
          pure (Bytes.overwrite own 1 [x.toUInt8])
        else pure (Bytes.overwrite own 1 (Bytes.ofU16 x))
    return own ++ (← changeOperands f rest code)

/-- Changes the pool operands of a code region; no instruction moves. -/
def changeCode (f : UInt16 → Change σ UInt16) (code : Bytes) : Change σ Bytes := do
  match Instruction.decodeAll code with
  | .error e => throw e
  | .ok instructions => changeOperands f instructions code

/-- Changes the references in the body of an attribute. -/
def changeInfo (pool : Pool) (f : UInt16 → Change σ UInt16) (name : String) (info : Bytes) :
    Change σ Bytes :=
  Layout.rewrite pool name (fun site info =>
    match site.kind with
    | .reference => Bytes.ofU16 <$> f (info.u16At site.position)
    | _ => return []) info

mutual

/-- Changes the references of an attribute. -/
def Attribute.changeReferences (pool : Pool) (f : UInt16 → Change σ UInt16) :
    Attribute → Change σ Attribute
  | .raw i name info => do
    let i ← changeIndex f i
    return .raw i name (← changeInfo pool f name info)
  | .code i name ⟨maxStack, maxLocals, bytecode, handlers, attributes⟩ => do
    let i ← changeIndex f i
    let bytecode ← changeCode f bytecode
    let handlers ← handlers.mapM fun h => return { h with catchType := ← changeIndex f h.catchType }
    let attributes ← Attribute.changeAll pool f attributes
    return .code i name ⟨maxStack, maxLocals, bytecode, handlers, attributes⟩

/-- Changes the references of attributes one after another. -/
def Attribute.changeAll (pool : Pool) (f : UInt16 → Change σ UInt16) :
    List Attribute → Change σ (List Attribute)
  | [] => return []
  | a :: rest => do
    let a ← a.changeReferences pool f
    return a :: (← Attribute.changeAll pool f rest)

end

/-- Changes the references of a member. -/
def Member.changeReferences (pool : Pool) (f : UInt16 → Change σ UInt16) (m : Member) :
    Change σ Member := do
  let nameIndex ← changeIndex f m.nameIndex
  let descriptorIndex ← changeIndex f m.descriptorIndex
  let attributes ← Attribute.changeAll pool f m.attributes
  return { m with nameIndex, descriptorIndex, attributes }

/-- Changes the references of a class outside its pool. -/
def ClassFile.changeReferences (f : UInt16 → Change σ UInt16) (cf : ClassFile) :
    Change σ ClassFile := do
  let thisClass ← changeIndex f cf.thisClass
  let superClass ← changeIndex f cf.superClass
  let interfaces ← cf.interfaces.mapM (changeIndex f)
  let fields ← cf.fields.mapM (·.changeReferences cf.pool f)
  let methods ← cf.methods.mapM (·.changeReferences cf.pool f)
  let attributes ← Attribute.changeAll cf.pool f cf.attributes
  return { cf with thisClass, superClass, interfaces, fields, methods, attributes }

end Cleartext
