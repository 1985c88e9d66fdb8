import Cleartext.Machine.Call

/-!
# Instructions at work

What every instruction does to the frame and to the state of the run.
Instructions are taken by families of neighbouring opcodes; `Step.run` is the
one that knows them all.
-/

namespace Cleartext

/-- Whether an opcode lies between two others, both included. -/
def Opcode.isWithin (op first last : Opcode) : Bool :=
  first.code ≤ op.code && op.code ≤ last.code

namespace Machine.Step

/-! ## Constants and variables -/

/-- Pushes the constant that an opcode stands for. -/
def pushConstant : Opcode → Step Unit
  | .aconstNull => push .null
  | .iconstM1 => push (.int (-1))
  | .iconst0 => push (.int 0)
  | .iconst1 => push (.int 1)
  | .iconst2 => push (.int 2)
  | .iconst3 => push (.int 3)
  | .iconst4 => push (.int 4)
  | .iconst5 => push (.int 5)
  | .lconst0 => push (.long 0)
  | .lconst1 => push (.long 1)
  | .fconst0 => pushFloat 0
  | .fconst1 => pushFloat 1
  | .fconst2 => pushFloat 2
  | .dconst0 => pushDouble 0
  | .dconst1 => pushDouble 1
  | _ => return

/-- Pushes a constant of the pool. -/
def loadConstant (index : UInt16) : Step Unit := do
  let v ← lookup ((← read).program.cf.pool.value index)
  push (← ofLoadable v)

/-- Pops a value into a local variable. -/
def storeLocal (op : Opcode) (slot : UInt16) : Step Unit := do
  match op with
  | .istore => store slot (.int (← popInt))
  | .lstore => store slot (.long (← popLong))
  | .fstore => store slot (.float (← popFloat).toBits)
  | .dstore => store slot (.double (← popDouble).toBits)
  | _ => store slot (← popRef)

/-- Adds to an int in a local variable. -/
def increment (slot : UInt16) (delta : Int32) : Step Unit := do
  match ← load slot with
  | .int v => store slot (.int (v + delta))
  | _ => misuse .incrementOfOther

/-! ## Arrays -/

/-- The number of an array and its element at a position. -/
def element (v : Value) (i : Int32) : Run (Nat × Value) := do
  match v with
  | .null => throwNull
  | .ref id =>
    match ← object? id with
    | some (.array _ elements) =>
      match (if i < 0 then none else elements[i.toInt.toNat]?) with
      | some x => return (id, x)
      | none =>
        throwNew "java/lang/ArrayIndexOutOfBoundsException"
          s!"Index {i} out of bounds for length {elements.size}"
    | _ => unsupported (.arrayAccess (← kindName v))
  | _ => unsupported (.arrayAccess (← kindName v))

/-- An int cut to the width of an array's component type. -/
def narrow (component : String) (v : Value) : Value :=
  match v with
  | .int n =>
    match component with
    | "Z" => .int (n &&& 1)
    | "B" => .int n.toInt8.toInt32
    | "C" => .int n.toUInt32.toUInt16.toUInt32.toInt32
    | "S" => .int n.toInt16.toInt32
    | _ => .int n
  | v => v

/-- Pushes an element of an array. -/
def loadElement : Step Unit := do
  let i ← popInt
  let (_, v) ← element (← popRef) i
  push v

/-- Pops a value into an element of an array. -/
def storeElement : Step Unit := do
  let v ← pop
  let i ← popInt
  let (id, _) ← element (← popRef) i
  update id fun
    | .array component elements =>
      .array component (elements.setIfInBounds i.toInt.toNat (narrow component v))
    | o => o

/-- The type that the code of a primitive array stands for. -/
def primitiveType? (code : UInt8) : Option String :=
  [(4, "Z"), (5, "C"), (6, "F"), (7, "D"), (8, "B"), (9, "S"), (10, "I"), (11, "J")].lookup code

/-- The exception for an array of negative length. -/
def throwNegativeSize {α : Type} (n : Int32) : Run α :=
  throwNew "java/lang/NegativeArraySizeException" (toString n.toInt)

/-- A new array of a component type. -/
def newArray (component : String) (n : Nat) : Run Value :=
  new (.array component (Array.replicate n (Value.zero component)))

/-- Pushes a new array of a primitive type. -/
def newPrimitiveArray (code : UInt8) : Step Unit := do
  let n ← popInt
  if n < 0 then throwNegativeSize n
  match primitiveType? code with
  | some type => push (← newArray type n.toInt.toNat)
  | none => misuse (.arrayType code)

/-- The type of the elements of an array of a class or array type. -/
def elementType (name : String) : String :=
  if name.startsWith "[" then name else "L" ++ name ++ ";"

/-- The name of the class at an index. -/
def classAt (index : UInt16) : Step String := do
  lookup ((← read).program.cf.pool.className index)

/-- Pushes a new array of references. -/
def newReferenceArray (index : UInt16) : Step Unit := do
  let name ← classAt index
  let n ← popInt
  if n < 0 then throwNegativeSize n
  push (← newArray (elementType name) n.toInt.toNat)

/-- A new array of arrays with the given lengths. -/
def newNested : List Nat → List Char → Run Value
  | _, [] | [], _ => collapse
  | [n], _ :: component => newArray (String.ofList component) n
  | n :: counts, _ :: component => do
    let elements ← (List.replicate n ()).mapM fun _ => newNested counts component
    new (.array (String.ofList component) elements.toArray)

/-- The lengths of the dimensions of an array. -/
def dimensions : List Value → Step (List Nat)
  | [] => return []
  | .int n :: rest => do
    if n < 0 then throwNegativeSize n
    return n.toInt.toNat :: (← dimensions rest)
  | v :: _ => do misuse (.dimension (← kindName v))

/-- Pushes a new array of several dimensions. -/
def newMultiArray (index : UInt16) (count : UInt8) : Step Unit := do
  let name ← classAt index
  let counts ← dimensions (← popValues count.toNat)
  push (← newNested counts name.toList)

/-- Pushes the length of an array. -/
def arrayLength : Step Unit := do
  let v ← popRef
  match v with
  | .null => throwNull
  | v =>
    match ← deref? v with
    | some (.array _ elements) => push (.int (Int32.ofNat elements.size))
    | _ => misuse (.lengthOf (← kindName v))

/-! ## The operand stack -/

/-- Works on the operand stack alone. -/
def shuffle : Opcode → Step Unit
  | .pop => reshape (Stack.drop 1)
  | .pop2 => reshape (Stack.drop 2)
  | .dup => reshape (Stack.dup 1 0)
  | .dupX1 => reshape (Stack.dup 1 1)
  | .dupX2 => reshape (Stack.dup 1 2)
  | .dup2 => reshape (Stack.dup 2 0)
  | .dup2X1 => reshape (Stack.dup 2 1)
  | .dup2X2 => reshape (Stack.dup 2 2)
  | _ => do
    let b ← pop
    let a ← pop
    push b
    push a

/-! ## Arithmetic -/

/-- The answer of a division. -/
def quotient {α : Type} : Option α → Run α
  | some a => return a
  | none => throwNew "java/lang/ArithmeticException" "/ by zero"

/-- A binary operation on ints. -/
def intArithmetic (op : Opcode) : Step Unit := do
  let b ← popInt
  let a ← popInt
  push (.int (← quotient (intOp op a b)))

/-- A binary operation on longs. -/
def longArithmetic (op : Opcode) : Step Unit := do
  let b ← popLong
  let a ← popLong
  push (.long (← quotient (longOp op a b)))

/-- A shift of a long. -/
def shiftLong (op : Opcode) : Step Unit := do
  let distance ← popInt
  let a ← popLong
  push (.long (longShift op a distance))

/-- A binary operation on floats. -/
def floatArithmetic (op : Opcode) : Step Unit := do
  let b ← popFloat
  let a ← popFloat
  pushFloat (floatOp op a b)

/-- A binary operation on doubles. -/
def doubleArithmetic (op : Opcode) : Step Unit := do
  let b ← popDouble
  let a ← popDouble
  pushDouble (doubleOp op a b)

/-- A binary or unary operation; the opcodes go round the four kinds of
numbers, except for the shifts and the bitwise operations, which are on whole
numbers only. -/
def arithmetic (op : Opcode) : Step Unit := do
  match op with
  | .ineg => push (.int (-(← popInt)))
  | .lneg => push (.long (-(← popLong)))
  | .fneg => pushFloat (-(← popFloat))
  | .dneg => pushDouble (-(← popDouble))
  | .lshl | .lshr | .lushr => shiftLong op
  | op =>
    if op.isWithin .ishl .lxor then
      if op.code % 2 = 0 then intArithmetic op else longArithmetic op
    else
      match op.code % 4 with
      | 0 => intArithmetic op
      | 1 => longArithmetic op
      | 2 => floatArithmetic op
      | _ => doubleArithmetic op

/-- Turns a number into one of another kind. -/
def convert (op : Opcode) : Step Unit := do
  match op with
  | .i2l => push (.long (← popInt).toInt64)
  | .i2f => pushFloat (← popInt).toFloat32
  | .i2d => pushDouble (← popInt).toFloat
  | .l2i => push (.int (← popLong).toInt32)
  | .l2f => pushFloat (← popLong).toFloat32
  | .l2d => pushDouble (← popLong).toFloat
  | .f2i => push (.int (← popFloat).toInt32)
  | .f2l => push (.long (← popFloat).toInt64)
  | .f2d => pushDouble (← popFloat).toFloat
  | .d2i => push (.int (← popDouble).toInt32)
  | .d2l => push (.long (← popDouble).toInt64)
  | .d2f => pushFloat (← popDouble).toFloat32
  | .i2b => push (.int (← popInt).toInt8.toInt32)
  | .i2c => push (.int (← popInt).toUInt32.toUInt16.toUInt32.toInt32)
  | _ => push (.int (← popInt).toInt16.toInt32)

/-- Compares two numbers. -/
def compareNumbers (op : Opcode) : Step Unit := do
  match op with
  | .lcmp =>
    let b ← popLong
    let a ← popLong
    push (.int (compareInt a.toInt b.toInt))
  | .fcmpl | .fcmpg =>
    let b ← popFloat
    let a ← popFloat
    push (.int (compareDouble a.toFloat b.toFloat (if op = .fcmpg then 1 else -1)))
  | _ =>
    let b ← popDouble
    let a ← popDouble
    push (.int (compareDouble a b (if op = .dcmpg then 1 else -1)))

/-! ## Branches -/

/-- Whether the `n`-th of equal, unequal, less, not less, greater and not
greater holds of a comparison. -/
def holds (n : UInt8) (comparison : Int32) : Bool :=
  match n with
  | 0 => comparison = 0
  | 1 => comparison ≠ 0
  | 2 => comparison < 0
  | 3 => 0 ≤ comparison
  | 4 => 0 < comparison
  | _ => comparison ≤ 0

/-- Whether a conditional branch is taken. -/
def isTaken (op : Opcode) : Step Bool := do
  if op.isWithin .ifeq .ifle then
    return holds (op.code - Opcode.ifeq.code) (compareInt (← popInt).toInt 0)
  else if op.isWithin .ifIcmpeq .ifIcmple then
    let b ← popInt
    let a ← popInt
    return holds (op.code - Opcode.ifIcmpeq.code) (compareInt a.toInt b.toInt)
  else if op.isWithin .ifAcmpeq .ifAcmpne then
    let b ← popRef
    let a ← popRef
    return (a.same b) = (op = Opcode.ifAcmpeq)
  else
    let v ← popRef
    return (v = .null) = (op = Opcode.ifnull)

/-! ## Objects -/

/-- The fields of a new instance of the interpreted class. -/
def newFields (cf : ClassFile) : List (String × Value) :=
  cf.fields.foldl (fun fields m =>
    if m.isStatic then fields
    else setNamed (m.name cf.pool) (Value.zero (m.descriptor cf.pool)) fields) []

/-- A new instance of a class. -/
def newInstance (cls : String) : Run Value := do
  let program := (← read).program
  if cls = program.name then new (.instance cls (some (newFields program.cf)) .none)
  else if cls = "java/lang/String" then new (.string [])
  else if cls = topClass || (librarySupers.lookup cls).isSome then newHidden cls .none
  else unsupported (.libraryClass cls)

/-- Throws the popped object. -/
def throwObject : Step Unit := do
  let v ← popRef
  match v with
  | .null => throwNull
  | .ref id =>
    match ← object? id with
    | some (.instance cls _ _) =>
      if ← instanceOf v "java/lang/Throwable" then throw (.thrown id)
      else misuse (.throwOf cls)
    | _ => misuse (.throwOf (← kindName v))
  | v => misuse (.throwOf (← kindName v))

/-- Pushes whether the popped object is an instance of a class. -/
def testInstance (index : UInt16) : Step Unit := do
  let name ← classAt index
  let v ← popRef
  let answer ← if v = .null then pure false else instanceOf v name
  push (truth answer)

/-- Checks that the topmost object is null or an instance of a class. -/
def checkCast (index : UInt16) : Step Unit := do
  let name ← classAt index
  let v ← popRef
  let good ← if v = .null then pure true else instanceOf v name
  unless good do
    throwNew "java/lang/ClassCastException"
      s!"{← Machine.className v} cannot be cast to {externalName name}"
  push v

/-- Pops the object of a monitor. -/
def useMonitor : Step Unit := do
  if (← popRef) = .null then throwNull

/-- Access to fields, creation and tests of objects. -/
def objects (ins : Instruction) : Step Unit :=
  let index := ins.operand.index
  match ins.op with
  | .getstatic => getStatic index
  | .putstatic => putStatic index
  | .getfield => getField index
  | .putfield => putField index
  | .invokedynamic => invokeDynamic index
  | .new => do push (← newInstance (← classAt index))
  | .newarray => newPrimitiveArray ins.operand.arrayCode
  | .anewarray => newReferenceArray index
  | .multianewarray => newMultiArray index ins.operand.dimensionCount
  | .arraylength => arrayLength
  | .athrow => throwObject
  | .checkcast => checkCast index
  | .instanceof => testInstance index
  | .monitorenter | .monitorexit => useMonitor
  | op => unsupported (.opcode op)

/-! ## All instructions -/

/-- The address that a local variable holds. -/
def returnAddress (slot : UInt16) : Step Int := do
  match ← load slot with
  | .address pc => return pc
  | _ => misuse .returnThroughOther

/-- Does what an instruction says. -/
def run (ins : Instruction) : Step Outcome := do
  let (op, slot) := ins.op.expand?.getD (ins.op, ins.operand.local_)
  let next : Int := ins.next
  let jump (distance : Int32) : Int := ins.offset + distance.toInt
  let go (s : Step Unit) : Step Outcome := do
    s
    return .next next
  if op.isWithin .nop .dconst1 then go (pushConstant op)
  else if op.isWithin .bipush .sipush then go (push (.int ins.operand.immediate))
  else if op.isWithin .ldc .ldc2W then go (loadConstant ins.operand.index)
  else if op.isWithin .iload .aload then go (do push (← load slot))
  else if op.isWithin .iaload .saload then go loadElement
  else if op.isWithin .istore .astore then go (storeLocal op slot)
  else if op.isWithin .iastore .sastore then go storeElement
  else if op.isWithin .pop .swap then go (shuffle op)
  else if op.isWithin .iadd .lxor then go (arithmetic op)
  else if op = .iinc then go (increment slot ins.operand.immediate)
  else if op.isWithin .i2l .i2s then go (convert op)
  else if op.isWithin .lcmp .dcmpg then go (compareNumbers op)
  else if op.isWithin .ifeq .ifAcmpne || op.isWithin .ifnull .ifnonnull then
    return .next (if ← isTaken op then jump ins.operand.distance else next)
  else if op = .goto || op = .gotoW then return .next (jump ins.operand.distance)
  else if op = .jsr || op = .jsrW then
    push (.address ins.next)
    return .next (jump ins.operand.distance)
  else if op = .ret then return .next (← returnAddress slot)
  else if op.isSwitch then return .next (jump (ins.operand.select (← popInt)))
  else if op = .returnVoid then return .finish .null
  else if op.isReturn then return .finish (← pop)
  else if op.isWithin .invokevirtual .invokeinterface then
    invoke ins.operand.index (op = .invokestatic) (op = .invokevirtual || op = .invokeinterface) next
  else go (objects ins)

end Machine.Step

end Cleartext
