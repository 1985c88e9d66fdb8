import Cleartext.Descriptor
import Cleartext.Machine.Frame
import Cleartext.Machine.Library

/-!
# Fields and calls

Access to the fields of the interpreted class, calls of its methods and of
library methods, and the concatenation of strings by `invokedynamic`.
-/

namespace Cleartext.Machine

/-- What an instruction leads to. -/
inductive Outcome
  /-- The method goes on at an offset. -/
  | next (pc : Int)
  /-- The method returns a value. -/
  | finish (v : Value)
  /-- The method calls another one; `returns` tells whether the caller wants
  its value. -/
  | enter (routine : Routine) (args : List Value) (returns : Bool)

namespace Step

/-- Takes the answer of a lookup. -/
def lookup {α : Type} (answer : Except Error α) : Step α := Machine.lift answer

/-! ## Fields -/

/-- The instance whose fields are accessed, with its fields. -/
def fieldOwner (v : Value) : Run (Nat × List (String × Value)) := do
  match v with
  | .null => throwNull
  | .ref id =>
    match ← object? id with
    | some (.instance _ (some fields) _) => return (id, fields)
    | _ => unsupported (.fieldAccess (← Machine.className v))
  | _ => unsupported (.fieldAccess (← Machine.className v))

/-- The reference to a field of the interpreted class. -/
def fieldRef (index : UInt16) : Step Ref := do
  let program := (← read).program
  let ref ← lookup (program.cf.pool.ref index)
  if ref.owner ≠ program.name then unsupported (.foreignField ref.text)
  return ref

/-- Pushes a static field. -/
def getStatic (index : UInt16) : Step Unit := do
  let ref ← fieldRef index
  match named? (← getThe World).statics ref.name with
  | some v => push v
  | none => unsupported (.noStaticField ref.text)

/-- Pops a value into a static field. -/
def putStatic (index : UInt16) : Step Unit := do
  let ref ← fieldRef index
  let v ← pop
  modifyThe World fun w => { w with statics := setNamed ref.name v w.statics }

/-- Pushes a field of an instance. -/
def getField (index : UInt16) : Step Unit := do
  let ref ← fieldRef index
  let (_, fields) ← fieldOwner (← popRef)
  push ((named? fields ref.name).getD .null)

/-- Pops a value into a field of an instance. -/
def putField (index : UInt16) : Step Unit := do
  let ref ← fieldRef index
  let v ← pop
  let (id, fields) ← fieldOwner (← popRef)
  update id fun
    | .instance cls _ hidden => .instance cls (some (setNamed ref.name v fields)) hidden
    | o => o

/-! ## Calls -/

/-- Calls a method.  `isStatic` says that the call has no receiver, and
`isVirtual` that the class of the receiver decides which method is meant. -/
def invoke (index : UInt16) (isStatic isVirtual : Bool) (next : Int) : Step Outcome := do
  let program := (← read).program
  let ref ← lookup (program.cf.pool.ref index)
  let descriptor ← lookup (Descriptor.parse ref.descriptor)
  let args ← popValues (descriptor.params.length + if isStatic then 0 else 1)
  if !isStatic && args.head? = some .null then
    throwNew "java/lang/NullPointerException"
      s!"calling {externalName ref.owner}.{ref.name} on null"
  let owner ← if isVirtual then runtimeClass (args.headD .null) else pure ref.owner
  let returns := descriptor.result ≠ "V"
  let interpreted :=
    if owner = program.name then program.routine? ref.name ref.descriptor else none
  match interpreted with
  | some routine => return .enter routine args returns
  | none =>
    match Library.method? program.lineage owner ref with
    | none => unsupported (.libraryMethod ref.text)
    | some method =>
      let v ← method args
      if returns then push v
      return .next next

/-! ## Concatenation -/

/-- The class whose bootstrap methods are understood. -/
def concatFactory : String := "java/lang/invoke/StringConcatFactory"

/-- The word at a position of the bootstrap methods. -/
def bootstrapWord (info : Bytes) (pos : Nat) : Except Error UInt16 :=
  match info.drop pos with
  | a :: b :: _ => .ok (Bytes.toU16 a b)
  | _ => .error (.malformed .truncatedBootstraps)

/-- The position of the bootstrap method that stands `skip` behind the one at
`pos`. -/
def bootstrapPosition (info : Bytes) : Nat → Nat → Except Error Nat
  | 0, pos => do
    let _ ← bootstrapWord info pos
    let _ ← bootstrapWord info (pos + 2)
    return pos
  | skip + 1, pos => do
    let _ ← bootstrapWord info pos
    let n ← bootstrapWord info (pos + 2)
    bootstrapPosition info skip (pos + 4 + 2 * n.toNat)

/-- The reference and the arguments of a bootstrap method. -/
def bootstrap (cf : ClassFile) (index : UInt16) : Except Error (Ref × List UInt16) := do
  match Attribute.find? cf.attributes "BootstrapMethods" with
  | none => .error (.malformed .noBootstraps)
  | some a =>
    let info := a.info
    let count ← bootstrapWord info 0
    if count ≤ index then throw (.badIndex (.bootstrap index count))
    let pos ← bootstrapPosition info index.toNat 2
    let handle ← bootstrapWord info pos
    let n ← bootstrapWord info (pos + 2)
    let args ← (List.range n.toNat).mapM fun k => bootstrapWord info (pos + 4 + 2 * k)
    match ← cf.pool.get handle with
    | .methodHandle _ reference => return (← cf.pool.ref reference, args)
    | c => throw (.badIndex (.notHandle handle c.tag))

/-- Fills a recipe: unit one stands for the next of the values, each with its
type, unit two for the next of the constants, and any other unit for itself. -/
def fillRecipe (pool : Pool) :
    Units → List (Value × String) → List UInt16 → Run Units
  | [], _, _ => return []
  | u :: recipe, values, constants => do
    if u = 1 then
      match values with
      | [] => throw (.failure (.malformed .recipeArguments))
      | (v, type) :: values =>
        let text ← unitsOf v type
        return text ++ (← fillRecipe pool recipe values constants)
    else if u = 2 then
      match constants with
      | [] => throw (.failure (.malformed .recipeConstants))
      | index :: constants =>
        let text ← unitsOf (← ofLoadable (← Machine.lift (pool.value index))) ""
        return text ++ (← fillRecipe pool recipe values constants)
    else return u :: (← fillRecipe pool recipe values constants)

/-- Concatenates values into a string. -/
def invokeDynamic (index : UInt16) : Step Unit := do
  let cf := (← read).program.cf
  match ← lookup (cf.pool.get index) with
  | .invokeDynamic method nameAndType =>
    let (name, descriptor) ← lookup (cf.pool.nameAndType nameAndType)
    let (ref, args) ← lookup (bootstrap cf method)
    unless ref.owner = concatFactory &&
        (ref.name = "makeConcatWithConstants" || ref.name = "makeConcat") do
      unsupported (.bootstrap ref.text)
    let descriptor ← lookup (Descriptor.parse descriptor)
    let values ← popValues descriptor.params.length
    let (recipe, constants) ←
      if ref.name = "makeConcat" then pure (values.map fun _ => (1 : UInt16), args)
      else match args with
        | [] => throw (.failure (.malformed (.noRecipe name)))
        | first :: constants => do pure (← lookup (cf.pool.stringUnits first), constants)
    let text ← fillRecipe cf.pool recipe (values.zip descriptor.params) constants
    push (← newUnits text)
  | _ => throw (.failure (.badIndex (.notCallSite index)))

end Step

end Cleartext.Machine
