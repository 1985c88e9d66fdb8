import Cleartext.Class.File

/-!
# Building classes

Making a class from nothing and adding members to it.  A step that fails
leaves the constants that it had already added in the pool.
-/

namespace Cleartext.ClassFile

/-- A class edit: a computation on a class that stops at the first failure
and keeps what was done before it. -/
abbrev Build := ExceptT Error (StateM ClassFile)

namespace Build

/-- Runs a pool edit on the pool of the class. -/
def pool {α : Type} (e : Pool.Edit α) : Build α := do
  let cf ← get
  let (result, pool) := cf.pool.edit e
  set { cf with pool }
  match result with
  | .ok a => return a
  | .error e => throw e

/-- Makes a member that is not yet part of the class. -/
def newMember (access : UInt16) (name descriptor : String) : Build Member := do
  let nameIndex ← pool (Pool.Edit.text name)
  let descriptorIndex ← pool (Pool.Edit.text descriptor)
  return { access, nameIndex, descriptorIndex, attributes := [] }

/-- Appends a field. -/
def addField (access : UInt16) (name descriptor : String) : Build Member := do
  let m ← newMember access name descriptor
  modify fun cf => { cf with fields := cf.fields ++ [m] }
  return m

/-- Appends a method, which has no body when it is abstract or native. -/
def addMethod (access : UInt16) (name descriptor : String) (body : Option MethodBody) :
    Build Member := do
  let m ← newMember access name descriptor
  let m ← match body with
    | none => pure m
    | some body => do
      let i ← pool (Pool.Edit.text "Code")
      pure { m with attributes := [.code i "Code" body] }
  modify fun cf => { cf with methods := cf.methods ++ [m] }
  return m

/-- Makes an attribute whose name is in the pool. -/
def newAttribute (name : String) (info : Bytes) : Build Attribute := do
  return .raw (← pool (Pool.Edit.text name)) name info

end Build

/-- A public class without members.  An empty superclass name stands for
none. -/
def new (name superName : String) : Except Error ClassFile :=
  let blank : ClassFile :=
    { minor := 0, major := 52, pool := Pool.empty, access := 0x0021, thisClass := 0,
      superClass := 0, interfaces := [], fields := [], methods := [], attributes := [] }
  let build : Build Unit := do
    let i ← Build.pool (Pool.Edit.class_ name)
    modify fun cf => { cf with thisClass := i }
    if superName ≠ "" then
      let i ← Build.pool (Pool.Edit.class_ superName)
      modify fun cf => { cf with superClass := i }
  match build.run.run blank with
  | (.ok (), cf) => .ok cf
  | (.error e, _) => .error e

/-- A method body made of instructions. -/
def newBody (maxStack maxLocals : UInt16) (instructions : List Instruction) :
    Except Error MethodBody := do
  let (_, bytecode) ← Instruction.assemble instructions
  return { maxStack, maxLocals, bytecode, handlers := [], attributes := [] }

end Cleartext.ClassFile
