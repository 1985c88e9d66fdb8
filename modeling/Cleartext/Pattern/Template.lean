import Cleartext.Class.Listing

/-!
# Templates

A template describes a sequence of instructions: which opcodes each accepts,
and what its operand must be.  An operand can be bound to a name, and every
later use of the name must have the same value.
-/

namespace Cleartext.Pattern

/-- The instructions that a step accepts. -/
inductive Family
  | exactly (op : Opcode)
  /-- A load of a local variable, in its general or in a short form. -/
  | load (op : Opcode)
  /-- Any push of an int. -/
  | pushInt
  /-- A load of a constant that takes one slot. -/
  | loadConstant
deriving DecidableEq, Repr

/-- The name of a family. -/
def Family.name : Family → String
  | .exactly op => op.name
  | .load op => op.name ++ "*"
  | .pushInt => "pushint"
  | .loadConstant => "ldc*"

/-- What an operand stands for. -/
inductive Meaning
  | constant (c : Loadable)
  | text (s : String)
  | ref (r : Ref)
deriving DecidableEq, Repr

/-- A meaning as a whole number, if it is one. -/
def Meaning.number? : Meaning → Option Int
  | .constant (.int v) => some v.toInt
  | .constant (.long v) => some v.toInt
  | _ => none

/-- Whether two meanings agree.  A text agrees with a string constant that
reads like it, whole numbers agree whatever their width, and floating point
numbers agree as numbers. -/
def Meaning.agrees : Meaning → Meaning → Bool
  | .text s, .constant (.string units) => units.text = s
  | .constant (.string units), .text s => units.text = s
  | .constant (.float a), .constant (.float b) => Float32.ofBits a == Float32.ofBits b
  | .constant (.double a), .constant (.double b) => Float.ofBits a == Float.ofBits b
  | a, b =>
    match a.number?, b.number? with
    | some x, some y => x = y
    | some _, none => false
    | _, _ => a = b

/-- A value that a name is bound to, with the pool index it came from; zero
when it came from none. -/
structure Binding where
  index : UInt16
  value : Meaning
deriving DecidableEq, Repr

/-- The names bound so far. -/
abbrev Bindings := List (String × Binding)

/-- What a step demands of an operand. -/
inductive Demand
  | any
  | oneOf (values : List Meaning)
  /-- Binds the operand to a name; with `stringOnly` it must be a string
  constant. -/
  | bind (name : String) (stringOnly : Bool)
  /-- A reference, by demands on its parts. -/
  | ref (owner name descriptor : Demand)
deriving Inhabited

/-- The demand for one value. -/
def Demand.exactly (v : Meaning) : Demand := .oneOf [v]

/-- The demand for one text. -/
def Demand.text (s : String) : Demand := .exactly (.text s)

/-- The demand for one method. -/
def Demand.method (owner name descriptor : String) : Demand :=
  .ref (.text owner) (.text name) (.text descriptor)

/-- Whether nothing is demanded. -/
def Demand.isAny : Demand → Bool
  | .any => true
  | _ => false

/-- Whether a meaning is a string constant. -/
def Meaning.isString : Meaning → Bool
  | .constant (.string _) => true
  | _ => false

/-- Checks an operand: the bindings after it, or nothing when it does not
meet the demand. -/
def Demand.check (index : UInt16) (value : Meaning) (bound : Bindings) : Demand → Option Bindings
  | .any => some bound
  | .oneOf values => if values.any (·.agrees value) then some bound else none
  | .bind name stringOnly =>
    if stringOnly && !value.isString then none
    else match bound.lookup name with
      | some b => if b.value.agrees value then some bound else none
      | none => some (bound ++ [(name, ⟨index, value⟩)])
  | .ref owner name descriptor =>
    match value with
    | .ref r => do
      let bound ← owner.check index (.text r.owner) bound
      let bound ← name.check index (.text r.name) bound
      descriptor.check index (.text r.descriptor) bound
    | _ => none

/-- A step of a template. -/
structure Step where
  family : Family
  demand : Demand := .any

/-- A sequence of steps. -/
structure Template where
  name : String
  steps : List Step

/-- A template in words. -/
def Template.text (t : Template) : String :=
  t.name ++ "[" ++ " ".intercalate (t.steps.map fun s => s.family.name) ++ "]"

end Cleartext.Pattern
