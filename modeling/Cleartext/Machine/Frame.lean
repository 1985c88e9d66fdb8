import Cleartext.Machine.Stack
import Cleartext.Machine.World

/-!
# Frames

The activation of a method: its local variables, its operand stack and the
offset of the instruction it has reached.  A `Step` is a computation on a
frame and on the state of the run; when it halts, what was done to both stays
done.
-/

namespace Cleartext.Machine

/-- The activation of a method.  `active` names the methods on the call
stack, this one first. -/
structure Frame where
  routine : Routine
  locals : Array Value
  stack : Stack
  pc : Int
  active : List String

/-- A computation on a frame. -/
abbrev Step := ReaderT Setting (ExceptT Halt (StateT Frame (StateM World)))

/-- A computation on the state of the run leaves the frame as it is. -/
def Step.ofRun {α : Type} (r : Run α) : Step α := fun setting =>
  ExceptT.mk fun frame world =>
    let (answer, world) := r setting world
    ((answer, frame), world)

instance : MonadLift Run Step := ⟨Step.ofRun⟩

namespace Step

/-- Halts because the code misuses a value. -/
def misuse {α : Type} (m : Misuse) : Step α := do
  let f ← getThe Frame
  throw (.collapse (.verification f.pc m))

/-- Pushes a value. -/
def push (v : Value) : Step Unit := modifyThe Frame fun f => { f with stack := v :: f.stack }

/-- Replaces the operand stack. -/
def setStack (stack : Stack) : Step Unit := modifyThe Frame fun f => { f with stack }

/-- Pops a value. -/
def pop : Step Value := do
  match (← getThe Frame).stack with
  | [] => misuse .underflow
  | v :: rest =>
    setStack rest
    return v

/-- Pops values; they are given in the order in which they were pushed. -/
def popValues (n : Nat) : Step (List Value) := do
  match Stack.takeValues n (← getThe Frame).stack with
  | .error m => misuse m
  | .ok (values, rest) =>
    setStack rest
    return values

/-- Changes the operand stack as a whole. -/
def reshape (change : Stack → Except Misuse Stack) : Step Unit := do
  match change (← getThe Frame).stack with
  | .error m => misuse m
  | .ok stack => setStack stack

/-- Halts because a popped value is of another kind. -/
def wrongKind {α : Type} (expected : String) (v : Value) : Step α := do
  misuse (.wrongKind expected (← kindName v))

/-- Pops an int. -/
def popInt : Step Int32 := do
  match ← pop with
  | .int v => return v
  | v => wrongKind "int32" v

/-- Pops a long. -/
def popLong : Step Int64 := do
  match ← pop with
  | .long v => return v
  | v => wrongKind "int64" v

/-- Pops a float. -/
def popFloat : Step Float32 := do
  match ← pop with
  | .float bits => return Float32.ofBits bits
  | v => wrongKind "float32" v

/-- Pops a double. -/
def popDouble : Step Float := do
  match ← pop with
  | .double bits => return Float.ofBits bits
  | v => wrongKind "float64" v

/-- Pops a reference, null or a return address. -/
def popRef : Step Value := do
  let v ← pop
  match v with
  | .null | .ref _ | .address _ => return v
  | _ => misuse (.notReference (← kindName v))

/-- Pushes a float. -/
def pushFloat (v : Float32) : Step Unit := push (.float v.toBits)

/-- Pushes a double. -/
def pushDouble (v : Float) : Step Unit := push (.double v.toBits)

/-- The value of a local variable. -/
def load (slot : UInt16) : Step Value := do
  match (← getThe Frame).locals[slot.toNat]? with
  | some v => return v
  | none => misuse (.slotRange slot)

/-- Sets a local variable.  A wide value takes the next one too. -/
def store (slot : UInt16) (v : Value) : Step Unit := do
  let i := slot.toNat
  let size := (← getThe Frame).locals.size
  if size ≤ i || v.isWide && size ≤ i + 1 then misuse (.slotRange slot)
  modifyThe Frame fun f =>
    let locals := f.locals.setIfInBounds i v
    { f with locals := if v.isWide then locals.setIfInBounds (i + 1) .null else locals }

end Step

/-! ## Entering a method -/

/-- Puts arguments into local variables, from `slot` on; none when they do not
fit. -/
def placeArguments (slot : Nat) (locals : Array Value) : List Value → Option (Array Value)
  | [] => some locals
  | v :: rest =>
    if slot < locals.size then
      placeArguments (slot + if v.isWide then 2 else 1) (locals.setIfInBounds slot v) rest
    else none

/-- The frame of a method that is called with the given arguments; `callers`
names the methods on the call stack. -/
def Frame.enter? (routine : Routine) (args : List Value) (callers : List String) : Option Frame :=
  let size := max routine.body.maxLocals.toNat 1
  (placeArguments 0 (Array.replicate size .null) args).map fun locals =>
    { routine, locals, stack := [], pc := 0, active := routine.name :: callers }

/-- The number of methods on the call stack. -/
def Frame.depth (f : Frame) : Nat := f.active.length

end Cleartext.Machine
