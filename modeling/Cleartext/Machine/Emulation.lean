import Cleartext.Class.Listing
import Cleartext.Machine.Step

/-!
# Emulations

Running a method of a class.  The machine executes one instruction at a time
on the innermost frame.  The number of instructions left is the argument that
gets smaller, so every run ends; no handler of the interpreted code sees that
the budget is spent.

A run that fails is blamed on the first frame in which a failure or an
exception found no handler.
-/

namespace Cleartext.Machine

/-- A frame that waits for a call. -/
structure Caller where
  frame : Frame
  /-- Where it goes on. -/
  next : Int
  /-- Whether it wants the value of the call. -/
  returns : Bool

/-- An instruction that was executed: the method, the number of frames and of
values on the operand stack, and the instruction in words. -/
structure TraceLine where
  method : String
  depth : Nat
  stack : Nat
  text : String
deriving DecidableEq, Repr

/-- How far a run has come. -/
structure Progress where
  /-- The number of instructions charged. -/
  steps : Nat := 0
  /-- The method and the offset that a failure is blamed on. -/
  blame : Option (String × Int) := none
  /-- The executed instructions, the last one first. -/
  trace : List TraceLine := []
  world : World := {}

/-- A class, its configuration, and whether the run is to be cancelled. -/
structure Plan where
  program : Program
  config : Config
  cancelled : Bool := false

namespace Progress

/-- Blames a frame unless another one is blamed already. -/
def blaming (p : Progress) (f : Frame) : Progress :=
  { p with blame := p.blame.orElse fun _ => some (f.routine.name, f.pc) }

end Progress

/-- Whether a row of an exception table covers an offset. -/
def handlerCovers (h : Handler) (pc : Int) : Bool :=
  (h.start.toNat : Int) ≤ pc && pc < h.stop.toNat

/-- The offset of the first handler that covers `pc` and catches objects of
the class `cls`. -/
def handler? (program : Program) (handlers : List Handler) (pc : Int) (cls : String) :
    Option UInt16 :=
  (handlers.find? fun h =>
    handlerCovers h pc && (h.catchType == 0 ||
      match program.cf.pool.className h.catchType with
      | .ok name => program.lineage.assignable cls name
      | .error _ => false)).map (·.target)

/-- The frame at the start of its handler for an object of the class `cls`, if
it has one. -/
def Frame.catching? (program : Program) (id : Nat) (cls : String) (f : Frame) : Option Frame :=
  (handler? program f.routine.body.handlers f.pc cls).map fun target =>
    { f with stack := [.ref id], pc := target.toNat }

/-- The frame that goes on when an object of the class `cls` finds no handler
in the innermost frame, with its callers; none when nobody catches it. -/
def catcher? (program : Program) (id : Nat) (cls : String) :
    List Caller → Option (Frame × List Caller)
  | [] => none
  | c :: rest =>
    match c.frame.catching? program id cls with
    | some f => some (f, rest)
    | none => catcher? program id cls rest

/-- The class of a thrown object. -/
def thrownClass (w : World) (id : Nat) : String :=
  match w.heap[id]? with
  | some (.instance cls _ _) => cls
  | _ => topClass

namespace Plan

/-- The setting in which a frame runs. -/
def setting (plan : Plan) (f : Frame) : Setting :=
  { program := plan.program, config := plan.config, active := f.active }

/-- The failure of a method that is given more arguments than it has local
variables for. -/
def tooMany (plan : Plan) (r : Routine) : Error :=
  .malformed (.tooManyArguments (plan.program.name ++ "." ++ r.name ++ r.descriptor))

/-- Enters a method: its frame, or why there is none. -/
def enter (plan : Plan) (r : Routine) (args : List Value) (callers : List String) :
    Except Error Frame :=
  if plan.config.depthLimit ≤ callers.length then .error (.stackDepth plan.config.depthLimit)
  else match Frame.enter? r args callers with
    | some f => .ok f
    | none => .error (plan.tooMany r)

/-- The instruction that a frame has reached. -/
def fetch (f : Frame) : Except Error Instruction :=
  match (if f.pc < 0 then none else f.routine.decoded[f.pc.toNat]?) with
  | some ins => ins.get
  | none => .error (.malformed (.outsideCode f.pc))

/-- Whether a frame has run off its code. -/
def isOutside (f : Frame) : Bool := f.pc < 0 || (f.routine.length : Int) ≤ f.pc

/-- Notes an instruction when the run is traced. -/
def note (plan : Plan) (f : Frame) (ins : Instruction) (p : Progress) : Progress :=
  if plan.config.traced then
    let line := { method := f.routine.name, depth := f.depth, stack := f.stack.length
                  text := ins.text (some plan.program.cf.pool) }
    { p with trace := line :: p.trace }
  else p

/-- The number of instructions between two looks for a cancellation. -/
def interval : Nat := 1024

/-- Runs frames until the outermost one returns or the run is halted.
`budget` is the number of instructions left. -/
def execute (plan : Plan) : Nat → Frame → List Caller → Progress → Except Halt Value × Progress
  | budget, f, callers, p =>
    let failed (e : Error) (p : Progress) := (.error (.failure e), p.blaming f)
    if isOutside f then failed (.malformed (.outsideCode f.pc)) p
    else
      let p := { p with steps := p.steps + 1 }
      match budget with
      | 0 => failed (.stepLimit plan.config.stepLimit) p
      | budget + 1 =>
        if plan.cancelled && p.steps % interval = 0 then failed .timeout p
        else match fetch f with
        | .error e => failed e p
        | .ok ins =>
          let p := plan.note f ins p
          let setting := plan.setting f
          let ⟨steps, blame, trace, world⟩ := p
          let ((answer, f), world) := Step.run ins setting f world
          let p : Progress := ⟨steps, blame, trace, world⟩
          match answer with
          | .error (.collapse lack) => (.error (.collapse lack), p)
          | .error (.failure e) => (.error (.failure e), p.blaming f)
          | .error (.thrown id) =>
            let cls := thrownClass p.world id
            match f.catching? plan.program id cls with
            | some f => execute plan budget f callers p
            | none =>
              let p := p.blaming f
              match catcher? plan.program id cls callers with
              | some (f, callers) => execute plan budget f callers p
              | none => (.error (.thrown id), p)
          | .ok (.next pc) => execute plan budget { f with pc } callers p
          | .ok (.finish v) =>
            match callers with
            | [] => (.ok v, p)
            | c :: rest =>
              let f := c.frame
              let f := { f with pc := c.next, stack := if c.returns then v :: f.stack else f.stack }
              execute plan budget f rest p
          | .ok (.enter r args returns) =>
            match plan.enter r args f.active with
            | .error e => (.error (.failure e), p.blaming f)
            | .ok callee => execute plan budget callee (⟨f, ins.next, returns⟩ :: callers) p

/-- Runs a method. -/
def call (plan : Plan) (r : Routine) (args : List Value) (p : Progress) :
    Except Halt Value × Progress :=
  match plan.enter r args [] with
  | .error e => (.error (.failure e), p)
  | .ok f => plan.execute (plan.config.stepLimit - p.steps) f [] p

/-- Runs the class initializer, if there is one, and then a method. -/
def callInitialized (plan : Plan) (r : Routine) (args : List Value) (p : Progress) :
    Except Halt Value × Progress :=
  match plan.program.routine? "<clinit>" "()V" with
  | none => plan.call r args p
  | some init =>
    match plan.call init [] p with
    | (.error h, p) => (.error h, p)
    | (.ok _, p) => plan.call r args p

/-- The failure of a run, with the place it is blamed on. -/
def fault (plan : Plan) (p : Progress) (h : Halt) : Error :=
  let (method, pc) := p.blame.getD ("", 0)
  let (reason, cause) := match h with
    | .thrown id => (thrownText p.world id, Error.thrown)
    | .failure e => ("", e)
    | .collapse lack => ("", .unsupported lack)
  .fault plan.program.name method pc reason cause

end Plan

/-! ## Emulations -/

/-- A loaded class that can be run once. -/
structure Emulation where
  program : Program
  config : Config
  progress : Progress := {}
  spent : Bool := false

namespace Emulation

/-- The first value of a static field. -/
def initialValue (cf : ClassFile) (m : Member) : Except Error (Run Value) :=
  match Attribute.find? m.attributes "ConstantValue" with
  | some (.raw _ _ [a, b]) =>
    match cf.pool.value (Bytes.toU16 a b) with
    | .ok v => .ok (ofLoadable v)
    | .error e => .error (.within (.constantValue (m.name cf.pool)) e)
  | _ => .ok (return Value.zero (m.descriptor cf.pool))

/-- Gives the static fields their first values. -/
def initialWorld (program : Program) (config : Config) : World → List Member → Except Error World
  | w, [] => .ok w
  | w, m :: rest =>
    if m.isStatic then do
      let value ← initialValue program.cf m
      let (v, w) := value ⟨program, config, []⟩ w
      let v := v.toOption.getD .null
      let w := { w with statics := setNamed (m.name program.cf.pool) v w.statics }
      initialWorld program config w rest
    else initialWorld program config w rest

/-- Loads a class. -/
def load (cf : ClassFile) (config : Config) : Except Error Emulation := do
  let program := Program.of cf
  if program.name = "" then throw (.within (.named "emu") (.malformed .unnamedClass))
  let world ← initialWorld program config {} cf.fields
  return { program, config, progress := { world } }

/-- Releases an emulation: it cannot be run any more. -/
def close (em : Emulation) : Emulation := { em with spent := true }

/-- The number of instructions executed. -/
def steps (em : Emulation) : Nat := em.progress.steps

/-- Computes on the state of an emulation that does not run. -/
def prepare {α : Type} (em : Emulation) (r : Run α) : Except Halt α × Emulation :=
  let (answer, world) := r ⟨em.program, em.config, []⟩ em.progress.world
  (answer, { em with progress := { em.progress with world } })

/-- Runs the class initializer and then a static method.  An emulation can be
run once. -/
def invoke (em : Emulation) (name descriptor : String) (args : Run (List Value))
    (cancelled : Bool) : Except Error Value × Emulation :=
  if em.spent then (.error .spent, em)
  else
    let em := em.close
    let label := em.program.name ++ "." ++ name ++ descriptor
    match em.program.routine? name descriptor with
    | none => (.error (.noMethod label), em)
    | some r =>
      if !r.isStatic then (.error (.unsupported (.notStatic label)), em)
      else
        let (args, em) := em.prepare args
        let plan : Plan := { program := em.program, config := em.config, cancelled }
        let ⟨program, config, progress, spent⟩ := em
        let (answer, progress) := plan.callInitialized r (args.toOption.getD []) progress
        let em : Emulation := ⟨program, config, progress, spent⟩
        match answer with
        | .ok v => (.ok v, em)
        | .error h => (.error (plan.fault progress h), em)

end Emulation

end Cleartext.Machine
