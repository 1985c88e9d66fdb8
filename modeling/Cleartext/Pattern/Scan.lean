import Cleartext.Pattern.Template

/-!
# Scanning

Finding templates in a list of instructions.  At every position the templates
are tried in order and the first that matches wins; scanning goes on behind
the matched instructions.

An operand that names a pool entry of the wrong kind does not match, except
where a reference is looked for: there the scan has no answer.
-/

namespace Cleartext.Pattern

/-- A template found in a list of instructions. -/
structure Match where
  template : Template
  bindings : Bindings
  instructions : List Instruction

namespace Match

/-- The offset of the first instruction. -/
def start (m : Match) : Nat := (m.instructions.head?.map (·.offset)).getD 0

/-- The offset behind the last instruction. -/
def stop (m : Match) : Nat := (m.instructions.getLast?.map (·.next)).getD 0

/-- The value bound to a name. -/
def value? (m : Match) (name : String) : Option Meaning := (m.bindings.lookup name).map (·.value)

/-- The string constant bound to a name. -/
def units? (m : Match) (name : String) : Option Units :=
  match m.value? name with
  | some (.constant (.string units)) => some units
  | _ => none

/-- The text bound to a name. -/
def text? (m : Match) (name : String) : Option String :=
  match m.value? name with
  | some (.text s) => some s
  | some (.constant (.string units)) => some units.text
  | _ => none

end Match

/-- Whether an instruction belongs to a family. -/
def Family.accepts (pool : Pool) (ins : Instruction) : Family → Bool
  | .exactly op => ins.op = op
  | .load op => ins.op = op || (ins.op.expand?.map (·.1)) = some op
  | .pushInt => (ins.pushedInt? pool).isSome
  | .loadConstant => ins.op = .ldc || ins.op = .ldcW

/-- A lookup that may find nothing; only a lookup without an answer is a
failure. -/
def orNothing {α : Type} : Except Error α → Except Error (Option α)
  | .ok a => .ok (some a)
  | .error .collapsed => .error .collapsed
  | .error _ => .ok none

/-- What a pool operand stands for. -/
def poolMeaning (pool : Pool) (op : Opcode) (index : UInt16) : Except Error Meaning := do
  match op with
  | .ldc | .ldcW | .ldc2W => return .constant (← pool.value index)
  | .new | .anewarray | .checkcast | .instanceof | .multianewarray =>
    return .text (← pool.className index)
  | .invokedynamic =>
    let c ← pool.get index
    match c with
    | .dynamic _ nameAndType | .invokeDynamic _ nameAndType =>
      let (name, descriptor) ← pool.nameAndType nameAndType
      return .ref { kind := c.tag, owner := "", name, descriptor }
    | c => Pool.wrongKind index c .invokeDynamic
  | _ => return .ref (← pool.ref index)

/-- What a number stands for. -/
def numberMeaning (n : Int32) : UInt16 × Meaning := (0, .constant (.int n))

/-- What the operand of an instruction that a family accepts stands for, with
its pool index. -/
def Family.resolve (pool : Pool) (ins : Instruction) (f : Family) :
    Except Error (Option (UInt16 × Meaning)) :=
  let slot (n : UInt16) := numberMeaning n.toUInt32.toInt32
  match f with
  | .load _ => .ok (some (slot ((ins.op.expand?.map (·.2)).getD ins.operand.local_)))
  | .pushInt => .ok ((ins.pushedInt? pool).map numberMeaning)
  | _ =>
    match ins.op.shape with
    | .byte | .short => .ok (some (numberMeaning ins.operand.immediate))
    | .slot | .increment => .ok (some (slot ins.operand.local_))
    | .arrayType => .ok (some (numberMeaning ins.operand.arrayCode.toUInt32.toInt32))
    | _ =>
      if ins.op.usesPool then do
        let index := ins.operand.index
        return (← orNothing (poolMeaning pool ins.op index)).map fun v => (index, v)
      else .ok none

/-- Matches one step; the bindings after it, or nothing. -/
def Step.check (pool : Pool) (ins : Instruction) (bound : Bindings) (s : Step) :
    Except Error (Option Bindings) :=
  if !s.family.accepts pool ins then .ok none
  else if s.demand.isAny then .ok (some bound)
  else do
    match ← s.family.resolve pool ins with
    | none => return none
    | some (index, value) => return s.demand.check index value bound

/-- Matches steps one after another.  No instruction may stand at one of the
`barriers`. -/
def checkSteps (pool : Pool) (barriers : List Int) :
    List Step → List Instruction → Bindings → Except Error (Option Bindings)
  | [], _, bound => .ok (some bound)
  | _ :: _, [], _ => .ok none
  | s :: steps, ins :: rest, bound =>
    if (ins.offset : Int) ∈ barriers then .ok none
    else do
      match ← s.check pool ins bound with
      | none => return none
      | some bound => checkSteps pool barriers steps rest bound

/-- Matches a template at the start of a list of instructions.  The first
instruction may stand at a barrier. -/
def Template.matchAt (pool : Pool) (barriers : List Int) (instructions : List Instruction)
    (t : Template) : Except Error (Option Match) :=
  match t.steps, instructions with
  | first :: steps, ins :: rest =>
    if rest.length < steps.length then .ok none
    else do
      match ← first.check pool ins [] with
      | none => return none
      | some bound =>
        return (← checkSteps pool barriers steps rest bound).map fun bindings =>
          { template := t, bindings, instructions := ins :: rest.take steps.length }
  | _, _ => .ok none

/-- The first of the templates that matches at the start. -/
def firstMatch (pool : Pool) (barriers : List Int) (instructions : List Instruction) :
    List Template → Except Error (Option Match)
  | [] => .ok none
  | t :: templates => do
    match ← t.matchAt pool barriers instructions with
    | some m => return some m
    | none => firstMatch pool barriers instructions templates

/-- The next match, and the instructions behind it. -/
def next? (pool : Pool) (barriers : List Int) (templates : List Template) :
    List Instruction → Except Error (Option (Match × List Instruction))
  | [] => .ok none
  | ins :: rest => do
    match ← firstMatch pool barriers (ins :: rest) templates with
    | some m => return some (m, rest.drop (m.instructions.length - 1))
    | none => next? pool barriers templates rest

/-- The matches from some instructions on; the last may be a failure.  Every
match takes an instruction, so their number is enough fuel. -/
def scanFrom (pool : Pool) (barriers : List Int) (templates : List Template) :
    Nat → List Instruction → List (Except Error Match)
  | 0, _ => []
  | fuel + 1, instructions =>
    match next? pool barriers templates instructions with
    | .error e => [.error e]
    | .ok none => []
    | .ok (some (m, rest)) => .ok m :: scanFrom pool barriers templates fuel rest

/-- The matches of templates in order; the last may be a failure. -/
def scan (pool : Pool) (barriers : List Int) (templates : List Template)
    (instructions : List Instruction) : List (Except Error Match) :=
  scanFrom pool barriers templates instructions.length instructions

/-- The offsets that execution can come to from elsewhere: targets of branches
and of exception handlers. -/
def barriersOf (body : MethodBody) (instructions : List Instruction) : List Int :=
  instructions.flatMap Instruction.targets ++ body.handlers.map fun h => (h.target.toNat : Int)

end Cleartext.Pattern
