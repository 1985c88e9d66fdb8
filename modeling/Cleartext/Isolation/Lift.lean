import Cleartext.Class.Shrink
import Cleartext.Isolation.Note
import Cleartext.Pattern.Decryption

/-!
# Lifting

A standalone copy of a class that has what a routine needs and nothing else:
the routine, the class initializer, and the methods and fields of the class
that they reach.
-/

namespace Cleartext.Isolation

/-- The name and the descriptor of a member. -/
abbrev MemberKey := String × String

/-- The name and the descriptor of a member of a class. -/
def keyOf (cf : ClassFile) (m : Member) : MemberKey := (m.name cf.pool, m.descriptor cf.pool)

/-- The members of the class itself that instructions name. -/
structure Uses where
  methods : List MemberKey
  fields : List MemberKey

/-- Whether an opcode calls a method by a reference. -/
def isCall (op : Opcode) : Bool :=
  op ∈ [Opcode.invokestatic, .invokespecial, .invokevirtual, .invokeinterface]

/-- Whether an opcode names a field. -/
def isFieldAccess (op : Opcode) : Bool :=
  op ∈ [Opcode.getstatic, .putstatic, .getfield, .putfield]

/-- The member of the class itself that an instruction names. -/
def ownMember? (cf : ClassFile) (ins : Instruction) : Except Error (Option MemberKey) := do
  match ← Pattern.orNothing (cf.pool.ref ins.operand.index) with
  | some r => return if r.owner = cf.name then some (r.name, r.descriptor) else none
  | none => return none

/-- What instructions use. -/
def usesOf (cf : ClassFile) : List Instruction → Except Error Uses
  | [] => .ok ⟨[], []⟩
  | ins :: rest => do
    if isCall ins.op then
      let key ← ownMember? cf ins
      let uses ← usesOf cf rest
      return { uses with methods := key.toList ++ uses.methods }
    else if isFieldAccess ins.op then
      let key ← ownMember? cf ins
      let uses ← usesOf cf rest
      return { uses with fields := key.toList ++ uses.fields }
    else usesOf cf rest

/-- What a method uses. -/
def Member.uses (cf : ClassFile) (m : Cleartext.Member) : Except Error Uses :=
  match m.body? with
  | none => .ok ⟨[], []⟩
  | some body =>
    match Instruction.decodeAll body.bytecode with
    | .error e => .error (.isolation (.within (.member cf.name (m.name cf.pool)) e))
    | .ok instructions => usesOf cf instructions

/-- Adds the methods that those in the queue reach to those found, and the
fields that they all use.  A key is put into the queue once for every call, so
the number of instructions bounds the steps. -/
def reach (cf : ClassFile) : Nat → List MemberKey → Uses → Except Error Uses
  | 0, _, found => .ok found
  | _ + 1, [], found => .ok found
  | fuel + 1, key :: queue, found =>
    if key ∈ found.methods then reach cf fuel queue found
    else match cf.method? key.1 key.2 with
      | none => reach cf fuel queue found
      | some m => do
        let uses ← Member.uses cf m
        reach cf fuel (queue ++ uses.methods) ⟨key :: found.methods, uses.fields ++ found.fields⟩

/-- The number of bytes of all method bodies. -/
def codeSize (cf : ClassFile) : Nat :=
  (cf.methods.map fun m => (m.body?.map fun b => b.bytecode.length).getD 0).foldr (· + ·) 0

/-- What a routine and the class initializer reach. -/
def reachable (cf : ClassFile) (method : String) : Except Error Uses :=
  let start := (method, Pattern.decryptDescriptor) ::
    if (cf.method? "<clinit>" "()V").isSome then [("<clinit>", "()V")] else []
  reach cf (codeSize cf + 3) start ⟨[], []⟩

/-- Removes unused constants; a class with an unknown attribute stays as it
is, which is noted. -/
def shrunk (cf : ClassFile) : Except Error (ClassFile × List Note) :=
  match cf.shrink with
  | .ok cf => .ok (cf, [])
  | .error e =>
    match e.root with
    | .unknownAttribute _ => .ok (cf, [.unshrunk cf.name e])
    | _ => .error (.isolation e)

/-- The access flags of a lifted class: public, with the modern meaning of
calls of superclass methods. -/
def liftedAccess : UInt16 := 0x0021

/-- The class without what `uses` does not name. -/
def restrict (cf : ClassFile) (uses : Uses) : ClassFile :=
  { cf with
    methods := cf.methods.filter fun m => keyOf cf m ∈ uses.methods
    fields := cf.fields.filter fun f => keyOf cf f ∈ uses.fields
    interfaces := []
    attributes := cf.attributes.filter fun a => a.name == "BootstrapMethods" }

/-- The standalone copy of a class for one of its routines. -/
def lift (cf : ClassFile) (method : String) : Except Error (ClassFile × List Note) := do
  let copy ← match cf.copy with
    | .ok copy => pure copy
    | .error e => throw (.isolation (.within (.copying cf.name) e))
  if ((copy.method? method Pattern.decryptDescriptor).bind Cleartext.Member.body?).isNone then
    throw (.entangled (.noRoutine copy.name method))
  let lifted := restrict copy (← reachable copy method)
  match lifted.pool.edit (Pool.Edit.class_ "java/lang/Object") with
  | (.error e, _) => throw (.isolation e)
  | (.ok superClass, pool) =>
    shrunk { lifted with pool, superClass, access := liftedAccess }

end Cleartext.Isolation
