import Cleartext.Code.Editor
import Cleartext.Isolation.Identity
import Cleartext.Isolation.Note
import Cleartext.Pattern.Decryption

/-!
# Caller checks

A routine may put what it finds about its caller into a string builder.  Such
a check is replaced by a push of what the genuine caller would have shown; the
append that takes the value stays.
-/

namespace Cleartext.Isolation

open Pattern

/-- What a check asks of the caller. -/
inductive Query
  | poolSize
  | className
  | methodName
deriving DecidableEq, Repr

/-- The name of a query. -/
def Query.name : Query → String
  | .poolSize => "query-pool-size"
  | .className => "query-caller-class"
  | .methodName => "query-caller-method"

/-! ## Templates -/

/-- A demand for one of some texts. -/
def textIn (texts : List String) : Demand := .oneOf (texts.map .text)

/-- The steps that take the caller's element of a call stack. -/
def callerElement : List Step :=
  [{ family := .load .aload }, { family := .pushInt, demand := .exactly (.constant (.int 2)) },
    { family := .exactly .aaload }]

/-- The step that appends a value of a type to a builder. -/
def appendStep (type : String) : Step :=
  { family := .exactly .invokevirtual
    demand := .ref (textIn ["java/lang/StringBuilder", "java/lang/StringBuffer"]) (.text "append")
      (textIn ["(" ++ type ++ ")Ljava/lang/StringBuilder;",
        "(" ++ type ++ ")Ljava/lang/StringBuffer;"]) }

/-- The step that asks an element of a call stack. -/
def elementStep (getter : String) : Step :=
  { family := .exactly .invokevirtual
    demand := .method "java/lang/StackTraceElement" getter "()Ljava/lang/String;" }

/-- The template of a check. -/
def Query.template (q : Query) : Template :=
  { name := q.name
    steps := match q with
      | .className => callerElement ++ [elementStep "getClassName", appendStep "Ljava/lang/String;"]
      | .methodName =>
        callerElement ++ [elementStep "getMethodName", appendStep "Ljava/lang/String;"]
      | .poolSize =>
        { family := .exactly .invokestatic
          demand := .ref (textIn ["sun/misc/SharedSecrets", "jdk/internal/misc/SharedSecrets",
            "jdk/internal/access/SharedSecrets"]) (.text "getJavaLangAccess") .any } ::
        callerElement ++ [elementStep "getClassName",
          { family := .exactly .invokestatic
            demand := .method "java/lang/Class" "forName" "(Ljava/lang/String;)Ljava/lang/Class;" },
          { family := .exactly .invokeinterface
            demand := .ref .any (.text "getConstantPool") .any },
          { family := .exactly .invokevirtual
            demand := .ref (textIn ["sun/reflect/ConstantPool", "jdk/internal/reflect/ConstantPool"])
              (.text "getSize") (.text "()I") },
          appendStep "I"] }

/-- The checks, in the order in which they are tried. -/
def queries : List Query := [.poolSize, .className, .methodName]

/-- The templates of all checks. -/
def protectionTemplates : List Template := queries.map Query.template

/-! ## Replacing -/

/-- The push of a text about the caller. -/
def pushText (text : String) : Pool.Edit Instruction :=
  if text = "" then throw (.entangled .incompleteCaller)
  else Instruction.ldc <$> ExceptT.adapt .isolation (Pool.Edit.string text)

/-- The push of the size of a constant pool. -/
def pushSize (caller : Identity) : Pool.Edit Instruction :=
  if caller.poolSize ≤ 0 || 65535 < caller.poolSize then
    throw (.entangled (.noPoolSize caller.cls))
  else ExceptT.adapt .isolation (Pool.Edit.pushInt (Int32.ofInt caller.poolSize))

/-- The push of what a query would find of the caller. -/
def Query.captured (caller : Identity) : Query → Pool.Edit Instruction
  | .poolSize => pushSize caller
  | .className => pushText (Machine.externalName caller.cls)
  | .methodName => pushText caller.method

/-- A class on which checks are being replaced, and a note for each of those
replaced, the last one first. -/
structure Neutralized where
  notes : List Note
  cf : ClassFile

/-- The number of checks replaced. -/
def Neutralized.replaced (s : Neutralized) : Nat := s.notes.length

/-- A computation that replaces checks; what was replaced before a failure
stays replaced. -/
abbrev Neutralizing := ExceptT Error (StateM Neutralized)

/-- Replaces one check in an editor. -/
def stageCheck (ed : Editor) (push : Instruction) (window : List Instruction) :
    Except Error Editor := do
  match window with
  | [] => return ed
  | first :: rest =>
    let ed ← ed.replace first.offset push
    rest.dropLast.foldlM (fun ed ins => ed.delete ins.offset) ed

/-- The query whose template has a name. -/
def queryNamed? (name : String) : Option Query := queries.find? fun q => q.name = name

/-- Replaces the checks among instructions.  Every check takes an instruction,
so their number is enough fuel. -/
def stageChecks (caller : Identity) (method : String) (barriers : List Int) :
    Nat → List Instruction → Editor → Neutralizing Editor
  | 0, _, ed => return ed
  | fuel + 1, instructions, ed => do
    let pool := (← getThe Neutralized).cf.pool
    match next? pool barriers protectionTemplates instructions with
    | .error e => throw e
    | .ok none => return ed
    | .ok (some (m, rest)) =>
      match queryNamed? m.template.name with
      | none => throw (.entangled (.unknownCheck m.template.name))
      | some q =>
        let (push, pool) := pool.edit (q.captured caller)
        modify fun s => { s with cf := { s.cf with pool } }
        let push ← liftExcept push
        let ed ← liftExcept ((stageCheck ed push m.instructions).mapError .isolation)
        modify fun s => { s with notes := .replaced method m.start m.template.name :: s.notes }
        stageChecks caller method barriers fuel rest ed
where
  liftExcept {α : Type} (x : Except Error α) : Neutralizing α :=
    ExceptT.mk (pure x)

/-- Replaces the checks of the method at a position. -/
def neutralizeMethod (caller : Identity) (position : Nat) (m : Member) : Neutralizing Unit := do
  match m.body? with
  | none => return
  | some body =>
    let cf := (← getThe Neutralized).cf
    let place (e : Error) : Error := .isolation (.within (.member cf.name (m.name cf.pool)) e)
    match Editor.new body with
    | .error e => throw (place e)
    | .ok ed =>
      let instructions := ed.instructions
      let ed ← stageChecks caller (m.name cf.pool) (barriersOf body instructions)
        instructions.length instructions ed
      match ed.commit (← getThe Neutralized).cf.pool with
      | .error e => throw (place e)
      | .ok ed =>
        modify fun s => { s with
          cf := { s.cf with methods := s.cf.methods.modify position (·.setBody ed.body) } }

/-- Replaces the checks of methods, the first of which has a position. -/
def neutralizeMethods (caller : Identity) : Nat → List Member → Neutralizing Unit
  | _, [] => return
  | position, m :: rest => do
    neutralizeMethod caller position m
    neutralizeMethods caller (position + 1) rest

/-- Replaces every check of a class.  After a failure the class is as far
changed as the work had come. -/
def neutralize (cf : ClassFile) (caller : Identity) : Option Error × Neutralized :=
  match (neutralizeMethods caller 0 cf.methods).run.run ⟨[], cf⟩ with
  | (.ok _, s) => (none, s)
  | (.error e, s) => (some e, s)

end Cleartext.Isolation
