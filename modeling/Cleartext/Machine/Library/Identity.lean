import Cleartext.Machine.Library.Basic
import Cleartext.Text.Url

/-!
# Methods that show the identity of a run

What interpreted code can ask about where it runs: the call stack, classes
and their names, the place the code was loaded from, and the size of the
caller's constant pool.  All of it is answered from the `Config`.
-/

namespace Cleartext.Machine.Library

/-! ## Call stacks -/

/-- An array with the elements of a call stack. -/
def newStackTrace (frames : List StackFrame) : Run Value := do
  let elements ← frames.mapM fun f => newHidden "java/lang/StackTraceElement" (.frame f)
  new (.array "Ljava/lang/StackTraceElement;" elements.toArray)

/-- The methods of threads; there is one thread. -/
def threadMethod? : String → Option LibraryMethod
  | "currentThread()Ljava/lang/Thread;" => some fun _ => do
    match (← getThe World).thread with
    | some id => return .ref id
    | none =>
      let id ← alloc (.instance "java/lang/Thread" none .none)
      modify fun w => { w with thread := some id }
      return .ref id
  | "getStackTrace()[Ljava/lang/StackTraceElement;" => some fun _ => do
    newStackTrace (⟨"java/lang/Thread", "getStackTrace"⟩ :: (← callStack))
  | _ => none

/-- The message and the call stack of an exception. -/
def throwableState (v : Value) : Run (Option Nat × List StackFrame) :=
  asHidden v fun
    | .throwable message trace => some (message, trace)
    | _ => none

/-- The methods of exceptions. -/
def throwableMethod? : String → Option LibraryMethod
  | "<init>()V" => some fun args => do
    setHidden (← selfInstance args) (.throwable none (← callStack))
    return nothing
  | "<init>(Ljava/lang/String;)V" => some fun args => do
    let message ← match ← arg args 1 with
      | .ref id => do
        match ← object? id with
        | some (.string _) => pure (some id)
        | _ => pure none
      | _ => pure none
    setHidden (← selfInstance args) (.throwable message (← callStack))
    return nothing
  | "getMessage()Ljava/lang/String;" => some fun args => do
    match (← throwableState (← arg args 0)).1 with
    | some id => return .ref id
    | none => return .null
  | "getStackTrace()[Ljava/lang/StackTraceElement;" => some fun args => do
    newStackTrace (← throwableState (← arg args 0)).2
  | "fillInStackTrace()Ljava/lang/Throwable;" => some fun args => do
    let self ← arg args 0
    let (message, _) ← throwableState self
    setHidden (← selfInstance args) (.throwable message (← callStack))
    return self
  | _ => none

/-- The method in an element of a call stack. -/
def stackFrame (v : Value) : Run StackFrame :=
  asHidden v fun
    | .frame f => some f
    | _ => none

/-- The methods of the elements of a call stack. -/
def stackElementMethod? : String → Option LibraryMethod
  | "getClassName()Ljava/lang/String;" => some fun args => do
    newText (externalName (← stackFrame (← arg args 0)).cls)
  | "getMethodName()Ljava/lang/String;" => some fun args => do
    newText (← stackFrame (← arg args 0)).method
  | "getLineNumber()I" => some fun _ => return .int (-1)
  | "getFileName()Ljava/lang/String;" => some fun _ => return .null
  | _ => none

/-! ## Classes and where they come from -/

/-- What follows the last slash or dollar sign of a class name. -/
def simpleName (name : String) : String :=
  String.ofList ((name.toList.reverse.takeWhile fun c => c ≠ '/' && c ≠ '$').reverse)

/-- The methods of class objects. -/
def classMethod? : String → Option LibraryMethod
  | "forName(Ljava/lang/String;)Ljava/lang/Class;" => some fun args => do
    let (_, name) ← asString (← arg args 0)
    mirror (internalName name.text)
  | "getName()Ljava/lang/String;" => some fun args => do
    newText (externalName (← hiddenText (← arg args 0)))
  | "getSimpleName()Ljava/lang/String;" => some fun args => do
    newText (simpleName (← hiddenText (← arg args 0)))
  | "desiredAssertionStatus()Z" => some fun _ => return truth false
  | "getProtectionDomain()Ljava/security/ProtectionDomain;" => some fun args => do
    newHidden "java/security/ProtectionDomain" (.text (← hiddenText (← arg args 0)))
  | _ => none

/-- The methods of protection domains. -/
def protectionDomainMethod? : String → Option LibraryMethod
  | "getCodeSource()Ljava/security/CodeSource;" => some fun _ => do
    let location := (← read).config.codeSource
    if location = "" then return .null
    newHidden "java/security/CodeSource" (.text location)
  | _ => none

/-- The methods of code sources. -/
def codeSourceMethod? : String → Option LibraryMethod
  | "getLocation()Ljava/net/URL;" => some fun args => do
    newHidden "java/net/URL" (.text (← hiddenText (← arg args 0)))
  | _ => none

/-- A part of the location that the receiver stands for. -/
def locationPart (part : Text.Url → String) : LibraryMethod := fun args => do
  let location ← hiddenText (← arg args 0)
  match Text.Url.parse? location with
  | some url => newText (part url)
  | none => unsupported (.codeSource location)

/-- The methods of locations. -/
def urlMethod? : String → Option LibraryMethod
  | "toString()Ljava/lang/String;" => some (locationPart Text.Url.text)
  | "toExternalForm()Ljava/lang/String;" => some (locationPart Text.Url.text)
  | "getProtocol()Ljava/lang/String;" => some (locationPart Text.Url.schemeText)
  | "getPath()Ljava/lang/String;" => some (locationPart Text.Url.pathText)
  | "getFile()Ljava/lang/String;" => some (locationPart Text.Url.fileText)
  | _ => none

/-! ## The caller's constant pool -/

/-- The packages of the classes that lead to a constant pool: of the secrets
and their access, and of the pool. -/
def poolPackages : List (String × String) :=
  [("sun/misc", "sun/reflect"), ("jdk/internal/misc", "jdk/internal/reflect"),
    ("jdk/internal/access", "jdk/internal/reflect")]

/-- The size of the constant pool of the caller. -/
def poolSize : LibraryMethod := fun args => do
  let name ← hiddenText (← arg args 0)
  let config := (← read).config
  if name ≠ config.caller.cls || config.poolSize ≤ 0 then
    unsupported (.poolSize (externalName name))
  return .int (Int32.ofInt config.poolSize)

/-- The methods that lead to a constant pool through one pair of packages. -/
def poolMethodIn? (access reflect owner signature : String) : Option LibraryMethod :=
  let accessClass := access ++ "/JavaLangAccess"
  let poolClass := reflect ++ "/ConstantPool"
  if owner = access ++ "/SharedSecrets" && signature = "getJavaLangAccess()L" ++ accessClass ++ ";" then
    some fun _ => newHidden accessClass .none
  else if owner = accessClass &&
      signature = "getConstantPool(Ljava/lang/Class;)L" ++ poolClass ++ ";" then
    some fun args => do newHidden poolClass (.text (← hiddenText (← arg args 1)))
  else if owner = poolClass && signature = "getSize()I" then some poolSize
  else none

/-- The methods that lead to a constant pool. -/
def poolMethod? (owner signature : String) : Option LibraryMethod :=
  poolPackages.findSome? fun (access, reflect) => poolMethodIn? access reflect owner signature

end Cleartext.Machine.Library
