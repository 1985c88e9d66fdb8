import Cleartext.Class.Pool

/-!
# Attribute layouts

Where the body of an attribute holds constant pool indices, code offsets and
indices into the exception table.  `Layout.visit` reads a body in order and
lists these places as `Site`s; it never changes anything.  Rewriting an
attribute is a change of the bytes at its sites, `Layout.rewrite`, so the
length of the body and all other bytes stay as they are.

Attributes inside a `Record` are visited too.  A failure inside one is told as
it is; a failure in the attribute itself is told with the attribute's name.
-/

namespace Cleartext.Layout

/-- What a place in an attribute body holds. -/
inductive SiteKind
  /-- A constant pool index other than zero. -/
  | reference
  /-- A code offset. -/
  | offset
  /-- A code offset followed by a length. -/
  | span
  /-- An index into the exception table. -/
  | handler
deriving DecidableEq, Repr

/-- A place in an attribute body. -/
structure Site where
  kind : SiteKind
  position : Nat
  nested : Bool
deriving DecidableEq, Repr

/-- How a visit ends early: `plain` failures are told with the name of the
attribute, `direct` ones as they are. -/
inductive Stop
  | plain (e : Error)
  | direct (e : Error)

/-- What a visit has read: the cursor, and the sites in reverse order. -/
structure Progress where
  cursor : Cursor
  sites : List Site
  nested : Bool

/-- A visit of an attribute body, which keeps its sites when it fails. -/
abbrev Visit := ExceptT Stop (StateM Progress)

namespace Visit

/-- Moves the cursor by one of its readers. -/
def read {α : Type} (reader : Cursor → Except Error (α × Cursor)) : Visit α := do
  let s ← get
  match reader s.cursor with
  | .ok (a, cursor) => set { s with cursor }; return a
  | .error e => throw (.plain e)

/-- Reads a byte. -/
def u8 : Visit UInt8 := read Cursor.u8

/-- Reads a word of two bytes. -/
def u16 : Visit UInt16 := read Cursor.u16

/-- Reads a word of four bytes. -/
def u32 : Visit UInt32 := read Cursor.u32

/-- Lists a site. -/
def site (kind : SiteKind) (position : Nat) : Visit Unit :=
  modify fun s => { s with sites := ⟨kind, position, s.nested⟩ :: s.sites }

/-- The offset of the next byte. -/
def position : Visit Nat := return (← get).cursor.offset

/-- Visits a constant pool index and returns it. -/
def reference : Visit UInt16 := do
  let pos ← position
  let i ← u16
  if i ≠ 0 then site .reference pos
  return i

/-- Visits a code offset. -/
def offset : Visit Unit := do
  let pos ← position
  let _ ← u16
  site .offset pos

/-- Visits a code offset and a length. -/
def span : Visit Unit := do
  let pos ← position
  let _ ← u16
  let _ ← u16
  site .span pos

/-- Visits an index into the exception table. -/
def handler : Visit Unit := do
  let pos ← position
  let _ ← u16
  site .handler pos

/-- Repeats a visit. -/
def times : Nat → Visit Unit → Visit Unit
  | 0, _ => return
  | n + 1, v => do v; times n v

/-- Repeats a visit as often as the next two bytes say. -/
def counted (v : Visit Unit) : Visit Unit := do times (← u16).toNat v

/-- Visits `n` constant pool indices. -/
def references (n : Nat) : Visit Unit := times n (do let _ ← reference)

/-- Visits as many constant pool indices as the next two bytes say. -/
def countedReferences : Visit Unit := do references (← u16).toNat

/-- Skips two bytes. -/
def skip16 : Visit Unit := do let _ ← u16

/-- Skips a byte. -/
def skip8 : Visit Unit := do let _ ← u8

/-- Stops at a flaw of the attribute itself. -/
def flaw {α : Type} (f : Flaw) : Visit α := throw (.plain (.malformed f))

/-! ## Parts of attributes -/

/-- The verification type of a stack map. -/
def verificationType : Visit Unit := do
  let tag ← u8
  if tag = 7 then let _ ← reference
  else if tag = 8 then offset
  else if 8 < tag then flaw (.badVerificationTag tag)

/-- A frame of a stack map. -/
def frame : Visit Unit := do
  let kind ← u8
  if kind ≤ 63 then return
  else if kind ≤ 127 then verificationType
  else if kind = 247 then skip16; verificationType
  else if 248 ≤ kind && kind ≤ 251 then skip16
  else if 252 ≤ kind && kind ≤ 254 then skip16; times (kind.toNat - 251) verificationType
  else if kind = 255 then skip16; counted verificationType; counted verificationType
  else flaw (.reservedFrame kind)

/-- The declarations of a module. -/
def module : Visit Unit := do
  references 1
  skip16
  references 1
  counted (do references 1; skip16; references 1)
  times 2 (counted (do references 1; skip16; countedReferences))
  countedReferences
  counted (do references 1; countedReferences)

/-- A type with named elements, given how the value of an element is visited. -/
def markWith (element : Visit Unit) : Visit Unit := do
  references 1
  counted (do references 1; element)

/-- The value of an element.  A value inside a value takes a byte, so the
length of the body bounds the depth. -/
def element : Nat → Visit Unit
  | 0 => do throw (.plain ((← get).cursor.ended 1))
  | depth + 1 => do
    let tag ← u8
    let c := Char.ofNat tag.toNat
    if c ∈ ['B', 'C', 'D', 'F', 'I', 'J', 'S', 'Z', 's', 'c'] then references 1
    else if c = 'e' then references 2
    else if c = '@' then markWith (element depth)
    else if c = '[' then counted (element depth)
    else flaw (.badElementTag tag)

/-- A type with named elements. -/
def mark (depth : Nat) : Visit Unit := markWith (element depth)

/-- The target of a mark on a type. -/
def typeTarget : Visit Unit := do
  let target ← u8
  if target ∈ [0x00, 0x01, 0x16] then skip8
  else if target ∈ [0x10, 0x17] then skip16
  else if target ∈ [0x11, 0x12] then skip8; skip8
  else if 0x13 ≤ target && target ≤ 0x15 then return
  else if target ∈ [0x40, 0x41] then counted (do span; skip16)
  else if target = 0x42 then handler
  else if 0x43 ≤ target && target ≤ 0x46 then offset
  else if 0x47 ≤ target && target ≤ 0x4b then offset; skip8
  else flaw (.badTypeTarget target)

/-- Skips the path into a type, which need not lie inside the body. -/
def typePath : Visit Unit := do
  let n ← u8
  modify fun s => { s with cursor := s.cursor.skip (2 * n.toNat) }

/-- A mark on a type. -/
def typeMark (depth : Nat) : Visit Unit := do
  typeTarget
  typePath
  mark depth

/-- The attributes inside an attribute, given how one is visited by name. -/
def nestedWith (pool : Pool) (visit : String → Visit Unit) : Visit Unit := counted do
  let i ← reference
  let length := (← u32).toNat
  let s ← get
  match s.cursor.bytes length with
  | .error e => throw (.plain e)
  | .ok (info, after) =>
    match pool.text i with
    | .error e => throw (.direct (.malformedBy .nestedAttributeName e))
    | .ok name =>
      set { s with cursor := ⟨info, s.cursor.offset, after.offset⟩, nested := true }
      tryCatch (visit name) fun
        | .plain e | .direct e => throw (.direct e)
      let inner ← get
      if inner.cursor.left ≠ 0 then
        throw (.direct (.malformed (.trailingInNested name inner.cursor.left)))
      set { inner with cursor := after, nested := s.nested }

/-- The body of the attribute with the given name.  An attribute inside an
attribute is shorter, so the length of the body bounds the depth. -/
def bodyOf (pool : Pool) : Nat → String → Visit Unit
  | 0, _ => do throw (.plain ((← get).cursor.ended 1))
  | depth + 1, name =>
    match name with
    | "ConstantValue" | "Signature" | "SourceFile" | "NestHost" | "ModuleMainClass" =>
      references 1
    | "Synthetic" | "Deprecated" | "SourceDebugExtension" =>
      modify fun s => { s with cursor := s.cursor.skip s.cursor.rest.length }
    | "Exceptions" | "NestMembers" | "PermittedSubclasses" | "ModulePackages" =>
      countedReferences
    | "InnerClasses" => counted (do references 3; skip16)
    | "EnclosingMethod" => references 2
    | "LineNumberTable" => counted (do offset; skip16)
    | "LocalVariableTable" | "LocalVariableTypeTable" =>
      counted (do span; references 2; skip16)
    | "StackMapTable" => counted frame
    | "BootstrapMethods" => counted (do references 1; countedReferences)
    | "MethodParameters" => do times (← u8).toNat (do references 1; skip16)
    | "Record" => counted (do references 2; nestedWith pool (bodyOf pool depth))
    | "Module" => module
    | "RuntimeVisibleAnnotations" | "RuntimeInvisibleAnnotations" => counted (mark depth)
    | "RuntimeVisibleParameterAnnotations" | "RuntimeInvisibleParameterAnnotations" => do
      times (← u8).toNat (counted (mark depth))
    | "RuntimeVisibleTypeAnnotations" | "RuntimeInvisibleTypeAnnotations" =>
      counted (typeMark depth)
    | "AnnotationDefault" => element depth
    | name => throw (.direct (.unknownAttribute name))

end Visit

/-- The sites of an attribute body in order, up to the failure that ended the
visit. -/
structure Survey where
  sites : List Site
  failure : Option Error

/-- Visits the body of an attribute. -/
def visit (pool : Pool) (name : String) (info : Bytes) : Survey :=
  let (result, s) := (Visit.bodyOf pool (info.length + 2) name).run.run
    ⟨Cursor.start info, [], false⟩
  let failure := match result with
    | .error (.direct e) => some e
    | .error (.plain e) => some (.within (.attribute name) e)
    | .ok () =>
      if s.cursor.left = 0 then none
      else some (.malformed (.trailingInAttribute name s.cursor.left))
  ⟨s.sites.reverse, failure⟩

/-- A change of a class that carries a state and stops at the first failure. -/
abbrev Change (σ : Type) := StateT σ (Except Error)

/-- A change whose failures are put into other words. -/
def Change.explain {σ α : Type} (words : Error → Error) (change : Change σ α) : Change σ α :=
  fun s => (change.run s).mapError words

/-- Changes the bytes at one site after another. -/
def rewriteSites {σ : Type} (name : String) (change : Site → Bytes → Change σ Bytes) :
    List Site → Bytes → Change σ Bytes
  | [], info => return info
  | site :: rest, info => do
    let words := fun e => if site.nested then e else .within (.attribute name) e
    let new ← (change site info).explain words
    rewriteSites name change rest (info.overwrite site.position new)

/-- The body of an attribute with its sites changed.  `change` is given a
site and the body, and returns the new bytes from the site on.  A change that
fails ends the rewriting, and so does the failure that ended the visit. -/
def rewrite {σ : Type} (pool : Pool) (name : String) (change : Site → Bytes → Change σ Bytes)
    (info : Bytes) : Change σ Bytes := do
  let survey := visit pool name info
  let result ← rewriteSites name change survey.sites info
  match survey.failure with
  | none => return result
  | some e => throw e

end Cleartext.Layout
