import Cleartext.Class.Pool

/-!
# Class files

A class file is a constant pool, a few indices into it, and members that
carry attributes.  An attribute with the name `Code` is taken apart wherever
it stands; every other one keeps its bytes.

`ClassFile.parse` and `ClassFile.encode` are inverse to each other, except
that a method body of length zero or beyond 65535 can be read and not
written.
-/

namespace Cleartext

/-- A row of an exception table; the range excludes `stop`. -/
structure Handler where
  start : UInt16
  stop : UInt16
  target : UInt16
  catchType : UInt16
deriving DecidableEq, Repr

/-- A method body whose attributes have the type `α`. -/
structure Body (α : Type) where
  maxStack : UInt16
  maxLocals : UInt16
  bytecode : Bytes
  handlers : List Handler
  attributes : List α

/-- A named attribute. -/
inductive Attribute
  | raw (nameIndex : UInt16) (name : String) (info : Bytes)
  | code (nameIndex : UInt16) (name : String) (body : Body Attribute)

/-- A method body. -/
abbrev MethodBody := Body Attribute

/-- A field or a method. -/
structure Member where
  access : UInt16
  nameIndex : UInt16
  descriptorIndex : UInt16
  attributes : List Attribute

/-- A class file. -/
structure ClassFile where
  minor : UInt16
  major : UInt16
  pool : Pool
  access : UInt16
  thisClass : UInt16
  superClass : UInt16
  interfaces : List UInt16
  fields : List Member
  methods : List Member
  attributes : List Attribute

/-- The word at the start of every class file. -/
def magic : UInt32 := 0xcafebabe

namespace Attribute

/-- The pool index of the name. -/
def nameIndex : Attribute → UInt16
  | raw i _ _ | code i _ _ => i

/-- The name that the attribute was read with. -/
def name : Attribute → String
  | raw _ n _ | code _ n _ => n

/-- The body of a `Code` attribute. -/
def body? : Attribute → Option MethodBody
  | raw .. => none
  | code _ _ body => some body

/-- The bytes of an attribute that was not taken apart. -/
def info : Attribute → Bytes
  | raw _ _ info => info
  | code .. => []

/-- The first attribute with the given name. -/
def find? (attributes : List Attribute) (name : String) : Option Attribute :=
  attributes.find? fun a => a.name == name

end Attribute

namespace Member

/-- The name of a member; empty when the pool does not give it. -/
def name (m : Member) (pool : Pool) : String := (pool.text m.nameIndex).toOption.getD ""

/-- The descriptor of a member; empty when the pool does not give it. -/
def descriptor (m : Member) (pool : Pool) : String :=
  (pool.text m.descriptorIndex).toOption.getD ""

/-- The method body, if the first `Code` attribute has one. -/
def body? (m : Member) : Option MethodBody :=
  (Attribute.find? m.attributes "Code").bind Attribute.body?

/-- Whether the member belongs to the class and not to its instances. -/
def isStatic (m : Member) : Bool := m.access &&& 0x0008 != 0

/-- The member with another body in its first `Code` attribute. -/
def setBody (m : Member) (body : MethodBody) : Member :=
  let rec go : List Attribute → List Attribute
    | [] => []
    | a :: rest =>
      if a.name == "Code" then
        (match a with
          | .code i n _ => .code i n body
          | a => a) :: rest
      else a :: go rest
  { m with attributes := go m.attributes }

end Member

namespace ClassFile

/-- The internal name of the class, such as `com/example/Main`. -/
def name (cf : ClassFile) : String := (cf.pool.className cf.thisClass).toOption.getD ""

/-- The internal name of the superclass; empty when there is none. -/
def superName (cf : ClassFile) : String :=
  if cf.superClass = 0 then "" else (cf.pool.className cf.superClass).toOption.getD ""

/-- Whether a member has the given name and descriptor. -/
def isNamed (cf : ClassFile) (name descriptor : String) (m : Member) : Bool :=
  m.name cf.pool == name && m.descriptor cf.pool == descriptor

/-- The first method with the given name and descriptor. -/
def method? (cf : ClassFile) (name descriptor : String) : Option Member :=
  cf.methods.find? (cf.isNamed name descriptor)

/-- The first field with the given name and descriptor. -/
def field? (cf : ClassFile) (name descriptor : String) : Option Member :=
  cf.fields.find? (cf.isNamed name descriptor)

/-- A member with its class, as listings and messages show it. -/
def memberText (cf : ClassFile) (m : Member) : String :=
  cf.name ++ "." ++ m.name cf.pool ++ m.descriptor cf.pool

end ClassFile

/-! ## Reading -/

namespace Attribute

/-- Reads a row of an exception table. -/
def readHandler : Reader Handler :=
  return { start := ← Reader.u16, stop := ← Reader.u16, target := ← Reader.u16,
           catchType := ← Reader.u16 }

/-- Reads the part of a method body in front of its attributes. -/
def readBodyHead : Reader (List Attribute → MethodBody) := do
  let maxStack ← Reader.u16
  let maxLocals ← Reader.u16
  let length ← Reader.u32
  let bytecode ← Reader.bytes length.toNat
  let rows ← Reader.u16
  let handlers ← readHandler.times rows.toNat
  return fun attributes => { maxStack, maxLocals, bytecode, handlers, attributes }

/-- Takes a method body apart, given a reader for its attributes. -/
def readBody (readAttributes : Reader (List Attribute)) (info : Bytes) :
    Except Error MethodBody :=
  let read : Reader MethodBody := do
    let head ← readBodyHead
    return head (← readAttributes)
  match read.runOn info with
  | .error e => .error (.within .codeAttribute e)
  | .ok (body, c) =>
    if c.rest.isEmpty then .ok body else .error (.malformed (.trailingInCode c.rest.length))

/-- Reads `n` attributes, given a reader for the attributes of a body. -/
def readMany (pool : Pool) (nested : Reader (List Attribute)) : Nat → Reader (List Attribute)
  | 0 => return []
  | n + 1 => do
    let nameIndex ← Reader.u16
    let length ← Reader.u32
    let info ← Reader.bytes length.toNat
    match pool.text nameIndex with
    | .error e => throw (.malformedBy .attributeName e)
    | .ok name =>
      let first ← if name = "Code" then
          match readBody nested info with
          | .ok body => pure (code nameIndex name body)
          | .error e => throw e
        else pure (raw nameIndex name info)
      return first :: (← readMany pool nested n)

/-- Reads a list of attributes in which bodies are nested at most `depth`
deep. -/
def readList (pool : Pool) : Nat → Reader (List Attribute)
  | 0 => return []
  | depth + 1 => do
    let n ← Reader.u16
    readMany pool (readList pool depth) n.toNat

end Attribute

namespace Member

/-- Reads a member. -/
def read (pool : Pool) (depth : Nat) : Reader Member :=
  return { access := ← Reader.u16, nameIndex := ← Reader.u16, descriptorIndex := ← Reader.u16,
           attributes := ← Attribute.readList pool depth }

/-- Reads a list of members. -/
def readList (pool : Pool) (depth : Nat) : Reader (List Member) := do
  let n ← Reader.u16
  (read pool depth).times n.toNat

end Member

namespace ClassFile

/-- Reads a class file up to its last attribute. -/
def read (depth : Nat) : Reader ClassFile := do
  let word ← Reader.u32
  if word ≠ magic then throw (.malformed (.badMagic word))
  let minor ← Reader.u16
  let major ← Reader.u16
  let pool ← Pool.read
  let access ← Reader.u16
  let thisClass ← Reader.u16
  let superClass ← Reader.u16
  let n ← Reader.u16
  let interfaces ← Reader.u16.times n.toNat
  let fields ← Member.readList pool depth
  let methods ← Member.readList pool depth
  let attributes ← Attribute.readList pool depth
  return { minor, major, pool, access, thisClass, superClass, interfaces, fields, methods,
           attributes }

/-- Reads a class file.  A body is shorter than what it is nested in, so the
length of the data bounds the depth of nesting. -/
def parse (data : Bytes) : Except Error ClassFile := do
  let (cf, c) ← (read (data.length + 1)).runOn data
  unless c.rest.isEmpty do throw (.malformed (.trailing c.rest.length))
  match cf.pool.className cf.thisClass with
  | .ok _ => return cf
  | .error e => throw (.malformedBy .thisClass e)

end ClassFile

/-! ## Writing -/

/-- The bytes of a row of an exception table. -/
def Handler.encode (h : Handler) : Bytes :=
  Bytes.ofU16 h.start ++ Bytes.ofU16 h.stop ++ Bytes.ofU16 h.target ++ Bytes.ofU16 h.catchType

/-- The bytes of a list in front of which its length is written. -/
def encodeCounted {α : Type} (encode : α → Except Error Bytes) (items : List α) :
    Except Error Bytes := do
  let parts ← items.mapM encode
  return Bytes.ofU16 items.length.toUInt16 ++ parts.flatten

mutual

/-- The bytes of an attribute. -/
def Attribute.encode : Attribute → Except Error Bytes
  | .raw i _ info => .ok (Bytes.ofU16 i ++ Bytes.ofU32 info.length.toUInt32 ++ info)
  | .code i _ ⟨maxStack, maxLocals, bytecode, handlers, attributes⟩ => do
    if bytecode.length = 0 || 65536 ≤ bytecode.length then
      throw (.codeLength bytecode.length)
    let nested ← Attribute.encodeMany attributes
    let info := Bytes.ofU16 maxStack ++ Bytes.ofU16 maxLocals ++
      Bytes.ofU32 bytecode.length.toUInt32 ++ bytecode ++
      Bytes.ofU16 handlers.length.toUInt16 ++ handlers.flatMap Handler.encode ++
      Bytes.ofU16 attributes.length.toUInt16 ++ nested
    return Bytes.ofU16 i ++ Bytes.ofU32 info.length.toUInt32 ++ info

/-- The bytes of attributes one after another. -/
def Attribute.encodeMany : List Attribute → Except Error Bytes
  | [] => .ok []
  | a :: rest => do
    let first ← a.encode
    return first ++ (← Attribute.encodeMany rest)

end

/-- The bytes of a list of attributes. -/
def Attribute.encodeList (attributes : List Attribute) : Except Error Bytes := do
  return Bytes.ofU16 attributes.length.toUInt16 ++ (← Attribute.encodeMany attributes)

/-- The bytes of a member. -/
def Member.encode (m : Member) : Except Error Bytes := do
  return Bytes.ofU16 m.access ++ Bytes.ofU16 m.nameIndex ++ Bytes.ofU16 m.descriptorIndex ++
    (← Attribute.encodeList m.attributes)

namespace ClassFile

/-- The bytes of a class file. -/
def encode (cf : ClassFile) : Except Error Bytes := do
  let fields ← encodeCounted Member.encode cf.fields
  let methods ← encodeCounted Member.encode cf.methods
  let attributes ← Attribute.encodeList cf.attributes
  return Bytes.ofU32 magic ++ Bytes.ofU16 cf.minor ++ Bytes.ofU16 cf.major ++ cf.pool.encode ++
    Bytes.ofU16 cf.access ++ Bytes.ofU16 cf.thisClass ++ Bytes.ofU16 cf.superClass ++
    Bytes.ofU16 cf.interfaces.length.toUInt16 ++ cf.interfaces.flatMap Bytes.ofU16 ++
    fields ++ methods ++ attributes

/-- A copy of the class, made by writing and reading it. -/
def copy (cf : ClassFile) : Except Error ClassFile := do parse (← cf.encode)

end ClassFile

end Cleartext
