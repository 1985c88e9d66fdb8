import Cleartext.Class.Tag
import Cleartext.Reader
import Cleartext.Text.Utf16

/-!
# Constants

One entry of a constant pool.  An entry may refer to other entries by index;
`references` lists these indices in order and `mapReferences` changes them.
-/

namespace Cleartext

/-- A constant pool entry.  Floating point numbers are kept as bits. -/
inductive Constant
  | utf8 (raw : Bytes)
  | integer (value : Int32)
  | float (bits : UInt32)
  | long (value : Int64)
  | double (bits : UInt64)
  | class_ (name : UInt16)
  | string (text : UInt16)
  /-- A field, a method or an interface method, told apart by the tag. -/
  | member (kind : Tag) (owner nameAndType : UInt16)
  | nameAndType (name descriptor : UInt16)
  | methodHandle (kind : UInt8) (reference : UInt16)
  | methodType (descriptor : UInt16)
  | dynamic (bootstrap nameAndType : UInt16)
  | invokeDynamic (bootstrap nameAndType : UInt16)
  | module (name : UInt16)
  | package (name : UInt16)
deriving DecidableEq, Hashable, Repr, Inhabited

namespace Constant

/-- The tag of an entry. -/
def tag : Constant → Tag
  | utf8 _ => .utf8
  | integer _ => .integer
  | float _ => .float
  | long _ => .long
  | double _ => .double
  | class_ _ => .class_
  | string _ => .string
  | member kind _ _ => kind
  | nameAndType .. => .nameAndType
  | methodHandle .. => .methodHandle
  | methodType _ => .methodType
  | dynamic .. => .dynamic
  | invokeDynamic .. => .invokeDynamic
  | module _ => .module
  | package _ => .package

/-- The number of slots an entry takes. -/
def width (c : Constant) : Nat := if c.tag.isWide then 2 else 1

/-- The indices of the entries that an entry refers to. -/
def references : Constant → List UInt16
  | class_ i | string i | methodType i | module i | package i => [i]
  | member _ i j | nameAndType i j => [i, j]
  | methodHandle _ i | dynamic _ i | invokeDynamic _ i => [i]
  | utf8 _ | integer _ | float _ | long _ | double _ => []

/-- The entry with every reference changed by `f`. -/
def mapReferences (f : UInt16 → UInt16) : Constant → Constant
  | class_ i => class_ (f i)
  | string i => string (f i)
  | methodType i => methodType (f i)
  | module i => module (f i)
  | package i => package (f i)
  | member kind i j => member kind (f i) (f j)
  | nameAndType i j => nameAndType (f i) (f j)
  | methodHandle kind i => methodHandle kind (f i)
  | dynamic b i => dynamic b (f i)
  | invokeDynamic b i => invokeDynamic b (f i)
  | c => c

/-- The bytes of an entry behind its tag. -/
def payload : Constant → Bytes
  | utf8 raw => Bytes.ofU16 raw.length.toUInt16 ++ raw
  | integer v => Bytes.ofU32 v.toUInt32
  | float bits => Bytes.ofU32 bits
  | long v => Bytes.ofU64 v.toUInt64
  | double bits => Bytes.ofU64 bits
  | class_ i | string i | methodType i | module i | package i => Bytes.ofU16 i
  | member _ i j | nameAndType i j | dynamic i j | invokeDynamic i j =>
    Bytes.ofU16 i ++ Bytes.ofU16 j
  | methodHandle kind i => kind :: Bytes.ofU16 i

/-- The bytes of an entry. -/
def encode (c : Constant) : Bytes := c.tag.code :: c.payload

/-- Reads the entry with the given tag, which stands at pool index `index`. -/
def readPayload (index : Nat) : Tag → Reader Constant
  | .utf8 => do
    let length ← Reader.u16
    return utf8 (← Reader.bytes length.toNat)
  | .integer => return integer (← Reader.u32).toInt32
  | .float => return float (← Reader.u32)
  | .long => return long (← Reader.u64).toInt64
  | .double => return double (← Reader.u64)
  | .class_ => return class_ (← Reader.u16)
  | .string => return string (← Reader.u16)
  | .nameAndType => return nameAndType (← Reader.u16) (← Reader.u16)
  | .methodHandle => return methodHandle (← Reader.u8) (← Reader.u16)
  | .methodType => return methodType (← Reader.u16)
  | .dynamic => return dynamic (← Reader.u16) (← Reader.u16)
  | .invokeDynamic => return invokeDynamic (← Reader.u16) (← Reader.u16)
  | .module => return module (← Reader.u16)
  | .package => return package (← Reader.u16)
  | tag =>
    if tag = .field || tag = .method || tag = .interfaceMethod then
      return member tag (← Reader.u16) (← Reader.u16)
    else throw (.malformed (.unknownTag tag index))

end Constant

/-- The value of a constant that can be loaded on the operand stack. -/
inductive Loadable
  | int (value : Int32)
  | long (value : Int64)
  | float (bits : UInt32)
  | double (bits : UInt64)
  | string (units : Units)
  | class_ (name : String)
deriving DecidableEq, Repr

/-- A field or method reference with its names. -/
structure Ref where
  kind : Tag
  owner : String
  name : String
  descriptor : String
deriving DecidableEq, Repr

/-- A reference as listings and messages show it. -/
def Ref.text (r : Ref) : String := r.owner ++ "." ++ r.name ++ ":" ++ r.descriptor

end Cleartext
