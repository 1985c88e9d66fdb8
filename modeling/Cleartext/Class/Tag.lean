/-!
# Constant tags

The byte in front of every constant pool entry.  Seventeen of its values are
defined; the others have a name too, so that they can be shown.
-/

namespace Cleartext

/-- The tag of a constant pool entry. -/
structure Tag where
  code : UInt8
deriving DecidableEq, Hashable, Repr, Inhabited

namespace Tag

@[match_pattern] abbrev utf8 : Tag := ⟨1⟩
@[match_pattern] abbrev integer : Tag := ⟨3⟩
@[match_pattern] abbrev float : Tag := ⟨4⟩
@[match_pattern] abbrev long : Tag := ⟨5⟩
@[match_pattern] abbrev double : Tag := ⟨6⟩
@[match_pattern] abbrev class_ : Tag := ⟨7⟩
@[match_pattern] abbrev string : Tag := ⟨8⟩
@[match_pattern] abbrev field : Tag := ⟨9⟩
@[match_pattern] abbrev method : Tag := ⟨10⟩
@[match_pattern] abbrev interfaceMethod : Tag := ⟨11⟩
@[match_pattern] abbrev nameAndType : Tag := ⟨12⟩
@[match_pattern] abbrev methodHandle : Tag := ⟨15⟩
@[match_pattern] abbrev methodType : Tag := ⟨16⟩
@[match_pattern] abbrev dynamic : Tag := ⟨17⟩
@[match_pattern] abbrev invokeDynamic : Tag := ⟨18⟩
@[match_pattern] abbrev module : Tag := ⟨19⟩
@[match_pattern] abbrev package : Tag := ⟨20⟩

/-- The name of a tag, as listings and messages show it. -/
def name : Tag → String
  | utf8 => "Utf8"
  | integer => "Integer"
  | float => "Float"
  | long => "Long"
  | double => "Double"
  | class_ => "Class"
  | string => "String"
  | field => "Fieldref"
  | method => "Methodref"
  | interfaceMethod => "InterfaceMethodref"
  | nameAndType => "NameAndType"
  | methodHandle => "MethodHandle"
  | methodType => "MethodType"
  | dynamic => "Dynamic"
  | invokeDynamic => "InvokeDynamic"
  | module => "Module"
  | package => "Package"
  | ⟨code⟩ => "Tag(" ++ toString code.toNat ++ ")"

/-- Whether an entry with this tag takes two slots of the pool. -/
def isWide (tag : Tag) : Bool := tag == long || tag == double

end Tag

end Cleartext
