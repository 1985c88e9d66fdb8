/-!
# Library classes

The superclasses and interfaces of the library classes that the machine
emulates.
-/

namespace Cleartext.Machine

/-- The superclass of every emulated library class. -/
def librarySupers : List (String × String) := [
    ("java/lang/String", "java/lang/Object"),
    ("java/lang/Class", "java/lang/Object"),
    ("java/lang/Thread", "java/lang/Object"),
    ("java/lang/StackTraceElement", "java/lang/Object"),
    ("java/lang/AbstractStringBuilder", "java/lang/Object"),
    ("java/lang/StringBuilder", "java/lang/AbstractStringBuilder"),
    ("java/lang/StringBuffer", "java/lang/AbstractStringBuilder"),
    ("java/lang/Number", "java/lang/Object"),
    ("java/lang/Integer", "java/lang/Number"),
    ("java/lang/Long", "java/lang/Number"),
    ("java/lang/Character", "java/lang/Object"),
    ("java/util/AbstractMap", "java/lang/Object"),
    ("java/util/HashMap", "java/util/AbstractMap"),
    ("java/security/ProtectionDomain", "java/lang/Object"),
    ("java/security/CodeSource", "java/lang/Object"),
    ("java/net/URL", "java/lang/Object"),
    ("sun/misc/JavaLangAccess", "java/lang/Object"),
    ("sun/reflect/ConstantPool", "java/lang/Object"),
    ("java/lang/Throwable", "java/lang/Object"),
    ("java/lang/Exception", "java/lang/Throwable"),
    ("java/lang/Error", "java/lang/Throwable"),
    ("java/lang/RuntimeException", "java/lang/Exception"),
    ("java/lang/ReflectiveOperationException", "java/lang/Exception"),
    ("java/lang/ClassNotFoundException", "java/lang/ReflectiveOperationException"),
    ("java/lang/ArithmeticException", "java/lang/RuntimeException"),
    ("java/lang/NullPointerException", "java/lang/RuntimeException"),
    ("java/lang/ClassCastException", "java/lang/RuntimeException"),
    ("java/lang/IllegalArgumentException", "java/lang/RuntimeException"),
    ("java/lang/NumberFormatException", "java/lang/IllegalArgumentException"),
    ("java/lang/IllegalStateException", "java/lang/RuntimeException"),
    ("java/lang/NegativeArraySizeException", "java/lang/RuntimeException"),
    ("java/lang/UnsupportedOperationException", "java/lang/RuntimeException"),
    ("java/lang/IndexOutOfBoundsException", "java/lang/RuntimeException"),
    ("java/lang/ArrayIndexOutOfBoundsException", "java/lang/IndexOutOfBoundsException"),
    ("java/lang/StringIndexOutOfBoundsException", "java/lang/IndexOutOfBoundsException"),
    ("java/io/IOException", "java/lang/Exception"),
    ("java/io/UnsupportedEncodingException", "java/io/IOException")]

/-- The interfaces that the emulated library classes name themselves. -/
def libraryInterfaces : List (String × List String) := [
    ("java/lang/String", ["java/lang/CharSequence", "java/lang/Comparable", "java/io/Serializable"]),
    ("java/lang/AbstractStringBuilder", ["java/lang/CharSequence", "java/lang/Appendable"]),
    ("java/util/HashMap", ["java/util/Map", "java/lang/Cloneable", "java/io/Serializable"]),
    ("java/lang/Throwable", ["java/io/Serializable"]),
    ("java/lang/Number", ["java/io/Serializable"])]

/-- The class at the top of the hierarchy. -/
def topClass : String := "java/lang/Object"

/-- The names of the interpreted class and of its superclass, which is empty
when there is none. -/
structure Lineage where
  cls : String
  parent : String

/-- The superclass of a class. -/
def Lineage.super? (l : Lineage) (cls : String) : Option String :=
  if cls = l.cls then if l.parent = "" then none else some l.parent
  else librarySupers.lookup cls

/-- Appends the superclasses of `cls` to those found, nearest first.  No class
is taken twice, so the number of known classes bounds the steps. -/
def Lineage.climb (l : Lineage) : Nat → String → List String → List String
  | 0, _, found => found
  | fuel + 1, cls, found =>
    match l.super? cls with
    | none => found
    | some parent =>
      if parent ∈ found then found else l.climb fuel parent (found ++ [parent])

/-- A class and its superclasses, nearest first. -/
def Lineage.ancestors (l : Lineage) (cls : String) : List String :=
  l.climb (librarySupers.length + 2) cls [cls]

/-- Whether an instance of one class is an instance of another. -/
def Lineage.assignable (l : Lineage) (source target : String) : Bool :=
  target = topClass || (l.ancestors source).any fun c =>
    c = target || target ∈ (libraryInterfaces.lookup c).getD []

end Cleartext.Machine
