import Cleartext.Machine.Library.Builders
import Cleartext.Machine.Library.Identity
import Cleartext.Machine.Library.Maps
import Cleartext.Machine.Library.Numbers
import Cleartext.Machine.Library.Objects
import Cleartext.Machine.Library.Strings

/-!
# The library

Which method of the library a call means.  A method is looked for in the class
of the receiver, in its superclasses, and then in the class that the call
names and its superclasses.
-/

namespace Cleartext.Machine.Library

/-- The library method that a class declares itself. -/
def declared? (owner name descriptor : String) : Option LibraryMethod :=
  let signature := name ++ descriptor
  match owner with
  | "java/lang/Object" => objectMethod? signature
  | "java/lang/String" => stringMethod? name descriptor
  | "java/lang/StringBuilder" | "java/lang/StringBuffer" => builderMethod? owner name descriptor
  | "java/lang/Integer" => integerMethod? signature
  | "java/lang/Long" => longMethod? signature
  | "java/lang/Character" => characterMethod? signature
  | "java/lang/Math" => mathMethod? signature
  | "java/lang/System" => systemMethod? signature
  | "java/lang/Thread" => threadMethod? signature
  | "java/lang/Throwable" => throwableMethod? signature
  | "java/lang/StackTraceElement" => stackElementMethod? signature
  | "java/lang/Class" => classMethod? signature
  | "java/security/ProtectionDomain" => protectionDomainMethod? signature
  | "java/security/CodeSource" => codeSourceMethod? signature
  | "java/net/URL" => urlMethod? signature
  | "java/util/HashMap" => mapMethod? signature
  | _ => poolMethod? owner signature

/-- The library method that a call means, when the receiver is an instance of
`owner`. -/
def method? (lineage : Lineage) (owner : String) (ref : Ref) : Option LibraryMethod :=
  let inherited (owner : String) : Option LibraryMethod :=
    (lineage.ancestors owner ++ lineage.ancestors ref.owner).findSome? fun cls =>
      declared? cls ref.name ref.descriptor
  if owner.startsWith "[" then
    (arrayMethod? (ref.name ++ ref.descriptor)).orElse fun _ => inherited topClass
  else inherited owner

end Cleartext.Machine.Library
