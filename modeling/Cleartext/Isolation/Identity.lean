import Cleartext.Machine.Value

/-!
# Identities

What a routine that decrypts checks of its caller.
-/

namespace Cleartext.Isolation

/-- A caller: the internal name of its class, its method, and the size of its
constant pool. -/
structure Identity where
  cls : String
  method : String
  poolSize : Int
deriving DecidableEq, Repr

/-- An identity in words. -/
def Identity.text (id : Identity) : String := s!"{id.cls}.{id.method}#{id.poolSize}"

end Cleartext.Isolation
