import Cleartext.Error
import Cleartext.Machine.Emulation

/-!
# Notes

What preparing and running a routine has to tell beside its answer.
-/

namespace Cleartext.Isolation

/-- Something that happened while a routine was prepared or run. -/
inductive Note
  /-- A class kept its unused constants because of an attribute that is not
  understood. -/
  | unshrunk (cls : String) (cause : Error)
  /-- A check was replaced in a method. -/
  | replaced (method : String) (offset : Nat) (check : String)
  /-- An instruction was executed. -/
  | executed (line : Machine.TraceLine)
  /-- A routine returned after a number of steps. -/
  | returned (cls method : String) (steps : Nat)

/-- An answer with the notes that were taken on the way to it. -/
structure Reply (α : Type) where
  answer : Except Error α
  notes : List Note := []

/-- A reply behind earlier notes. -/
def Reply.after {α : Type} (notes : List Note) (r : Reply α) : Reply α :=
  { r with notes := notes ++ r.notes }

end Cleartext.Isolation
