import Cleartext.Pattern.Scan

/-!
# Decryption calls

The call of a routine that decrypts a string: a string constant is loaded and
handed to a static method that takes an object and returns a string.
-/

namespace Cleartext.Pattern

/-- The descriptor of every routine that decrypts. -/
def decryptDescriptor : String := "(Ljava/lang/Object;)Ljava/lang/String;"

/-- The template of a call whose string is loaded by `op`. -/
def decryptCall (name : String) (op : Opcode) : Template :=
  { name
    steps := [
      { family := .exactly op, demand := .bind "literal" true },
      { family := .exactly .invokestatic
        demand := .ref (.bind "class" false) (.bind "method" false) (.text decryptDescriptor) }] }

/-- The templates of decryption calls. -/
def decryptCalls : List Template :=
  [decryptCall "decrypt-ldc" .ldc, decryptCall "decrypt-ldc_w" .ldcW]

/-- A call that decrypts a string. -/
structure CallSite where
  offset : Nat
  /-- The class of the routine. -/
  cls : String
  /-- The name of the routine. -/
  method : String
  literal : Units
  found : Match

/-- The call site that a match of `decryptCalls` stands for. -/
def CallSite.of (m : Match) : CallSite :=
  { offset := m.start, cls := (m.text? "class").getD "", method := (m.text? "method").getD ""
    literal := (m.units? "literal").getD [], found := m }

end Cleartext.Pattern
