import Cleartext.Class.Tag
import Cleartext.Code.Opcode
import Cleartext.Text.Quoted

/-!
# Failures

Every way in which reading, editing, running or writing a class can fail.  A
failure is a cause with the data that explains it; `Error.message` is the one
place that words it.  `Error.within` puts a cause into the place where it was
met, and the cause stays visible under it.
-/

namespace Cleartext

/-! ## What is wrong with a class file -/

/-- A flaw in the bytes of a class file. -/
inductive Flaw
  /-- `need` bytes were wanted at `offset` and `left` were there; `left` is
  negative when the offset lies behind the end. -/
  | endOfData (offset need : Nat) (left : Int)
  | badMagic (word : UInt32)
  | trailing (count : Nat)
  | trailingInCode (count : Nat)
  | trailingInAttribute (name : String) (count : Int)
  | trailingInNested (name : String) (count : Int)
  | trailingInStackMap (count : Nat)
  | emptyPool
  | unknownTag (tag : Tag) (index : Nat)
  | wideAtEnd (tag : Tag) (index : Nat)
  | danglingEntry (index : Nat) (tag : Tag) (reference : UInt16)
  | poolCycle (index : Nat)
  | shortSequence (length offset : Nat)
  | badTextByte (byte : UInt8) (offset : Nat)
  | badDescriptor (text : String)
  | unterminatedDescriptor (text : String)
  | badReturnType (text : String)
  | truncatedType
  | unterminatedClassType
  | badFieldType (head : UInt8)
  | notWidenable (op : Opcode) (offset : Nat)
  | switchBounds (low high : Int32) (offset : Nat)
  | switchPairs (count : Int32) (offset : Nat)
  | invalidOpcode (op : Opcode) (offset : Nat)
  | reservedFrame (kind : UInt8)
  | badVerificationTag (tag : UInt8)
  | badElementTag (tag : UInt8)
  | badTypeTarget (target : UInt8)
  | codeInCode
  | unnamedClass
  | outsideCode (pc : Int)
  | tooManyArguments (method : String)
  | noRecipe (name : String)
  | recipeArguments
  | recipeConstants
  | noBootstraps
  | truncatedBootstraps

/-- The part of a class in which a lookup failed. -/
inductive Part
  | thisClass
  | attributeName
  | nestedAttributeName
  | constant

/-- Why a constant pool index is of no use. -/
inductive IndexFlaw
  | absent (index : UInt16) (slots : Nat)
  | wrongKind (index : UInt16) (found expected : Tag)
  | notLoadable (index : UInt16) (found : Tag)
  | notCallSite (index : UInt16)
  | bootstrap (index count : UInt16)
  | notHandle (index : UInt16) (found : Tag)

/-- An operand that its encoding cannot hold. -/
inductive RangeFlaw
  | cannotWiden (op : Opcode)
  | immediate (op : Opcode) (value : Int32)
  | slotNeedsWide (op : Opcode) (slot : UInt16)
  | poolIndex (index : UInt16)
  | poolIndexAt (index : UInt16) (offset : Nat)
  | branch (op : Opcode) (offset : Int32)
  | incrementNeedsWide (slot : UInt16) (delta : Int32)
  | tableTargets (count : Nat) (low high : Int32)
  | lookupPairs (keys targets : Nat)
  | invalidOpcode (op : Opcode)
  | frameOrder (offset previous : Int)
  | frameStack (count : Nat)
  | frameChop (count : Int)
  | frameLocals (count : Nat)

/-! ## What is wrong with an edit, a run or a file -/

/-- Why an edit of a method body cannot be laid out. -/
inductive Misfit
  | notAnInstruction
  | codeLength (length : Nat)
  | outsideCode
  | insideInstruction
  | branchOffEnd
  | branchOverflow (op : Opcode) (offset : Int)
  | droppedHandler (index : Nat)

/-- How interpreted code can misuse a value.  Kinds of values are named. -/
inductive Misuse
  | underflow
  | splitPair
  | wrongKind (expected found : String)
  | notReference (found : String)
  | slotRange (slot : UInt16)
  | incrementOfOther
  | returnThroughOther
  | arrayType (code : UInt8)
  | dimension (found : String)
  | lengthOf (found : String)
  | throwOf (found : String)

/-- What the emulated machine cannot do. -/
inductive Lack
  | notStatic (method : String)
  | noCode (method : String)
  | opcode (op : Opcode)
  | arrayAccess (kind : String)
  | expectedString (found : String)
  | expectedArray (found : String)
  | noNativeState (found : String)
  | notInitialized (cls : String)
  | rendering (kind : String)
  /-- A charset refuses a text, and says why. -/
  | encoding (text why : String)
  /-- A charset refuses bytes, and says why. -/
  | decoding (why : String)
  | codeSource (text : String)
  | poolSize (cls : String)
  | libraryClass (name : String)
  | foreignField (ref : String)
  | noStaticField (ref : String)
  | fieldAccess (found : String)
  | libraryMethod (ref : String)
  | bootstrap (ref : String)
  | argumentType (descriptor : String)
  /-- The routine did not return a string, which is told elsewhere. -/
  | noString
  /-- The interpreted code misused a value at `pc`. -/
  | verification (pc : Int) (misuse : Misuse)
  /-- An operation met a value of a kind it is not defined for. -/
  | collapse

/-- Why a routine cannot be prepared on its own. -/
inductive Entanglement
  | noRoutine (cls method : String)
  | noPoolSize (cls : String)
  | unknownCheck (template : String)
  | incompleteCaller

/-- What is wrong with an archive. -/
inductive ArchiveFlaw
  | format
  | commentLength
  | algorithm
  | checksum
  /-- The data ends where something begins. -/
  | ended
  /-- The data ends within something. -/
  | truncated
  /-- An offset lies before the start of the data. -/
  | beforeStart
  /-- A compressed stream is damaged before the byte at `offset`. -/
  | corrupt (offset : Nat)
  | dataInDirectory
  | longName
  | longExtra

/-- The place in which a failure was met. -/
inductive Place
  | instruction (op : Opcode) (offset : Nat)
  | listed (index : Nat) (op : Opcode)
  | codeAttribute
  | attribute (name : String)
  | stackMap
  | descriptor (text : String)
  | constantValue (field : String)
  | argument (index : Nat) (type : String)
  | codeUnit (index : Nat)
  | callSite (cls method : String) (offset : Int)
  | member (cls method : String)
  | copying (cls : String)
  | loading
  | fill (index : Nat)
  /-- A class, a method, a file or an activity by its text. -/
  | named (text : String)

/-- A failure. -/
inductive Error
  | malformed (flaw : Flaw)
  | malformedBy (part : Part) (cause : Error)
  | badIndex (flaw : IndexFlaw)
  | poolFull
  | unknownAttribute (name : String)
  | operandRange (flaw : RangeFlaw)
  | codeLength (length : Nat)
  | structural (offset : Int) (misfit : Misfit)
  /-- An edit was refused because of `cause`, which is told but no longer
  counts as the kind of the failure. -/
  | unfit (offset : Int) (cause : Error)
  | unsupported (lack : Lack)
  | stepLimit (limit : Nat)
  | stackDepth (limit : Nat)
  | timeout
  | thrown
  | noMethod (method : String)
  | spent
  /-- A failure of interpreted code, with the place where it happened. -/
  | fault (cls method : String) (pc : Int) (reason : String) (cause : Error)
  | entangled (why : Entanglement)
  | isolation (cause : Error)
  | noRoutine (cls : String)
  | archive (flaw : ArchiveFlaw)
  /-- A stage had nothing to do. -/
  | skipped (reason : String)
  | cancelled
  /-- The operation has no answer for a value of this kind, and nothing to say. -/
  | collapsed
  | within (place : Place) (cause : Error)
  /-- Any other failure, by its text. -/
  | other (text : String)

/-! ## Wording -/

/-- A byte as `0x` and two hexadecimal digits. -/
def showByte (b : UInt8) : String := "0x" ++ Text.hexPadded 2 b.toNat

/-- The wording of a flaw. -/
def Flaw.message : Flaw → String
  | .endOfData offset need left =>
    s!"unexpected end of data at offset {offset} (need {need} bytes, have {left})"
  | .badMagic word => "bad magic 0x" ++ Text.hexPadded 8 word.toNat
  | .trailing count => s!"{count} trailing bytes"
  | .trailingInCode count => s!"{count} trailing bytes in Code attribute"
  | .trailingInAttribute name count => s!"{name} attribute has {count} trailing bytes"
  | .trailingInNested name count => s!"nested {name} attribute has {count} trailing bytes"
  | .trailingInStackMap count => s!"StackMapTable has {count} trailing bytes"
  | .emptyPool => "constant_pool_count is zero"
  | .unknownTag tag index => s!"unknown constant tag {tag.code} at pool index {index}"
  | .wideAtEnd tag index => s!"{tag.name} at last pool index {index}"
  | .danglingEntry index tag reference =>
    s!"pool entry #{index} ({tag.name}) references invalid index {reference}"
  | .poolCycle index => s!"constant pool cycle at #{index}"
  | .shortSequence length offset => s!"truncated {length}-byte sequence at {offset}"
  | .badTextByte byte offset =>
    "invalid modified UTF-8 byte " ++ showByte byte ++ s!" at {offset}"
  | .badDescriptor text => "bad method descriptor " ++ Text.quote text
  | .unterminatedDescriptor text => "unterminated method descriptor " ++ Text.quote text
  | .badReturnType text => "bad return type in " ++ Text.quote text
  | .truncatedType => "truncated field type"
  | .unterminatedClassType => "unterminated class type"
  | .badFieldType head => "bad field type " ++ Text.quoteChar (Char.ofNat head.toNat)
  | .notWidenable op offset => s!"wide {op.name} at {offset}"
  | .switchBounds low high offset => s!"tableswitch bounds [{low}, {high}] at {offset}"
  | .switchPairs count offset => s!"lookupswitch npairs {count} at {offset}"
  | .invalidOpcode op offset => "invalid opcode " ++ showByte op.code ++ s!" at {offset}"
  | .reservedFrame kind => s!"reserved stack map frame type {kind}"
  | .badVerificationTag tag => s!"bad verification type tag {tag}"
  | .badElementTag tag => "bad element_value tag " ++ Text.quoteChar (Char.ofNat tag.toNat)
  | .badTypeTarget target => "bad type annotation target " ++ showByte target
  | .codeInCode => "Code attribute nested in Code"
  | .unnamedClass => "unnamed class"
  | .outsideCode pc => s!"pc {pc} outside the code"
  | .tooManyArguments method => s!"{method}: arguments exceed max_locals"
  | .noRecipe name => s!"{name} without a recipe"
  | .recipeArguments => "concat recipe needs more arguments"
  | .recipeConstants => "concat recipe needs more constants"
  | .noBootstraps => "missing BootstrapMethods"
  | .truncatedBootstraps => "truncated BootstrapMethods"

/-- The words in front of a failed lookup. -/
def Part.message : Part → String
  | .thisClass => "this_class: "
  | .attributeName => "attribute name: "
  | .nestedAttributeName => "nested attribute name: "
  | .constant => ""

/-- The wording of a useless index. -/
def IndexFlaw.message : IndexFlaw → String
  | .absent index slots => s!": #{index} (pool has {slots} slots)"
  | .wrongKind index found expected => s!": #{index} is {found.name}, expected {expected.name}"
  | .notLoadable index found => s!": #{index} ({found.name}) is not loadable"
  | .notCallSite index => s!": #{index} is not an InvokeDynamic constant"
  | .bootstrap index count => s!": bootstrap method {index} of {count}"
  | .notHandle index found => s!": bootstrap #{index} is {found.name}"

/-- The wording of an operand that does not fit. -/
def RangeFlaw.message : RangeFlaw → String
  | .cannotWiden op => s!"{op.name} cannot be widened"
  | .immediate op value => s!"{op.name} {value}"
  | .slotNeedsWide op slot => s!"{op.name} local {slot} needs wide"
  | .poolIndex index => s!"ldc index {index}"
  | .poolIndexAt index offset => s!"ldc index {index} at {offset}"
  | .branch op offset => s!"{op.name} offset {offset}"
  | .incrementNeedsWide slot delta => s!"iinc {slot} {delta} needs wide"
  | .tableTargets count low high => s!"tableswitch has {count} targets for [{low}, {high}]"
  | .lookupPairs keys targets => s!"lookupswitch has {keys} keys and {targets} targets"
  | .invalidOpcode op => "invalid opcode " ++ showByte op.code
  | .frameOrder offset previous => s!"stack map frame at {offset} follows frame at {previous}"
  | .frameStack count => s!"same_locals_1 frame with {count} stack items"
  | .frameChop count => s!"chop frame drops {count} locals"
  | .frameLocals count => s!"append frame adds {count} locals"

/-- The wording of an edit that cannot be laid out. -/
def Misfit.message : Misfit → String
  | .notAnInstruction => "not an instruction start"
  | .codeLength length => s!"code length {length} out of range"
  | .outsideCode => "offset outside the code region"
  | .insideInstruction => "offset inside an instruction"
  | .branchOffEnd => "branch target runs off the end of the code"
  | .branchOverflow op offset => s!"{op.name} offset {offset} overflows 16 bits"
  | .droppedHandler index => s!"type annotation refers to dropped exception handler {index}"

/-- The wording of a misused value. -/
def Misuse.message : Misuse → String
  | .underflow => "operand stack underflow"
  | .splitPair => "instruction splits a category 2 value"
  | .wrongKind expected found => s!"expected {expected} on the operand stack, found {found}"
  | .notReference found => s!"expected a reference on the operand stack, found {found}"
  | .slotRange slot => s!"local {slot} out of range"
  | .incrementOfOther => "iinc on a non-int local"
  | .returnThroughOther => "ret through a non-address local"
  | .arrayType code => s!"bad newarray type {code}"
  | .dimension found => s!"multianewarray dimension is {found}"
  | .lengthOf found => s!"arraylength of {found}"
  | .throwOf found => s!"athrow of {found}"

/-- The wording of what the machine cannot do. -/
def Lack.message : Lack → String
  | .notStatic method => s!": {method} is not static"
  | .noCode method => s!": {method} has no code"
  | .opcode op => s!" opcode {op.name}"
  | .arrayAccess kind => s!": array access on {kind}"
  | .expectedString found => s!": expected a string, found {found}"
  | .expectedArray found => s!": expected an array, found {found}"
  | .noNativeState found => s!": {found} has no native state"
  | .notInitialized cls => s!": {cls} is not initialized"
  | .rendering kind => s!": cannot render {kind}"
  | .encoding text why => ": encoding " ++ Text.quote text ++ ": " ++ why
  | .decoding why => ": decoding: " ++ why
  | .codeSource text => ": code source " ++ Text.quote text ++ ": <url>"
  | .poolSize cls => s!": constant pool size of {cls} is unknown"
  | .libraryClass name => s!" class {name}"
  | .foreignField ref => s!" field {ref}"
  | .noStaticField ref => s!": no static field {ref}"
  | .fieldAccess found => s!": field access on {found}"
  | .libraryMethod ref => s!" method {ref}"
  | .bootstrap ref => s!" invokedynamic bootstrap {ref}"
  | .argumentType descriptor => s!" argument type {descriptor}"
  | .noString => ""
  | .verification pc misuse => s!": pc {pc}: " ++ misuse.message
  | .collapse => ": <panic>"

/-- The wording of a routine that cannot be taken out of its class. -/
def Entanglement.message : Entanglement → String
  | .noRoutine cls method => s!"{cls} has no decrypt routine {method}"
  | .noPoolSize cls => s!"no constant pool size captured for {cls}"
  | .unknownCheck template => s!"unknown caller check {template}"
  | .incompleteCaller => "caller identity is incomplete"

/-- The wording of what is wrong with an archive. -/
def ArchiveFlaw.message : ArchiveFlaw → String
  | .format => "zip: not a valid zip file"
  | .commentLength => "zip: invalid comment length"
  | .algorithm => "zip: unsupported compression algorithm"
  | .checksum => "zip: checksum error"
  | .ended => "EOF"
  | .truncated => "unexpected EOF"
  | .beforeStart => "bytes.Reader.ReadAt: negative offset"
  | .corrupt offset => s!"flate: corrupt input before offset {offset}"
  | .dataInDirectory => "zip: write to directory"
  | .longName => "zip: FileHeader.Name too long"
  | .longExtra => "zip: FileHeader.Extra too long"

/-- The words for a place. -/
def Place.message : Place → String
  | .instruction op offset => s!"{op.name} at {offset}"
  | .listed index op => s!"instruction {index} ({op.name})"
  | .codeAttribute => "Code attribute"
  | .attribute name => s!"{name} attribute"
  | .stackMap => "StackMapTable"
  | .descriptor text => "method descriptor " ++ Text.quote text
  | .constantValue field => s!"emu: ConstantValue of {field}"
  | .argument index type => s!"argument {index} ({type})"
  | .codeUnit index => s!"code unit {index}"
  | .callSite cls method offset => s!"{cls}.{method}@{offset}"
  | .member cls method => s!"{cls}.{method}"
  | .copying cls => s!"copying {cls}"
  | .loading => "loading prepared class"
  | .fill index => s!"fill {index}"
  | .named text => text

/-- The full text of a failure. -/
def Error.message : Error → String
  | .malformed flaw => "malformed class file: " ++ flaw.message
  | .malformedBy part cause => "malformed class file: " ++ part.message ++ cause.message
  | .badIndex flaw => "bad constant pool index" ++ flaw.message
  | .poolFull => "constant pool is full"
  | .unknownAttribute name => "unknown attribute: " ++ name
  | .operandRange flaw => "operand out of range: " ++ flaw.message
  | .codeLength length => s!"code length {length} out of range"
  | .structural offset misfit => s!"structural error at offset {offset}: " ++ misfit.message
  | .unfit offset cause => s!"structural error at offset {offset}: " ++ cause.message
  | .unsupported lack => "unsupported" ++ lack.message
  | .stepLimit limit => s!"instruction budget exhausted ({limit})"
  | .stackDepth limit => s!"call depth limit reached ({limit})"
  | .timeout => "emulation timed out: context canceled"
  | .thrown => "uncaught exception"
  | .noMethod method => "no such method: " ++ method
  | .spent => "emulation already used"
  | .fault cls method pc reason cause =>
    s!"{cls}.{method} at pc {pc}: " ++ (if reason = "" then "" else reason ++ ": ") ++ cause.message
  | .entangled why => "isolation failed: " ++ why.message
  | .isolation cause => "isolation failed: " ++ cause.message
  | .noRoutine cls => "decrypt routine not found: " ++ cls
  | .archive flaw => flaw.message
  | .skipped reason => reason
  | .cancelled => "context canceled"
  | .collapsed => ""
  | .within place cause => place.message ++ ": " ++ cause.message
  | .other text => text

/-- A failure and its causes, the outermost first. -/
def Error.causes : Error → List Error
  | .within place cause => .within place cause :: cause.causes
  | .isolation cause => .isolation cause :: cause.causes
  | .fault cls method pc reason cause => .fault cls method pc reason cause :: cause.causes
  | e => [e]

/-- Whether a failure only says that there was nothing to do. -/
def Error.isSkip : Error → Bool
  | .within _ cause => cause.isSkip
  | .skipped _ => true
  | _ => false

/-- The cause of a failure without the places it was met in. -/
def Error.root : Error → Error
  | .within _ cause => cause.root
  | e => e

end Cleartext
