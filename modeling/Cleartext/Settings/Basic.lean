import Cleartext.Replay.Conversion
import Cleartext.Settings.Duration
import Cleartext.Yaml.Writer

/-!
# Settings

What a run is told to do.  Settings come as data from several sources, are
read generously, and get their defaults where they are zero.
-/

namespace Cleartext

namespace Settings

/-- The settings of a decryption. -/
structure Decryption where
  output : String := ""
  timeout : Duration := ⟨0⟩
  maxSteps : Int := 0
  cacheSize : Int := 0
  parallelism : Int := 0
  /-- Whether routines run with their checks in place. -/
  raw : Bool := false
  dryRun : Bool := false
  json : String := ""
  progress : Bool := false
  trace : Bool := false
  /-- Where a saved call is written for every call that failed. -/
  stateDir : String := ""
  deadline : Duration := ⟨0⟩
deriving Inhabited

end Settings

/-- All settings. -/
structure Settings where
  verbose : Bool := false
  color : Bool := false
  noColor : Bool := false
  decrypt : Settings.Decryption := {}
deriving Inhabited

namespace Settings

open Yaml (Value)

/-- Why settings are refused. -/
inductive Flaw
  /-- Values that cannot be read, as complaints. -/
  | unreadable (complaints : List String)
  | timeout
  | maxSteps
  | deadline
  | colors

/-- The wording of a refusal. -/
def Flaw.message : Flaw → String
  | .unreadable complaints =>
    "config: failed to unmarshal: decoding failed due to the following error(s):\n\n" ++
      "\n".intercalate complaints
  | .timeout => "config: failed to verify: config: timeout must be positive"
  | .maxSteps => "config: failed to verify: config: max-steps must be positive"
  | .deadline => "config: failed to verify: config: deadline must be positive"
  | .colors => "config: failed to verify: config: color and no-color cannot be set at the same time"

/-! ## Reading single values -/

/-- A step of reading; complaints are gathered. -/
abbrev Gathering := StateM (List String)

/-- Notes a complaint about a setting. -/
def complain {α : Type} (name text : String) (fallback : α) : Gathering α := do
  modify (· ++ ["'" ++ name ++ "' " ++ text])
  return fallback

/-- Notes that a value is of no use for a type. -/
def unusable {α : Type} (name type : String) (v : Value) (fallback : α) : Gathering α :=
  complain name s!"expected type '{type}', got unconvertible type '{Replay.typeName v}'" fallback

/-- Notes that a text is no value of a type. -/
def unparsable {α : Type} (name type function : String) (flaw : Decimal.NumeralFlaw) (fallback : α) :
    Gathering α :=
  complain name s!"cannot parse value as '{type}': strconv.{function}: {flaw.message}" fallback

/-- A value as a truth value. -/
def readBool (name : String) (v : Value) : Gathering Bool :=
  match v with
  | .null => return false
  | .bool b => return b
  | .int n => return n ≠ 0
  | .float bits => return bits % Decimal.double.sign ≠ 0
  | .text "" => return false
  | .text s =>
    match Decimal.readBool s with
    | .ok b => return b
    | .error flaw => unparsable name "bool" "ParseBool" flaw false
  | v => unusable name "bool" v false

/-- A value as a whole number of a type. -/
def readInt (name type : String) (v : Value) : Gathering Int :=
  match v with
  | .null | .text "" => return 0
  | .bool b => return if b then 1 else 0
  | .int n => return (Int64.ofInt n).toInt
  | .float bits => return Replay.wholeNumber 64 bits
  | .text s =>
    match Decimal.readInt64 s with
    | .ok n => return n
    | .error flaw => unparsable name type "ParseInt" flaw 0
  | v => unusable name type v 0

/-- A value as a duration: a text, or a number of nanoseconds. -/
def readDuration (name : String) (v : Value) : Gathering Duration :=
  match v with
  | .text s =>
    match Duration.parse s with
    | .ok d => return d
    | .error flaw => complain name flaw.discreet ⟨0⟩
  | v => do return ⟨← readInt name "time.Duration" v⟩

/-- A value as a text. -/
def readText (name : String) (v : Value) : Gathering String :=
  match v with
  | .null => return ""
  | .bool b => return if b then "1" else "0"
  | .int n => return toString n
  | .float bits => return Replay.positionalText bits
  | .text s => return s
  | v => unusable name "string" v ""

/-! ## Reading settings -/

/-- The value at a key of data. -/
def valueAt (pairs : List (String × Value)) (key : String) : Value :=
  ((pairs.find? fun p => p.1.toLower = key).map (·.2)).getD .null

/-- The settings of a decryption from data. -/
def readDecryption (pairs : List (String × Value)) : Gathering Decryption := do
  let at_ {α : Type} (key : String) (read : String → Value → Gathering α) : Gathering α :=
    read ("decrypt." ++ key) (valueAt pairs key)
  return {
    output := ← at_ "output" readText
    timeout := ← at_ "timeout" readDuration
    maxSteps := ← at_ "max-steps" (readInt · "int")
    cacheSize := ← at_ "cache-size" (readInt · "int")
    parallelism := ← at_ "parallelism" (readInt · "int")
    raw := ← at_ "raw" readBool
    dryRun := ← at_ "dry-run" readBool
    json := ← at_ "json" readText
    progress := ← at_ "progress" readBool
    trace := ← at_ "trace" readBool
    stateDir := ← at_ "state-dir" readText
    deadline := ← at_ "deadline" readDuration }

/-- The kind of a value, as complaints name it. -/
def kindName : Value → String
  | .bool _ => "bool"
  | .int n => if n < 0x8000000000000000 then "int" else "uint64"
  | .float _ => "float64"
  | .text _ => "string"
  | .moment _ => "struct"
  | .list _ | .units _ => "slice"
  | .null => "invalid"
  | .map _ => "map"

/-- Settings from data. -/
def readSettings (pairs : List (String × Value)) : Gathering Settings := do
  let verbose ← readBool "verbose" (valueAt pairs "verbose")
  let color ← readBool "color" (valueAt pairs "color")
  let noColor ← readBool "no-color" (valueAt pairs "no-color")
  let decrypt ← match valueAt pairs "decrypt" with
    | .null => pure {}
    | .map inner => readDecryption inner
    | v => complain "decrypt" s!"expected a map or struct, got {Text.quote (kindName v)}" {}
  return { verbose, color, noColor, decrypt }

/-! ## Defaults -/

/-- The time that a single call may take. -/
def defaultTimeout : Duration := ⟨5000000000⟩

/-- The steps that a single call may take. -/
def defaultMaxSteps : Int := 5000000

/-- The number of prepared routines that are kept. -/
def defaultCacheSize : Int := 256

/-- Puts defaults in place of zeros, and refuses what makes no sense. -/
def verify (processors : Nat) (s : Settings) : Except Flaw Settings := do
  let d := s.decrypt
  if d.timeout.nanoseconds < 0 then throw .timeout
  if d.maxSteps < 0 then throw .maxSteps
  if d.deadline.nanoseconds < 0 then throw .deadline
  if s.color && s.noColor then throw .colors
  return { s with
    decrypt := { d with
      timeout := if d.timeout.nanoseconds = 0 then defaultTimeout else d.timeout
      maxSteps := if d.maxSteps = 0 then defaultMaxSteps else d.maxSteps
      cacheSize := if d.cacheSize ≤ 0 then defaultCacheSize else d.cacheSize
      parallelism := if d.parallelism ≤ 0 then processors else d.parallelism } }

/-- Whether colours are asked for or forbidden. -/
def forceColor (s : Settings) : Option Bool :=
  if s.color then some true else if s.noColor then some false else none

/-- The settings that data stands for, on a machine with a number of
processors. -/
def load (processors : Nat) (pairs : List (String × Value)) : Except Flaw Settings :=
  let (settings, complaints) := (readSettings pairs).run []
  if complaints.isEmpty then settings.verify processors else .error (.unreadable complaints)

/-- Puts a value at a path of keys into data. -/
def insertAt : List String → Value → List (String × Value) → List (String × Value)
  | [], _, pairs => pairs
  | [key], v, pairs => pairs.filter (·.1 ≠ key) ++ [(key, v)]
  | key :: path, v, pairs =>
    let inner := match pairs.lookup key with
      | some (.map inner) => inner
      | _ => []
    pairs.filter (·.1 ≠ key) ++ [(key, .map (insertAt path v inner))]

/-- Data from values at keys with points. -/
def ofKeys (keys : List (String × Value)) : List (String × Value) :=
  keys.foldl (fun pairs (key, v) => insertAt (key.toLower.splitOn ".") v pairs) []

/-- Data from a document: a mapping, or nothing. -/
def readDocument (format : Yaml.Format) (text : String) :
    Except Yaml.Trouble (List (String × Value)) := do
  match ← format.parse text with
  | none => return []
  | some n =>
    match ← n.value with
    | .map pairs => return pairs
    | .null => return []
    | v =>
      throw (Yaml.unfit n.line v.tag ("map[string]interface " ++ "\x7b\x7d"))

end Settings

end Cleartext
