import Cleartext.Machine.Emulation
import Cleartext.Replay.Conversion
import Cleartext.Yaml.Writer

/-!
# Saved calls

A call of a method that can be repeated: the method, the caller it sees, and
its arguments.  A saved call is written as a document, and every document that
names such fields can be read as one.  The format of documents and the
conversion of arguments are the usual ones unless others are given.
-/

namespace Cleartext.Replay

open Yaml (Value Node Trouble)
open Machine (Datum)

/-- An argument: the descriptor of its type, and its value as data. -/
structure Argument where
  type : String := ""
  value : Value := .null
deriving Inhabited

/-- A string as an argument.  What is no well-formed text is kept as its code
units. -/
def Argument.ofUnits (type : String) (units : Units) : Argument :=
  { type
    value := if Units.ofText units.text = units then .text units.text
      else .units (units.map UInt16.toNat) }

/-- An argument as it is written. -/
def Argument.written (a : Argument) : Value := .map [("type", .text a.type), ("value", a.value)]

/-- A call that can be repeated. -/
structure SavedCall where
  cls : String := ""
  method : String := ""
  descriptor : String := ""
  callerClass : String := ""
  callerMethod : String := ""
  poolSize : Int := 0
  codeSource : String := ""
  args : List Argument := []
deriving Inhabited

namespace SavedCall

/-- What a run of the call sees of its caller. -/
def config (s : SavedCall) : Machine.Config :=
  { codeSource := s.codeSource, caller := ⟨s.callerClass, s.callerMethod⟩, poolSize := s.poolSize }

/-- The arguments, from the one at a position on. -/
def valuesFrom (cast : Cast) : Nat → List Argument → Except Error (List Datum)
  | _, [] => return []
  | i, a :: rest =>
    match cast.datum a.type a.value with
    | .ok d => return d :: (← valuesFrom cast (i + 1) rest)
    | .error e => throw (.within (.argument i a.type) e)

/-- The arguments of the call. -/
def values (s : SavedCall) (cast : Cast := .standard) : Except Error (List Datum) :=
  valuesFrom cast 0 s.args

/-! ## Writing -/

/-- The fields of the call as they are written. -/
def pairs (s : SavedCall) : List (String × Value) :=
  [("class", .text s.cls), ("method", .text s.method), ("descriptor", .text s.descriptor),
    ("caller", .map [("class", .text s.callerClass), ("method", .text s.callerMethod)]),
    ("pool_size", .int s.poolSize)] ++
  (if s.codeSource = "" then [] else [("code_source", .text s.codeSource)]) ++
  [("args", .list (s.args.map Argument.written))]

/-- The call as a document. -/
def document (s : SavedCall) (format : Yaml.Format := .standard) : String :=
  format.document s.pairs

/-- The call in a few lines. -/
def summary (s : SavedCall) : String :=
  let args := s.args.map fun a => "\x7b" ++ a.type ++ " " ++ plainText a.value ++ "\x7d"
  s!"Class:  {s.cls}\nMethod: {s.method}{s.descriptor}\n" ++
    s!"Caller: {s.callerClass}.{s.callerMethod} (pool size {s.poolSize})\n" ++
    "Args:   [" ++ " ".intercalate args ++ "]\n"

end SavedCall

/-! ## Reading -/

/-- A step of reading a document into fields; complaints are gathered. -/
abbrev Filling := StateT (List String) (Except Trouble)

namespace Filling

/-- Notes a complaint. -/
def complain (text : String) : Filling Unit := modify (· ++ [text])

/-- Notes that a node does not fit its use. -/
def unfit (n : Node) (use : String) : Filling Unit :=
  match n with
  | .scalar tag text style line =>
    let found := if tag ≠ "" then tag else if style ≠ .plain then "!!str" else (Yaml.plainValue text).tag
    let bytes := Bytes.ofText text
    let short := if 10 < bytes.length then Text.lossy (bytes.take 7) ++ "..." else text
    complain s!"line {line}: cannot unmarshal {found} `{short}` into {use}"
  | .sequence tag _ line =>
    let found := if tag = "" then "!!seq" else tag
    complain s!"line {line}: cannot unmarshal {found} into {use}"
  | .mapping tag _ line =>
    let found := if tag = "" then "!!map" else tag
    complain s!"line {line}: cannot unmarshal {found} into {use}"
  | .cycle name _ => throw (.use s!"anchor '{name}' value contains itself")

/-- Notes the keys that a mapping has twice; whether there are none. -/
def distinct (n : Node) : Filling Bool :=
  match n with
  | .mapping _ pairs _ => do
    let twice := Yaml.duplicates pairs
    modify (· ++ twice)
    return twice.isEmpty
  | _ => return true

/-- The fields of a mapping by name, those that it merges behind its own. -/
def fields : Nat → Node → (use : String) → Filling (Option (List (String × Node)))
  | 0, _, _ => return none
  | depth + 1, n, use =>
    match n with
    | .mapping _ pairs _ => do
      if !(← distinct n) then return none
      let mut own := []
      let mut merged := []
      for (k, v) in pairs do
        if k.isMerge then
          match v with
          | .sequence _ items _ =>
            for item in items do merged := merged ++ (← mergedFields depth item use)
          | v => merged := merged ++ (← mergedFields depth v use)
        else
          match k with
          | .scalar .. =>
            if let some name := ← k.keyText? then own := own ++ [(name, v)]
          | k => unfit k "string"
      return some (own ++ merged)
    | .scalar tag text style _ => do
      match ← Yaml.scalarValue tag text style with
      | .null => return none
      | _ =>
        unfit n use
        return none
    | n => do
      unfit n use
      return none
where
  /-- The fields that a node brings into a mapping. -/
  mergedFields (depth : Nat) (n : Node) (use : String) : Filling (List (String × Node)) :=
    match n with
    | .mapping .. => do return (← fields depth n use).getD []
    | _ => throw (.use "map merge requires map or sequence of maps as the value")

/-- A node as a text; nothing keeps the text that is there. -/
def text (n : Node) : Filling String :=
  match n with
  | .scalar tag raw style _ => do
    match ← Yaml.scalarValue tag raw style with
    | .null => return ""
    | .text s => return s
    | _ => return raw
  | n => do
    if ← distinct n then unfit n "string"
    return ""

/-- A node as a whole number. -/
def number (n : Node) : Filling Int :=
  match n with
  | .scalar tag raw style _ => do
    match ← Yaml.scalarValue tag raw style with
    | .null => return 0
    | .int i =>
      if i < 0x8000000000000000 then return i
      else
        unfit n "int"
        return 0
    | .float bits =>
      let isNan := Decimal.double.infinity < bits % Decimal.double.sign
      let isLarge := bits < Decimal.double.sign && (truncated? bits).all (0x8000000000000000 < ·)
      if isNan || isLarge then
        unfit n "int"
        return 0
      else return wholeNumber 64 bits
    | _ =>
      unfit n "int"
      return 0
  | n => do
    if ← distinct n then unfit n "int"
    return 0

/-- The depth of mappings that are merged into one another. -/
def mergeDepth : Nat := 100

/-- The field with a name, read in a given way. -/
def field {α : Type} (fs : List (String × Node)) (name : String) (read : Node → Filling α)
    (absent : α) : Filling α :=
  match fs.lookup name with
  | some n => read n
  | none => return absent

/-- A node as an argument. -/
def argument (n : Node) : Filling (Option Argument) := do
  match ← fields mergeDepth n "emu.field" with
  | none => return none
  | some fs =>
    return some { type := ← field fs "type" text "", value := ← field fs "value" (fun n => n.value) .null }

/-- A node as the list of arguments; an empty item is none. -/
def arguments (n : Node) : Filling (List Argument) :=
  match n with
  | .sequence _ items _ => do return (← items.mapM argument).filterMap id
  | .scalar tag raw style _ => do
    match ← Yaml.scalarValue tag raw style with
    | .null => return []
    | _ =>
      unfit n "[]emu.field"
      return []
  | n => do
    if ← distinct n then unfit n "[]emu.field"
    return []

/-- A node as a caller: its class and its method. -/
def caller (n : Node) : Filling (String × String) := do
  match ← fields mergeDepth n "emu.StackFrame" with
  | none => return ("", "")
  | some fs => return (← field fs "class" text "", ← field fs "method" text "")

/-- A node as a saved call. -/
def savedCall (n : Node) : Filling SavedCall := do
  match ← fields mergeDepth n "emu.State" with
  | none => return {}
  | some fs =>
    let (callerClass, callerMethod) ← field fs "caller" caller ("", "")
    return { cls := ← field fs "class" text "", method := ← field fs "method" text ""
             descriptor := ← field fs "descriptor" text "", callerClass, callerMethod
             poolSize := ← field fs "pool_size" number 0
             codeSource := ← field fs "code_source" text ""
             args := ← field fs "args" arguments [] }

end Filling

/-- Reads a saved call. -/
def SavedCall.parse (text : String) (format : Yaml.Format := .standard) :
    Except Trouble SavedCall := do
  match ← format.parse text with
  | none => return {}
  | some n =>
    let (call, complaints) ← (Filling.savedCall n).run []
    if complaints.isEmpty then return call else throw (Yaml.complaining complaints)

end Cleartext.Replay
