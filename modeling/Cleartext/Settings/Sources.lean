import Cleartext.Settings.Basic

/-!
# Sources of settings

A setting has a key with points, and its value is the first that is there:
what was given on the command line, a variable of the environment, the
configuration file, and the default of the command line.

In a file the parts of a key may be nested or joined by points, and their case
does not matter.
-/

namespace Cleartext.Settings

open Yaml (Value)

/-! ## Files -/

mutual

/-- Data with all keys in lower case. -/
def lowered : Value → Value
  | .map pairs => .map (loweredPairs pairs)
  | v => v

/-- Pairs with all keys in lower case. -/
def loweredPairs : List (String × Value) → List (String × Value)
  | [] => []
  | (k, v) :: rest => (k.toLower, lowered v) :: loweredPairs rest

end

mutual

/-- The keys of data that hold no further data, with points between their
parts. -/
def leafKeys (start : String) : Value → List String
  | .map pairs => leafKeysOf start pairs
  | _ => [start]

/-- The keys of pairs that hold no further data. -/
def leafKeysOf (start : String) : List (String × Value) → List String
  | [] => []
  | (k, v) :: rest => leafKeys (if start = "" then k else start ++ "." ++ k) v ++ leafKeysOf start rest

end

/-- Looks a path of keys up in data.  The longest key that joins the first
parts of the path is tried first. -/
def search : Nat → List (String × Value) → List String → Option Value
  | 0, _, _ => none
  | fuel + 1, pairs, path =>
    (List.range path.length).reverse.findSome? fun n =>
      match pairs.lookup (".".intercalate (path.take (n + 1))), path.drop (n + 1) with
      | some .null, [] => none
      | some v, [] => some v
      | some (.map inner), rest => search fuel inner rest
      | _, _ => none

/-- The value at a key of a file. -/
def searchKey (pairs : List (String × Value)) (key : String) : Option Value :=
  let path := key.splitOn "."
  search path.length pairs path

/-- Whether a part of the way to a key is taken by a value. -/
def isShadowed (pairs : List (String × Value)) (key : String) : Bool :=
  let path := key.splitOn "."
  (List.range (path.length - 1)).any fun n =>
    match searchKey pairs (".".intercalate (path.take (n + 1))) with
    | none | some (.map _) => false
    | some _ => true

/-! ## All sources -/

/-- The sources of settings. -/
structure Sources where
  /-- What was given on the command line, by key. -/
  given : List (String × Value) := []
  /-- The value of a variable of the environment. -/
  environment : String → Option String := fun _ => none
  /-- The content of the configuration file, with keys in lower case. -/
  file : List (String × Value) := []
  /-- The defaults of the command line, by key. -/
  defaults : List (String × Value) := []
  /-- How single settings are converted. -/
  cast : Replay.Cast := .standard

/-- Variables with names of their own. -/
def namedVariables : List (String × String) := [("color", "CLICOLOR_FORCE"), ("no-color", "NO_COLOR")]

/-- The name of the variable for a key. -/
def variableName (key : String) : String :=
  "DESTRINGER_" ++ String.ofList (key.toUpper.toList.map fun c => if c = '-' || c = '.' then '_' else c)

namespace Sources

/-- The value of a variable that is not empty. -/
def external (s : Sources) (name : String) : Option Value :=
  match s.environment name with
  | none | some "" => none
  | some text => some (.text text)

/-- Whether a variable takes a part of the way to a key. -/
def isHidden (s : Sources) (key : String) : Bool :=
  let path := key.splitOn "."
  (List.range (path.length - 1)).any fun n =>
    (s.external (variableName (".".intercalate (path.take (n + 1))))).isSome

/-- The value of a setting. -/
def get? (s : Sources) (key : String) : Option Value :=
  match s.given.lookup key with
  | some v => some v
  | none =>
    match s.external (variableName key) with
    | some v => some v
    | none =>
      if s.isHidden key then none
      else match (namedVariables.lookup key).bind s.external with
        | some v => some v
        | none =>
          match searchKey s.file key with
          | some v => some v
          | none => if isShadowed s.file key then none else s.defaults.lookup key

/-- A setting as a truth value; what is none counts as false. -/
def bool (s : Sources) (key : String) : Bool :=
  (s.cast.bool ((s.get? key).getD .null)).toOption.getD false

/-- A setting as a text; what is none counts as empty. -/
def text (s : Sources) (key : String) : String :=
  (s.cast.text ((s.get? key).getD .null)).toOption.getD ""

/-- All keys that have a value. -/
def keys (s : Sources) : List String :=
  let known := s.defaults.map (·.1)
  known ++ (leafKeysOf "" s.file).filter fun k => k ∉ known

/-- All settings as data. -/
def pairs (s : Sources) : List (String × Value) :=
  ofKeys (s.keys.filterMap fun k => (s.get? k).map fun v => (k, v))

end Sources

/-- The data that a document stands for. -/
def ofDocument (text : String) (format : Yaml.Format := .standard) :
    Except Yaml.Trouble (List (String × Value)) := do
  return { file := loweredPairs (← readDocument format text) : Sources }.pairs

end Cleartext.Settings
