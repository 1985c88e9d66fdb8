import Cleartext.Machine.Library.Basic
import Cleartext.Text.ModifiedUtf8

/-!
# Methods of maps

`java/util/HashMap`.  Strings and boxed numbers are the same key when their
contents are equal, every other object is a key of its own.
-/

namespace Cleartext.Machine.Library

/-- The key that a value stands for. -/
def mapKey (v : Value) : Run MapKey := do
  match ← deref? v with
  | some (.string units) => return .text (ModifiedUtf8.encode units)
  | some (.instance cls _ hidden) =>
    if cls ∈ ["java/lang/Integer", "java/lang/Long", "java/lang/Character"] then
      match hidden with
      | .boxed content => return .boxed cls content
      | .none => return .boxed cls .null
      | .table _ => collapse
      | _ => return .value v
    else return .value v
  | _ => return .value v

/-- The entries of the map that a value refers to. -/
def mapEntries (v : Value) : Run (List (MapKey × Value)) :=
  asHidden v fun
    | .table entries => some entries
    | _ => none

/-- The value that entries give a key. -/
def valueOfKey? (key : MapKey) (entries : List (MapKey × Value)) : Option Value :=
  (entries.find? fun (k, _) => k.same key).map (·.2)

/-- Entries in which a key has the given value. -/
def setEntry (key : MapKey) (v : Value) : List (MapKey × Value) → List (MapKey × Value)
  | [] => [(key, v)]
  | (k, old) :: rest => if k.same key then (k, v) :: rest else (k, old) :: setEntry key v rest

/-- Makes a new map empty. -/
def initMap : LibraryMethod := fun args => do
  setHidden (← selfInstance args) (.table [])
  return nothing

/-- Gives a key a value and answers the one it had. -/
def put : LibraryMethod := fun args => do
  let self ← arg args 0
  let entries ← mapEntries self
  let key ← mapKey (← arg args 1)
  let v ← arg args 2
  match self with
  | .ref id => setHidden id (.table (setEntry key v entries))
  | _ => collapse
  return (valueOfKey? key entries).getD .null

/-- The methods of maps. -/
def mapMethod? : String → Option LibraryMethod
  | "<init>()V" | "<init>(I)V" => some initMap
  | "get(Ljava/lang/Object;)Ljava/lang/Object;" => some fun args => do
    let entries ← mapEntries (← arg args 0)
    return (valueOfKey? (← mapKey (← arg args 1)) entries).getD .null
  | "put(Ljava/lang/Object;Ljava/lang/Object;)Ljava/lang/Object;" => some put
  | "containsKey(Ljava/lang/Object;)Z" => some fun args => do
    let entries ← mapEntries (← arg args 0)
    return truth (valueOfKey? (← mapKey (← arg args 1)) entries).isSome
  | "size()I" => some fun args => do
    return .int (Int32.ofNat (← mapEntries (← arg args 0)).length)
  | _ => none

end Cleartext.Machine.Library
