import Cleartext.Machine.World

/-!
# Data

Values with what they refer to, as they are given to a method and taken from
it.
-/

namespace Cleartext.Machine

/-- A value with what it refers to. -/
inductive Datum
  | null
  | int (v : Int32)
  | long (v : Int64)
  | float (bits : UInt32)
  | double (bits : UInt64)
  | string (units : Units)
  | array (component : String) (elements : List Datum)
  | object (cls : String) (fields : Option (List (String × Datum)))
  /-- A return address of a subroutine. -/
  | address
  /-- A value that is nested too deeply to be shown. -/
  | deep
deriving Inhabited

mutual

/-- Builds a value; what no method can be given becomes null. -/
def Datum.build : Datum → Run Value
  | .int v => return .int v
  | .long v => return .long v
  | .float bits => return .float bits
  | .double bits => return .double bits
  | .string units => newUnits units
  | .array component elements => do
    let values ← Datum.buildAll elements
    new (.array component values.toArray)
  | _ => return .null

/-- Builds values. -/
def Datum.buildAll : List Datum → Run (List Value)
  | [] => return []
  | d :: rest => do
    let v ← d.build
    return v :: (← Datum.buildAll rest)

end

/-- A value with what it refers to, `levels` deep. -/
def Datum.of (w : World) : Nat → Value → Datum
  | 0, _ => .deep
  | levels + 1, v =>
    match v with
    | .null => .null
    | .int v => .int v
    | .long v => .long v
    | .float bits => .float bits
    | .double bits => .double bits
    | .address _ => .address
    | .ref id =>
      match w.heap[id]? with
      | none => .null
      | some (.string units) => .string units
      | some (.array component elements) =>
        .array component (elements.toList.map (Datum.of w levels))
      | some (.instance cls fields _) =>
        .object cls (fields.map fun fs => fs.map fun (n, v) => (n, Datum.of w levels v))

end Cleartext.Machine
