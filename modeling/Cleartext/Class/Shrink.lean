import Cleartext.Class.References
import Cleartext.Text.Hexadecimal

/-!
# Shrinking the pool

`ClassFile.shrink` drops the pool entries that nothing in the class refers
to, merges entries of equal value and adjusts every reference.  Entries that
stay keep their order, so no index grows and no instruction changes its
length.

Two entries have equal value when their keys are equal.  The key of an entry
is its own data followed by the keys of the entries it refers to, each with
its length in front.
-/

namespace Cleartext

open Layout (Change)

/-! ## Live entries -/

/-- Marks the entries that `pending` reaches.  Every step takes an index from
the list, and an entry puts its references on the list once. -/
def Pool.markAux (p : Pool) : Nat → List UInt16 → Array Bool → Except Error (Array Bool)
  | _, [], live => .ok live
  | 0, _, live => .ok live
  | fuel + 1, i :: pending, live =>
    match p.get i with
    | .error e => .error (.malformedBy .constant e)
    | .ok c =>
      if live.getD i.toNat false then markAux p fuel pending live
      else markAux p fuel (c.references ++ pending) (live.setIfInBounds i.toNat true)

/-- Marks the entries that `i` reaches. -/
def Pool.mark (p : Pool) (i : UInt16) : Change (Array Bool) UInt16 := fun live => do
  return (i, ← p.markAux (2 * p.count + 2) [i] live)

/-- The entries that the class refers to, directly or through others. -/
def ClassFile.liveEntries (cf : ClassFile) : Except Error (Array Bool) :=
  Prod.snd <$> (cf.changeReferences cf.pool.mark).run (Array.replicate cf.pool.count false)

/-! ## Keys -/

/-- The decimal digits of a number as bytes. -/
def decimalBytes (n : Int) : Bytes := Bytes.ofText (Text.intInBase 10 n)

/-- The part of a key that holds the entry's own data. -/
def Constant.keyHead : Constant → Bytes
  | .utf8 raw => 1 :: raw
  | .integer v => 3 :: decimalBytes v.toInt
  | .float bits => 4 :: decimalBytes bits.toNat
  | .long v => 5 :: decimalBytes v.toInt
  | .double bits => 6 :: decimalBytes bits.toNat
  | .class_ _ => [7]
  | .string _ => [8]
  | .member kind _ _ => Bytes.ofText (Char.ofNat kind.code.toNat).toString
  | .nameAndType .. => [12]
  | .methodHandle kind _ => 15 :: decimalBytes kind.toNat
  | .methodType _ => [16]
  | .dynamic b _ => 17 :: decimalBytes b.toNat
  | .invokeDynamic b _ => 18 :: decimalBytes b.toNat
  | .module _ => [19]
  | .package _ => [20]

/-- A key with its length in front. -/
def framedKey (key : Bytes) : Bytes := decimalBytes key.length ++ 58 :: key

/-- What is known of an entry's key. -/
inductive KeyState
  | unseen
  | active
  | done (key : Bytes)

/-- The keys found so far, and the last entry at which a cycle was met. -/
structure Keys where
  states : Array KeyState
  cycle : Option UInt16

/-- The key of an entry.  Entries on the way to it are active and none is
entered twice, so the number of entries bounds the depth. -/
def Pool.key (p : Pool) : Nat → UInt16 → StateM Keys Bytes
  | 0, _ => return []
  | depth + 1, i => do
    match (← getThe Keys).states.getD i.toNat .active with
    | .active => modify fun s => { s with cycle := some i }; return []
    | .done key => return key
    | .unseen =>
      modify fun s => { s with states := s.states.setIfInBounds i.toNat .active }
      match p.get? i with
      | none => return []
      | some c =>
        let parts ← c.references.mapM fun r => return framedKey (← p.key depth r)
        let key := c.keyHead ++ parts.flatten
        modify fun s => { s with states := s.states.setIfInBounds i.toNat (.done key) }
        return key

/-! ## The new pool -/

/-- The pool being built: what each old index becomes, the new index of each
key, and the new slots. -/
structure Compaction where
  keys : Keys
  indices : Array UInt16
  first : Std.HashMap Bytes UInt16
  slots : Array (Option Constant)

/-- Keeps or merges the entry at an old index. -/
def Compaction.place (p : Pool) (i : UInt16) (c : Constant) (s : Compaction) :
    Except Error Compaction :=
  let (key, keys) := (p.key (p.count + 1) i).run s.keys
  match keys.cycle with
  | some j => .error (.malformed (.poolCycle j.toNat))
  | none =>
    match s.first[key]? with
    | some n => .ok { s with keys, indices := s.indices.setIfInBounds i.toNat n }
    | none =>
      let n := s.slots.size.toUInt16
      let slots := s.slots.push (some c)
      .ok { keys
            indices := s.indices.setIfInBounds i.toNat n
            first := s.first.insert key n
            slots := if c.width = 2 then slots.push none else slots }

/-- The compaction of the live entries of a pool. -/
def Pool.compact (p : Pool) (live : Array Bool) : Except Error Compaction :=
  let start : Compaction :=
    { keys := ⟨Array.replicate p.count .unseen, none⟩, indices := Array.replicate p.count 0,
      first := {}, slots := #[none] }
  p.entries.foldlM (fun s (i, c) =>
    if live.getD i.toNat false then s.place p i c else .ok s) start

/-- The class with the smallest pool that means the same. -/
def ClassFile.shrink (cf : ClassFile) : Except Error ClassFile := do
  let live ← cf.liveEntries
  let plan ← cf.pool.compact live
  let move (i : UInt16) : UInt16 := plan.indices.getD i.toNat 0
  let (moved, ()) ← (cf.changeReferences fun i => (return move i : Change Unit UInt16)).run ()
  let slots := plan.slots.toList.map fun slot => slot.map (·.mapReferences move)
  return { moved with pool := Pool.ofSlots slots }

end Cleartext
