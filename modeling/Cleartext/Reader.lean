import Cleartext.Bytes
import Cleartext.Error

/-!
# Reading bytes in order

A `Cursor` is the unread rest of a byte string together with its offset, so
that a failure can say where the data ended.  A `Reader` moves a cursor
forward and stops at the first failure.
-/

namespace Cleartext

/-- A position in a byte string of `total` bytes.  The rest is empty when the
offset lies behind the end. -/
structure Cursor where
  rest : Bytes
  offset : Nat
  total : Nat

namespace Cursor

/-- The start of a byte string. -/
def start (bytes : Bytes) : Cursor := ⟨bytes, 0, bytes.length⟩

/-- The position `offset` of a byte string. -/
def seek (bytes : Bytes) (offset : Nat) : Cursor := ⟨bytes.drop offset, offset, bytes.length⟩

/-- The number of unread bytes, negative behind the end. -/
def left (c : Cursor) : Int := c.total - c.offset

/-- The failure of wanting `need` bytes. -/
def ended (c : Cursor) (need : Nat) : Error := .malformed (.endOfData c.offset need c.left)

/-- Moves forward over `n` bytes that need not exist. -/
def skip (c : Cursor) (n : Nat) : Cursor := { c with rest := c.rest.drop n, offset := c.offset + n }

/-- Reads a byte. -/
def u8 (c : Cursor) : Except Error (UInt8 × Cursor) :=
  match c.rest with
  | a :: rest => .ok (a, { c with rest, offset := c.offset + 1 })
  | _ => .error (c.ended 1)

/-- Reads a word of two bytes. -/
def u16 (c : Cursor) : Except Error (UInt16 × Cursor) :=
  match c.rest with
  | a :: b :: rest => .ok (Bytes.toU16 a b, { c with rest, offset := c.offset + 2 })
  | _ => .error (c.ended 2)

/-- Reads a word of four bytes. -/
def u32 (c : Cursor) : Except Error (UInt32 × Cursor) :=
  match c.rest with
  | a :: b :: x :: y :: rest =>
    .ok (Bytes.toU32 a b x y, { c with rest, offset := c.offset + 4 })
  | _ => .error (c.ended 4)

/-- Reads a word of eight bytes. -/
def u64 (c : Cursor) : Except Error (UInt64 × Cursor) :=
  match c.rest with
  | a :: b :: x :: y :: e :: f :: g :: h :: rest =>
    .ok (Bytes.toU64 (Bytes.toU32 a b x y) (Bytes.toU32 e f g h),
      { c with rest, offset := c.offset + 8 })
  | _ => .error (c.ended 8)

/-- Reads `n` bytes. -/
def bytes (n : Nat) (c : Cursor) : Except Error (Bytes × Cursor) :=
  match c.rest.takeExact n with
  | some (head, rest) => .ok (head, { c with rest, offset := c.offset + n })
  | none => .error (c.ended n)

end Cursor

/-- A computation that reads bytes in order. -/
abbrev Reader := StateT Cursor (Except Error)

namespace Reader

/-- Reads a byte. -/
def u8 : Reader UInt8 := Cursor.u8

/-- Reads a word of two bytes. -/
def u16 : Reader UInt16 := Cursor.u16

/-- Reads a word of four bytes. -/
def u32 : Reader UInt32 := Cursor.u32

/-- Reads a word of eight bytes. -/
def u64 : Reader UInt64 := Cursor.u64

/-- Reads `n` bytes. -/
def bytes (n : Nat) : Reader Bytes := Cursor.bytes n

/-- Reads a signed byte. -/
def i8 : Reader Int32 := return (← u8).toInt8.toInt32

/-- Reads a signed word of two bytes. -/
def i16 : Reader Int32 := return (← u16).toInt16.toInt32

/-- Reads a signed word of four bytes. -/
def i32 : Reader Int32 := return (← u32).toInt32

/-- The results of `n` runs of a reader. -/
def times {α : Type} (read : Reader α) : Nat → Reader (List α)
  | 0 => return []
  | n + 1 => do
    let first ← read
    return first :: (← times read n)

/-- Runs a reader on a whole byte string and returns the unread rest too. -/
def runOn {α : Type} (read : Reader α) (bytes : Bytes) : Except Error (α × Cursor) :=
  read.run (Cursor.start bytes)

end Reader

end Cleartext
