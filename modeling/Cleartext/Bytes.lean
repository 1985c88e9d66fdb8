/-!
# Bytes and big-endian words

A byte string is a `List UInt8`, so that reading is pattern matching and
writing is appending.  Words of two, four and eight bytes are stored with
the most significant byte first.

`ofU16`, `ofU32` and `ofU64` write a word; `toU16`, `toU32` and `toU64` read
one back from its bytes.  `takeExact` splits off a given number of bytes and
fails when there are fewer.
-/

namespace Cleartext

/-- A byte string. -/
abbrev Bytes := List UInt8

namespace Bytes

/-! ## Words to bytes -/

/-- The two bytes of a word, most significant first. -/
def ofU16 (v : UInt16) : Bytes := [(v >>> 8).toUInt8, v.toUInt8]

/-- The four bytes of a word, most significant first. -/
def ofU32 (v : UInt32) : Bytes :=
  [(v >>> 24).toUInt8, (v >>> 16).toUInt8, (v >>> 8).toUInt8, v.toUInt8]

/-- The eight bytes of a word, most significant first. -/
def ofU64 (v : UInt64) : Bytes :=
  ofU32 (v >>> 32).toUInt32 ++ ofU32 v.toUInt32

/-! ## Bytes to words -/

/-- The word whose bytes are `a`, `b`. -/
def toU16 (a b : UInt8) : UInt16 := (a.toUInt16 <<< 8) ||| b.toUInt16

/-- The word whose bytes are `a`, `b`, `c`, `d`. -/
def toU32 (a b c d : UInt8) : UInt32 :=
  (a.toUInt32 <<< 24) ||| (b.toUInt32 <<< 16) ||| (c.toUInt32 <<< 8) ||| d.toUInt32

/-- The word made of a high and a low half. -/
def toU64 (high low : UInt32) : UInt64 := (high.toUInt64 <<< 32) ||| low.toUInt64

/-! ## Splitting and patching -/

/-- The first `n` bytes and the rest, or nothing when fewer than `n` remain. -/
def takeExact : Nat → Bytes → Option (Bytes × Bytes)
  | 0, rest => some ([], rest)
  | _ + 1, [] => none
  | n + 1, b :: rest => (takeExact n rest).map fun (head, tail) => (b :: head, tail)

/-- Overwrites the bytes from `pos` on by `new`; what would fall past the end
is dropped, so the length never changes. -/
def overwrite : Bytes → Nat → Bytes → Bytes
  | [], _, _ => []
  | bytes, _, [] => bytes
  | b :: rest, pos + 1, new => b :: overwrite rest pos new
  | _ :: rest, 0, n :: new => n :: overwrite rest 0 new

/-- The two-byte word at `pos`, zero when the bytes end before it does. -/
def u16At (bytes : Bytes) (pos : Nat) : UInt16 :=
  match bytes.drop pos with
  | a :: b :: _ => toU16 a b
  | _ => 0

/-- The bytes of a text in UTF-8. -/
def ofText (text : String) : Bytes := text.toUTF8.toList

@[simp] theorem ofU16_length (v : UInt16) : (ofU16 v).length = 2 := rfl

@[simp] theorem ofU32_length (v : UInt32) : (ofU32 v).length = 4 := rfl

@[simp] theorem ofU64_length (v : UInt64) : (ofU64 v).length = 8 := rfl

/-- Patching keeps the length. -/
@[simp] theorem overwrite_length (bytes : Bytes) (pos : Nat) (new : Bytes) :
    (overwrite bytes pos new).length = bytes.length := by
  fun_induction overwrite bytes pos new <;> simp_all

/-- A successful split puts the input back together. -/
theorem takeExact_eq_some {n : Nat} {bytes head tail : Bytes}
    (h : takeExact n bytes = some (head, tail)) :
    bytes = head ++ tail ∧ head.length = n := by
  fun_induction takeExact n bytes generalizing head with
  | case1 => simp_all
  | case2 => simp at h
  | case3 n b rest ih =>
    obtain ⟨⟨h', t'⟩, hsome, heq⟩ := Option.map_eq_some_iff.1 h
    obtain ⟨rfl, rfl⟩ := Prod.mk.inj heq
    obtain ⟨rfl, rfl⟩ := ih hsome
    simp

end Bytes

end Cleartext
