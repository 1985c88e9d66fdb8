import Cleartext.Code.Instruction
import Cleartext.Proofs.Reading

/-!
# How instructions are spelled

`Instruction.decodeAll` takes a code region apart, and `Instruction.encodeAt`
writes one instruction.  This file says which bytes an instruction is read
from, so that the two can be compared.

An instruction does not determine its bytes.  The padding of a switch and the
trailing bytes of two calls are read and thrown away, so they may be
anything.  `Operand.Spelled` is therefore a relation, and `Operand.Valid` says
which operands are read from some bytes at all.

* `Operand.read_ok`: operands are read exactly from the bytes that spell them.
* `Instruction.decodeAll_ok`: the instructions of a region are read exactly
  when their spellings, one after another, make up the region.
* `Instruction.spelled_of_encodeAt`: what is written for a valid instruction
  spells it.
-/

namespace Cleartext

open Reader

/-! ## Signed numbers -/

namespace Operand

theorem toNat_toUInt32 (v : Int32) :
    (v.toUInt32.toNat : Int) = v.toInt % 4294967296 := by
  have hv : v.toInt = if 2 * v.toUInt32.toNat < 2 ^ 32 then (v.toUInt32.toNat : Int)
      else v.toUInt32.toNat - (2 ^ 32 : Nat) := by
    rw [← Int32.toInt_toBitVec, BitVec.toInt_eq_toNat_cond, Int32.toNat_toBitVec]
  have hlt := v.toUInt32.toNat_lt
  split at hv <;> omega

theorem toInt_signedByte (b : UInt8) :
    b.toInt8.toInt32.toInt = if b.toNat < 128 then (b.toNat : Int) else b.toNat - 256 := by
  rw [Int8.toInt_toInt32, ← Int8.toInt_toBitVec, UInt8.toBitVec_toInt8,
    BitVec.toInt_eq_toNat_cond, UInt8.toNat_toBitVec]
  split <;> split <;> omega

theorem toInt_signedShort (w : UInt16) :
    w.toInt16.toInt32.toInt = if w.toNat < 32768 then (w.toNat : Int) else w.toNat - 65536 := by
  rw [Int16.toInt_toInt32, ← Int16.toInt_toBitVec, UInt16.toBitVec_toInt16,
    BitVec.toInt_eq_toNat_cond, UInt16.toNat_toBitVec]
  split <;> split <;> omega

theorem fitsByte_iff {v : Int32} :
    fitsByte v = true ↔ -128 ≤ v.toInt ∧ v.toInt ≤ 127 := by
  simp [fitsByte, Int32.le_iff_toInt_le]

theorem fitsShort_iff {v : Int32} :
    fitsShort v = true ↔ -32768 ≤ v.toInt ∧ v.toInt ≤ 32767 := by
  simp [fitsShort, Int32.le_iff_toInt_le]

/-- A byte is read as a number exactly when the number fits a byte and the
byte is its lowest. -/
theorem signedByte_eq {b : UInt8} {v : Int32} :
    b.toInt8.toInt32 = v ↔ fitsByte v ∧ lowByte v = b := by
  rw [fitsByte_iff, ← Int32.toInt_inj, toInt_signedByte, ← UInt8.toNat_inj, lowByte,
    UInt32.toNat_toUInt8]
  have hv := toNat_toUInt32 v
  have hb := b.toNat_lt
  split <;> omega

theorem signedShort_eq {w : UInt16} {v : Int32} :
    w.toInt16.toInt32 = v ↔ fitsShort v ∧ v.toUInt32.toUInt16 = w := by
  rw [fitsShort_iff, ← Int32.toInt_inj, toInt_signedShort, ← UInt16.toNat_inj,
    UInt32.toNat_toUInt16]
  have hv := toNat_toUInt32 v
  have hw := w.toNat_lt
  split <;> omega

theorem widened_eq {b : UInt8} {n : UInt16} :
    b.toUInt16 = n ↔ n ≤ 255 ∧ n.toUInt8 = b := by
  have hb := b.toNat_lt
  have hn := n.toNat_lt
  rw [← UInt16.toNat_inj, ← UInt8.toNat_inj, UInt16.le_iff_toNat_le, UInt8.toNat_toUInt16,
    UInt16.toNat_toUInt8]
  show b.toNat = n.toNat ↔ n.toNat ≤ 255 ∧ n.toNat % 256 = b.toNat
  omega

end Operand

namespace Reader

theorem run_i8_ok {v : Int32} {c c' : Cursor} :
    Reader.i8.run c = .ok (v, c') ↔
      Operand.fitsByte v ∧ c.Reads [Operand.lowByte v] c' := by
  simp only [Reader.i8, run_bind_ok, run_pure_ok, run_u8_ok, Operand.signedByte_eq]
  constructor
  · intro h
    obtain ⟨b, c₁, hb, ⟨hfits, rfl⟩, rfl⟩ := h
    exact ⟨hfits, hb⟩
  · intro h
    exact ⟨_, c', h.2, ⟨h.1, rfl⟩, rfl⟩

theorem run_i16_ok {v : Int32} {c c' : Cursor} :
    Reader.i16.run c = .ok (v, c') ↔
      Operand.fitsShort v ∧ c.Reads (Operand.lowShort v) c' := by
  simp only [Reader.i16, run_bind_ok, run_pure_ok, run_u16_ok, Operand.signedShort_eq]
  constructor
  · intro h
    obtain ⟨w, c₁, hw, ⟨hfits, rfl⟩, rfl⟩ := h
    exact ⟨hfits, hw⟩
  · intro h
    exact ⟨_, c', h.2, ⟨h.1, rfl⟩, rfl⟩

theorem run_i32_ok {v : Int32} {c c' : Cursor} :
    Reader.i32.run c = .ok (v, c') ↔ c.Reads (Operand.word v) c' := by
  simp only [Reader.i32, run_bind_ok, run_pure_ok, run_u32_ok, Operand.word]
  constructor
  · intro h
    obtain ⟨w, c₁, hw, rfl, rfl⟩ := h
    simpa using hw
  · intro h
    exact ⟨_, c', h, by simp, rfl⟩

/-- A byte that is read as a word of two bytes. -/
theorem run_widened_ok {n : UInt16} {c c' : Cursor} :
    (∃ b, Reader.u8.run c = .ok (b, c') ∧ b.toUInt16 = n) ↔
      n ≤ 255 ∧ c.Reads [n.toUInt8] c' := by
  simp only [run_u8_ok, Operand.widened_eq]
  constructor
  · intro h
    obtain ⟨b, hb, hn, rfl⟩ := h
    exact ⟨hn, hb⟩
  · intro h
    exact ⟨_, h.2, h.1, rfl⟩

end Reader

/-! ## Operands -/

namespace Operand

/-- Whether operands are read from some bytes, in the wide form or not. -/
def Valid (wide : Bool) {s : Shape} : Operand s → Prop
  | .byte v => fitsByte v
  | .short v | .branch16 v => fitsShort v
  | .slot n => wide = false → n ≤ 255
  | .pool8 i => i ≤ 255
  | .increment n v => (wide = true → fitsShort v) ∧ (wide = false → n ≤ 255 ∧ fitsByte v)
  | .table _ low high targets =>
    low ≤ high ∧ high.toInt - low.toInt < 65536 ∧
      (targets.length : Int) = high.toInt - low.toInt + 1
  | .lookup _ keys targets => keys.length = targets.length ∧ keys.length < 65536
  | .wide | .invalid => False
  | .none | .pool16 _ | .branch32 _ | .arrayType _ | .interface .. | .dynamic _
  | .dimensions .. => True

/-- The bytes of operands at `offset`.  What the format ignores may be
anything of the right length. -/
def Spelled (wide : Bool) (offset : Nat) {s : Shape} : Operand s → Bytes → Prop
  | .none, bytes | .wide, bytes | .invalid, bytes => bytes = []
  | .byte v, bytes => bytes = [lowByte v]
  | .short v, bytes | .branch16 v, bytes => bytes = lowShort v
  | .slot n, bytes => bytes = if wide then Bytes.ofU16 n else [n.toUInt8]
  | .pool8 i, bytes => bytes = [i.toUInt8]
  | .pool16 i, bytes => bytes = Bytes.ofU16 i
  | .branch32 v, bytes => bytes = word v
  | .increment n v, bytes =>
    bytes = if wide then Bytes.ofU16 n ++ lowShort v else [n.toUInt8] ++ [lowByte v]
  | .arrayType t, bytes => bytes = [t]
  | .interface i n, bytes => ∃ x, bytes = Bytes.ofU16 i ++ [n] ++ [x]
  | .dynamic i, bytes => ∃ x, bytes = Bytes.ofU16 i ++ Bytes.ofU16 x
  | .dimensions i n, bytes => bytes = Bytes.ofU16 i ++ [n]
  | .table otherwise low high targets, bytes =>
    ∃ pad : Bytes, pad.length = padding offset ∧
      bytes = pad ++ word otherwise ++ word low ++ word high ++ targets.flatMap word
  | .lookup otherwise keys targets, bytes =>
    ∃ pad : Bytes, pad.length = padding offset ∧
      bytes = pad ++ word otherwise ++ Bytes.ofU32 keys.length.toUInt32 ++
        (keys.zip targets).flatMap fun (k, t) => word k ++ word t

variable {wide : Bool} {offset : Nat} {c c' : Cursor}

private theorem readWords_ok {n : Nat} {words : List Int32} :
    (Reader.i32.times n).run c = .ok (words, c') ↔
      words.length = n ∧ c.Reads (words.flatMap word) c' := by
  have hread : ∀ d v d', d.rest.length ≤ c.rest.length →
      (Reader.i32.run d = .ok (v, d') ↔ True ∧ d.Reads (word v) d') := by
    intro d v d' _
    rw [run_i32_ok, true_and]
  rw [run_times_ok hread n c words c' le_rfl]
  simp

private theorem readPairs_ok {n : Nat} {pairs : List (Int32 × Int32)} :
    (Reader.times (do return ((← Reader.i32), (← Reader.i32))) n).run c = .ok (pairs, c') ↔
      pairs.length = n ∧ c.Reads (pairs.flatMap fun (k, t) => word k ++ word t) c' := by
  have hread : ∀ d (pair : Int32 × Int32) d', d.rest.length ≤ c.rest.length →
      ((do return ((← Reader.i32), (← Reader.i32)) : Reader (Int32 × Int32)).run d =
        .ok (pair, d') ↔ True ∧ d.Reads (word pair.1 ++ word pair.2) d') := by
    intro d pair d' _
    obtain ⟨key, target⟩ := pair
    simp only [run_bind_ok, run_pure_ok, run_i32_ok, Cursor.reads_append, Prod.mk.injEq,
      true_and]
    constructor
    · intro h
      obtain ⟨_, d₁, hkey, _, d₂, htarget, ⟨rfl, rfl⟩, rfl⟩ := h
      exact ⟨d₁, hkey, htarget⟩
    · intro h
      obtain ⟨d₁, hkey, htarget⟩ := h
      exact ⟨_, d₁, hkey, _, d', htarget, ⟨rfl, rfl⟩, rfl⟩
  rw [run_times_ok hread n c pairs c' le_rfl]
  simp

theorem readTable_ok {o : Operand .table} :
    (readTable offset).run c = .ok (o, c') ↔
      o.Valid wide ∧ ∃ bytes, o.Spelled wide offset bytes ∧ c.Reads bytes c' := by
  cases o with | table otherwise low high targets =>
  simp only [readTable, run_bind_ok, run_bytes_ok, run_i32_ok, Valid, Spelled]
  constructor
  · intro h
    obtain ⟨pad, c₁, ⟨hpad, h₁⟩, otherwise', c₂, h₂, low', c₃, h₃, high', c₄, h₄, h⟩ := h
    split at h
    · simp only [run_bind_ok, run_throw_ok, false_and, exists_false] at h
    · rename_i hbounds
      simp only [run_bind_ok, run_pure_ok, readWords_ok, table.injEq] at h
      obtain ⟨_, c₅, ⟨hlength, h₅⟩, ⟨rfl, rfl, rfl, rfl⟩, rfl⟩ := h
      simp only [Bool.or_eq_true, decide_eq_true_eq, not_or, Int32.not_lt, not_le] at hbounds
      obtain ⟨hle, hlt⟩ := hbounds
      have hle' := Int32.le_iff_toInt_le.1 hle
      refine ⟨⟨hle, hlt, by omega⟩, _, ⟨pad, hpad, rfl⟩, ?_⟩
      simp only [Cursor.reads_append]
      exact ⟨c₄, ⟨c₃, ⟨c₂, ⟨c₁, h₁, h₂⟩, h₃⟩, h₄⟩, h₅⟩
  · intro h
    obtain ⟨⟨hle, hlt, hlength⟩, _, ⟨pad, hpad, rfl⟩, h⟩ := h
    simp only [Cursor.reads_append] at h
    obtain ⟨c₄, ⟨c₃, ⟨c₂, ⟨c₁, h₁, h₂⟩, h₃⟩, h₄⟩, h₅⟩ := h
    refine ⟨pad, c₁, ⟨hpad, h₁⟩, otherwise, c₂, h₂, low, c₃, h₃, high, c₄, h₄, ?_⟩
    rw [if_neg]
    · simp only [run_bind_ok, run_pure_ok, readWords_ok]
      exact ⟨targets, c', ⟨by omega, h₅⟩, rfl, rfl⟩
    · simp only [Bool.or_eq_true, decide_eq_true_eq, not_or, Int32.not_lt, not_le]
      exact ⟨hle, hlt⟩

/-- A count that is read as a signed number is written as a length. -/
private theorem word_eq_length {count : Int32} {n : Nat} (hcount : 0 ≤ count.toInt)
    (hn : n = count.toInt.toNat) : word count = Bytes.ofU32 n.toUInt32 := by
  have hword : count.toUInt32 = n.toUInt32 := by
    apply UInt32.toNat_inj.1
    have hv := toNat_toUInt32 count
    have hlt := Int32.toInt_lt count
    rw [UInt32.toNat_ofNat']
    omega
  rw [word, hword]

theorem readLookup_ok {o : Operand .lookup} :
    (readLookup offset).run c = .ok (o, c') ↔
      o.Valid wide ∧ ∃ bytes, o.Spelled wide offset bytes ∧ c.Reads bytes c' := by
  cases o with | lookup otherwise keys targets =>
  simp only [readLookup, run_bind_ok, run_bytes_ok, run_i32_ok, Valid, Spelled]
  constructor
  · intro h
    obtain ⟨pad, c₁, ⟨hpad, h₁⟩, otherwise', c₂, h₂, count, c₃, h₃, h⟩ := h
    split at h
    · simp only [run_bind_ok, run_throw_ok, false_and, exists_false] at h
    · rename_i hbounds
      simp only [run_bind_ok, run_pure_ok, readPairs_ok, lookup.injEq] at h
      obtain ⟨pairs, c₄, ⟨hlength, h₄⟩, ⟨rfl, rfl, rfl⟩, rfl⟩ := h
      simp only [Bool.or_eq_true, decide_eq_true_eq, not_or, Int32.not_lt, not_le] at hbounds
      obtain ⟨hnonneg, hlt⟩ := hbounds
      have hnonneg' := Int32.le_iff_toInt_le.1 hnonneg
      rw [word_eq_length hnonneg' hlength] at h₃
      simp only [List.length_map, List.zip_map', List.flatMap_map]
      refine ⟨⟨trivial, by omega⟩, _, ⟨pad, hpad, rfl⟩, ?_⟩
      simp only [Cursor.reads_append]
      refine ⟨c₃, ⟨c₂, ⟨c₁, h₁, h₂⟩, h₃⟩, ?_⟩
      simpa using h₄
  · intro h
    obtain ⟨⟨hkeys, hlt⟩, _, ⟨pad, hpad, rfl⟩, h⟩ := h
    simp only [Cursor.reads_append] at h
    obtain ⟨c₃, ⟨c₂, ⟨c₁, h₁, h₂⟩, h₃⟩, h₄⟩ := h
    have hcount : (Int32.ofNat keys.length).toInt = keys.length :=
      Int32.toInt_ofNat_of_lt (by omega)
    have hword : word (Int32.ofNat keys.length) = Bytes.ofU32 keys.length.toUInt32 :=
      word_eq_length (by omega) (by omega)
    rw [← hword] at h₃
    refine ⟨pad, c₁, ⟨hpad, h₁⟩, otherwise, c₂, h₂, _, c₃, h₃, ?_⟩
    rw [if_neg]
    · simp only [run_bind_ok, run_pure_ok, readPairs_ok]
      refine ⟨keys.zip targets, c', ⟨?_, h₄⟩, ?_, rfl⟩
      · rw [List.length_zip, ← hkeys]
        omega
      · rw [List.map_fst_zip (by omega), List.map_snd_zip (by omega)]
    · simp only [Bool.or_eq_true, decide_eq_true_eq, not_or, Int32.not_lt, not_le,
        Int32.le_iff_toInt_le, hcount]
      exact ⟨by simp, by omega⟩

/-- A reader whose answer is wrapped. -/
private theorem run_wrapped_ok {α β : Type} {x : Reader α} {f : α → β} {b : β} :
    (do return f (← x) : Reader β).run c = .ok (b, c') ↔
      ∃ a, x.run c = .ok (a, c') ∧ f a = b := by
  rw [bind_pure_comp, run_map_ok]

theorem Valid.shape_ne_wide {s : Shape} {o : Operand s} (h : o.Valid wide) : s ≠ .wide := by
  cases o with
  | wide => exact h.elim
  | _ => exact Shape.noConfusion

theorem readSlot_ok {n : UInt16} :
    (readSlot wide).run c = .ok (n, c') ↔
      (wide = false → n ≤ 255) ∧
        c.Reads (if wide then Bytes.ofU16 n else [n.toUInt8]) c' := by
  cases wide with
  | false =>
    simp only [readSlot, Bool.false_eq_true, if_false, run_map_ok, run_widened_ok, true_imp_iff]
  | true =>
    simp only [readSlot, if_true, run_u16_ok, Bool.true_eq_false, false_imp_iff, true_and]

private theorem readIncrement_ok {op : Opcode} {n : UInt16} {v : Int32} :
    (read op wide offset .increment).run c = .ok (.increment n v, c') ↔
      (increment n v).Valid wide ∧ ∃ bytes, (increment n v).Spelled wide offset bytes ∧
        c.Reads bytes c' := by
  simp only [read, Valid, Spelled, exists_eq_left]
  cases wide with
  | true =>
    simp only [if_true, run_bind_ok, run_pure_ok, run_u16_ok, run_i16_ok, increment.injEq,
      Cursor.reads_append, Bool.true_eq_false, false_imp_iff, and_true, true_imp_iff]
    constructor
    · intro h
      obtain ⟨_, c₁, h₁, _, c₂, ⟨hfits, h₂⟩, ⟨rfl, rfl⟩, rfl⟩ := h
      exact ⟨hfits, c₁, h₁, h₂⟩
    · intro h
      obtain ⟨hfits, c₁, h₁, h₂⟩ := h
      exact ⟨_, c₁, h₁, _, c', ⟨hfits, h₂⟩, ⟨rfl, rfl⟩, rfl⟩
  | false =>
    simp only [if_false, Bool.false_eq_true, run_bind_ok, run_pure_ok, run_i8_ok,
      increment.injEq, Cursor.reads_append, false_imp_iff, true_and, true_imp_iff]
    constructor
    · intro h
      obtain ⟨b, c₁, h₁, _, c₂, ⟨hfits, h₂⟩, ⟨hn, rfl⟩, rfl⟩ := h
      obtain ⟨hle, h₁⟩ := run_widened_ok.1 ⟨b, h₁, hn⟩
      exact ⟨⟨hle, hfits⟩, c₁, h₁, h₂⟩
    · intro h
      obtain ⟨⟨hle, hfits⟩, c₁, h₁, h₂⟩ := h
      obtain ⟨b, h₁, hn⟩ := run_widened_ok.2 ⟨hle, h₁⟩
      exact ⟨b, c₁, h₁, _, c', ⟨hfits, h₂⟩, ⟨hn, rfl⟩, rfl⟩

/-- Operands are read exactly from the bytes that spell them. -/
theorem read_ok {op : Opcode} {s : Shape} {o : Operand s} :
    (read op wide offset s).run c = .ok (o, c') ↔
      o.Valid wide ∧ ∃ bytes, o.Spelled wide offset bytes ∧ c.Reads bytes c' := by
  cases o with
  | none =>
    simp only [read, run_pure_ok, Valid, Spelled, exists_eq_left, Cursor.reads_nil, true_and]
  | byte v | short v | pool16 i | branch16 v | branch32 v | arrayType t =>
    simp only [read, run_wrapped_ok, run_i8_ok, run_i16_ok, run_i32_ok, run_u8_ok, run_u16_ok,
      Valid, Spelled, exists_eq_left, byte.injEq, short.injEq, pool16.injEq, branch16.injEq,
      branch32.injEq, arrayType.injEq, exists_eq_right, true_and]
  | pool8 i =>
    simp only [read, run_wrapped_ok, run_widened_ok, Valid, Spelled, exists_eq_left, pool8.injEq]
  | slot n =>
    simp only [read, run_wrapped_ok, slot.injEq, exists_eq_right, readSlot_ok, Valid, Spelled,
      exists_eq_left]
  | increment n v => exact readIncrement_ok
  | dimensions i n =>
    simp only [read, run_bind_ok, run_pure_ok, dimensions.injEq, Valid, Spelled,
      exists_eq_left, Cursor.reads_append, run_u16_ok, run_u8_ok, true_and]
    constructor
    · intro h
      obtain ⟨_, c₁, h₁, _, c₂, h₂, ⟨rfl, rfl⟩, rfl⟩ := h
      exact ⟨c₁, h₁, h₂⟩
    · intro h
      obtain ⟨c₁, h₁, h₂⟩ := h
      exact ⟨_, c₁, h₁, _, c', h₂, ⟨rfl, rfl⟩, rfl⟩
  | interface i n =>
    simp only [read, run_bind_ok, run_pure_ok, Valid, Spelled, run_u16_ok, run_u8_ok, true_and]
    constructor
    · intro h
      obtain ⟨_, c₁, h₁, _, c₂, h₂, x, c₃, h₃, ho, rfl⟩ := h
      obtain ⟨rfl, rfl⟩ := interface.inj ho
      exact ⟨_, ⟨x, rfl⟩, Cursor.reads_append.2 ⟨c₂, Cursor.reads_append.2 ⟨c₁, h₁, h₂⟩, h₃⟩⟩
    · intro h
      obtain ⟨_, ⟨x, rfl⟩, h⟩ := h
      simp only [Cursor.reads_append] at h
      obtain ⟨c₂, ⟨c₁, h₁, h₂⟩, h₃⟩ := h
      exact ⟨_, c₁, h₁, _, c₂, h₂, x, c', h₃, rfl, rfl⟩
  | dynamic i =>
    simp only [read, run_bind_ok, run_pure_ok, Valid, Spelled, run_u16_ok, true_and]
    constructor
    · intro h
      obtain ⟨_, c₁, h₁, x, c₂, h₂, ho, rfl⟩ := h
      obtain rfl := dynamic.inj ho
      exact ⟨_, ⟨x, rfl⟩, Cursor.reads_append.2 ⟨c₁, h₁, h₂⟩⟩
    · intro h
      obtain ⟨_, ⟨x, rfl⟩, h⟩ := h
      obtain ⟨c₁, h₁, h₂⟩ := Cursor.reads_append.1 h
      exact ⟨_, c₁, h₁, x, c', h₂, rfl, rfl⟩
  | table otherwise low high targets => exact readTable_ok
  | lookup otherwise keys targets => exact readLookup_ok
  | wide | invalid => simp only [read, run_throw_ok, Valid, false_and]

@[simp] theorem word_length (v : Int32) : (word v).length = 4 := rfl

private theorem length_flatMap_word (words : List Int32) :
    (words.flatMap word).length = 4 * words.length := by
  induction words with
  | nil => rfl
  | cons v words ih =>
    rw [List.flatMap_cons, List.length_append, ih, List.length_cons, word_length]
    omega

private theorem length_flatMap_pairs (pairs : List (Int32 × Int32)) :
    (pairs.flatMap fun (k, t) => word k ++ word t).length = 8 * pairs.length := by
  induction pairs with
  | nil => rfl
  | cons pair pairs ih =>
    rw [List.flatMap_cons, List.length_append, ih, List.length_cons, List.length_append,
      word_length, word_length]
    omega

theorem sizeAt_pos {s : Shape} (o : Operand s) (wide : Bool) (offset : Nat) :
    0 < o.sizeAt wide offset := by
  cases o with
  | slot n | increment n v => cases wide <;> simp [sizeAt]
  | table otherwise low high targets | lookup otherwise keys targets => simp only [sizeAt]; omega
  | _ => simp [sizeAt]

/-- A switch over listed keys has a target for each of them. -/
def Paired {s : Shape} : Operand s → Prop
  | .lookup _ keys targets => keys.length = targets.length
  | _ => True

theorem Valid.paired {s : Shape} {o : Operand s} (h : o.Valid wide) : o.Paired := by
  cases o with
  | lookup otherwise keys targets => exact h.1
  | _ => trivial

theorem paired_of_encode {op : Opcode} {s : Shape} {o : Operand s} {bytes : Bytes}
    (h : o.encode op wide offset = .ok bytes) : o.Paired := by
  cases o with
  | lookup otherwise keys targets =>
    rw [encode] at h
    split at h
    · cases h
    · rename_i hkeys
      exact not_not.1 hkeys
  | _ => trivial

/-- The length of a spelling does not depend on what the format ignores.  The
opcode takes one byte, and its mark another in the wide form. -/
theorem Spelled.length {s : Shape} {o : Operand s} {bytes : Bytes} (hpaired : o.Paired)
    (hwide : wide = true → s = .slot ∨ s = .increment)
    (h : o.Spelled wide offset bytes) :
    (if wide then 2 else 1) + bytes.length = o.sizeAt wide offset := by
  cases o with
  | slot n | increment n v =>
    simp only [Spelled] at h
    subst h
    cases wide <;> rfl
  | table otherwise low high targets =>
    obtain ⟨pad, hpad, rfl⟩ := h
    obtain rfl : wide = false := by simpa using hwide
    simp only [sizeAt, List.length_append, hpad, length_flatMap_word, word_length,
      Bool.false_eq_true, if_false]
    omega
  | lookup otherwise keys targets =>
    obtain ⟨pad, hpad, rfl⟩ := h
    obtain rfl : wide = false := by simpa using hwide
    replace hpaired : keys.length = targets.length := hpaired
    simp only [sizeAt, List.length_append, hpad, length_flatMap_pairs, word_length,
      Bytes.ofU32_length, List.length_zip, Bool.false_eq_true, if_false]
    omega
  | interface i n | dynamic i =>
    obtain ⟨x, rfl⟩ := h
    obtain rfl : wide = false := by simpa using hwide
    rfl
  | _ =>
    simp only [Spelled] at h
    obtain rfl : wide = false := by simpa using hwide
    subst h
    rfl

/-- What is written for operands spells them. -/
theorem spelled_of_encode {op : Opcode} {s : Shape} {o : Operand s} {bytes : Bytes}
    (h : o.encode op wide offset = .ok bytes) : o.Spelled wide offset bytes := by
  cases o with
  | none | pool16 i | branch32 v | arrayType t | dimensions i n =>
    exact (Except.ok.inj h).symm
  | byte v | short v | branch16 v =>
    rw [encode] at h
    split at h
    · exact (Except.ok.inj h).symm
    · cases h
  | pool8 i =>
    rw [encode] at h
    split at h
    · cases h
    · exact (Except.ok.inj h).symm
  | slot n | increment n v =>
    rw [encode] at h
    cases wide with
    | true => exact (Except.ok.inj h).symm
    | false =>
      simp only [Bool.false_eq_true, if_false] at h
      split at h
      · cases h
      · exact (Except.ok.inj h).symm
  | interface i n => exact ⟨0, by rw [← Except.ok.inj h]; rfl⟩
  | dynamic i => exact ⟨0, by rw [← Except.ok.inj h]; rfl⟩
  | table otherwise low high targets | lookup otherwise keys targets =>
    rw [encode] at h
    split at h
    · cases h
    · exact ⟨_, List.length_replicate, (Except.ok.inj h).symm⟩
  | wide | invalid => cases h

end Operand

/-! ## Instructions -/

namespace Instruction

/-- Whether an instruction is read from some bytes. -/
def Valid (ins : Instruction) : Prop :=
  ins.operand.Valid ins.wide ∧ (ins.wide = true → ins.op.canWiden = true)

/-- The bytes of an instruction where it stands. -/
def Spelled (ins : Instruction) (bytes : Bytes) : Prop :=
  ∃ operands, ins.operand.Spelled ins.wide ins.offset operands ∧
    bytes = (if ins.wide then [Opcode.wide.code] else []) ++ [ins.op.code] ++ operands

theorem canWiden_iff {op : Opcode} :
    op.canWiden = true ↔ op.shape = .slot ∨ op.shape = .increment := by
  simp [Opcode.canWiden]

/-- A spelling has the size of the instruction. -/
theorem Spelled.length {ins : Instruction} {bytes : Bytes} (hvalid : ins.Valid)
    (h : ins.Spelled bytes) : bytes.length = ins.size := by
  obtain ⟨operands, hoperands, rfl⟩ := h
  have hlength := hoperands.length hvalid.1.paired fun hwide => canWiden_iff.1 (hvalid.2 hwide)
  rw [size, sizeAt, ← hlength]
  cases ins.wide <;> simp <;> omega

theorem readOperands_ok {op : Opcode} {wide : Bool} {offset : Nat} {ins : Instruction}
    {c c' : Cursor} :
    (readOperands op wide offset).run c = .ok (ins, c') ↔
      ins.op = op ∧ ins.wide = wide ∧ ins.offset = offset ∧ ins.operand.Valid wide ∧
        ∃ operands, ins.operand.Spelled wide offset operands ∧ c.Reads operands c' := by
  show readOperands op wide offset c = _ ↔ _
  unfold readOperands
  constructor
  · intro h
    cases hread : (Operand.read op wide offset op.shape).run c with
    | error e =>
      rw [hread] at h
      cases h
    | ok answer =>
      rw [hread] at h
      obtain ⟨rfl, rfl⟩ := Prod.mk.inj (Except.ok.inj h)
      exact ⟨rfl, rfl, rfl, Operand.read_ok.1 hread⟩
  · intro h
    obtain ⟨rfl, rfl, rfl, hread⟩ := h
    rw [Operand.read_ok.2 hread]

private theorem mapError_ok {α : Type} {f : Error → Error} {x : Except Error α} {a : α} :
    x.mapError f = .ok a ↔ x = .ok a := by
  cases x <;> simp [Except.mapError]

private theorem code_ne_wide {ins : Instruction} (h : ins.Valid) :
    ins.op.code ≠ Opcode.wide.code := by
  intro hcode
  have hop : ins.op = .wide := congrArg Opcode.mk hcode
  have hshape : ins.op.shape = .wide := by rw [hop]; decide
  exact h.1.shape_ne_wide hshape

/-- An instruction is read exactly from the bytes that spell it. -/
theorem read_ok {ins : Instruction} {c c' : Cursor} :
    Instruction.read.run c = .ok (ins, c') ↔
      ins.Valid ∧ ins.offset = c.offset ∧ ∃ bytes, ins.Spelled bytes ∧ c.Reads bytes c' := by
  constructor
  · intro h
    replace h : Instruction.read c = .ok (ins, c') := h
    unfold Instruction.read at h
    simp only at h
    split at h
    · cases h
    · rename_i b c₁ hb
      rw [mapError_ok, Cursor.u8_ok] at hb
      split at h
      · rename_i hmark
        subst hmark
        split at h
        · cases h
        · rename_i code c₂ hcode
          rw [mapError_ok, Cursor.u8_ok] at hcode
          split at h
          · rename_i hwiden
            obtain ⟨hop, hwide, hoffset, hvalid, operands, hspelled, hreads⟩ :=
              readOperands_ok.1 h
            refine ⟨⟨by rw [hwide]; exact hvalid, fun _ => by rw [hop]; exact hwiden⟩, hoffset,
              _, ⟨operands, by rw [hwide, hoffset]; exact hspelled, rfl⟩, ?_⟩
            rw [hwide, hop]
            exact Cursor.reads_append.2 ⟨c₂, Cursor.reads_append.2 ⟨c₁, hb, hcode⟩, hreads⟩
          · cases h
      · obtain ⟨hop, hwide, hoffset, hvalid, operands, hspelled, hreads⟩ :=
          readOperands_ok.1 h
        refine ⟨⟨by rw [hwide]; exact hvalid, by simp [hwide]⟩, hoffset,
          _, ⟨operands, by rw [hwide, hoffset]; exact hspelled, rfl⟩, ?_⟩
        rw [hwide, hop]
        exact Cursor.reads_append.2 ⟨c₁, hb, hreads⟩
  · intro h
    obtain ⟨hvalid, hoffset, _, ⟨operands, hspelled, rfl⟩, hreads⟩ := h
    show Instruction.read c = .ok (ins, c')
    unfold Instruction.read
    cases hwide : ins.wide with
    | true =>
      rw [hwide, if_pos rfl] at hreads
      simp only [Cursor.reads_append] at hreads
      obtain ⟨c₂, ⟨c₁, hmark, hcode⟩, hreads⟩ := hreads
      simp only [mapError_ok.2 (Cursor.u8_ok.2 hmark), mapError_ok.2 (Cursor.u8_ok.2 hcode),
        if_true, hvalid.2 hwide]
      rw [hwide, hoffset] at hspelled
      exact readOperands_ok.2 ⟨rfl, hwide, hoffset, by rw [← hwide]; exact hvalid.1,
        operands, hspelled, hreads⟩
    | false =>
      rw [hwide, if_neg (by simp), List.nil_append, Cursor.reads_append] at hreads
      obtain ⟨c₁, hcode, hreads⟩ := hreads
      simp only [mapError_ok.2 (Cursor.u8_ok.2 hcode), code_ne_wide hvalid, if_false]
      rw [hwide, hoffset] at hspelled
      exact readOperands_ok.2 ⟨rfl, hwide, hoffset, by rw [← hwide]; exact hvalid.1,
        operands, hspelled, hreads⟩

/-- Instructions stand one after another from `offset` on, and their spellings
make up `code`. -/
def Tiles : Nat → List Instruction → Bytes → Prop
  | _, [], code => code = []
  | offset, ins :: rest, code =>
    ins.Valid ∧ ins.offset = offset ∧
      ∃ bytes more, ins.Spelled bytes ∧ code = bytes ++ more ∧ Tiles ins.next rest more

theorem size_pos (ins : Instruction) : 0 < ins.size := ins.operand.sizeAt_pos ins.wide ins.offset

theorem Spelled.ne_nil {ins : Instruction} {bytes : Bytes} (h : ins.Spelled bytes) :
    bytes ≠ [] := by
  obtain ⟨operands, -, rfl⟩ := h
  simp

theorem tiles_empty {offset : Nat} {instructions : List Instruction} :
    Tiles offset instructions [] ↔ instructions = [] := by
  cases instructions with
  | nil => simp [Tiles]
  | cons ins rest =>
    simp only [Tiles, reduceCtorEq, iff_false]
    intro h
    obtain ⟨-, -, bytes, more, hspelled, hcode, -⟩ := h
    exact hspelled.ne_nil (List.append_eq_nil_iff.1 hcode.symm).1

private theorem readAll_ok : ∀ (fuel : Nat) (c : Cursor) (instructions : List Instruction),
    c.rest.length ≤ fuel →
    (readAll fuel c = .ok instructions ↔ Tiles c.offset instructions c.rest) := by
  intro fuel
  induction fuel with
  | zero =>
    intro c instructions hfuel
    have hrest : c.rest = [] := List.eq_nil_of_length_eq_zero (by omega)
    rw [readAll, hrest, tiles_empty, Except.ok.injEq, eq_comm]
  | succ fuel ih =>
    intro c instructions hfuel
    rw [readAll]
    by_cases hrest : c.rest = []
    · rw [if_pos (by rw [hrest]; rfl), hrest, tiles_empty, Except.ok.injEq, eq_comm]
    · rw [if_neg (by rwa [List.isEmpty_iff]), Except.bind_ok]
      constructor
      · intro h
        obtain ⟨⟨ins, c₁⟩, hread, h⟩ := h
        obtain ⟨hvalid, hoffset, bytes, hspelled, hreads⟩ := read_ok.1 hread
        obtain ⟨rest, hrest, h⟩ := Except.bind_ok.1 h
        obtain rfl := Except.pure_ok.1 h
        have hlength := hspelled.length hvalid
        have hpos := ins.size_pos
        have htiles := (ih c₁ rest (by have := hreads.length_rest; omega)).1 hrest
        rw [hreads.offset, hlength, ← hoffset] at htiles
        exact ⟨hvalid, hoffset, bytes, c₁.rest, hspelled, hreads.rest, htiles⟩
      · intro h
        cases instructions with
        | nil => exact absurd h hrest
        | cons ins rest =>
          obtain ⟨hvalid, hoffset, bytes, more, hspelled, hcode, htiles⟩ := h
          have hlength := hspelled.length hvalid
          have hpos := ins.size_pos
          have hreads : c.Reads bytes ⟨more, ins.next, c.total⟩ :=
            ⟨hcode, by rw [next, hoffset, hlength], rfl⟩
          refine ⟨_, read_ok.2 ⟨hvalid, hoffset, bytes, hspelled, hreads⟩, ?_⟩
          rw [Except.bind_ok]
          refine ⟨rest, (ih _ rest ?_).2 htiles, rfl⟩
          have hle : c.rest.length = bytes.length + more.length := hreads.length_rest
          show more.length ≤ fuel
          omega

/-- A code region is taken apart exactly into the instructions whose spellings
make it up. -/
theorem decodeAll_ok {code : Bytes} {instructions : List Instruction} :
    decodeAll code = .ok instructions ↔ Tiles 0 instructions code :=
  readAll_ok code.length (Cursor.start code) instructions le_rfl

/-- What is written for a valid instruction spells it. -/
theorem spelled_of_encodeAt {ins : Instruction} {bytes : Bytes}
    (h : ins.encodeAt ins.offset = .ok bytes) : ins.Spelled bytes := by
  unfold encodeAt at h
  split at h
  · cases h
  · split at h
    · rename_i operands hoperands
      refine ⟨operands, Operand.spelled_of_encode hoperands, ?_⟩
      rw [← Except.ok.inj h]
      simp
    · cases h

/-- An instruction that is found at some offset of some region is valid. -/
theorem valid_of_decodeAt {code : Bytes} {offset : Nat} {ins : Instruction}
    (h : decodeAt code offset = .ok ins) : ins.Valid := by
  obtain ⟨⟨ins', c⟩, hread, rfl⟩ := Except.map_ok.1 h
  exact (read_ok.1 hread).1

end Instruction

end Cleartext
