import Cleartext.Proofs.Code.Commit

/-!
# Taking code apart and putting it together

`Instruction.decodeAll` takes a code region apart and `Instruction.assemble`
lays instructions out.  This file says how far the two undo each other.

From bytes to bytes, what is lost are the bytes that the format ignores: the
padding of a switch, the last operand byte of an interface call, and the last
two of a dynamic one.  `Instruction.ignores` names them, `blanked` puts zeros
in their place, and `assemble_of_decodeAll` says that nothing else changes.

From an instruction to an instruction, what is lost are operands that are
written although they do not fit.  A number, a local variable, a pool index
and a branch are checked when they are written.  The increment of a wide
instruction, the bounds of a table and the number of pairs of a lookup are
not; `Operand.Representable` is the condition that is missing there, and
`decodeAt_encodeAt_iff` says that it is missing nowhere else.
-/

namespace Cleartext

/-! ## Bytes that the format ignores -/

namespace Operand

variable {s : Shape}

/-- Whether the byte `k` places behind the opcode's own is read and thrown
away, for operands of an instruction at `offset`. -/
def ignored (offset : Nat) : Operand s → Nat → Bool
  | .interface .., k => k = 4
  | .dynamic _, k => k = 3 || k = 4
  | .table .., k | .lookup .., k => 1 ≤ k && k ≤ padding offset
  | _, _ => false

/-- The ignored bytes lie inside of the instruction and behind its opcode. -/
theorem ignored_bounds {o : Operand s} {offset k : Nat} (h : o.ignored offset k = true)
    (wide : Bool) : 0 < k ∧ k < o.sizeAt wide offset := by
  cases o with
  | interface | dynamic | table | lookup => simp [ignored, sizeAt] at h ⊢; omega
  | _ => simp [ignored] at h

/-- Operands that have a wide form ignore nothing. -/
theorem ignored_eq_false {o : Operand s} (h : s = .slot ∨ s = .increment) (offset k : Nat) :
    o.ignored offset k = false := by
  rcases h with rfl | rfl <;> cases o <;> rfl

/-- A list in which an indexed change leaves every entry as it is. -/
private theorem mapIdx_eq_self {f : Nat → UInt8 → UInt8} {bytes : Bytes}
    (h : ∀ k b, bytes[k]? = some b → f k b = b) : bytes.mapIdx f = bytes := by
  rw [List.mapIdx_eq_iff]
  intro k
  cases hb : bytes[k]? with
  | none => rfl
  | some b => rw [Option.map_some, h k b hb]

/-- Blanking what stands in front of a list. -/
private theorem mapIdx_blank_front {f : Nat → UInt8 → UInt8} {front back : Bytes} {n : Nat}
    (hn : front.length = n) (hfront : ∀ k b, k < n → f k b = 0)
    (hback : ∀ k b, n ≤ k → f k b = b) :
    (front ++ back).mapIdx f = List.replicate n 0 ++ back := by
  rw [List.mapIdx_append]
  congr 1
  · rw [← hn, List.mapIdx_eq_replicate_iff]
    intro k hk
    exact hfront k _ (by omega)
  · apply mapIdx_eq_self
    intro k b _
    exact hback _ b (by omega)

/-- Valid operands are written as the bytes that they were read from, with
zeros for those that the format ignores.  The first of them stands one place
behind the opcode. -/
theorem encode_of_spelled {op : Opcode} {o : Operand s} {wide : Bool} {offset : Nat}
    {bytes : Bytes} (hvalid : o.Valid wide) (hspelled : o.Spelled wide offset bytes) :
    o.encode op wide offset =
      .ok (bytes.mapIdx fun k b => if o.ignored offset (k + 1) then 0 else b) := by
  have hplain : (∀ k, o.ignored offset k = false) →
      (bytes.mapIdx fun k b => if o.ignored offset (k + 1) then 0 else b) = bytes := by
    intro h
    apply mapIdx_eq_self
    intro k b _
    rw [h, if_neg Bool.false_ne_true]
  cases o with
  | none | pool16 i | branch32 d | arrayType t | dimensions i n =>
    simp only [Spelled] at hspelled
    rw [hplain fun _ => rfl, hspelled]
    rfl
  | byte v | short v | branch16 v =>
    simp only [Spelled, Valid] at hspelled hvalid
    rw [hplain fun _ => rfl, hspelled, encode, if_pos hvalid]
  | pool8 i =>
    simp only [Spelled, Valid] at hspelled hvalid
    rw [hplain fun _ => rfl, hspelled, encode, if_neg (UInt16.not_lt.2 hvalid)]
  | slot n =>
    simp only [Spelled, Valid] at hspelled hvalid
    rw [hplain fun _ => rfl, hspelled, encode]
    cases wide with
    | true => rfl
    | false => simp [UInt16.not_lt.2 (hvalid rfl)]
  | increment n v =>
    simp only [Spelled, Valid] at hspelled hvalid
    rw [hplain fun _ => rfl, hspelled, encode]
    cases wide with
    | true => rfl
    | false =>
      obtain ⟨hn, hv⟩ := hvalid.2 rfl
      simp [UInt16.not_lt.2 hn, hv]
  | interface i n =>
    obtain ⟨x, rfl⟩ := hspelled
    rfl
  | dynamic i =>
    obtain ⟨x, rfl⟩ := hspelled
    rfl
  | table otherwise low high targets =>
    obtain ⟨-, -, hlength⟩ := hvalid
    obtain ⟨pad, hpad, rfl⟩ := hspelled
    rw [encode, if_neg (not_not.2 hlength)]
    simp only [List.append_assoc]
    rw [mapIdx_blank_front hpad]
    · intro k b hk
      simp [ignored]
      omega
    · intro k b hk
      simp [ignored]
      omega
  | lookup otherwise keys targets =>
    obtain ⟨hlength, -⟩ := hvalid
    obtain ⟨pad, hpad, rfl⟩ := hspelled
    rw [encode, if_neg (not_not.2 hlength)]
    simp only [List.append_assoc]
    rw [mapIdx_blank_front hpad]
    · intro k b hk
      simp [ignored]
      omega
    · intro k b hk
      simp [ignored]
      omega
  | wide | invalid => exact hvalid.elim

end Operand

namespace Instruction

/-- Whether the byte at a position of the code is one that the instruction
ignores. -/
def ignores (ins : Instruction) (pos : Nat) : Bool :=
  ins.offset ≤ pos && ins.operand.ignored ins.offset (pos - ins.offset)

/-- Code that starts at `offset`, with zeros for the bytes that instructions
ignore. -/
def blanked (offset : Nat) (instructions : List Instruction) (code : Bytes) : Bytes :=
  code.mapIdx fun k b => if instructions.any (·.ignores (offset + k)) then 0 else b

/-- A valid instruction is written as the bytes that it was read from, with
zeros for those that it ignores. -/
theorem encodeAt_of_spelled {ins : Instruction} {bytes : Bytes} (hvalid : ins.Valid)
    (hspelled : ins.Spelled bytes) :
    ins.encodeAt ins.offset = .ok (blanked ins.offset [ins] bytes) := by
  obtain ⟨operands, hoperands, rfl⟩ := hspelled
  have hwiden : (ins.wide && !ins.op.canWiden) = false := by
    cases hwide : ins.wide with
    | false => rfl
    | true => simp [hvalid.2 hwide]
  have hencode := @Operand.encode_of_spelled _ ins.op _ _ _ _ hvalid.1 hoperands
  rw [encodeAt, hwiden, if_neg Bool.false_ne_true, hencode]
  simp only [blanked, List.any_cons, List.any_nil, Bool.or_false, ignores, Nat.le_add_right,
    decide_true, Bool.true_and, Nat.add_sub_cancel_left]
  cases hwide : ins.wide with
  | true =>
    have hshape := canWiden_iff.1 (hvalid.2 hwide)
    simp [Operand.ignored_eq_false hshape]
  | false =>
    have hfirst : ins.operand.ignored ins.offset 0 = false := by
      by_contra h
      have hbounds := Operand.ignored_bounds (Bool.not_eq_false _ ▸ h) false
      omega
    simp [List.mapIdx_cons, hfirst]

private theorem mapIdx_congr {f g : Nat → UInt8 → UInt8} {bytes : Bytes}
    (h : ∀ k, k < bytes.length → ∀ b, f k b = g k b) : bytes.mapIdx f = bytes.mapIdx g := by
  rw [List.mapIdx_eq_iff]
  intro k
  rw [List.getElem?_mapIdx]
  cases hb : bytes[k]? with
  | none => rfl
  | some b => rw [Option.map_some, Option.map_some, h k (List.getElem?_eq_some_iff.1 hb).1]

/-- An instruction ignores bytes of its own only. -/
theorem ignores_bounds {ins : Instruction} {pos : Nat} (h : ins.ignores pos = true) :
    ins.offset ≤ pos ∧ pos < ins.next := by
  simp only [ignores, Bool.and_eq_true, decide_eq_true_eq] at h
  have hbounds := Operand.ignored_bounds h.2 ins.wide
  rw [next, size, sizeAt]
  omega

/-- Blanking goes on behind the first instruction with the others. -/
theorem blanked_cons {ins : Instruction} {rest : List Instruction} {bytes more : Bytes}
    (hlength : bytes.length = ins.size) (hrest : ∀ later ∈ rest, ins.next ≤ later.offset) :
    blanked ins.offset (ins :: rest) (bytes ++ more) =
      blanked ins.offset [ins] bytes ++ blanked ins.next rest more := by
  simp only [blanked, List.mapIdx_append]
  congr 1
  · apply mapIdx_congr
    intro k hk b
    have hnone : (rest.any fun later => later.ignores (ins.offset + k)) = false := by
      rw [List.any_eq_false]
      intro later hlater h
      have hbounds := ignores_bounds h
      have hle := hrest later hlater
      rw [next] at hle
      omega
    simp [hnone]
  · apply mapIdx_congr
    intro k _ b
    have hpos : ins.offset + (k + bytes.length) = ins.next + k := by
      rw [next]
      omega
    have hnone : ins.ignores (ins.next + k) = false := by
      by_contra h
      have hbounds := ignores_bounds (Bool.not_eq_false _ ▸ h)
      omega
    rw [hpos, List.any_cons, hnone, Bool.false_or]

/-- Instructions that make up a region are laid out where they stood, and only
ignored bytes change. -/
theorem assembleFrom_of_tiles {instructions : List Instruction} {offset : Nat} {code : Bytes}
    (h : Tiles offset instructions code) (index : Nat) :
    assembleFrom index offset instructions =
      .ok (instructions, blanked offset instructions code) := by
  induction instructions generalizing offset code index with
  | nil =>
    obtain rfl : code = [] := h
    rfl
  | cons ins rest ih =>
    obtain ⟨hvalid, rfl, bytes, more, hspelled, rfl, hrest⟩ := h
    have hlength := hspelled.length hvalid
    have hnext : ins.offset + (blanked ins.offset [ins] bytes).length = ins.next := by
      rw [blanked, List.length_mapIdx, hlength, next]
    rw [assembleFrom, encodeAt_of_spelled hvalid hspelled]
    simp only [hnext, ih hrest, blanked_cons hlength hrest.consecutive.le_offset]
    rfl

/-- What is written for valid instructions is taken apart into them. -/
theorem tiles_of_assembleFrom {instructions placed : List Instruction} {index offset : Nat}
    {code : Bytes} (hvalid : ∀ ins ∈ instructions, ins.Valid)
    (h : assembleFrom index offset instructions = .ok (placed, code)) :
    Tiles offset placed code := by
  induction instructions generalizing placed index offset code with
  | nil =>
    obtain ⟨rfl, rfl⟩ := Prod.mk.inj (Except.ok.inj h)
    rfl
  | cons ins rest ih =>
    rw [assembleFrom] at h
    split at h
    · cases h
    · rename_i bytes hbytes
      obtain ⟨⟨later, more⟩, hmore, h⟩ := Except.bind_ok.1 h
      obtain ⟨rfl, rfl⟩ := Prod.mk.inj (Except.ok.inj h)
      have hfirst : ({ ins with offset } : Instruction).Valid := hvalid ins List.mem_cons_self
      have hspelled : ({ ins with offset } : Instruction).Spelled bytes :=
        spelled_of_encodeAt hbytes
      have htiles := ih (fun later hlater => hvalid later (List.mem_cons_of_mem _ hlater)) hmore
      rw [hspelled.length hfirst] at htiles
      exact ⟨hfirst, rfl, bytes, more, hspelled, rfl, htiles⟩

/-- The instruction that stands behind some bytes is found there. -/
theorem decodeAt_of_spelled {ins : Instruction} {before bytes after : Bytes} (hvalid : ins.Valid)
    (hoffset : ins.offset = before.length) (hspelled : ins.Spelled bytes) :
    decodeAt (before ++ bytes ++ after) before.length = .ok ins := by
  have hreads : (Cursor.seek (before ++ bytes ++ after) before.length).Reads bytes
      ⟨after, before.length + bytes.length, (before ++ bytes ++ after).length⟩ := by
    refine ⟨?_, rfl, rfl⟩
    simp [Cursor.seek]
  rw [decodeAt, read_ok.2 ⟨hvalid, hoffset, bytes, hspelled, hreads⟩]
  rfl

/-- Every instruction of a region is found at its offset. -/
theorem Tiles.decodeAt {instructions : List Instruction} {before code : Bytes}
    (h : Tiles before.length instructions code) :
    ∀ ins ∈ instructions, decodeAt (before ++ code) ins.offset = .ok ins := by
  induction instructions generalizing before code with
  | nil => simp
  | cons first rest ih =>
    obtain ⟨hvalid, hoffset, bytes, more, hspelled, rfl, hrest⟩ := h
    intro ins hins
    rcases List.mem_cons.1 hins with rfl | hins
    · rw [hoffset, ← List.append_assoc]
      exact decodeAt_of_spelled hvalid hoffset hspelled
    · have hnext : first.next = (before ++ bytes).length := by
        rw [next, hoffset, List.length_append, hspelled.length hvalid]
      rw [hnext] at hrest
      rw [← List.append_assoc]
      exact ih hrest ins hins

/-- Taking a region apart loses nothing but the ignored bytes.  The
instructions tile the region: the first stands at its start, each is what is
found at its offset and ends where the next one starts, and the last ends with
the region.  They are laid out again where they stood, as the same bytes with
zeros for the ignored ones, and these bytes are taken apart into the same
instructions. -/
theorem assemble_of_decodeAll {code : Bytes} {instructions : List Instruction}
    (h : decodeAll code = .ok instructions) :
    Consecutive 0 instructions code.length ∧
      (∀ ins ∈ instructions, decodeAt code ins.offset = .ok ins) ∧
      assemble instructions = .ok (instructions, blanked 0 instructions code) ∧
      decodeAll (blanked 0 instructions code) = .ok instructions := by
  have htiles := decodeAll_ok.1 h
  have hconsecutive := htiles.consecutive
  rw [Nat.zero_add] at hconsecutive
  have hassemble := assembleFrom_of_tiles htiles 0
  exact ⟨hconsecutive, @Tiles.decodeAt instructions [] code htiles, hassemble,
    decodeAll_ok.2 (tiles_of_assembleFrom htiles.valid hassemble)⟩

/-- A table with two bytes of padding, an interface call and a dynamic call,
with something in every ignored byte. -/
def paddedCode : Bytes :=
  [0, 0xaa, 0xff, 0xff, 0, 0, 0, 9, 0, 0, 0, 5, 0, 0, 0, 5, 0xff, 0xff, 0xff, 0xff,
    0xb9, 0, 1, 1, 7, 0xba, 0, 2, 0, 3]

/-- The instructions of `paddedCode`. -/
def paddedInstructions : List Instruction :=
  [{ op := .nop, operand := (.none : Operand .none) },
    { op := .tableswitch, operand := (.table 9 5 5 [-1] : Operand .table), offset := 1 },
    { op := .invokeinterface, operand := (.interface 1 1 : Operand .interface), offset := 20 },
    { op := .invokedynamic, operand := (.dynamic 2 : Operand .dynamic), offset := 25 }]

theorem assemble_of_decodeAll_padded :
    decodeAll paddedCode = .ok paddedInstructions ∧
      assemble paddedInstructions = .ok (paddedInstructions,
        [0, 0xaa, 0, 0, 0, 0, 0, 9, 0, 0, 0, 5, 0, 0, 0, 5, 0xff, 0xff, 0xff, 0xff,
          0xb9, 0, 1, 1, 0, 0xba, 0, 2, 0, 0]) :=
  have hdecode : decodeAll paddedCode = .ok paddedInstructions := rfl
  ⟨hdecode, (assemble_of_decodeAll hdecode).2.2.1⟩

end Instruction

/-! ## Operands that are written although they do not fit -/

/-- Whether operands that are not checked when they are written fit: the
increment of a wide instruction its two bytes, and the bounds of a table and
the pairs of a lookup the number that is read. -/
def Operand.Representable (wide : Bool) {s : Shape} : Operand s → Prop
  | .increment _ v => wide = true → fitsShort v
  | .table _ low high _ => low ≤ high ∧ high.toInt - low.toInt < 65536
  | .lookup _ keys _ => keys.length < 65536
  | _ => True

/-- Operands that are written are read from some bytes exactly when those that
were not checked fit too. -/
theorem Operand.valid_iff_of_encode {op : Opcode} {wide : Bool} {offset : Nat} {s : Shape}
    {o : Operand s} {bytes : Bytes} (h : o.encode op wide offset = .ok bytes) :
    o.Valid wide ↔ o.Representable wide := by
  cases o with
  | none | pool16 i | branch32 d | arrayType t | interface i n | dynamic i | dimensions i n =>
    exact Iff.rfl
  | byte v | short v | branch16 v =>
    rw [encode] at h
    split at h
    · rename_i hfits
      exact iff_true_intro hfits
    · cases h
  | pool8 i =>
    rw [encode] at h
    split at h
    · cases h
    · rename_i hfits
      exact iff_true_intro (UInt16.not_lt.1 hfits)
  | slot n =>
    rw [encode] at h
    cases wide with
    | true => simp [Valid, Representable]
    | false =>
      simp only [Bool.false_eq_true, if_false] at h
      split at h
      · cases h
      · rename_i hfits
        simpa [Valid, Representable] using UInt16.not_lt.1 hfits
  | increment n v =>
    rw [encode] at h
    cases wide with
    | true => simp [Valid, Representable]
    | false =>
      simp only [Bool.false_eq_true, if_false] at h
      split at h
      · cases h
      · rename_i hfits
        simp only [Bool.or_eq_true, decide_eq_true_eq, Bool.not_eq_true', not_or,
          Bool.not_eq_false, UInt16.not_lt] at hfits
        simp [Valid, Representable, hfits]
  | table otherwise low high targets =>
    rw [encode] at h
    split at h
    · cases h
    · rename_i hlength
      simp [Valid, Representable, not_not.1 hlength]
  | lookup otherwise keys targets =>
    rw [encode] at h
    split at h
    · cases h
    · rename_i hlength
      simp [Valid, Representable, not_not.1 hlength]
  | wide | invalid => cases h

namespace Instruction

/-- What is written for an instruction are its marks and what is written for
its operands; it is wide only if it has a wide form. -/
theorem exists_encode_of_encodeAt {ins : Instruction} {offset : Nat} {bytes : Bytes}
    (h : ins.encodeAt offset = .ok bytes) :
    (ins.wide = true → ins.op.canWiden = true) ∧
      ∃ operands, ins.operand.encode ins.op ins.wide offset = .ok operands := by
  rw [encodeAt] at h
  split at h
  · cases h
  · rename_i hwiden
    refine ⟨fun hwide => by simpa [hwide] using hwiden, ?_⟩
    split at h
    · rename_i operands hoperands
      exact ⟨operands, hoperands⟩
    · cases h

/-- What is refused is refused because of its operands. -/
theorem encodeAt_error {ins : Instruction} {offset : Nat} {e : Error}
    (h : ins.encodeAt offset = .error e) : ∃ flaw, e = .operandRange flaw := by
  rw [encodeAt] at h
  split at h
  · exact ⟨_, (Except.error.inj h).symm⟩
  · split at h
    · cases h
    · exact ⟨_, (Except.error.inj h).symm⟩

/-- An instruction is refused, as one whose operands are out of range, or
written, and then what is found in its place is the same instruction exactly
when the operands that were not checked fit. -/
theorem decodeAt_encodeAt_iff (ins : Instruction) (before after : Bytes) :
    (∃ flaw, ins.encodeAt before.length = .error (.operandRange flaw)) ∨
      ∃ bytes, ins.encodeAt before.length = .ok bytes ∧
        (decodeAt (before ++ bytes ++ after) before.length =
            .ok { ins with offset := before.length } ↔
          ins.operand.Representable ins.wide) := by
  cases hencode : ins.encodeAt before.length with
  | error e =>
    obtain ⟨flaw, rfl⟩ := encodeAt_error hencode
    exact .inl ⟨flaw, rfl⟩
  | ok bytes =>
    obtain ⟨hwiden, operands, hoperands⟩ := exists_encode_of_encodeAt hencode
    refine .inr ⟨bytes, rfl, ?_⟩
    rw [← Operand.valid_iff_of_encode hoperands]
    constructor
    · intro h
      exact (valid_of_decodeAt h).1
    · intro h
      have hspelled : ({ ins with offset := before.length } : Instruction).Spelled bytes :=
        spelled_of_encodeAt hencode
      exact decodeAt_of_spelled ⟨h, hwiden⟩ rfl hspelled

/-- The wide form cuts an increment that does not fit, and another one is read. -/
example :
    let wideIncrement (delta : Int32) : Instruction :=
      { op := .iinc, wide := true, operand := (.increment 1 delta : Operand .increment) }
    (wideIncrement 100000).encodeAt 0 = .ok [0xc4, 0x84, 0, 1, 0x86, 0xa0] ∧
      decodeAt [0xc4, 0x84, 0, 1, 0x86, 0xa0] 0 = .ok (wideIncrement (-31072)) :=
  ⟨rfl, rfl⟩

end Instruction

end Cleartext
