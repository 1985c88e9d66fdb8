import Cleartext.Proofs.Code.Commit

/-!
# Where a commit puts places

`Edit.LaidOut` says what the code of a new body is, whatever the edits bring in:
the instructions of the plan, one after another, each in as many bytes as it
takes.  Nothing asks that the new code can be taken apart again, so an edit may
bring in instructions that no code holds.

`Edit.Follows` relates the places of the old code, instruction starts and the
end, to those of the new one.  Numbering places from the first instruction to
the end makes it a map, `Edit.follows_place` and `Edit.Follows.place`, and
`Edit.Follows.mono` says that it keeps the order.  `Edit.RowIndex` says the same
of the rows of the exception table.

A commit that fails is refused because of the layout of the edit, and for no
other reason (`Editor.commit_refuses`).
-/

namespace Cleartext

/-! ## Code of any instructions -/

namespace Instruction

theorem length_of_encodeAt {ins : Instruction} {at_ : Nat} {bytes : Bytes}
    (h : ins.encodeAt at_ = .ok bytes) : bytes.length = ins.sizeAt at_ := by
  unfold encodeAt at h
  split at h
  · cases h
  · rename_i hwiden
    simp only [Bool.and_eq_true, Bool.not_eq_true', not_and, Bool.not_eq_false] at hwiden
    split at h
    · rename_i operands hoperands
      have hlength := (Operand.spelled_of_encode hoperands).length
        (Operand.paired_of_encode hoperands) fun hwide => canWiden_iff.1 (hwiden hwide)
      rw [sizeAt, ← hlength, ← Except.ok.inj h]
      cases ins.wide <;> simp <;> omega
    · cases h

/-- An instruction of any opcode and operands that can be written is written in as many bytes as a
layout counts with, whatever the offset, and in one at least. -/
theorem encodeAt_length_eq_sizeAt (ins : Instruction) (offset : Nat) (bytes : Bytes)
    (h : ins.encodeAt offset = .ok bytes) :
    bytes.length = ins.sizeAt offset ∧ 1 ≤ bytes.length := by
  have hlength := length_of_encodeAt h
  refine ⟨hlength, ?_⟩
  rw [hlength]
  exact ins.operand.sizeAt_pos ins.wide offset

/-- A switch over three keys. -/
private def threeWaySwitch : Instruction where
  op := .tableswitch
  operand := (.table 40 (-1) 1 [8, 16, -6] : Operand .table)

theorem encodeAt_length_eq_sizeAt_switch : ∃ bytes,
    threeWaySwitch.encodeAt 6 = .ok bytes ∧ bytes.length = 26 ∧ 1 ≤ bytes.length := by
  obtain ⟨bytes, hbytes⟩ : ∃ bytes, threeWaySwitch.encodeAt 6 = .ok bytes := ⟨_, rfl⟩
  exact ⟨bytes, hbytes, encodeAt_length_eq_sizeAt threeWaySwitch 6 bytes hbytes⟩

/-- Instructions stand one after another from `offset` on, and make up `code`. -/
def Laid : Nat → List Instruction → Bytes → Prop
  | _, [], code => code = []
  | offset, ins :: rest, code =>
    ins.offset = offset ∧ ∃ bytes more, ins.Spelled bytes ∧ bytes.length = ins.size ∧
      code = bytes ++ more ∧ Laid ins.next rest more

variable {offset : Nat} {instructions : List Instruction} {code : Bytes}

theorem Tiles.laid (h : Tiles offset instructions code) : Laid offset instructions code := by
  induction instructions generalizing offset code with
  | nil => exact h
  | cons ins rest ih =>
    obtain ⟨hvalid, hoffset, bytes, more, hspelled, hcode, hrest⟩ := h
    exact ⟨hoffset, bytes, more, hspelled, hspelled.length hvalid, hcode, ih hrest⟩

theorem Laid.consecutive (h : Laid offset instructions code) :
    Consecutive offset instructions (offset + code.length) := by
  induction instructions generalizing offset code with
  | nil =>
    obtain rfl : code = [] := h
    rfl
  | cons ins rest ih =>
    obtain ⟨rfl, bytes, more, -, hlength, rfl, hrest⟩ := h
    have hnext : ins.offset + (bytes ++ more).length = ins.next + more.length := by
      rw [List.length_append, hlength, next, Nat.add_assoc]
    rw [hnext]
    exact ⟨rfl, ih hrest⟩

end Instruction

/-- The bytes of placed instructions lay out what they become. -/
theorem NewLayout.laid_of_encode {l : NewLayout} {placed : List Placed} {parts : List Bytes}
    {offset stop : Nat} (hplaced : Consecutive offset (placed.map (·.instruction)) stop)
    (h : List.Forall₂ (fun p bytes => l.encode p = .ok bytes) placed parts) :
    ∃ new, Instruction.Laid offset new parts.flatten ∧ List.Forall₂ l.Settles placed new ∧
      stop = offset + parts.flatten.length := by
  induction h generalizing offset with
  | nil => exact ⟨[], rfl, .nil, hplaced.symm⟩
  | @cons p bytes placed parts hp hrest ih =>
    obtain ⟨hoffset, hplaced⟩ := hplaced
    unfold NewLayout.encode at hp
    obtain ⟨operand, hoperand, hp⟩ := Except.bind_ok.1 hp
    let ins : Instruction := { p.instruction with operand }
    have hsettles : l.Settles p ins := ⟨operand, hoperand, rfl⟩
    split at hp
    · rename_i bytes' hencode
      obtain rfl := Except.pure_ok.1 hp
      have hnext : p.instruction.next = ins.next := by
        rw [Instruction.next, Instruction.next, hsettles.size]
      have hlength : bytes'.length = ins.size := Instruction.length_of_encodeAt hencode
      rw [hnext] at hplaced
      obtain ⟨new, hlaid, hnew, hstop⟩ := ih hplaced
      refine ⟨ins :: new, ⟨hoffset, bytes', parts.flatten, Instruction.spelled_of_encodeAt hencode,
        hlength, rfl, hlaid⟩, .cons hsettles hnew, ?_⟩
      have hins : ins.offset = offset := hoffset
      rw [hstop, List.flatten_cons, List.length_append, hlength, Instruction.next, hins,
        Nat.add_assoc]
    · exact (Except.throw_ok.1 hp).elim

/-! ## Places in order -/

/-- The place number `n` among instructions that end at `stop`: the start of the
instruction with that number, or the end. -/
def placeAt (instructions : List Instruction) (stop n : Nat) : Nat :=
  (instructions[n]?.map (·.offset)).getD stop

theorem placeAt_of_getElem? {instructions : List Instruction} {stop n : Nat} {ins : Instruction}
    (h : instructions[n]? = some ins) : placeAt instructions stop n = ins.offset := by
  rw [placeAt, h]
  rfl

theorem placeAt_of_length_le {instructions : List Instruction} {stop n : Nat}
    (h : instructions.length ≤ n) : placeAt instructions stop n = stop := by
  rw [placeAt, List.getElem?_eq_none h]
  rfl

namespace Consecutive

variable {offset stop n m : Nat} {instructions : List Instruction}
  (h : Consecutive offset instructions stop)

include h

theorem le_placeAt (n : Nat) : offset ≤ placeAt instructions stop n := by
  induction instructions generalizing offset n with
  | nil => exact Nat.le_of_eq h
  | cons ins rest ih =>
    cases n with
    | zero => exact Nat.le_of_eq h.1.symm
    | succ n =>
      have hle : ins.next ≤ placeAt rest stop n := ih h.2 n
      have hoffset := h.1
      rw [Instruction.next] at hle
      show offset ≤ placeAt rest stop n
      omega

/-- Every instruction starts in front of the places behind it. -/
theorem placeAt_lt (hn : n < instructions.length) (hlt : n < m) :
    placeAt instructions stop n < placeAt instructions stop m := by
  induction instructions generalizing offset n m with
  | nil => simp at hn
  | cons ins rest ih =>
    cases m with
    | zero => omega
    | succ m =>
      show placeAt (ins :: rest) stop n < placeAt rest stop m
      cases n with
      | zero =>
        have hle := h.2.le_placeAt m
        have hpos := ins.size_pos
        rw [Instruction.next] at hle
        show ins.offset < placeAt rest stop m
        omega
      | succ n => exact ih h.2 (by simpa using hn) (by omega)

theorem placeAt_le (hle : n ≤ m) : placeAt instructions stop n ≤ placeAt instructions stop m := by
  by_cases hn : n < instructions.length
  · rcases Nat.lt_or_eq_of_le hle with hlt | rfl
    · exact (h.placeAt_lt hn hlt).le
    · exact le_rfl
  · rw [placeAt_of_length_le (by omega), placeAt_of_length_le (by omega)]

end Consecutive

namespace Edit

/-- The code `code`, whose instructions are `new`, carries out some edits: its
instructions are those of the plan, with a load of a constant in its long form
where the index asks for it. -/
structure LaidOut (edits : List Edit) (old new : List Instruction) (code : Bytes) : Prop where
  instructions : new.map Instruction.unplaced =
    (plan edits old).map fun planned => planned.2.lengthened.unplaced
  laid : Instruction.Laid 0 new code

variable {edits : List Edit} {old new : List Instruction} {oldLength newLength : Nat}
  {t t' u u' : Int}

theorem length_plan (edits : List Edit) (old : List Instruction) :
    (plan edits old).length = ahead edits old old.length := by
  simp [plan, ahead, List.length_flatMap]

theorem ahead_mono (edits : List Edit) (old : List Instruction) {m n : Nat} (h : m ≤ n) :
    ahead edits old m ≤ ahead edits old n := by
  have htake : (old.take n).take m = old.take m := by rw [List.take_take, Nat.min_eq_left h]
  have hsplit := congrArg (fun l => (l.flatMap (planned edits)).length)
    (List.take_append_drop m (old.take n))
  simp only [List.flatMap_append, List.length_append, htake] at hsplit
  unfold ahead
  omega

namespace LaidOut

variable {code : Bytes} (h : LaidOut edits old new code)

include h

theorem length_eq : new.length = ahead edits old old.length := by
  have hlength := congrArg List.length h.instructions
  rwa [List.length_map, List.length_map, length_plan] at hlength

theorem consecutive : Consecutive 0 new code.length := by
  have hconsecutive := h.laid.consecutive
  rwa [Nat.zero_add] at hconsecutive

end LaidOut

theorem Follows.start_or_end (h : Follows edits old new oldLength newLength t t') :
    (∃ ins ∈ new, (ins.offset : Int) = t') ∨ t' = newLength := by
  rcases h with ⟨m, ins, ins', -, -, hins', hoffset⟩ | ⟨hend, -⟩
  · exact .inl ⟨ins', List.mem_of_getElem? hins', hoffset⟩
  · exact .inr hend

section Places

variable (hlength : new.length = ahead edits old old.length)

include hlength

/-- The place number `m` goes to the first instruction that is planned at or
behind it. -/
theorem follows_place (oldLength newLength : Nat) {m : Nat} (hm : m ≤ old.length) :
    Follows edits old new oldLength newLength (placeAt old oldLength m)
      (placeAt new newLength (ahead edits old m)) := by
  rcases Nat.lt_or_eq_of_le hm with hlt | rfl
  · have hins := List.getElem?_eq_getElem hlt
    rw [placeAt_of_getElem? hins]
    cases hnew : new[ahead edits old m]? with
    | some ins' =>
      rw [placeAt_of_getElem? hnew]
      exact .inl ⟨m, _, ins', hins, rfl, hnew, rfl⟩
    | none =>
      have hle := List.getElem?_eq_none_iff.1 hnew
      rw [placeAt_of_length_le hle]
      exact .inr ⟨rfl, .inr ⟨m, _, hins, rfl, hle⟩⟩
  · rw [placeAt_of_length_le le_rfl, placeAt_of_length_le hlength.le]
    exact .inr ⟨rfl, .inl rfl⟩

/-- Only places go somewhere, and each to one place. -/
theorem Follows.place (h : Follows edits old new oldLength newLength t t') :
    ∃ m ≤ old.length, t = placeAt old oldLength m ∧
      t' = placeAt new newLength (ahead edits old m) := by
  rcases h with ⟨m, ins, ins', hins, rfl, hins', rfl⟩ | ⟨rfl, rfl | ⟨m, ins, hins, rfl, hle⟩⟩
  · refine ⟨m, (List.getElem?_eq_some_iff.1 hins).1.le, ?_, ?_⟩
    · rw [placeAt_of_getElem? hins]
    · rw [placeAt_of_getElem? hins']
  · refine ⟨old.length, le_rfl, ?_, ?_⟩
    · rw [placeAt_of_length_le le_rfl]
    · rw [placeAt_of_length_le hlength.le]
  · refine ⟨m, (List.getElem?_eq_some_iff.1 hins).1.le, ?_, ?_⟩
    · rw [placeAt_of_getElem? hins]
    · rw [placeAt_of_length_le hle]

/-- Places stay in their order. -/
theorem Follows.mono (hold : Consecutive 0 old oldLength) (hnew : Consecutive 0 new newLength)
    (ht : Follows edits old new oldLength newLength t t')
    (hu : Follows edits old new oldLength newLength u u') (hle : t ≤ u) : t' ≤ u' := by
  obtain ⟨m, hm, rfl, rfl⟩ := ht.place hlength
  obtain ⟨n, -, rfl, rfl⟩ := hu.place hlength
  -- A place is in front of another exactly when its number is smaller.
  have hmn : m ≤ n := by
    by_contra hlt
    have hback := hold.placeAt_lt (n := n) (m := m) (by omega) (by omega)
    omega
  have hplace := hnew.placeAt_le (ahead_mono edits old hmn)
  omega

/-- A place goes to an instruction exactly when it goes to the start of one. -/
theorem Follows.lands_iff (hold : Consecutive 0 old oldLength) (hnew : Consecutive 0 new newLength)
    (h : Follows edits old new oldLength newLength t t') :
    (∃ u, Lands edits old new t u) ↔ ∃ ins ∈ new, (ins.offset : Int) = t' := by
  constructor
  · intro hlands
    obtain ⟨u, hu⟩ := hlands
    have hfollows : Follows edits old new oldLength newLength t u := .inl hu
    have hle := hfollows.mono hlength hold hnew h le_rfl
    have hge := h.mono hlength hold hnew hfollows le_rfl
    obtain ⟨m, ins, ins', -, -, hins', hoffset⟩ := hu
    exact ⟨ins', List.mem_of_getElem? hins', by omega⟩
  · intro hstart
    obtain ⟨ins, hins, hoffset⟩ := hstart
    rcases h with hlands | ⟨hend, -⟩
    · exact ⟨t', hlands⟩
    · have hlt := hnew.lt ins hins
      omega

end Places

/-! ## Edits that reach nothing -/

theorem inserted_of_ne {at_ : Int} (h : ∀ edit ∈ edits, at_ ≠ edit.offset) :
    inserted edits at_ = [] := by
  refine List.flatMap_eq_nil_iff.2 fun edit hedit => ?_
  have hne := h edit hedit
  cases edit with
  | insert o instructions => exact if_neg fun ho => hne ho.symm
  | _ => rfl

theorem survivor_of_ne {at_ : Int} (h : ∀ edit ∈ edits, at_ ≠ edit.offset)
    (kept : Option Instruction) : survivor edits at_ kept = kept := by
  induction edits with
  | nil => rfl
  | cons edit edits ih =>
    rw [List.forall_mem_cons] at h
    have hne : ¬ edit.offset = at_ := fun ho => h.1 ho.symm
    have hstep : survivor (edit :: edits) at_ kept = survivor edits at_ kept := by
      unfold survivor
      rw [List.foldl_cons]
      cases edit with
      | replace o ins => simp only [if_neg (show ¬ o = at_ from hne)]
      | delete o => simp only [if_neg (show ¬ o = at_ from hne)]
      | insert o instructions => rfl
    rw [hstep]
    exact ih h.2

/-- An instruction that no call was made at stays. -/
theorem planned_of_ne {ins : Instruction} (h : ∀ edit ∈ edits, (ins.offset : Int) ≠ edit.offset) :
    planned edits ins = [ins] := by
  rw [planned, inserted_of_ne h, survivor_of_ne h]
  rfl

theorem planned_append {first second : List Edit} {ins : Instruction} :
    planned (first ++ second) ins = inserted first ins.offset ++ inserted second ins.offset ++
      (survivor second ins.offset (survivor first ins.offset (some ins))).toList := by
  simp [planned, inserted, survivor]

/-- Later calls at other instructions do not matter. -/
theorem planned_append_left {first second : List Edit} {ins : Instruction}
    (h : ∀ edit ∈ second, (ins.offset : Int) ≠ edit.offset) :
    planned (first ++ second) ins = planned first ins := by
  rw [planned_append, inserted_of_ne h, survivor_of_ne h, List.append_nil, planned]

/-- Earlier calls at other instructions do not matter. -/
theorem planned_append_right {first second : List Edit} {ins : Instruction}
    (h : ∀ edit ∈ first, (ins.offset : Int) ≠ edit.offset) :
    planned (first ++ second) ins = planned second ins := by
  rw [planned_append, inserted_of_ne h, survivor_of_ne h, List.nil_append, planned]

/-- Calls at instructions of two parts of the code are planned in each part by itself. -/
theorem plan_append {first second : List Edit} {front rest : List Instruction} {offset stop : Nat}
    (hold : Consecutive offset (front ++ rest) stop)
    (hfirst : ∀ edit ∈ first, ∃ ins ∈ front, (ins.offset : Int) = edit.offset)
    (hsecond : ∀ edit ∈ second, ∃ ins ∈ rest, (ins.offset : Int) = edit.offset) :
    plan (first ++ second) (front ++ rest) = plan first front ++ plan second rest := by
  obtain ⟨middle, hfront, hrest⟩ := consecutive_append.1 hold
  have hplanFront : plan (first ++ second) front = plan first front := by
    refine List.flatMap_congr fun ins hins => ?_
    rw [planned_append_left fun edit hedit heq => ?_]
    obtain ⟨other, hother, hoffset⟩ := hsecond edit hedit
    have hlt := hfront.lt ins hins
    have hle := hrest.le_offset other hother
    omega
  have hplanRest : plan (first ++ second) rest = plan second rest := by
    refine List.flatMap_congr fun ins hins => ?_
    rw [planned_append_right fun edit hedit heq => ?_]
    obtain ⟨other, hother, hoffset⟩ := hfirst edit hedit
    have hlt := hfront.lt other hother
    have hle := hrest.le_offset ins hins
    omega
  rw [← hplanFront, ← hplanRest]
  exact List.flatMap_append

section Unstaged

variable (h : ∀ edit ∈ edits, ∀ ins ∈ old, (ins.offset : Int) ≠ edit.offset)

include h

theorem plan_of_unstaged : plan edits old = old.map fun ins => (ins.offset, ins) := by
  unfold plan
  rw [← List.flatMap_singleton' (old.map _), List.flatMap_map]
  refine List.flatMap_congr fun ins hins => ?_
  rw [planned_of_ne fun edit hedit => h edit hedit ins hins]
  rfl

/-- Where nothing is staged every instruction stays where it is. -/
theorem lands_of_unstaged {ins : Instruction} (hins : ins ∈ old) :
    Lands edits old old ins.offset ins.offset := by
  obtain ⟨m, hm⟩ := List.getElem?_of_mem hins
  have hlt := (List.getElem?_eq_some_iff.1 hm).1
  have hahead : ahead edits old m = m := by
    have htake := @plan_of_unstaged edits (old.take m) fun edit hedit ins hins =>
      h edit hedit ins (List.mem_of_mem_take hins)
    have hlength := length_plan edits (old.take m)
    rw [htake, List.length_map, ahead, List.take_length, List.length_take] at hlength
    unfold ahead
    omega
  exact ⟨m, ins, ins, hm, rfl, by rw [hahead, hm], rfl⟩

theorem laidOut_of_unstaged {code : Bytes} (hold : Instruction.decodeAll code = .ok old) :
    LaidOut edits old old code := by
  have htiles := Instruction.decodeAll_ok.1 hold
  refine ⟨?_, htiles.laid⟩
  rw [plan_of_unstaged h, List.map_map]
  refine List.map_congr_left fun ins hins => ?_
  show ins.unplaced = ins.lengthened.unplaced
  rw [Instruction.lengthened_eq_of_valid (htiles.valid ins hins)]

end Unstaged

/-! ## Rows in order -/

theorem Rows.append {rows rows' more more' : List Handler}
    (h : Rows edits old new oldLength newLength rows rows')
    (hmore : Rows edits old new oldLength newLength more more') :
    Rows edits old new oldLength newLength (rows ++ more) (rows' ++ more') := by
  induction h with
  | nil => exact hmore
  | keep hstart hstop htarget hcatch hrange _ ih =>
    exact .keep hstart hstop htarget hcatch hrange ih
  | drop hstart hstop htarget hrange _ ih => exact .drop hstart hstop htarget hrange ih

/-- The row number `i` of an exception table has become the row number `j` of
the new one: it follows the edits, and so do the rows in front of it. -/
def RowIndex (edits : List Edit) (old new : List Instruction) (oldLength newLength : Nat)
    (rows rows' : List Handler) (i j : Nat) : Prop :=
  ∃ h h', rows[i]? = some h ∧ rows'[j]? = some h' ∧
    Rows edits old new oldLength newLength [h] [h'] ∧
    Rows edits old new oldLength newLength (rows.take i) (rows'.take j)

theorem RowIndex.congr {new' : List Instruction} {rows rows' : List Handler} {i j : Nat}
    (hoffsets : new.map (·.offset) = new'.map (·.offset))
    (h : RowIndex edits old new oldLength newLength rows rows' i j) :
    RowIndex edits old new' oldLength newLength rows rows' i j := by
  obtain ⟨row, row', hrow, hrow', hone, hfront⟩ := h
  exact ⟨row, row', hrow, hrow', hone.congr hoffsets, hfront.congr hoffsets⟩

end Edit

/-- A row of an exception table becomes a row or is dropped, and the other rows
are numbered behind it. -/
theorem NewLayout.handlers_cons {l : NewLayout} {next : Nat} {row : Handler}
    {rows rows' : List Handler} {indices : List (Option Nat)}
    (h : l.handlers next (row :: rows) = .ok (rows', indices)) :
    ∃ first index more behind, l.handlers next [row] = .ok (first, [index]) ∧
      l.handlers (next + first.length) rows = .ok (more, behind) ∧
      rows' = first ++ more ∧ indices = index :: behind ∧
      (index = none ∧ first = [] ∨ index = some next ∧ ∃ row', first = [row']) := by
  rw [handlers] at h
  obtain ⟨start, hstart, h⟩ := Except.bind_ok.1 h
  obtain ⟨stop, hstop, h⟩ := Except.bind_ok.1 h
  obtain ⟨target, htarget, h⟩ := Except.bind_ok.1 h
  have hone : l.handlers next [row] = if stop ≤ start then .ok ([], [none]) else
      .ok ([{ row with start := UInt16.ofInt start, stop := UInt16.ofInt stop,
                       target := UInt16.ofInt target }], [some next]) := by
    rw [handlers, hstart, hstop, htarget]
    rfl
  split at h
  · rename_i hrange
    rw [if_pos hrange] at hone
    obtain ⟨⟨more, behind⟩, hmore, h⟩ := Except.bind_ok.1 h
    obtain ⟨rfl, rfl⟩ := Prod.mk.inj (Except.pure_ok.1 h)
    exact ⟨[], none, more, behind, hone, hmore, rfl, rfl, .inl ⟨rfl, rfl⟩⟩
  · rename_i hrange
    rw [if_neg hrange] at hone
    obtain ⟨⟨more, behind⟩, hmore, h⟩ := Except.bind_ok.1 h
    obtain ⟨rfl, rfl⟩ := Prod.mk.inj (Except.pure_ok.1 h)
    exact ⟨_, some next, more, behind, hone, hmore, rfl, rfl, .inr ⟨rfl, _, rfl⟩⟩

/-- The new index of an old row is that of the row it has become. -/
theorem Editor.Plans.rowIndex {e : Editor} {edits : List Edit} {old : List Instruction}
    (h : e.Plans edits old) (hlength : e.newLayout.newLength < 65536) {rows rows' : List Handler}
    {next i j : Nat} {indices : List (Option Nat)}
    (hrows : e.newLayout.handlers next rows = .ok (rows', indices))
    (hindex : indices[i]? = some (some j)) :
    ∃ k ≤ i, j = next + k ∧ Edit.RowIndex edits old (e.newLayout.placed.map (·.instruction))
      e.body.bytecode.length e.newLayout.newLength rows rows' i k := by
  induction rows generalizing next i rows' indices with
  | nil =>
    obtain ⟨-, rfl⟩ := Prod.mk.inj (Except.ok.inj hrows)
    simp at hindex
  | cons row rows ih =>
    obtain ⟨first, index, more, behind, hone, hmore, rfl, rfl, hfirst⟩ :=
      NewLayout.handlers_cons hrows
    have hrow := h.handlers hlength _ _ _ _ hone
    cases i with
    | zero =>
      obtain rfl := Option.some.inj hindex
      rcases hfirst with ⟨hnone, -⟩ | ⟨hsome, row', rfl⟩
      · cases hnone
      · exact ⟨0, le_rfl, Option.some.inj hsome, row, row', rfl, rfl, hrow, .nil⟩
    | succ i =>
      obtain ⟨k, hk, hj, row₁, row₁', hrow₁, hrow₁', hone₁, hfront⟩ := ih hmore hindex
      have hle : first.length ≤ 1 := by
        rcases hfirst with ⟨-, rfl⟩ | ⟨-, row', rfl⟩ <;> simp
      refine ⟨first.length + k, by omega, by omega, row₁, row₁', hrow₁, ?_, hone₁, ?_⟩
      · rw [List.getElem?_append_right (by omega), Nat.add_sub_cancel_left]
        exact hrow₁'
      · rw [List.take_length_add_append]
        exact hrow.append hfront

/-! ## The steps of a commit -/

namespace Editor

/-- The new index of a row of the exception table, if it has one. -/
def handlerMap (indices : List (Option Nat)) (old : Nat) : Except Error Nat :=
  match indices[old]? with
  | some (some new) => .ok new
  | _ => .error (.structural 0 (.droppedHandler old))

theorem handlerMap_ok {indices : List (Option Nat)} {i j : Nat} :
    handlerMap indices i = .ok j ↔ indices[i]? = some (some j) := by
  unfold handlerMap
  split
  · rename_i new hnew
    rw [hnew, Except.ok.injEq, Option.some.injEq, Option.some.injEq]
  · rename_i hnone
    simp only [reduceCtorEq, false_iff]
    exact hnone j

theorem attemptAll_body (e : Editor) (edits : List Edit) : (e.attemptAll edits).body = e.body := by
  rw [attemptAll_eq]

theorem attemptAll_plans (body : MethodBody) (old : List Instruction) (edits : List Edit) :
    Plans (attemptAll ⟨body, old.map fun ins => { original := ins }⟩ edits) edits old :=
  attemptAll_result edits

/-- A commit of some calls lays out a body, unless no call was made at the start
of an instruction. -/
theorem commit_cases {body : MethodBody} {old : List Instruction} {edits : List Edit} {pool : Pool}
    {e' : Editor}
    (h : (attemptAll ⟨body, old.map fun ins => { original := ins }⟩ edits).commit pool = .ok e') :
    (∀ edit ∈ edits, ∀ ins ∈ old, (ins.offset : Int) ≠ edit.offset) ∧
        e' = ⟨body, old.map fun ins => { original := ins }⟩ ∨
      (∃ edit ∈ edits, ∃ ins ∈ old, (ins.offset : Int) = edit.offset) ∧
        (attemptAll ⟨body, old.map fun ins => { original := ins }⟩ edits).edited pool =
          .ok e'.body := by
  have hmodified := @attemptAll_isModified old body edits
  unfold commit at h
  split at h
  · rename_i hunmodified
    have hnone : ∀ edit ∈ edits, ∀ ins ∈ old, (ins.offset : Int) ≠ edit.offset := by
      intro edit hedit ins hins hoffset
      have hstaged := hmodified.2 ⟨edit, hedit, ins, hins, hoffset⟩
      simp [hstaged] at hunmodified
    obtain rfl := Except.pure_ok.1 h
    exact .inl ⟨hnone, attemptAll_unstaged hnone⟩
  · rename_i hstaged
    obtain ⟨body', hedited, h⟩ := Except.bind_ok.1 h
    obtain rfl := Except.pure_ok.1 h
    exact .inr ⟨hmodified.1 (by simpa using hstaged), hedited⟩

/-- What the attributes of the body follow. -/
theorem edited_attributes {e : Editor} {pool : Pool} {body : MethodBody}
    (h : e.edited pool = .ok body) :
    ∃ handlers indices, e.newLayout.handlers 0 e.body.handlers = .ok (handlers, indices) ∧
      body.handlers = handlers ∧
      List.Forall₂ (fun a a' => Relocation.attribute_ ⟨e.newLayout.offset, handlerMap indices⟩
        pool a = .ok a') e.body.attributes body.attributes := by
  unfold edited at h
  simp only at h
  split at h
  · simp only [Except.bind_ok, Except.throw_ok, false_and, exists_false] at h
  · obtain ⟨parts, -, h⟩ := Except.bind_ok.1 h
    obtain ⟨⟨handlers, indices⟩, hhandlers, h⟩ := Except.bind_ok.1 h
    simp only at h
    split at h
    · rename_i attributes hattributes
      obtain rfl := Except.pure_ok.1 h
      exact ⟨handlers, indices, hhandlers, rfl, Except.mapM_ok.1 hattributes⟩
    · exact (Except.throw_ok.1 h).elim

/-- The code of the body carries out the plan. -/
theorem Plans.laidOut {e : Editor} {edits : List Edit} {old : List Instruction} {pool : Pool}
    {body' : MethodBody} (h : e.Plans edits old) (hedited : e.edited pool = .ok body') :
    ∃ new, Edit.LaidOut edits old new body'.bytecode ∧
      (e.newLayout.placed.map (·.instruction)).map (·.offset) = new.map (·.offset) ∧
      e.newLayout.newLength = body'.bytecode.length := by
  obtain ⟨-, parts, handlers, indices, attributes, hparts, -, -, rfl⟩ := edited_ok hedited
  have hof : List.Forall₂ Placed.Of (Edit.plan edits old) e.newLayout.placed := by
    rw [← h.plan_eq]
    exact layOut_of 0 e.staged
  obtain ⟨new, hlaid, hsettles, hstop⟩ :=
    NewLayout.laid_of_encode e.newLayout_consecutive hparts
  refine ⟨new, ⟨?_, hlaid⟩, ?_, by rwa [Nat.zero_add] at hstop⟩
  · calc new.map Instruction.unplaced
        = e.newLayout.placed.map (·.instruction.unplaced) :=
          (map_eq_map hsettles fun p ins hp => hp.unplaced.symm).symm
      _ = (Edit.plan edits old).map fun planned => planned.2.lengthened.unplaced := by
          refine (map_eq_map hof ?_).symm
          intro planned p hp
          rw [hp.2, Instruction.placedAt_unplaced]
  · rw [List.map_map]
    exact map_eq_map hsettles fun p ins hp => hp.offset.symm

end Editor

/-! ## Refusals -/

/-- A step that fails only because of the layout of an edit. -/
def Refuses {α : Type} (x : Except Error α) : Prop := ∀ e, x = .error e → e.isStructural = true

namespace Refuses

variable {α β : Type}

theorem ok (a : α) : Refuses (.ok a) := by
  intro e h
  cases h

theorem error {e : Error} (he : e.isStructural = true) : Refuses (.error e : Except Error α) := by
  intro e' h
  rwa [← Except.error.inj h]

theorem bind {x : Except Error α} {f : α → Except Error β} (hx : Refuses x)
    (hf : ∀ a, Refuses (f a)) : Refuses (x >>= f) := by
  cases x with
  | ok a => exact hf a
  | error e => exact error (hx e rfl)

theorem mapM {f : α → Except Error β} (hf : ∀ a, Refuses (f a)) (items : List α) :
    Refuses (items.mapM f) := by
  induction items with
  | nil => exact ok []
  | cons a items ih =>
    rw [List.mapM_cons]
    exact bind (hf a) fun b => bind ih fun answers => ok _

end Refuses

namespace NewLayout

variable (l : NewLayout)

theorem refuses_offset (t : Int) : Refuses (l.offset t) := by
  unfold offset
  split
  · exact .ok _
  · split
    · exact .error rfl
    · split
      · exact .ok _
      · exact .error rfl

theorem refuses_target (t : Int) : Refuses (l.target t) := by
  refine (l.refuses_offset t).bind fun new => ?_
  split
  · exact .error rfl
  · exact .ok _

theorem refuses_distance (anchor offset : Nat) (d : Int32) :
    Refuses (l.distance anchor offset d) :=
  (l.refuses_target _).bind fun _ => .ok _

theorem refuses_operand (op : Opcode) (anchor offset : Nat) {s : Shape} (o : Operand s) :
    Refuses (l.operand op anchor offset o) := by
  have hdistance := l.refuses_distance anchor offset
  cases o with
  | branch16 d =>
    refine (hdistance d).bind fun d' => ?_
    split
    · exact .ok _
    · exact .error rfl
  | branch32 d => exact (hdistance d).bind fun _ => .ok _
  | table d low high targets =>
    exact (hdistance d).bind fun _ => (Refuses.mapM hdistance targets).bind fun _ => .ok _
  | lookup d keys targets =>
    exact (hdistance d).bind fun _ => (Refuses.mapM hdistance targets).bind fun _ => .ok _
  | _ => exact .ok _

theorem refuses_encode (p : Placed) : Refuses (l.encode p) := by
  refine (l.refuses_operand _ _ _ _).bind fun operand => ?_
  split
  · exact .ok _
  · exact .error rfl

theorem refuses_handlers (next : Nat) (rows : List Handler) : Refuses (l.handlers next rows) := by
  induction rows generalizing next with
  | nil => exact .ok _
  | cons row rows ih =>
    refine (l.refuses_offset _).bind fun start => (l.refuses_offset _).bind fun stop =>
      (l.refuses_target _).bind fun target => ?_
    split
    · exact (ih _).bind fun _ => .ok _
    · exact (ih _).bind fun _ => .ok _

end NewLayout

namespace Editor

theorem refuses_edited (e : Editor) (pool : Pool) : Refuses (e.edited pool) := by
  unfold edited
  simp only
  split
  · exact .error rfl
  · refine (Refuses.mapM e.newLayout.refuses_encode _).bind fun parts => ?_
    refine (e.newLayout.refuses_handlers 0 _).bind fun answer => ?_
    obtain ⟨handlers, indices⟩ := answer
    simp only
    split
    · exact .ok _
    · rename_i err _
      refine .error ?_
      by_cases herr : err.isStructural = true
      · rw [if_pos herr]
        exact herr
      · rw [if_neg herr]
        rfl

/-- A commit that fails is refused because of the layout of the edit. -/
theorem commit_refuses (e : Editor) (pool : Pool) : Refuses (e.commit pool) := by
  unfold commit
  split
  · exact .ok _
  · exact (e.refuses_edited pool).bind fun _ => .ok _

end Editor

end Cleartext
