import Cleartext.Code.Editor
import Cleartext.Proofs.Code.Spelling

/-!
# What a commit does to a method body

An editor takes any number of calls that stage edits, and `Editor.commit` lays
out the result.  This file says what the new body is in terms of the calls.

The calls determine a plan: in front of every old instruction those inserted
there, in the order of the calls, and then the instruction itself, its last
replacement, or nothing when it was deleted last.  `Edit.plan` is that list,
and `attemptAll_result` says that the editor stages exactly it.

The new layout is one pass over the plan.  `Consecutive` says that the
instructions stand one after another, and `layOut_starts` says where an old
instruction start goes: to the first instruction of the plan at or behind it.
`Rewritten` collects what follows for the new body, and `commit_rewrites` is
the main statement.
-/

namespace Cleartext

/-! ## Edits -/

/-- A call that stages an edit.  Offsets are those of the old layout. -/
inductive Edit
  | replace (offset : Int) (by_ : Instruction)
  | delete (offset : Int)
  | insert (offset : Int) (instructions : List Instruction)

namespace Edit

/-- The offset that an edit is staged at. -/
def offset : Edit → Int
  | replace o _ | delete o | insert o _ => o

/-- The instructions that an edit brings in. -/
def instructions : Edit → List Instruction
  | replace _ ins => [ins]
  | delete _ => []
  | insert _ instructions => instructions

/-- Makes the call. -/
def run : Edit → Editor → Except Error Editor
  | replace o ins, e => e.replace o ins
  | delete o, e => e.delete o
  | insert o instructions, e => e.insert o instructions

/-- What is inserted at an offset, in the order of the calls. -/
def inserted (edits : List Edit) (at_ : Int) : List Instruction :=
  edits.flatMap fun
    | insert o instructions => if o = at_ then instructions else []
    | _ => []

theorem inserted_cons (edit : Edit) (edits : List Edit) (at_ : Int) :
    inserted (edit :: edits) at_ = inserted [edit] at_ ++ inserted edits at_ := by
  simp [inserted]

/-- What the last call that replaces or deletes an instruction leaves of it. -/
def survivor (edits : List Edit) (at_ : Int) (kept : Option Instruction) :
    Option Instruction :=
  edits.foldl (fun kept edit =>
    match edit with
    | replace o ins => if o = at_ then some ins else kept
    | delete o => if o = at_ then none else kept
    | insert .. => kept) kept

/-- What takes the place of an old instruction. -/
def planned (edits : List Edit) (ins : Instruction) : List Instruction :=
  inserted edits ins.offset ++ (survivor edits ins.offset (some ins)).toList

/-- What takes the place of old instructions, each with the old offset that its
distances count from. -/
def plan (edits : List Edit) (old : List Instruction) : List (Nat × Instruction) :=
  old.flatMap fun ins => (planned edits ins).map fun new => (ins.offset, new)

end Edit

namespace Staged

/-- What survives of the instruction itself. -/
def survivor (s : Staged) : Option Instruction :=
  match s.fate with
  | .keep => some s.original
  | .replace ins => some ins
  | .delete => none

theorem result_eq (s : Staged) : s.result = s.before.getD [] ++ s.survivor.toList := by
  unfold result survivor
  cases s.fate <;> rfl

/-- The staged instruction after a call. -/
def take (s : Staged) (edit : Edit) : Staged :=
  if (s.original.offset : Int) = edit.offset then
    match edit with
    | .replace _ ins => { s with fate := .replace ins }
    | .delete _ => { s with fate := .delete }
    | .insert _ instructions => { s with before := some (s.before.getD [] ++ instructions) }
  else s

@[simp] theorem take_original (s : Staged) (edit : Edit) :
    (s.take edit).original = s.original := by
  unfold take
  split
  · cases edit <;> rfl
  · rfl

@[simp] theorem foldl_take_original (edits : List Edit) (s : Staged) :
    (edits.foldl take s).original = s.original := by
  induction edits generalizing s with
  | nil => rfl
  | cons edit edits ih => rw [List.foldl_cons, ih, take_original]

theorem foldl_take_before (edits : List Edit) (s : Staged) :
    (edits.foldl take s).before.getD [] =
      s.before.getD [] ++ Edit.inserted edits s.original.offset := by
  induction edits generalizing s with
  | nil => simp [Edit.inserted]
  | cons edit edits ih =>
    rw [List.foldl_cons, ih, take_original]
    have hstep : (s.take edit).before.getD [] = s.before.getD [] ++
        Edit.inserted [edit] s.original.offset := by
      unfold take
      by_cases h : (s.original.offset : Int) = edit.offset
      · rw [if_pos h]
        cases edit with
        | insert o instructions =>
          have ho : o = s.original.offset := h.symm
          simp [Edit.inserted, ho]
        | _ => simp [Edit.inserted]
      · rw [if_neg h]
        cases edit with
        | insert o instructions =>
          have ho : ¬ o = s.original.offset := fun hs => h hs.symm
          simp [Edit.inserted, ho]
        | _ => simp [Edit.inserted]
    rw [hstep, List.append_assoc, ← Edit.inserted_cons]

theorem foldl_take_survivor (edits : List Edit) (s : Staged) :
    (edits.foldl take s).survivor =
      Edit.survivor edits s.original.offset s.survivor := by
  induction edits generalizing s with
  | nil => rfl
  | cons edit edits ih =>
    rw [List.foldl_cons, ih, take_original]
    have hstep : (s.take edit).survivor =
        Edit.survivor [edit] s.original.offset s.survivor := by
      unfold take
      by_cases h : (s.original.offset : Int) = edit.offset
      · rw [if_pos h]
        cases edit with
        | insert o instructions => rfl
        | replace o ins =>
          have ho : o = s.original.offset := h.symm
          simp [Edit.survivor, survivor, ho]
        | delete o =>
          have ho : o = s.original.offset := h.symm
          simp [Edit.survivor, survivor, ho]
      · rw [if_neg h]
        cases edit with
        | insert o instructions => rfl
        | replace o ins =>
          have ho : ¬ o = s.original.offset := fun hs => h hs.symm
          simp [Edit.survivor, ho]
        | delete o =>
          have ho : ¬ o = s.original.offset := fun hs => h hs.symm
          simp [Edit.survivor, ho]
    rw [hstep]
    rfl

/-- An edit is staged at an instruction exactly when a call was made at its
offset. -/
theorem foldl_take_isEdited (edits : List Edit) (s : Staged) :
    (edits.foldl take s).isEdited = true ↔
      s.isEdited = true ∨ ∃ edit ∈ edits, (s.original.offset : Int) = edit.offset := by
  induction edits generalizing s with
  | nil => simp
  | cons edit edits ih =>
    have hstep : (s.take edit).isEdited = true ↔
        s.isEdited = true ∨ (s.original.offset : Int) = edit.offset := by
      unfold take
      by_cases h : (s.original.offset : Int) = edit.offset
      · rw [if_pos h]
        cases edit <;> simp [isEdited, h]
      · rw [if_neg h]
        simp [h]
    rw [List.foldl_cons, ih, take_original, hstep, List.exists_mem_cons_iff, or_assoc]

theorem foldl_take_of_ne {edits : List Edit} {s : Staged}
    (h : ∀ edit ∈ edits, (s.original.offset : Int) ≠ edit.offset) :
    edits.foldl take s = s := by
  induction edits with
  | nil => rfl
  | cons edit edits ih =>
    rw [List.forall_mem_cons] at h
    have hstep : s.take edit = s := by
      unfold take
      rw [if_neg h.1]
    rw [List.foldl_cons, hstep]
    exact ih h.2

end Staged

namespace Editor

/-- Makes a call and goes on with the editor as it was when it fails. -/
def attempt (e : Editor) (edit : Edit) : Editor := (edit.run e).toOption.getD e

/-- Makes one call after another. -/
def attemptAll (e : Editor) (edits : List Edit) : Editor := edits.foldl attempt e

private theorem stage_toOption (e : Editor) (offset : Int) (edit : Staged → Staged) :
    (e.stage offset edit).toOption.getD e = { e with staged := e.staged.map fun s =>
      if (s.original.offset : Int) = offset then edit s else s } := by
  unfold stage
  by_cases h : (e.staged.any fun s => decide ((s.original.offset : Int) = offset)) = true
  · rw [if_pos h]
    rfl
  · rw [if_neg h]
    have hmap : (e.staged.map fun s =>
        if (s.original.offset : Int) = offset then edit s else s) = e.staged := by
      conv_rhs => rw [← List.map_id e.staged]
      apply List.map_congr_left
      intro s hs
      rw [if_neg]
      · rfl
      · intro heq
        exact h (List.any_eq_true.2 ⟨s, hs, decide_eq_true heq⟩)
    rw [hmap]
    rfl

/-- A call reaches every staged instruction, whether it succeeds or not. -/
theorem attempt_eq (e : Editor) (edit : Edit) :
    e.attempt edit = { e with staged := e.staged.map (·.take edit) } := by
  cases edit with
  | replace o ins => exact stage_toOption e o _
  | delete o => exact stage_toOption e o _
  | insert o instructions => exact stage_toOption e o _

theorem attemptAll_eq (e : Editor) (edits : List Edit) :
    e.attemptAll edits = { e with staged := e.staged.map fun s => edits.foldl Staged.take s } := by
  unfold attemptAll
  induction edits generalizing e with
  | nil => simp
  | cons edit edits ih =>
    rw [List.foldl_cons, ih, attempt_eq]
    simp

theorem new_ok {body : MethodBody} {e : Editor} :
    Editor.new body = .ok e ↔
      ∃ old, Instruction.decodeAll body.bytecode = .ok old ∧
        e = ⟨body, old.map fun ins => { original := ins }⟩ := by
  unfold Editor.new
  rw [Except.bind_ok]
  simp only [Except.pure_ok]
  constructor
  · intro h
    obtain ⟨old, hold, rfl⟩ := h
    exact ⟨old, hold, rfl⟩
  · intro h
    obtain ⟨old, hold, rfl⟩ := h
    exact ⟨old, hold, rfl⟩

/-- The editor stages the plan of the calls. -/
theorem attemptAll_result {old : List Instruction} {body : MethodBody} (edits : List Edit) :
    (attemptAll ⟨body, old.map fun ins => { original := ins }⟩ edits).staged.map
        (fun s => (s.original, s.result)) =
      old.map fun ins => (ins, Edit.planned edits ins) := by
  rw [attemptAll_eq]
  simp only [List.map_map]
  apply List.map_congr_left
  intro ins _
  simp only [Function.comp_apply, Staged.foldl_take_original, Staged.result_eq,
    Staged.foldl_take_before, Staged.foldl_take_survivor]
  rfl

theorem attemptAll_unstaged {old : List Instruction} {body : MethodBody} {edits : List Edit}
    (h : ∀ edit ∈ edits, ∀ ins ∈ old, (ins.offset : Int) ≠ edit.offset) :
    attemptAll ⟨body, old.map fun ins => { original := ins }⟩ edits =
      ⟨body, old.map fun ins => { original := ins }⟩ := by
  rw [attemptAll_eq]
  simp only [List.map_map, mk.injEq, true_and]
  apply List.map_congr_left
  intro ins hins
  exact Staged.foldl_take_of_ne fun edit hedit => h edit hedit ins hins

/-- The editor is modified exactly when a call was made at the start of an
instruction. -/
theorem attemptAll_isModified {old : List Instruction} {body : MethodBody}
    (edits : List Edit) :
    (attemptAll ⟨body, old.map fun ins => { original := ins }⟩ edits).isModified = true ↔
      ∃ edit ∈ edits, ∃ ins ∈ old, (ins.offset : Int) = edit.offset := by
  rw [attemptAll_eq, isModified, List.any_eq_true]
  simp only [List.map_map, List.mem_map, Function.comp_apply]
  constructor
  · intro h
    obtain ⟨_, ⟨ins, hins, rfl⟩, hedited⟩ := h
    rcases (Staged.foldl_take_isEdited edits _).1 hedited with hnone | ⟨edit, hedit, hoffset⟩
    · exact absurd hnone (by simp [Staged.isEdited])
    · exact ⟨edit, hedit, ins, hins, hoffset⟩
  · intro h
    obtain ⟨edit, hedit, ins, hins, hoffset⟩ := h
    exact ⟨_, ⟨ins, hins, rfl⟩,
      (Staged.foldl_take_isEdited edits _).2 (.inr ⟨edit, hedit, hoffset⟩)⟩

end Editor

/-! ## Operands without distances -/

namespace Operand

variable {s : Shape}

/-- The operands with every distance changed by `f`. -/
def mapDistances (f : Int32 → Int32) : Operand s → Operand s
  | .branch16 d => .branch16 (f d)
  | .branch32 d => .branch32 (f d)
  | .table d low high targets => .table (f d) low high (targets.map f)
  | .lookup d keys targets => .lookup (f d) keys (targets.map f)
  | o => o

end Operand

/-- An edit of a pool goes on with the answer of its first step. -/
theorem Pool.edit_bind {α β : Type} (pool : Pool) (x : Pool.Edit α) (f : α → Pool.Edit β) :
    pool.edit (x >>= f) =
      match pool.edit x with
      | (.ok a, pool') => pool'.edit (f a)
      | (.error e, pool') => (.error e, pool') := by
  show (ExceptT.bindCont f ((pool.edit x).1)).run (pool.edit x).2 = _
  rcases pool.edit x with ⟨_ | a, pool'⟩ <;> rfl

namespace Instruction

/-- The instruction without its place: its offset and its distances are
zero. -/
def unplaced (ins : Instruction) : Instruction :=
  { ins with operand := ins.operand.mapDistances fun _ => 0, offset := 0 }

/-- The instructions that an edit may bring in: those that are found in some
code, the loads of a constant, and what pushes a number.  A load of a constant
in its short form may have any index. -/
inductive Stageable : Instruction → Prop
  | found {code : Bytes} {offset : Nat} {ins : Instruction}
      (h : decodeAt code offset = .ok ins) : Stageable ins
  | load (index : UInt16) : Stageable (ldc index)
  | shortLoad (index : UInt16) :
      Stageable { op := .ldc, operand := (.pool8 index : Operand .pool8) }
  | push {v : Int32} {pool pool' : Pool} {ins : Instruction}
      (h : pool.edit (Pool.Edit.pushInt v) = (.ok ins, pool')) : Stageable ins

theorem lengthened_eq_of_valid {ins : Instruction} (h : ins.Valid) : ins.lengthened = ins := by
  unfold lengthened
  rw [if_neg]
  intro hlong
  obtain ⟨op, operand, wide, offset⟩ := ins
  simp only [Bool.and_eq_true, decide_eq_true_eq] at hlong
  obtain ⟨rfl, hindex⟩ := hlong
  change Operand .pool8 at operand
  cases operand with | pool8 i =>
  have hle : i ≤ 255 := h.1
  exact absurd hindex (by simpa [Operand.index, Operand.index?] using hle)

theorem valid_ldc (index : UInt16) : (ldc index).Valid := by
  unfold ldc
  split
  · exact ⟨trivial, by simp⟩
  · rename_i h
    have hle : index ≤ 255 := UInt16.not_lt.1 h
    exact ⟨hle, by simp⟩

/-- The instruction that pushes a number is valid. -/
theorem valid_of_pushInt {v : Int32} {pool pool' : Pool} {ins : Instruction}
    (h : pool.edit (Pool.Edit.pushInt v) = (.ok ins, pool')) : ins.Valid := by
  unfold Pool.Edit.pushInt at h
  split at h
  · dsimp only at h
    split at h
    all_goals
      obtain ⟨hins, -⟩ := Prod.mk.inj h
      obtain rfl := Except.ok.inj hins
      exact ⟨trivial, by simp⟩
  · split at h
    · rename_i hfits
      obtain ⟨hins, -⟩ := Prod.mk.inj h
      obtain rfl := Except.ok.inj hins
      exact ⟨hfits, by simp⟩
    · split at h
      · rename_i hfits
        obtain ⟨hins, -⟩ := Prod.mk.inj h
        obtain rfl := Except.ok.inj hins
        exact ⟨hfits, by simp⟩
      · rw [Pool.edit_bind] at h
        split at h
        · obtain ⟨hins, -⟩ := Prod.mk.inj h
          obtain rfl := Except.ok.inj hins
          exact valid_ldc _
        · cases h

/-- Every instruction that may be staged is valid in its long form. -/
theorem Stageable.valid {ins : Instruction} (h : ins.Stageable) : ins.lengthened.Valid := by
  cases h with
  | found h =>
    have hvalid := valid_of_decodeAt h
    rwa [lengthened_eq_of_valid hvalid]
  | load index =>
    rw [lengthened_eq_of_valid (valid_ldc index)]
    exact valid_ldc index
  | shortLoad index =>
    unfold lengthened
    split
    · exact ⟨trivial, by simp⟩
    · rename_i h
      have hle : index ≤ 255 := UInt16.not_lt.1 fun hlt =>
        h (by rw [Bool.and_eq_true]; exact ⟨rfl, decide_eq_true hlt⟩)
      exact ⟨hle, by simp⟩
  | push h =>
    have hvalid := valid_of_pushInt h
    rwa [lengthened_eq_of_valid hvalid]

end Instruction

/-! ## The new layout -/

/-- Instructions stand one after another from `offset` to `stop`. -/
def Consecutive : Nat → List Instruction → Nat → Prop
  | offset, [], stop => offset = stop
  | offset, ins :: rest, stop => ins.offset = offset ∧ Consecutive ins.next rest stop

theorem consecutive_append {offset stop : Nat} {a b : List Instruction} :
    Consecutive offset (a ++ b) stop ↔
      ∃ middle, Consecutive offset a middle ∧ Consecutive middle b stop := by
  induction a generalizing offset with
  | nil => simp [Consecutive]
  | cons ins a ih =>
    rw [List.cons_append, Consecutive, ih]
    simp only [Consecutive]
    constructor
    · intro h
      obtain ⟨hoffset, middle, ha, hb⟩ := h
      exact ⟨middle, ⟨hoffset, ha⟩, hb⟩
    · intro h
      obtain ⟨middle, ⟨hoffset, ha⟩, hb⟩ := h
      exact ⟨hoffset, middle, ha, hb⟩

/-- The first of some consecutive instructions stands at their start; without
any, the end is there. -/
theorem Consecutive.head {offset stop : Nat} {instructions : List Instruction}
    (h : Consecutive offset instructions stop) :
    offset = (instructions[0]?.map (·.offset)).getD stop := by
  cases instructions with
  | nil => exact h
  | cons ins rest => exact h.1.symm

theorem Consecutive.le {offset stop : Nat} {instructions : List Instruction}
    (h : Consecutive offset instructions stop) : offset ≤ stop := by
  induction instructions generalizing offset with
  | nil => exact Nat.le_of_eq h
  | cons ins rest ih =>
    have hle := ih h.2
    have hoffset := h.1
    rw [Instruction.next] at hle
    omega

/-- Every instruction stands at the start or behind it. -/
theorem Consecutive.le_offset {offset stop : Nat} {instructions : List Instruction}
    (h : Consecutive offset instructions stop) :
    ∀ ins ∈ instructions, offset ≤ ins.offset := by
  induction instructions generalizing offset with
  | nil => simp
  | cons first rest ih =>
    intro ins hins
    have hoffset := h.1
    rcases List.mem_cons.1 hins with rfl | hins
    · omega
    · have hle := ih h.2 ins hins
      rw [Instruction.next] at hle
      omega

/-- Every instruction stands in front of the end. -/
theorem Consecutive.lt {offset stop : Nat} {instructions : List Instruction}
    (h : Consecutive offset instructions stop) :
    ∀ ins ∈ instructions, ins.offset < stop := by
  induction instructions generalizing offset with
  | nil => simp
  | cons first rest ih =>
    intro ins hins
    rcases List.mem_cons.1 hins with rfl | hins
    · have hle := h.2.le
      have hpos := ins.size_pos
      rw [Instruction.next] at hle
      omega
    · exact ih h.2 ins hins

/-- An instruction in its long form, at an offset. -/
def Instruction.placedAt (ins : Instruction) (offset : Nat) : Instruction :=
  { ins.lengthened with offset }

theorem placeAll_cons (anchor offset : Nat) (ins : Instruction) (rest : List Instruction) :
    placeAll anchor offset (ins :: rest) =
      (⟨ins.placedAt offset, anchor⟩ :: (placeAll anchor (ins.placedAt offset).next rest).1,
        (placeAll anchor (ins.placedAt offset).next rest).2) := rfl

theorem layOut_cons (offset : Nat) (s : Staged) (rest : List Staged) :
    layOut offset (s :: rest) =
      let first := placeAll s.original.offset offset s.result
      let more := layOut first.2 rest
      (first.1 ++ more.1, (s.original.offset, offset) :: more.2.1, more.2.2) := rfl

theorem placeAll_consecutive (anchor offset : Nat) (instructions : List Instruction) :
    Consecutive offset ((placeAll anchor offset instructions).1.map (·.instruction))
      (placeAll anchor offset instructions).2 := by
  induction instructions generalizing offset with
  | nil => rfl
  | cons ins rest ih =>
    rw [placeAll_cons]
    exact ⟨rfl, ih _⟩

theorem layOut_consecutive (offset : Nat) (staged : List Staged) :
    Consecutive offset ((layOut offset staged).1.map (·.instruction))
      (layOut offset staged).2.2 := by
  induction staged generalizing offset with
  | nil => rfl
  | cons s rest ih =>
    rw [layOut_cons]
    simp only [List.map_append]
    exact consecutive_append.2 ⟨_, placeAll_consecutive _ _ _, ih _⟩

/-- A placed instruction is the one of the plan, in its long form. -/
def Placed.Of (planned : Nat × Instruction) (p : Placed) : Prop :=
  p.anchor = planned.1 ∧ p.instruction = planned.2.placedAt p.instruction.offset

theorem placeAll_of (anchor offset : Nat) (instructions : List Instruction) :
    List.Forall₂ Placed.Of (instructions.map fun ins => (anchor, ins))
      (placeAll anchor offset instructions).1 := by
  induction instructions generalizing offset with
  | nil => exact .nil
  | cons ins rest ih =>
    rw [placeAll_cons, List.map_cons]
    exact .cons ⟨rfl, rfl⟩ (ih _)

/-- The plan of staged instructions. -/
def Staged.plan (staged : List Staged) : List (Nat × Instruction) :=
  staged.flatMap fun s => s.result.map fun ins => (s.original.offset, ins)

theorem layOut_of (offset : Nat) (staged : List Staged) :
    List.Forall₂ Placed.Of (Staged.plan staged) (layOut offset staged).1 := by
  induction staged generalizing offset with
  | nil => exact .nil
  | cons s rest ih =>
    rw [layOut_cons, Staged.plan, List.flatMap_cons]
    exact List.rel_append (placeAll_of _ _ _) (ih _)

theorem length_placeAll (anchor offset : Nat) (instructions : List Instruction) :
    (placeAll anchor offset instructions).1.length = instructions.length := by
  have hlength := (placeAll_of anchor offset instructions).length_eq
  rw [← hlength, List.length_map]

/-- An old instruction start goes to the first instruction that is placed at
or behind it, and to the end when there is none. -/
theorem layOut_starts (offset : Nat) (staged : List Staged) {old new : Nat}
    (h : (old, new) ∈ (layOut offset staged).2.1) :
    ∃ (m : Nat) (s : Staged), staged[m]? = some s ∧ s.original.offset = old ∧
      new = (((layOut offset staged).1.map
        (·.instruction))[((staged.take m).flatMap (·.result)).length]?.map
          (·.offset)).getD (layOut offset staged).2.2 := by
  induction staged generalizing offset with
  | nil => exact absurd h (by simp [layOut])
  | cons s rest ih =>
    have hhead := (layOut_consecutive offset (s :: rest)).head
    rw [layOut_cons] at h hhead ⊢
    simp only [List.mem_cons, Prod.mk.injEq] at h
    rcases h with ⟨rfl, rfl⟩ | h
    · exact ⟨0, s, rfl, rfl, hhead⟩
    · obtain ⟨m, s', hs', hold, hnew⟩ := ih _ h
      refine ⟨m + 1, s', hs', hold, ?_⟩
      rw [List.take_succ_cons, List.flatMap_cons, List.length_append, List.map_append,
        List.getElem?_append_right (by simp [length_placeAll]), List.length_map,
        length_placeAll, Nat.add_sub_cancel_left]
      exact hnew

/-! ## Where places go -/

namespace Edit

/-- The number of instructions that are planned in front of the old
instruction number `m`. -/
def ahead (edits : List Edit) (old : List Instruction) (m : Nat) : Nat :=
  ((old.take m).flatMap (planned edits)).length

/-- The start `t` of an old instruction has become `t'`: the offset of the
first instruction that is planned at or behind it. -/
def Lands (edits : List Edit) (old new : List Instruction) (t t' : Int) : Prop :=
  ∃ m ins ins', old[m]? = some ins ∧ (ins.offset : Int) = t ∧
    new[ahead edits old m]? = some ins' ∧ (ins'.offset : Int) = t'

/-- The place `t` of the old code, an instruction start or the end, has become
`t'`.  What has nothing planned at or behind it goes to the end. -/
def Follows (edits : List Edit) (old new : List Instruction) (oldLength newLength : Nat)
    (t t' : Int) : Prop :=
  Lands edits old new t t' ∨ t' = newLength ∧
    (t = oldLength ∨ ∃ m ins, old[m]? = some ins ∧ (ins.offset : Int) = t ∧
      new.length ≤ ahead edits old m)

variable {edits : List Edit} {old new new' : List Instruction} {t t' : Int}

/-- Only the offsets of the new instructions matter. -/
theorem Lands.congr (hoffsets : new.map (·.offset) = new'.map (·.offset))
    (h : Lands edits old new t t') : Lands edits old new' t t' := by
  obtain ⟨m, ins, ins', hins, ht, hins', ht'⟩ := h
  have hget := congrArg (·[ahead edits old m]?) hoffsets
  simp only [List.getElem?_map, hins', Option.map_some] at hget
  obtain ⟨ins'', hins'', hoffset⟩ := Option.map_eq_some_iff.1 hget.symm
  exact ⟨m, ins, ins'', hins, ht, hins'', by rw [hoffset, ht']⟩

theorem Follows.congr {oldLength newLength : Nat}
    (hoffsets : new.map (·.offset) = new'.map (·.offset))
    (h : Follows edits old new oldLength newLength t t') :
    Follows edits old new' oldLength newLength t t' := by
  have hlength : new.length = new'.length := by simpa using congrArg List.length hoffsets
  rcases h with h | ⟨ht', h⟩
  · exact .inl (h.congr hoffsets)
  · rw [hlength] at h
    exact .inr ⟨ht', h⟩

end Edit

theorem Editor.newLayout_consecutive (e : Editor) :
    Consecutive 0 (e.newLayout.placed.map (·.instruction)) e.newLayout.newLength :=
  layOut_consecutive 0 e.staged

/-- The staged instructions carry out the plan of some calls. -/
def Editor.Plans (e : Editor) (edits : List Edit) (old : List Instruction) : Prop :=
  e.staged.map (fun s => (s.original, s.result)) =
    old.map fun ins => (ins, Edit.planned edits ins)

namespace Editor.Plans

variable {e : Editor} {edits : List Edit} {old : List Instruction} (h : e.Plans edits old)

include h

theorem plan_eq : Staged.plan e.staged = Edit.plan edits old := by
  have hmap := congrArg (List.flatMap fun (p : Instruction × List Instruction) =>
    p.2.map fun ins => (p.1.offset, ins)) h
  simpa [List.flatMap_map, Staged.plan, Edit.plan] using hmap

theorem ahead_eq (m : Nat) :
    ((e.staged.take m).flatMap (·.result)).length = Edit.ahead edits old m := by
  have hmap := congrArg (fun pairs : List (Instruction × List Instruction) =>
    ((pairs.take m).flatMap (·.2)).length) h
  simpa [← List.map_take, List.flatMap_map, Edit.ahead] using hmap

theorem original {m : Nat} {s : Staged} (hs : e.staged[m]? = some s) :
    old[m]? = some s.original := by
  have hget := congrArg (·[m]?) h
  simp only [List.getElem?_map, hs, Option.map_some] at hget
  obtain ⟨ins, hins, heq⟩ := Option.map_eq_some_iff.1 hget.symm
  rw [hins, (Prod.mk.inj heq).1]

/-- The new offset of a place of the old code. -/
theorem offset {t t' : Int} (ht : e.newLayout.offset t = .ok t') :
    Edit.Follows edits old (e.newLayout.placed.map (·.instruction)) e.body.bytecode.length
      e.newLayout.newLength t t' := by
  unfold NewLayout.offset at ht
  split at ht
  · rename_i hend
    exact .inr ⟨(Except.ok.inj ht).symm, .inl hend⟩
  · split at ht
    · cases ht
    · rename_i hinside
      simp only [Bool.or_eq_true, decide_eq_true_eq, not_or, not_lt] at hinside
      split at ht
      · rename_i new hlookup
        obtain rfl := Except.ok.inj ht
        obtain ⟨_, _, hsplit, -⟩ := List.lookup_eq_some_iff.1 hlookup
        have hmem : (t.toNat, new) ∈ (layOut 0 e.staged).2.1 := by
          show (t.toNat, new) ∈ e.newLayout.starts
          rw [hsplit]
          simp
        obtain ⟨m, s, hs, hold, hnew⟩ := layOut_starts 0 e.staged hmem
        rw [h.ahead_eq] at hnew
        have hinstruction := h.original hs
        have ht : (s.original.offset : Int) = t := by omega
        cases hget : ((layOut 0 e.staged).1.map (·.instruction))[Edit.ahead edits old m]? with
        | some ins' =>
          rw [hget] at hnew
          exact .inl ⟨m, s.original, ins', hinstruction, ht, hget, by rw [hnew]; rfl⟩
        | none =>
          rw [hget] at hnew
          exact .inr ⟨by rw [hnew]; rfl, .inr ⟨m, s.original, hinstruction, ht,
            List.getElem?_eq_none_iff.1 hget⟩⟩
      · cases ht

/-- The new offset of a place that execution may go to. -/
theorem target {t t' : Int} (ht : e.newLayout.target t = .ok t') :
    Edit.Lands edits old (e.newLayout.placed.map (·.instruction)) t t' := by
  unfold NewLayout.target at ht
  obtain ⟨new, hnew, ht⟩ := Except.bind_ok.1 ht
  split at ht
  · cases ht
  · rename_i hend
    obtain rfl := Except.ok.inj ht
    rcases h.offset hnew with hlands | ⟨heq, -⟩
    · exact hlands
    · exact absurd heq hend

/-- A new distance leads to where the old one leads. -/
theorem distance {anchor offset : Nat} {d d' : Int32}
    (hoffset : offset < e.newLayout.newLength) (hlength : e.newLayout.newLength < 65536)
    (hd : e.newLayout.distance anchor offset d = .ok d') :
    Edit.Lands edits old (e.newLayout.placed.map (·.instruction))
      (anchor + d.toInt) (offset + d'.toInt) := by
  unfold NewLayout.distance at hd
  obtain ⟨t', ht', hd⟩ := Except.bind_ok.1 hd
  obtain rfl := Except.pure_ok.1 hd
  have hlands := h.target ht'
  obtain ⟨m, ins, ins', -, -, hins', hoffset'⟩ := id hlands
  have hlt := e.newLayout_consecutive.lt ins' (List.mem_of_getElem? hins')
  rw [Int32.toInt_ofInt_of_le (by omega) (by omega)]
  rwa [show (offset : Int) + (t' - offset) = t' by omega]

end Editor.Plans

/-! ## The new code -/

namespace NewLayout

variable {l : NewLayout}

/-- Moving operands changes their distances and nothing else. -/
theorem operand_ok {op : Opcode} {anchor offset : Nat} {s : Shape} {o o' : Operand s}
    (h : l.operand op anchor offset o = .ok o') :
    o'.mapDistances (fun _ => 0) = o.mapDistances (fun _ => 0) ∧
      List.Forall₂ (fun d d' => l.distance anchor offset d = .ok d') o.distances o'.distances ∧
      (∀ wide, o.Valid wide → o'.Valid wide) ∧
      ∀ wide offset, o'.sizeAt wide offset = o.sizeAt wide offset := by
  cases o with
  | branch16 d =>
    obtain ⟨d', hd, h⟩ := Except.bind_ok.1 h
    split at h
    · rename_i hfits
      obtain rfl := Except.pure_ok.1 h
      exact ⟨rfl, .cons hd .nil, fun _ _ => hfits, fun _ _ => rfl⟩
    · exact (Except.throw_ok.1 h).elim
  | branch32 d =>
    obtain ⟨d', hd, h⟩ := Except.bind_ok.1 h
    obtain rfl := Except.pure_ok.1 h
    exact ⟨rfl, .cons hd .nil, fun _ hvalid => hvalid, fun _ _ => rfl⟩
  | table d low high targets =>
    obtain ⟨d', hd, h⟩ := Except.bind_ok.1 h
    obtain ⟨targets', htargets, h⟩ := Except.bind_ok.1 h
    obtain rfl := Except.pure_ok.1 h
    rw [Except.mapM_ok] at htargets
    have hlength := htargets.length_eq
    refine ⟨?_, .cons hd htargets, ?_, ?_⟩
    · simp only [Operand.mapDistances, List.map_const', hlength]
    · intro wide hvalid
      simpa only [Operand.Valid, hlength] using hvalid
    · intro wide offset
      simp only [Operand.sizeAt, hlength]
  | lookup d keys targets =>
    obtain ⟨d', hd, h⟩ := Except.bind_ok.1 h
    obtain ⟨targets', htargets, h⟩ := Except.bind_ok.1 h
    obtain rfl := Except.pure_ok.1 h
    rw [Except.mapM_ok] at htargets
    have hlength := htargets.length_eq
    refine ⟨?_, .cons hd htargets, ?_, ?_⟩
    · simp only [Operand.mapDistances, List.map_const', hlength]
    · intro wide hvalid
      simpa only [Operand.Valid, hlength] using hvalid
    · intro wide offset
      simp only [Operand.sizeAt, hlength]
  | _ =>
    obtain rfl := Except.pure_ok.1 h
    exact ⟨rfl, .nil, fun _ hvalid => hvalid, fun _ _ => rfl⟩

/-- The instruction that a placed one becomes when its distances are moved. -/
def Settles (l : NewLayout) (p : Placed) (ins : Instruction) : Prop :=
  ∃ operand, l.operand p.instruction.op p.anchor p.instruction.offset p.instruction.operand =
    .ok operand ∧ ins = { p.instruction with operand }

theorem Settles.offset {p : Placed} {ins : Instruction} (h : l.Settles p ins) :
    ins.offset = p.instruction.offset := by
  obtain ⟨operand, -, rfl⟩ := h
  rfl

theorem Settles.size {p : Placed} {ins : Instruction} (h : l.Settles p ins) :
    ins.size = p.instruction.size := by
  obtain ⟨operand, hoperand, rfl⟩ := h
  exact (operand_ok hoperand).2.2.2 _ _

theorem Settles.valid {p : Placed} {ins : Instruction} (h : l.Settles p ins)
    (hvalid : p.instruction.Valid) : ins.Valid := by
  obtain ⟨operand, hoperand, rfl⟩ := h
  exact ⟨(operand_ok hoperand).2.2.1 _ hvalid.1, hvalid.2⟩

theorem Settles.unplaced {p : Placed} {ins : Instruction} (h : l.Settles p ins) :
    ins.unplaced = p.instruction.unplaced := by
  obtain ⟨operand, hoperand, rfl⟩ := h
  unfold Instruction.unplaced
  rw [(operand_ok hoperand).1]

theorem Settles.distances {p : Placed} {ins : Instruction} (h : l.Settles p ins) :
    List.Forall₂ (fun d d' => l.distance p.anchor p.instruction.offset d = .ok d')
      p.instruction.operand.distances ins.operand.distances := by
  obtain ⟨operand, hoperand, rfl⟩ := h
  exact (operand_ok hoperand).2.1

/-- What is written for a placed instruction spells what it becomes. -/
theorem encode_ok {p : Placed} {bytes : Bytes} (h : l.encode p = .ok bytes) :
    ∃ ins, l.Settles p ins ∧ ins.Spelled bytes := by
  unfold encode at h
  obtain ⟨operand, hoperand, h⟩ := Except.bind_ok.1 h
  refine ⟨{ p.instruction with operand }, ⟨operand, hoperand, rfl⟩, ?_⟩
  split at h
  · rename_i bytes' hencode
    obtain rfl := Except.pure_ok.1 h
    exact Instruction.spelled_of_encodeAt hencode
  · exact (Except.throw_ok.1 h).elim

/-- The bytes of placed instructions make up a region of what they become. -/
theorem tiles_of_encode {placed : List Placed} {parts : List Bytes} {offset stop : Nat}
    (hplaced : Consecutive offset (placed.map (·.instruction)) stop)
    (hvalid : ∀ p ∈ placed, p.instruction.Valid)
    (h : List.Forall₂ (fun p bytes => l.encode p = .ok bytes) placed parts) :
    ∃ new, Instruction.Tiles offset new parts.flatten ∧ List.Forall₂ l.Settles placed new ∧
      stop = offset + parts.flatten.length := by
  induction h generalizing offset with
  | nil =>
    exact ⟨[], rfl, .nil, hplaced.symm⟩
  | @cons p bytes placed parts hp hrest ih =>
    obtain ⟨ins, hsettles, hspelled⟩ := encode_ok hp
    obtain ⟨hoffset, hplaced⟩ := hplaced
    have hinsValid := hsettles.valid (hvalid p List.mem_cons_self)
    have hnext : p.instruction.next = ins.next := by
      rw [Instruction.next, Instruction.next, hsettles.offset, hsettles.size]
    have hinsOffset : ins.offset = offset := by rw [hsettles.offset, hoffset]
    rw [hnext] at hplaced
    obtain ⟨new, htiles, hnew, hstop⟩ :=
      ih hplaced fun q hq => hvalid q (List.mem_cons_of_mem p hq)
    refine ⟨ins :: new, ⟨hinsValid, hinsOffset, bytes, parts.flatten, hspelled, rfl, htiles⟩,
      .cons hsettles hnew, ?_⟩
    rw [hstop, List.flatten_cons, List.length_append, Instruction.next, hinsOffset,
      hspelled.length hinsValid, Nat.add_assoc]

end NewLayout

/-! ## The exception table -/

/-- An exception table follows the edits row by row: a row whose range has
become empty is dropped, and no other. -/
inductive Edit.Rows (edits : List Edit) (old new : List Instruction)
    (oldLength newLength : Nat) : List Handler → List Handler → Prop
  | nil : Rows edits old new oldLength newLength [] []
  | keep {h h' : Handler} {rows rows' : List Handler}
      (hstart : Follows edits old new oldLength newLength h.start.toNat h'.start.toNat)
      (hstop : Follows edits old new oldLength newLength h.stop.toNat h'.stop.toNat)
      (htarget : Lands edits old new h.target.toNat h'.target.toNat)
      (hcatch : h'.catchType = h.catchType) (hrange : h'.start < h'.stop)
      (hrows : Rows edits old new oldLength newLength rows rows') :
      Rows edits old new oldLength newLength (h :: rows) (h' :: rows')
  | drop {h : Handler} {start stop target : Int} {rows rows' : List Handler}
      (hstart : Follows edits old new oldLength newLength h.start.toNat start)
      (hstop : Follows edits old new oldLength newLength h.stop.toNat stop)
      (htarget : Lands edits old new h.target.toNat target) (hrange : stop ≤ start)
      (hrows : Rows edits old new oldLength newLength rows rows') :
      Rows edits old new oldLength newLength (h :: rows) rows'

namespace Edit

variable {edits : List Edit} {old new : List Instruction} {t t' : Int}

theorem Lands.bounds {stop : Nat} (hnew : Consecutive 0 new stop)
    (h : Lands edits old new t t') : 0 ≤ t' ∧ t' < stop := by
  obtain ⟨m, ins, ins', -, -, hins', rfl⟩ := h
  have hlt := hnew.lt ins' (List.mem_of_getElem? hins')
  omega

theorem Follows.bounds {oldLength stop : Nat} (hnew : Consecutive 0 new stop)
    (h : Follows edits old new oldLength stop t t') : 0 ≤ t' ∧ t' ≤ stop := by
  rcases h with h | ⟨rfl, -⟩
  · have hbounds := h.bounds hnew
    omega
  · omega

end Edit

theorem toNat_ofInt_u16 {n : Int} (hn : 0 ≤ n) (hlt : n < 65536) :
    ((UInt16.ofInt n).toNat : Int) = n := by
  rw [UInt16.ofInt, UInt16.toNat_ofNat']
  omega

/-- The new exception table. -/
theorem Editor.Plans.handlers {e : Editor} {edits : List Edit} {old : List Instruction}
    (h : e.Plans edits old) (hlength : e.newLayout.newLength < 65536) :
    ∀ (rows : List Handler) (next : Nat) (rows' : List Handler) (indices : List (Option Nat)),
      e.newLayout.handlers next rows = .ok (rows', indices) →
      Edit.Rows edits old (e.newLayout.placed.map (·.instruction)) e.body.bytecode.length
        e.newLayout.newLength rows rows' := by
  intro rows
  induction rows with
  | nil =>
    intro next rows' indices hrows
    obtain ⟨rfl, -⟩ := Prod.mk.inj (Except.ok.inj hrows)
    exact .nil
  | cons row rows ih =>
    intro next rows' indices hrows
    unfold NewLayout.handlers at hrows
    obtain ⟨start, hstart, hrows⟩ := Except.bind_ok.1 hrows
    obtain ⟨stop, hstop, hrows⟩ := Except.bind_ok.1 hrows
    obtain ⟨target, htarget, hrows⟩ := Except.bind_ok.1 hrows
    have hstart := h.offset hstart
    have hstop := h.offset hstop
    have htarget := h.target htarget
    split at hrows
    · rename_i hrange
      obtain ⟨⟨more, _⟩, hmore, hrows⟩ := Except.bind_ok.1 hrows
      obtain ⟨rfl, -⟩ := Prod.mk.inj (Except.pure_ok.1 hrows)
      exact .drop hstart hstop htarget hrange (ih _ _ _ hmore)
    · rename_i hrange
      obtain ⟨⟨more, _⟩, hmore, hrows⟩ := Except.bind_ok.1 hrows
      obtain ⟨rfl, -⟩ := Prod.mk.inj (Except.pure_ok.1 hrows)
      have hstart' := hstart.bounds e.newLayout_consecutive
      have hstop' := hstop.bounds e.newLayout_consecutive
      have htarget' := htarget.bounds e.newLayout_consecutive
      have hs := toNat_ofInt_u16 hstart'.1 (by omega)
      have hp := toNat_ofInt_u16 hstop'.1 (by omega)
      have ht := toNat_ofInt_u16 htarget'.1 (by omega)
      refine .keep ?_ ?_ ?_ rfl ?_ (ih _ _ _ hmore)
      · rwa [hs]
      · rwa [hp]
      · rwa [ht]
      · rw [UInt16.lt_iff_toNat_lt]
        show (UInt16.ofInt start).toNat < (UInt16.ofInt stop).toNat
        omega

/-! ## The new body -/

namespace Editor

/-- The steps of laying out a body. -/
theorem edited_ok {e : Editor} {pool : Pool} {body : MethodBody}
    (h : e.edited pool = .ok body) :
    (0 < e.newLayout.newLength ∧ e.newLayout.newLength < 65536) ∧
      ∃ parts handlers indices attributes,
        List.Forall₂ (fun p bytes => e.newLayout.encode p = .ok bytes) e.newLayout.placed parts ∧
        e.newLayout.handlers 0 e.body.handlers = .ok (handlers, indices) ∧
        (∃ relocation, List.Forall₂ (fun a a' => Relocation.attribute_ relocation pool a = .ok a')
          e.body.attributes attributes) ∧
        body = { e.body with bytecode := parts.flatten, handlers, attributes } := by
  unfold edited at h
  simp only at h
  split at h
  · simp only [Except.bind_ok, Except.throw_ok, false_and, exists_false] at h
  · rename_i hlength
    simp only [Bool.or_eq_true, decide_eq_true_eq, not_or, not_le] at hlength
    obtain ⟨parts, hparts, h⟩ := Except.bind_ok.1 h
    obtain ⟨⟨handlers, indices⟩, hhandlers, h⟩ := Except.bind_ok.1 h
    simp only at h
    split at h
    · rename_i attributes hattributes
      obtain rfl := Except.pure_ok.1 h
      exact ⟨⟨Nat.pos_of_ne_zero hlength.1, hlength.2⟩, parts, handlers, indices, attributes,
        Except.mapM_ok.1 hparts, hhandlers, ⟨_, Except.mapM_ok.1 hattributes⟩, rfl⟩
    · exact (Except.throw_ok.1 h).elim

end Editor

/-- The body `body'` carries out some edits of `body`, whose instructions are
`old`, and `new` are its instructions.

The new instructions are those of the plan, with a load of a constant in its
long form where the index asks for it.  Every jump leads to where the old one
leads, and so does every row of the exception table. -/
structure Edit.Rewritten (edits : List Edit) (old : List Instruction) (body : MethodBody)
    (new : List Instruction) (body' : MethodBody) : Prop where
  decoded : Instruction.decodeAll body'.bytecode = .ok new
  instructions : new.map Instruction.unplaced =
    (plan edits old).map fun planned => planned.2.lengthened.unplaced
  jumps : List.Forall₂ (fun planned ins =>
      List.Forall₂ (fun d d' =>
          Lands edits old new (planned.1 + Int32.toInt d) (ins.offset + Int32.toInt d'))
        planned.2.operand.distances ins.operand.distances)
    (plan edits old) new
  inside : ∀ ins ∈ new, ins.offset < body'.bytecode.length
  handlers : Rows edits old new body.bytecode.length body'.bytecode.length
    body.handlers body'.handlers
  maxStack : body'.maxStack = body.maxStack
  maxLocals : body'.maxLocals = body.maxLocals

theorem Instruction.Tiles.valid {offset : Nat} {instructions : List Instruction}
    {code : Bytes} (h : Tiles offset instructions code) : ∀ ins ∈ instructions, ins.Valid := by
  induction instructions generalizing offset code with
  | nil => simp
  | cons ins rest ih =>
    obtain ⟨hvalid, -, _, more, -, -, hrest⟩ := h
    rw [List.forall_mem_cons]
    exact ⟨hvalid, ih hrest⟩

theorem Instruction.Tiles.consecutive {offset : Nat} {instructions : List Instruction}
    {code : Bytes} (h : Tiles offset instructions code) :
    Consecutive offset instructions (offset + code.length) := by
  induction instructions generalizing offset code with
  | nil =>
    obtain rfl : code = [] := h
    rfl
  | cons ins rest ih =>
    obtain ⟨hvalid, rfl, bytes, more, hspelled, rfl, hrest⟩ := h
    have hnext : ins.offset + (bytes ++ more).length = ins.next + more.length := by
      rw [List.length_append, hspelled.length hvalid, next, Nat.add_assoc]
    rw [hnext]
    exact ⟨rfl, ih hrest⟩

theorem Edit.Rows.congr {edits : List Edit} {old new new' : List Instruction}
    {oldLength newLength : Nat} {rows rows' : List Handler}
    (hoffsets : new.map (·.offset) = new'.map (·.offset))
    (h : Rows edits old new oldLength newLength rows rows') :
    Rows edits old new' oldLength newLength rows rows' := by
  induction h with
  | nil => exact .nil
  | keep hstart hstop htarget hcatch hrange _ ih =>
    exact .keep (hstart.congr hoffsets) (hstop.congr hoffsets) (htarget.congr hoffsets) hcatch
      hrange ih
  | drop hstart hstop htarget hrange _ ih =>
    exact .drop (hstart.congr hoffsets) (hstop.congr hoffsets) (htarget.congr hoffsets) hrange ih

theorem Instruction.lengthened_distances (ins : Instruction) :
    ins.lengthened.operand.distances = ins.operand.distances := by
  by_cases hlong : (decide (ins.op = .ldc) && decide (255 < ins.operand.index)) = true
  · rw [lengthened, if_pos hlong]
    obtain ⟨op, operand, wide, offset⟩ := ins
    simp only [Bool.and_eq_true, decide_eq_true_eq] at hlong
    obtain ⟨rfl, -⟩ := hlong
    change Operand .pool8 at operand
    cases operand with | pool8 i =>
    rfl
  · rw [lengthened, if_neg hlong]

theorem Instruction.placedAt_unplaced (ins : Instruction) (offset : Nat) :
    (ins.placedAt offset).unplaced = ins.lengthened.unplaced := rfl

section Pairing

variable {α β γ : Type} {R : α → β → Prop} {a : List α} {b : List β}

private theorem forall_mem_right {P : α → Prop} {Q : β → Prop} (h : List.Forall₂ R a b)
    (hstep : ∀ x y, R x y → P x → Q y) (hP : ∀ x ∈ a, P x) : ∀ y ∈ b, Q y := by
  induction h with
  | nil => simp
  | cons hxy _ ih =>
    rw [List.forall_mem_cons] at hP ⊢
    exact ⟨hstep _ _ hxy hP.1, ih hP.2⟩

theorem map_eq_map {f : α → γ} {g : β → γ} (h : List.Forall₂ R a b)
    (hstep : ∀ x y, R x y → f x = g y) : a.map f = b.map g := by
  induction h with
  | nil => rfl
  | cons hxy _ ih => rw [List.map_cons, List.map_cons, hstep _ _ hxy, ih]

theorem forall₂_comp {S : β → γ → Prop} {T : α → γ → Prop} {c : List γ}
    (h : List.Forall₂ R a b) (h' : List.Forall₂ S b c)
    (hstep : ∀ x y z, R x y → S y z → T x z) : List.Forall₂ T a c := by
  induction h generalizing c with
  | nil =>
    cases h'
    exact .nil
  | cons hxy _ ih =>
    cases h' with | cons hyz hrest =>
    exact .cons (hstep _ _ _ hxy hyz) (ih hrest)

end Pairing

namespace Editor

/-- Laying out a plan of valid instructions rewrites the body. -/
theorem Plans.rewritten {e : Editor} {edits : List Edit} {old : List Instruction} {pool : Pool}
    {body' : MethodBody} (h : e.Plans edits old)
    (hvalid : ∀ planned ∈ Edit.plan edits old, planned.2.lengthened.Valid)
    (hedited : e.edited pool = .ok body') :
    ∃ new, Edit.Rewritten edits old e.body new body' := by
  obtain ⟨⟨-, hlength⟩, parts, handlers, indices, attributes, hparts, hhandlers, -, rfl⟩ :=
    edited_ok hedited
  have hof : List.Forall₂ Placed.Of (Edit.plan edits old) e.newLayout.placed := by
    rw [← h.plan_eq]
    exact layOut_of 0 e.staged
  have hplacedValid : ∀ p ∈ e.newLayout.placed, p.instruction.Valid := by
    refine forall_mem_right hof ?_ hvalid
    intro planned p hp hplanned
    rw [hp.2]
    exact hplanned
  obtain ⟨new, htiles, hsettles, hstop⟩ :=
    NewLayout.tiles_of_encode e.newLayout_consecutive hplacedValid hparts
  have hoffsets : (e.newLayout.placed.map (·.instruction)).map (·.offset) =
      new.map (·.offset) := by
    rw [List.map_map]
    exact map_eq_map hsettles fun p ins hp => hp.offset.symm
  have hinside : ∀ p ∈ e.newLayout.placed, p.instruction.offset < e.newLayout.newLength :=
    fun p hp => e.newLayout_consecutive.lt _ (List.mem_map_of_mem hp)
  rw [Nat.zero_add] at hstop
  refine ⟨new, Instruction.decodeAll_ok.2 htiles, ?_, ?_, ?_, ?_, rfl, rfl⟩
  · calc new.map Instruction.unplaced
        = e.newLayout.placed.map (·.instruction.unplaced) :=
          (map_eq_map hsettles fun p ins hp => hp.unplaced.symm).symm
      _ = (Edit.plan edits old).map fun planned => planned.2.lengthened.unplaced := by
          refine (map_eq_map hof ?_).symm
          intro planned p hp
          rw [hp.2, Instruction.placedAt_unplaced]
  · refine forall₂_comp hof ((List.forall₂_and_left _ _).2 ⟨hinside, hsettles⟩) ?_
    intro planned p ins hp hins
    obtain ⟨hlt, hsettles⟩ := hins
    have hdistances : p.instruction.operand.distances = planned.2.operand.distances := by
      rw [hp.2]
      exact planned.2.lengthened_distances
    rw [← hdistances]
    refine hsettles.distances.imp ?_
    intro d d' hd
    rw [← hp.1, hsettles.offset]
    exact (h.distance hlt hlength hd).congr hoffsets
  · intro ins hins
    have hlt := htiles.consecutive.lt ins hins
    rwa [Nat.zero_add] at hlt
  · have hrows := (h.handlers hlength _ _ _ _ hhandlers).congr hoffsets
    rwa [hstop] at hrows

private theorem mem_survivor {edits : List Edit} {at_ : Int} {kept : Option Instruction}
    {new : Instruction} (h : Edit.survivor edits at_ kept = some new) :
    kept = some new ∨ ∃ edit ∈ edits, new ∈ edit.instructions := by
  induction edits generalizing kept with
  | nil => exact .inl h
  | cons edit edits ih =>
    unfold Edit.survivor at h
    rw [List.foldl_cons] at h
    rcases ih h with hkept | ⟨edit', hedit', hnew⟩
    · cases edit with
      | replace o ins =>
        simp only at hkept
        split at hkept
        · exact .inr ⟨_, List.mem_cons_self, by simp [Edit.instructions, Option.some.inj hkept]⟩
        · exact .inl hkept
      | delete o =>
        simp only at hkept
        split at hkept
        · cases hkept
        · exact .inl hkept
      | insert o instructions => exact .inl hkept
    · exact .inr ⟨edit', List.mem_cons_of_mem edit hedit', hnew⟩

/-- What takes the place of an old instruction was there or is brought in by
an edit. -/
theorem mem_planned {edits : List Edit} {ins new : Instruction}
    (h : new ∈ Edit.planned edits ins) :
    new = ins ∨ ∃ edit ∈ edits, new ∈ edit.instructions := by
  rcases List.mem_append.1 h with h | h
  · obtain ⟨edit, hedit, hnew⟩ := List.mem_flatMap.1 h
    cases edit with
    | insert o instructions =>
      simp only at hnew
      split at hnew
      · exact .inr ⟨_, hedit, hnew⟩
      · exact absurd hnew (by simp)
    | _ => exact absurd hnew (by simp)
  · rw [Option.mem_toList] at h
    rcases mem_survivor h with hsame | hstaged
    · exact .inl (Option.some.inj hsame).symm
    · exact .inr hstaged

/-- Every instruction of a plan is valid in its long form, when those that the
edits bring in may be staged. -/
theorem valid_of_mem_plan {edits : List Edit} {old : List Instruction} {code : Bytes}
    (hold : Instruction.decodeAll code = .ok old)
    (hedits : ∀ edit ∈ edits, ∀ ins ∈ edit.instructions, ins.Stageable) :
    ∀ planned ∈ Edit.plan edits old, planned.2.lengthened.Valid := by
  intro planned hplanned
  obtain ⟨ins, hins, hplanned⟩ := List.mem_flatMap.1 hplanned
  obtain ⟨new, hnew, rfl⟩ := List.mem_map.1 hplanned
  rcases mem_planned hnew with rfl | ⟨edit, hedit, hstaged⟩
  · have hvalid := (Instruction.decodeAll_ok.1 hold).valid new hins
    rwa [Instruction.lengthened_eq_of_valid hvalid]
  · exact (hedits edit hedit new hstaged).valid

theorem instructions_mk (body : MethodBody) (old : List Instruction) :
    instructions ⟨body, old.map fun ins => { original := ins }⟩ = old := by
  simp [instructions, Function.comp_def]

/-- A commit carries out the edits that were staged.  When no call was made at
the start of an instruction there are none, and the editor stays as it is. -/
theorem commit_rewrites {body : MethodBody} {e e' : Editor} {edits : List Edit} {pool : Pool}
    (hnew : Editor.new body = .ok e)
    (hedits : ∀ edit ∈ edits, ∀ ins ∈ edit.instructions, ins.Stageable)
    (hcommit : (e.attemptAll edits).commit pool = .ok e') :
    Editor.new e'.body = .ok e' ∧
      ((∀ edit ∈ edits, ∀ ins ∈ e.instructions, (ins.offset : Int) ≠ edit.offset) ∧ e' = e ∨
        Edit.Rewritten edits e.instructions body e'.instructions e'.body) := by
  obtain ⟨old, hold, rfl⟩ := new_ok.1 hnew
  rw [instructions_mk]
  have hmodified := @attemptAll_isModified old body edits
  unfold commit at hcommit
  split at hcommit
  · rename_i hunmodified
    have hnone : ∀ edit ∈ edits, ∀ ins ∈ old, (ins.offset : Int) ≠ edit.offset := by
      intro edit hedit ins hins hoffset
      have := hmodified.2 ⟨edit, hedit, ins, hins, hoffset⟩
      simp [this] at hunmodified
    obtain rfl := Except.pure_ok.1 hcommit
    rw [attemptAll_unstaged hnone]
    exact ⟨hnew, .inl ⟨hnone, rfl⟩⟩
  · obtain ⟨body', hedited, hcommit⟩ := Except.bind_ok.1 hcommit
    have hplans : Plans (attemptAll ⟨body, old.map fun ins => { original := ins }⟩ edits)
        edits old := attemptAll_result edits
    obtain ⟨new, hrewritten⟩ := hplans.rewritten (valid_of_mem_plan hold hedits) hedited
    obtain rfl := Except.pure_ok.1 hcommit
    simp only [hrewritten.decoded, Except.toOption, Option.getD_some]
    rw [instructions_mk]
    refine ⟨new_ok.2 ⟨new, hrewritten.decoded, rfl⟩, .inr ?_⟩
    rwa [attemptAll_eq] at hrewritten

/-- A jump over an instruction to the last one, which an exception handler
covers up to. -/
private def jumping : MethodBody :=
  ⟨0, 0, [0xa7, 0, 4, 0, 0xb1], [⟨0, 3, 4, 0⟩], []⟩

/-- A load of a constant with an index that needs its long form. -/
private def longLoad : Instruction :=
  { op := .ldc, operand := (.pool8 300 : Operand .pool8) }

/-- The jump leads to what is inserted in front of the instruction it led to. -/
theorem commit_rewrites_jumping :
    ∃ e e', Editor.new jumping = .ok e ∧
      (e.attemptAll [.insert 4 [longLoad], .delete 3, .delete 1]).commit Pool.empty = .ok e' ∧
      Edit.Rewritten [.insert 4 [longLoad], .delete 3, .delete 1] e.instructions jumping
        e'.instructions e'.body := by
  have hrun : ((Editor.new jumping).toOption.map fun e =>
      (((e.attemptAll [.insert 4 [longLoad], .delete 3, .delete 1]).commit
        Pool.empty).toOption.isSome, e.instructions.any fun ins => ins.offset = 3)) =
      some (true, true) := by
    decide +kernel
  cases hnew : Editor.new jumping with
  | error err => simp [hnew, Except.toOption] at hrun
  | ok e =>
    cases hcommit : (e.attemptAll [.insert 4 [longLoad], .delete 3, .delete 1]).commit
        Pool.empty with
    | error err => simp [hnew, hcommit, Except.toOption] at hrun
    | ok e' =>
      simp only [hnew, hcommit, Except.toOption, Option.map_some, Option.isSome_some,
        Option.some.injEq, Prod.mk.injEq, true_and, List.any_eq_true, decide_eq_true_eq] at hrun
      obtain ⟨ins, hins, hoffset⟩ := hrun
      have hedits : ∀ edit ∈ [Edit.insert 4 [longLoad], .delete 3, .delete 1],
          ∀ ins ∈ edit.instructions, ins.Stageable := by
        simp [Edit.instructions, longLoad, Instruction.Stageable.shortLoad]
      obtain ⟨-, hunstaged | hrewritten⟩ := commit_rewrites hnew hedits hcommit
      · exact absurd (by simp [hoffset, Edit.offset])
          (hunstaged.1 (.delete 3) (by simp) ins hins)
      · exact ⟨e, e', rfl, hcommit, hrewritten⟩

/-- Without an edit nothing is checked: a jump out of the code stays. -/
theorem commit_unstaged_keeps_jump_out :
    ∃ e, Editor.new ⟨0, 0, [0xa7, 0, 100], [], []⟩ = .ok e ∧
      (e.attemptAll []).commit Pool.empty = .ok e ∧
      ∃ ins ∈ e.instructions, ∃ t ∈ ins.targets, ∀ other ∈ e.instructions,
        (other.offset : Int) ≠ t := by
  refine ⟨⟨⟨0, 0, [0xa7, 0, 100], [], []⟩,
    [{ original := { op := .goto, operand := (.branch16 100 : Operand .branch16) } }]⟩, ?_, ?_, ?_⟩
  · rfl
  · rfl
  · decide

end Editor

end Cleartext
