import Cleartext.Proofs.Class.Minimal
import Cleartext.Proofs.Class.Rereading
import Cleartext.Proofs.Class.Session

/-!
# Shrinking in place

`ClassFile.shrink` answers with a new class.  The program of this file works in place:
it sweeps over the class twice and writes the answer for each reference over it at once,
and between the sweeps it moves the references of the kept entries where they stand, so
that the second sweep looks names up in a pool of which one half is new.

A sweep does what the change of the references does (`Swept.Performs`), and one that
answers every reference with itself leaves everything as it was, however far it comes
(`Swept.Leaves`).  So the first sweep changes nothing, and once the live entries are
known and compacted the second one cannot fail
(`ClassFile.shrinkInPlace_eq`).
-/

namespace Cleartext

open Layout (Change)

variable {σ α β : Type}

/-- What a sweep over a part of a class leaves of the part: with the state it ends in, or
with the failure that ended it. -/
abbrev Swept (σ α : Type) := EStateM.Result Error α σ

namespace Swept

/-- Sweeps over the next part.  When the first one failed it is put back as it is. -/
def andThen (first : Swept σ α) (put : α → β) (next : σ → α → Swept σ β) : Swept σ β :=
  match first with
  | .ok s a => next s a
  | .error e a => .error e (put a)

/-- Puts a part back. -/
def into (part : Swept σ α) (put : α → β) : Swept σ β :=
  part.andThen put fun s a => .ok s (put a)

/-- Writes an answer over what stood there, `old`. -/
def write (answer : Change σ α) (s : σ) (old : β) (put : α → β) : Swept σ β :=
  match answer.run s with
  | .ok (x, s) => .ok s (put x)
  | .error e => .error e old

end Swept

/-! ## Sweeps -/

section

variable (f : UInt16 → Change σ UInt16)

/-- Sweeps over an index that may be zero. -/
def sweepIndex (s : σ) (i : UInt16) : Swept σ UInt16 :=
  if i = 0 then .ok s i else Swept.write (f i) s i id

/-- Sweeps over the references at the sites of a body. -/
def sweepSites (name : String) : List Layout.Site → σ → Bytes → Swept σ Bytes
  | [], s, info => .ok s info
  | site :: rest, s, info =>
    if site.kind = .reference then
      let answer := (f (info.u16At site.position)).explain fun e =>
        if site.nested then e else .within (.attribute name) e
      (Swept.write answer s info fun x =>
        info.overwrite site.position (Bytes.ofU16 x)).andThen id (sweepSites name rest)
    else sweepSites name rest s info

/-- Sweeps over the body of an attribute.  A visit reads ahead of what is written, so
the sites can be listed first. -/
def sweepInfo (pool : Pool) (name : String) (s : σ) (info : Bytes) : Swept σ Bytes :=
  let survey := Layout.visit pool name info
  (sweepSites f name survey.sites s info).andThen id fun s info =>
    match survey.failure with
    | none => .ok s info
    | some e => .error e info

/-- Changes the pool operand `i` of an instruction. -/
def changeOperand (ins : Instruction) (i : UInt16) : Change σ UInt16 := do
  let x ← (f i).explain fun e => .within (.instruction ins.op ins.offset) e
  if ins.op.shape = .pool8 then
    if 255 < x then throw (.operandRange (.poolIndexAt x ins.offset))
  return x

/-- Sweeps over the operands of instructions, where they stand in the code. -/
def sweepOperands : List Instruction → σ → Bytes → Swept σ Bytes
  | [], s, code => .ok s code
  | ins :: rest, s, code =>
    match ins.operand.index? with
    | none => sweepOperands rest s code
    | some i =>
      (Swept.write (changeOperand f ins i) s code fun x =>
        code.overwrite (ins.offset + 1) (ins.indexBytes x)).andThen id (sweepOperands rest)

/-- Sweeps over code. -/
def sweepCode (s : σ) (code : Bytes) : Swept σ Bytes :=
  match Instruction.decodeAll code with
  | .error e => .error e code
  | .ok instructions => sweepOperands f instructions s code

/-- Sweeps over a row of an exception table. -/
def sweepHandler (s : σ) (h : Handler) : Swept σ Handler :=
  (sweepIndex f s h.catchType).into fun catchType => { h with catchType }

/-- Sweeps over one item after another. -/
def sweepEach (sweep : σ → α → Swept σ α) : σ → List α → Swept σ (List α)
  | s, [] => .ok s []
  | s, a :: rest =>
    (sweep s a).andThen (· :: rest) fun s a => (sweepEach sweep s rest).into (a :: ·)

mutual

/-- Sweeps over an attribute. -/
def Attribute.sweep (pool : Pool) : σ → Attribute → Swept σ Attribute
  | s, .raw i name info =>
    (sweepIndex f s i).andThen (fun i => .raw i name info) fun s i =>
    (sweepInfo f pool name s info).into fun info => .raw i name info
  | s, .code i name ⟨maxStack, maxLocals, bytecode, handlers, attributes⟩ =>
    (sweepIndex f s i).andThen
      (fun i => .code i name ⟨maxStack, maxLocals, bytecode, handlers, attributes⟩) fun s i =>
    (sweepCode f s bytecode).andThen
      (fun bytecode => .code i name ⟨maxStack, maxLocals, bytecode, handlers, attributes⟩)
      fun s bytecode =>
    (sweepEach (sweepHandler f) s handlers).andThen
      (fun handlers => .code i name ⟨maxStack, maxLocals, bytecode, handlers, attributes⟩)
      fun s handlers =>
    (Attribute.sweepAll pool s attributes).into
      fun attributes => .code i name ⟨maxStack, maxLocals, bytecode, handlers, attributes⟩

/-- Sweeps over one attribute after another. -/
def Attribute.sweepAll (pool : Pool) : σ → List Attribute → Swept σ (List Attribute)
  | s, [] => .ok s []
  | s, a :: rest =>
    (Attribute.sweep pool s a).andThen (· :: rest) fun s a =>
      (Attribute.sweepAll pool s rest).into (a :: ·)

end

/-- Sweeps over a member. -/
def Member.sweep (pool : Pool) (s : σ) (m : Member) : Swept σ Member :=
  (sweepIndex f s m.nameIndex).andThen (fun nameIndex => { m with nameIndex }) fun s nameIndex =>
  (sweepIndex f s m.descriptorIndex).andThen
    (fun descriptorIndex => { m with nameIndex, descriptorIndex }) fun s descriptorIndex =>
  (Attribute.sweepAll f pool s m.attributes).into
    fun attributes => { m with nameIndex, descriptorIndex, attributes }

/-- Sweeps over a class. -/
def ClassFile.sweep (s : σ) : EStateM Error ClassFile σ := fun cf =>
  (sweepIndex f s cf.thisClass).andThen (fun thisClass => { cf with thisClass }) fun s thisClass =>
  (sweepIndex f s cf.superClass).andThen (fun superClass => { cf with thisClass, superClass })
    fun s superClass =>
  (sweepEach (sweepIndex f) s cf.interfaces).andThen
    (fun interfaces => { cf with thisClass, superClass, interfaces }) fun s interfaces =>
  (sweepEach (Member.sweep f cf.pool) s cf.fields).andThen
    (fun fields => { cf with thisClass, superClass, interfaces, fields }) fun s fields =>
  (sweepEach (Member.sweep f cf.pool) s cf.methods).andThen
    (fun methods => { cf with thisClass, superClass, interfaces, fields, methods }) fun s methods =>
  (Attribute.sweepAll f cf.pool s cf.attributes).into fun attributes =>
    { cf with thisClass, superClass, interfaces, fields, methods, attributes }

end

/-- Whether the entry at a live index is kept: it is the first that is moved where it
is. -/
def Compaction.isKept (plan : Compaction) (live : Array Bool) (i : Nat) : Bool :=
  live.getD i false && !(List.range i).any fun j =>
    live.getD j false && plan.move j.toUInt16 = plan.move i.toUInt16

/-- The old pool, in which the references of the kept entries are moved. -/
def Pool.moveKept (p : Pool) (live : Array Bool) (plan : Compaction) : Pool :=
  { p with slots := p.slots.mapIdx fun i slot =>
      if plan.isKept live i then slot.map (·.mapReferences plan.move) else slot }

/-- Shrinks a class in place. -/
def ClassFile.shrinkInPlace : EStateM Error ClassFile Unit := do
  let p := (← get).pool
  let live ← ClassFile.sweep p.mark (Array.replicate p.count false)
  let plan ← ofExcept (p.compact live)
  modify fun cf => { cf with pool := cf.pool.moveKept live plan }
  ClassFile.sweep (fun i => return plan.move i) ()
  modify fun cf => { cf with pool := plan.pool }

/-! ## Sweeps and changes -/

namespace Swept

/-- A sweep does what a change does: it leaves the answer of the change, and fails as
the change fails. -/
def Performs (swept : Swept σ α) (x : Except Error (α × σ)) : Prop :=
  match x with
  | .ok (a, s) => swept = .ok s a
  | .error e => ∃ a, swept = .error e a

/-- A sweep leaves the part as it was, whether it fails or not. -/
def Leaves (swept : Swept σ α) (a : α) : Prop :=
  match swept with
  | .ok _ b | .error _ b => b = a

variable {first : Swept σ α} {put : α → β} {next : σ → α → Swept σ β}

theorem Performs.andThen {x : Except Error (α × σ)} {y : α × σ → Except Error (β × σ)}
    (h : first.Performs x) (hnext : ∀ a s, x = .ok (a, s) → (next s a).Performs (y (a, s))) :
    (first.andThen put next).Performs (x >>= y) := by
  cases x with
  | error e =>
    obtain ⟨a, rfl⟩ := h
    exact ⟨put a, rfl⟩
  | ok answer =>
    obtain ⟨a, s⟩ := answer
    obtain rfl : first = .ok s a := h
    exact hnext a s rfl

theorem Performs.into {x : Except Error (α × σ)} {y : α × σ → Except Error (β × σ)}
    (h : first.Performs x) (hy : ∀ a s, x = .ok (a, s) → y (a, s) = .ok (put a, s)) :
    (first.into put).Performs (x >>= y) :=
  h.andThen fun a s hx => by
    rw [hy a s hx]
    rfl

theorem performs_write (answer : Change σ α) (s : σ) (old : α) :
    (write answer s old id).Performs (answer.run s) := by
  unfold write
  cases answer.run s with
  | error e => exact ⟨old, rfl⟩
  | ok answer => rfl

/-- An answer is written, and the sweep goes on with what it was written over. -/
theorem performs_write_andThen {γ : Type} {answer : Change σ γ} {s : σ} {old : α}
    {place : γ → α} {y : γ × σ → Except Error (β × σ)}
    (hnext : ∀ x s', (next s' (place x)).Performs (y (x, s'))) :
    ((write answer s old place).andThen put next).Performs (answer.run s >>= y) := by
  unfold write
  cases answer.run s with
  | error e => exact ⟨put old, rfl⟩
  | ok answer => exact hnext _ _

theorem Leaves.andThen {a : α} {b : β} (h : first.Leaves a) (hput : put a = b)
    (hnext : ∀ s, (next s a).Leaves b) : (first.andThen put next).Leaves b := by
  cases first with
  | ok s a' =>
    obtain rfl : a' = a := h
    exact hnext s
  | error e a' =>
    obtain rfl : a' = a := h
    exact hput

theorem Leaves.into {a : α} {b : β} (h : first.Leaves a) (hput : put a = b) :
    (first.into put).Leaves b :=
  h.andThen hput fun _ => hput

theorem leaves_write {answer : Change σ α} {s : σ} {old : β} {put : α → β}
    (h : ∀ x s', answer.run s = .ok (x, s') → put x = old) : (write answer s old put).Leaves old := by
  unfold write
  cases hrun : answer.run s with
  | error e => rfl
  | ok answer => exact h _ _ hrun

end Swept

section Performs

variable (f : UInt16 → Change σ UInt16)

theorem performs_sweepIndex (s : σ) (i : UInt16) :
    (sweepIndex f s i).Performs ((changeIndex f i).run s) := by
  unfold sweepIndex changeIndex
  split
  · rename_i hi
    rw [hi]
    rfl
  · exact Swept.performs_write (f i) s i

theorem explain_map (g : α → β) (change : Change σ α) (words : Error → Error) :
    (g <$> change).explain words = g <$> change.explain words := by
  funext s
  show ((g <$> change).run s).mapError words = (g <$> change.explain words).run s
  rw [StateT.run_map, StateT.run_map]
  show _ = _ <$> (change.run s).mapError words
  cases change.run s <;> rfl

theorem performs_sweepSites (name : String) (sites : List Layout.Site) :
    ∀ (s : σ) (info : Bytes), (sweepSites f name sites s info).Performs
      ((Layout.rewriteSites name (fun site info =>
        match site.kind with
        | .reference => Bytes.ofU16 <$> f (info.u16At site.position)
        | _ => return []) sites info).run s) := by
  induction sites with
  | nil => exact fun s info => rfl
  | cons site sites ih =>
    intro s info
    rw [sweepSites, Layout.rewriteSites]
    by_cases hkind : site.kind = .reference
    · rw [if_pos hkind, hkind]
      simp only [explain_map, bind_map_left]
      exact Swept.performs_write_andThen fun x s' => ih s' _
    · have hnone : (match site.kind with
          | .reference => Bytes.ofU16 <$> f (info.u16At site.position)
          | _ => return [] : Change σ Bytes) = return [] := by
        split
        · exact absurd ‹_› hkind
        · rfl
      rw [if_neg hkind, hnone]
      show Swept.Performs _ ((Layout.rewriteSites name _ sites
        (info.overwrite site.position [])).run s)
      rw [Bytes.overwrite_nil]
      exact ih s info

theorem performs_sweepInfo (pool : Pool) (name : String) (s : σ) (info : Bytes) :
    (sweepInfo f pool name s info).Performs ((changeInfo pool f name info).run s) := by
  unfold sweepInfo changeInfo Layout.rewrite
  refine (performs_sweepSites f name _ s info).andThen fun info' s' _ => ?_
  cases (Layout.visit pool name info).failure with
  | none => rfl
  | some e => exact ⟨info', rfl⟩

theorem Bytes.overwrite_append_left (front bytes : Bytes) (pos : Nat) (new : Bytes) :
    (front ++ bytes).overwrite (front.length + pos) new = front ++ bytes.overwrite pos new := by
  cases new with
  | nil => rw [overwrite_nil, overwrite_nil]
  | cons n new =>
    induction front with
    | nil => rw [List.nil_append, List.nil_append, List.length_nil, Nat.zero_add]
    | cons b front ih =>
      rw [List.cons_append, List.cons_append, List.length_cons, Nat.add_right_comm, overwrite, ih]
      simp

theorem Bytes.overwrite_append_right {bytes new : Bytes} {pos : Nat} (back : Bytes)
    (h : pos + new.length ≤ bytes.length) :
    (bytes ++ back).overwrite pos new = bytes.overwrite pos new ++ back := by
  fun_induction overwrite bytes pos new with
  | case1 pos new =>
    rw [List.length_nil] at h
    obtain rfl : new = [] := List.eq_nil_of_length_eq_zero (by omega)
    rw [overwrite_nil]
  | case2 bytes pos => rw [overwrite_nil]
  | case3 b rest pos new hnew ih =>
    rw [List.cons_append, overwrite, ih (by simp at h; omega), List.cons_append]
    exact hnew
  | case4 b rest n new ih =>
    rw [List.cons_append, overwrite, ih (by simp at h; omega), List.cons_append]

theorem changeOperands_cons_none {ins : Instruction} {rest : List Instruction} {own more : Bytes}
    (hlength : own.length = ins.size) (hindex : ins.operand.index? = none) :
    changeOperands f (ins :: rest) (own ++ more) =
      do return own ++ (← changeOperands f rest more) := by
  rw [changeOperands, ← hlength, List.splitAt_eq, List.take_left, List.drop_left]
  simp only [hindex, pure_bind]

theorem changeOperands_cons_some {ins : Instruction} {rest : List Instruction} {own more : Bytes}
    {i : UInt16} (hlength : own.length = ins.size) (hindex : ins.operand.index? = some i) :
    changeOperands f (ins :: rest) (own ++ more) = do
      let x ← changeOperand f ins i
      return own.overwrite 1 (ins.indexBytes x) ++ (← changeOperands f rest more) := by
  rw [changeOperands, ← hlength, List.splitAt_eq, List.take_left, List.drop_left]
  unfold changeOperand Instruction.indexBytes
  simp only [hindex, bind_assoc]
  congr 1
  funext x
  by_cases hshape : ins.op.shape = .pool8
  · simp only [if_pos hshape]
    split
    · rfl
    · simp only [pure_bind]
  · simp only [if_neg hshape, pure_bind]

open Instruction in
/-- The operands of code that stands behind some bytes. -/
theorem performs_sweepOperands (instructions : List Instruction) :
    ∀ (s : σ) (before code : Bytes), Tiles before.length instructions code →
      (sweepOperands f instructions s (before ++ code)).Performs
        (((before ++ ·) <$> changeOperands f instructions code).run s) := by
  induction instructions with
  | nil =>
    intro s before code htiles
    obtain rfl : code = [] := htiles
    rfl
  | cons ins rest ih =>
    intro s before code htiles
    obtain ⟨hvalid, hoffset, own, more, hspelled, rfl, hrest⟩ := htiles
    have hlength := hspelled.length hvalid
    -- The instructions behind the first, whatever becomes of it.
    have hcontinue (own' : Bytes) (hown : own'.length = own.length) (s : σ) :
        (sweepOperands f rest s (before ++ (own' ++ more))).Performs
          (((before ++ ·) <$> do return own' ++ (← changeOperands f rest more)).run s) := by
      have h := ih s (before ++ own') more (by
        rw [List.length_append, hown, hlength, ← hoffset]
        exact hrest)
      rw [List.append_assoc] at h
      simpa only [map_eq_pure_bind, bind_assoc, pure_bind, List.append_assoc] using h
    rw [sweepOperands]
    cases hindex : ins.operand.index? with
    | none =>
      rw [changeOperands_cons_none f hlength hindex]
      exact hcontinue own rfl s
    | some i =>
      -- The operand is written over its place in the whole code.
      have hplace (x : UInt16) :
          (before ++ (own ++ more)).overwrite (ins.offset + 1) (ins.indexBytes x) =
            before ++ (own.overwrite 1 (ins.indexBytes x) ++ more) := by
        have hinside := hspelled.indexWidth_lt hvalid hindex
        rw [hoffset, Bytes.overwrite_append_left, Bytes.overwrite_append_right]
        rw [length_indexBytes hindex]
        omega
      rw [changeOperands_cons_some f hlength hindex, map_bind]
      refine Swept.performs_write_andThen fun x s' => ?_
      rw [hplace]
      exact hcontinue _ (Bytes.overwrite_length ..) s'

theorem performs_sweepCode (s : σ) (code : Bytes) :
    (sweepCode f s code).Performs ((changeCode f code).run s) := by
  unfold sweepCode changeCode
  cases hdecode : Instruction.decodeAll code with
  | error e => exact ⟨code, rfl⟩
  | ok instructions =>
    have h := performs_sweepOperands f instructions s [] code (Instruction.decodeAll_ok.1 hdecode)
    simpa using h

theorem performs_sweepHandler (s : σ) (h : Handler) :
    (sweepHandler f s h).Performs
      ((do return { h with catchType := ← changeIndex f h.catchType } : Change σ Handler).run s) :=
  (performs_sweepIndex f s h.catchType).into fun _ _ _ => rfl

theorem performs_sweepEach {sweep : σ → α → Swept σ α} {change : α → Change σ α}
    (h : ∀ s a, (sweep s a).Performs ((change a).run s)) (items : List α) :
    ∀ s, (sweepEach sweep s items).Performs ((items.mapM change).run s) := by
  induction items with
  | nil => exact fun s => rfl
  | cons a items ih =>
    intro s
    rw [sweepEach, List.mapM_cons]
    exact (h s a).andThen fun a' s' _ => (ih s').into fun _ _ _ => rfl

private theorem performs_sweepAll_of (pool : Pool) {attributes : List Attribute}
    (h : ∀ a ∈ attributes, ∀ s : σ,
      (Attribute.sweep f pool s a).Performs ((a.changeReferences pool f).run s)) :
    ∀ s : σ, (Attribute.sweepAll f pool s attributes).Performs
      ((Attribute.changeAll pool f attributes).run s) := by
  induction attributes with
  | nil =>
    intro s
    rw [Attribute.sweepAll, Attribute.changeAll]
    rfl
  | cons a attributes ih =>
    intro s
    rw [List.forall_mem_cons] at h
    rw [Attribute.sweepAll, Attribute.changeAll]
    exact (h.1 s).andThen fun a' s' _ => (ih h.2 s').into fun _ _ _ => rfl

theorem Attribute.performs_sweep (pool : Pool) (a : Attribute) :
    ∀ s : σ, (Attribute.sweep f pool s a).Performs ((a.changeReferences pool f).run s) := by
  induction a using Attribute.induction with
  | hraw i name info =>
    intro s
    rw [Attribute.sweep, Attribute.changeReferences]
    exact (performs_sweepIndex f s i).andThen fun i' s' _ =>
      (performs_sweepInfo f pool name s' info).into fun _ _ _ => rfl
  | hcode i name body ih =>
    intro s
    obtain ⟨maxStack, maxLocals, bytecode, handlers, attributes⟩ := body
    rw [Attribute.sweep, Attribute.changeReferences]
    exact (performs_sweepIndex f s i).andThen fun _ s _ =>
      (performs_sweepCode f s bytecode).andThen fun _ s _ =>
      (performs_sweepEach (performs_sweepHandler f) handlers s).andThen fun _ s _ =>
      (performs_sweepAll_of f pool ih s).into fun _ _ _ => rfl

theorem Attribute.performs_sweepAll (pool : Pool) (attributes : List Attribute) (s : σ) :
    (Attribute.sweepAll f pool s attributes).Performs
      ((Attribute.changeAll pool f attributes).run s) :=
  performs_sweepAll_of f pool (fun a _ => a.performs_sweep f pool) s

theorem Member.performs_sweep (pool : Pool) (s : σ) (m : Member) :
    (Member.sweep f pool s m).Performs ((m.changeReferences pool f).run s) := by
  unfold Member.sweep Member.changeReferences
  exact (performs_sweepIndex f s m.nameIndex).andThen fun _ s _ =>
    (performs_sweepIndex f s m.descriptorIndex).andThen fun _ s _ =>
    (Attribute.performs_sweepAll f pool m.attributes s).into fun _ _ _ => rfl

/-- Sweeping over a class does what changing its references does. -/
theorem ClassFile.performs_sweep (s : σ) (cf : ClassFile) :
    Swept.Performs (ClassFile.sweep f s cf) ((cf.changeReferences f).run s) := by
  unfold ClassFile.sweep ClassFile.changeReferences
  exact (performs_sweepIndex f s cf.thisClass).andThen fun _ s _ =>
    (performs_sweepIndex f s cf.superClass).andThen fun _ s _ =>
    (performs_sweepEach (performs_sweepIndex f) cf.interfaces s).andThen fun _ s _ =>
    (performs_sweepEach (Member.performs_sweep f cf.pool) cf.fields s).andThen fun _ s _ =>
    (performs_sweepEach (Member.performs_sweep f cf.pool) cf.methods s).andThen fun _ s _ =>
    (Attribute.performs_sweepAll f cf.pool cf.attributes s).into fun _ _ _ => rfl

end Performs

/-! ## Sweeps that change nothing -/

section Leaves

variable {f : UInt16 → Change σ UInt16} (hf : ∀ i s x s', (f i).run s = .ok (x, s') → x = i)

include hf

theorem leaves_sweepIndex (s : σ) (i : UInt16) : (sweepIndex f s i).Leaves i := by
  unfold sweepIndex
  split
  · rfl
  · exact Swept.leaves_write fun x s' hrun => hf i s x s' hrun

theorem leaves_sweepSites (name : String) (sites : List Layout.Site) (info : Bytes)
    (hinside : ∀ site ∈ sites, site.position + 2 ≤ info.length) :
    ∀ s : σ, (sweepSites f name sites s info).Leaves info := by
  induction sites with
  | nil => exact fun s => rfl
  | cons site sites ih =>
    intro s
    rw [List.forall_mem_cons] at hinside
    rw [sweepSites]
    split
    · refine (Swept.leaves_write fun x s' hrun => ?_).andThen rfl (ih hinside.2)
      rw [hf _ _ _ _ (Visits.run_explain.1 hrun)]
      exact Bytes.overwrite_of_getElem? fun k hk => Bytes.getElem?_add_of_word hinside.1 hk
    · exact ih hinside.2 s

theorem leaves_sweepInfo (pool : Pool) (name : String) (s : σ) (info : Bytes) :
    (sweepInfo f pool name s info).Leaves info := by
  refine (leaves_sweepSites hf name _ info (fun site hsite => ?_) s).andThen rfl fun s => ?_
  · have hle := Layout.inside_visit pool name info site hsite
    have hwidth := site.kind.two_le_width
    omega
  · cases (Layout.visit pool name info).failure <;> rfl

theorem eq_of_changeOperand {ins : Instruction} {i x : UInt16} {s s' : σ}
    (h : (changeOperand f ins i).run s = .ok (x, s')) : x = i := by
  unfold changeOperand at h
  rw [StateT.run_bind] at h
  obtain ⟨⟨y, s₁⟩, hfirst, hrest⟩ := Except.bind_ok.1 h
  obtain rfl := hf i s y s₁ (Visits.run_explain.1 hfirst)
  dsimp only at hrest
  split at hrest
  · split at hrest
    · cases hrest
    · exact (Prod.mk.inj (Except.ok.inj hrest)).1.symm
  · exact (Prod.mk.inj (Except.ok.inj hrest)).1.symm

theorem leaves_sweepOperands (instructions : List Instruction) (code : Bytes)
    (hcode : ∀ ins ∈ instructions, ∀ i, ins.operand.index? = some i →
      ∀ k < (ins.indexBytes i).length, code[ins.offset + 1 + k]? = (ins.indexBytes i)[k]?) :
    ∀ s : σ, (sweepOperands f instructions s code).Leaves code := by
  induction instructions with
  | nil => exact fun s => rfl
  | cons ins rest ih =>
    intro s
    rw [List.forall_mem_cons] at hcode
    rw [sweepOperands]
    cases hindex : ins.operand.index? with
    | none => exact ih hcode.2 s
    | some i =>
      refine (Swept.leaves_write fun x s' hrun => ?_).andThen rfl (ih hcode.2)
      rw [eq_of_changeOperand hf hrun]
      exact Bytes.overwrite_of_getElem? (hcode.1 i hindex)

theorem leaves_sweepCode (s : σ) (code : Bytes) : (sweepCode f s code).Leaves code := by
  unfold sweepCode
  cases hdecode : Instruction.decodeAll code with
  | error e => rfl
  | ok instructions =>
    refine leaves_sweepOperands hf instructions code (fun ins hins i hindex k hk => ?_) s
    have hbyte := ((Instruction.decodeAll_ok.1 hdecode).getElem?_index hins hindex hk).2
    rwa [Nat.sub_zero, ← Nat.add_assoc] at hbyte

theorem leaves_sweepHandler (s : σ) (h : Handler) : (sweepHandler f s h).Leaves h :=
  (leaves_sweepIndex hf s h.catchType).into rfl

omit hf in
theorem leaves_sweepEach {sweep : σ → α → Swept σ α} (h : ∀ s a, (sweep s a).Leaves a)
    (items : List α) : ∀ s, (sweepEach sweep s items).Leaves items := by
  induction items with
  | nil => exact fun s => rfl
  | cons a items ih => exact fun s => (h s a).andThen rfl fun s => (ih s).into rfl

omit hf in
private theorem leaves_sweepAll_of (pool : Pool) {attributes : List Attribute}
    (h : ∀ a ∈ attributes, ∀ s : σ, (Attribute.sweep f pool s a).Leaves a) :
    ∀ s : σ, (Attribute.sweepAll f pool s attributes).Leaves attributes := by
  induction attributes with
  | nil =>
    intro s
    rw [Attribute.sweepAll]
    rfl
  | cons a attributes ih =>
    intro s
    rw [List.forall_mem_cons] at h
    rw [Attribute.sweepAll]
    exact (h.1 s).andThen rfl fun s => (ih h.2 s).into rfl

theorem Attribute.leaves_sweep (pool : Pool) (a : Attribute) :
    ∀ s : σ, (Attribute.sweep f pool s a).Leaves a := by
  induction a using Attribute.induction with
  | hraw i name info =>
    intro s
    rw [Attribute.sweep]
    exact (leaves_sweepIndex hf s i).andThen rfl fun s =>
      (leaves_sweepInfo hf pool name s info).into rfl
  | hcode i name body ih =>
    intro s
    obtain ⟨maxStack, maxLocals, bytecode, handlers, attributes⟩ := body
    rw [Attribute.sweep]
    exact (leaves_sweepIndex hf s i).andThen rfl fun s =>
      (leaves_sweepCode hf s bytecode).andThen rfl fun s =>
      (leaves_sweepEach (leaves_sweepHandler hf) handlers s).andThen rfl fun s =>
      (leaves_sweepAll_of pool ih s).into rfl

theorem Attribute.leaves_sweepAll (pool : Pool) (attributes : List Attribute) (s : σ) :
    (Attribute.sweepAll f pool s attributes).Leaves attributes :=
  leaves_sweepAll_of pool (fun a _ => a.leaves_sweep hf pool) s

theorem Member.leaves_sweep (pool : Pool) (s : σ) (m : Member) :
    (Member.sweep f pool s m).Leaves m :=
  (leaves_sweepIndex hf s m.nameIndex).andThen rfl fun s =>
    (leaves_sweepIndex hf s m.descriptorIndex).andThen rfl fun s =>
    (Attribute.leaves_sweepAll hf pool m.attributes s).into rfl

/-- A sweep that answers every reference with itself leaves the class as it was, however
far it comes. -/
theorem ClassFile.leaves_sweep (s : σ) (cf : ClassFile) :
    Swept.Leaves (ClassFile.sweep f s cf) cf := by
  unfold ClassFile.sweep
  exact (leaves_sweepIndex hf s cf.thisClass).andThen rfl fun s =>
    (leaves_sweepIndex hf s cf.superClass).andThen rfl fun s =>
    (leaves_sweepEach (leaves_sweepIndex hf) cf.interfaces s).andThen rfl fun s =>
    (leaves_sweepEach (Member.leaves_sweep hf cf.pool) cf.fields s).andThen rfl fun s =>
    (leaves_sweepEach (Member.leaves_sweep hf cf.pool) cf.methods s).andThen rfl fun s =>
    (Attribute.leaves_sweepAll hf cf.pool cf.attributes s).into rfl

end Leaves

/-! ## A pool in which references are moved -/

section Texts

variable {p q : Pool} (h : p.text = q.text)

include h

/-- A visit uses the texts of a pool only. -/
theorem Layout.visit_of_text : Layout.visit p = Layout.visit q := by
  have hnested (visit : String → Visit Unit) :
      Visit.nestedWith p visit = Visit.nestedWith q visit := by
    unfold Visit.nestedWith
    rw [h]
  have hbody (depth : Nat) : Visit.bodyOf p depth = Visit.bodyOf q depth := by
    induction depth with
    | zero => rfl
    | succ depth ih =>
      funext name
      unfold Visit.bodyOf
      rw [ih, hnested]
  funext name info
  unfold visit
  rw [hbody]

omit h in
private theorem changeAll_of_text_of {f : UInt16 → Change σ UInt16} {attributes : List Attribute}
    (hsame : ∀ a ∈ attributes, a.changeReferences p f = a.changeReferences q f) :
    Attribute.changeAll p f attributes = Attribute.changeAll q f attributes := by
  induction attributes with
  | nil => simp only [Attribute.changeAll]
  | cons a attributes ih =>
    rw [List.forall_mem_cons] at hsame
    rw [Attribute.changeAll, Attribute.changeAll, hsame.1, ih hsame.2]

theorem Attribute.changeReferences_of_text (f : UInt16 → Change σ UInt16) (a : Attribute) :
    a.changeReferences p f = a.changeReferences q f := by
  induction a using Attribute.induction with
  | hraw i name info =>
    simp only [Attribute.changeReferences, changeInfo, Layout.rewrite, Layout.visit_of_text h]
  | hcode i name body ih =>
    obtain ⟨maxStack, maxLocals, bytecode, handlers, attributes⟩ := body
    simp only [Attribute.changeReferences, changeAll_of_text_of ih]

theorem Attribute.changeAll_of_text (f : UInt16 → Change σ UInt16) :
    Attribute.changeAll p f = Attribute.changeAll q f :=
  funext fun _ => changeAll_of_text_of fun a _ => a.changeReferences_of_text h f

theorem Member.changeReferences_of_text (f : UInt16 → Change σ UInt16) (m : Member) :
    m.changeReferences p f = m.changeReferences q f := by
  simp only [Member.changeReferences, Attribute.changeAll_of_text h]

omit h in
/-- The references of a class are changed in the same way when its pool is exchanged for
one with the same texts. -/
theorem ClassFile.changeReferences_of_text {cf : ClassFile} (h : q.text = cf.pool.text)
    (f : UInt16 → Change σ UInt16) :
    { cf with pool := q }.changeReferences f =
      (fun moved => { moved with pool := q }) <$> cf.changeReferences f := by
  unfold ClassFile.changeReferences
  simp only [Member.changeReferences_of_text h, Attribute.changeAll_of_text h, map_bind, map_pure]

end Texts

/-- Moving references leaves the texts of a pool alone. -/
theorem Pool.text_moveKept (p : Pool) (live : Array Bool) (plan : Compaction) :
    (p.moveKept live plan).text = p.text := by
  funext i
  have hcount : (p.moveKept live plan).count = p.count := Array.size_mapIdx
  have hget : (p.moveKept live plan).get? i = (p.get? i).map fun c =>
      if plan.isKept live i.toNat then c.mapReferences plan.move else c := by
    unfold Pool.get? moveKept
    rw [Array.getElem?_mapIdx]
    cases p.slots[i.toNat]? with
    | none => rfl
    | some slot =>
      cases slot with
      | none => simp
      | some c => by_cases hkept : plan.isKept live i.toNat <;> simp [hkept]
  unfold text units get
  rw [hget, hcount]
  cases p.get? i with
  | none => rfl
  | some c =>
    simp only [Option.map_some]
    split
    · cases c <;> rfl
    · rfl

/-! ## Shrinking in place -/

namespace ClassFile

variable {cf : ClassFile} {live : Array Bool} {plan : Compaction}

/-- The first sweep changes nothing. -/
theorem sweep_mark (cf : ClassFile) :
    ClassFile.sweep cf.pool.mark (Array.replicate cf.pool.count false) cf =
      match cf.liveEntries with
      | .ok live => .ok live cf
      | .error e => .error e cf := by
  have hperforms := performs_sweep cf.pool.mark (Array.replicate cf.pool.count false) cf
  have hleaves := leaves_sweep (Pool.eq_of_mark (p := cf.pool)) (Array.replicate cf.pool.count false) cf
  unfold liveEntries
  cases hrun : (cf.changeReferences cf.pool.mark).run (Array.replicate cf.pool.count false) with
  | error e =>
    rw [hrun] at hperforms
    obtain ⟨same, hsweep⟩ := hperforms
    rw [hsweep] at hleaves ⊢
    obtain rfl : same = cf := hleaves
    rfl
  | ok answer =>
    rw [hrun] at hperforms
    obtain ⟨same, live⟩ := answer
    replace hperforms : ClassFile.sweep cf.pool.mark _ cf = .ok live same := hperforms
    rw [hperforms] at hleaves ⊢
    obtain rfl : same = cf := hleaves
    rfl

/-- Shrinking in place does what shrinking does, and changes nothing when it fails. -/
theorem shrinkInPlace_eq (hp : cf.pool.WellFormed) :
    shrinkInPlace cf = match cf.shrink with
      | .ok cf' => .ok () cf'
      | .error e => .error e cf := by
  have hfirst := sweep_mark cf
  unfold shrinkInPlace
  show ((do
    let live ← ClassFile.sweep cf.pool.mark (Array.replicate cf.pool.count false)
    let plan ← ofExcept (cf.pool.compact live)
    modify fun cf => { cf with pool := cf.pool.moveKept live plan }
    ClassFile.sweep (fun i => return plan.move i) ()
    modify fun cf => { cf with pool := plan.pool }) : EStateM Error ClassFile Unit) cf = _
  cases hlive : cf.liveEntries with
  | error e =>
    have hshrink : cf.shrink = .error e := by
      unfold shrink
      rw [hlive]
      rfl
    rw [hlive] at hfirst
    rw [EStateM.bind_error hfirst, hshrink]
  | ok live =>
    rw [hlive] at hfirst
    rw [EStateM.bind_ok hfirst]
    cases hplan : cf.pool.compact live with
    | error e =>
      have hshrink : cf.shrink = .error e := by
        unfold shrink
        rw [hlive]
        show (do let plan ← cf.pool.compact live; _ : Except Error ClassFile) = _
        rw [hplan]
        rfl
      rw [hshrink]
      rfl
    | ok plan =>
      -- The second sweep goes over the class with half of the pool new.
      obtain ⟨moved, hmoved, hshrink⟩ := exists_shrink hp hlive hplan
      have hsecond := performs_sweep (fun i => (return plan.move i : Change Unit UInt16)) ()
        { cf with pool := cf.pool.moveKept live plan }
      rw [changeReferences_of_text (cf.pool.text_moveKept live plan), StateT.run_map, hmoved]
        at hsecond
      replace hsecond : ClassFile.sweep (fun i => (return plan.move i : Change Unit UInt16)) ()
          { cf with pool := cf.pool.moveKept live plan } =
            .ok () { moved with pool := cf.pool.moveKept live plan } := hsecond
      rw [hshrink]
      show ((do
        ClassFile.sweep (fun i => return plan.move i) ()
        modify fun cf => { cf with pool := plan.pool }) : EStateM Error ClassFile Unit)
          { cf with pool := cf.pool.moveKept live plan } = _
      rw [EStateM.bind_ok hsecond]
      rfl

/-- Shrinking a class that was read either shrinks it or changes nothing.  Marking and
finding keys end, wherever they start and however the entries refer to one another.
Once the live entries are known and compacted the class is shrunk, because the index
that each live one becomes is not zero and has not grown; so shrinking fails only where
the references cannot be found or one of them has no meaning. -/
theorem shrinkInPlace_atomic {data : Bytes} (h : parse data = .ok cf) :
    (shrinkInPlace cf = match cf.shrink with
      | .ok cf' => .ok () cf'
      | .error e => .error e cf) ∧
    (∀ i live, live.size = cf.pool.count → ∃ result, cf.pool.Marks [i] live result ∧
      (cf.pool.mark i).run live = result.map fun live' => (i, live')) ∧
    (∀ i (s : Keys), s.states.size = cf.pool.count → ∃ key s', cf.pool.Keyed i s key s' ∧
      (cf.pool.key (cf.pool.count + 1) i).run s = (key, s')) ∧
    (∀ live plan, cf.liveEntries = .ok live → cf.pool.compact live = .ok plan →
      (∃ cf', cf.shrink = .ok cf') ∧ ∀ i, Marked live i → plan.move i ≠ 0 ∧ plan.move i ≤ i) ∧
    ((∃ cf', cf.shrink = .ok cf') ↔
      cf.Walkable ∧ ∀ i ∈ cf.references, ∃ m, cf.pool.Means i m) := by
  have hp : cf.pool.WellFormed := (Consistent.of_parse h).pool.wellFormed
  refine ⟨shrinkInPlace_eq hp, fun i live hsize => Pool.marks_mark hsize, fun i s hsize => ?_,
    fun live plan hlive hplan => ?_, exists_shrink_iff hp⟩
  · have hroom : cf.pool.count < cf.pool.count + 1 + s.active.count true := by omega
    exact ⟨_, _, (Pool.keyed_key _ i s hsize hroom).1, rfl⟩
  · obtain ⟨moved, -, hshrink⟩ := exists_shrink hp hlive hplan
    obtain ⟨hclosed, -⟩ := liveEntries_ok hlive
    have hminimal := Compaction.minimal_of_compact hp hclosed hplan
    exact ⟨⟨_, hshrink⟩, fun i hi =>
      ⟨(hminimal.sound.sameMeaning_move hclosed hi).2, hminimal.move_le i⟩⟩

/-- The class `A`, whose superclass is named by itself. -/
def circular : ClassFile where
  minor := 0
  major := 52
  pool := Pool.ofSlots [none, some (.utf8 [65]), some (.class_ 1), some (.class_ 3)]
  access := 0
  thisClass := 2
  superClass := 3
  interfaces := []
  fields := []
  methods := []
  attributes := []

theorem parse_circular : parse circular.image = .ok circular := by
  have hpool : circular.pool.Readable := by
    refine ⟨_, rfl, by decide, ?_, ?_, Pool.dangling?_eq_none.1 rfl⟩
    · exact .narrow True.intro rfl <| .narrow True.intro rfl <| .narrow True.intro rfl .nil
    · intro c hc
      simp only [List.mem_cons, Option.some.injEq, List.not_mem_nil, or_false] at hc
      rcases hc with rfl | rfl | rfl
      all_goals simp only [Constant.Fits]
      decide
  have hnone : Attribute.Readable circular.pool [] := ⟨by decide, by simp [Attribute.insideAll]⟩
  exact parse_ok.2 ⟨rfl, ⟨hpool, by decide, ⟨by decide, by simp [circular]⟩,
    ⟨by decide, by simp [circular]⟩, hnone⟩, rfl, "A", rfl⟩

theorem shrinkInPlace_atomic_circular :
    parse circular.image = .ok circular ∧ ∃ e, shrinkInPlace circular = .error e circular := by
  obtain ⟨hprogram, -, -, -, hexact⟩ := shrinkInPlace_atomic parse_circular
  refine ⟨parse_circular, ?_⟩
  cases hshrink : circular.shrink with
  | error e =>
    rw [hshrink] at hprogram
    exact ⟨e, hprogram⟩
  | ok cf' =>
    -- The meaning of the superclass would be part of itself.
    obtain ⟨-, hmeans⟩ := hexact.1 ⟨cf', hshrink⟩
    obtain ⟨m, hm⟩ := hmeans 3 (by decide)
    obtain ⟨c, parts, hc, hnode, hparts⟩ := Pool.means_iff.1 hm
    obtain rfl : Constant.class_ 3 = c := Option.some.inj hc
    obtain ⟨part, rest, hpart, -, rfl⟩ := List.forall₂_cons_left_iff.1 hparts
    obtain rfl := hm.unique hpart
    have hsize := congrArg sizeOf hnode
    simp at hsize
    omega

end ClassFile

end Cleartext
