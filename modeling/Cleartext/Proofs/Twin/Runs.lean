import Cleartext.Proofs.Machine.Execution
import Cleartext.Proofs.Twin.Steps

/-!
# Whole runs side by side

`Program.Like` is what two programs have to have in common for their runs to go side by
side: routines of one name have code of the same shape, whose instructions are alike, and
control stays on these instructions.  `State.Beside` relates the states of the two runs.  A
step takes states that are beside each other to such states, or both runs end
(`step_beside`), and so do whole runs (`execute_beside`).
-/

namespace Cleartext.Machine

variable {f g : Numbering} {p p' : Program}

/-! ## Programs -/

/-- The places of a routine: the offsets of its instructions, and everything outside its
code. -/
def Routine.Holds (r : Routine) (pc : Int) : Prop :=
  (pc < 0 ∨ (r.length : Int) ≤ pc) ∨
    ∃ instructions, Instruction.decodeAll r.body.bytecode = .ok instructions ∧
      ∃ ins ∈ instructions, pc = ins.offset

/-- Rows of exception tables that are alike. -/
structure Handler.Like (p q : Pool) (h h' : Handler) : Prop where
  start : h'.start = h.start
  stop : h'.stop = h.stop
  target : h'.target = h.target
  all : h'.catchType = 0 ↔ h.catchType = 0
  catchType : h.catchType ≠ 0 →
    Both Eq (p.className h.catchType) (q.className h'.catchType)

/-- What two frames at a place fetch there: instructions that are alike, which lead to
places of the routine. -/
def FetchAlike (p p' : Program) (f : Numbering) (F F' : Frame) : Prop :=
  ∃ ins ins', Plan.fetch F = .ok ins ∧ Plan.fetch F' = .ok ins' ∧
    InstructionsLike p p' f ins ins' ∧ ∀ pc, Reaches ins f pc → F.routine.Holds pc

/-- Routines that are alike. -/
structure Routine.Like (p p' : Program) (f : Numbering) (r r' : Routine) : Prop where
  name : r'.name = r.name
  isStatic : r'.isStatic = r.isStatic
  maxLocals : r'.body.maxLocals = r.body.maxLocals
  length : r'.length = r.length
  handlers : List.Forall₂ (Handler.Like p.cf.pool p'.cf.pool) r.body.handlers r'.body.handlers
  start : r.Holds 0
  targets : ∀ h ∈ r.body.handlers, r.Holds h.target.toNat
  code : ∀ F F' : Frame, F.routine = r → F'.routine = r' → F'.pc = F.pc → r.Holds F.pc →
    Plan.isOutside F = false → FetchAlike p p' f F F'

/-- Programs whose runs go side by side. -/
structure Program.Like (p p' : Program) (f : Numbering) : Prop where
  name : p'.name = p.name
  lineage : p'.lineage = p.lineage
  fields : EntriesLike f (Step.newFields p.cf) (Step.newFields p'.cf)
  routines : ∀ r r', SameRoutine p p' r r' → r.Like p p' f r'

theorem InstructionsLike.mono {ins ins' : Instruction} (h : InstructionsLike p p' f ins ins')
    (hfg : f.Extends g) : InstructionsLike p p' g ins ins' where
  same := h.same
  index := h.index
  site := h.site
  fields hop r hr howner := hfg.used ▸ h.fields hop r hr howner
  calls := h.calls
  returns hop := hfg.returns ▸ h.returns hop

theorem Reaches.of_extends {ins : Instruction} {pc : Int} (h : Reaches ins g pc)
    (hfg : f.Extends g) : Reaches ins f pc := by
  obtain h | h | h | ⟨hop, n, hn, hreturns⟩ := h
  · exact .inl h
  · exact .inr (.inl h)
  · exact .inr (.inr (.inl h))
  · exact .inr (.inr (.inr ⟨hop, n, hn, hfg.returns ▸ hreturns⟩))

theorem FetchAlike.mono {F F' : Frame} (h : FetchAlike p p' f F F') (hfg : f.Extends g) :
    FetchAlike p p' g F F' := by
  obtain ⟨ins, ins', hins, hins', hlike, hholds⟩ := h
  exact ⟨ins, ins', hins, hins', hlike.mono hfg, fun pc hpc => hholds pc (hpc.of_extends hfg)⟩

theorem Routine.Like.mono {r r' : Routine} (h : r.Like p p' f r') (hfg : f.Extends g) :
    r.Like p p' g r' :=
  { h with code := fun F F' hF hF' hpc hholds hinside =>
      (h.code F F' hF hF' hpc hholds hinside).mono hfg }

theorem Program.Like.mono (h : p.Like p' f) (hfg : f.Extends g) : p.Like p' g :=
  { h with
    fields := h.fields.mono hfg
    routines := fun r r' hr => (h.routines r r' hr).mono hfg }

/-! ## Frames, callers and states -/

/-- Frames of one routine at one place, which hold values that are alike. -/
structure Frame.Beside (p p' : Program) (f : Numbering) (F F' : Frame) : Prop where
  like : F.Like f F'
  routine : SameRoutine p p' F.routine F'.routine
  pc : F'.pc = F.pc
  active : F'.active = F.active
  holds : F.routine.Holds F.pc

/-- Callers that wait for the same. -/
structure Caller.Beside (p p' : Program) (f : Numbering) (c c' : Caller) : Prop where
  frame : c.frame.Beside p p' f c'.frame
  next : c'.next = c.next
  returns : c'.returns = c.returns
  holds : c.frame.routine.Holds c.next

/-- How far two runs have come that go side by side. -/
structure Progress.Beside (f : Numbering) (q q' : Progress) : Prop where
  steps : q'.steps = q.steps
  world : q.world.Like f q'.world

/-- States of two runs that go side by side. -/
structure State.Beside (p p' : Program) (f : Numbering) (s s' : State) : Prop where
  frame : s.frame.Beside p p' f s'.frame
  callers : List.Forall₂ (Caller.Beside p p' f) s.callers s'.callers
  progress : s.progress.Beside f s'.progress

theorem Frame.Beside.mono {F F' : Frame} (h : F.Beside p p' f F') (hfg : f.Extends g) :
    F.Beside p p' g F' :=
  { h with like := h.like.mono hfg }

/-- A computation on frames that are beside each other leaves such frames. -/
theorem Frame.Beside.keeping {F F' F₁ F₁' : Frame} (h : F.Beside p p' f F')
    (hlike : F₁.Like g F₁') (hkeep : F₁.Keeps F) (hkeep' : F₁'.Keeps F') :
    F₁.Beside p p' g F₁' := by
  refine ⟨hlike, ?_, ?_, ?_, ?_⟩
  · rw [hkeep.routine, hkeep'.routine]
    exact h.routine
  · rw [hkeep.pc, hkeep'.pc, h.pc]
  · rw [hkeep.active, hkeep'.active, h.active]
  · rw [hkeep.routine, hkeep.pc]
    exact h.holds

theorem Caller.Beside.mono {c c' : Caller} (h : c.Beside p p' f c') (hfg : f.Extends g) :
    c.Beside p p' g c' :=
  { h with frame := h.frame.mono hfg }

theorem callers_mono {cs cs' : List Caller} (h : List.Forall₂ (Caller.Beside p p' f) cs cs')
    (hfg : f.Extends g) : List.Forall₂ (Caller.Beside p p' g) cs cs' :=
  h.imp fun _ _ hc => hc.mono hfg

/-- Two runs end: with values that are alike, or both without one. -/
inductive Ended (f : Numbering) : Ending → Ending → Prop
  | returned {g : Numbering} {v v' : Value} {q q' : Progress} (hfg : f.Extends g)
      (hv : v.Like g v') (hq : q.Beside g q') : Ended f (.ok v, q) (.ok v', q')
  | failed {h h' : Halt} {q q' : Progress} : Ended f (.error h, q) (.error h', q')

/-- Two runs go on side by side, or both end. -/
inductive Advanced (p p' : Program) (f : Numbering) :
    Except Ending State → Except Ending State → Prop
  | on {g : Numbering} {s s' : State} (hfg : f.Extends g) (h : s.Beside p p' g s') :
      Advanced p p' f (.ok s) (.ok s')
  | ended {e e' : Ending} (h : Ended f e e') : Advanced p p' f (.error e) (.error e')

theorem Ended.weaken {e e' : Ending} (h : Ended g e e') (hfg : f.Extends g) : Ended f e e' := by
  cases h with
  | returned hgh hv hq => exact .returned (hfg.trans hgh) hv hq
  | failed => exact .failed

theorem Advanced.weaken {a a' : Except Ending State} (h : Advanced p p' g a a')
    (hfg : f.Extends g) : Advanced p p' f a a' := by
  cases h with
  | on hgh h => exact .on (hfg.trans hgh) h
  | ended h => exact .ended (h.weaken hfg)

theorem Advanced.failed {h h' : Halt} {q q' : Progress} :
    Advanced p p' f (.error (.error h, q)) (.error (.error h', q')) := .ended .failed

@[simp] theorem Progress.blaming_steps (q : Progress) (F : Frame) : (q.blaming F).steps = q.steps := rfl

@[simp] theorem Progress.blaming_world (q : Progress) (F : Frame) : (q.blaming F).world = q.world := rfl

theorem Progress.Beside.blaming {q q' : Progress} (h : q.Beside f q') (F F' : Frame) :
    (q.blaming F).Beside f (q'.blaming F') := ⟨h.steps, h.world⟩

/-! ## Handlers -/

/-- Two objects that are one are of the same class. -/
theorem thrownClass_eq {w w' : World} {i j : Nat} (h : w.Like f w') (hij : f.Links i j) :
    thrownClass w' j = thrownClass w i := by
  obtain ⟨o, o', ho, ho', hlike⟩ := h.heap.objects hij
  unfold thrownClass
  rw [ho, ho']
  cases hlike <;> rfl

/-- Whether a row of an exception table covers an offset and catches objects of a class. -/
def Handler.catches (p : Program) (pc : Int) (cls : String) (h : Handler) : Bool :=
  handlerCovers h pc && (h.catchType == 0 ||
    match p.cf.pool.className h.catchType with
    | .ok name => p.lineage.assignable cls name
    | .error _ => false)

theorem handler?_eq_find? (p : Program) (handlers : List Handler) (pc : Int) (cls : String) :
    handler? p handlers pc cls = (handlers.find? (Handler.catches p pc cls)).map (·.target) := rfl

theorem Handler.Like.catches_eq {h h' : Handler} (hh : Handler.Like p.cf.pool p'.cf.pool h h')
    (hlineage : p'.lineage = p.lineage) (pc : Int) (cls : String) :
    Handler.catches p' pc cls h' = Handler.catches p pc cls h := by
  have hcovers : handlerCovers h' pc = handlerCovers h pc := by
    unfold handlerCovers
    rw [hh.start, hh.stop]
  unfold Handler.catches
  rw [hcovers, hlineage]
  by_cases hzero : h.catchType = 0
  · rw [hzero, hh.all.2 hzero]
    rfl
  · have hzero' : h'.catchType ≠ 0 := fun h => hzero (hh.all.1 h)
    rw [beq_eq_false_iff_ne.2 hzero, beq_eq_false_iff_ne.2 hzero']
    have hname := hh.catchType hzero
    generalize p.cf.pool.className h.catchType = n at hname ⊢
    generalize p'.cf.pool.className h'.catchType = n' at hname ⊢
    cases hname with
    | ok heq => rw [heq]
    | error => rfl

theorem handler?_eq (hlineage : p'.lineage = p.lineage) {handlers handlers' : List Handler}
    (h : List.Forall₂ (Handler.Like p.cf.pool p'.cf.pool) handlers handlers') (pc : Int) (cls : String) :
    handler? p' handlers' pc cls = handler? p handlers pc cls := by
  rw [handler?_eq_find?, handler?_eq_find?]
  induction h with
  | nil => rw [List.find?_nil, List.find?_nil]
  | @cons row row' _ _ hh _ ih =>
    have hcatches := hh.catches_eq hlineage pc cls
    cases hcatch : Handler.catches p pc cls row with
    | true =>
      rw [hcatch] at hcatches
      rw [List.find?_cons_of_pos hcatches, List.find?_cons_of_pos hcatch]
      exact congrArg some hh.target
    | false =>
      rw [hcatch] at hcatches
      rw [List.find?_cons_of_neg (by simp [hcatches]), List.find?_cons_of_neg (by simp [hcatch])]
      exact ih

theorem handler?_target {handlers : List Handler} {pc : Int} {cls : String} {target : UInt16}
    (h : handler? p handlers pc cls = some target) : ∃ row ∈ handlers, row.target = target := by
  obtain ⟨row, hfound, htarget⟩ := Option.map_eq_some_iff.1 h
  exact ⟨row, List.mem_of_find?_eq_some hfound, htarget⟩

section

variable (h : p.Like p' f)

include h

/-- Two frames catch one object, or neither does. -/
theorem catching?_beside {F F' : Frame} (hF : F.Beside p p' f F') {i j : Nat}
    (hij : f.Links i j) (cls : String) :
    Option.Rel (Frame.Beside p p' f) (F.catching? p i cls) (F'.catching? p' j cls) := by
  have hroutine := h.routines _ _ hF.routine
  unfold Frame.catching?
  rw [handler?_eq h.lineage hroutine.handlers, hF.pc]
  cases hhandler : handler? p F.routine.body.handlers F.pc cls with
  | none => exact .none
  | some target =>
    obtain ⟨row, hrow, rfl⟩ := handler?_target hhandler
    exact .some ⟨⟨hF.like.locals, .cons (.ref hij) .nil⟩, hF.routine, rfl, hF.active,
      hroutine.targets row hrow⟩

/-- The same caller catches one object in both runs, or nobody does. -/
theorem catcher?_beside {callers callers' : List Caller}
    (hcallers : List.Forall₂ (Caller.Beside p p' f) callers callers') {i j : Nat}
    (hij : f.Links i j) (cls : String) :
    Option.Rel (fun a a' => a.1.Beside p p' f a'.1 ∧ List.Forall₂ (Caller.Beside p p' f) a.2 a'.2)
      (catcher? p i cls callers) (catcher? p' j cls callers') := by
  induction hcallers with
  | nil => exact .none
  | cons hc hrest ih =>
    unfold catcher?
    have hcatching := catching?_beside h hc.frame hij cls
    generalize Frame.catching? p i cls _ = a at hcatching ⊢
    generalize Frame.catching? p' j cls _ = a' at hcatching ⊢
    cases hcatching with
    | none => exact ih
    | some hF => exact .some ⟨hF, hrest⟩

end

/-! ## Entering a method -/

theorem placeArguments_like {vs vs' : List Value} (h : List.Forall₂ (Value.Like f) vs vs')
    (slot : Nat) {locals locals' : Array Value}
    (hlocals : List.Forall₂ (Value.Like f) locals.toList locals'.toList) :
    Option.Rel (fun a a' => List.Forall₂ (Value.Like f) a.toList a'.toList)
      (placeArguments slot locals vs) (placeArguments slot locals' vs') := by
  induction h generalizing slot locals locals' with
  | nil => exact .some hlocals
  | cons hv _ ih =>
    have hsize : locals.size = locals'.size := by simpa using hlocals.length_eq
    unfold placeArguments
    rw [hsize, Step.isWide_eq hv]
    split
    · exact ih _ (Step.values_set hlocals slot hv)
    · exact .none

theorem replicate_like (n : Nat) : List.Forall₂ (Value.Like f)
    (Array.replicate n Value.null).toList (Array.replicate n Value.null).toList := by
  rw [Array.toList_replicate]
  induction n with
  | zero => exact .nil
  | succ n ih => exact .cons .null ih

/-- The same plan with another program. -/
def Plan.instead (plan : Plan) (p' : Program) : Plan := { plan with program := p' }

@[simp] theorem Plan.instead_config (plan : Plan) (p' : Program) :
    (plan.instead p').config = plan.config := rfl

@[simp] theorem Plan.instead_cancelled (plan : Plan) (p' : Program) :
    (plan.instead p').cancelled = plan.cancelled := rfl

theorem Plan.note_progress (plan : Plan) (F : Frame) (ins : Instruction) (q : Progress) :
    (plan.note F ins q).steps = q.steps ∧ (plan.note F ins q).world = q.world := by
  unfold Plan.note
  split <;> exact ⟨rfl, rfl⟩

section

variable {plan : Plan} (h : plan.program.Like p' f)

include h

/-- A routine is entered in both runs, or in neither. -/
theorem enter_beside {r r' : Routine} (hr : SameRoutine plan.program p' r r')
    {args args' : List Value} (hargs : List.Forall₂ (Value.Like f) args args')
    (callers : List String) :
    Both (Frame.Beside plan.program p' f) (plan.enter r args callers)
      ((plan.instead p').enter r' args' callers) := by
  have hlike := h.routines _ _ hr
  unfold Plan.enter Frame.enter?
  show Both _ _ (if plan.config.depthLimit ≤ callers.length then _ else _)
  split
  · exact .error
  · rw [hlike.maxLocals, hlike.name]
    have hplaced := placeArguments_like hargs 0
      (replicate_like (f := f) (max r.body.maxLocals.toNat 1))
    dsimp only
    generalize placeArguments 0 _ args = a at hplaced ⊢
    generalize placeArguments 0 _ args' = a' at hplaced ⊢
    cases hplaced with
    | none => exact .error
    | some ha => exact .ok ⟨⟨ha, .nil⟩, hr, rfl, rfl, hlike.start⟩

/-! ## Steps -/

/-- An exception is caught at the same place in both runs, or ends both. -/
theorem resume_thrown_beside {F F' : Frame} {callers callers' : List Caller} {next : Nat}
    (hcallers : List.Forall₂ (Caller.Beside plan.program p' f) callers callers')
    (hF : F.Beside plan.program p' f F') {q q' : Progress} (hq : q.Beside f q')
    {i j : Nat} (hij : f.Links i j) :
    Advanced plan.program p' f (plan.resume callers next (.error (.thrown i)) F q)
      ((plan.instead p').resume callers' next (.error (.thrown j)) F' q') := by
  unfold Plan.resume
  dsimp only
  rw [thrownClass_eq hq.world hij]
  have hcatching : Option.Rel (Frame.Beside plan.program p' f)
      (F.catching? plan.program i (thrownClass q.world i))
      (F'.catching? (plan.instead p').program j (thrownClass q.world i)) :=
    catching?_beside h hF hij _
  have hcatcher : Option.Rel (fun a a' => a.1.Beside plan.program p' f a'.1 ∧
        List.Forall₂ (Caller.Beside plan.program p' f) a.2 a'.2)
      (catcher? plan.program i (thrownClass q.world i) callers)
      (catcher? (plan.instead p').program j (thrownClass q.world i) callers') :=
    catcher?_beside h hcallers hij _
  generalize F.catching? plan.program i (thrownClass q.world i) = a at hcatching ⊢
  generalize F'.catching? (plan.instead p').program j (thrownClass q.world i) = a' at hcatching ⊢
  cases hcatching with
  | some hcaught => exact .on (.refl f) ⟨hcaught, hcallers, hq⟩
  | none =>
    generalize catcher? plan.program i (thrownClass q.world i) callers = b at hcatcher ⊢
    generalize catcher? (plan.instead p').program j (thrownClass q.world i) callers' = b'
      at hcatcher ⊢
    cases hcatcher with
    | none => exact .failed
    | some hcaught => exact .on (.refl f) ⟨hcaught.1, hcaught.2, hq.blaming _ _⟩

/-- Both runs go on at the same place after an instruction, return to callers that wait for
the same, or enter routines that are the same. -/
theorem resume_ok_beside {ins : Instruction} {F F' : Frame} {callers callers' : List Caller}
    (hcallers : List.Forall₂ (Caller.Beside plan.program p' f) callers callers')
    (hF : F.Beside plan.program p' f F') (hholds : ∀ pc, Reaches ins f pc → F.routine.Holds pc)
    {q q' : Progress} (hq : q.Beside f q') {o o' : Outcome}
    (ho : Outcome.Like plan.program p' (Reaches ins) f o o') :
    Advanced plan.program p' f (plan.resume callers ins.next (.ok o) F q)
      ((plan.instead p').resume callers' ins.next (.ok o') F' q') := by
  cases ho with
  | next hpc =>
    exact .on (.refl f) ⟨⟨⟨hF.like.locals, hF.like.stack⟩, hF.routine, rfl, hF.active,
      hholds _ hpc⟩, hcallers, hq⟩
  | finish hv =>
    cases hcallers with
    | nil => exact .ended (.returned (.refl f) hv hq)
    | @cons c c' _ _ hc hrest =>
      refine .on (.refl f) ⟨⟨⟨hc.frame.like.locals, ?_⟩, hc.frame.routine, hc.next,
        hc.frame.active, hc.holds⟩, hrest, hq⟩
      dsimp only
      rw [hc.returns]
      split
      · exact .cons hv hc.frame.like.stack
      · exact hc.frame.like.stack
  | @enter r r' args args' hr hargs returns =>
    have hentered := enter_beside h hr hargs F.active
    unfold Plan.resume
    dsimp only
    rw [hF.active]
    generalize plan.enter r args F.active = a at hentered ⊢
    generalize (plan.instead p').enter r' args' F.active = a' at hentered ⊢
    cases hentered with
    | error => exact .failed
    | ok hcallee =>
      exact .on (.refl f) ⟨hcallee, .cons ⟨hF, rfl, rfl, hholds _ (.inl rfl)⟩ hcallers, hq⟩

/-- What an answer of an instruction leads to. -/
theorem resume_beside {ins : Instruction} {F F' : Frame} {callers callers' : List Caller}
    (hcallers : List.Forall₂ (Caller.Beside plan.program p' f) callers callers')
    (hF : F.Beside plan.program p' f F')
    (hholds : ∀ pc, Reaches ins f pc → F.routine.Holds pc)
    {q q' : Progress} (hsteps : q'.steps = q.steps)
    {e e' : (Except Halt Outcome × Frame) × World}
    (he : StepTogether (Outcome.Like plan.program p' (Reaches ins)) f F F' e e') :
    Advanced plan.program p' f
      (plan.resume callers ins.next e.1.1 e.1.2 { q with world := e.2 })
      ((plan.instead p').resume callers' ins.next e'.1.1 e'.1.2 { q' with world := e'.2 }) := by
  cases he with
  | @halted h₁ h₁' _ _ _ _ hh hh' =>
    cases h₁ with
    | thrown i => exact absurd rfl (hh i)
    | failure _ | collapse _ =>
      cases h₁' with
      | thrown i => exact absurd rfl (hh' i)
      | failure _ | collapse _ => exact .failed
  | @thrown g i j F₁ F₁' w w' hfg hw hlike hkeep hkeep' hij =>
    have hbeside := hF.keeping hlike hkeep hkeep'
    have hq : Progress.Beside g { q with world := w } { q' with world := w' } := ⟨hsteps, hw⟩
    have hcallers := callers_mono hcallers hfg
    exact (resume_thrown_beside (h.mono hfg) hcallers hbeside hq hij).weaken hfg
  | @ok g o o' F₁ F₁' w w' hfg hw hlike hkeep hkeep' ho =>
    have hbeside := hF.keeping hlike hkeep hkeep'
    have hq : Progress.Beside g { q with world := w } { q' with world := w' } := ⟨hsteps, hw⟩
    have hcallers := callers_mono hcallers hfg
    refine (resume_ok_beside (h.mono hfg) hcallers hbeside (fun pc hpc => ?_) hq ho).weaken hfg
    rw [hkeep.routine]
    exact hholds pc (hpc.of_extends hfg)

/-- An instruction and its copy take states that are beside each other to such states. -/
theorem perform_beside {s s' : State} (hs : s.Beside plan.program p' f s') {ins ins' : Instruction}
    (hins : InstructionsLike plan.program p' f ins ins')
    (hholds : ∀ pc, Reaches ins f pc → s.frame.routine.Holds pc) :
    Advanced plan.program p' f (plan.perform s ins) ((plan.instead p').perform s' ins') := by
  have hnext : ins'.next = ins.next := by
    obtain ⟨x, rfl⟩ := hins.same
    exact ins.next_withIndex x
  have hsetting : Setting.Of plan.program p' f (plan.setting s.frame)
      ((plan.instead p').setting s'.frame) :=
    ⟨⟨rfl, hs.frame.active, h.name, h.lineage, h.fields⟩, rfl, rfl⟩
  have htogether := Step.run_twin hins h.name _ _ _ _ _ _ hsetting hs.frame.like hs.progress.world
  unfold Plan.perform
  rw [hnext]
  exact resume_beside h hs.callers hs.frame hholds hs.progress.steps htogether

/-- A step of the two runs. -/
theorem step_beside {s s' : State} (hs : s.Beside plan.program p' f s') :
    Advanced plan.program p' f (plan.step s) ((plan.instead p').step s') := by
  have hroutine := h.routines _ _ hs.frame.routine
  have houtside : Plan.isOutside s'.frame = Plan.isOutside s.frame := by
    unfold Plan.isOutside
    rw [hs.frame.pc, hroutine.length]
  unfold Plan.step
  rw [houtside, hs.progress.steps, Plan.instead_cancelled]
  by_cases hinside : Plan.isOutside s.frame = true
  · rw [if_pos hinside, if_pos hinside]
    exact .failed
  · rw [if_neg hinside, if_neg hinside]
    dsimp only
    split
    · exact .failed
    · obtain ⟨ins, ins', hins, hins', hlike, hholds⟩ :=
        hroutine.code s.frame s'.frame rfl rfl hs.frame.pc hs.frame.holds (by simpa using hinside)
      rw [hins, hins']
      dsimp only
      have hlater {q q' : Progress} (hq : q.Beside f q') : State.Beside plan.program p' f
          ⟨s.frame, s.callers, q⟩ ⟨s'.frame, s'.callers, q'⟩ := ⟨hs.frame, hs.callers, hq⟩
      refine perform_beside h (hlater ⟨?_, ?_⟩) hlike hholds
      · rw [(Plan.note_progress ..).1, (Plan.note_progress ..).1]
      · rw [(Plan.note_progress ..).2, (Plan.note_progress ..).2]
        exact hs.progress.world

/-! ## Runs -/

/-- Two runs that are beside each other come to ends that are alike. -/
theorem execute_beside (budget : Nat) {s s' : State} (hs : s.Beside plan.program p' f s') :
    Ended f (plan.execute budget s.frame s.callers s.progress)
      ((plan.instead p').execute budget s'.frame s'.callers s'.progress) := by
  induction budget generalizing f s s' with
  | zero =>
    unfold Plan.execute
    dsimp only
    split <;> split <;> exact .failed
  | succ budget ih =>
    rw [Plan.execute_succ, Plan.execute_succ]
    have hstep := step_beside h hs
    generalize plan.step s = a at hstep ⊢
    generalize (plan.instead p').step s' = a' at hstep ⊢
    cases hstep with
    | on hfg hs => exact (ih (h.mono hfg) hs).weaken hfg
    | ended he => exact he

/-- Two runs of a routine come to ends that are alike. -/
theorem call_beside {r r' : Routine} (hr : SameRoutine plan.program p' r r')
    {args args' : List Value} (hargs : List.Forall₂ (Value.Like f) args args') {q q' : Progress}
    (hq : q.Beside f q') : Ended f (plan.call r args q) ((plan.instead p').call r' args' q') := by
  have hentered := enter_beside h hr hargs []
  unfold Plan.call
  rw [hq.steps, Plan.instead_config]
  generalize plan.enter r args [] = a at hentered ⊢
  generalize (plan.instead p').enter r' args' [] = a' at hentered ⊢
  cases hentered with
  | error => exact .failed
  | @ok F F' hF => exact @execute_beside f p' plan h _ ⟨F, [], q⟩ ⟨F', [], q'⟩ ⟨hF, .nil, hq⟩

/-- Two runs of the class initializer and then of a routine come to ends that are alike. -/
theorem callInitialized_beside
    (hinit : Option.Rel (SameRoutine plan.program p') (plan.program.routine? "<clinit>" "()V")
      (p'.routine? "<clinit>" "()V"))
    {r r' : Routine} (hr : SameRoutine plan.program p' r r') {args args' : List Value}
    (hargs : List.Forall₂ (Value.Like f) args args') {q q' : Progress} (hq : q.Beside f q') :
    Ended f (plan.callInitialized r args q) ((plan.instead p').callInitialized r' args' q') := by
  unfold Plan.callInitialized
  rw [show (plan.instead p').program = p' from rfl]
  generalize plan.program.routine? "<clinit>" "()V" = init at hinit ⊢
  generalize p'.routine? "<clinit>" "()V" = init' at hinit ⊢
  cases hinit with
  | none => exact call_beside h hr hargs hq
  | some hinit =>
    dsimp only
    have hcalled := call_beside h hinit (.nil : List.Forall₂ (Value.Like f) [] []) hq
    generalize plan.call _ [] q = e at hcalled ⊢
    generalize (plan.instead p').call _ [] q' = e' at hcalled ⊢
    cases hcalled with
    | failed => exact .failed
    | returned hfg _ hq => exact (call_beside (h.mono hfg) hr (values_mono hargs hfg) hq).weaken hfg

end

end Cleartext.Machine
