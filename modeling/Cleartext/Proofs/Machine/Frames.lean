import Cleartext.Machine.Emulation
import Cleartext.Proofs.Machine.Answers

/-!
# What an instruction leaves alone

An instruction works on the local variables and on the operand stack of its frame.  The
routine, the place that the frame has reached and the call stack stay what they are, also
when the instruction halts half-way: the machine alone moves a frame on.

`Step.Stays` says this of a computation on a frame.  It goes through `>>=`, and so from the
primitive computations to `Step.run` (`Step.run_stays`).
-/

namespace Cleartext.Machine

/-- A frame that has not moved on. -/
structure Frame.Keeps (F₁ F : Frame) : Prop where
  routine : F₁.routine = F.routine
  pc : F₁.pc = F.pc
  active : F₁.active = F.active

theorem Frame.Keeps.refl (F : Frame) : F.Keeps F := ⟨rfl, rfl, rfl⟩

theorem Frame.Keeps.trans {F F₁ F₂ : Frame} (h : F₂.Keeps F₁) (h' : F₁.Keeps F) : F₂.Keeps F :=
  ⟨h.routine.trans h'.routine, h.pc.trans h'.pc, h.active.trans h'.active⟩

namespace Step

variable {α β : Type} {s : Step α} {k : α → Step β}

/-- A computation leaves its frame where it is, whether it halts or not. -/
def Stays (s : Step α) : Prop := ∀ σ F w, (s σ F w).1.2.Keeps F

/-! ## Primitive computations -/

@[grind ←] theorem stays_bind (h : Stays s) (hk : ∀ a, Stays (k a)) : Stays (s >>= k) := by
  intro σ F w
  have hs := h σ F w
  rw [step_bind_eq]
  generalize s σ F w = e at hs
  obtain ⟨⟨answer, F'⟩, w'⟩ := e
  cases answer with
  | error h => exact hs
  | ok a => exact (hk a σ F' w').trans hs

@[grind ←] theorem stays_pure (a : α) : Stays (pure a : Step α) := fun _ F _ => .refl F

@[grind ←] theorem stays_throw (h : Halt) : Stays (throw h : Step α) := fun _ F _ => .refl F

@[grind ←] theorem stays_read : Stays (read : Step Setting) := fun _ F _ => .refl F

@[grind ←] theorem stays_frame : Stays (getThe Frame : Step Frame) := fun _ F _ => .refl F

@[grind ←] theorem stays_world : Stays (getThe World : Step World) := fun _ F _ => .refl F

/-- A computation on the state of the run does not see the frame. -/
@[grind ←] theorem stays_ofRun (r : Run α) : Stays (liftM r : Step α) := fun _ F _ => .refl F

@[grind ←] theorem stays_monadLift (r : Run α) : Stays (monadLift r : Step α) :=
  fun _ F _ => .refl F

theorem stays_ite {c : Prop} [Decidable c] {t : Step α} (hs : Stays s) (ht : Stays t) :
    Stays (if c then s else t) := by
  split
  · exact hs
  · exact ht

@[grind ←] theorem stays_push (v : Value) : Stays (push v) := fun _ _ _ => ⟨rfl, rfl, rfl⟩

@[grind ←] theorem stays_setStack (stack : Stack) : Stays (setStack stack) :=
  fun _ _ _ => ⟨rfl, rfl, rfl⟩

@[grind ←] theorem stays_misuse (m : Misuse) : Stays (misuse m : Step α) :=
  stays_bind stays_frame fun _ => stays_throw _

@[grind ←] theorem stays_lookup (answer : Except Error α) : Stays (lookup answer) := stays_ofRun _

/-! ## The operand stack and the variables -/

@[grind ←] theorem stays_pop : Stays pop := by
  unfold pop
  grind

@[grind ←] theorem stays_popValues (n : Nat) : Stays (popValues n) := by
  unfold popValues
  grind

@[grind ←] theorem stays_reshape (change : Stack → Except Misuse Stack) : Stays (reshape change) := by
  unfold reshape
  grind

@[grind ←] theorem stays_wrongKind (expected : String) (v : Value) :
    Stays (wrongKind expected v : Step α) := by
  unfold wrongKind
  grind

@[grind ←] theorem stays_popInt : Stays popInt := by
  unfold popInt
  grind

@[grind ←] theorem stays_popLong : Stays popLong := by
  unfold popLong
  grind

@[grind ←] theorem stays_popFloat : Stays popFloat := by
  unfold popFloat
  grind

@[grind ←] theorem stays_popDouble : Stays popDouble := by
  unfold popDouble
  grind

@[grind ←] theorem stays_popRef : Stays popRef := by
  unfold popRef
  grind

@[grind ←] theorem stays_pushFloat (v : Float32) : Stays (pushFloat v) := stays_push _

@[grind ←] theorem stays_pushDouble (v : Float) : Stays (pushDouble v) := stays_push _

@[grind ←] theorem stays_load (slot : UInt16) : Stays (load slot) := by
  unfold load
  grind

@[grind ←] theorem stays_store (slot : UInt16) (v : Value) : Stays (store slot v) := by
  refine stays_bind stays_frame fun F => ?_
  have hset : Stays (modifyThe Frame fun f =>
      let locals := f.locals.setIfInBounds slot.toNat v
      { f with locals := if v.isWide then locals.setIfInBounds (slot.toNat + 1) .null else locals } :
      Step Unit) := fun _ _ _ => ⟨rfl, rfl, rfl⟩
  dsimp only
  split
  · exact stays_bind (stays_misuse _) fun _ => hset
  · exact hset

@[grind ←] theorem stays_storeLocal (op : Opcode) (slot : UInt16) : Stays (storeLocal op slot) := by
  unfold storeLocal
  grind

@[grind ←] theorem stays_increment (slot : UInt16) (delta : Int32) : Stays (increment slot delta) := by
  unfold increment
  grind

@[grind ←] theorem stays_returnAddress (slot : UInt16) : Stays (returnAddress slot) := by
  unfold returnAddress
  grind

@[grind ←] theorem stays_pushConstant (op : Opcode) : Stays (pushConstant op) := by
  unfold pushConstant
  split <;> grind

@[grind ←] theorem stays_loadConstant (index : UInt16) : Stays (loadConstant index) := by
  unfold loadConstant
  grind

@[grind ←] theorem stays_shuffle (op : Opcode) : Stays (shuffle op) := by
  unfold shuffle
  split <;> grind

/-! ## Arithmetic -/

@[grind ←] theorem stays_intArithmetic (op : Opcode) : Stays (intArithmetic op) := by
  unfold intArithmetic
  grind

@[grind ←] theorem stays_longArithmetic (op : Opcode) : Stays (longArithmetic op) := by
  unfold longArithmetic
  grind

@[grind ←] theorem stays_floatArithmetic (op : Opcode) : Stays (floatArithmetic op) := by
  unfold floatArithmetic
  grind

@[grind ←] theorem stays_doubleArithmetic (op : Opcode) : Stays (doubleArithmetic op) := by
  unfold doubleArithmetic
  grind

@[grind ←] theorem stays_shiftLong (op : Opcode) : Stays (shiftLong op) := by
  unfold shiftLong
  grind

@[grind ←] theorem stays_arithmetic (op : Opcode) : Stays (arithmetic op) := by
  unfold arithmetic
  split <;> grind

@[grind ←] theorem stays_convert (op : Opcode) : Stays (convert op) := by
  unfold convert
  split <;> grind

@[grind ←] theorem stays_compareNumbers (op : Opcode) : Stays (compareNumbers op) := by
  unfold compareNumbers
  split <;> grind

@[grind ←] theorem stays_isTaken (op : Opcode) : Stays (isTaken op) := by
  unfold isTaken
  grind

/-! ## Arrays -/

@[grind ←] theorem stays_classAt (index : UInt16) : Stays (classAt index) := by
  unfold classAt
  grind

@[grind ←] theorem stays_loadElement : Stays loadElement := by
  unfold loadElement
  grind

@[grind ←] theorem stays_storeElement : Stays storeElement := by
  unfold storeElement
  grind

@[grind ←] theorem stays_newPrimitiveArray (code : UInt8) : Stays (newPrimitiveArray code) := by
  unfold newPrimitiveArray
  grind

@[grind ←] theorem stays_newReferenceArray (index : UInt16) : Stays (newReferenceArray index) := by
  unfold newReferenceArray
  grind

@[grind ←] theorem stays_dimensions (counts : List Value) : Stays (dimensions counts) := by
  induction counts with
  | nil => exact stays_pure []
  | cons v rest ih =>
    unfold dimensions
    grind

@[grind ←] theorem stays_newMultiArray (index : UInt16) (count : UInt8) :
    Stays (newMultiArray index count) := by
  unfold newMultiArray
  grind

@[grind ←] theorem stays_arrayLength : Stays arrayLength := by
  unfold arrayLength
  grind

/-! ## Objects -/

@[grind ←] theorem stays_fieldRef (index : UInt16) : Stays (fieldRef index) := by
  unfold fieldRef
  grind

@[grind ←] theorem stays_getStatic (index : UInt16) : Stays (getStatic index) := by
  unfold getStatic
  grind

@[grind ←] theorem stays_putStatic (index : UInt16) : Stays (putStatic index) := by
  have hset (f : World → World) : Stays (modifyThe World f : Step Unit) := fun _ F _ => .refl F
  exact stays_bind (stays_fieldRef index) fun _ => stays_bind stays_pop fun _ => hset _

@[grind ←] theorem stays_getField (index : UInt16) : Stays (getField index) := by
  unfold getField
  grind

@[grind ←] theorem stays_putField (index : UInt16) : Stays (putField index) := by
  unfold putField
  grind

@[grind ←] theorem stays_throwObject : Stays throwObject := by
  unfold throwObject
  grind

@[grind ←] theorem stays_testInstance (index : UInt16) : Stays (testInstance index) := by
  unfold testInstance
  grind

@[grind ←] theorem stays_checkCast (index : UInt16) : Stays (checkCast index) := by
  unfold checkCast
  grind

@[grind ←] theorem stays_useMonitor : Stays useMonitor := by
  unfold useMonitor
  grind

/-- What is left of a concatenation once its names and its bootstrap method are known. -/
theorem stays_recipe {β : Type} (pool : Pool) (name parameters : String) (target : Ref × List UInt16)
    {k : Units × List UInt16 → List Value → Descriptor → Step β}
    (hk : ∀ recipe values descriptor, Stays (k recipe values descriptor)) :
    Stays (do
      let descriptor ← lookup (Descriptor.parse parameters)
      let values ← popValues descriptor.params.length
      let recipe ←
        if target.1.name = "makeConcat" then pure (values.map fun _ => (1 : UInt16), target.2)
        else match target.2 with
          | [] => throw (.failure (.malformed (.noRecipe name)))
          | first :: constants => do pure (← lookup (pool.stringUnits first), constants)
      k recipe values descriptor) := by
  refine stays_bind (stays_lookup _) fun descriptor => stays_bind (stays_popValues _) fun values => ?_
  split
  · grind
  · split <;> grind

@[grind ←] theorem stays_invokeDynamic (index : UInt16) : Stays (invokeDynamic index) := by
  refine stays_bind stays_read fun σ => stays_bind (stays_lookup _) fun c => ?_
  split
  · refine stays_bind (stays_lookup _) fun names => stays_bind (stays_lookup _) fun target => ?_
    dsimp only
    split
    · exact stays_recipe _ _ _ _ fun _ _ _ => by grind
    · exact stays_bind (stays_ofRun _) fun _ => stays_recipe _ _ _ _ fun _ _ _ => by grind
  · exact stays_throw _

@[grind ←] theorem stays_objects (ins : Instruction) : Stays (objects ins) := by
  unfold objects
  split <;> grind

/-! ## All instructions -/

@[grind ←] theorem stays_invoke (index : UInt16) (isStatic isVirtual : Bool) (next : Int) :
    Stays (invoke index isStatic isVirtual next) := by
  refine stays_bind stays_read fun σ => stays_bind (stays_lookup _) fun ref =>
    stays_bind (stays_lookup _) fun descriptor => stays_bind (stays_popValues _) fun args => ?_
  -- Whether or not a receiver is missing, the class of the call is found, and then the method.
  dsimp only
  refine stays_ite (stays_bind (stays_ofRun _) fun _ => stays_ite ?_ ?_) (stays_ite ?_ ?_)
  all_goals
    refine stays_bind (by grind) fun owner => ?_
    split
    · grind
    · split <;> grind

/-- An instruction leaves its frame where it is. -/
theorem run_stays (ins : Instruction) : Stays (run ins) := by
  unfold run
  generalize ins.op.expand?.getD (ins.op, ins.operand.local_) = form
  obtain ⟨op, slot⟩ := form
  dsimp only
  repeat' apply stays_ite
  all_goals grind

end Step

end Cleartext.Machine
