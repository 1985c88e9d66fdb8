import Cleartext.Proofs.Memory.Sparing
import Cleartext.Proofs.Memory.Stores

/-!
# What instructions do to objects

Apart from elements and fields, no instruction changes an object by itself: what it leaves is
what a method of the library leaves that it calls, or a string or a class that it loads.

* `Step.Sparing`: the computations that instructions are made of.
* `Step.world_invoke`: a call leaves the world of the method that it comes to.
* `Step.world_run`: what an instruction leaves that is no concatenation.
-/

namespace Cleartext.Machine

namespace Step

variable {α β : Type} {s : Step α} {k : α → Step β} {σ : Setting} {F : Frame} {w : World}

/-- A computation on a frame leaves the shared strings and the cores of all objects alone. -/
def Sparing (s : Step α) : Prop :=
  ∀ (σ : Setting) (F : Frame) (w : World), w.Spares none (s σ F w).2

theorem spares_bind (h : w.Spares none (s σ F w).2)
    (hk : ∀ a F₁ w₁, s σ F w = ((.ok a, F₁), w₁) → w₁.Spares none (k a σ F₁ w₁).2) :
    w.Spares none ((s >>= k) σ F w).2 := by
  rw [step_bind_eq]
  generalize s σ F w = e at h hk
  obtain ⟨⟨answer, F₁⟩, w₁⟩ := e
  cases answer with
  | error halt => exact h
  | ok a => exact h.trans (hk a F₁ w₁ rfl)

@[grind ←] theorem sparing_bind (h : Sparing s) (hk : ∀ a, Sparing (k a)) :
    Sparing (s >>= k) :=
  fun σ F w => spares_bind (h σ F w) fun a F₁ w₁ _ => hk a σ F₁ w₁

theorem sparing_of_same (h : ∀ σ F w, (s σ F w).2 = w) : Sparing s := fun σ F w => by
  rw [h]
  exact .refl _ _

@[grind ←] theorem sparing_pure (a : α) : Sparing (pure a : Step α) :=
  sparing_of_same fun _ _ _ => rfl

@[grind ←] theorem sparing_throw (h : Halt) : Sparing (throw h : Step α) :=
  sparing_of_same fun _ _ _ => rfl

@[grind ←] theorem sparing_read : Sparing (read : Step Setting) := sparing_of_same fun _ _ _ => rfl

@[grind ←] theorem sparing_frame : Sparing (getThe Frame : Step Frame) :=
  sparing_of_same fun _ _ _ => rfl

@[grind ←] theorem sparing_world : Sparing (getThe World : Step World) :=
  sparing_of_same fun _ _ _ => rfl

theorem sparing_modifyFrame (f : Frame → Frame) :
    Sparing (modifyThe Frame f : Step Unit) :=
  sparing_of_same fun _ _ _ => rfl

@[grind ←] theorem sparing_ofRun {r : Run α} (h : Run.Sparing none r) : Sparing (liftM r : Step α) :=
  fun σ _ w => h σ w

@[grind ←] theorem sparing_monadLift {r : Run α} (h : Run.Sparing none r) :
    Sparing (monadLift r : Step α) :=
  sparing_ofRun h

@[grind ←] theorem sparing_push (v : Value) : Sparing (push v) := sparing_modifyFrame _

@[grind ←] theorem sparing_setStack (stack : Stack) : Sparing (setStack stack) :=
  sparing_modifyFrame _

@[grind ←] theorem sparing_misuse (m : Misuse) : Sparing (misuse m : Step α) :=
  sparing_bind sparing_frame fun _ => sparing_throw _

@[grind ←] theorem sparing_lookup (answer : Except Error α) : Sparing (lookup answer) :=
  sparing_ofRun (Run.sparing_lift answer)

/-! ## The operand stack and the variables -/

@[grind ←] theorem sparing_pop : Sparing pop := by
  unfold pop
  grind

@[grind ←] theorem sparing_popValues (n : Nat) : Sparing (popValues n) := by
  unfold popValues
  grind

@[grind ←] theorem sparing_reshape (change : Stack → Except Misuse Stack) :
    Sparing (reshape change) := by
  unfold reshape
  grind

@[grind ←] theorem sparing_wrongKind (expected : String) (v : Value) :
    Sparing (wrongKind expected v : Step α) := by
  unfold wrongKind
  grind

@[grind ←] theorem sparing_popInt : Sparing popInt := by
  unfold popInt
  grind

@[grind ←] theorem sparing_popLong : Sparing popLong := by
  unfold popLong
  grind

@[grind ←] theorem sparing_popFloat : Sparing popFloat := by
  unfold popFloat
  grind

@[grind ←] theorem sparing_popDouble : Sparing popDouble := by
  unfold popDouble
  grind

@[grind ←] theorem sparing_popRef : Sparing popRef := by
  unfold popRef
  grind

@[grind ←] theorem sparing_pushFloat (v : Float32) : Sparing (pushFloat v) := sparing_push _

@[grind ←] theorem sparing_pushDouble (v : Float) : Sparing (pushDouble v) := sparing_push _

@[grind ←] theorem sparing_load (slot : UInt16) : Sparing (load slot) := by
  unfold load
  grind

@[grind ←] theorem sparing_store (slot : UInt16) (v : Value) : Sparing (store slot v) := by
  refine sparing_bind sparing_frame fun F => ?_
  dsimp only
  split
  · exact sparing_bind (sparing_misuse _) fun _ => sparing_modifyFrame _
  · exact sparing_modifyFrame _

theorem sparing_storeLocal (op : Opcode) (slot : UInt16) : Sparing (storeLocal op slot) := by
  unfold storeLocal
  grind

theorem sparing_increment (slot : UInt16) (delta : Int32) : Sparing (increment slot delta) := by
  unfold increment
  grind

@[grind ←] theorem sparing_returnAddress (slot : UInt16) : Sparing (returnAddress slot) := by
  unfold returnAddress
  grind

theorem sparing_pushConstant (op : Opcode) : Sparing (pushConstant op) := by
  unfold pushConstant
  split <;> grind

theorem sparing_shuffle (op : Opcode) : Sparing (shuffle op) := by
  unfold shuffle
  split <;> grind

/-! ## Arithmetic -/

@[grind ←] theorem sparing_quotient (a : Option α) : Run.Sparing none (quotient a) := by
  unfold quotient
  split <;> grind

theorem sparing_arithmetic (op : Opcode) : Sparing (arithmetic op) := by
  have hint : Sparing (intArithmetic op) := by
    unfold intArithmetic
    grind
  have hlong : Sparing (longArithmetic op) := by
    unfold longArithmetic
    grind
  have hfloat : Sparing (floatArithmetic op) := by
    unfold floatArithmetic
    grind
  have hdouble : Sparing (doubleArithmetic op) := by
    unfold doubleArithmetic
    grind
  have hshift : Sparing (shiftLong op) := by
    unfold shiftLong
    grind
  unfold arithmetic
  split <;> grind

theorem sparing_convert (op : Opcode) : Sparing (convert op) := by
  unfold convert
  split <;> grind

theorem sparing_compareNumbers (op : Opcode) : Sparing (compareNumbers op) := by
  unfold compareNumbers
  split <;> grind

@[grind ←] theorem sparing_isTaken (op : Opcode) : Sparing (isTaken op) := by
  unfold isTaken
  grind

/-! ## Arrays -/

@[grind ←] theorem sparing_classAt (index : UInt16) : Sparing (classAt index) := by
  unfold classAt
  grind

@[grind ←] theorem sparing_element (v : Value) (i : Int32) : Run.Sparing none (element v i) := by
  unfold element
  grind

theorem sparing_loadElement : Sparing loadElement := by
  unfold loadElement
  grind

theorem sparing_storeElement : Sparing storeElement :=
  sparing_bind sparing_pop fun _ => sparing_bind sparing_popInt fun _ =>
    sparing_bind sparing_popRef fun _ => sparing_bind (sparing_ofRun (sparing_element _ _)) fun _ =>
    sparing_ofRun (Run.sparing_update _ fun o => by cases o <;> rfl)

@[grind ←] theorem sparing_throwNegativeSize (n : Int32) :
    Run.Sparing none (throwNegativeSize n : Run α) :=
  Run.sparing_throwNew _ _

@[grind ←] theorem sparing_newArray (component : String) (n : Nat) :
    Run.Sparing none (newArray component n) :=
  Run.sparing_new _

@[grind ←] theorem sparing_newNested (counts : List Nat) (type : List Char) :
    Run.Sparing none (newNested counts type) := by
  fun_induction newNested counts type with
  | case1 | case2 => exact Run.sparing_collapse
  | case3 => exact sparing_newArray _ _
  | case4 =>
    rename_i ih
    exact Run.sparing_bind (Run.sparing_mapM (fun _ => ih) _) fun _ => Run.sparing_new _

@[grind ←] theorem sparing_dimensions (counts : List Value) : Sparing (dimensions counts) := by
  induction counts with
  | nil => exact sparing_pure []
  | cons v rest ih =>
    unfold dimensions
    grind

/-! ## Objects -/

@[grind ←] theorem sparing_fieldRef (index : UInt16) : Sparing (fieldRef index) := by
  unfold fieldRef
  grind

@[grind ←] theorem sparing_fieldOwner (v : Value) : Run.Sparing none (fieldOwner v) := by
  unfold fieldOwner
  grind

@[grind ←] theorem sparing_newInstance (cls : String) : Run.Sparing none (newInstance cls) := by
  unfold newInstance
  grind

@[grind ←] theorem sparing_putStatic (index : UInt16) : Sparing (putStatic index) :=
  sparing_bind (sparing_fieldRef index) fun _ => sparing_bind sparing_pop fun _ _ _ _ =>
    ⟨rfl, fun _ _ _ h => h⟩

@[grind ←] theorem sparing_putField (index : UInt16) : Sparing (putField index) :=
  sparing_bind (sparing_fieldRef index) fun _ => sparing_bind sparing_pop fun _ =>
    sparing_bind sparing_popRef fun _ => sparing_bind (sparing_ofRun (sparing_fieldOwner _)) fun _ =>
    sparing_ofRun (Run.sparing_update _ fun o => by cases o <;> rfl)

@[grind ←] theorem sparing_throwObject : Sparing throwObject := by
  refine sparing_bind sparing_popRef fun v => ?_
  split
  · grind
  · refine sparing_bind (sparing_ofRun (Run.sparing_object _)) fun o => ?_
    split <;> grind
  · grind

theorem sparing_objects {ins : Instruction} (h : ins.op ≠ .invokedynamic) :
    Sparing (objects ins) := by
  unfold objects getStatic getField newPrimitiveArray newReferenceArray newMultiArray arrayLength
    checkCast testInstance useMonitor
  dsimp only
  split
  case h_5 heq => exact absurd heq h
  all_goals grind

/-! ## Calls -/

/-- What holds of all worlds that a computation and its rest may leave. -/
private theorem world_bind {Q : World → Prop}
    (hhalt : ∀ halt F₁ w₁, s σ F w = ((.error halt, F₁), w₁) → Q w₁)
    (hk : ∀ a F₁ w₁, s σ F w = ((.ok a, F₁), w₁) → Q (k a σ F₁ w₁).2) :
    Q ((s >>= k) σ F w).2 := by
  rw [step_bind_eq]
  generalize s σ F w = e at hhalt hk
  obtain ⟨⟨halt | a, F₁⟩, w₁⟩ := e
  · exact hhalt halt F₁ w₁ rfl
  · exact hk a F₁ w₁ rfl

/-- What follows leaves the world as it is. -/
private theorem world_bind_same {Q : World → Prop} (h : Q (s σ F w).2)
    (hk : ∀ a F₁ w₁, (k a σ F₁ w₁).2 = w₁) : Q ((s >>= k) σ F w).2 := by
  refine world_bind (fun halt F₁ w₁ hs => ?_) fun a F₁ w₁ hs => ?_
  · rwa [hs] at h
  · rwa [hk, ← show (s σ F w).2 = w₁ from congrArg Prod.snd hs]

/-- A part of an instruction that spares the objects if it halts. -/
private theorem world_bind_sparing {Q : World → Prop} (hs : Sparing s)
    (hspared : ∀ w', w.Spares none w' → Q w')
    (hk : ∀ a F₁ w₁, s σ F w = ((.ok a, F₁), w₁) → Q (k a σ F₁ w₁).2) :
    Q ((s >>= k) σ F w).2 := by
  refine world_bind (fun halt F₁ w₁ h => hspared w₁ ?_) hk
  have hw := hs σ F w
  rwa [h] at hw

section Calls

variable {index : UInt16} {isStatic isVirtual : Bool} {ref : Ref} {args : List Value}

/-- What a call leaves when it is known what it is called on. -/
private theorem world_answer {Q : World → Prop} {p : Program} {owner : String} {result : String}
    {next : Int} (hsame : Q w)
    (h : (owner = p.name → p.routine? ref.name ref.descriptor = none) →
      ∀ method, Library.method? p.lineage owner ref = some method → Q (method args σ w).2) :
    Q ((match (if owner = p.name then p.routine? ref.name ref.descriptor else none) with
      | some routine => pure (.enter routine args (result ≠ "V"))
      | none =>
        match Library.method? p.lineage owner ref with
        | none => liftM (unsupported (.libraryMethod ref.text) : Run Outcome)
        | some method => do
          let v ← liftM (method args)
          if result ≠ "V" then do
            push v
            pure (.next next)
          else pure (.next next) : Step Outcome) σ F w).2 := by
  cases hown : (if owner = p.name then p.routine? ref.name ref.descriptor else none) with
  | some routine => exact hsame
  | none =>
    have hway : owner = p.name → p.routine? ref.name ref.descriptor = none := by
      intro heq
      rwa [if_pos heq] at hown
    cases hmethod : Library.method? p.lineage owner ref with
    | none => exact hsame
    | some method =>
      have hleft := h hway method hmethod
      refine world_bind (fun halt F₁ w₁ hv => ?_) fun v F₁ w₁ hv => ?_
      · obtain rfl : (method args σ w).2 = w₁ := congrArg Prod.snd hv
        exact hleft
      · obtain rfl : (method args σ w).2 = w₁ := congrArg Prod.snd hv
        split <;> exact hleft

/-- A call leaves a world in which all objects were spared, or that of the method of the library
that it comes to. -/
theorem world_invoke {Q : World → Prop} {next : Int} (hspared : ∀ w', w.Spares none w' → Q w')
    (h : ∀ ref descriptor args rest method,
      CallsLibrary σ w F.stack index isStatic isVirtual ref descriptor args rest method →
        Q (method args σ w).2) :
    Q (invoke index isStatic isVirtual next σ F w).2 := by
  unfold invoke
  refine world_bind_sparing sparing_read hspared fun s F₁ w₁ hread => ?_
  obtain ⟨rfl, rfl, rfl⟩ := read_ok.1 hread
  refine world_bind_sparing (sparing_lookup _) hspared fun ref F₂ w₂ hnames => ?_
  obtain ⟨href, rfl, rfl⟩ := lookup_ok.1 hnames
  refine world_bind_sparing (sparing_lookup _) hspared fun descriptor F₃ w₃ hparses => ?_
  obtain ⟨hdescriptor, rfl, rfl⟩ := lookup_ok.1 hparses
  refine world_bind_sparing (sparing_popValues _) hspared fun args F₄ w₄ htakes => ?_
  obtain ⟨rest, hargs, rfl, rfl⟩ := popValues_ok.1 htakes
  dsimp only
  split
  · exact world_bind_sparing (sparing_monadLift (Run.sparing_throwNew _ _)) hspared
      fun _ _ _ hthrow => absurd (ofRun_ok.1 hthrow).1 Run.throwNew_ok.1
  · rename_i hreceiver
    have hmethod {owner : String}
        (howner : owner = if isVirtual then w₄.classOf (args.headD .null) else ref.owner)
        (hway : owner = s.program.name → s.program.routine? ref.name ref.descriptor = none)
        (method : LibraryMethod)
        (hmethod : Library.method? s.program.lineage owner ref = some method) :
        Q (method args s w₄).2 :=
      h ref descriptor args rest method
        ⟨href, hdescriptor, hargs, Bool.eq_false_iff.2 hreceiver, owner, howner, hway, hmethod⟩
    cases isVirtual with
    | true =>
      refine world_bind_sparing (sparing_monadLift (Run.sparing_runtimeClass _)) hspared
        fun owner F₅ w₅ h => ?_
      obtain ⟨howner, rfl⟩ := Run.runtimeClass_ok.1 (ofRun_ok.1 h).1
      obtain rfl := (ofRun_ok.1 h).2
      exact world_answer (hspared _ (.refl _ _)) (hmethod howner)
    | false =>
      refine world_bind_sparing (sparing_pure _) hspared fun owner F₅ w₅ h => ?_
      obtain ⟨howner, rfl, rfl⟩ := pure_ok.1 h
      exact world_answer (hspared _ (.refl _ _)) (hmethod howner)

end Calls

/-! ## Instructions -/

/-- What an instruction leaves that is no concatenation: all objects are spared, or it loads a
constant, or it calls a method of the library. -/
theorem world_run {Q : World → Prop} {ins : Instruction} (hdynamic : ins.op ≠ .invokedynamic)
    (hspared : ∀ w', w.Spares none w' → Q w')
    (hload : ins.op.isWithin .ldc .ldc2W = true → ∀ c,
      σ.program.cf.pool.value ins.operand.index = .ok c → Q (ofLoadable c σ w).2)
    (hcall : ins.op.isWithin .invokevirtual .invokeinterface = true →
      ∀ ref descriptor args rest method,
        CallsLibrary σ w F.stack ins.operand.index (ins.op = .invokestatic)
          (ins.op = .invokevirtual || ins.op = .invokeinterface) ref descriptor args rest method →
        Q (method args σ w).2) :
    Q (run ins σ F w).2 := by
  have hgo {s : Step Unit} (h : Sparing s) :
      Q ((do s; return .next ins.next : Step Outcome) σ F w).2 :=
    world_bind_same (hspared _ (h σ F w)) fun _ _ _ => rfl
  have haction := run_action ins
  generalize run ins = s at haction
  cases haction with
  | loadConstant h =>
    refine world_bind_same (world_bind_sparing sparing_read hspared fun s F₁ w₁ hread => ?_) fun _ _ _ => rfl
    obtain ⟨rfl, rfl, rfl⟩ := read_ok.1 hread
    refine world_bind_sparing (sparing_lookup _) hspared fun c F₂ w₂ hlookup => ?_
    obtain ⟨hvalue, rfl, rfl⟩ := lookup_ok.1 hlookup
    exact world_bind_same (s := liftM (ofLoadable c)) (hload h c hvalue) fun _ _ _ => rfl
  | call h => exact world_invoke hspared (hcall h)
  | objects => exact hgo (sparing_objects hdynamic)
  | constant op => exact hgo (sparing_pushConstant op)
  | immediate v => exact hgo (sparing_push v)
  | load slot => exact hgo (by grind)
  | loadElement => exact hgo sparing_loadElement
  | storeLocal op slot => exact hgo (sparing_storeLocal op slot)
  | storeElement => exact hgo sparing_storeElement
  | shuffle op => exact hgo (sparing_shuffle op)
  | arithmetic op => exact hgo (sparing_arithmetic op)
  | increment slot delta => exact hgo (sparing_increment slot delta)
  | convert op => exact hgo (sparing_convert op)
  | compareNumbers op => exact hgo (sparing_compareNumbers op)
  | branch op target => exact world_bind_same (hspared _ (sparing_isTaken op σ F w)) fun _ _ _ => rfl
  | jump target => exact hspared _ (.refl _ _)
  | subroutine address target => exact hspared _ (.refl _ _)
  | ret slot => exact world_bind_same (hspared _ (sparing_returnAddress slot σ F w)) fun _ _ _ => rfl
  | select target => exact world_bind_same (hspared _ (sparing_popInt σ F w)) fun _ _ _ => rfl
  | returnVoid => exact hspared _ (.refl _ _)
  | returnValue => exact world_bind_same (hspared _ (sparing_pop σ F w)) fun _ _ _ => rfl

/-! ## Concatenations -/

/-- What a concatenation is about to put together: the recipe, the values with their types, and
the constants. -/
def site (index : UInt16) : Step (Units × List (Value × String) × List UInt16) := do
  let cf := (← read).program.cf
  match ← lookup (cf.pool.get index) with
  | .invokeDynamic method nameAndType =>
    let (name, descriptor) ← lookup (cf.pool.nameAndType nameAndType)
    let (ref, args) ← lookup (bootstrap cf method)
    unless ref.owner = concatFactory &&
        (ref.name = "makeConcatWithConstants" || ref.name = "makeConcat") do
      unsupported (.bootstrap ref.text)
    let descriptor ← lookup (Descriptor.parse descriptor)
    let values ← popValues descriptor.params.length
    let (recipe, constants) ←
      if ref.name = "makeConcat" then pure (values.map fun _ => (1 : UInt16), args)
      else match args with
        | [] => throw (.failure (.malformed (.noRecipe name)))
        | first :: constants => do pure (← lookup (cf.pool.stringUnits first), constants)
    return (recipe, values.zip descriptor.params, constants)
  | _ => throw (.failure (.badIndex (.notCallSite index)))

/-- A concatenation takes its recipe apart, and then fills it. -/
theorem invokeDynamic_eq (index : UInt16) (σ : Setting) : invokeDynamic index σ = (do
    let found ← site index
    push (← newUnits (← fillRecipe σ.program.cf.pool found.1 found.2.1 found.2.2)) : Step Unit) σ := by
  have hread {α : Type} (k : Setting → Step α) : (read >>= k) σ = k σ σ := rfl
  have hthrow {α β : Type} (h : Halt) (k : α → Step β) : (throw h >>= k : Step β) = throw h := rfl
  unfold invokeDynamic site
  simp only [hread, bind_assoc]
  refine congrFun (bind_congr fun c => ?_) σ
  cases c with
  | invokeDynamic method nameAndType =>
    simp only [bind_assoc]
    refine bind_congr fun names => bind_congr fun target => ?_
    obtain ⟨ref, args⟩ := target
    dsimp only
    split
    · simp only [bind_assoc]
      refine bind_congr fun descriptor => bind_congr fun values => ?_
      cases args <;> split <;> simp only [bind_assoc, hthrow, pure_bind]
    · simp only [bind_assoc]
      refine bind_congr fun _ => bind_congr fun descriptor => bind_congr fun values => ?_
      cases args <;> split <;> simp only [bind_assoc, hthrow, pure_bind]
  | _ => rfl


theorem sparing_site (index : UInt16) : Sparing (site index) := by
  refine sparing_bind sparing_read fun σ => sparing_bind (sparing_lookup _) fun c => ?_
  split
  · refine sparing_bind (sparing_lookup _) fun names =>
      sparing_bind (sparing_lookup _) fun target => ?_
    dsimp only
    split <;> grind
  · exact sparing_throw _

end Step

end Cleartext.Machine
