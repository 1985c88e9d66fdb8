import Cleartext.Proofs.Quiet.Library
import Cleartext.Proofs.Twin.Steps

/-!
# Instructions at rest

`Step.Quiet` is `Run.Quiet` for computations on a frame: two runs that look alike have the
same frame.  Three families of instructions are not quiet.

* A store to a field does not leave the world in order, but it is blind
  (`blind_putStatic`, `blind_putField`).
* A call leaves the world in order, and is blind where it does not ask who runs the code
  (`AsksWho`, `blind_invoke`).

`run_cases` takes an instruction apart into these and the quiet ones, so `run_blind` and
`run_orderly` are both read off it.
-/

namespace Cleartext.Machine.Step

variable {sight : Bool} {α β : Type} {s t : Step α} {k : α → Step β} {σ : Setting} {F : Frame}
  {w : World}

/-- From one state, a computation comes to the same answer and the same frame wherever
things look alike, and leaves them alike. -/
def Blind (sight : Bool) (s : Step α) (σ : Setting) (F : Frame) (w : World) : Prop :=
  ∀ σ' w', σ.Alike sight σ' → w.Alike sight w' →
    (s σ F w).1 = (s σ' F w').1 ∧ (s σ F w).2.Alike sight (s σ' F w').2

/-- A computation leaves the world in order. -/
def Orderly (s : Step α) : Prop :=
  ∀ (σ : Setting) (F : Frame) (w : World), w.Evolves (newFields σ.program.cf) (s σ F w).2

/-- A computation does not show what differs, and leaves the world in order. -/
structure Quiet (sight : Bool) (s : Step α) : Prop where
  blind : ∀ σ F w, Blind sight s σ F w
  orderly : Orderly s

/-! ## Primitive computations -/

theorem blind_bind (h : Blind sight s σ F w)
    (hk : ∀ a F₁ w₁, s σ F w = ((.ok a, F₁), w₁) → Blind sight (k a) σ F₁ w₁) :
    Blind sight (s >>= k) σ F w := by
  intro σ' w' hσ hw
  obtain ⟨hanswer, hworlds⟩ := h σ' w' hσ hw
  rw [step_bind_eq, step_bind_eq]
  generalize s σ F w = e at hanswer hworlds hk
  generalize s σ' F w' = e' at hanswer hworlds
  obtain ⟨⟨answer, F₁⟩, w₁⟩ := e
  obtain ⟨⟨answer', F₁'⟩, w₁'⟩ := e'
  obtain ⟨rfl, rfl⟩ := Prod.mk.inj hanswer
  cases answer with
  | error halt => exact ⟨rfl, hworlds⟩
  | ok a => exact hk a F₁ w₁ rfl σ' w₁' hσ hworlds

theorem blind_read_bind {k : Setting → Step β} (hsame : ∀ σ', σ.Alike sight σ' → k σ = k σ')
    (hk : Blind sight (k σ) σ F w) : Blind sight (read >>= k) σ F w := by
  intro σ' w' hσ hw
  have hlook (σ : Setting) (w : World) : (read >>= k) σ F w = k σ σ F w := rfl
  rw [hlook, hlook, ← hsame σ' hσ]
  exact hk σ' w' hσ hw

theorem orderly_bind (h : Orderly s) (hk : ∀ a, Orderly (k a)) : Orderly (s >>= k) := by
  intro σ F w
  have hs := h σ F w
  rw [step_bind_eq]
  generalize s σ F w = e at hs
  obtain ⟨⟨answer, F₁⟩, w₁⟩ := e
  cases answer with
  | error halt => exact hs
  | ok a => exact hs.trans (hk a σ F₁ w₁)

@[grind ←] theorem quiet_bind (h : Quiet sight s) (hk : ∀ a, Quiet sight (k a)) :
    Quiet sight (s >>= k) :=
  ⟨fun σ F w => blind_bind (h.blind σ F w) fun a F₁ w₁ _ => (hk a).blind σ F₁ w₁,
    orderly_bind h.orderly fun a => (hk a).orderly⟩

/-- A computation on the frame alone, which the setting has no part in. -/
theorem quiet_of_frame (f : Frame → Except Halt α × Frame)
    (h : ∀ σ F w, s σ F w = (f F, w)) : Quiet sight s where
  blind σ F w σ' w' _ hw := by
    rw [h, h]
    exact ⟨rfl, hw⟩
  orderly σ F w := by
    rw [h]
    exact .refl _ _

@[grind ←] theorem quiet_pure (a : α) : Quiet sight (pure a : Step α) :=
  quiet_of_frame (fun F => (.ok a, F)) fun _ _ _ => rfl

@[grind ←] theorem quiet_throw (h : Halt) : Quiet sight (throw h : Step α) :=
  quiet_of_frame (fun F => (.error h, F)) fun _ _ _ => rfl

@[grind ←] theorem quiet_frame : Quiet sight (getThe Frame : Step Frame) :=
  quiet_of_frame (fun F => (.ok F, F)) fun _ _ _ => rfl

theorem quiet_modifyFrame (f : Frame → Frame) :
    Quiet sight (modifyThe Frame f : Step Unit) :=
  quiet_of_frame (fun F => (.ok (), f F)) fun _ _ _ => rfl

/-- A computation on the state of the run does not see the frame. -/
@[grind ←] theorem quiet_ofRun {r : Run α} (h : Run.Quiet sight r) :
    Quiet sight (liftM r : Step α) where
  blind σ F w σ' w' hσ hw := by
    obtain ⟨hanswer, hworlds⟩ := h.blind σ σ' w w' hσ hw
    exact ⟨congrArg (·, F) hanswer, hworlds⟩
  orderly σ _ w := h.orderly σ w

@[grind ←] theorem quiet_monadLift {r : Run α} (h : Run.Quiet sight r) :
    Quiet sight (monadLift r : Step α) :=
  quiet_ofRun h

/-- The program of a setting may decide what follows. -/
theorem quiet_read_bind {k : Setting → Step β} (hk : ∀ σ, Quiet sight (k σ))
    (hsame : ∀ σ σ', σ.Alike sight σ' → k σ = k σ') : Quiet sight (read >>= k) where
  blind σ F w := blind_read_bind (hsame σ) ((hk σ).blind σ F w)
  orderly σ F w := (hk σ).orderly σ F w

/-- What an object is made of may decide what follows, without sight apart from its call
stack. -/
theorem quiet_object_bind (id : Nat) {k : Option Object → Step β} (hk : ∀ o, Quiet sight (k o))
    (hunmarked : sight = false → ∀ o, k (o.map Object.unmarked) = k o) :
    Quiet sight ((liftM (object? id) : Step (Option Object)) >>= k) where
  blind σ F w σ' w' hσ hw := by
    have hlook (σ : Setting) (w : World) :
        ((liftM (object? id) : Step (Option Object)) >>= k) σ F w = k w.heap[id]? σ F w := rfl
    have ho := hw.object? id
    have hsame : k w.heap[id]? = k w'.heap[id]? := by
      cases sight with
      | true => simpa [Object.seen_true] using congrArg k ho
      | false =>
        rw [← hunmarked rfl w.heap[id]?, ← hunmarked rfl w'.heap[id]?]
        exact congrArg k ho
    rw [hlook, hlook, ← hsame]
    exact (hk w.heap[id]?).blind σ F w σ' w' hσ hw
  orderly σ F w := (hk w.heap[id]?).orderly σ F w

theorem quiet_deref_bind (v : Value) {k : Option Object → Step β} (hk : ∀ o, Quiet sight (k o))
    (hunmarked : sight = false → ∀ o, k (o.map Object.unmarked) = k o) :
    Quiet sight ((liftM (deref? v) : Step (Option Object)) >>= k) := by
  unfold deref?
  split
  · exact quiet_object_bind _ hk hunmarked
  · exact quiet_bind (quiet_ofRun (Run.quiet_pure none)) hk

/-- Everything of a world but its heap may decide what follows. -/
theorem quiet_world_bind {k : World → Step β} (hk : ∀ w, Quiet sight (k w))
    (hseen : ∀ w, k (w.seen sight) = k w) : Quiet sight (getThe World >>= k) where
  blind σ F w σ' w' hσ hw := by
    have hlook (σ : Setting) (w : World) : (getThe World >>= k) σ F w = k w σ F w := rfl
    have hsame : k w = k w' := by
      rw [← hseen w, ← hseen w']
      exact congrArg k hw
    rw [hlook, hlook, ← hsame]
    exact (hk w).blind σ F w σ' w' hσ hw
  orderly σ F w := (hk w).orderly σ F w

theorem quiet_ite {c : Prop} [Decidable c] (hs : Quiet sight s) (ht : Quiet sight t) :
    Quiet sight (if c then s else t) := by
  split
  · exact hs
  · exact ht

@[grind ←] theorem quiet_push (v : Value) : Quiet sight (push v) := quiet_modifyFrame _

@[grind ←] theorem quiet_setStack (stack : Stack) : Quiet sight (setStack stack) :=
  quiet_modifyFrame _

@[grind ←] theorem quiet_misuse (m : Misuse) : Quiet sight (misuse m : Step α) :=
  quiet_bind quiet_frame fun _ => quiet_throw _

@[grind ←] theorem quiet_lookup (answer : Except Error α) : Quiet sight (lookup answer) :=
  quiet_ofRun (Run.quiet_lift answer)

/-! ## The operand stack and the variables -/

@[grind ←] theorem quiet_pop : Quiet sight pop := by
  unfold pop
  grind

@[grind ←] theorem quiet_popValues (n : Nat) : Quiet sight (popValues n) := by
  unfold popValues
  grind

@[grind ←] theorem quiet_reshape (change : Stack → Except Misuse Stack) :
    Quiet sight (reshape change) := by
  unfold reshape
  grind

@[grind ←] theorem quiet_wrongKind (expected : String) (v : Value) :
    Quiet sight (wrongKind expected v : Step α) := by
  unfold wrongKind
  grind

@[grind ←] theorem quiet_popInt : Quiet sight popInt := by
  unfold popInt
  grind

@[grind ←] theorem quiet_popLong : Quiet sight popLong := by
  unfold popLong
  grind

@[grind ←] theorem quiet_popFloat : Quiet sight popFloat := by
  unfold popFloat
  grind

@[grind ←] theorem quiet_popDouble : Quiet sight popDouble := by
  unfold popDouble
  grind

@[grind ←] theorem quiet_popRef : Quiet sight popRef := by
  unfold popRef
  grind

@[grind ←] theorem quiet_pushFloat (v : Float32) : Quiet sight (pushFloat v) := quiet_push _

@[grind ←] theorem quiet_pushDouble (v : Float) : Quiet sight (pushDouble v) := quiet_push _

@[grind ←] theorem quiet_load (slot : UInt16) : Quiet sight (load slot) := by
  unfold load
  grind

@[grind ←] theorem quiet_store (slot : UInt16) (v : Value) : Quiet sight (store slot v) := by
  refine quiet_bind quiet_frame fun F => ?_
  dsimp only
  split
  · exact quiet_bind (quiet_misuse _) fun _ => quiet_modifyFrame _
  · exact quiet_modifyFrame _

@[grind ←] theorem quiet_storeLocal (op : Opcode) (slot : UInt16) :
    Quiet sight (storeLocal op slot) := by
  unfold storeLocal
  grind

@[grind ←] theorem quiet_increment (slot : UInt16) (delta : Int32) :
    Quiet sight (increment slot delta) := by
  unfold increment
  grind

@[grind ←] theorem quiet_returnAddress (slot : UInt16) : Quiet sight (returnAddress slot) := by
  unfold returnAddress
  grind

@[grind ←] theorem quiet_pushConstant (op : Opcode) : Quiet sight (pushConstant op) := by
  unfold pushConstant
  split <;> grind

@[grind ←] theorem quiet_loadConstant (index : UInt16) : Quiet sight (loadConstant index) :=
  quiet_read_bind (fun σ => by grind) fun σ σ' h => by rw [h.program]

@[grind ←] theorem quiet_shuffle (op : Opcode) : Quiet sight (shuffle op) := by
  unfold shuffle
  split <;> grind

/-! ## Arithmetic -/

@[grind ←] theorem quiet_quotient (a : Option α) : Run.Quiet sight (quotient a) := by
  unfold quotient
  split <;> grind

@[grind ←] theorem quiet_intArithmetic (op : Opcode) : Quiet sight (intArithmetic op) := by
  unfold intArithmetic
  grind

@[grind ←] theorem quiet_longArithmetic (op : Opcode) : Quiet sight (longArithmetic op) := by
  unfold longArithmetic
  grind

@[grind ←] theorem quiet_floatArithmetic (op : Opcode) : Quiet sight (floatArithmetic op) := by
  unfold floatArithmetic
  grind

@[grind ←] theorem quiet_doubleArithmetic (op : Opcode) : Quiet sight (doubleArithmetic op) := by
  unfold doubleArithmetic
  grind

@[grind ←] theorem quiet_shiftLong (op : Opcode) : Quiet sight (shiftLong op) := by
  unfold shiftLong
  grind

@[grind ←] theorem quiet_arithmetic (op : Opcode) : Quiet sight (arithmetic op) := by
  unfold arithmetic
  split <;> grind

@[grind ←] theorem quiet_convert (op : Opcode) : Quiet sight (convert op) := by
  unfold convert
  split <;> grind

@[grind ←] theorem quiet_compareNumbers (op : Opcode) : Quiet sight (compareNumbers op) := by
  unfold compareNumbers
  split <;> grind

@[grind ←] theorem quiet_isTaken (op : Opcode) : Quiet sight (isTaken op) := by
  unfold isTaken
  grind

/-! ## Arrays -/

@[grind ←] theorem quiet_classAt (index : UInt16) : Quiet sight (classAt index) :=
  quiet_read_bind (fun σ => by grind) fun σ σ' h => by rw [h.program]

@[grind ←] theorem quiet_element (v : Value) (i : Int32) : Run.Quiet sight (element v i) := by
  unfold element
  split
  · grind
  · refine Run.quiet_object_bind _ (fun o => ?_) fun _ o => by rcases o with _ | _ | _ | _ <;> rfl
    split <;> grind
  · grind

@[grind ←] theorem quiet_loadElement : Quiet sight loadElement := by
  unfold loadElement
  grind

@[grind ←] theorem quiet_storeElement : Quiet sight storeElement := by
  refine quiet_bind quiet_pop fun v => quiet_bind quiet_popInt fun i =>
    quiet_bind quiet_popRef fun array => quiet_bind (quiet_ofRun (quiet_element array i)) fun found =>
    quiet_ofRun (Run.quiet_update _ (fun o => ?_) fun o => ?_)
  · cases o <;> rfl
  · cases o <;> rfl

@[grind ←] theorem quiet_throwNegativeSize (n : Int32) :
    Run.Quiet sight (throwNegativeSize n : Run α) :=
  Run.quiet_throwNew _ _

@[grind ←] theorem quiet_newArray (component : String) (n : Nat) :
    Run.Quiet sight (newArray component n) :=
  Run.quiet_new (by simp)

@[grind ←] theorem quiet_newPrimitiveArray (code : UInt8) :
    Quiet sight (newPrimitiveArray code) := by
  unfold newPrimitiveArray
  grind

@[grind ←] theorem quiet_newReferenceArray (index : UInt16) :
    Quiet sight (newReferenceArray index) := by
  unfold newReferenceArray
  grind

@[grind ←] theorem quiet_newNested (counts : List Nat) (type : List Char) :
    Run.Quiet sight (newNested counts type) := by
  fun_induction newNested counts type with
  | case1 | case2 => exact Run.quiet_collapse
  | case3 => exact quiet_newArray _ _
  | case4 =>
    rename_i ih
    exact Run.quiet_bind (Run.quiet_mapM (fun _ => ih) _) fun _ => Run.quiet_new (by simp)

@[grind ←] theorem quiet_dimensions (counts : List Value) : Quiet sight (dimensions counts) := by
  induction counts with
  | nil => exact quiet_pure []
  | cons v rest ih =>
    unfold dimensions
    grind

@[grind ←] theorem quiet_newMultiArray (index : UInt16) (count : UInt8) :
    Quiet sight (newMultiArray index count) := by
  unfold newMultiArray
  grind

@[grind ←] theorem quiet_arrayLength : Quiet sight arrayLength := by
  refine quiet_bind quiet_popRef fun v => ?_
  split
  · grind
  · refine quiet_deref_bind _ (fun o => ?_) fun _ o => by rcases o with _ | _ | _ | _ <;> rfl
    split <;> grind

/-! ## Objects -/

@[grind ←] theorem quiet_fieldRef (index : UInt16) : Quiet sight (fieldRef index) :=
  quiet_read_bind (fun σ => by grind) fun σ σ' h => by rw [h.program]

@[grind ←] theorem quiet_fieldOwner (v : Value) : Run.Quiet sight (fieldOwner v) := by
  unfold fieldOwner
  split
  · grind
  · refine Run.quiet_object_bind _ (fun o => ?_) fun _ o => by
      rcases o with _ | _ | _ | ⟨cls, _ | fields, hidden⟩ <;> rfl
    split <;> grind
  · grind

@[grind ←] theorem quiet_getStatic (index : UInt16) : Quiet sight (getStatic index) := by
  refine quiet_bind (quiet_fieldRef index) fun ref => quiet_world_bind (fun w => ?_) fun _ => rfl
  split <;> grind

@[grind ←] theorem quiet_getField (index : UInt16) : Quiet sight (getField index) := by
  unfold getField
  grind

@[grind ←] theorem quiet_throwObject : Quiet sight throwObject := by
  refine quiet_bind quiet_popRef fun v => ?_
  split
  · grind
  · refine quiet_object_bind _ (fun o => ?_) fun _ o => by rcases o with _ | _ | _ | _ <;> rfl
    split <;> grind
  · grind

@[grind ←] theorem quiet_testInstance (index : UInt16) : Quiet sight (testInstance index) := by
  unfold testInstance
  grind

@[grind ←] theorem quiet_checkCast (index : UInt16) : Quiet sight (checkCast index) := by
  unfold checkCast
  grind

@[grind ←] theorem quiet_useMonitor : Quiet sight useMonitor := by
  unfold useMonitor
  grind

/-- A new instance of the interpreted class has its first fields. -/
@[grind ←] theorem quiet_newInstance (cls : String) : Run.Quiet sight (newInstance cls) := by
  have hlibrary : Run.Quiet sight (if cls = "java/lang/String" then new (.string [])
      else if cls = topClass || (librarySupers.lookup cls).isSome then newHidden cls .none
      else unsupported (.libraryClass cls)) := by
    refine Run.quiet_ite (Run.quiet_new (by simp)) ?_
    grind
  constructor
  · refine Run.blind_read_bind (fun σ => ?_) fun σ σ' h => by rw [h.program]
    dsimp only
    split
    · exact Run.blind_bind (Run.blind_alloc rfl) fun _ => Run.blind_pure _
    · exact hlibrary.blind
  · intro σ w
    by_cases hcls : cls = σ.program.name
    · have hnew : newInstance cls σ w =
          new (.instance cls (some (newFields σ.program.cf)) .none) σ w := by
        show (if cls = σ.program.name then _ else _ : Run Value) σ w = _
        rw [if_pos hcls]
      rw [hnew]
      refine World.evolves_push fun _ fields _ h => ?_
      simpa using (Object.instance.inj h).2.1.symm
    · have hnew : newInstance cls σ w = (if cls = "java/lang/String" then new (.string [])
          else if cls = topClass || (librarySupers.lookup cls).isSome then newHidden cls .none
          else unsupported (.libraryClass cls) : Run Value) σ w := by
        show (if cls = σ.program.name then _ else _ : Run Value) σ w = _
        rw [if_neg hcls]
      rw [hnew]
      exact hlibrary.orderly σ w

@[grind ←] theorem quiet_fillRecipe (pool : Pool) (recipe : Units) (values : List (Value × String))
    (constants : List UInt16) : Run.Quiet sight (fillRecipe pool recipe values constants) := by
  induction recipe generalizing values constants with
  | nil => exact Run.quiet_pure []
  | cons u recipe ih =>
    unfold fillRecipe
    split
    · split
      · grind
      · exact Run.quiet_bind (Run.quiet_unitsOf _ _) fun _ => Run.quiet_bind (ih _ _) fun _ =>
          Run.quiet_pure _
    · split
      · split
        · grind
        · exact Run.quiet_bind (Run.quiet_lift _) fun _ => Run.quiet_bind (Run.quiet_ofLoadable _)
            fun _ => Run.quiet_bind (Run.quiet_unitsOf _ _) fun _ => Run.quiet_bind (ih _ _) fun _ =>
            Run.quiet_pure _
      · exact Run.quiet_bind (ih _ _) fun _ => Run.quiet_pure _

/-- What is left of a concatenation once its names and its bootstrap method are known. -/
theorem quiet_recipe (pool : Pool) (name parameters : String) (target : Ref × List UInt16)
    {k : Units × List UInt16 → List Value → Descriptor → Step β}
    (hk : ∀ recipe values descriptor, Quiet sight (k recipe values descriptor)) :
    Quiet sight (do
      let descriptor ← lookup (Descriptor.parse parameters)
      let values ← popValues descriptor.params.length
      let recipe ←
        if target.1.name = "makeConcat" then pure (values.map fun _ => (1 : UInt16), target.2)
        else match target.2 with
          | [] => throw (.failure (.malformed (.noRecipe name)))
          | first :: constants => do pure (← lookup (pool.stringUnits first), constants)
      k recipe values descriptor) := by
  refine quiet_bind (quiet_lookup _) fun descriptor => quiet_bind (quiet_popValues _) fun values => ?_
  split
  · grind
  · split <;> grind

@[grind ←] theorem quiet_invokeDynamic (index : UInt16) : Quiet sight (invokeDynamic index) := by
  refine quiet_read_bind (fun σ => ?_) fun σ σ' h => by rw [h.program]
  refine quiet_bind (quiet_lookup _) fun c => ?_
  split
  · refine quiet_bind (quiet_lookup _) fun names => quiet_bind (quiet_lookup _) fun target => ?_
    dsimp only
    split
    · exact quiet_recipe _ _ _ _ fun _ _ _ => by grind
    · exact quiet_bind (by grind) fun _ => quiet_recipe _ _ _ _ fun _ _ _ => by grind
  · exact quiet_throw _

/-- Access to objects is quiet, stores to fields apart. -/
theorem objects_cases {P : Step Unit → Prop} (ins : Instruction)
    (hquiet : ∀ s, Quiet sight s → P s)
    (hstatic : ins.op = .putstatic → P (putStatic ins.operand.index))
    (hfield : ins.op = .putfield → P (putField ins.operand.index)) : P (objects ins) := by
  unfold objects
  split
  case h_2 h => exact hstatic h
  case h_4 h => exact hfield h
  all_goals exact hquiet _ (by grind)

/-! ## Stores to fields -/

theorem blind_putStatic (index : UInt16) (σ : Setting) (F : Frame) (w : World) :
    Blind sight (putStatic index) σ F w := by
  refine blind_bind ((quiet_fieldRef index).blind σ F w) fun ref F₁ w₁ _ =>
    blind_bind (quiet_pop.blind σ F₁ w₁) fun v F₂ w₂ _ => ?_
  exact fun _ _ _ hw => ⟨rfl, hw.with_static ref.name v⟩

/-- An instance with a value stored to one of its fields, which were `fields`. -/
def setField (name : String) (v : Value) (fields : List (String × Value)) : Object → Object
  | .instance cls _ hidden => .instance cls (some (setNamed name v fields)) hidden
  | o => o

theorem blind_putField (index : UInt16) (σ : Setting) (F : Frame) (w : World) :
    Blind sight (putField index) σ F w := by
  refine blind_bind ((quiet_fieldRef index).blind σ F w) fun ref F₁ w₁ _ =>
    blind_bind (quiet_pop.blind σ F₁ w₁) fun v F₂ w₂ _ =>
    blind_bind (quiet_popRef.blind σ F₂ w₂) fun target F₃ w₃ _ =>
    blind_bind ((quiet_ofRun (quiet_fieldOwner target)).blind σ F₃ w₃) fun found F₄ w₄ _ => ?_
  intro σ' w' hσ hw
  have hupdate : Run.Blind sight (update found.1 (setField ref.name v found.2))
      (update found.1 (setField ref.name v found.2)) := Run.blind_update _ fun o o' ho => ?_
  · exact ⟨rfl, (hupdate σ σ' w₄ w' hσ hw).2⟩
  · rcases Object.cases_of_seen ho with rfl | ⟨rfl, cls, fields, old, old', rfl, rfl, hold⟩
    · rfl
    · show Object.instance cls _ old.unmarked = Object.instance cls _ old'.unmarked
      rw [hold]

/-! ## Calls -/

/-- An instruction calls a method of the library that tells who runs the code. -/
def AsksWho (σ : Setting) (F : Frame) (w : World) (ins : Instruction) : Prop :=
  ins.op.isWithin .invokevirtual .invokeinterface = true ∧ ∃ ref descriptor args rest method,
    CallsLibrary σ w F.stack ins.operand.index (ins.op = .invokestatic)
        (ins.op = .invokevirtual || ins.op = .invokeinterface) ref descriptor args rest method ∧
      Library.Tells σ.program.lineage
        (if ins.op = .invokevirtual || ins.op = .invokeinterface then w.classOf (args.headD .null)
          else ref.owner) ref

/-- What a call does when it is known what it is called on. -/
private theorem quiet_answer {p : Program} {owner : String} {ref : Ref} {args : List Value}
    {result : String} {next : Int}
    (h : sight = true ∨ ∀ method, (owner = p.name → p.routine? ref.name ref.descriptor = none) →
      Library.method? p.lineage owner ref = some method → ¬ Library.Tells p.lineage owner ref) :
    Quiet sight
      (match (if owner = p.name then p.routine? ref.name ref.descriptor else none) with
      | some routine => pure (.enter routine args (result ≠ "V"))
      | none =>
        match Library.method? p.lineage owner ref with
        | none => liftM (unsupported (.libraryMethod ref.text) : Run Outcome)
        | some method => do
          let v ← liftM (method args)
          if result ≠ "V" then do
            push v
            pure (.next next)
          else pure (.next next) : Step Outcome) := by
  split
  · exact quiet_pure _
  · rename_i hnone
    have howner : owner = p.name → p.routine? ref.name ref.descriptor = none := by
      intro heq
      rwa [if_pos heq] at hnone
    split
    · grind
    · rename_i method hmethod
      have hquiet := Library.silent_method (h.imp_right fun hasks => hasks method howner hmethod)
        method hmethod args
      exact quiet_bind (quiet_ofRun hquiet) fun v => by grind

theorem blind_invoke {index : UInt16} {isStatic isVirtual : Bool} {next : Int}
    (h : sight = true ∨ ∀ ref descriptor args rest method,
      CallsLibrary σ w F.stack index isStatic isVirtual ref descriptor args rest method →
        ¬ Library.Tells σ.program.lineage
          (if isVirtual then w.classOf (args.headD .null) else ref.owner) ref) :
    Blind sight (invoke index isStatic isVirtual next) σ F w := by
  refine blind_read_bind (fun σ' h => by rw [h.program]) ?_
  refine blind_bind ((quiet_lookup _).blind σ F w) fun ref F₁ w₁ hnames => ?_
  obtain ⟨href, rfl, rfl⟩ := lookup_ok.1 hnames
  refine blind_bind ((quiet_lookup _).blind σ F₁ w₁) fun descriptor F₂ w₂ hparses => ?_
  obtain ⟨hdescriptor, rfl, rfl⟩ := lookup_ok.1 hparses
  refine blind_bind ((quiet_popValues _).blind σ F₂ w₂) fun args F₃ w₃ htakes => ?_
  obtain ⟨rest, hargs, rfl, rfl⟩ := popValues_ok.1 htakes
  dsimp only
  split
  · refine blind_bind ((quiet_monadLift (Run.quiet_throwNew _ _)).blind σ _ w₃) fun u F₄ w₄ hu => ?_
    exact absurd (ofRun_ok.1 hu).1 Run.throwNew_ok.1
  · rename_i hreceiver
    have hcalls {owner : String}
        (howner : owner = if isVirtual then w₃.classOf (args.headD .null) else ref.owner) :
        sight = true ∨ ∀ method,
          (owner = σ.program.name → σ.program.routine? ref.name ref.descriptor = none) →
          Library.method? σ.program.lineage owner ref = some method →
            ¬ Library.Tells σ.program.lineage owner ref :=
      h.imp_right fun hnever method hown hmethod => howner ▸ hnever ref descriptor args rest method
        ⟨href, hdescriptor, hargs, Bool.eq_false_iff.2 hreceiver, owner, howner, hown, hmethod⟩
    cases isVirtual with
    | true =>
      refine blind_bind ((quiet_monadLift (Run.quiet_runtimeClass _)).blind σ _ w₃)
        fun owner F₄ w₄ howner => ?_
      obtain ⟨howner, -⟩ := ofRun_ok.1 howner
      exact (quiet_answer (hcalls (Run.runtimeClass_ok.1 howner).1)).blind σ F₄ w₄
    | false =>
      refine blind_bind ((quiet_pure _).blind σ _ w₃) fun owner F₄ w₄ howner => ?_
      exact (quiet_answer (hcalls (pure_ok.1 howner).1)).blind σ F₄ w₄

theorem orderly_invoke (index : UInt16) (isStatic isVirtual : Bool) (next : Int) :
    Orderly (invoke index isStatic isVirtual next) := by
  have hquiet : Quiet true (invoke index isStatic isVirtual next) := by
    refine quiet_read_bind (fun σ => ?_) fun σ σ' h => by rw [h.program]
    refine quiet_bind (quiet_lookup _) fun ref => quiet_bind (quiet_lookup _) fun descriptor =>
      quiet_bind (quiet_popValues _) fun args => ?_
    -- Whether or not a receiver is missing, the class of the call is found, and then the method.
    dsimp only
    refine quiet_ite (quiet_bind (by grind) fun _ => quiet_ite ?_ ?_) (quiet_ite ?_ ?_)
    all_goals exact quiet_bind (by grind) fun owner => quiet_answer (.inl rfl)
  exact hquiet.orderly

/-! ## All instructions -/

/-- What an instruction does, by its family. -/
inductive Action (ins : Instruction) : Step Outcome → Prop
  | constant (op : Opcode) : Action ins (do pushConstant op; return .next ins.next)
  | immediate (v : Value) : Action ins (do push v; return .next ins.next)
  | loadConstant (h : ins.op.isWithin .ldc .ldc2W = true) :
      Action ins (do Step.loadConstant ins.operand.index; return .next ins.next)
  | load (slot : UInt16) : Action ins (do (do push (← Step.load slot)); return .next ins.next)
  | loadElement : Action ins (do Step.loadElement; return .next ins.next)
  | storeLocal (op : Opcode) (slot : UInt16) :
      Action ins (do Step.storeLocal op slot; return .next ins.next)
  | storeElement : Action ins (do Step.storeElement; return .next ins.next)
  | shuffle (op : Opcode) : Action ins (do Step.shuffle op; return .next ins.next)
  | arithmetic (op : Opcode) : Action ins (do Step.arithmetic op; return .next ins.next)
  | increment (slot : UInt16) (delta : Int32) :
      Action ins (do Step.increment slot delta; return .next ins.next)
  | convert (op : Opcode) : Action ins (do Step.convert op; return .next ins.next)
  | compareNumbers (op : Opcode) : Action ins (do Step.compareNumbers op; return .next ins.next)
  | branch (op : Opcode) (target : Int) :
      Action ins (do return .next (if ← isTaken op then target else ins.next))
  | jump (target : Int) : Action ins (return .next target)
  | subroutine (address : Value) (target : Int) : Action ins (do push address; return .next target)
  | ret (slot : UInt16) : Action ins (do return .next (← returnAddress slot))
  | select (target : Int32 → Int) : Action ins (do return .next (target (← popInt)))
  | returnVoid : Action ins (return .finish .null)
  | returnValue : Action ins (do return .finish (← pop))
  | call (h : ins.op.isWithin .invokevirtual .invokeinterface = true) :
      Action ins (invoke ins.operand.index (ins.op = .invokestatic)
        (ins.op = .invokevirtual || ins.op = .invokeinterface) ins.next)
  | objects : Action ins (do Step.objects ins; return .next ins.next)

theorem run_action (ins : Instruction) : Action ins (run ins) := by
  unfold run
  generalize hexpanded : ins.op.expand?.getD (ins.op, ins.operand.local_) = expanded
  obtain ⟨op, slot⟩ := expanded
  dsimp only
  refine iteInduction (fun _ => .constant op) fun _ => ?_
  refine iteInduction (fun _ => .immediate _) fun _ => ?_
  refine iteInduction (fun hldc => ?_) fun _ => ?_
  · obtain rfl := expanded_eq hexpanded (isWithin_ldc hldc).2
    exact .loadConstant hldc
  refine iteInduction (fun _ => .load slot) fun _ => ?_
  refine iteInduction (fun _ => .loadElement) fun _ => ?_
  refine iteInduction (fun _ => .storeLocal op slot) fun _ => ?_
  refine iteInduction (fun _ => .storeElement) fun _ => ?_
  refine iteInduction (fun _ => .shuffle op) fun _ => ?_
  refine iteInduction (fun _ => .arithmetic op) fun _ => ?_
  refine iteInduction (fun _ => .increment slot _) fun _ => ?_
  refine iteInduction (fun _ => .convert op) fun _ => ?_
  refine iteInduction (fun _ => .compareNumbers op) fun _ => ?_
  -- The branches.
  refine iteInduction (fun _ => .branch op _) fun _ => ?_
  refine iteInduction (fun _ => .jump _) fun _ => ?_
  refine iteInduction (fun _ => .subroutine _ _) fun _ => ?_
  refine iteInduction (fun _ => .ret slot) fun _ => ?_
  refine iteInduction (fun _ => .select _) fun _ => ?_
  refine iteInduction (fun _ => .returnVoid) fun _ => ?_
  refine iteInduction (fun _ => .returnValue) fun _ => ?_
  -- The calls, which are no short forms.
  refine iteInduction (fun hinvoke => ?_) fun _ => .objects
  obtain rfl := expanded_eq hexpanded (isWithin_invoke hinvoke).2
  exact .call hinvoke

/-- An instruction is quiet, a store to a field or a call. -/
theorem run_cases {P : Step Outcome → Prop} (ins : Instruction)
    (hquiet : ∀ s, Quiet sight s → P s)
    (hstatic : ins.op = .putstatic → P (do putStatic ins.operand.index; return .next ins.next))
    (hfield : ins.op = .putfield → P (do putField ins.operand.index; return .next ins.next))
    (hcall : ins.op.isWithin .invokevirtual .invokeinterface = true →
      P (invoke ins.operand.index (ins.op = .invokestatic)
        (ins.op = .invokevirtual || ins.op = .invokeinterface) ins.next)) : P (run ins) := by
  have hgo {s : Step Unit} (h : Quiet sight s) : P (do s; return .next ins.next) :=
    hquiet _ (quiet_bind h fun _ => quiet_pure _)
  have haction := run_action ins
  generalize run ins = s at haction ⊢
  cases haction with
  | objects =>
    exact objects_cases (P := fun s => P (do s; return .next ins.next)) ins (fun _ => hgo) hstatic
      hfield
  | constant op => exact hgo (quiet_pushConstant op)
  | immediate v => exact hgo (quiet_push v)
  | loadConstant => exact hgo (quiet_loadConstant _)
  | load slot => exact hgo (quiet_bind (quiet_load slot) quiet_push)
  | loadElement => exact hgo quiet_loadElement
  | storeLocal op slot => exact hgo (quiet_storeLocal op slot)
  | storeElement => exact hgo quiet_storeElement
  | shuffle op => exact hgo (quiet_shuffle op)
  | arithmetic op => exact hgo (quiet_arithmetic op)
  | increment slot delta => exact hgo (quiet_increment slot delta)
  | convert op => exact hgo (quiet_convert op)
  | compareNumbers op => exact hgo (quiet_compareNumbers op)
  | branch op => exact hquiet _ (quiet_bind (quiet_isTaken op) fun _ => quiet_pure _)
  | jump => exact hquiet _ (quiet_pure _)
  | subroutine address => exact hquiet _ (quiet_bind (quiet_push address) fun _ => quiet_pure _)
  | ret slot => exact hquiet _ (quiet_bind (quiet_returnAddress slot) fun _ => quiet_pure _)
  | select => exact hquiet _ (quiet_bind quiet_popInt fun _ => quiet_pure _)
  | returnVoid => exact hquiet _ (quiet_pure _)
  | returnValue => exact hquiet _ (quiet_bind quiet_pop fun _ => quiet_pure _)
  | call h => exact hcall h

/-- An instruction does the same wherever things look alike.  Without sight it must not ask
who runs the code. -/
theorem run_blind {ins : Instruction} (h : sight = true ∨ ¬ AsksWho σ F w ins) :
    Blind sight (run ins) σ F w := by
  refine run_cases (P := fun s => Blind sight s σ F w) ins (fun _ hs => hs.blind σ F w) ?_ ?_ ?_
  · exact fun _ => blind_bind (blind_putStatic _ σ F w) fun _ F₁ w₁ _ =>
      (quiet_pure _).blind σ F₁ w₁
  · exact fun _ => blind_bind (blind_putField _ σ F w) fun _ F₁ w₁ _ =>
      (quiet_pure _).blind σ F₁ w₁
  · intro hcall
    refine blind_invoke (h.imp_right fun hnever ref descriptor args rest method hcalls htells => ?_)
    exact hnever ⟨hcall, ref, descriptor, args, rest, method, hcalls, by simpa using htells⟩

/-- An instruction that stores to no field leaves the world in order. -/
theorem run_orderly {ins : Instruction} (hstatic : ins.op ≠ .putstatic)
    (hfield : ins.op ≠ .putfield) : Orderly (run ins) := by
  refine run_cases (P := Orderly) ins (fun _ (hs : Quiet true _) => hs.orderly) ?_ ?_ ?_
  · exact fun h => absurd h hstatic
  · exact fun h => absurd h hfield
  · exact fun _ => orderly_invoke _ _ _ _

end Cleartext.Machine.Step
