import Cleartext.Proofs.Memory.Effects
import Cleartext.Proofs.Memory.Keeping

/-!
# Instructions that ask for strings

Loads of constant strings and calls of `intern` ask for the shared string of some units
(`Step.asks?`).  A concatenation asks for the strings among its constants.  Nothing else
changes the table of shared strings.

* `World.Requests`: a world to which strings were asked for in order, while a string was
  not filled.
* `Step.run_asks`: an instruction that asks for a string goes on with it on the stack.
* `Step.run_requests`: an instruction asks for what `Step.requests` lists, and leaves a
  string alone that it does not fill.
-/

namespace Cleartext.Machine

/-! ## Requests -/

namespace World

variable {id : Nat} {w w₁ w' : World} {u v : Units} {us : List Units}

/-- The number of the string that a request for its units is answered with. -/
def sharing (w : World) (units : Units) : Nat := (w.shared? units).getD w.heap.size

/-- The world behind a request for a string. -/
def withShared (w : World) (units : Units) : World :=
  match w.shared? units with
  | some _ => w
  | none =>
    { w with
      heap := w.heap.push (.string units)
      interned := (units.text, w.heap.size) :: w.interned.filter (·.1 ≠ units.text) }

/-- A world that strings were asked for in, in order, and in which a string was not filled. -/
inductive Requests (id : Nat) : World → List Units → World → Prop
  | keep {w w' : World} (h : w.Keeps id w') : Requests id w [] w'
  | ask {w w₁ w' : World} {u : Units} {us : List Units} (h : w.Keeps id w₁)
      (hrest : Requests id (w₁.withShared u) us w') : Requests id w (u :: us) w'

theorem Requests.keeps_trans (h : w.Keeps id w₁) (h' : Requests id w₁ us w') :
    Requests id w us w' := by
  cases h' with
  | keep h₁ => exact .keep (h.trans h₁)
  | ask h₁ hrest => exact .ask (h.trans h₁) hrest

theorem Requests.append {us' : List Units} {w'' : World} (h : Requests id w us w')
    (h' : Requests id w' us' w'') : Requests id w (us ++ us') w'' := by
  induction h with
  | keep h => exact h'.keeps_trans h
  | ask h _ ih => exact .ask h (ih h')

theorem requests_withShared (id : Nat) (w : World) (u : Units) : Requests id w [u] (w.withShared u) :=
  .ask (.refl id w) (.keep (.refl id _))

end World

theorem Run.intern_sharing (σ : Setting) (w : World) (units : Units) :
    intern units σ w = (.ok (.ref (w.sharing units)), w.withShared units) := by
  rw [Run.intern_eq, World.sharing, World.withShared]
  cases w.shared? units <;> rfl

namespace Step

variable {id : Nat} {σ : Setting} {F : Frame} {w : World}

/-! ## Calls -/

/-- The method of the library that a call means: the class that declares it, its reference, and
the arguments.  There is none if the class itself has a method in the way. -/
def called? (σ : Setting) (w : World) (stack : Stack) (index : UInt16) (isStatic isVirtual : Bool) :
    Option (String × Ref × List Value) := do
  let ref ← (σ.program.cf.pool.ref index).toOption
  let descriptor ← (Descriptor.parse ref.descriptor).toOption
  let (args, _) ← (Stack.takeValues (descriptor.params.length + if isStatic then 0 else 1)
    stack).toOption
  let owner := if isVirtual then w.classOf (args.headD .null) else ref.owner
  if (!isStatic && args.head? = some .null) ||
      owner = σ.program.name && (σ.program.routine? ref.name ref.descriptor).isSome then none
  else (Library.declaring? σ.program.lineage owner ref).map (·, ref, args)

section Calls

variable {index : UInt16} {isStatic isVirtual : Bool} {cls : String} {ref : Ref} {args : List Value}

theorem called?_eq_some :
    called? σ w F.stack index isStatic isVirtual = some (cls, ref, args) ↔
      ∃ descriptor rest owner, σ.program.cf.pool.ref index = .ok ref ∧
        Descriptor.parse ref.descriptor = .ok descriptor ∧
        Stack.takeValues (descriptor.params.length + if isStatic then 0 else 1) F.stack =
          .ok (args, rest) ∧
        (!isStatic && args.head? = some .null) = false ∧
        owner = (if isVirtual then w.classOf (args.headD .null) else ref.owner) ∧
        (owner = σ.program.name → σ.program.routine? ref.name ref.descriptor = none) ∧
        Library.declaring? σ.program.lineage owner ref = some cls := by
  have htoOption {ε α : Type} {x : Except ε α} {a : α} : x.toOption = some a ↔ x = .ok a := by
    cases x <;> simp [Except.toOption]
  unfold called?
  simp only [Option.bind_eq_bind, Option.bind_eq_some_iff, htoOption, Option.ite_none_left_eq_some]
  constructor
  · rintro ⟨ref', href, descriptor, hdescriptor, ⟨args', rest⟩, htakes, hway, hcall⟩
    obtain ⟨cls', hcls, heq⟩ := Option.map_eq_some_iff.1 hcall
    cases heq
    simp only [Bool.or_eq_true, not_or, Bool.and_eq_true, not_and] at hway
    refine ⟨descriptor, rest, _, href, hdescriptor, htakes, ?_, rfl, fun howner => ?_, hcls⟩
    · simpa using hway.1
    · simpa using hway.2 (by simpa using howner)
  · rintro ⟨descriptor, rest, owner, href, hdescriptor, htakes, hreceiver, rfl, hway, hcls⟩
    refine ⟨ref, href, descriptor, hdescriptor, (args, rest), htakes, ?_, ?_⟩
    · simp only [hreceiver, Bool.false_or]
      simpa using hway
    · rw [hcls]
      rfl

end Calls

end Step

/-- The units of a constant, if it is a string. -/
def constantUnits? : Loadable → Option Units
  | .string units => some units
  | _ => none

namespace Run

variable {id : Nat} {α β : Type} {r : Run α} {k : α → Run β} {σ : Setting} {w : World}
  {us us' : List Units}

/-- Strings are asked for by a computation, and then by what follows its answer. -/
theorem requests_bind (h : w.Requests id us (r σ w).2)
    (hk : ∀ a w₁, r σ w = (.ok a, w₁) → w₁.Requests id us' (k a σ w₁).2)
    (hhalt : ∀ halt w₁, r σ w = (.error halt, w₁) → us' = []) :
    w.Requests id (us ++ us') ((r >>= k) σ w).2 := by
  rw [bind_eq]
  generalize r σ w = e at h hk hhalt
  obtain ⟨answer, w₁⟩ := e
  cases answer with
  | error halt =>
    obtain rfl := hhalt halt w₁ rfl
    rw [List.append_nil]
    exact h
  | ok a => exact h.append (hk a w₁ rfl)

/-- Strings are asked for behind a computation that keeps the table. -/
theorem keeps_bind_requests (h : w.Keeps id (r σ w).2)
    (hk : ∀ a w₁, r σ w = (.ok a, w₁) → w₁.Requests id us (k a σ w₁).2)
    (hhalt : ∀ halt w₁, r σ w = (.error halt, w₁) → us = []) :
    w.Requests id us ((r >>= k) σ w).2 :=
  requests_bind (.keep h) hk hhalt

/-- What follows may spare the objects. -/
theorem requests_bind_sparing (h : w.Requests id us (r σ w).2) (hk : ∀ a, Sparing none (k a)) :
    w.Requests id us ((r >>= k) σ w).2 := by
  have hbind := requests_bind h (fun a w₁ _ => .keep (keeping_of_sparing (hk a) σ w₁)) fun _ _ _ => rfl
  rwa [List.append_nil] at hbind

theorem requests_ofLoadable (id : Nat) (c : Loadable) (σ : Setting) (w : World) :
    w.Requests id (constantUnits? c).toList (ofLoadable c σ w).2 := by
  cases c with
  | string units =>
    rw [ofLoadable, intern_sharing]
    exact World.requests_withShared id w units
  | class_ name => exact .keep (keeping_of_sparing (sparing_mirror name) σ w)
  | _ => exact .keep (.refl id w)

/-- The text of a constant asks for the constant, if it is a string. -/
theorem requests_constantText (id : Nat) (c : Loadable) (σ : Setting) (w : World) :
    w.Requests id (constantUnits? c).toList ((do unitsOf (← ofLoadable c) "") σ w).2 :=
  requests_bind_sparing (requests_ofLoadable id c σ w) fun v => sparing_unitsOf v ""

/-- A method that is called on a string has its units. -/
theorem selfUnits_ok {args : List Value} {w' : World} {units : Units} :
    selfUnits args σ w = (.ok units, w') ↔
      ∃ i rest, args = .ref i :: rest ∧ w.heap[i]? = some (.string units) ∧ w' = w := by
  unfold selfUnits
  constructor
  · intro h
    obtain ⟨v, w₁, hv, hderef⟩ := bind_ok.1 h
    obtain ⟨hfirst, rfl⟩ := Library.arg_ok.1 hv
    obtain ⟨o, w₂, ho, hpick⟩ := bind_ok.1 hderef
    cases args with
    | nil => cases hfirst
    | cons first rest =>
      obtain rfl := Option.some.inj hfirst
      cases first with
      | ref i =>
        obtain ⟨hi, rfl⟩ := object?_ok.1 ho
        rcases o with _ | ⟨found⟩ | _ | _
        case some.string =>
          obtain ⟨rfl, rfl⟩ := pure_ok.1 hpick
          exact ⟨i, rest, rfl, hi.symm, rfl⟩
        all_goals cases throw_ok.1 hpick
      | _ =>
        obtain ⟨rfl, rfl⟩ := pure_ok.1 ho
        cases throw_ok.1 hpick
  · rintro ⟨i, rest, rfl, hi, rfl⟩
    refine bind_ok.2 ⟨_, _, Library.arg_ok.2 ⟨rfl, rfl⟩, bind_ok.2 ⟨some (.string units), w', ?_, ?_⟩⟩
    · exact object?_ok.2 ⟨hi.symm, rfl⟩
    · exact pure_ok.2 ⟨rfl, rfl⟩

end Run

namespace Step

/-- The strings that are asked for while a recipe is filled. -/
def recipeRequests (pool : Pool) (σ : Setting) :
    Units → List (Value × String) → List UInt16 → World → List Units
  | [], _, _, _ => []
  | u :: recipe, values, constants, w =>
    if u = 1 then
      match values with
      | [] => []
      | (v, type) :: values =>
        match unitsOf v type σ w with
        | (.ok _, w) => recipeRequests pool σ recipe values constants w
        | (.error _, _) => []
    else if u = 2 then
      match constants with
      | [] => []
      | index :: constants =>
        match pool.value index with
        | .error _ => []
        | .ok c =>
          (constantUnits? c).toList ++ match (do unitsOf (← ofLoadable c) "") σ w with
            | (.ok _, w) => recipeRequests pool σ recipe values constants w
            | (.error _, _) => []
    else recipeRequests pool σ recipe values constants w

/-- Filling a recipe asks for the strings among its constants, as far as it comes. -/
theorem requests_fillRecipe (id : Nat) (pool : Pool) (σ : Setting) (recipe : Units)
    (values : List (Value × String)) (constants : List UInt16) (w : World) :
    w.Requests id (recipeRequests pool σ recipe values constants w)
      (fillRecipe pool recipe values constants σ w).2 := by
  induction recipe generalizing values constants w with
  | nil => exact .keep (.refl id w)
  | cons u recipe ih =>
    unfold recipeRequests fillRecipe
    split
    · -- The next value, whose text asks for nothing.
      split
      · exact .keep (.refl id w)
      · rename_i v type values
        refine Run.keeps_bind_requests (Run.keeping_of_sparing (Run.sparing_unitsOf v type) σ w)
          (fun text w₁ h => ?_) fun halt w₁ h => ?_
        · rw [h]
          exact Run.requests_bind_sparing (ih values constants w₁) fun _ => Run.sparing_pure _
        · rw [h]
    · split
      · -- The next constant.
        split
        · exact .keep (.refl id w)
        · rename_i index constants
          refine Run.keeps_bind_requests (Run.keeping_of_sparing (Run.sparing_lift _) σ w)
            (fun c w₁ h => ?_) fun halt w₁ h => ?_
          · obtain ⟨hvalue, rfl⟩ := Run.lift_ok.1 h
            rw [hvalue, ← bind_assoc]
            refine Run.requests_bind (Run.requests_constantText id c σ w₁) (fun text w₂ h => ?_)
              fun halt w₂ h => ?_
            · rw [h]
              exact Run.requests_bind_sparing (ih values constants w₂) fun _ => Run.sparing_pure _
            · rw [h]
          · have hnone (c : Loadable) : pool.value index ≠ .ok c := by
              intro hvalue
              cases (Run.lift_ok.2 ⟨hvalue, rfl⟩).symm.trans h
            split
            · rfl
            · rename_i c hvalue
              exact absurd hvalue (hnone c)
      · exact Run.requests_bind_sparing (ih values constants w) fun _ => Run.sparing_pure _

/-! ## Instructions -/

section Instructions

variable {id : Nat} {σ : Setting} {F : Frame} {w : World} {ins : Instruction} {u : Units}

/-- An instruction loads a constant. -/
def LoadsConstant (ins : Instruction) : Prop := ins.op = .ldc ∨ ins.op = .ldcW ∨ ins.op = .ldc2W

instance (ins : Instruction) : Decidable (LoadsConstant ins) :=
  inferInstanceAs (Decidable (_ ∨ _ ∨ _))

/-- The method of the library that an instruction calls. -/
def libraryCall? (σ : Setting) (ins : Instruction) (stack : Stack) (w : World) :
    Option (String × Ref × List Value) :=
  if ins.op.isWithin .invokevirtual .invokeinterface then
    called? σ w stack ins.operand.index (ins.op = .invokestatic)
      (ins.op = .invokevirtual || ins.op = .invokeinterface)
  else none

/-- The units of the string that an instruction asks for: a load of a constant string, or a call
of `intern` on a string. -/
def asks? (σ : Setting) (ins : Instruction) (stack : Stack) (w : World) : Option Units :=
  if LoadsConstant ins then
    match σ.program.cf.pool.value ins.operand.index with
    | .ok c => constantUnits? c
    | .error _ => none
  else
    match libraryCall? σ ins stack w with
    | some (cls, ref, .ref i :: _) =>
      if Library.IsIntern cls ref.name ref.descriptor then
        match w.heap[i]? with
        | some (.string units) => some units
        | _ => none
      else none
    | _ => none

/-- The string that an instruction calls a constructor on. -/
def fills? (σ : Setting) (ins : Instruction) (stack : Stack) (w : World) : Option Nat :=
  match libraryCall? σ ins stack w with
  | some (cls, ref, .ref i :: _) => if Library.IsFill cls ref.name then some i else none
  | _ => none

/-- The strings that an instruction asks for, in order.  A concatenation asks for its
constants. -/
def requests (σ : Setting) (ins : Instruction) (F : Frame) (w : World) : List Units :=
  if ins.op = .invokedynamic then
    match site ins.operand.index σ F w with
    | ((.ok (recipe, values, constants), _), w) =>
      recipeRequests σ.program.cf.pool σ recipe values constants w
    | _ => []
  else (asks? σ ins F.stack w).toList

theorem run_loadsConstant (h : LoadsConstant ins) :
    run ins = (do loadConstant ins.operand.index; return .next ins.next) := by
  obtain ⟨op, operand, wide, offset⟩ := ins
  obtain rfl | rfl | rfl : op = .ldc ∨ op = .ldcW ∨ op = .ldc2W := h
  all_goals rfl

theorem loadsConstant_of_isWithin (h : ins.op.isWithin .ldc .ldc2W = true) : LoadsConstant ins := by
  have hall : ∀ b : UInt8, Opcode.isWithin ⟨b⟩ .ldc .ldc2W = true →
      (⟨b⟩ : Opcode) = .ldc ∨ (⟨b⟩ : Opcode) = .ldcW ∨ (⟨b⟩ : Opcode) = .ldc2W := by
    decide +kernel
  exact hall ins.op.code h

theorem run_isInvoke (h : ins.op.isWithin .invokevirtual .invokeinterface = true) :
    run ins = invoke ins.operand.index (ins.op = .invokestatic)
      (ins.op = .invokevirtual || ins.op = .invokeinterface) ins.next := by
  have hall : ∀ b : UInt8, Opcode.isWithin ⟨b⟩ .invokevirtual .invokeinterface = true →
      (⟨b⟩ : Opcode) = .invokevirtual ∨ (⟨b⟩ : Opcode) = .invokespecial ∨
        (⟨b⟩ : Opcode) = .invokestatic ∨ (⟨b⟩ : Opcode) = .invokeinterface := by
    decide +kernel
  obtain ⟨op, operand, wide, offset⟩ := ins
  obtain rfl | rfl | rfl | rfl : op = .invokevirtual ∨ op = .invokespecial ∨ op = .invokestatic ∨
      op = .invokeinterface := hall op.code h
  all_goals rfl

theorem libraryCall?_of_loadsConstant (h : LoadsConstant ins) :
    libraryCall? σ ins F.stack w = none := by
  have hop : ins.op.isWithin .invokevirtual .invokeinterface = false := by
    rcases h with h | h | h <;> rw [h] <;> rfl
  unfold libraryCall?
  rw [hop]
  rfl

theorem asks?_eq_some :
    asks? σ ins F.stack w = some u ↔
      LoadsConstant ins ∧ σ.program.cf.pool.value ins.operand.index = .ok (.string u) ∨
        ∃ cls ref i rest, libraryCall? σ ins F.stack w = some (cls, ref, .ref i :: rest) ∧
          Library.IsIntern cls ref.name ref.descriptor ∧ w.heap[i]? = some (.string u) := by
  unfold asks?
  by_cases hload : LoadsConstant ins
  · rw [libraryCall?_of_loadsConstant hload]
    simp only [hload, if_true, true_and, reduceCtorEq, false_and, exists_false, or_false]
    cases σ.program.cf.pool.value ins.operand.index with
    | error e => simp
    | ok c => cases c <;> simp [constantUnits?]
  · simp only [hload, if_false, false_and, false_or]
    constructor
    · intro h
      split at h
      · rename_i cls ref i rest hcall
        obtain ⟨hintern, h⟩ := Option.ite_none_right_eq_some.1 h
        split at h
        · rename_i units hi
          obtain rfl := Option.some.inj h
          exact ⟨cls, ref, i, rest, hcall, hintern, hi⟩
        · cases h
      · cases h
    · rintro ⟨cls, ref, i, rest, hcall, hintern, hi⟩
      simp only [hcall, if_pos hintern, hi]

/-- A call that is seen in an instruction comes to the method, which answers. -/
theorem run_libraryCall {cls : String} {ref : Ref} {args : List Value} {method : LibraryMethod}
    {v : Value} {w' : World} (hcall : libraryCall? σ ins F.stack w = some (cls, ref, args))
    (hclone : Library.arrayMethod? (ref.name ++ ref.descriptor) = none)
    (hmethod : Library.declared? cls ref.name ref.descriptor = some method)
    (hanswer : method args σ w = (.ok v, w')) :
    ∃ descriptor rest, Descriptor.parse ref.descriptor = .ok descriptor ∧
      Stack.takeValues (descriptor.params.length + if ins.op = .invokestatic then 0 else 1) F.stack =
        .ok (args, rest) ∧
      run ins σ F w = ((.ok (.next ins.next),
        { F with stack := if descriptor.result ≠ "V" then v :: rest else rest }), w') := by
  obtain ⟨hinvoke, hcall⟩ := Option.ite_none_right_eq_some.1 hcall
  obtain ⟨descriptor, rest, owner, href, hdescriptor, htakes, hreceiver, howner, hway, hcls⟩ :=
    called?_eq_some.1 hcall
  have hfinds : Library.method? σ.program.lineage owner ref = some method := by
    rw [Library.method?_eq, hclone, hcls, Option.bind_some, hmethod]
    split <;> rfl
  rw [run_isInvoke hinvoke]
  exact ⟨descriptor, rest, hdescriptor, by simpa using htakes, invoke_ok.2 ⟨ref, descriptor, args,
    rest, method, v, ⟨href, hdescriptor, htakes, hreceiver, owner, howner, hway, hfinds⟩, hanswer, rfl, rfl⟩⟩

/-- An instruction that asks for a string pushes it, and goes on. -/
theorem run_asks (h : asks? σ ins F.stack w = some u) :
    ∃ rest, run ins σ F w = ((.ok (.next ins.next), { F with stack := .ref (w.sharing u) :: rest }),
      w.withShared u) := by
  obtain ⟨hload, hvalue⟩ | ⟨cls, ref, i, below, hcall, hintern, hi⟩ := asks?_eq_some.1 h
  · rw [run_loadsConstant hload]
    exact ⟨F.stack, go_ok.2 ⟨loadConstant_ok.2
      ⟨_, _, hvalue, Run.intern_sharing σ w u, rfl⟩, rfl⟩⟩
  · have hunits : selfUnits (.ref i :: below) σ w = (.ok u, w) :=
      Run.selfUnits_ok.2 ⟨i, below, rfl, hi, rfl⟩
    obtain ⟨descriptor, rest, hparses, -, hrun⟩ := run_libraryCall hcall hintern.arrayMethod?
      hintern.declared? (Run.bind_ok.2 ⟨u, w, hunits, Run.intern_sharing σ w u⟩)
    rw [hintern.descriptor_eq hparses] at hrun
    exact ⟨rest, hrun⟩

/-- A call of the library comes to a method of arrays, or to one that a class declares and that is
seen in the instruction. -/
theorem CallsLibrary.cases {ref : Ref} {descriptor : Descriptor} {args : List Value}
    {rest : Stack} {method : LibraryMethod}
    (hinvoke : ins.op.isWithin .invokevirtual .invokeinterface = true)
    (h : CallsLibrary σ w F.stack ins.operand.index (ins.op = .invokestatic)
      (ins.op = .invokevirtual || ins.op = .invokeinterface) ref descriptor args rest method) :
    Library.arrayMethod? (ref.name ++ ref.descriptor) = some method ∨
      ∃ cls, libraryCall? σ ins F.stack w = some (cls, ref, args) ∧
        Library.declared? cls ref.name ref.descriptor = some method := by
  obtain ⟨href, hdescriptor, htakes, hreceiver, owner, howner, hway, hmethod⟩ := h
  refine (Library.method?_cases hmethod).imp_right ?_
  rintro ⟨cls, hcls, hdeclared⟩
  exact ⟨cls, Option.ite_none_right_eq_some.2 ⟨hinvoke, called?_eq_some.2
    ⟨descriptor, rest, owner, href, hdescriptor, htakes, hreceiver, howner, hway, hcls⟩⟩, hdeclared⟩

/-- A method keeps a string, unless the call asks for a shared one or fills the string. -/
theorem keeps_call {ref : Ref} {descriptor : Descriptor} {args : List Value} {rest : Stack}
    {method : LibraryMethod} (hinvoke : ins.op.isWithin .invokevirtual .invokeinterface = true)
    (hasks : asks? σ ins F.stack w = none) (hfill : fills? σ ins F.stack w ≠ some id)
    (hcalls : CallsLibrary σ w F.stack ins.operand.index (ins.op = .invokestatic)
      (ins.op = .invokevirtual || ins.op = .invokeinterface) ref descriptor args rest method) :
    w.Keeps id (method args σ w).2 := by
  obtain hclone | ⟨cls, hcall, hdeclared⟩ := hcalls.cases hinvoke
  · exact Library.keeps_of_spares (Library.spares_arrayMethod _) method hclone σ w
  by_cases hintern : Library.IsIntern cls ref.name ref.descriptor
  · -- It is called on no string, as the instruction asks for none, and so it halts.
    obtain rfl := Option.some.inj (hdeclared.symm.trans hintern.declared?)
    refine Run.keeps_bind (Run.keeping_of_sparing (Run.sparing_selfUnits args) σ w)
      fun units w₁ hunits => ?_
    obtain ⟨i, below, rfl, hi, -⟩ := Run.selfUnits_ok.1 hunits
    cases hasks.symm.trans (asks?_eq_some.2 (.inr ⟨cls, ref, i, below, hcall, hintern, hi⟩))
  · refine Library.keeps_declared hintern (fun h hself => hfill ?_) method hdeclared σ w
    cases args with
    | nil => cases hself
    | cons first below =>
      obtain rfl := Option.some.inj hself
      unfold fills?
      rw [hcall]
      exact if_pos h

/-- An instruction keeps a string, unless it asks for shared ones or fills the string. -/
theorem keeps_run (hdynamic : ins.op ≠ .invokedynamic) (hasks : asks? σ ins F.stack w = none)
    (hfill : fills? σ ins F.stack w ≠ some id) : w.Keeps id (run ins σ F w).2 := by
  refine world_run hdynamic (fun w' h => h.keeps nofun) (fun hload c hvalue => ?_)
    fun hinvoke _ _ _ _ _ hcalls => keeps_call hinvoke hasks hfill hcalls
  cases c with
  | string units =>
    cases hasks.symm.trans (asks?_eq_some.2 (.inl ⟨loadsConstant_of_isWithin hload, hvalue⟩))
  | class_ name => exact Run.keeping_of_sparing (Run.sparing_mirror name) σ w
  | _ => exact .refl id w

theorem run_invokeDynamic (h : ins.op = .invokedynamic) :
    run ins = (do invokeDynamic ins.operand.index; return .next ins.next) := by
  obtain ⟨op, operand, wide, offset⟩ := ins
  obtain rfl : op = .invokedynamic := h
  rfl

/-- What follows may spare the objects. -/
theorem requests_bind_sparing {α β : Type} {s : Step α} {k : α → Step β} {us : List Units}
    (h : w.Requests id us (s σ F w).2) (hk : ∀ a, Sparing (k a)) :
    w.Requests id us ((s >>= k) σ F w).2 := by
  rw [step_bind_eq]
  generalize s σ F w = e at h
  obtain ⟨⟨halt | a, F₁⟩, w₁⟩ := e
  · exact h
  · have happend := h.append (.keep ((hk a σ F₁ w₁).keeps nofun))
    rwa [List.append_nil] at happend

/-- A concatenation asks for its constants. -/
theorem requests_run_invokeDynamic (hdynamic : ins.op = .invokedynamic) :
    w.Requests id (requests σ ins F w) (run ins σ F w).2 := by
  rw [run_invokeDynamic hdynamic]
  refine requests_bind_sparing ?_ fun _ => sparing_pure _
  rw [invokeDynamic_eq, step_bind_eq]
  unfold requests
  rw [if_pos hdynamic]
  have hkeeps : w.Keeps id (site ins.operand.index σ F w).2 :=
    (sparing_site ins.operand.index σ F w).keeps nofun
  generalize site ins.operand.index σ F w = e at hkeeps ⊢
  obtain ⟨⟨halt | ⟨recipe, values, constants⟩, F₁⟩, w₁⟩ := e
  · exact .keep hkeeps
  · have hfilled := requests_fillRecipe id σ.program.cf.pool σ recipe values constants w₁
    refine World.Requests.keeps_trans hkeeps ?_
    exact requests_bind_sparing (s := liftM (fillRecipe _ recipe values constants)) hfilled
      fun _ => by grind

/-- An instruction asks for its strings, and changes none that it does not fill. -/
theorem run_requests (hfill : fills? σ ins F.stack w ≠ some id) :
    w.Requests id (requests σ ins F w) (run ins σ F w).2 := by
  by_cases hdynamic : ins.op = .invokedynamic
  · exact requests_run_invokeDynamic hdynamic
  unfold requests
  rw [if_neg hdynamic]
  cases hasks : asks? σ ins F.stack w with
  | none => exact .keep (keeps_run hdynamic hasks hfill)
  | some u =>
    obtain ⟨rest, hrun⟩ := run_asks hasks
    rw [hrun]
    exact World.requests_withShared id w u

end Instructions

end Step

end Cleartext.Machine
