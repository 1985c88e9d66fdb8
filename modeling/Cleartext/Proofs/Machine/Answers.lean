import Cleartext.Machine.Step

/-!
# Computations that come to an answer
-/

namespace Cleartext.Machine

namespace Run

variable {α β : Type} {σ : Setting} {w w' w'' : World} {a : α} {b : β}

theorem bind_eq (r : Run α) (k : α → Run β) (σ : Setting) (w : World) :
    (r >>= k) σ w = match r σ w with
      | (.ok a, w) => k a σ w
      | (.error h, w) => (.error h, w) := by
  show (ExceptT.bind (r σ) fun a => k a σ) w = _
  simp only [ExceptT.bind, ExceptT.mk, bind, StateT.bind, Id]
  rcases r σ w with ⟨h | a, w⟩ <;> rfl

/-- What holds of the states around a computation and of those around what follows its answer
holds of the first and the last of them, if it can be put together. -/
theorem world_bind {R : World → World → Prop} {r : Run α} {k : α → Run β}
    (htrans : ∀ {w w' w''}, R w w' → R w' w'' → R w w'') (h : R w (r σ w).2)
    (hk : ∀ a w₁, r σ w = (.ok a, w₁) → R w₁ (k a σ w₁).2) : R w ((r >>= k) σ w).2 := by
  rw [bind_eq]
  generalize r σ w = e at h hk
  obtain ⟨answer, w₁⟩ := e
  cases answer with
  | error halt => exact h
  | ok a => exact htrans h (hk a w₁ rfl)

theorem bind_ok {x : Run α} {g : α → Run β} :
    (x >>= g) σ w = (.ok b, w'') ↔ ∃ a w', x σ w = (.ok a, w') ∧ g a σ w' = (.ok b, w'') := by
  rw [bind_eq]
  constructor
  · intro h
    split at h
    · exact ⟨_, _, by assumption, h⟩
    · cases h
  · intro h
    obtain ⟨a, w', hx, hg⟩ := h
    rw [hx]
    exact hg

theorem pure_ok {a' : α} : (pure a : Run α) σ w = (.ok a', w') ↔ a' = a ∧ w' = w := by
  change @Eq (Except Halt α × World) (.ok a, w) (.ok a', w') ↔ _
  simp [eq_comm]

theorem throw_ok {h : Halt} : (throw h : Run α) σ w = (.ok a, w') ↔ False := by
  change @Eq (Except Halt α × World) (.error h, w) (.ok a, w') ↔ _
  simp

theorem get_ok {v : World} : (getThe World : Run World) σ w = (.ok v, w') ↔ v = w ∧ w' = w := by
  change @Eq (Except Halt World × World) (.ok w, w) (.ok v, w') ↔ _
  simp [eq_comm]

theorem read_ok {s : Setting} : (read : Run Setting) σ w = (.ok s, w') ↔ s = σ ∧ w' = w := by
  change @Eq (Except Halt Setting × World) (.ok σ, w) (.ok s, w') ↔ _
  simp [eq_comm]

theorem modify_ok {f : World → World} {u : Unit} :
    (modify f : Run Unit) σ w = (.ok u, w') ↔ w' = f w := by
  change @Eq (Except Halt Unit × World) (.ok (), f w) (.ok u, w') ↔ _
  simp [eq_comm]

theorem unsupported_ok {lack : Lack} :
    (unsupported lack : Run α) σ w = (.ok a, w') ↔ False := throw_ok

theorem collapse_ok : (collapse : Run α) σ w = (.ok a, w') ↔ False := throw_ok

theorem lift_ok {x : Except Error α} :
    (Machine.lift x : Run α) σ w = (.ok a, w') ↔ x = .ok a ∧ w' = w := by
  unfold Machine.lift
  split
  · rw [pure_ok, Except.ok.injEq, eq_comm]
  · simp [collapse_ok]
  · simp [throw_ok]

theorem alloc_ok {o : Object} {id : Nat} :
    alloc o σ w = (.ok id, w') ↔ id = w.heap.size ∧ w' = { w with heap := w.heap.push o } := by
  unfold alloc
  simp only [bind_ok, get_ok, modify_ok, pure_ok, exists_and_left, and_assoc, exists_eq_left,
    exists_const]

theorem new_ok {o : Object} {v : Value} :
    new o σ w = (.ok v, w') ↔
      v = .ref w.heap.size ∧ w' = { w with heap := w.heap.push o } := by
  unfold new
  simp only [bind_ok, alloc_ok, pure_ok, exists_and_left, and_assoc, exists_eq_left]

theorem object?_ok {id : Nat} {o : Option Object} :
    object? id σ w = (.ok o, w') ↔ o = w.heap[id]? ∧ w' = w := by
  unfold object?
  simp only [bind_ok, get_ok, pure_ok, exists_and_left, and_assoc, exists_eq_left]

end Run

theorem step_bind_eq {α β : Type} (s : Step α) (k : α → Step β) (σ : Setting) (F : Frame) (w : World) :
    (s >>= k) σ F w = match s σ F w with
      | ((.ok a, F), w) => k a σ F w
      | ((.error h, F), w) => ((.error h, F), w) := by
  show (ExceptT.bind (s σ) fun a => k a σ) F w = _
  simp only [ExceptT.bind, ExceptT.mk, bind, StateT.bind, Id]
  rcases s σ F w with ⟨⟨h | a, F⟩, w⟩ <;> rfl

namespace Step

variable {α β : Type} {σ : Setting} {f f' f'' : Frame} {w w' w'' : World} {a : α} {b : β}

theorem bind_ok {x : Step α} {g : α → Step β} :
    (x >>= g) σ f w = ((.ok b, f''), w'') ↔
      ∃ a f' w', x σ f w = ((.ok a, f'), w') ∧ g a σ f' w' = ((.ok b, f''), w'') := by
  rw [step_bind_eq]
  constructor
  · intro h
    split at h
    · exact ⟨_, _, _, by assumption, h⟩
    · cases h
  · intro h
    obtain ⟨a, f', w', hx, hg⟩ := h
    rw [hx]
    exact hg

theorem pure_ok {a' : α} :
    (pure a : Step α) σ f w = ((.ok a', f'), w') ↔ a' = a ∧ f' = f ∧ w' = w := by
  change @Eq ((Except Halt α × Frame) × World) ((.ok a, f), w) ((.ok a', f'), w') ↔ _
  simp [and_assoc, eq_comm]

theorem ofRun_ok {r : Run α} :
    (liftM r : Step α) σ f w = ((.ok a, f'), w') ↔ r σ w = (.ok a, w') ∧ f' = f := by
  change @Eq ((Except Halt α × Frame) × World) (((r σ w).1, f), (r σ w).2) ((.ok a, f'), w') ↔
    @Eq (Except Halt α × World) (r σ w) (.ok a, w') ∧ _
  rw [Prod.ext_iff, Prod.ext_iff, Prod.ext_iff]
  constructor
  · intro h
    exact ⟨⟨h.1.1, h.2⟩, h.1.2.symm⟩
  · intro h
    exact ⟨⟨h.1.1, h.2.symm⟩, h.1.2⟩

theorem ofRun_bind_ok {r : Run α} {g : α → Step β} :
    ((liftM r : Step α) >>= g) σ f w = ((.ok b, f'), w'') ↔
      ∃ a w', r σ w = (.ok a, w') ∧ g a σ f w' = ((.ok b, f'), w'') := by
  rw [bind_ok]
  constructor
  · intro h
    obtain ⟨a, f₁, w₁, hr, hg⟩ := h
    obtain ⟨hanswer, rfl⟩ := ofRun_ok.1 hr
    exact ⟨a, w₁, hanswer, hg⟩
  · intro h
    obtain ⟨a, w₁, hr, hg⟩ := h
    exact ⟨a, f, w₁, ofRun_ok.2 ⟨hr, rfl⟩, hg⟩

theorem misuse_ok {m : Misuse} : (misuse m : Step α) σ f w = ((.ok a, f'), w') ↔ False := by
  change @Eq ((Except Halt α × Frame) × World) ((.error _, f), w) ((.ok a, f'), w') ↔ _
  simp

theorem get_ok {g : Frame} :
    (getThe Frame : Step Frame) σ f w = ((.ok g, f'), w') ↔ g = f ∧ f' = f ∧ w' = w := by
  change @Eq ((Except Halt Frame × Frame) × World) ((.ok f, f), w) ((.ok g, f'), w') ↔ _
  simp [and_assoc, eq_comm]

theorem read_ok {s : Setting} :
    (read : Step Setting) σ f w = ((.ok s, f'), w') ↔ s = σ ∧ f' = f ∧ w' = w := by
  change @Eq ((Except Halt Setting × Frame) × World) ((.ok σ, f), w) ((.ok s, f'), w') ↔ _
  simp [and_assoc, eq_comm]

theorem push_ok {v : Value} {u : Unit} :
    push v σ f w = ((.ok u, f'), w') ↔ f' = { f with stack := v :: f.stack } ∧ w' = w := by
  change @Eq ((Except Halt Unit × Frame) × World)
    ((.ok (), { f with stack := v :: f.stack }), w) ((.ok u, f'), w') ↔ _
  simp [eq_comm]

theorem setStack_ok {stack : Stack} {u : Unit} :
    setStack stack σ f w = ((.ok u, f'), w') ↔ f' = { f with stack } ∧ w' = w := by
  change @Eq ((Except Halt Unit × Frame) × World)
    ((.ok (), { f with stack }), w) ((.ok u, f'), w') ↔ _
  simp [eq_comm]

theorem pop_ok {v : Value} :
    pop σ f w = ((.ok v, f'), w') ↔
      ∃ rest, f.stack = v :: rest ∧ f' = { f with stack := rest } ∧ w' = w := by
  unfold pop
  simp only [bind_ok, get_ok, exists_and_left, and_assoc, exists_eq_left]
  cases f.stack with
  | nil => simp [misuse_ok]
  | cons v' rest =>
    simp only [bind_ok, setStack_ok, pure_ok, exists_and_left, and_assoc, exists_eq_left, 
      exists_const, List.cons.injEq, @eq_comm _ v']
    simp

theorem load_ok {slot : UInt16} {v : Value} :
    load slot σ f w = ((.ok v, f'), w') ↔
      f.locals[slot.toNat]? = some v ∧ f' = f ∧ w' = w := by
  unfold load
  simp only [bind_ok, get_ok, exists_and_left, and_assoc, exists_eq_left]
  cases f.locals[slot.toNat]? with
  | none => simp [misuse_ok]
  | some v' => simp [pure_ok, @eq_comm _ v']

theorem wrongKind_ok {expected : String} {v : Value} :
    (wrongKind expected v : Step α) σ f w = ((.ok a, f'), w') ↔ False := by
  unfold wrongKind
  simp only [bind_ok, misuse_ok, and_false, exists_false]

theorem popInt_ok {n : Int32} :
    popInt σ f w = ((.ok n, f'), w') ↔
      ∃ rest, f.stack = .int n :: rest ∧ f' = { f with stack := rest } ∧ w' = w := by
  unfold popInt
  simp only [bind_ok, pop_ok]
  constructor
  · intro h
    obtain ⟨v, _, _, ⟨rest, hstack, rfl, rfl⟩, h⟩ := h
    cases v with
    | int n' =>
      obtain ⟨rfl, rfl, rfl⟩ := pure_ok.1 h
      exact ⟨rest, hstack, rfl, rfl⟩
    | _ => exact (wrongKind_ok.1 h).elim
  · intro h
    obtain ⟨rest, hstack, rfl, rfl⟩ := h
    exact ⟨_, _, _, ⟨rest, hstack, rfl, rfl⟩, pure_ok.2 ⟨rfl, rfl, rfl⟩⟩

theorem popRef_ok {v : Value} (h : popRef σ f w = ((.ok v, f'), w')) :
    ∃ rest, f.stack = v :: rest ∧ f' = { f with stack := rest } ∧ w' = w := by
  obtain ⟨v', _, _, hpop, hkind⟩ := bind_ok.1 h
  obtain ⟨rest, hstack, rfl, rfl⟩ := pop_ok.1 hpop
  split at hkind
  case h_4 =>
    obtain ⟨_, _, _, -, hmisuse⟩ := bind_ok.1 hkind
    exact (misuse_ok.1 hmisuse).elim
  all_goals
    obtain ⟨rfl, rfl, rfl⟩ := pure_ok.1 hkind
    exact ⟨rest, hstack, rfl, rfl⟩

theorem popValues_ok {n : Nat} {values : List Value} :
    popValues n σ f w = ((.ok values, f'), w') ↔
      ∃ rest, Stack.takeValues n f.stack = .ok (values, rest) ∧
        f' = { f with stack := rest } ∧ w' = w := by
  unfold popValues
  simp only [bind_ok, get_ok, exists_and_left, and_assoc, exists_eq_left]
  cases Stack.takeValues n f.stack with
  | error m => simp [misuse_ok]
  | ok taken =>
    obtain ⟨values', rest⟩ := taken
    simp only [bind_ok, setStack_ok, pure_ok, exists_and_left, and_assoc, exists_eq_left,
      exists_const, Except.ok.injEq, Prod.mk.injEq, @eq_comm _ values']
    simp

theorem lookup_ok {x : Except Error α} :
    lookup x σ f w = ((.ok a, f'), w') ↔ x = .ok a ∧ f' = f ∧ w' = w := by
  unfold lookup
  rw [ofRun_ok, Run.lift_ok, and_assoc, @and_comm (w' = w)]

end Step

/-! ## Calls of the library -/

/-- The class of a value in a world. -/
def World.classOf (w : World) (v : Value) : String :=
  match v with
  | .ref id =>
    match w.heap[id]? with
    | some (.string _) => "java/lang/String"
    | some (.array component _) => "[" ++ component
    | some (.instance cls _ _) => cls
    | none => topClass
  | _ => topClass

theorem World.classOf_instance {w : World} {id : Nat} {cls : String}
    {fields : Option (List (String × Value))} {hidden : Hidden}
    (h : w.heap[id]? = some (.instance cls fields hidden)) : w.classOf (.ref id) = cls := by
  simp only [classOf, h]

theorem Run.runtimeClass_ok {σ : Setting} {w w' : World} {v : Value} {cls : String} :
    runtimeClass v σ w = (.ok cls, w') ↔ cls = w.classOf v ∧ w' = w := by
  have heq : runtimeClass v σ w = (.ok (w.classOf v), w) := by
    unfold runtimeClass deref? World.classOf
    cases v with
    | ref id =>
      dsimp only
      refine bind_ok.2 ⟨_, _, object?_ok.2 ⟨rfl, rfl⟩, ?_⟩
      rcases w.heap[id]? with _ | _ | _ | _ <;> rfl
    | _ => rfl
  rw [heq]
  change @Eq (Except Halt String × World) (.ok (w.classOf v), w) (.ok cls, w') ↔ _
  simp [eq_comm]

theorem Run.throwNew_ok {α : Type} {σ : Setting} {w w' : World} {cls message : String} {a : α} :
    (throwNew cls message : Run α) σ w = (.ok a, w') ↔ False := by
  unfold throwNew
  refine ⟨fun h => ?_, False.elim⟩
  obtain ⟨trace, w₁, -, hmessage⟩ := bind_ok.1 h
  have hthrow : ∀ (message : Option Nat) (w₁ : World),
      ¬ ((do throw (.thrown (← alloc (.instance cls none (.throwable message trace)))) : Run α) σ w₁ =
        (.ok a, w')) := by
    intro message w₁ h
    obtain ⟨id, w₂, -, hthrow⟩ := bind_ok.1 h
    exact throw_ok.1 hthrow
  split at hmessage
  · obtain ⟨_, _, -, hrest⟩ := bind_ok.1 hmessage
    exact hthrow _ _ hrest
  · obtain ⟨_, _, -, hrest⟩ := bind_ok.1 hmessage
    exact hthrow _ _ hrest

namespace Step

variable {σ : Setting} {f f' : Frame} {w w' : World}

/-- A call comes to a method of the library: `args` are taken from the stack, on which `rest`
stays.  No method of the class itself is in the way. -/
structure CallsLibrary (σ : Setting) (w : World) (stack : Stack) (index : UInt16)
    (isStatic isVirtual : Bool) (ref : Ref) (descriptor : Descriptor) (args : List Value)
    (rest : Stack) (method : LibraryMethod) : Prop where
  names : σ.program.cf.pool.ref index = .ok ref
  parses : Descriptor.parse ref.descriptor = .ok descriptor
  takes : Stack.takeValues (descriptor.params.length + if isStatic then 0 else 1) stack =
    .ok (args, rest)
  receiver : (!isStatic && args.head? = some .null) = false
  finds : ∃ owner, owner = (if isVirtual then w.classOf (args.headD .null) else ref.owner) ∧
    (owner = σ.program.name → σ.program.routine? ref.name ref.descriptor = none) ∧
    Library.method? σ.program.lineage owner ref = some method

private theorem return_ok {result : String} {v : Value} {next : Int} {o : Outcome} :
    ((if result ≠ "V" then do
        push v
        pure (.next next)
      else pure (.next next) : Step Outcome) σ f w) = ((.ok o, f'), w') ↔
      o = .next next ∧ f' = { f with stack := if result ≠ "V" then v :: f.stack else f.stack } ∧
        w' = w := by
  split
  · simp only [bind_ok, push_ok, pure_ok, exists_and_left, and_assoc, exists_eq_left, exists_const]
  · exact pure_ok

/-- What a call does when it is known what it is called on. -/
private theorem answer_ok {next pc : Int} {owner : String} {ref : Ref} {args : List Value}
    {result : String} :
    ((match (if owner = σ.program.name then σ.program.routine? ref.name ref.descriptor else none) with
      | some routine => pure (.enter routine args (result ≠ "V"))
      | none =>
        match Library.method? σ.program.lineage owner ref with
        | none => liftM (unsupported (.libraryMethod ref.text) : Run Outcome)
        | some method => do
          let v ← liftM (method args)
          if result ≠ "V" then do
            push v
            pure (.next next)
          else pure (.next next) : Step Outcome) σ f w) = ((.ok (.next pc), f'), w') ↔
      ∃ method v, (owner = σ.program.name → σ.program.routine? ref.name ref.descriptor = none) ∧
        Library.method? σ.program.lineage owner ref = some method ∧
        method args σ w = (.ok v, w') ∧ pc = next ∧
        f' = { f with stack := if result ≠ "V" then v :: f.stack else f.stack } := by
  cases hown : (if owner = σ.program.name then σ.program.routine? ref.name ref.descriptor
      else none) with
  | some routine =>
    obtain ⟨howner, hroutine⟩ := Option.ite_none_right_eq_some.1 hown
    simp [pure_ok, howner, hroutine]
  | none =>
    have hnone : owner = σ.program.name → σ.program.routine? ref.name ref.descriptor = none := by
      intro howner
      rwa [if_pos howner] at hown
    cases hmethod : Library.method? σ.program.lineage owner ref with
    | none => simp [ofRun_ok, Run.unsupported_ok]
    | some method =>
      dsimp only
      constructor
      · intro h
        obtain ⟨v, w₁, hv, hreturn⟩ := ofRun_bind_ok.1 h
        obtain ⟨hpc, hf, rfl⟩ := return_ok.1 hreturn
        exact ⟨method, v, hnone, rfl, hv, Outcome.next.inj hpc, hf⟩
      · intro h
        obtain ⟨_, v, -, heq, hv, rfl, hf⟩ := h
        obtain rfl := Option.some.inj heq
        exact ofRun_bind_ok.2 ⟨v, w', hv, return_ok.2 ⟨rfl, hf, rfl⟩⟩

/-- A call that goes on behind itself was one of the library. -/
theorem invoke_ok {index : UInt16} {isStatic isVirtual : Bool} {next pc : Int} :
    invoke index isStatic isVirtual next σ f w = ((.ok (.next pc), f'), w') ↔
      ∃ ref descriptor args rest method v,
        CallsLibrary σ w f.stack index isStatic isVirtual ref descriptor args rest method ∧
        method args σ w = (.ok v, w') ∧ pc = next ∧
        f' = { f with stack := if descriptor.result ≠ "V" then v :: rest else rest } := by
  unfold invoke
  simp only [bind_ok, read_ok, lookup_ok, popValues_ok, exists_and_left, exists_eq_left, and_assoc]
  constructor
  · intro h
    obtain ⟨ref, href, descriptor, hdescriptor, args, _, _, ⟨rest, hargs, rfl, rfl⟩, h⟩ := h
    split at h
    · obtain ⟨_, _, hthrow, -⟩ := ofRun_bind_ok.1 h
      exact (Run.throwNew_ok.1 hthrow).elim
    · rename_i hreceiver
      replace hreceiver := Bool.eq_false_iff.2 hreceiver
      cases isVirtual with
      | true =>
        obtain ⟨owner, _, howner, h⟩ := ofRun_bind_ok.1 h
        obtain ⟨rfl, rfl⟩ := Run.runtimeClass_ok.1 howner
        obtain ⟨method, v, hnone, hmethod, hv, hf⟩ := answer_ok.1 h
        exact ⟨ref, descriptor, args, rest, method,
          ⟨href, hdescriptor, hargs, hreceiver, _, rfl, hnone, hmethod⟩, v, hv, hf⟩
      | false =>
        obtain ⟨owner, _, _, howner, h⟩ := bind_ok.1 h
        obtain ⟨rfl, rfl, rfl⟩ := pure_ok.1 howner
        obtain ⟨method, v, hnone, hmethod, hv, hf⟩ := answer_ok.1 h
        exact ⟨ref, descriptor, args, rest, method,
          ⟨href, hdescriptor, hargs, hreceiver, _, rfl, hnone, hmethod⟩, v, hv, hf⟩
  · intro h
    obtain ⟨ref, descriptor, args, rest, method, ⟨href, hdescriptor, hargs, hreceiver, owner, howner,
      hnone, hmethod⟩, v, hv, hpc, hf⟩ := h
    refine ⟨ref, href, descriptor, hdescriptor, args, _, _, ⟨rest, hargs, rfl, rfl⟩, ?_⟩
    rw [if_neg (Bool.eq_false_iff.1 hreceiver)]
    have hanswer := (@answer_ok σ { f with stack := rest } f' w w' next pc owner ref args
      descriptor.result).2 ⟨method, v, hnone, hmethod, hv, hpc, hf⟩
    cases isVirtual with
    | true => exact ofRun_bind_ok.2 ⟨_, _, Run.runtimeClass_ok.2 ⟨howner, rfl⟩, hanswer⟩
    | false => exact bind_ok.2 ⟨_, _, _, pure_ok.2 ⟨howner, rfl, rfl⟩, hanswer⟩

end Step

end Cleartext.Machine
