import Cleartext.Proofs.Machine.Answers

/-!
# What a computation shows and what it leaves alone

Two runs of one program under two configurations go the same way until one of them looks
at what differs.  `Run.Blind` says of two computations that they come to the same answer
from worlds that look alike.  With `sight` the two runs have one identity, and alike means
equal.  Without it their caller, their pool size and their code source may differ, and so
may the call stacks that are kept in exceptions; the rest of the worlds is the same.

A computation also leaves a world in order: static fields keep their values, an object
keeps its kind, its class and its fields, and a new object with fields has those of a new
instance (`World.Evolves`).

`Run.Quiet` says both of one computation.  It goes through `>>=`, and so from the primitive
computations to the library and to the instructions.
-/

namespace Cleartext.Machine

/-! ## Worlds that look alike -/

/-- Hidden state without the call stack that an exception was made on. -/
def Hidden.unmarked : Hidden → Hidden
  | .throwable message _ => .throwable message []
  | hidden => hidden

/-- An object without the call stack that it was made on. -/
def Object.unmarked : Object → Object
  | .instance cls fields hidden => .instance cls fields hidden.unmarked
  | o => o

/-- What is compared of an object. -/
def Object.seen (sight : Bool) (o : Object) : Object := if sight then o else o.unmarked

theorem Object.seen_true : Object.seen true = id := rfl

theorem Object.seen_false : Object.seen false = Object.unmarked := rfl

/-- Objects that look alike are the same, apart from the call stacks that exceptions were
made on. -/
theorem Object.cases_of_seen {sight : Bool} {o o' : Object} (h : o.seen sight = o'.seen sight) :
    o = o' ∨ sight = false ∧ ∃ cls fields hidden hidden', o = .instance cls fields hidden ∧
      o' = .instance cls fields hidden' ∧ hidden.unmarked = hidden'.unmarked := by
  cases sight with
  | true => exact .inl h
  | false =>
    rw [seen_false] at h
    rcases o with _ | _ | ⟨cls, fields, hidden⟩ <;> rcases o' with _ | _ | ⟨cls', fields', hidden'⟩ <;>
      simp only [unmarked, reduceCtorEq, Object.instance.injEq] at h
    · exact .inl h
    · exact .inl h
    · obtain ⟨rfl, rfl, hhidden⟩ := h
      exact .inr ⟨rfl, cls, fields, hidden, hidden', rfl, rfl, hhidden⟩

/-- What is compared of a world. -/
def World.seen (sight : Bool) (w : World) : World := { w with heap := w.heap.map (Object.seen sight) }

/-- Two worlds look alike. -/
def World.Alike (sight : Bool) (w w' : World) : Prop := w.seen sight = w'.seen sight

/-- Two settings of one program; with `sight` they have one identity. -/
structure Setting.Alike (sight : Bool) (σ σ' : Setting) : Prop where
  program : σ.program = σ'.program
  active : σ.active = σ'.active
  charsets : σ.config.charsets = σ'.config.charsets
  caller : sight = true → σ.config.caller = σ'.config.caller
  poolSize : sight = true → σ.config.poolSize = σ'.config.poolSize
  codeSource : sight = true → σ.config.codeSource = σ'.config.codeSource

/-! ## Worlds in order -/

/-- An object without its contents: its kind, its class and its fields. -/
def Object.shape : Object → Object
  | .string _ => .string []
  | .array component _ => .array component #[]
  | .instance cls fields _ => .instance cls fields .none

/-- The shape of the object with the given number. -/
def World.shape? (w : World) (id : Nat) : Option Object := w.heap[id]?.map Object.shape

/-- The fields of the instance with the given number. -/
def World.fields? (w : World) (id : Nat) : Option (List (String × Value)) :=
  match w.heap[id]? with
  | some (.instance _ fields _) => fields
  | _ => none

/-- A world as it was left by computations that store to no field: a new object with
fields has those of a new instance. -/
structure World.Evolves (fresh : List (String × Value)) (w w' : World) : Prop where
  statics : w'.statics = w.statics
  size_le : w.heap.size ≤ w'.heap.size
  old : ∀ id < w.heap.size, w'.shape? id = w.shape? id
  new : ∀ id fields, w.heap.size ≤ id → w'.fields? id = some fields → fields = fresh

namespace World

variable {sight : Bool} {w w' w'' : World} {fresh : List (String × Value)} {id : Nat}

theorem fields?_eq_of_shape? (h : w'.shape? id = w.shape? id) : w'.fields? id = w.fields? id := by
  unfold shape? at h
  unfold fields?
  rcases ho : w.heap[id]? with _ | _ | _ | _ <;> rcases ho' : w'.heap[id]? with _ | _ | _ | _ <;>
    simp_all [Object.shape]

theorem Evolves.refl (fresh : List (String × Value)) (w : World) : w.Evolves fresh w where
  statics := rfl
  size_le := Nat.le_refl _
  old _ _ := rfl
  new id fields hid hfields := by
    rw [fields?, Array.getElem?_eq_none hid] at hfields
    cases hfields

theorem Evolves.fields?_eq (h : w.Evolves fresh w') (hid : id < w.heap.size) :
    w'.fields? id = w.fields? id :=
  fields?_eq_of_shape? (h.old id hid)

theorem Evolves.trans (h : w.Evolves fresh w') (h' : w'.Evolves fresh w'') :
    w.Evolves fresh w'' where
  statics := h'.statics.trans h.statics
  size_le := Nat.le_trans h.size_le h'.size_le
  old id hid := (h'.old id (Nat.lt_of_lt_of_le hid h.size_le)).trans (h.old id hid)
  new id fields hid hfields := by
    by_cases hlt : id < w'.heap.size
    · exact h.new id fields hid (h'.fields?_eq hlt ▸ hfields)
    · exact h'.new id fields (Nat.le_of_not_lt hlt) hfields

/-- A world in which the objects changed, but not their shapes. -/
theorem evolves_of_shapes (hstatics : w'.statics = w.statics) (hsize : w'.heap.size = w.heap.size)
    (hshape : ∀ id, w'.shape? id = w.shape? id) : w.Evolves fresh w' where
  statics := hstatics
  size_le := Nat.le_of_eq hsize.symm
  old id _ := hshape id
  new id fields hid hfields := by
    rw [fields?_eq_of_shape? (hshape id), fields?, Array.getElem?_eq_none hid] at hfields
    cases hfields

/-- A world with one object more. -/
theorem evolves_push {o : Object}
    (ho : ∀ cls fields hidden, o = .instance cls (some fields) hidden → fields = fresh) :
    w.Evolves fresh { w with heap := w.heap.push o } where
  statics := rfl
  size_le := by simp
  old id hid := by
    unfold shape?
    rw [Array.getElem?_push_lt hid, Array.getElem?_eq_getElem hid]
  new id fields hid hfields := by
    unfold fields? at hfields
    rw [Array.getElem?_push] at hfields
    split at hfields
    · rename_i cls fields' hidden hget
      split at hget
      · exact ho cls fields hidden (by rw [Option.some.inj hget, hfields])
      · rw [Array.getElem?_eq_none hid] at hget
        cases hget
    · cases hfields

theorem Alike.refl (sight : Bool) (w : World) : w.Alike sight w := rfl

theorem Alike.symm (h : w.Alike sight w') : w'.Alike sight w := Eq.symm h

theorem Alike.trans (h : w.Alike sight w') (h' : w'.Alike sight w'') : w.Alike sight w'' :=
  Eq.trans h h'

theorem Alike.heap (h : w.Alike sight w') :
    w.heap.map (Object.seen sight) = w'.heap.map (Object.seen sight) :=
  congrArg World.heap h

theorem Alike.size_eq (h : w.Alike sight w') : w.heap.size = w'.heap.size := by
  simpa using congrArg Array.size h.heap

theorem Alike.object? (h : w.Alike sight w') (id : Nat) :
    w.heap[id]?.map (Object.seen sight) = w'.heap[id]?.map (Object.seen sight) := by
  simpa using congrArg (·[id]?) h.heap

/-- Alike worlds in which the heap changed, and nothing else. -/
theorem Alike.with_heap (h : w.Alike sight w') {heap heap' : Array Object}
    (hheap : heap.map (Object.seen sight) = heap'.map (Object.seen sight)) :
    Alike sight { w with heap } { w' with heap := heap' } := by
  have hstatics := congrArg World.statics h
  have hmirrors := congrArg World.mirrors h
  have hinterned := congrArg World.interned h
  have hhashes := congrArg World.hashes h
  have hthread := congrArg World.thread h
  simp only [seen] at hstatics hmirrors hinterned hhashes hthread
  simp only [Alike, seen, hheap, hstatics, hmirrors, hinterned, hhashes, hthread]

theorem Alike.with_static (h : w.Alike sight w') (name : String) (v : Value) :
    Alike sight { w with statics := setNamed name v w.statics }
      { w' with statics := setNamed name v w'.statics } := by
  have hseen : w.seen sight = w'.seen sight := h
  exact congrArg (fun w : World => { w with statics := setNamed name v w.statics }) hseen

end World

/-! ## Computations -/

namespace Run

variable {sight : Bool} {α β : Type} {r r' : Run α} {k k' : α → Run β}

/-- Two computations come to the same answer where things look alike, and leave them
alike. -/
def Blind (sight : Bool) (r r' : Run α) : Prop :=
  ∀ σ σ' w w', σ.Alike sight σ' → w.Alike sight w' →
    (r σ w).1 = (r' σ' w').1 ∧ (r σ w).2.Alike sight (r' σ' w').2

/-- A computation leaves the world in order. -/
def Orderly (r : Run α) : Prop :=
  ∀ (σ : Setting) (w : World), w.Evolves (Step.newFields σ.program.cf) (r σ w).2

/-- A computation does not show what differs, and leaves the world in order. -/
structure Quiet (sight : Bool) (r : Run α) : Prop where
  blind : Blind sight r r
  orderly : Orderly r

/-! ### Without sight -/

theorem blind_bind (h : Blind sight r r') (hk : ∀ a, Blind sight (k a) (k' a)) :
    Blind sight (r >>= k) (r' >>= k') := by
  intro σ σ' w w' hσ hw
  obtain ⟨hanswer, hworlds⟩ := h σ σ' w w' hσ hw
  rw [bind_eq, bind_eq]
  generalize r σ w = e at hanswer hworlds
  generalize r' σ' w' = e' at hanswer hworlds
  obtain ⟨answer, w₁⟩ := e
  obtain ⟨answer', w₁'⟩ := e'
  obtain rfl : answer = answer' := hanswer
  cases answer with
  | error halt => exact ⟨rfl, hworlds⟩
  | ok a => exact hk a σ σ' w₁ w₁' hσ hworlds

theorem blind_pure (a : α) : Blind sight (pure a) (pure a) := fun _ _ _ _ _ hw => ⟨rfl, hw⟩

theorem blind_throw (h : Halt) : Blind sight (throw h : Run α) (throw h) :=
  fun _ _ _ _ _ hw => ⟨rfl, hw⟩

theorem blind_alloc {o o' : Object} (ho : o.seen sight = o'.seen sight) :
    Blind sight (alloc o) (alloc o') := by
  intro σ σ' w w' _ hw
  refine ⟨congrArg Except.ok hw.size_eq, hw.with_heap ?_⟩
  rw [Array.map_push, Array.map_push, hw.heap, ho]

theorem blind_update (id : Nat) {f f' : Object → Object}
    (hf : ∀ o o', o.seen sight = o'.seen sight → (f o).seen sight = (f' o').seen sight) :
    Blind sight (update id f) (update id f') := by
  intro σ σ' w w' _ hw
  refine ⟨rfl, hw.with_heap (Array.ext_getElem? fun i => ?_)⟩
  have hi := hw.object? i
  simp only [Array.getElem?_map, Array.getElem?_modify]
  split
  · rcases ho : w.heap[i]? with _ | o <;> rcases ho' : w'.heap[i]? with _ | o' <;>
      simp only [ho, ho', Option.map_none, Option.map_some, reduceCtorEq, Option.some.injEq] at hi ⊢
    exact hf o o' hi
  · exact hi

theorem blind_read_bind {k : Setting → Run β} (hk : ∀ σ, Blind sight (k σ) (k σ))
    (hsame : ∀ σ σ', σ.Alike sight σ' → k σ = k σ') : Blind sight (read >>= k) (read >>= k) := by
  intro σ σ' w w' hσ hw
  have hlook (σ : Setting) (w : World) : (read >>= k) σ w = k σ σ w := rfl
  rw [hlook, hlook, hsame σ σ' hσ]
  exact hk σ' σ σ' w w' hσ hw

/-- A look at the call stack that comes to the same on every call stack. -/
theorem blind_callStack_bind {k : List StackFrame → Run β}
    (hk : ∀ trace trace', (sight = true → trace = trace') → Blind sight (k trace) (k trace')) :
    Blind sight (callStack >>= k) (callStack >>= k) := by
  intro σ σ' w w' hσ hw
  have hstack (σ : Setting) (w : World) : (callStack >>= k) σ w =
      k (let own := σ.active.map fun m => StackFrame.mk σ.program.name m
        if σ.config.caller.cls = "" then own else own ++ [σ.config.caller]) σ w := rfl
  rw [hstack, hstack]
  refine hk _ _ (fun hsight => ?_) σ σ' w w' hσ hw
  rw [hσ.active, hσ.program, hσ.caller hsight]

/-! ### In order -/

/-- A computation leaves the world in order if what follows an answer does so from
there. -/
theorem evolves_bind (h : Orderly r) {σ : Setting} {w : World}
    (hk : ∀ a w₁, r σ w = (.ok a, w₁) → w₁.Evolves (Step.newFields σ.program.cf) (k a σ w₁).2) :
    w.Evolves (Step.newFields σ.program.cf) ((r >>= k) σ w).2 :=
  world_bind .trans (h σ w) hk

theorem orderly_bind (h : Orderly r) (hk : ∀ a, Orderly (k a)) : Orderly (r >>= k) :=
  fun σ _ => evolves_bind h fun a w₁ _ => hk a σ w₁

theorem orderly_of_same (h : ∀ σ w, (r σ w).2 = w) : Orderly r := fun σ w => by
  rw [h]
  exact .refl _ _

theorem orderly_alloc {o : Object}
    (ho : ∀ cls fields hidden, o ≠ .instance cls (some fields) hidden) : Orderly (alloc o) :=
  fun _ _ => World.evolves_push fun cls fields hidden h => absurd h (ho cls fields hidden)

theorem evolves_update {σ : Setting} {w : World} {fresh : List (String × Value)} (id : Nat)
    {f : Object → Object} (hf : ∀ o, w.heap[id]? = some o → (f o).shape = o.shape) :
    w.Evolves fresh (update id f σ w).2 := by
  refine World.evolves_of_shapes rfl (Array.size_modify ..) fun i => ?_
  show (Array.modify w.heap id f)[i]?.map Object.shape = w.heap[i]?.map Object.shape
  rw [Array.getElem?_modify]
  split
  · rename_i hi
    subst hi
    rcases ho : w.heap[id]? with _ | o
    · rfl
    · exact congrArg some (hf o ho)
  · rfl

theorem orderly_update (id : Nat) {f : Object → Object} (hf : ∀ o, (f o).shape = o.shape) :
    Orderly (update id f) :=
  fun _ _ => evolves_update id fun o _ => hf o

/-! ### Quiet computations -/

@[grind ←] theorem quiet_bind (h : Quiet sight r) (hk : ∀ a, Quiet sight (k a)) :
    Quiet sight (r >>= k) :=
  ⟨blind_bind h.blind fun a => (hk a).blind, orderly_bind h.orderly fun a => (hk a).orderly⟩

@[grind ←] theorem quiet_pure (a : α) : Quiet sight (pure a : Run α) :=
  ⟨blind_pure a, orderly_of_same fun _ _ => rfl⟩

@[grind ←] theorem quiet_throw (h : Halt) : Quiet sight (throw h : Run α) :=
  ⟨blind_throw h, orderly_of_same fun _ _ => rfl⟩

@[grind ←] theorem quiet_unsupported (lack : Lack) : Quiet sight (unsupported lack : Run α) :=
  quiet_throw _

@[grind ←] theorem quiet_collapse : Quiet sight (collapse : Run α) := quiet_throw _

@[grind ←] theorem quiet_lift (answer : Except Error α) : Quiet sight (Machine.lift answer) := by
  unfold Machine.lift
  split <;> grind

theorem quiet_ite {c : Prop} [Decidable c] {r' : Run α} (h : Quiet sight r) (h' : Quiet sight r') :
    Quiet sight (if c then r else r') := by
  split
  · exact h
  · exact h'

/-- What an object is made of may decide what follows, without sight apart from its call
stack. -/
theorem quiet_object_bind (id : Nat) {k : Option Object → Run β} (hk : ∀ o, Quiet sight (k o))
    (hunmarked : sight = false → ∀ o, k (o.map Object.unmarked) = k o) :
    Quiet sight (object? id >>= k) where
  blind := by
    intro σ σ' w w' hσ hw
    have hsame : k w.heap[id]? = k w'.heap[id]? := by
      have ho := hw.object? id
      cases sight with
      | true => simpa [Object.seen_true] using congrArg k ho
      | false =>
        rw [← hunmarked rfl w.heap[id]?, ← hunmarked rfl w'.heap[id]?]
        exact congrArg k ho
    have hlook (σ : Setting) (w : World) : (object? id >>= k) σ w = k w.heap[id]? σ w := rfl
    rw [hlook, hlook, hsame]
    exact (hk w'.heap[id]?).blind σ σ' w w' hσ hw
  orderly := orderly_bind (orderly_of_same fun _ _ => rfl) fun o => (hk o).orderly

theorem quiet_deref_bind (v : Value) {k : Option Object → Run β} (hk : ∀ o, Quiet sight (k o))
    (hunmarked : sight = false → ∀ o, k (o.map Object.unmarked) = k o) :
    Quiet sight (deref? v >>= k) := by
  unfold deref?
  split
  · exact quiet_object_bind _ hk hunmarked
  · exact quiet_bind (quiet_pure none) hk

/-- Everything of a world but its heap may decide what follows. -/
theorem quiet_world_bind {k : World → Run β} (hk : ∀ w, Quiet sight (k w))
    (hseen : ∀ w, k (w.seen sight) = k w) : Quiet sight (getThe World >>= k) where
  blind := by
    intro σ σ' w w' hσ hw
    have hsame : k w = k w' := by
      rw [← hseen w, ← hseen w']
      exact congrArg k hw
    have hlook (σ : Setting) (w : World) : (getThe World >>= k) σ w = k w σ w := rfl
    rw [hlook, hlook, hsame]
    exact (hk w').blind σ σ' w w' hσ hw
  orderly := orderly_bind (orderly_of_same fun _ _ => rfl) fun w => (hk w).orderly

/-- The program of a setting may decide what follows, and with sight the identity. -/
theorem quiet_read_bind {k : Setting → Run β} (hk : ∀ σ, Quiet sight (k σ))
    (hsame : ∀ σ σ', σ.Alike sight σ' → k σ = k σ') : Quiet sight (read >>= k) where
  blind := blind_read_bind (fun σ => (hk σ).blind) hsame
  orderly := orderly_bind (orderly_of_same fun _ _ => rfl) fun σ => (hk σ).orderly

/-- A change of what is no heap and no static field. -/
theorem quiet_modify {f : World → World} (hheap : ∀ w, (f w).heap = w.heap)
    (hstatics : ∀ w, (f w).statics = w.statics)
    (hseen : ∀ w, f (w.seen sight) = (f w).seen sight) : Quiet sight (modify f : Run Unit) where
  blind := by
    intro σ σ' w w' _ hw
    refine ⟨rfl, ?_⟩
    show (f w).seen sight = (f w').seen sight
    rw [← hseen, ← hseen]
    exact congrArg f hw
  orderly := by
    intro σ w
    have hshape (id : Nat) : (f w).shape? id = w.shape? id := by rw [World.shape?, hheap]; rfl
    exact World.evolves_of_shapes (hstatics w) (congrArg Array.size (hheap w)) hshape

@[grind ←] theorem quiet_alloc {o : Object}
    (ho : ∀ cls fields hidden, o ≠ .instance cls (some fields) hidden) : Quiet sight (alloc o) :=
  ⟨blind_alloc rfl, orderly_alloc ho⟩

theorem quiet_new {o : Object}
    (ho : ∀ cls fields hidden, o ≠ .instance cls (some fields) hidden) : Quiet sight (new o) :=
  quiet_bind (quiet_alloc ho) fun _ => quiet_pure _

/-- A change of an object that its call stack has no part in, and that keeps its shape. -/
theorem quiet_update (id : Nat) {f : Object → Object} (hshape : ∀ o, (f o).shape = o.shape)
    (hunmarked : ∀ o, f o.unmarked = (f o).unmarked) : Quiet sight (update id f) where
  blind := by
    refine blind_update id fun o o' ho => ?_
    cases sight with
    | true =>
      obtain rfl : o = o' := by simpa [Object.seen_true] using ho
      rfl
    | false =>
      show (f o).unmarked = (f o').unmarked
      rw [← hunmarked, ← hunmarked]
      exact congrArg f ho
  orderly := orderly_update id hshape

theorem quiet_mapM {γ : Type} {f : γ → Run β} (hf : ∀ c, Quiet sight (f c)) (items : List γ) :
    Quiet sight (items.mapM f) := by
  induction items with
  | nil => exact quiet_pure []
  | cons c rest ih =>
    rw [List.mapM_cons]
    exact quiet_bind (hf c) fun _ => quiet_bind ih fun _ => quiet_pure _

end Run

end Cleartext.Machine
