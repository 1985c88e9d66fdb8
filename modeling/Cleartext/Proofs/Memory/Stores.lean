import Cleartext.Proofs.Machine.Invocation
import Cleartext.Proofs.Quiet.Steps

/-!
# Stores to fields

A field of the interpreted class is a variable, with a name and a descriptor
(`Variable`).  The machine keeps its value by the name alone (`Variable.place`), so fields
of one name share a place.

* `Step.store?` and `Step.load?` read off an instruction which variable it is about to
  store to or to load.
* `Step.run_after`: an instruction that stores changes the value at one place and nothing
  else; any other leaves all of them alone.
* `Step.run_load`: a load gives the value at the place.
* `Plan.Linked`: the rounds of a run lead from world to world, and so by stores alone
  (`Plan.Linked.threaded`).
-/

namespace Cleartext.Machine

/-! ## Variables and places -/

/-- A field of the interpreted class, or of one of its instances. -/
inductive Variable
  | static (name descriptor : String)
  | field (id : Nat) (name descriptor : String)
deriving DecidableEq, Repr

/-- Where the machine keeps a field: the instance, if it belongs to one, and the name. -/
def Variable.place : Variable → Option Nat × String
  | static name _ => (none, name)
  | field id name _ => (some id, name)

/-- The value at a place. -/
def World.value? (w : World) : Option Nat × String → Option Value
  | (none, name) => named? w.statics name
  | (some id, name) => (w.fields? id).bind (named? · name)

/-- A world in which a value was stored to a variable, and nothing else to any field. -/
structure World.Stored (x : Variable) (v : Value) (w w' : World) : Prop where
  size_eq : w'.heap.size = w.heap.size
  instances : ∀ id, (w'.fields? id).isSome = (w.fields? id).isSome
  known : ∀ id, x.place.1 = some id → id < w.heap.size
  value : ∀ place, w'.value? place = if place = x.place then some v else w.value? place

/-- A world as an instruction left it that stores to a field, or does not. -/
def World.After (fresh : List (String × Value)) (store : Option (Variable × Value)) (w w' : World) :
    Prop :=
  match store with
  | none => w.Evolves fresh w'
  | some (x, v) => w.Stored x v w'

namespace World

variable {w w' : World} {id : Nat}

theorem lt_of_fields? {fields : List (String × Value)} (h : w.fields? id = some fields) :
    id < w.heap.size := by
  by_contra hle
  rw [fields?, Array.getElem?_eq_none (Nat.le_of_not_lt hle)] at h
  cases h

theorem exists_of_fields? {fields : List (String × Value)} (h : w.fields? id = some fields) :
    ∃ cls hidden, w.heap[id]? = some (.instance cls (some fields) hidden) := by
  unfold fields? at h
  split at h
  · rename_i cls fields' hidden hget
    exact ⟨cls, hidden, by rw [hget, h]⟩
  · cases h

theorem stored_static (name descriptor : String) (v : Value) :
    w.Stored (.static name descriptor) v { w with statics := setNamed name v w.statics } where
  size_eq := rfl
  instances _ := rfl
  known _ h := by cases h
  value := by
    rintro ⟨_ | id, other⟩
    · show named? (setNamed name v w.statics) other = _
      rw [named?_setNamed]
      simp [Variable.place, value?]
    · simp [Variable.place, value?, fields?]

theorem stored_field (name descriptor : String) (v : Value) {fields : List (String × Value)}
    (h : w.fields? id = some fields) :
    w.Stored (.field id name descriptor) v
      { w with heap := w.heap.modify id (Step.setField name v fields) } := by
  obtain ⟨cls, hidden, hget⟩ := exists_of_fields? h
  have hsame : fields? { w with heap := w.heap.modify id (Step.setField name v fields) } id =
      some (setNamed name v fields) := by
    unfold fields?
    rw [Array.getElem?_modify, if_pos rfl, hget]
    rfl
  have hother {other : Nat} (hne : other ≠ id) :
      fields? { w with heap := w.heap.modify id (Step.setField name v fields) } other =
        w.fields? other := by
    unfold fields?
    rw [Array.getElem?_modify, if_neg (Ne.symm hne)]
  refine ⟨Array.size_modify .., fun other => ?_, ?_, ?_⟩
  · by_cases hid : other = id
    · rw [hid, hsame, h]
      rfl
    · rw [hother hid]
  · rintro _ ⟨⟩
    exact lt_of_fields? h
  · rintro ⟨_ | other, n⟩
    · simp [Variable.place, value?]
    · by_cases hid : other = id
      · subst hid
        simp [Variable.place, value?, hsame, h, named?_setNamed]
      · simp [Variable.place, value?, hother hid, hid]

end World

namespace Step

variable {σ : Setting} {F F' : Frame} {w w' : World} {ins : Instruction} {x : Variable} {v : Value}
  {rest : Stack}

/-- The variable that an instruction stores to, with the value. -/
def store? (program : Program) (ins : Instruction) (stack : Stack) (w : World) :
    Option (Variable × Value) :=
  match program.cf.pool.ref ins.operand.index, stack with
  | .ok ref, v :: rest =>
    if ref.owner ≠ program.name then none
    else if ins.op = .putstatic then some (.static ref.name ref.descriptor, v)
    else if ins.op = .putfield then
      match rest with
      | .ref id :: _ =>
        if (w.fields? id).isSome then some (.field id ref.name ref.descriptor, v) else none
      | _ => none
    else none
  | _, _ => none

/-- The variable that an instruction loads, with the values that stay below. -/
def load? (program : Program) (ins : Instruction) (stack : Stack) (w : World) :
    Option (Variable × Stack) :=
  match program.cf.pool.ref ins.operand.index with
  | .ok ref =>
    if ref.owner ≠ program.name then none
    else if ins.op = .getstatic then some (.static ref.name ref.descriptor, stack)
    else if ins.op = .getfield then
      match stack with
      | .ref id :: rest =>
        if (w.fields? id).isSome then some (.field id ref.name ref.descriptor, rest) else none
      | _ => none
    else none
  | .error _ => none

/-! ## One instruction -/

theorem run_putStatic (h : ins.op = .putstatic) :
    run ins = (do putStatic ins.operand.index; return .next ins.next) := by
  obtain ⟨op, operand, wide, offset⟩ := ins
  obtain rfl : op = .putstatic := h
  rfl

theorem run_putField (h : ins.op = .putfield) :
    run ins = (do putField ins.operand.index; return .next ins.next) := by
  obtain ⟨op, operand, wide, offset⟩ := ins
  obtain rfl : op = .putfield := h
  rfl

theorem run_getStatic (h : ins.op = .getstatic) :
    run ins = (do getStatic ins.operand.index; return .next ins.next) := by
  obtain ⟨op, operand, wide, offset⟩ := ins
  obtain rfl : op = .getstatic := h
  rfl

theorem run_getField (h : ins.op = .getfield) :
    run ins = (do getField ins.operand.index; return .next ins.next) := by
  obtain ⟨op, operand, wide, offset⟩ := ins
  obtain rfl : op = .getfield := h
  rfl

theorem fieldRef_ok {index : UInt16} {ref : Ref} :
    fieldRef index σ F w = ((.ok ref, F'), w') ↔
      σ.program.cf.pool.ref index = .ok ref ∧ ref.owner = σ.program.name ∧ F' = F ∧ w' = w := by
  unfold fieldRef
  simp only [bind_ok, read_ok, lookup_ok, exists_and_left, and_assoc, exists_eq_left]
  constructor
  · rintro ⟨ref', href, h⟩
    split at h
    · obtain ⟨_, _, hthrow, -⟩ := ofRun_bind_ok.1 h
      exact (Run.unsupported_ok.1 hthrow).elim
    · rename_i howner
      obtain ⟨rfl, rfl, rfl⟩ := pure_ok.1 h
      exact ⟨href, of_not_not howner, rfl, rfl⟩
  · rintro ⟨href, howner, rfl, rfl⟩
    refine ⟨ref, href, ?_⟩
    rw [if_neg (not_not.2 howner)]
    exact pure_ok.2 ⟨rfl, rfl, rfl⟩

theorem fieldOwner_ok {target : Value} {id : Nat} {fields : List (String × Value)} :
    fieldOwner target σ w = (.ok (id, fields), w') ↔
      target = .ref id ∧ w.fields? id = some fields ∧ w' = w := by
  have hunsupported {r : Run (Nat × List (String × Value))}
      (h : r = (do unsupported (.fieldAccess (← Machine.className target)))) :
      r σ w ≠ (.ok (id, fields), w') := by
    intro hok
    rw [h] at hok
    obtain ⟨_, _, -, hthrow⟩ := Run.bind_ok.1 hok
    exact Run.unsupported_ok.1 hthrow
  cases target with
  | null => exact ⟨fun h => (Run.throwNew_ok.1 h).elim, fun h => by cases h.1⟩
  | ref other =>
    unfold fieldOwner
    simp only [Run.bind_ok, Run.object?_ok, exists_and_left, and_assoc, exists_eq_left, Value.ref.injEq]
    constructor
    · intro h
      rcases hget : w.heap[other]? with _ | _ | _ | ⟨cls, _ | fields', hidden⟩ <;> rw [hget] at h
      case some.instance.some =>
        obtain ⟨hpair, rfl⟩ := Run.pure_ok.1 h
        obtain ⟨rfl, rfl⟩ := Prod.mk.inj hpair
        exact ⟨rfl, by rw [World.fields?, hget], rfl⟩
      all_goals exact absurd h (hunsupported rfl)
    · rintro ⟨rfl, hfields, rfl⟩
      obtain ⟨cls, hidden, hget⟩ := World.exists_of_fields? hfields
      rw [hget]
      exact Run.pure_ok.2 ⟨rfl, rfl⟩
  | _ => exact ⟨fun h => absurd h (hunsupported rfl), fun h => by cases h.1⟩

theorem popRef_ref {id : Nat} (h : F.stack = .ref id :: rest) :
    popRef σ F w = ((.ok (.ref id), { F with stack := rest }), w) :=
  bind_ok.2 ⟨_, _, _, pop_ok.2 ⟨rest, h, rfl, rfl⟩, pure_ok.2 ⟨rfl, rfl, rfl⟩⟩

theorem store?_eq_some {program : Program} {stack : Stack} :
    store? program ins stack w = some (x, v) ↔
      ∃ ref below, program.cf.pool.ref ins.operand.index = .ok ref ∧ ref.owner = program.name ∧
        stack = v :: below ∧ (ins.op = .putstatic ∧ x = .static ref.name ref.descriptor ∨
          ins.op = .putfield ∧ ∃ id rest, below = .ref id :: rest ∧ (w.fields? id).isSome = true ∧
            x = .field id ref.name ref.descriptor) := by
  unfold store?
  constructor
  · intro h
    split at h
    · rename_i ref u below href
      split_ifs at h with howner hstatic hfield
      · obtain ⟨rfl, rfl⟩ := Prod.mk.inj (Option.some.inj h)
        exact ⟨ref, below, href, of_not_not howner, rfl, .inl ⟨hstatic, rfl⟩⟩
      · split at h
        · rename_i id rest
          obtain ⟨hsome, heq⟩ := Option.ite_none_right_eq_some.1 h
          obtain ⟨rfl, rfl⟩ := Prod.mk.inj (Option.some.inj heq)
          exact ⟨ref, _, href, of_not_not howner, rfl, .inr ⟨hfield, id, rest, rfl, hsome, rfl⟩⟩
        · cases h
    · cases h
  · rintro ⟨ref, below, href, howner, rfl, ⟨hop, rfl⟩ | ⟨hop, id, rest, rfl, hsome, rfl⟩⟩
    · simp [href, howner, hop]
    · simp [href, howner, hop, hsome, Opcode.putstatic, Opcode.putfield]

theorem load?_eq_some {program : Program} {stack : Stack} :
    load? program ins stack w = some (x, rest) ↔
      ∃ ref, program.cf.pool.ref ins.operand.index = .ok ref ∧ ref.owner = program.name ∧
        (ins.op = .getstatic ∧ rest = stack ∧ x = .static ref.name ref.descriptor ∨
          ins.op = .getfield ∧ ∃ id, stack = .ref id :: rest ∧ (w.fields? id).isSome = true ∧
            x = .field id ref.name ref.descriptor) := by
  unfold load?
  constructor
  · intro h
    split at h
    · rename_i ref href
      split_ifs at h with howner hstatic hfield
      · obtain ⟨rfl, rfl⟩ := Prod.mk.inj (Option.some.inj h)
        exact ⟨ref, href, of_not_not howner, .inl ⟨hstatic, rfl, rfl⟩⟩
      · split at h
        · rename_i id below
          obtain ⟨hsome, heq⟩ := Option.ite_none_right_eq_some.1 h
          obtain ⟨rfl, rfl⟩ := Prod.mk.inj (Option.some.inj heq)
          exact ⟨ref, href, of_not_not howner, .inr ⟨hfield, id, rfl, hsome, rfl⟩⟩
        · cases h
    · cases h
  · rintro ⟨ref, href, howner, ⟨hop, rfl, rfl⟩ | ⟨hop, id, rfl, hsome, rfl⟩⟩
    · simp [href, howner, hop]
    · simp [href, howner, hop, hsome, Opcode.getstatic, Opcode.getfield]

theorem evolves_bind {α β : Type} {s : Step α} {k : α → Step β}
    (hs : Quiet true s)
    (hk : ∀ a F₁ w₁, s σ F w = ((.ok a, F₁), w₁) →
      w₁.Evolves (newFields σ.program.cf) (k a σ F₁ w₁).2) :
    w.Evolves (newFields σ.program.cf) ((s >>= k) σ F w).2 := by
  have h := hs.orderly σ F w
  rw [step_bind_eq]
  generalize s σ F w = e at h hk
  obtain ⟨⟨answer, F₁⟩, w₁⟩ := e
  cases answer with
  | error halt => exact h
  | ok a => exact h.trans (hk a F₁ w₁ rfl)

theorem putStatic_after (h : ins.op = .putstatic) :
    w.After (newFields σ.program.cf) (store? σ.program ins F.stack w)
      (putStatic ins.operand.index σ F w).2 := by
  cases hstore : store? σ.program ins F.stack w with
  | none =>
    refine evolves_bind (quiet_fieldRef _) fun ref F₁ w₁ hfound => ?_
    obtain ⟨href, howner, rfl, rfl⟩ := fieldRef_ok.1 hfound
    refine evolves_bind quiet_pop fun u F₂ w₂ hpop => ?_
    obtain ⟨below, hstack, rfl, rfl⟩ := pop_ok.1 hpop
    cases hstore.symm.trans (store?_eq_some.2 ⟨ref, below, href, howner, hstack, .inl ⟨h, rfl⟩⟩)
  | some store =>
    obtain ⟨ref, below, href, howner, hstack, ⟨-, hx⟩ | ⟨hop, -⟩⟩ := store?_eq_some.1 hstore
    · have hput : putStatic ins.operand.index σ F w =
          ((.ok (), { F with stack := below }), { w with statics := setNamed ref.name store.2 w.statics }) :=
        bind_ok.2 ⟨ref, F, w, fieldRef_ok.2 ⟨href, howner, rfl, rfl⟩,
          bind_ok.2 ⟨store.2, _, w, pop_ok.2 ⟨below, hstack, rfl, rfl⟩, rfl⟩⟩
      rw [hput]
      show w.Stored store.1 store.2 _
      rw [hx]
      exact World.stored_static _ _ _
    · rw [h] at hop
      cases hop

theorem putField_after (h : ins.op = .putfield) :
    w.After (newFields σ.program.cf) (store? σ.program ins F.stack w)
      (putField ins.operand.index σ F w).2 := by
  cases hstore : store? σ.program ins F.stack w with
  | none =>
    refine evolves_bind (quiet_fieldRef _) fun ref F₁ w₁ hfound => ?_
    obtain ⟨href, howner, rfl, rfl⟩ := fieldRef_ok.1 hfound
    refine evolves_bind quiet_pop fun u F₂ w₂ hpop => ?_
    obtain ⟨below, hstack, rfl, rfl⟩ := pop_ok.1 hpop
    refine evolves_bind quiet_popRef fun target F₃ w₃ htarget => ?_
    obtain ⟨rest, hbelow, rfl, rfl⟩ := popRef_ok htarget
    refine evolves_bind (quiet_ofRun (quiet_fieldOwner target)) fun found F₄ w₄ howned => ?_
    obtain ⟨⟨rfl, hfields, rfl⟩, -⟩ := (ofRun_ok.1 howned).imp_left fieldOwner_ok.1
    cases hstore.symm.trans (store?_eq_some.2 ⟨ref, below, href, howner, hstack,
      .inr ⟨h, found.1, rest, hbelow, by rw [hfields]; rfl, rfl⟩⟩)
  | some store =>
    obtain ⟨ref, below, href, howner, hstack, ⟨hop, -⟩ | ⟨-, id, rest, rfl, hsome, hx⟩⟩ :=
      store?_eq_some.1 hstore
    · rw [h] at hop
      cases hop
    · obtain ⟨fields, hfields⟩ := Option.isSome_iff_exists.1 hsome
      have hput : putField ins.operand.index σ F w = ((.ok (), { F with stack := rest }),
          { w with heap := w.heap.modify id (setField ref.name store.2 fields) }) :=
        bind_ok.2 ⟨ref, F, w, fieldRef_ok.2 ⟨href, howner, rfl, rfl⟩,
          bind_ok.2 ⟨store.2, _, w, pop_ok.2 ⟨_, hstack, rfl, rfl⟩,
          bind_ok.2 ⟨.ref id, _, w, popRef_ref rfl,
          ofRun_bind_ok.2 ⟨(id, fields), w, fieldOwner_ok.2 ⟨rfl, hfields, rfl⟩, rfl⟩⟩⟩⟩
      rw [hput]
      show w.Stored store.1 store.2 _
      rw [hx]
      exact World.stored_field _ _ _ hfields

/-- Stores change the value at one place and nothing else; any other instruction leaves all
values alone. -/
theorem run_after (ins : Instruction) (σ : Setting) (F : Frame) (w : World) :
    w.After (newFields σ.program.cf) (store? σ.program ins F.stack w) (run ins σ F w).2 := by
  have hgo (s : Step Unit) : ((do s; return .next ins.next : Step Outcome) σ F w).2 = (s σ F w).2 := by
    rw [step_bind_eq]
    rcases s σ F w with ⟨⟨_ | _, F₁⟩, w₁⟩ <;> rfl
  by_cases hstatic : ins.op = .putstatic
  · rw [run_putStatic hstatic, hgo]
    exact putStatic_after hstatic
  by_cases hfield : ins.op = .putfield
  · rw [run_putField hfield, hgo]
    exact putField_after hfield
  have hnone : store? σ.program ins F.stack w = none := by
    cases hstore : store? σ.program ins F.stack w with
    | none => rfl
    | some store =>
      obtain ⟨_, _, -, -, -, ⟨hop, -⟩ | ⟨hop, -⟩⟩ := store?_eq_some.1 hstore
      · exact absurd hop hstatic
      · exact absurd hop hfield
  rw [hnone]
  exact run_orderly hstatic hfield σ F w

/-- A load gives the value of its variable. -/
theorem run_fieldLoad (h : load? σ.program ins F.stack w = some (x, rest))
    (hv : w.value? x.place = some v) :
    run ins σ F w = ((.ok (.next ins.next), { F with stack := v :: rest }), w) := by
  obtain ⟨ref, href, howner, ⟨hop, rfl, rfl⟩ | ⟨hop, id, hstack, hsome, rfl⟩⟩ := load?_eq_some.1 h
  · rw [run_getStatic hop]
    refine go_ok.2 ⟨bind_ok.2 ⟨ref, F, w, fieldRef_ok.2 ⟨href, howner, rfl, rfl⟩,
      bind_ok.2 ⟨w, F, w, rfl, ?_⟩⟩, rfl⟩
    rw [show named? w.statics ref.name = some v from hv]
    rfl
  · rw [run_getField hop]
    obtain ⟨fields, hfields⟩ := Option.isSome_iff_exists.1 hsome
    refine go_ok.2 ⟨bind_ok.2 ⟨ref, F, w, fieldRef_ok.2 ⟨href, howner, rfl, rfl⟩,
      bind_ok.2 ⟨.ref id, _, w, popRef_ref hstack,
      ofRun_bind_ok.2 ⟨(id, fields), w, fieldOwner_ok.2 ⟨rfl, hfields, rfl⟩, ?_⟩⟩⟩, rfl⟩
    have hnamed : named? fields ref.name = some v := by
      rw [← hv]
      simp [Variable.place, World.value?, hfields]
    dsimp only
    rw [hnamed]
    rfl

end Step

namespace Plan

variable {plan : Plan} {f : Frame} {m m' : Moment} {events : List Event} {answer : Except Halt Value}
  {r : Routine} {args : List Value}

/-! ## One round -/

/-- How far a round has come. -/
def reached : Except Ending State → Progress
  | .ok s => s.progress
  | .error ending => ending.2

theorem resume_world (plan : Plan) (callers : List Caller) (next : Nat)
    (answer : Except Halt Outcome) (f : Frame) (p : Progress) :
    (reached (plan.resume callers next answer f p)).world = p.world := by
  unfold resume
  rcases answer with (id | e | lack) | (pc | v | ⟨r, args, returns⟩)
  · dsimp only
    split
    · rfl
    · split <;> rfl
  · rfl
  · rfl
  · rfl
  · cases callers <;> rfl
  · dsimp only
    split <;> rfl

theorem perform_world (plan : Plan) (s : State) (ins : Instruction) :
    (reached (plan.perform s ins)).world =
      (Step.run ins (plan.setting s.frame) s.frame s.progress.world).2 := by
  unfold perform
  generalize Step.run ins (plan.setting s.frame) s.frame s.progress.world = e
  obtain ⟨⟨answer, f⟩, w⟩ := e
  exact resume_world plan s.callers ins.next answer f _

/-- A round that does not execute an instruction leaves the world as it is. -/
theorem advanceAlone_idle {p : Progress} (h : plan.executes f p = false) :
    (reached (plan.advanceAlone f p)).world = p.world := by
  unfold advanceAlone advance step
  dsimp only
  split
  · rfl
  rename_i hbudget
  split
  · rfl
  rename_i houtside
  split
  · rfl
  rename_i hdue
  split
  · rfl
  · rename_i ins hfetch
    rw [executes_of_fetch (Bool.eq_false_iff.2 houtside)
      (fun hle => hbudget ⟨Bool.eq_false_iff.2 houtside, hle⟩) (Bool.eq_false_iff.2 hdue) hfetch] at h
    cases h

/-- A round that executes an instruction does what the instruction says. -/
theorem advanceAlone_perform {p : Progress} (h : plan.executes f p = true) :
    ∃ ins, fetch f = .ok ins ∧
      plan.advanceAlone f p = plan.perform ⟨f, [], plan.charged f ins p⟩ ins := by
  unfold executes at h
  simp only [Bool.and_eq_true, Bool.not_eq_true', decide_eq_true_eq] at h
  obtain ⟨⟨⟨houtside, hbudget⟩, hdue⟩, hfetches⟩ := h
  cases hfetch : fetch f with
  | error e =>
    rw [hfetch] at hfetches
    cases hfetches
  | ok ins =>
    refine ⟨ins, rfl, ?_⟩
    unfold isDue at hdue
    unfold advanceAlone advance step
    dsimp only
    rw [if_neg (fun hspent => Nat.not_le.2 hbudget hspent.2), houtside, hdue]
    simp only [Bool.false_eq_true, if_false, hfetch]
    rfl

/-- A round whose instruction goes on at `pc`. -/
theorem advanceAlone_next {p : Progress} {ins : Instruction} {pc : Int} {g : Frame} {w : World}
    (h : plan.executes f p = true) (hfetch : fetch f = .ok ins)
    (hrun : Step.run ins (plan.setting f) f p.world = ((.ok (.next pc), g), w)) :
    plan.advanceAlone f p = .ok (plan.after ⟨f, [], p⟩ ins pc g w) := by
  obtain ⟨ins', hfetch', hadvance⟩ := advanceAlone_perform h
  obtain rfl := Except.ok.inj (hfetch.symm.trans hfetch')
  rw [hadvance]
  unfold perform
  dsimp only
  rw [charged_world, hrun]
  rfl

/-- The instruction that a round executes. -/
def executed? (plan : Plan) (f : Frame) (p : Progress) : Option Instruction :=
  if plan.executes f p then (fetch f).toOption else none

theorem executed?_eq_some {p : Progress} {ins : Instruction} :
    plan.executed? f p = some ins ↔ plan.executes f p = true ∧ fetch f = .ok ins := by
  unfold executed?
  cases fetch f <;> simp [Except.toOption]

/-- A round goes on in its frame, with a value on the stack. -/
def Pushes (plan : Plan) (f : Frame) (p : Progress) (v : Value) : Prop :=
  ∃ pc rest q, plan.advanceAlone f p = .ok ⟨{ f with stack := v :: rest, pc }, [], q⟩

/-- A round leaves the world as it is, or does what its instruction does. -/
theorem advanceAlone_world {Q : World → Prop} {p : Progress}
    (hidle : plan.executed? f p = none → Q p.world)
    (hrun : ∀ ins, plan.executed? f p = some ins →
      Q (Step.run ins (plan.setting f) f p.world).2) :
    Q (reached (plan.advanceAlone f p)).world := by
  cases hexecutes : plan.executes f p with
  | false =>
    rw [advanceAlone_idle hexecutes]
    refine hidle ?_
    rw [executed?, hexecutes]
    rfl
  | true =>
    obtain ⟨ins, hfetch, hadvance⟩ := advanceAlone_perform hexecutes
    rw [hadvance, perform_world, charged_world]
    exact hrun ins (executed?_eq_some.2 ⟨hexecutes, hfetch⟩)

/-- The variable that a round stores to, with the value. -/
def store? (plan : Plan) (f : Frame) (p : Progress) : Option (Variable × Value) :=
  if plan.executes f p then
    match fetch f with
    | .ok ins => Step.store? plan.program ins f.stack p.world
    | .error _ => none
  else none

theorem advanceAlone_after (plan : Plan) (f : Frame) (p : Progress) :
    p.world.After (Step.newFields plan.program.cf) (plan.store? f p)
      (reached (plan.advanceAlone f p)).world := by
  cases hexecutes : plan.executes f p with
  | false =>
    rw [advanceAlone_idle hexecutes]
    unfold store?
    rw [hexecutes]
    exact .refl _ _
  | true =>
    obtain ⟨ins, hfetch, hadvance⟩ := advanceAlone_perform hexecutes
    have hstep := Step.run_after ins (plan.setting f) f (plan.charged f ins p).world
    rw [charged_world] at hstep
    unfold store?
    rw [hadvance, hexecutes, hfetch, perform_world, charged_world]
    exact hstep

/-! ## Runs -/

/-- The rounds of a run lead from world to world. -/
inductive Linked (plan : Plan) : World → List Event → World → Prop
  | nil {w : World} : Linked plan w [] w
  | round {f : Frame} {m : Moment} {events : List Event} {w' : World} :
      Linked plan (reached (plan.advanceAlone f m.progress)).world events w' →
      Linked plan m.progress.world (.round f m :: events) w'
  | call {before behind : Moment} {answer : Except Halt Value} {events : List Event} {w w' : World} :
      Linked plan w events w' → Linked plan w (.call before answer behind :: events) w'

namespace Linked

variable {w w' w'' : World} {before after : List Event}

theorem append (h : plan.Linked w before w') (h' : plan.Linked w' after w'') :
    plan.Linked w (before ++ after) w'' := by
  induction h with
  | nil => exact h'
  | round _ ih => exact .round (ih h')
  | call _ ih => exact .call (ih h')

/-- What happens before a round leads to the world of that round, and what happens after it
leads on from where the round comes to. -/
theorem split_round (h : plan.Linked w (before ++ .round f m :: after) w') :
    plan.Linked w before m.progress.world ∧
      plan.Linked (reached (plan.advanceAlone f m.progress)).world after w' := by
  induction before generalizing w with
  | nil =>
    cases h with
    | round h => exact ⟨.nil, h⟩
  | cons e before ih =>
    cases h with
    | round h =>
      obtain ⟨hbefore, hafter⟩ := ih h
      exact ⟨.round hbefore, hafter⟩
    | call h =>
      obtain ⟨hbefore, hafter⟩ := ih h
      exact ⟨.call hbefore, hafter⟩

theorem of_ok {s : State} {w' : World} (h : plan.advanceAlone f m.progress = .ok s)
    (hrest : plan.Linked s.progress.world events w') :
    plan.Linked m.progress.world (.round f m :: events) w' := by
  refine .round ?_
  rw [h]
  exact hrest

end Linked

theorem Runs.linked (h : plan.Runs f m events answer m') :
    plan.Linked m.progress.world events m'.progress.world := by
  induction h with
  | @done f m answer p hround =>
    refine .round ?_
    rw [hround]
    exact .nil
  | next hround _ ih => exact .of_ok hround ih
  | called hround _ _ _ ihcall ih => exact .of_ok hround (ihcall.append (.call ih))
  | passed hround _ _ ihcall => exact .of_ok hround (ihcall.append (.call .nil))

theorem Calls.linked (h : plan.Calls r args m events answer m') :
    plan.Linked m.progress.world events m'.progress.world := by
  cases h with
  | refused => exact .nil
  | ran _ hruns => exact hruns.linked.append (.call .nil)

theorem CallsInitialized.linked (h : plan.CallsInitialized r args m events answer m') :
    plan.Linked m.progress.world events m'.progress.world := by
  cases h with
  | plain _ hcall => exact hcall.linked
  | failed _ hcall => exact hcall.linked
  | initialized _ hfirst hcall => exact hfirst.linked.append hcall.linked

/-! ## What is stored -/

/-- What the rounds of a run store, in order. -/
def stores (plan : Plan) (events : List Event) : List (Variable × Value) :=
  events.filterMap fun
    | .round f m => plan.store? f m.progress
    | .call .. => none

theorem stores_round (plan : Plan) (f : Frame) (m : Moment) (events : List Event) :
    plan.stores (.round f m :: events) = (plan.store? f m.progress).toList ++ plan.stores events := by
  unfold stores
  rw [List.filterMap_cons]
  dsimp only
  cases plan.store? f m.progress <;> rfl

/-- The rounds of a run lead from world to world, by what they store. -/
inductive Threaded (plan : Plan) : World → List Event → World → Prop
  | nil {w : World} : Threaded plan w [] w
  | round {f : Frame} {m : Moment} {events : List Event} {w w' : World} :
      m.progress.world.After (Step.newFields plan.program.cf) (plan.store? f m.progress) w →
      Threaded plan w events w' → Threaded plan m.progress.world (.round f m :: events) w'
  | call {before behind : Moment} {answer : Except Halt Value} {events : List Event} {w w' : World} :
      Threaded plan w events w' → Threaded plan w (.call before answer behind :: events) w'

theorem Linked.threaded {w w' : World} (h : plan.Linked w events w') : plan.Threaded w events w' := by
  induction h with
  | nil => exact .nil
  | round _ ih => exact .round (plan.advanceAlone_after _ _) ih
  | call _ ih => exact .call ih

end Plan

end Cleartext.Machine
