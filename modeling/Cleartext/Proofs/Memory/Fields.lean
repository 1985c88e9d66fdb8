import Cleartext.Proofs.Machine.Families
import Cleartext.Proofs.Memory.Stores
import Mathlib.Data.List.Find

/-!
# Loads from fields

What a load gives is what was stored last.  As the machine keeps fields by their names, that
is the last store to any field of the name, whatever its descriptor; where a class gives a
name to one field only, it is the last store to the field itself.

* `Remembers`: a world has at every place what was stored there last, and before that the
  first value.  Rounds keep this (`Plan.Threaded.remembers`).
* `Emulation.load_first`: what loading a class leaves at the place of a static field, which
  is its constant or zero.
* `Emulation.field_load_latest`: what a load gives in an invocation, after any stores in any
  depth of calls.
-/

namespace Cleartext.Machine

/-! ## The latest store -/

/-- The value that was stored last at a place. -/
def lastAt (stores : List (Variable × Value)) (place : Option Nat × String) : Option Value :=
  (stores.reverse.find? fun s => s.1.place = place).map (·.2)

/-- The value that was stored last to a variable. -/
def lastTo (stores : List (Variable × Value)) (x : Variable) : Option Value :=
  (stores.reverse.find? fun s => s.1 = x).map (·.2)

section

variable {stores : List (Variable × Value)} {x : Variable} {v : Value} {place : Option Nat × String}

theorem lastAt_append_singleton :
    lastAt (stores ++ [(x, v)]) place = if place = x.place then some v else lastAt stores place := by
  unfold lastAt
  rw [List.reverse_append, List.reverse_singleton, List.singleton_append, List.find?_cons]
  by_cases h : place = x.place
  · simp [h]
  · simp [h, Ne.symm h]

theorem lastAt_eq_none (h : ∀ s ∈ stores, s.1.place ≠ place) : lastAt stores place = none := by
  simpa [lastAt] using fun a b hmem => h (a, b) hmem

/-- Where all stores at a place are to one variable, the last one is. -/
theorem lastAt_eq_lastTo (h : ∀ s ∈ stores, s.1.place = x.place → s.1 = x) :
    lastAt stores x.place = lastTo stores x := by
  unfold lastAt lastTo
  congr 1
  refine List.find?_congr fun s hs => ?_
  have hs' := h s (List.mem_reverse.1 hs)
  exact decide_eq_decide.2 ⟨hs', fun heq => congrArg Variable.place heq⟩

end

/-! ## Worlds that remember -/

/-- A world has at every place what was stored there last.  What nothing was stored to has
its first value: a static field that of the world `first`, and a field of an instance that
of a new instance. -/
structure World.Remembers (w : World) (fresh : List (String × Value)) (first : World)
    (stores : List (Variable × Value)) : Prop where
  statics : ∀ name, w.value? (none, name) =
    (lastAt stores (none, name)).or (first.value? (none, name))
  fields : ∀ id, (w.fields? id).isSome = true → ∀ name,
    w.value? (some id, name) = (lastAt stores (some id, name)).or (named? fresh name)
  known : ∀ s ∈ stores, ∀ id, s.1.place.1 = some id → id < w.heap.size

/-- No instance has fields other than those of a new one. -/
def World.Untouched (fresh : List (String × Value)) (w : World) : Prop :=
  ∀ id fields, w.fields? id = some fields → fields = fresh

namespace World

variable {fresh : List (String × Value)} {first w w' : World} {stores : List (Variable × Value)}

theorem Untouched.evolves (h : w.Untouched fresh) (hw : w.Evolves fresh w') : w'.Untouched fresh := by
  intro id fields hfields
  by_cases hid : id < w.heap.size
  · exact h id fields (hw.fields?_eq hid ▸ hfields)
  · exact hw.new id fields (Nat.le_of_not_lt hid) hfields

theorem untouched_empty (fresh : List (String × Value)) : Untouched fresh {} := by
  intro id fields h
  simp [fields?] at h

/-- An untouched world remembers, when nothing was stored yet. -/
theorem Untouched.remembers (h : w.Untouched fresh) (hstatics : w.statics = first.statics) :
    w.Remembers fresh first [] where
  statics name := congrArg (named? · name) hstatics
  fields id hid name := by
    obtain ⟨fields, hfields⟩ := Option.isSome_iff_exists.1 hid
    rw [value?, hfields, h id fields hfields]
    rfl
  known _ hs := by cases hs

theorem Remembers.evolves (h : w.Remembers fresh first stores) (hw : w.Evolves fresh w') :
    w'.Remembers fresh first stores where
  statics name := by
    rw [← h.statics]
    exact congrArg (named? · name) hw.statics
  fields id hid name := by
    by_cases hlt : id < w.heap.size
    · rw [hw.fields?_eq hlt] at hid
      rw [← h.fields id hid, value?, value?, hw.fields?_eq hlt]
    · obtain ⟨fields, hfields⟩ := Option.isSome_iff_exists.1 hid
      have hnever : lastAt stores (some id, name) = none :=
        lastAt_eq_none fun s hs heq => hlt (h.known s hs id (congrArg Prod.fst heq))
      rw [hnever, value?, hfields, hw.new id fields (Nat.le_of_not_lt hlt) hfields]
      rfl
  known s hs id hid := Nat.lt_of_lt_of_le (h.known s hs id hid) hw.size_le

theorem Remembers.stored (h : w.Remembers fresh first stores) {x : Variable} {v : Value}
    (hw : w.Stored x v w') : w'.Remembers fresh first (stores ++ [(x, v)]) where
  statics name := by
    rw [hw.value, lastAt_append_singleton]
    split
    · rfl
    · exact h.statics name
  fields id hid name := by
    rw [hw.instances] at hid
    rw [hw.value, lastAt_append_singleton]
    split
    · rfl
    · exact h.fields id hid name
  known s hs id hid := by
    rw [hw.size_eq]
    rcases List.mem_append.1 hs with hs | hs
    · exact h.known s hs id hid
    · obtain rfl := List.mem_singleton.1 hs
      exact hw.known id hid

theorem Remembers.after (h : w.Remembers fresh first stores) {store : Option (Variable × Value)}
    (hw : w.After fresh store w') : w'.Remembers fresh first (stores ++ store.toList) := by
  cases store with
  | none => exact (List.append_nil stores).symm ▸ h.evolves hw
  | some store => exact h.stored hw

end World

/-- The rounds of a run keep what a world remembers. -/
theorem Plan.Threaded.remembers {plan : Plan} {first w w' : World} {events : List Event}
    (h : plan.Threaded w events w') {stores : List (Variable × Value)}
    (hw : w.Remembers (Step.newFields plan.program.cf) first stores) :
    w'.Remembers (Step.newFields plan.program.cf) first (stores ++ plan.stores events) := by
  induction h generalizing stores with
  | nil => exact (List.append_nil stores).symm ▸ hw
  | @round f m events w w' hround _ ih =>
    have hrest := ih (hw.after hround)
    rw [Plan.stores_round, ← List.append_assoc]
    exact hrest
  | call _ ih => exact ih hw

/-! ## First values -/

/-- A value stands for a constant: it is the number, a string of its units, or the object of
the class. -/
def World.Means (w : World) : Loadable → Value → Prop
  | .int n, v => v = .int n
  | .long n, v => v = .long n
  | .float bits, v => v = .float bits
  | .double bits, v => v = .double bits
  | .string units, v => ∃ id, v = .ref id ∧ w.heap[id]? = some (.string units)
  | .class_ name, v => ∃ id, v = .ref id ∧ w.mirrors.lookup name = some id

/-- The value that a field has in a world before anything is stored to it: zero of its
descriptor, or its constant when it is static and has one. -/
def World.HasFirst (w : World) (cf : ClassFile) (m : Member) (v : Value) : Prop :=
  match m.isStatic, Attribute.find? m.attributes "ConstantValue" with
  | true, some (.raw _ _ [a, b]) => ∃ c, cf.pool.value (Bytes.toU16 a b) = .ok c ∧ w.Means c v
  | _, _ => v = Value.zero (m.descriptor cf.pool)

/-- A world with more objects. -/
structure World.Adds (w w' : World) : Prop where
  heap : ∀ (id : Nat) (o : Object), w.heap[id]? = some o → w'.heap[id]? = some o
  mirrors : ∀ (name : String) (id : Nat), w.mirrors.lookup name = some id → w'.mirrors.lookup name = some id

namespace World

variable {w w' : World}

theorem Adds.refl (w : World) : w.Adds w := ⟨fun _ _ h => h, fun _ _ h => h⟩

theorem Means.adds {c : Loadable} {v : Value} (h : w.Means c v) (hw : w.Adds w') : w'.Means c v := by
  cases c with
  | string units =>
    obtain ⟨id, hv, hid⟩ := h
    exact ⟨id, hv, hw.heap id _ hid⟩
  | class_ name =>
    obtain ⟨id, hv, hid⟩ := h
    exact ⟨id, hv, hw.mirrors name id hid⟩
  | _ => exact h

theorem HasFirst.adds {cf : ClassFile} {m : Member} {v : Value} (h : w.HasFirst cf m v)
    (hw : w.Adds w') : w'.HasFirst cf m v := by
  unfold HasFirst at h ⊢
  split at h
  · obtain ⟨c, hc, hmeans⟩ := h
    exact ⟨c, hc, hmeans.adds hw⟩
  · exact h

end World

/-- Constants always have a value. -/
theorem ofLoadable_means (c : Loadable) (σ : Setting) (w : World) :
    ∃ v w', ofLoadable c σ w = (.ok v, w') ∧ w.Adds w' ∧ w'.Means c v := by
  cases c with
  | string units =>
    show ∃ v w', intern units σ w = (.ok v, w') ∧ w.Adds w' ∧ w'.Means (.string units) v
    rw [Run.intern_eq]
    cases hshared : w.shared? units with
    | some id => exact ⟨_, w, rfl, .refl w, id, rfl, World.shared?_eq_some hshared⟩
    | none =>
      refine ⟨_, _, rfl, ⟨fun _ _ => World.getElem?_push, fun _ _ h => h⟩, w.heap.size, rfl, ?_⟩
      simp
  | class_ name =>
    cases hlookup : w.mirrors.lookup name with
    | some id =>
      have hmirror : ofLoadable (.class_ name) σ w = (.ok (.ref id), w) := by
        refine Run.bind_ok.2 ⟨w, w, rfl, ?_⟩
        rw [hlookup]
        rfl
      exact ⟨_, w, hmirror, .refl w, id, rfl, hlookup⟩
    | none =>
      have hmirror : ofLoadable (.class_ name) σ w = (.ok (.ref w.heap.size),
          { w with
            heap := w.heap.push (.instance "java/lang/Class" none (.text name))
            mirrors := (name, w.heap.size) :: w.mirrors }) := by
        refine Run.bind_ok.2 ⟨w, w, rfl, ?_⟩
        rw [hlookup]
        rfl
      refine ⟨_, _, hmirror, ⟨fun _ _ => World.getElem?_push, fun other id h => ?_⟩, w.heap.size, rfl, ?_⟩
      · rw [List.lookup_cons]
        split
        · rename_i heq
          rw [beq_iff_eq.1 heq, hlookup] at h
          cases h
        · exact h
      · simp
  | _ => exact ⟨_, w, rfl, .refl w, rfl⟩

namespace Emulation

variable {cf : ClassFile} {config : Config} {em : Emulation}

/-- The first value of a static field, and the world with the objects that it needs. -/
theorem initialValue_first {m : Member} (hstatic : m.isStatic = true) {value : Run Value}
    (h : initialValue cf m = .ok value) (σ : Setting) (w : World) :
    ∃ v w', value σ w = (.ok v, w') ∧ w.Adds w' ∧ w'.HasFirst cf m v ∧
      w.Evolves (Step.newFields σ.program.cf) w' := by
  unfold initialValue at h
  unfold World.HasFirst
  rw [hstatic]
  split at h
  · rename_i i n a b hattr
    split at h
    · rename_i c hc
      obtain rfl := Except.ok.inj h
      obtain ⟨v, w', hv, hadds, hmeans⟩ := ofLoadable_means c σ w
      have horderly := (show Run.Quiet true _ from Run.quiet_ofLoadable c).orderly σ w
      rw [hv] at horderly
      rw [hattr]
      exact ⟨v, w', hv, hadds, ⟨c, hc, hmeans⟩, horderly⟩
    · cases h
  · rename_i hnone
    obtain rfl := Except.ok.inj h
    refine ⟨_, w, rfl, .refl w, ?_, .refl _ w⟩
    split
    · rename_i hattr
      exact (hnone _ _ _ _ hattr).elim
    · rfl

section

variable {program : Program} {fields : List Member} {w w₁ : World} {m : Member}

/-- Loading a static field gives it its first value. -/
theorem initialWorld_static (hstatic : m.isStatic = true)
    (h : initialWorld program config w (m :: fields) = .ok w₁) :
    ∃ v w₂, w.Adds w₂ ∧ w₂.HasFirst program.cf m v ∧ w.Evolves (Step.newFields program.cf) w₂ ∧
      initialWorld program config
        { w₂ with statics := setNamed (m.name program.cf.pool) v w₂.statics } fields = .ok w₁ := by
  unfold initialWorld at h
  rw [if_pos hstatic] at h
  obtain ⟨value, hvalue, h⟩ := Except.bind_ok.1 h
  obtain ⟨v, w₂, hv, hadds, hfirst, hevolves⟩ :=
    initialValue_first hstatic hvalue ⟨program, config, []⟩ w
  rw [hv] at h
  exact ⟨v, w₂, hadds, hfirst, hevolves, h⟩

theorem initialWorld_instance (hstatic : m.isStatic = false)
    (h : initialWorld program config w (m :: fields) = .ok w₁) :
    initialWorld program config w fields = .ok w₁ := by
  unfold initialWorld at h
  rwa [if_neg (Bool.eq_false_iff.1 hstatic)] at h

theorem initialWorld_untouched (h : initialWorld program config w fields = .ok w₁)
    (hw : w.Untouched (Step.newFields program.cf)) : w₁.Untouched (Step.newFields program.cf) := by
  induction fields generalizing w with
  | nil => exact Except.ok.inj h ▸ hw
  | cons m fields ih =>
    cases hstatic : m.isStatic with
    | false => exact ih (initialWorld_instance hstatic h) hw
    | true =>
      obtain ⟨v, w₂, -, -, hevolves, hrest⟩ := initialWorld_static hstatic h
      exact ih hrest (show w₂.Untouched _ from hw.evolves hevolves)

/-- The static field with a name of its own has its first value, once it is loaded. -/
theorem initialWorld_first
    (hunique : ∀ m' ∈ fields, m'.isStatic = true → m'.name program.cf.pool = m.name program.cf.pool →
      m' = m)
    (hfirst : m ∈ fields ∧ m.isStatic = true ∨ ∃ v,
      named? w.statics (m.name program.cf.pool) = some v ∧ w.HasFirst program.cf m v)
    (h : initialWorld program config w fields = .ok w₁) :
    ∃ v, named? w₁.statics (m.name program.cf.pool) = some v ∧ w₁.HasFirst program.cf m v := by
  induction fields generalizing w with
  | nil =>
    obtain rfl := Except.ok.inj h
    exact hfirst.resolve_left fun hm => by cases hm.1
  | cons m' fields ih =>
    have hunique' := fun m'' hm'' => hunique m'' (List.mem_cons_of_mem _ hm'')
    cases hstatic : m'.isStatic with
    | false =>
      refine ih hunique' (hfirst.imp_left fun hm => ⟨?_, hm.2⟩) (initialWorld_instance hstatic h)
      refine (List.mem_cons.1 hm.1).resolve_left ?_
      rintro rfl
      rw [hstatic] at hm
      cases hm.2
    | true =>
      obtain ⟨v', w₂, hadds, hfirst', hevolves, hrest⟩ := initialWorld_static hstatic h
      refine ih hunique' ?_ hrest
      by_cases hname : m'.name program.cf.pool = m.name program.cf.pool
      · -- The field itself is loaded.
        obtain rfl := hunique m' List.mem_cons_self hstatic hname
        exact .inr ⟨v', by rw [named?_setNamed, if_pos rfl], hfirst'⟩
      · refine hfirst.imp (fun hm => ⟨?_, hm.2⟩) ?_
        · exact (List.mem_cons.1 hm.1).resolve_left fun heq => hname (heq ▸ rfl)
        · rintro ⟨v, hv, hhas⟩
          refine ⟨v, ?_, show w₂.HasFirst _ _ _ from hhas.adds hadds⟩
          rw [named?_setNamed, if_neg (Ne.symm hname), hevolves.statics]
          exact hv

end

theorem load_ok (h : load cf config = .ok em) :
    em.program = Program.of cf ∧
      initialWorld (Program.of cf) config {} cf.fields = .ok em.progress.world := by
  unfold load at h
  dsimp only at h
  split at h
  · cases h
  · obtain ⟨-, -, h⟩ := Except.bind_ok.1 h
    obtain ⟨world, hworld, h⟩ := Except.bind_ok.1 h
    obtain rfl := Except.ok.inj h
    exact ⟨rfl, hworld⟩

end Emulation

/-- A new instance has in its field with a name of its own zero of its descriptor. -/
theorem named?_newFields {cf : ClassFile} {m : Member} (hm : m ∈ cf.fields) (hfield : m.isStatic = false)
    (hunique : ∀ m' ∈ cf.fields, m'.isStatic = false → m'.name cf.pool = m.name cf.pool → m' = m) :
    named? (Step.newFields cf) (m.name cf.pool) = some (Value.zero (m.descriptor cf.pool)) := by
  have hfold (members : List Member) (entries : List (String × Value))
      (hmembers : ∀ m' ∈ members, m'.isStatic = false → m'.name cf.pool = m.name cf.pool → m' = m)
      (hsome : m ∈ members ∨
        named? entries (m.name cf.pool) = some (Value.zero (m.descriptor cf.pool))) :
      named? (members.foldl (fun fields m =>
        if m.isStatic then fields
        else setNamed (m.name cf.pool) (Value.zero (m.descriptor cf.pool)) fields) entries)
          (m.name cf.pool) = some (Value.zero (m.descriptor cf.pool)) := by
    induction members generalizing entries with
    | nil => exact hsome.resolve_left List.not_mem_nil
    | cons m' members ih =>
      refine ih _ (fun m'' hm'' => hmembers m'' (List.mem_cons_of_mem _ hm'')) ?_
      dsimp only
      cases hstatic : m'.isStatic with
      | true =>
        rw [if_pos rfl]
        refine hsome.imp_left fun hm => (List.mem_cons.1 hm).resolve_left ?_
        rintro rfl
        rw [hstatic] at hfield
        cases hfield
      | false =>
        rw [if_neg Bool.false_ne_true, named?_setNamed]
        by_cases hname : m.name cf.pool = m'.name cf.pool
        · obtain rfl := hmembers m' List.mem_cons_self hstatic hname.symm
          exact .inr (if_pos rfl)
        · rw [if_neg hname]
          exact hsome.imp_left fun hm => (List.mem_cons.1 hm).resolve_left fun heq => hname (heq ▸ rfl)
  exact hfold cf.fields [] hunique (.inl hm)

/-! ## Loads -/

/-- A field is declared by a class, static or not. -/
def Variable.IsDeclared (cf : ClassFile) (m : Member) : Variable → Prop
  | .static name descriptor => m ∈ cf.fields ∧ m.isStatic = true ∧ m.name cf.pool = name ∧
      m.descriptor cf.pool = descriptor
  | .field _ name descriptor => m ∈ cf.fields ∧ m.isStatic = false ∧ m.name cf.pool = name ∧
      m.descriptor cf.pool = descriptor

namespace Emulation

variable {cf : ClassFile} {config : Config} {em : Emulation} {name descriptor : String}
  {args : Run (List Value)} {cancelled : Bool} {before after : List Event}
  {answer : Except Halt Value} {m m' : Moment} {f : Frame} {ins : Instruction} {x : Variable}
  {rest : Stack} {field : Member}

/-- A round of an invocation sees a world that remembers what was stored before. -/
theorem Invoked.remembers (hload : load cf config = .ok em) (hargs : Run.Orderly args)
    (h : em.Invoked name descriptor args cancelled (before ++ .round f m :: after) answer m') :
    m.progress.world.Remembers (Step.newFields cf) em.progress.world
      ((em.plan cancelled).stores before) := by
  obtain ⟨hprogram, hworld⟩ := load_ok hload
  have hcf : em.program.cf = cf := congrArg Program.cf hprogram
  have huntouched := initialWorld_untouched hworld (World.untouched_empty _)
  rw [← hprogram] at huntouched
  obtain ⟨-, r, -, -, hcalls⟩ := h
  have hprepared := hargs ⟨em.program, em.config, []⟩ em.progress.world
  have hbeginning : (em.beginning args).progress.world.Remembers
      (Step.newFields (em.plan cancelled).program.cf) em.progress.world [] :=
    (huntouched.evolves hprepared).remembers hprepared.statics
  have hremembers := hcalls.linked.split_round.1.threaded.remembers hbeginning
  rw [show (em.plan cancelled).program.cf = cf from hcf] at hremembers
  exact hremembers

/-- The value at the place of a declared field, when a load of it is reached: what was stored
there last, and before that the first value of the field. -/
theorem Invoked.value_eq (hload : load cf config = .ok em) (hargs : Run.Orderly args)
    (h : em.Invoked name descriptor args cancelled (before ++ .round f m :: after) answer m')
    (hloads : Step.load? em.program ins f.stack m.progress.world = some (x, rest))
    (hdeclared : x.IsDeclared cf field)
    (hunique : ∀ other ∈ cf.fields, other.isStatic = field.isStatic →
      other.name cf.pool = field.name cf.pool → other = field) :
    ∃ first, em.progress.world.HasFirst cf field first ∧ m.progress.world.value? x.place =
      (lastAt ((em.plan cancelled).stores before) x.place).or (some first) := by
  have hremembers := h.remembers hload hargs
  obtain ⟨hprogram, hworld⟩ := load_ok hload
  cases x with
  | static n d =>
    obtain ⟨hmem, hstatic, rfl, rfl⟩ := hdeclared
    have hname : ∀ other ∈ cf.fields, other.isStatic = true →
        other.name (Program.of cf).cf.pool = field.name (Program.of cf).cf.pool → other = field :=
      fun other hother hkind => hunique other hother (hkind.trans hstatic.symm)
    obtain ⟨first, hfirst, hhas⟩ := initialWorld_first hname (.inl ⟨hmem, hstatic⟩) hworld
    refine ⟨first, hhas, (hremembers.statics _).trans ?_⟩
    exact congrArg (Option.or _) hfirst
  | field id n d =>
    obtain ⟨hmem, hstatic, rfl, rfl⟩ := hdeclared
    obtain ⟨ref, -, -, ⟨-, -, hx⟩ | ⟨-, id', -, hsome, hx⟩⟩ := Step.load?_eq_some.1 hloads
    · cases hx
    · obtain ⟨rfl, -, -⟩ := Variable.field.inj hx
      refine ⟨Value.zero (field.descriptor cf.pool), ?_, (hremembers.fields _ hsome _).trans ?_⟩
      · unfold World.HasFirst
        rw [hstatic]
      · rw [named?_newFields hmem hstatic fun other hother hkind =>
          hunique other hother (hkind.trans hstatic.symm)]
        rfl

/-- A load of a declared field gives a value, and goes on behind itself.  The value is what
was stored last to the field, or its first value if there was nothing.

Fields are kept by their names alone.  So the class must not declare two fields of the name,
and nothing must have been stored to the name by another descriptor. -/
theorem field_load_latest (hload : load cf config = .ok em)
    (hdistinct : (cf.fields.map fun m => (m.name cf.pool, m.descriptor cf.pool)).Nodup)
    (hargs : Run.Orderly args)
    (h : em.Invoked name descriptor args cancelled (before ++ .round f m :: after) answer m')
    (hexecutes : (em.plan cancelled).executes f m.progress = true) (hfetch : Plan.fetch f = .ok ins)
    (hloads : Step.load? em.program ins f.stack m.progress.world = some (x, rest))
    (hdeclared : x.IsDeclared cf field)
    (hnames : ∀ other ∈ cf.fields, other.isStatic = field.isStatic →
      other.name cf.pool = field.name cf.pool → other.descriptor cf.pool = field.descriptor cf.pool)
    (hstores : ∀ s ∈ (em.plan cancelled).stores before, s.1.place = x.place → s.1 = x) :
    ∃ v, (em.plan cancelled).advanceAlone f m.progress = .ok ((em.plan cancelled).after
        ⟨f, [], m.progress⟩ ins ins.next { f with stack := v :: rest } m.progress.world) ∧
      (lastTo ((em.plan cancelled).stores before) x = some v ∨
        lastTo ((em.plan cancelled).stores before) x = none ∧
          em.progress.world.HasFirst cf field v) := by
  have hmem : field ∈ cf.fields := by cases x <;> exact hdeclared.1
  have hunique : ∀ other ∈ cf.fields, other.isStatic = field.isStatic →
      other.name cf.pool = field.name cf.pool → other = field := fun other hother hkind hname =>
    List.inj_on_of_nodup_map hdistinct hother hmem (Prod.ext hname (hnames other hother hkind hname))
  obtain ⟨first, hfirst, hvalue⟩ := h.value_eq hload hargs hloads hdeclared hunique
  rw [lastAt_eq_lastTo hstores] at hvalue
  have hyields {v : Value} (hv : m.progress.world.value? x.place = some v) :=
    Plan.advanceAlone_next hexecutes hfetch (Step.run_fieldLoad (σ := (em.plan cancelled).setting f)
      hloads hv)
  cases hlast : lastTo ((em.plan cancelled).stores before) x with
  | some v =>
    rw [hlast] at hvalue
    exact ⟨v, hyields hvalue, .inl rfl⟩
  | none =>
    rw [hlast] at hvalue
    exact ⟨first, hyields hvalue, .inr ⟨rfl, hfirst⟩⟩

end Emulation

/-! ## A field that is stored to -/

/-- A class with the static field `x` and the method `f`, which stores one to it and loads
it again. -/
def storing : ClassFile where
  minor := 0
  major := 52
  pool := Pool.ofSlots [none, some (.utf8 [65]), some (.class_ 1), some (.utf8 [120]),
    some (.utf8 [73]), some (.nameAndType 3 4), some (.member .field 2 5),
    some (.utf8 [102]), some (.utf8 [40, 41, 73]), some (.utf8 [67, 111, 100, 101])]
  access := 0x21
  thisClass := 2
  superClass := 0
  interfaces := []
  fields := [⟨8, 3, 4, []⟩]
  methods := [⟨9, 7, 8, [.code 9 "Code" ⟨1, 0, [0x04, 0xb3, 0, 6, 0xb2, 0, 6, 0xac], [], []⟩]⟩]
  attributes := []

/-- The class `storing`, loaded. -/
def storingRun : Emulation :=
  { program := Program.of storing, config := {},
    progress := { world := { statics := [("x", .int 0)] } } }

/-- In an invocation of `f`, the load comes behind a store of one. -/
theorem exists_storing_load : ∃ before f m after answer m',
    storingRun.Invoked "f" "()I" (pure []) false (before ++ Event.round f m :: after) answer m' ∧
      (storingRun.plan false).stores before = [(.static "x" "I", .int 1)] ∧
      (storingRun.plan false).executes f m.progress = true ∧ ∃ ins, Plan.fetch f = .ok ins ∧
        Step.load? storingRun.program ins f.stack m.progress.world = some (.static "x" "I", []) := by
  obtain ⟨r, hr⟩ : ∃ r, storingRun.program.routine? "f" "()I" = some r := ⟨_, rfl⟩
  have hcall : (storingRun.plan false).Calls r [] (storingRun.beginning (pure [])) _ _ _ :=
    .ran (by cases hr; rfl) (.next (by rfl) (.next (by rfl) (.next (by rfl) (.done (by rfl)))))
  refine ⟨[_, _], _, _, _, _, _, ⟨rfl, r, hr, by cases hr; rfl, .plain rfl hcall⟩, ?_, ?_, ?_⟩
  · rfl
  · rfl
  · exact ⟨_, rfl, rfl⟩

theorem Emulation.field_load_latest_storing : ∃ before f m after answer m' pc p,
    storingRun.Invoked "f" "()I" (pure []) false (before ++ .round f m :: after) answer m' ∧
      lastTo ((storingRun.plan false).stores before) (.static "x" "I") = some (.int 1) ∧
      (storingRun.plan false).advanceAlone f m.progress =
        .ok ⟨{ f with stack := [.int 1], pc }, [], p⟩ := by
  obtain ⟨before, f, m, after, answer, m', hinvoked, hstored, hexecutes, ins, hfetch, hloads⟩ :=
    exists_storing_load
  have hload : load storing {} = .ok storingRun := rfl
  have hlast : lastTo ((storingRun.plan false).stores before) (.static "x" "I") = some (.int 1) := by
    rw [hstored]
    rfl
  have hdeclared : Variable.IsDeclared storing ⟨8, 3, 4, []⟩ (.static "x" "I") :=
    ⟨List.mem_singleton_self _, rfl, rfl, rfl⟩
  obtain ⟨v, hadvance, hv | ⟨hnone, -⟩⟩ := field_load_latest hload (by decide)
    (Run.orderly_of_same fun _ _ => rfl) hinvoked hexecutes hfetch hloads hdeclared
    (fun other hother _ _ => by rw [List.mem_singleton.1 hother])
    (fun s hs _ => by rw [hstored, List.mem_singleton] at hs; rw [hs])
  · obtain rfl := Option.some.inj (hv.symm.trans hlast)
    exact ⟨before, f, m, after, answer, m', _, _, hinvoked, hlast, hadvance⟩
  · cases hnone.symm.trans hlast

end Cleartext.Machine
