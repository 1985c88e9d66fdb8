import Cleartext.Proofs.Twin.Runs

/-!
# Loading and invoking side by side

The class of the smaller run has some of the fields of the larger (`FieldsLike`).  Loading
the two gives worlds that are alike (`initialWorld_beside`): what the additional fields
bring in, the larger run has for itself.  The strings among it must not displace one that
both runs share, which cannot happen when a text among the constants of static fields
stands for one list of units (`Strings`).

From such worlds the two classes are invoked side by side (`Emulation.invoke_beside`).
-/

namespace Cleartext.Machine

variable {f g : Numbering} {p p' : Program} {w w' : World} {σ : Setting}

/-! ## Shared objects of the larger run alone -/

/-- The larger run has a new object for itself. -/
theorem World.Like.grown (h : w.Like f w') (o : Object) :
    World.Like f { w with heap := w.heap.push o } w' := by
  have hspare (i : Nat) (x : Object) (hx : w.heap[i]? = some x) : (w.heap.push o)[i]? = some x := by
    have hlt := (Array.getElem?_eq_some_iff.1 hx).1
    rw [Array.getElem?_push, if_neg (by omega), hx]
  exact { h with
    heap := h.heap.grown o
    mirrors := fun cls => (h.mirrors cls).mono (.refl f) fun i x hi hx _ => ⟨hi, hspare i x hx⟩
    interned := fun text => (h.interned text).mono (.refl f) fun i x hi hx _ => ⟨hi, hspare i x hx⟩ }

theorem World.Like.size_not_mem (h : w.Like f w') : w.heap.size ∉ f.ids :=
  fun hmem => absurd (h.heap.lt hmem) (Nat.lt_irrefl _)

/-- Every shared string of a world has its units among those in `S`. -/
def World.Strings (S : Units → Prop) (w : World) : Prop :=
  ∀ text id, w.interned.lookup text = some id →
    ∃ units, S units ∧ units.text = text ∧ w.heap[id]? = some (.string units)

/-- A text stands for one list of units. -/
def Distinct (S : Units → Prop) : Prop := ∀ u u', S u → S u' → u.text = u'.text → u = u'

theorem World.Strings.push {S : Units → Prop} (h : w.Strings S) (o : Object) :
    World.Strings S { w with heap := w.heap.push o } := by
  intro text id hid
  obtain ⟨units, hS, htext, hheap⟩ := h text id hid
  refine ⟨units, hS, htext, ?_⟩
  have hlt := (Array.getElem?_eq_some_iff.1 hheap).1
  rw [Array.getElem?_push, if_neg (by omega), hheap]

theorem shared?_none_iff {S : Units → Prop} (hS : Distinct S) (h : w.Strings S) {units : Units}
    (hunits : S units) : w.shared? units = none ↔ w.interned.lookup units.text = none := by
  unfold World.shared?
  cases hid : w.interned.lookup units.text with
  | none => simp
  | some id =>
    obtain ⟨units', hS', htext, hheap⟩ := h _ _ hid
    obtain rfl := hS _ _ hS' hunits htext
    simp [hheap]

/-- A constant is loaded in any world.  Its units, if it is a string, are filed. -/
theorem ofLoadable_strings {S : Units → Prop} (h : w.Strings S) (l : Loadable)
    (hl : ∀ units, l = .string units → S units) :
    ∃ v w₁, ofLoadable l σ w = (.ok v, w₁) ∧ w₁.Strings S := by
  cases l with
  | string units =>
    rw [ofLoadable, Run.intern_eq]
    cases w.shared? units with
    | some id => exact ⟨_, _, rfl, h⟩
    | none =>
      refine ⟨_, _, rfl, fun text id hid => ?_⟩
      rw [lookup_cons] at hid
      split at hid
      · rename_i htext
        obtain rfl := Option.some.inj hid
        exact ⟨units, hl units rfl, htext.symm, Array.getElem?_push_size⟩
      · rename_i htext
        rw [lookup_filter htext] at hid
        exact h.push _ text id hid
  | class_ name =>
    rw [ofLoadable, mirror_eq]
    cases w.mirrors.lookup name with
    | some id => exact ⟨_, _, rfl, h⟩
    | none => exact ⟨_, _, rfl, h.push _⟩
  | _ => exact ⟨_, _, rfl, h⟩

/-- The larger run loads a constant for itself. -/
theorem ofLoadable_spare {S : Units → Prop} (hS : Distinct S) (h : w.Strings S)
    (hw : w.Like f w') (l : Loadable) (hl : ∀ units, l = .string units → S units) :
    (ofLoadable l σ w).2.Like f w' := by
  cases l with
  | string units =>
    rw [ofLoadable, Run.intern_eq]
    cases hshared : w.shared? units with
    | some id => exact hw
    | none =>
      have hnone := (shared?_none_iff hS h (hl units rfl)).1 hshared
      have hgrown := hw.grown (.string units)
      refine { hgrown with interned := fun text => ?_ }
      dsimp only
      rw [lookup_cons]
      split
      · rename_i htext
        have hlike := hw.interned text
        rw [htext, hnone] at hlike
        rw [htext]
        generalize w'.interned.lookup units.text = found at hlike ⊢
        cases hlike with
        | none => exact .spare hw.size_not_mem Array.getElem?_push_size ⟨units, rfl, rfl⟩
      · rename_i htext
        rw [lookup_filter htext]
        exact hgrown.interned text
  | class_ name =>
    rw [ofLoadable, mirror_eq]
    cases hfound : w.mirrors.lookup name with
    | some id => exact hw
    | none =>
      have hgrown := hw.grown (.instance "java/lang/Class" none (.text name))
      refine { hgrown with mirrors := fun cls => ?_ }
      dsimp only
      rw [lookup_cons]
      split
      · rename_i hcls
        have hlike := hw.mirrors cls
        rw [hcls, hfound] at hlike
        rw [hcls]
        generalize w'.mirrors.lookup name = found at hlike ⊢
        cases hlike with
        | none => exact .spare hw.size_not_mem Array.getElem?_push_size rfl
      · exact hgrown.mirrors cls
  | _ => exact hw

/-! ## Fields -/

/-- A static field has a string as its constant. -/
def HasText (cf : ClassFile) (m : Member) (units : Units) : Prop :=
  ∃ i name a b, Attribute.find? m.attributes "ConstantValue" = some (.raw i name [a, b]) ∧
    cf.pool.value (Bytes.toU16 a b) = .ok (.string units)

/-- Fields that are alike: by name, type and constant. -/
structure FieldLike (cf cf' : ClassFile) (m m' : Member) : Prop where
  name : m'.name cf'.pool = m.name cf.pool
  descriptor : m'.descriptor cf'.pool = m.descriptor cf.pool
  isStatic : m'.isStatic = m.isStatic
  initial : m.isStatic = true →
    Both Eq (Emulation.initialValue cf m) (Emulation.initialValue cf' m')

/-- The fields of the smaller class, in the order of the larger one.  A field that it does
not have has a name that is not used. -/
inductive FieldsLike (cf cf' : ClassFile) (used : String → Prop) : List Member → List Member → Prop
  | nil : FieldsLike cf cf' used [] []
  | both {m m' : Member} {ms ms' : List Member} (h : FieldLike cf cf' m m')
      (hrest : FieldsLike cf cf' used ms ms') : FieldsLike cf cf' used (m :: ms) (m' :: ms')
  | dropped {m : Member} {ms ms' : List Member} (h : ¬ used (m.name cf.pool))
      (hrest : FieldsLike cf cf' used ms ms') : FieldsLike cf cf' used (m :: ms) ms'

theorem zero_like (f : Numbering) (type : String) : (Value.zero type).Like f (Value.zero type) := by
  unfold Value.zero
  split <;> constructor

theorem EntriesLike.setUnused {entries entries' : List (String × Value)}
    (h : EntriesLike f entries entries') {name : String} (hname : ¬ f.used name) (v : Value) :
    EntriesLike f (Machine.setNamed name v entries) entries' := by
  intro other hother
  rw [named?_setNamed, if_neg]
  · exact h other hother
  · rintro rfl
    exact hname hother

/-- New instances of the class have fields that are alike. -/
theorem newFields_like {cf cf' : ClassFile} {ms ms' : List Member}
    (h : FieldsLike cf cf' f.used ms ms') {entries entries' : List (String × Value)}
    (hentries : EntriesLike f entries entries') :
    EntriesLike f
      (ms.foldl (fun fields m => if m.isStatic then fields
        else setNamed (m.name cf.pool) (Value.zero (m.descriptor cf.pool)) fields) entries)
      (ms'.foldl (fun fields m => if m.isStatic then fields
        else setNamed (m.name cf'.pool) (Value.zero (m.descriptor cf'.pool)) fields) entries') := by
  induction h generalizing entries entries' with
  | nil => exact hentries
  | both h _ ih =>
    rw [List.foldl_cons, List.foldl_cons, h.isStatic, h.name, h.descriptor]
    refine ih ?_
    split
    · exact hentries
    · exact hentries.setNamed _ (zero_like f _)
  | dropped h _ ih =>
    rw [List.foldl_cons]
    refine ih ?_
    split
    · exact hentries
    · exact hentries.setUnused h _

/-- The first value of a static field is a zero, or its constant is loaded. -/
theorem initialValue_ok {cf : ClassFile} {m : Member} {r : Run Value}
    (h : Emulation.initialValue cf m = .ok r) :
    (∃ type, r = return Value.zero type) ∨
      ∃ l, r = ofLoadable l ∧ ∀ units, l = .string units → HasText cf m units := by
  unfold Emulation.initialValue at h
  split at h
  · rename_i i name a b hfound
    cases hvalue : cf.pool.value (Bytes.toU16 a b) with
    | error e => rw [hvalue] at h; cases h
    | ok l =>
      rw [hvalue] at h
      obtain rfl := Except.ok.inj h
      refine .inr ⟨l, rfl, ?_⟩
      rintro units rfl
      exact ⟨i, name, a, b, hfound, hvalue⟩
  · obtain rfl := Except.ok.inj h
    exact .inl ⟨_, rfl⟩

section

variable {cf : ClassFile} {m : Member} {r : Run Value} (h : Emulation.initialValue cf m = .ok r)

include h

theorem initialValue_twin : Twin Value.Like f r r := by
  obtain ⟨type, rfl⟩ | ⟨l, rfl, -⟩ := initialValue_ok h
  · exact .pure (zero_like f type)
  · exact ofLoadable_twin l

variable {S : Units → Prop} (hl : ∀ units, HasText cf m units → S units) (hstrings : w.Strings S)

include hl hstrings

theorem initialValue_strings : ∃ v w₁, r σ w = (.ok v, w₁) ∧ w₁.Strings S := by
  obtain ⟨type, rfl⟩ | ⟨l, rfl, htext⟩ := initialValue_ok h
  · exact ⟨_, _, rfl, hstrings⟩
  · exact ofLoadable_strings hstrings l fun units hunits => hl units (htext units hunits)

theorem initialValue_spare (hS : Distinct S) (hw : w.Like f w') : (r σ w).2.Like f w' := by
  obtain ⟨type, rfl⟩ | ⟨l, rfl, htext⟩ := initialValue_ok h
  · exact hw
  · exact ofLoadable_spare hS hstrings hw l fun units hunits => hl units (htext units hunits)

end

/-- The static fields of the two classes get their first values. -/
theorem initialWorld_beside {S : Units → Prop} (hS : Distinct S) (config : Config)
    (hname : p'.name = p.name) (hlineage : p'.lineage = p.lineage)
    (hnew : EntriesLike f (Step.newFields p.cf) (Step.newFields p'.cf)) {ms ms' : List Member}
    (h : FieldsLike p.cf p'.cf f.used ms ms')
    (htexts : ∀ m ∈ ms, m.isStatic = true → ∀ units, HasText p.cf m units → S units)
    (hw : w.Like f w') (hstrings : w.Strings S) {w₁ : World}
    (hload : Emulation.initialWorld p config w ms = .ok w₁) :
    ∃ g w₁', f.Extends g ∧ Emulation.initialWorld p' config w' ms' = .ok w₁' ∧ w₁.Like g w₁' := by
  have hσ : Setting.Like f ⟨p, config, []⟩ ⟨p', config, []⟩ := ⟨rfl, rfl, hname, hlineage, hnew⟩
  generalize hused : f.used = used at h
  induction h generalizing f w w' with
  | nil =>
    obtain rfl := Except.ok.inj hload
    exact ⟨f, w', .refl f, rfl, hw⟩
  | @both m m' ms ms' hm _ ih =>
    obtain ⟨htext, htexts⟩ := List.forall_mem_cons.1 htexts
    unfold Emulation.initialWorld at hload ⊢
    rw [hm.isStatic]
    split at hload
    · rename_i hstatic
      rw [if_pos hstatic]
      have hinitial := hm.initial hstatic
      obtain ⟨r, hr, hload⟩ := Except.bind_ok.1 hload
      rw [hr] at hinitial
      generalize hr' : Emulation.initialValue p'.cf m' = x at hinitial ⊢
      cases hinitial with
      | ok heq =>
        subst heq
        obtain ⟨v, w₂, hv, hstrings₂⟩ := initialValue_strings (σ := ⟨p, config, []⟩) hr
          (htext hstatic) hstrings
        have htogether := initialValue_twin hr _ _ _ _ hσ hw
        rw [hv] at htogether
        generalize hv' : r ⟨p', config, []⟩ w' = e at htogether
        cases htogether with
        | @ok g _ v' _ w₂' hfg hw₂ hlike =>
          dsimp only [bind, Except.bind] at hload ⊢
          rw [hv] at hload
          rw [hv', hm.name]
          have hset : World.Like g { w₂ with statics := setNamed (m.name p.cf.pool) v w₂.statics }
              { w₂' with statics := setNamed (m.name p.cf.pool) v' w₂'.statics } :=
            { hw₂ with statics := hw₂.statics.setNamed _ hlike }
          obtain ⟨k, w₁', hgk, hload', hw₁⟩ := ih (hnew.mono hfg) htexts hset hstrings₂ hload
            (hσ.mono hfg) (hfg.used.trans hused)
          exact ⟨k, w₁', hfg.trans hgk, hload', hw₁⟩
    · rename_i hstatic
      rw [if_neg hstatic]
      exact ih hnew htexts hw hstrings hload hσ hused
  | @dropped m ms ms' hm _ ih =>
    obtain ⟨htext, htexts⟩ := List.forall_mem_cons.1 htexts
    unfold Emulation.initialWorld at hload
    split at hload
    · rename_i hstatic
      obtain ⟨r, hr, hload⟩ := Except.bind_ok.1 hload
      obtain ⟨v, w₂, hv, hstrings₂⟩ := initialValue_strings (σ := ⟨p, config, []⟩) hr
        (htext hstatic) hstrings
      have hw₂ := initialValue_spare (σ := ⟨p, config, []⟩) hr (htext hstatic) hstrings hS hw
      dsimp only [bind, Except.bind] at hload
      rw [hv] at hload hw₂
      have hset : World.Like f { w₂ with statics := setNamed (m.name p.cf.pool) v w₂.statics } w' :=
        { hw₂ with statics := hw₂.statics.setUnused (hused ▸ hm) v }
      exact ih hnew htexts hset hstrings₂ hload hσ hused
    · exact ih hnew htexts hw hstrings hload hσ hused

/-! ## Emulations -/

/-- Emulations of two classes, to be invoked side by side. -/
structure Emulation.Beside (f : Numbering) (em em' : Emulation) : Prop where
  program : em.program.Like em'.program f
  config : em'.config = em.config
  spent : em'.spent = em.spent
  progress : em.progress.Beside f em'.progress

/-- No object is numbered yet. -/
def Numbering.start (used : String → Prop) (returns : Nat → Prop) : Numbering :=
  ⟨[], used, returns⟩

theorem world_start (used : String → Prop) (returns : Nat → Prop) :
    World.Like (.start used returns) {} {} where
  heap := ⟨List.nodup_nil, rfl, fun hij => by cases hij⟩
  statics _ _ := .none
  mirrors _ := .none
  interned _ := .none
  hashes := .nil
  thread := .none

/-- When a class can be loaded, so can the smaller one, and with a state that is alike. -/
theorem Emulation.load_beside {cf cf' : ClassFile} {used : String → Prop} {returns : Nat → Prop}
    (h : (Program.of cf).Like (Program.of cf') (.start used returns))
    (hfields : FieldsLike cf cf' used cf.fields cf'.fields) {S : Units → Prop} (hS : Distinct S)
    (htexts : ∀ m ∈ cf.fields, m.isStatic = true → ∀ units, HasText cf m units → S units)
    {config : Config} {em : Emulation} (hload : load cf config = .ok em) :
    ∃ g em', Numbering.Extends (.start used returns) g ∧ load cf' config = .ok em' ∧
      em.program = Program.of cf ∧ em'.program = Program.of cf' ∧ em.Beside g em' := by
  unfold load at hload ⊢
  dsimp only at hload ⊢
  rw [h.name]
  split at hload
  · cases hload
  · rename_i hname
    rw [if_neg hname]
    obtain ⟨-, -, hload⟩ := Except.bind_ok.1 hload
    obtain ⟨world, hworld, hload⟩ := Except.bind_ok.1 hload
    obtain rfl := Except.ok.inj hload
    obtain ⟨g, world', hg, hworld', hlike⟩ := initialWorld_beside hS config h.name h.lineage h.fields
      hfields htexts (world_start used returns) (fun _ _ hid => by cases hid) hworld
    refine ⟨g, ⟨Program.of cf', config, { world := world' }, false⟩, hg, ?_, rfl, rfl, h.mono hg, rfl,
      rfl, rfl, hlike⟩
    show (Emulation.initialWorld (Program.of cf') config {} cf'.fields >>= _) = _
    rw [hworld']
    rfl

/-- Two classes are invoked: they come to values that are alike, or both fail. -/
inductive Answered (f : Numbering) :
    Except Error Value × Emulation → Except Error Value × Emulation → Prop
  | returned {g : Numbering} {v v' : Value} {em em' : Emulation} (hfg : f.Extends g)
      (hv : v.Like g v') (hw : em.progress.world.Like g em'.progress.world) :
      Answered f (.ok v, em) (.ok v', em')
  | failed {e e' : Error} {em em' : Emulation} : Answered f (.error e, em) (.error e', em')

theorem run_literal (literal : Units) (σ : Setting) (w : World) :
    (do return [← newUnits literal] : Run (List Value)) σ w =
      (.ok [.ref w.heap.size], { w with heap := w.heap.push (.string literal) }) := rfl

/-- Two classes that are alike are invoked with one string. -/
theorem Emulation.invoke_beside {em em' : Emulation} (h : em.Beside f em')
    (hinit : Option.Rel (SameRoutine em.program em'.program)
      (em.program.routine? "<clinit>" "()V") (em'.program.routine? "<clinit>" "()V"))
    {name descriptor : String}
    (hroutine : Option.Rel (SameRoutine em.program em'.program)
      (em.program.routine? name descriptor) (em'.program.routine? name descriptor))
    (literal : Units) (cancelled : Bool) :
    Answered f (em.invoke name descriptor (do return [← newUnits literal]) cancelled)
      (em'.invoke name descriptor (do return [← newUnits literal]) cancelled) := by
  have hpush := h.progress.world.push (.string literal)
  have hfg := f.extends_push em.progress.world.heap.size
  have hlinks := f.links_push em.progress.world.heap.size
  rw [h.progress.world.heap.size] at hlinks
  unfold Emulation.invoke
  rw [h.spent]
  split
  · exact .failed
  · dsimp only [Emulation.close]
    generalize em.program.routine? name descriptor = a at hroutine ⊢
    generalize em'.program.routine? name descriptor = a' at hroutine ⊢
    cases hroutine with
    | none => exact .failed
    | @some r r' hr =>
      have hlike := h.program.routines _ _ hr
      dsimp only
      rw [hlike.isStatic]
      split
      · exact .failed
      · unfold Emulation.prepare
        rw [run_literal, run_literal, h.config]
        have hended := @callInitialized_beside _ _ ⟨em.program, em.config, cancelled⟩
          (h.program.mono hfg) hinit r r' hr _ _ (.cons (.ref hlinks) .nil)
          { em.progress with
            world := { em.progress.world with
              heap := em.progress.world.heap.push (.string literal) } }
          { em'.progress with
            world := { em'.progress.world with
              heap := em'.progress.world.heap.push (.string literal) } }
          ⟨h.progress.steps, hpush⟩
        dsimp only [Plan.instead, Except.toOption, Option.getD] at hended ⊢
        generalize Plan.callInitialized _ r _ _ = e at hended ⊢
        generalize Plan.callInitialized _ r' _ _ = e' at hended ⊢
        cases hended with
        | failed => exact .failed
        | returned hgk hv hq => exact .returned (hfg.trans hgk) hv hq.world

end Cleartext.Machine
