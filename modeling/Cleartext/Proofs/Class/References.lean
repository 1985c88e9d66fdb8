import Cleartext.Proofs.Class.Renumbering

/-!
# The references of a class

`ClassFile.references` lists the constant pool indices that a class holds outside
its pool, in order: an index of zero stands for nothing and is left out, but the
operand of an instruction is listed whatever it is.  `ClassFile.Walkable` says that
the class can be gone through to find them: its code can be taken apart, and the
layout of its attributes is known and fits.

`ClassFile.visits_changeReferences` says what a change of the references comes to.
When no index grows, the change of a class succeeds if and only if the class is
walkable and the change succeeds on the references one after another.
-/

namespace Cleartext

open Layout (Change)

/-! ## The references -/

/-- A reference that may be zero, in which case there is none. -/
def referencesOf (i : UInt16) : List UInt16 := if i = 0 then [] else [i]

/-- The references in the body of an attribute. -/
def Layout.references (pool : Pool) (name : String) (info : Bytes) : List UInt16 :=
  (referencePositions (visit pool name info).sites).map info.u16At

/-- The references of code that can be taken apart. -/
def Instruction.references (code : Bytes) : List UInt16 :=
  match decodeAll code with
  | .ok instructions => instructions.flatMap fun ins => ins.operand.index?.toList
  | .error _ => []

mutual

/-- The references of an attribute. -/
def Attribute.references (pool : Pool) : Attribute → List UInt16
  | .raw i name info => referencesOf i ++ Layout.references pool name info
  | .code i _ ⟨_, _, bytecode, handlers, attributes⟩ =>
    referencesOf i ++ (Instruction.references bytecode ++
      (handlers.flatMap (fun h => referencesOf h.catchType) ++
        Attribute.referencesAll pool attributes))

/-- The references of attributes one after another. -/
def Attribute.referencesAll (pool : Pool) : List Attribute → List UInt16
  | [] => []
  | a :: rest => a.references pool ++ Attribute.referencesAll pool rest

end

/-- The references of a member. -/
def Member.references (pool : Pool) (m : Member) : List UInt16 :=
  referencesOf m.nameIndex ++
    (referencesOf m.descriptorIndex ++ Attribute.referencesAll pool m.attributes)

/-- The references that a class holds outside its pool. -/
def ClassFile.references (cf : ClassFile) : List UInt16 :=
  referencesOf cf.thisClass ++ (referencesOf cf.superClass ++
    (cf.interfaces.flatMap referencesOf ++
      (cf.fields.flatMap (Member.references cf.pool) ++
        (cf.methods.flatMap (Member.references cf.pool) ++
          Attribute.referencesAll cf.pool cf.attributes))))

/-- An attribute in which the references can be found. -/
inductive Attribute.Walkable (pool : Pool) : Attribute → Prop
  | raw {i : UInt16} {name : String} {info : Bytes}
      (hvisit : (Layout.visit pool name info).failure = none) : Walkable pool (.raw i name info)
  | code {i : UInt16} {name : String} {body : MethodBody}
      (hcode : ∃ instructions, Instruction.decodeAll body.bytecode = .ok instructions)
      (hattributes : ∀ a ∈ body.attributes, Walkable pool a) : Walkable pool (.code i name body)

/-- A class in which the references can be found. -/
structure ClassFile.Walkable (cf : ClassFile) : Prop where
  fields : ∀ m ∈ cf.fields, ∀ a ∈ m.attributes, a.Walkable cf.pool
  methods : ∀ m ∈ cf.methods, ∀ a ∈ m.attributes, a.Walkable cf.pool
  attributes : ∀ a ∈ cf.attributes, a.Walkable cf.pool

/-! ## What a change comes to -/

variable {σ α β : Type} {f : UInt16 → Change σ UInt16}

/-- A change succeeds if and only if `Walk` holds and `f` succeeds on the references
one after another, and then it ends in the same state. -/
def Visits (f : UInt16 → Change σ UInt16) (change : Change σ α) (Walk : Prop)
    (references : List UInt16) : Prop :=
  ∀ s s', (∃ a, change.run s = .ok (a, s')) ↔
    Walk ∧ ∃ xs, (references.mapM f).run s = .ok (xs, s')

namespace Visits

variable {change : Change σ α} {Walk Walk' : Prop} {refs refs' : List UInt16}

theorem pure (a : α) : Visits f (Pure.pure a) True [] := by
  intro s s'
  constructor
  · rintro ⟨b, h⟩
    obtain ⟨rfl, rfl⟩ := Prod.mk.inj (Except.ok.inj h)
    exact ⟨True.intro, [], rfl⟩
  · rintro ⟨-, xs, h⟩
    obtain ⟨rfl, rfl⟩ := Prod.mk.inj (Except.ok.inj h)
    exact ⟨a, rfl⟩

theorem fails (h : ∀ s a s', change.run s ≠ .ok (a, s')) (hWalk : ¬ Walk) :
    Visits f change Walk refs := by
  intro s s'
  constructor
  · rintro ⟨a, hrun⟩
    exact absurd hrun (h s a s')
  · rintro ⟨hwalk, -⟩
    exact absurd hwalk hWalk

theorem bind_of_run {next : α → Change σ β} (h : Visits f change Walk refs)
    (hnext : ∀ a s s', change.run s = .ok (a, s') → Visits f (next a) Walk' refs') :
    Visits f (change >>= next) (Walk ∧ Walk') (refs ++ refs') := by
  have hrun {s : σ} {b : β} {s'' : σ} : (change >>= next).run s = .ok (b, s'') ↔
      ∃ a s', change.run s = .ok (a, s') ∧ (next a).run s' = .ok (b, s'') := by
    rw [StateT.run_bind, Except.bind_ok]
    exact ⟨fun ⟨(a, s'), hfirst, hrest⟩ => ⟨a, s', hfirst, hrest⟩,
      fun ⟨a, s', hfirst, hrest⟩ => ⟨(a, s'), hfirst, hrest⟩⟩
  have happend {s s'' : σ} : (∃ zs, ((refs ++ refs').mapM f).run s = .ok (zs, s'')) ↔
      ∃ s', (∃ xs, (refs.mapM f).run s = .ok (xs, s')) ∧
        ∃ ys, (refs'.mapM f).run s' = .ok (ys, s'') := by
    rw [List.mapM_append]
    simp only [StateT.run_bind, StateT.run_pure, Except.bind_ok, Except.pure_ok, Prod.exists]
    constructor
    · rintro ⟨zs, xs, s', hxs, ys, s₂, hys, heq⟩
      obtain ⟨-, rfl⟩ := Prod.mk.inj heq
      exact ⟨s', ⟨xs, hxs⟩, ys, hys⟩
    · rintro ⟨s', ⟨xs, hxs⟩, ys, hys⟩
      exact ⟨xs ++ ys, xs, s', hxs, ys, s'', hys, rfl⟩
  intro s s''
  rw [happend]
  constructor
  · rintro ⟨b, hb⟩
    obtain ⟨a, s', hfirst, hrest⟩ := hrun.1 hb
    obtain ⟨hwalk, hxs⟩ := (h s s').1 ⟨a, hfirst⟩
    obtain ⟨hwalk', hys⟩ := (hnext a s s' hfirst s' s'').1 ⟨b, hrest⟩
    exact ⟨⟨hwalk, hwalk'⟩, s', hxs, hys⟩
  · rintro ⟨⟨hwalk, hwalk'⟩, s', hxs, hys⟩
    obtain ⟨a, hfirst⟩ := (h s s').2 ⟨hwalk, hxs⟩
    obtain ⟨b, hrest⟩ := (hnext a s s' hfirst s' s'').2 ⟨hwalk', hys⟩
    exact ⟨b, hrun.2 ⟨a, s', hfirst, hrest⟩⟩

theorem bind {next : α → Change σ β} (h : Visits f change Walk refs)
    (hnext : ∀ a, Visits f (next a) Walk' refs') :
    Visits f (change >>= next) (Walk ∧ Walk') (refs ++ refs') :=
  h.bind_of_run fun a _ _ _ => hnext a

/-- A change of which the answer is put into another form. -/
theorem map (h : Visits f change Walk refs) (g : α → β) :
    Visits f (do return g (← change)) Walk refs := by
  have hbind := h.bind fun a => Visits.pure (f := f) (g a)
  rwa [and_true, List.append_nil] at hbind

theorem run_explain {words : Error → Error} {s s' : σ} {a : α} :
    (change.explain words).run s = .ok (a, s') ↔ change.run s = .ok (a, s') := by
  have hrun : (change.explain words).run s = (change.run s).mapError words := rfl
  rw [hrun]
  cases change.run s <;> simp [Except.mapError]

theorem explain (h : Visits f change Walk refs) (words : Error → Error) :
    Visits f (change.explain words) Walk refs := by
  intro s s'
  simp only [run_explain]
  exact h s s'

theorem congr (h : Visits f change Walk refs) (hWalk : Walk ↔ Walk') (hrefs : refs = refs') :
    Visits f change Walk' refs' := by
  subst hrefs
  intro s s'
  rw [← hWalk]
  exact h s s'

theorem one (i : UInt16) : Visits f (f i) True [i] := by
  intro s s'
  simp only [List.mapM_cons, List.mapM_nil, bind_pure_comp, true_and]
  constructor
  · rintro ⟨x, hx⟩
    exact ⟨[x], Except.map_ok.2 ⟨(x, s'), hx, rfl⟩⟩
  · rintro ⟨xs, hxs⟩
    obtain ⟨⟨x, s''⟩, hx, heq⟩ := Except.map_ok.1 hxs
    obtain ⟨-, rfl⟩ := Prod.mk.inj heq
    exact ⟨x, hx⟩

theorem mapM {ι : Type} {items : List ι} {change : ι → Change σ α} {Walk : ι → Prop}
    {refs : ι → List UInt16} (h : ∀ i ∈ items, Visits f (change i) (Walk i) (refs i)) :
    Visits f (items.mapM change) (∀ i ∈ items, Walk i) (items.flatMap refs) := by
  induction items with
  | nil => exact (Visits.pure []).congr (by simp) rfl
  | cons i items ih =>
    rw [List.forall_mem_cons] at h
    rw [List.mapM_cons]
    exact (h.1.bind fun a => (ih h.2).map (a :: ·)).congr List.forall_mem_cons.symm rfl

end Visits

theorem visits_changeIndex (i : UInt16) : Visits f (changeIndex f i) True (referencesOf i) := by
  unfold changeIndex referencesOf
  split
  · exact .pure 0
  · exact .one i

/-- Sites that are spaced are changed one after another without touching each
other. -/
theorem visits_rewriteSites (name : String) (sites : List Layout.Site) (info : Bytes)
    (hspaced : sites.Pairwise fun earlier later => earlier.position + 2 ≤ later.position) :
    Visits f (Layout.rewriteSites name (fun site info =>
      match site.kind with
      | .reference => Bytes.ofU16 <$> f (info.u16At site.position)
      | _ => return []) sites info) True ((Layout.referencePositions sites).map info.u16At) := by
  induction sites generalizing info with
  | nil => exact .pure info
  | cons site sites ih =>
    rw [List.pairwise_cons] at hspaced
    rw [Layout.rewriteSites]
    by_cases hkind : site.kind = .reference
    · have hpositions : Layout.referencePositions (site :: sites) =
          site.position :: Layout.referencePositions sites := by
        simp [Layout.referencePositions, hkind]
      -- The words behind the one that is changed stay.
      have hlater (x : UInt16) : (Layout.referencePositions sites).map
          (info.overwrite site.position (Bytes.ofU16 x)).u16At =
          (Layout.referencePositions sites).map info.u16At := by
        refine List.map_congr_left fun pos hpos => ?_
        obtain ⟨later, hmem, rfl⟩ := List.mem_map.1 hpos
        have hle := hspaced.1 later (List.mem_of_mem_filter hmem)
        exact Bytes.u16At_congr
          (Bytes.getElem?_overwrite_of_lt (.inr (by rw [Bytes.ofU16_length]; omega)))
          (Bytes.getElem?_overwrite_of_lt (.inr (by rw [Bytes.ofU16_length]; omega)))
      have hone : Visits f (Bytes.ofU16 <$> f (info.u16At site.position)) True
          [info.u16At site.position] := by
        rw [map_eq_pure_bind]
        exact (Visits.one _).map Bytes.ofU16
      rw [hpositions, List.map_cons, hkind]
      refine Visits.congr ?_ (iff_of_eq (and_self True)) List.singleton_append
      refine (hone.explain _).bind_of_run fun new s s' hrun => ?_
      replace hrun := Visits.run_explain.1 hrun
      rw [StateT.run_map] at hrun
      obtain ⟨⟨x, s''⟩, -, heq⟩ := Except.map_ok.1 hrun
      obtain ⟨rfl, -⟩ := Prod.mk.inj heq
      rw [← hlater x]
      exact ih _ hspaced.2
    · have hpositions : Layout.referencePositions (site :: sites) =
          Layout.referencePositions sites := by
        simp [Layout.referencePositions, hkind]
      rw [hpositions]
      refine Visits.congr ?_ (iff_of_eq (and_self True)) (List.nil_append _)
      have hnone : Visits f (match site.kind with
          | .reference => Bytes.ofU16 <$> f (info.u16At site.position)
          | _ => return []) True [] := by
        split
        · exact absurd ‹_› hkind
        · exact .pure []
      refine (hnone.explain _).bind_of_run fun new s s' hrun => ?_
      replace hrun := Visits.run_explain.1 hrun
      split at hrun
      · exact absurd ‹_› hkind
      · obtain ⟨rfl, -⟩ := Prod.mk.inj (Except.ok.inj hrun)
        rw [Bytes.overwrite_nil]
        exact ih info hspaced.2

theorem visits_changeInfo (pool : Pool) (name : String) (info : Bytes) :
    Visits f (changeInfo pool f name info) ((Layout.visit pool name info).failure = none)
      (Layout.references pool name info) := by
  unfold changeInfo Layout.rewrite
  cases hfailure : (Layout.visit pool name info).failure with
  | none =>
    have hspaced := (Layout.spaced_visit hfailure).ordered
    refine Visits.congr ?_ (iff_of_true True.intro rfl) rfl
    simp only [hfailure]
    exact (visits_rewriteSites name _ info hspaced).map id
  | some e =>
    -- The visit failed, and so does the change once the sites are rewritten.
    refine .fails (fun s a s' hrun => ?_) (by simp)
    simp only [StateT.run_bind, hfailure] at hrun
    obtain ⟨answer, -, hthrow⟩ := Except.bind_ok.1 hrun
    cases hthrow

theorem Instruction.Valid.index_le {ins : Instruction} {i : UInt16} (h : ins.Valid)
    (hindex : ins.operand.index? = some i) (hshape : ins.op.shape = .pool8) : i ≤ 255 := by
  obtain ⟨op, operand, wide, offset⟩ := ins
  obtain ⟨hoperand, -⟩ := h
  revert hoperand hindex
  dsimp only at hshape ⊢
  generalize op.shape = s at operand hshape
  subst hshape
  cases operand with | pool8 j =>
  intro hindex hle
  obtain rfl := Option.some.inj hindex
  exact hle

section

variable (hf : ∀ i s x s', (f i).run s = .ok (x, s') → x ≤ i)

include hf

/-- An operand that fits a byte still does when it has not grown. -/
theorem visits_changeOperands (instructions : List Instruction) (code : Bytes)
    (hvalid : ∀ ins ∈ instructions, ins.Valid) :
    Visits f (changeOperands f instructions code) True
      (instructions.flatMap fun ins => ins.operand.index?.toList) := by
  induction instructions generalizing code with
  | nil => exact .pure code
  | cons ins rest ih =>
    rw [List.forall_mem_cons] at hvalid
    rw [changeOperands]
    generalize code.splitAt ins.size = parts
    obtain ⟨own, more⟩ := parts
    dsimp only
    have hmore (own : Bytes) := (ih more hvalid.2).map (own ++ ·)
    cases hindex : ins.operand.index? with
    | none =>
      simp only [pure_bind, List.flatMap_cons, hindex, Option.toList_none, List.nil_append]
      exact hmore own
    | some i =>
      simp only [pure_bind, List.flatMap_cons, hindex, Option.toList_some]
      refine Visits.congr ?_ (iff_of_eq (and_self True)) List.singleton_append
      refine ((Visits.one i).explain _).bind_of_run fun x s s' hrun => ?_
      by_cases hshape : ins.op.shape = .pool8
      · have hfits : ¬ 255 < x := by
          have hle := hf i s x s' (Visits.run_explain.1 hrun)
          have hi := hvalid.1.index_le hindex hshape
          exact UInt16.not_lt.2 (UInt16.le_trans hle hi)
        rw [if_pos hshape, if_neg hfits]
        exact hmore _
      · rw [if_neg hshape]
        exact hmore _

theorem visits_changeCode (code : Bytes) :
    Visits f (changeCode f code)
      (∃ instructions, Instruction.decodeAll code = .ok instructions)
      (Instruction.references code) := by
  unfold changeCode Instruction.references
  cases hdecode : Instruction.decodeAll code with
  | error e => exact .fails (fun s a s' => nofun) (by simp)
  | ok instructions =>
    have hvalid := (Instruction.decodeAll_ok.1 hdecode).valid
    exact (visits_changeOperands hf instructions code hvalid).congr (by simp) rfl

omit hf in
private theorem visits_changeAll_of (pool : Pool) {attributes : List Attribute}
    (h : ∀ a ∈ attributes, Visits f (a.changeReferences pool f) (a.Walkable pool)
      (a.references pool)) :
    Visits f (Attribute.changeAll pool f attributes) (∀ a ∈ attributes, a.Walkable pool)
      (Attribute.referencesAll pool attributes) := by
  induction attributes with
  | nil =>
    rw [Attribute.changeAll, Attribute.referencesAll]
    exact (Visits.pure []).congr (by simp) rfl
  | cons a attributes ih =>
    rw [List.forall_mem_cons] at h
    rw [Attribute.changeAll, Attribute.referencesAll]
    exact (h.1.bind fun a' => (ih h.2).map (a' :: ·)).congr List.forall_mem_cons.symm rfl

theorem Attribute.visits_changeReferences (pool : Pool) (a : Attribute) :
    Visits f (a.changeReferences pool f) (a.Walkable pool) (a.references pool) := by
  induction a using Attribute.induction with
  | hraw i name info =>
    rw [Attribute.changeReferences, Attribute.references]
    refine ((visits_changeIndex i).bind fun i' =>
      (visits_changeInfo pool name info).map (Attribute.raw i' name)).congr ?_ rfl
    constructor
    · rintro ⟨-, hvisit⟩
      exact .raw hvisit
    · rintro ⟨hvisit⟩
      exact ⟨True.intro, hvisit⟩
  | hcode i name body ih =>
    obtain ⟨maxStack, maxLocals, bytecode, handlers, attributes⟩ := body
    rw [Attribute.changeReferences, Attribute.references]
    have hhandlers : Visits f (handlers.mapM fun h =>
        return { h with catchType := ← changeIndex f h.catchType }) (∀ h ∈ handlers, True)
        (handlers.flatMap fun h => referencesOf h.catchType) :=
      Visits.mapM fun h _ => (visits_changeIndex h.catchType).map fun i => { h with catchType := i }
    refine ((visits_changeIndex i).bind fun i' => (visits_changeCode hf bytecode).bind fun code =>
      hhandlers.bind fun handlers' => (visits_changeAll_of pool ih).map fun attributes' =>
        Attribute.code i' name ⟨maxStack, maxLocals, code, handlers', attributes'⟩).congr ?_ rfl
    constructor
    · rintro ⟨-, hcode, -, hattributes⟩
      exact .code hcode hattributes
    · rintro ⟨⟩
      exact ⟨True.intro, ‹_›, fun _ _ => True.intro, ‹_›⟩

theorem Attribute.visits_changeAll (pool : Pool) (attributes : List Attribute) :
    Visits f (Attribute.changeAll pool f attributes) (∀ a ∈ attributes, a.Walkable pool)
      (Attribute.referencesAll pool attributes) :=
  visits_changeAll_of pool fun a _ => a.visits_changeReferences hf pool

theorem Member.visits_changeReferences (pool : Pool) (m : Member) :
    Visits f (m.changeReferences pool f) (∀ a ∈ m.attributes, a.Walkable pool)
      (m.references pool) := by
  unfold Member.changeReferences Member.references
  have hall := Attribute.visits_changeAll hf pool m.attributes
  have hparts := (visits_changeIndex m.nameIndex).bind fun nameIndex =>
    (visits_changeIndex m.descriptorIndex).bind fun descriptorIndex =>
      hall.map fun attributes => { m with nameIndex, descriptorIndex, attributes }
  exact hparts.congr (by simp) rfl

/-- The change of a class, when no index grows. -/
theorem ClassFile.visits_changeReferences (cf : ClassFile) :
    Visits f (cf.changeReferences f) cf.Walkable cf.references := by
  have hinterfaces : Visits f (cf.interfaces.mapM (changeIndex f)) (∀ i ∈ cf.interfaces, True)
      (cf.interfaces.flatMap referencesOf) :=
    Visits.mapM fun i _ => visits_changeIndex i
  have hmembers (members : List Member) :
      Visits f (members.mapM (·.changeReferences cf.pool f))
        (∀ m ∈ members, ∀ a ∈ m.attributes, a.Walkable cf.pool)
        (members.flatMap (Member.references cf.pool)) :=
    Visits.mapM fun m _ => m.visits_changeReferences hf cf.pool
  have hall := Attribute.visits_changeAll hf cf.pool cf.attributes
  unfold ClassFile.changeReferences ClassFile.references
  have hparts := (visits_changeIndex cf.thisClass).bind fun thisClass =>
    (visits_changeIndex cf.superClass).bind fun superClass => hinterfaces.bind fun interfaces =>
      (hmembers cf.fields).bind fun fields => (hmembers cf.methods).bind fun methods =>
        hall.map fun attributes =>
          { cf with thisClass, superClass, interfaces, fields, methods, attributes }
  refine hparts.congr ?_ rfl
  constructor
  · rintro ⟨-, -, -, hfields, hmethods, hattributes⟩
    exact ⟨hfields, hmethods, hattributes⟩
  · rintro ⟨hfields, hmethods, hattributes⟩
    exact ⟨True.intro, True.intro, fun _ _ => True.intro, hfields, hmethods, hattributes⟩

end

end Cleartext
