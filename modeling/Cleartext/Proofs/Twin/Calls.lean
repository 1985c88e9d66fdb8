import Cleartext.Proofs.Pattern.Operands
import Cleartext.Proofs.Twin.Objects

/-!
# The pool, fields and calls in both runs

The class of the smaller run has another pool.  `Pool.Stands` says of two indices that they
stand for the same, and `SitesLike` that they are call sites that are alike: loading a
constant, looking up a class, accessing a field and concatenating come to the same then.

A call means routines that stand under one name in both programs, or the same method of the
library (`invoke_twin`); that the smaller program has the routine is what is asked of the
classes.
-/

namespace Cleartext

/-! ## Indices that stand for the same -/

namespace Pool

variable {p q : Pool} {i x : UInt16}

/-- Two indices stand for the same, or both for nothing. -/
structure Stands (p q : Pool) (i x : UInt16) : Prop where
  right : p.StandsFor q i x
  left : q.StandsFor p x i

theorem StandsFor.className (h : p.StandsFor q i x) {s : String} (hs : p.className i = .ok s) :
    q.className x = .ok s := by
  have hmeaning : Pattern.poolMeaning p .new i = .ok (.text s) := Except.bind_ok.2 ⟨s, hs, rfl⟩
  obtain ⟨s', hs', heq⟩ := Except.bind_ok.1 (h .new _ hmeaning)
  obtain rfl := Pattern.Meaning.text.inj (Except.ok.inj heq)
  exact hs'

theorem stringUnits_ok {u : Units} : p.stringUnits i = .ok u ↔ p.value i = .ok (.string u) := by
  unfold stringUnits value
  cases p.get i with
  | error e => exact iff_of_false nofun nofun
  | ok c =>
    cases c with
    | string n =>
      show p.units n = .ok u ↔ (p.units n >>= fun u => pure (Loadable.string u)) = .ok (.string u)
      cases p.units n with
      | error e => exact iff_of_false nofun nofun
      | ok u' => simp [bind, Except.bind, pure, Except.pure]
    | class_ n =>
      refine iff_of_false nofun fun h => ?_
      have hread : (p.text n >>= fun s => pure (Loadable.class_ s)) = .ok (.string u) := h
      obtain ⟨s, -, heq⟩ := Except.bind_ok.1 hread
      cases heq
    | _ => exact iff_of_false nofun nofun

end Pool

namespace Machine

open Cleartext.Pool (Stands)

section

variable {p q : Pool} {i x : UInt16}

/-- The references are one, and the one that the index names in the larger class. -/
theorem ref_both (h : p.Stands q i x) :
    Both (fun r r' => r = r' ∧ p.ref i = .ok r) (p.ref i) (q.ref x) := by
  have hboth : Both Eq (p.ref i) (q.ref x) := both_eq fun _ => ⟨h.right.ref, h.left.ref⟩
  generalize p.ref i = e at hboth ⊢
  generalize q.ref x = e' at hboth ⊢
  cases hboth with
  | ok heq => exact .ok ⟨heq, rfl⟩
  | error => exact .error

theorem value_both (h : p.Stands q i x) : Both Eq (p.value i) (q.value x) :=
  both_eq fun _ => ⟨h.right.value, h.left.value⟩

theorem className_both (h : p.Stands q i x) : Both Eq (p.className i) (q.className x) :=
  both_eq fun _ => ⟨h.right.className, h.left.className⟩

theorem stringUnits_both (h : p.Stands q i x) : Both Eq (p.stringUnits i) (q.stringUnits x) :=
  both_eq fun _ => by
    rw [Pool.stringUnits_ok, Pool.stringUnits_ok]
    exact ⟨h.right.value, h.left.value⟩

end

/-- Bootstrap methods that are alike: one reference, and arguments that stand for the same. -/
def BootstrapLike (p q : Pool) (b b' : Ref × List UInt16) : Prop :=
  b.1 = b'.1 ∧ List.Forall₂ (p.Stands q) b.2 b'.2

/-- Entries of two pools are call sites that are alike, or neither is one. -/
inductive EntriesOfSites (cf cf' : ClassFile) : Constant → Constant → Prop
  | site {m n m' n' : UInt16}
      (hnames : Both Eq (cf.pool.nameAndType n) (cf'.pool.nameAndType n'))
      (hbootstrap : Both (BootstrapLike cf.pool cf'.pool) (Step.bootstrap cf m)
        (Step.bootstrap cf' m')) :
      EntriesOfSites cf cf' (.invokeDynamic m n) (.invokeDynamic m' n')
  | other {c c' : Constant} (h : ∀ m n, c ≠ .invokeDynamic m n)
      (h' : ∀ m n, c' ≠ .invokeDynamic m n) : EntriesOfSites cf cf' c c'

/-- Two indices name call sites that are alike, or neither names one. -/
def SitesLike (cf cf' : ClassFile) (i x : UInt16) : Prop :=
  Both (EntriesOfSites cf cf') (cf.pool.get i) (cf'.pool.get x)

/-- Routines that stand under one name in two programs. -/
def SameRoutine (p p' : Program) (r r' : Routine) : Prop :=
  ∃ name descriptor, p.routine? name descriptor = some r ∧ p'.routine? name descriptor = some r'

/-- Outcomes that are alike.  `goes` tells where the method may go on. -/
inductive Outcome.Like (p p' : Program) (goes : Numbering → Int → Prop) (f : Numbering) :
    Outcome → Outcome → Prop
  | next {pc : Int} (h : goes f pc) : Like p p' goes f (.next pc) (.next pc)
  | finish {v v' : Value} (hv : v.Like f v') : Like p p' goes f (.finish v) (.finish v')
  | enter {r r' : Routine} {args args' : List Value} (hr : SameRoutine p p' r r')
      (hargs : List.Forall₂ (Value.Like f) args args') (returns : Bool) :
      Like p p' goes f (.enter r args returns) (.enter r' args' returns)

namespace Step

variable {f : Numbering} {p p' : Program} {α : Type} {A : Numbering → α → α → Prop} {v v' : Value}
  {i x : UInt16}

theorem program_twin : StepStill p p' (fun σ σ' => Setting.Of p p' f σ σ') f read read :=
  fun _ _ _ _ _ _ hσ hF hw => .ok (.refl f) hw hF (.refl _) (.refl _) ⟨rfl, hσ⟩

theorem world_twin : StepStill p p' (World.Like f) f (getThe World) (getThe World) :=
  fun _ _ _ _ _ _ _ hF hw => .ok (.refl f) hw hF (.refl _) (.refl _) ⟨rfl, hw⟩

theorem lookup_twin {R : α → α → Prop} {a a' : Except Error α} (h : Both R a a') :
    StepStill p p' R f (lookup a) (lookup a') :=
  .ofRun (lift_twin h)

/-! ## Constants and classes -/

theorem loadConstant_twin (h : p.cf.pool.Stands p'.cf.pool i x) :
    StepTwin p p' (fun _ _ _ => True) f (loadConstant i) (loadConstant x) := by
  refine program_twin.bind fun σ σ' hσ => ?_
  rw [hσ.program, hσ.program']
  exact (lookup_twin (value_both h)).bind_eq fun l => push_answer (.ofRun (ofLoadable_twin l))

theorem classAt_twin (h : p.cf.pool.Stands p'.cf.pool i x) :
    StepStill p p' Eq f (classAt i) (classAt x) := by
  refine program_twin.bind fun σ σ' hσ => ?_
  rw [hσ.program, hσ.program']
  exact lookup_twin (className_both h)

theorem newReferenceArray_twin (h : p.cf.pool.Stands p'.cf.pool i x) :
    StepTwin p p' (fun _ _ _ => True) f (newReferenceArray i) (newReferenceArray x) :=
  (classAt_twin h).bind_eq fun _ => popInt_twin.bind_eq fun _ =>
    check_twin (throwNew_twin _ _) fun _ => push_answer (.ofRun (newArray_twin _ _))

theorem newMultiArray_twin (h : p.cf.pool.Stands p'.cf.pool i x) (count : UInt8) :
    StepTwin p p' (fun _ _ _ => True) f (newMultiArray i count) (newMultiArray x count) :=
  (classAt_twin h).bind_eq fun _ => (popValues_twin _).bind fun _ _ hvs =>
    (dimensions_twin hvs).bind_eq fun _ => push_answer (.ofRun (newNested_twin _ _))

theorem testInstance_twin (h : p.cf.pool.Stands p'.cf.pool i x) :
    StepStill p p' Eq f (testInstance i) (testInstance x) :=
  (classAt_twin h).bind_eq fun name => popRef_twin.bind fun _ _ hv =>
    test_twin hv false name fun _ => push_twin (.int _)

theorem checkCast_twin (h : p.cf.pool.Stands p'.cf.pool i x) :
    StepStill p p' Eq f (checkCast i) (checkCast x) := by
  refine (classAt_twin h).bind_eq fun name => popRef_twin.bind fun _ _ hv =>
    test_twin hv true name fun good => ?_
  cases good with
  | true => exact push_twin hv
  | false =>
    exact StepStill.bind_eq (.ofRun (className_twin hv)) fun _ =>
      StepStill.bind_eq (.ofRun (throwNew_twin _ _)) fun _ => push_twin hv

/-! ## Fields -/

/-- Fields of instances that are one: the number of the instance, and its fields. -/
def OwnersLike (f : Numbering) (a a' : Nat × List (String × Value)) : Prop :=
  f.Links a.1 a'.1 ∧ EntriesLike f a.2 a'.2

theorem fieldOwner_twin (hv : v.Like f v') :
    Still (OwnersLike f) f (fieldOwner v) (fieldOwner v') := by
  have hother {v v' : Value} (hv : v.Like f v') : Still (OwnersLike f) f
      (do unsupported (.fieldAccess (← Machine.className v)))
      (do unsupported (.fieldAccess (← Machine.className v'))) :=
    (className_twin hv).bind_eq fun _ => .unsupported
  cases hv with
  | null => exact throwNull_twin
  | ref hij =>
    refine found_twin hij fun _ _ ho => ?_
    cases ho with
    | «instance» cls hfields hhidden =>
      cases hfields with
      | none => exact hother (.ref hij)
      | some hfields => exact .done ⟨hij, hfields⟩
    | _ => exact hother (.ref hij)
  | int n => exact hother (.int n)
  | long n => exact hother (.long n)
  | float bits => exact hother (.float bits)
  | double bits => exact hother (.double bits)
  | address h => exact hother (.address h)

/-- A reference to a field of the class itself, which both classes have. -/
def OwnField (f : Numbering) (r r' : Ref) : Prop := r = r' ∧ f.used r.name

section

variable (h : p.cf.pool.Stands p'.cf.pool i x) (hname : p'.name = p.name)
  (hused : ∀ r, p.cf.pool.ref i = .ok r → r.owner = p.name → f.used r.name)

include h hname hused

theorem fieldRef_twin : StepStill p p' (OwnField f) f (fieldRef i) (fieldRef x) := by
  refine program_twin.bind fun σ σ' hσ => ?_
  rw [hσ.program, hσ.program']
  refine (lookup_twin (ref_both h)).bind fun r r' hr => ?_
  obtain ⟨rfl, hr⟩ := hr
  dsimp only
  rw [hname]
  exact check_twin .unsupported fun howner => .done ⟨rfl, hused r hr (not_not.1 howner)⟩

theorem getStatic_twin : StepStill p p' Eq f (getStatic i) (getStatic x) := by
  refine (fieldRef_twin h hname hused).bind fun r r' hr => world_twin.bind fun w w' hw => ?_
  obtain ⟨rfl, hr⟩ := hr
  have hfound := hw.statics r.name hr
  generalize named? w.statics r.name = v at hfound ⊢
  generalize named? w'.statics r.name = v' at hfound ⊢
  cases hfound with
  | none => exact .unsupported
  | some hv => exact push_twin hv

theorem putStatic_twin : StepStill p p' Eq f (putStatic i) (putStatic x) := by
  refine (fieldRef_twin h hname hused).bind fun r r' hr => pop_twin.bind fun v v' hv => ?_
  obtain ⟨rfl, hr⟩ := hr
  intro σ σ' F F' w w' _ hF hw
  exact .ok (.refl f) { hw with statics := hw.statics.setNamed r.name hv } hF (.refl _) (.refl _)
    ⟨rfl, rfl⟩

theorem getField_twin : StepStill p p' Eq f (getField i) (getField x) := by
  refine (fieldRef_twin h hname hused).bind fun r r' hr => popRef_twin.bind fun v v' hv =>
    StepStill.bind (.ofRun (fieldOwner_twin hv)) fun a a' ha => ?_
  obtain ⟨rfl, hr⟩ := hr
  exact push_twin (Library.getD_like (ha.2 r.name hr))

theorem putField_twin : StepStill p p' Eq f (putField i) (putField x) := by
  refine (fieldRef_twin h hname hused).bind fun r r' hr => pop_twin.bind fun v v' hv =>
    popRef_twin.bind fun u u' hu => StepStill.bind (.ofRun (fieldOwner_twin hu)) fun a a' ha => ?_
  obtain ⟨rfl, hr⟩ := hr
  refine .ofRun (update_twin ha.1 fun o o' ho => ?_)
  cases ho with
  | «instance» cls hfields hhidden =>
    exact .instance cls (.some (ha.2.setNamed r.name hv)) hhidden
  | string units => exact .string units
  | array component h => exact .array component h

end

/-! ## Calls -/

theorem head?_like {vs vs' : List Value} (h : List.Forall₂ (Value.Like f) vs vs') :
    Option.Rel (Value.Like f) vs.head? vs'.head? := by
  cases h with
  | nil => exact .none
  | cons hv _ => exact .some hv

theorem headD_like {vs vs' : List Value} (h : List.Forall₂ (Value.Like f) vs vs') :
    (vs.headD .null).Like f (vs'.headD .null) := by
  cases h with
  | nil => exact .null
  | cons hv _ => exact hv

/-- A call in both runs.  When the class itself answers it, both programs have a routine for
it or neither has. -/
theorem invoke_twin {goes : Numbering → Int → Prop} (h : p.cf.pool.Stands p'.cf.pool i x)
    (hname : p'.name = p.name) (isStatic isVirtual : Bool) {next : Int} (hnext : ∀ g, goes g next)
    (hcalls : ∀ r, p.cf.pool.ref i = .ok r → isVirtual = true ∨ r.owner = p.name →
      Option.Rel (SameRoutine p p') (p.routine? r.name r.descriptor)
        (p'.routine? r.name r.descriptor)) :
    StepTwin p p' (Outcome.Like p p' goes) f (invoke i isStatic isVirtual next)
      (invoke x isStatic isVirtual next) := by
  refine program_twin.bind fun σ σ' hσ => ?_
  have hlineage : p'.lineage = p.lineage := by
    rw [← hσ.program, ← hσ.program']
    exact hσ.like.lineage
  rw [hσ.program, hσ.program']
  refine (lookup_twin (ref_both h)).bind fun r r' hr => ?_
  obtain ⟨rfl, hr⟩ := hr
  refine (lookup_twin (both_eq fun _ => Iff.rfl)).bind_eq fun descriptor =>
    (popValues_twin _).bind fun args args' hargs => ?_
  refine .of_nodup fun hf => ?_
  have hnull : args.head? = some .null ↔ args'.head? = some .null := by
    have hhead := head?_like hargs
    generalize args.head? = v at hhead ⊢
    generalize args'.head? = v' at hhead ⊢
    cases hhead with
    | none => simp
    | some hv => simpa using hv.eq_iff hf .null
  simp only [hnull]
  refine check_twin (throwNew_twin _ _) fun _ => ?_
  rw [hname, hlineage]
  refine either_twin (A := fun g o o' => g = f ∧ o = o' ∧
    (o = p.name → isVirtual = true ∨ r.owner = p.name)) (fun hvirtual => ?_) (fun _ => ?_) ?_
  · exact (StepTwin.ofRun (runtimeClass_twin (headD_like hargs))).imp fun _ _ _ _ ho =>
      ⟨ho.1, ho.2, fun _ => .inl hvirtual⟩
  · exact .pure ⟨rfl, rfl, .inr⟩
  -- The owner is known: the class itself answers, or the library does.
  intro g owner owner' _ howner
  obtain ⟨rfl, rfl, howner⟩ := howner
  have hfound : Option.Rel (SameRoutine p p')
      (if owner = p.name then p.routine? r.name r.descriptor else none)
      (if owner = p.name then p'.routine? r.name r.descriptor else none) := by
    split
    · exact hcalls r hr (howner ‹_›)
    · exact .none
  generalize (if owner = p.name then p.routine? r.name r.descriptor else none) = a at hfound ⊢
  generalize (if owner = p.name then p'.routine? r.name r.descriptor else none) = a' at hfound ⊢
  cases hfound with
  | some hroutine => exact .pure (.enter hroutine hargs _)
  | none =>
    have hmethod := Library.method?_twin p.lineage owner r
    generalize Library.method? p.lineage owner r = m at hmethod ⊢
    cases m with
    | none => exact .unsupported
    | some m =>
      refine (StepTwin.ofRun (hmethod m rfl hargs)).bind fun g v v' _ hv => ?_
      split
      · exact (push_twin hv).bind_eq fun _ => .pure (.next (hnext g))
      · exact .pure (.next (hnext g))

/-! ## Concatenation -/

/-- Values that are alike, of the same types. -/
def TypedLike (f : Numbering) (v v' : Value × String) : Prop := v.1.Like f v'.1 ∧ v.2 = v'.2

theorem fillRecipe_twin {q q' : Pool} (recipe : Units) {values values' : List (Value × String)}
    {constants constants' : List UInt16} (hvalues : List.Forall₂ (TypedLike f) values values')
    (hconstants : List.Forall₂ (q.Stands q') constants constants') :
    Twin (fun _ u u' => u = u') f (fillRecipe q recipe values constants)
      (fillRecipe q' recipe values' constants') := by
  induction recipe generalizing f values values' constants constants' with
  | nil => exact .pure rfl
  | cons u recipe ih =>
    unfold fillRecipe
    split
    · cases hvalues with
      | nil => exact .halt nofun nofun
      | @cons v v' _ _ hv hrest =>
        obtain ⟨v, type⟩ := v
        obtain ⟨v', type'⟩ := v'
        obtain ⟨hv, rfl⟩ : v.Like f v' ∧ type = type' := hv
        exact (unitsOf_twin hv type).bind_eq fun text =>
          (ih hrest hconstants).bind fun _ _ _ _ htext => .pure (by rw [htext])
    · split
      · cases hconstants with
        | nil => exact .halt nofun nofun
        | cons hindex hrest =>
          refine (lift_twin (value_both hindex)).bind_eq fun l =>
            (ofLoadable_twin l).bind fun g v v' hfg hv => (unitsOf_twin hv "").bind_eq fun text => ?_
          exact (ih (hvalues.imp fun _ _ h => ⟨h.1.mono hfg, h.2⟩) hrest).bind
            fun _ _ _ _ htext => .pure (by rw [htext])
      · exact (ih hvalues hconstants).bind fun _ _ _ _ htext => .pure (by rw [htext])

theorem zip_like {values values' : List Value} (h : List.Forall₂ (Value.Like f) values values')
    (types : List String) : List.Forall₂ (TypedLike f) (values.zip types) (values'.zip types) := by
  induction h generalizing types with
  | nil => exact .nil
  | cons hv _ ih =>
    cases types with
    | nil => exact .nil
    | cons type types => exact .cons ⟨hv, rfl⟩ (ih types)

/-- Both runs fill a recipe and push the text. -/
theorem concat_twin (recipe : Units) {values values' : List Value}
    (hvalues : List.Forall₂ (Value.Like f) values values') (types : List String)
    {constants constants' : List UInt16}
    (hconstants : List.Forall₂ (p.cf.pool.Stands p'.cf.pool) constants constants') :
    StepTwin p p' (fun _ _ _ => True) f
      (do
        let text ← fillRecipe p.cf.pool recipe (values.zip types) constants
        push (← newUnits text))
      (do
        let text ← fillRecipe p'.cf.pool recipe (values'.zip types) constants'
        push (← newUnits text)) := by
  refine (StepTwin.ofRun (fillRecipe_twin recipe (zip_like hvalues types) hconstants)).bind
    fun _ text _ _ htext => ?_
  subst htext
  exact push_answer (.ofRun (newUnits_twin text))

theorem map_eq_of_length {β γ : Type} {l l' : List β} (h : l.length = l'.length) (c : γ) :
    (l.map fun _ => c) = l'.map fun _ => c := by
  rw [List.map_const', List.map_const', h]

theorem invokeDynamic_twin (h : SitesLike p.cf p'.cf i x) :
    StepTwin p p' (fun _ _ _ => True) f (invokeDynamic i) (invokeDynamic x) := by
  refine program_twin.bind fun σ σ' hσ => ?_
  rw [hσ.program, hσ.program']
  refine (lookup_twin h).bind fun c c' hc => ?_
  cases hc with
  | other h h' =>
    cases c with
    | invokeDynamic m n => exact absurd rfl (h m n)
    | _ =>
      cases c' with
      | invokeDynamic m n => exact absurd rfl (h' m n)
      | _ => exact .halt nofun nofun
  | site hnames hbootstrap =>
    refine (lookup_twin hnames).bind_eq fun names => (lookup_twin hbootstrap).bind fun b b' hb => ?_
    obtain ⟨name, descriptor⟩ := names
    obtain ⟨r, args⟩ := b
    obtain ⟨r', args'⟩ := b'
    obtain ⟨rfl, hargs⟩ : r = r' ∧ List.Forall₂ (p.cf.pool.Stands p'.cf.pool) args args' := hb
    dsimp only
    split
    · refine (lookup_twin (both_eq fun _ => Iff.rfl)).bind_eq fun descriptor =>
        (popValues_twin _).bind fun values values' hvalues => ?_
      split
      · rw [map_eq_of_length hvalues.length_eq]
        exact concat_twin _ hvalues _ hargs
      · cases hargs with
        | nil => exact StepTwin.bind (A := fun _ _ _ => False) (.halt nofun nofun) nofun
        | cons hfirst hrest =>
          exact (lookup_twin (stringUnits_both hfirst)).bind_eq fun recipe =>
            concat_twin recipe hvalues _ hrest
    · exact StepTwin.bind (A := fun _ _ _ => False) .unsupported nofun

end Step

end Machine

end Cleartext
