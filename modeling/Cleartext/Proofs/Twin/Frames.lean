import Cleartext.Proofs.Machine.Frames
import Cleartext.Proofs.Twin.Methods

/-!
# Two frames side by side

An instruction works on a frame and on the state of the run.  `StepTwin` says of what it
does in the two runs that local variables and operand stacks stay alike, as the states do;
the routine of a frame and the place it has reached are left alone.  It holds of everything
that does not look into the class: variables, arrays, arithmetic and the operand stack.
-/

namespace Cleartext.Machine

variable {f g : Numbering}

/-! ## Frames -/

/-- The variables and the operand stacks of two frames are alike. -/
structure Frame.Like (f : Numbering) (F F' : Frame) : Prop where
  locals : List.Forall₂ (Value.Like f) F.locals.toList F'.locals.toList
  stack : List.Forall₂ (Value.Like f) F.stack F'.stack

theorem Frame.Like.mono {F F' : Frame} (h : F.Like f F') (hfg : f.Extends g) : F.Like g F' :=
  ⟨values_mono h.locals hfg, values_mono h.stack hfg⟩

/-! ## Computations on frames -/

/-- The ends of two computations on frames: answers that are alike, objects that are one and
thrown, or two failures. -/
inductive StepTogether {α : Type} (A : Numbering → α → α → Prop) (f : Numbering) (F F' : Frame) :
    (Except Halt α × Frame) × World → (Except Halt α × Frame) × World → Prop
  | ok {g : Numbering} {a a' : α} {F₁ F₁' : Frame} {w w' : World} (hfg : f.Extends g)
      (hw : w.Like g w') (hF : F₁.Like g F₁') (hkeep : F₁.Keeps F) (hkeep' : F₁'.Keeps F')
      (ha : A g a a') : StepTogether A f F F' ((.ok a, F₁), w) ((.ok a', F₁'), w')
  | thrown {g : Numbering} {i j : Nat} {F₁ F₁' : Frame} {w w' : World} (hfg : f.Extends g)
      (hw : w.Like g w') (hF : F₁.Like g F₁') (hkeep : F₁.Keeps F) (hkeep' : F₁'.Keeps F')
      (hij : g.Links i j) :
      StepTogether A f F F' ((.error (.thrown i), F₁), w) ((.error (.thrown j), F₁'), w')
  | halted {h h' : Halt} {F₁ F₁' : Frame} {w w' : World} (hh : ∀ i, h ≠ .thrown i)
      (hh' : ∀ i, h' ≠ .thrown i) :
      StepTogether A f F F' ((.error h, F₁), w) ((.error h', F₁'), w')

/-- The settings of the runs of two programs are alike. -/
structure Setting.Of (p p' : Program) (f : Numbering) (σ σ' : Setting) : Prop where
  like : σ.Like f σ'
  program : σ.program = p
  program' : σ'.program = p'

/-- Two computations on frames keep frames and states alike, and come to ends that are. -/
def StepTwin (p p' : Program) {α : Type} (A : Numbering → α → α → Prop) (f : Numbering)
    (s s' : Step α) : Prop :=
  ∀ σ σ' F F' w w', Setting.Of p p' f σ σ' → F.Like f F' → w.Like f w' →
    StepTogether A f F F' (s σ F w) (s' σ' F' w')

/-- Two computations on frames that number no object when they come to an answer. -/
abbrev StepStill (p p' : Program) {α : Type} (A : α → α → Prop) (f : Numbering) (s s' : Step α) :
    Prop :=
  StepTwin p p' (fun g a a' => g = f ∧ A a a') f s s'

section

variable {p p' : Program} {α β : Type} {A : Numbering → α → α → Prop}
  {B : Numbering → β → β → Prop} {s s' : Step α}

theorem StepTogether.weaken {F F' F₁ F₁' : Frame} {e e' : (Except Halt α × Frame) × World}
    (h : StepTogether A g F₁ F₁' e e') (hfg : f.Extends g) (hkeep : F₁.Keeps F)
    (hkeep' : F₁'.Keeps F') : StepTogether A f F F' e e' := by
  cases h with
  | ok hgh hw hF hk hk' ha =>
    exact .ok (hfg.trans hgh) hw hF (hk.trans hkeep) (hk'.trans hkeep') ha
  | thrown hgh hw hF hk hk' hij =>
    exact .thrown (hfg.trans hgh) hw hF (hk.trans hkeep) (hk'.trans hkeep') hij
  | halted hh hh' => exact .halted hh hh'

theorem Setting.Of.mono {σ σ' : Setting} (h : Setting.Of p p' f σ σ') (hfg : f.Extends g) :
    Setting.Of p p' g σ σ' :=
  ⟨h.like.mono hfg, h.program, h.program'⟩

/-- Twins one after another. -/
theorem StepTwin.bind {k k' : α → Step β} (h : StepTwin p p' A f s s')
    (hk : ∀ g a a', f.Extends g → A g a a' → StepTwin p p' B g (k a) (k' a')) :
    StepTwin p p' B f (s >>= k) (s' >>= k') := by
  intro σ σ' F F' w w' hσ hF hw
  rw [step_bind_eq, step_bind_eq]
  have htogether := h σ σ' F F' w w' hσ hF hw
  generalize s σ F w = e at htogether
  generalize s' σ' F' w' = e' at htogether
  cases htogether with
  | ok hfg hw hF hkeep hkeep' ha =>
    exact (hk _ _ _ hfg ha _ _ _ _ _ _ (hσ.mono hfg) hF hw).weaken hfg hkeep hkeep'
  | thrown hfg hw hF hkeep hkeep' hij => exact .thrown hfg hw hF hkeep hkeep' hij
  | halted hh hh' => exact .halted hh hh'

theorem StepTwin.pure {a a' : α} (ha : A f a a') : StepTwin p p' A f (pure a) (pure a') :=
  fun _ _ _ _ _ _ _ hF hw => .ok (.refl f) hw hF (.refl _) (.refl _) ha

theorem StepTwin.done {R : α → α → Prop} {a a' : α} (ha : R a a') :
    StepStill p p' R f (Pure.pure a) (Pure.pure a') :=
  StepTwin.pure ⟨rfl, ha⟩

/-- A computation that numbers no object, and then another. -/
theorem StepStill.bind {R : α → α → Prop} {k k' : α → Step β} (h : StepStill p p' R f s s')
    (hk : ∀ a a', R a a' → StepTwin p p' B f (k a) (k' a')) :
    StepTwin p p' B f (s >>= k) (s' >>= k') :=
  StepTwin.bind h fun _ _ _ _ ha => ha.1 ▸ hk _ _ ha.2

/-- A computation that numbers no object and has one answer, and then another. -/
theorem StepStill.bind_eq {k k' : α → Step β} (h : StepStill p p' Eq f s s')
    (hk : ∀ a, StepTwin p p' B f (k a) (k' a)) : StepTwin p p' B f (s >>= k) (s' >>= k') :=
  StepStill.bind h fun a _ ha => ha ▸ hk a

theorem StepTwin.imp {A' : Numbering → α → α → Prop} (h : StepTwin p p' A f s s')
    (himp : ∀ g a a', f.Extends g → A g a a' → A' g a a') : StepTwin p p' A' f s s' := by
  intro σ σ' F F' w w' hσ hF hw
  have htogether := h σ σ' F F' w w' hσ hF hw
  generalize s σ F w = e at htogether ⊢
  generalize s' σ' F' w' = e' at htogether ⊢
  cases htogether with
  | ok hfg hw hF hkeep hkeep' ha => exact .ok hfg hw hF hkeep hkeep' (himp _ _ _ hfg ha)
  | thrown hfg hw hF hkeep hkeep' hij => exact .thrown hfg hw hF hkeep hkeep' hij
  | halted hh hh' => exact .halted hh hh'

/-- A computation on the state of the run alone. -/
theorem StepTwin.ofRun {r r' : Run α} (h : Twin A f r r') :
    StepTwin p p' A f (liftM r) (liftM r') := by
  intro σ σ' F F' w w' hσ hF hw
  show StepTogether A f F F' (((r σ w).1, F), (r σ w).2) (((r' σ' w').1, F'), (r' σ' w').2)
  have htogether := h σ σ' w w' hσ.like hw
  generalize r σ w = e at htogether ⊢
  generalize r' σ' w' = e' at htogether ⊢
  cases htogether with
  | ok hfg hw ha => exact .ok hfg hw (hF.mono hfg) (.refl _) (.refl _) ha
  | thrown hfg hw hij => exact .thrown hfg hw (hF.mono hfg) (.refl _) (.refl _) hij
  | halted hh hh' => exact .halted hh hh'

/-- While two runs are alike, no object has two numbers. -/
theorem StepTwin.of_nodup (h : f.ids.Nodup → StepTwin p p' A f s s') : StepTwin p p' A f s s' :=
  fun σ σ' F F' w w' hσ hF hw => h hw.heap.nodup σ σ' F F' w w' hσ hF hw

theorem StepTwin.halt {h h' : Halt} (hh : ∀ i, h ≠ .thrown i) (hh' : ∀ i, h' ≠ .thrown i) :
    StepTwin p p' A f (throw h : Step α) (throw h') :=
  fun _ _ _ _ _ _ _ _ _ => .halted hh hh'

theorem StepTwin.misuse {m m' : Misuse} :
    StepTwin p p' A f (Step.misuse m : Step α) (Step.misuse m') :=
  fun _ _ _ _ _ _ _ _ _ => .halted nofun nofun

theorem StepTwin.unsupported {lack lack' : Lack} :
    StepTwin p p' A f (liftM (Machine.unsupported lack : Run α) : Step α)
      (liftM (Machine.unsupported lack' : Run α)) :=
  .ofRun .unsupported

end

namespace Step

variable {p p' : Program} {α β : Type} {A : Numbering → α → α → Prop} {v v' : Value}

/-! ## The operand stack -/

theorem push_twin (hv : v.Like f v') : StepStill p p' Eq f (push v) (push v') :=
  fun _ _ _ _ _ _ _ hF hw =>
    .ok (.refl f) hw ⟨hF.locals, .cons hv hF.stack⟩ ⟨rfl, rfl, rfl⟩ ⟨rfl, rfl, rfl⟩ ⟨rfl, rfl⟩

theorem setStack_twin {S S' : Stack} (hS : List.Forall₂ (Value.Like f) S S') :
    StepStill p p' Eq f (setStack S) (setStack S') :=
  fun _ _ _ _ _ _ _ hF hw =>
    .ok (.refl f) hw ⟨hF.locals, hS⟩ ⟨rfl, rfl, rfl⟩ ⟨rfl, rfl, rfl⟩ ⟨rfl, rfl⟩

theorem get_twin : StepStill p p' (Frame.Like f) f (getThe Frame) (getThe Frame) :=
  fun _ _ _ _ _ _ _ hF hw => .ok (.refl f) hw hF (.refl _) (.refl _) ⟨rfl, hF⟩

theorem pop_twin : StepStill p p' (Value.Like f) f pop pop := by
  refine get_twin.bind fun F F' hF => ?_
  have hstack := hF.stack
  generalize F.stack = S at hstack ⊢
  generalize F'.stack = S' at hstack ⊢
  cases hstack with
  | nil => exact .misuse
  | cons hv hrest => exact (setStack_twin hrest).bind_eq fun _ => .done hv

theorem takeValues_like (n : Nat) {S S' : Stack} (h : List.Forall₂ (Value.Like f) S S') :
    Both (fun a a' => List.Forall₂ (Value.Like f) a.1 a'.1 ∧
      List.Forall₂ (Value.Like f) a.2 a'.2) (Stack.takeValues n S) (Stack.takeValues n S') := by
  unfold Stack.takeValues
  rw [h.length_eq]
  split
  · exact .error
  · exact .ok ⟨List.rel_reverse (List.forall₂_take n h), List.forall₂_drop n h⟩

theorem popValues_twin (n : Nat) :
    StepStill p p' (List.Forall₂ (Value.Like f)) f (popValues n) (popValues n) := by
  refine get_twin.bind fun F F' hF => ?_
  have htaken := takeValues_like n hF.stack
  generalize Stack.takeValues n F.stack = e at htaken ⊢
  generalize Stack.takeValues n F'.stack = e' at htaken ⊢
  cases htaken with
  | error => exact .misuse
  | ok h => exact (setStack_twin h.2).bind_eq fun _ => .done h.1

theorem isWide_eq (hv : v.Like f v') : v.isWide = v'.isWide := by cases hv <;> rfl

theorem takeSlots_like (n : Nat) {S S' : Stack} (h : List.Forall₂ (Value.Like f) S S') :
    Both (fun a a' => List.Forall₂ (Value.Like f) a.1 a'.1 ∧
      List.Forall₂ (Value.Like f) a.2 a'.2) (Stack.takeSlots n S) (Stack.takeSlots n S') := by
  induction h generalizing n with
  | nil => cases n with
    | zero => exact .ok ⟨.nil, .nil⟩
    | succ n => exact .error
  | @cons v v' S S' hv hrest ih =>
    match n with
    | 0 => exact .ok ⟨.nil, .cons hv hrest⟩
    | 1 =>
      unfold Stack.takeSlots
      rw [isWide_eq hv]
      split
      · exact .error
      · exact .ok ⟨.cons hv .nil, hrest⟩
    | n + 2 =>
      unfold Stack.takeSlots
      rw [isWide_eq hv]
      have htaken := ih (if v'.isWide then n else n + 1)
      generalize Stack.takeSlots _ S = e at htaken ⊢
      generalize Stack.takeSlots _ S' = e' at htaken ⊢
      cases htaken with
      | error => exact .error
      | ok h => exact .ok ⟨.cons hv h.1, h.2⟩

theorem dup_like (copied skipped : Nat) {S S' : Stack} (h : List.Forall₂ (Value.Like f) S S') :
    Both (List.Forall₂ (Value.Like f)) (Stack.dup copied skipped S)
      (Stack.dup copied skipped S') := by
  unfold Stack.dup
  have htop := takeSlots_like copied h
  generalize Stack.takeSlots copied S = e at htop ⊢
  generalize Stack.takeSlots copied S' = e' at htop ⊢
  cases htop with
  | error => exact .error
  | @ok a a' ha =>
    show Both _ (Stack.takeSlots skipped a.2 >>= _) (Stack.takeSlots skipped a'.2 >>= _)
    have hmiddle := takeSlots_like skipped ha.2
    generalize Stack.takeSlots skipped a.2 = e at hmiddle ⊢
    generalize Stack.takeSlots skipped a'.2 = e' at hmiddle ⊢
    cases hmiddle with
    | error => exact .error
    | ok hb => exact .ok (List.rel_append (List.rel_append (List.rel_append ha.1 hb.1) ha.1) hb.2)

theorem drop_like (slots : Nat) {S S' : Stack} (h : List.Forall₂ (Value.Like f) S S') :
    Both (List.Forall₂ (Value.Like f)) (Stack.drop slots S) (Stack.drop slots S') := by
  unfold Stack.drop
  have htaken := takeSlots_like slots h
  generalize Stack.takeSlots slots S = e at htaken ⊢
  generalize Stack.takeSlots slots S' = e' at htaken ⊢
  cases htaken with
  | error => exact .error
  | ok h => exact .ok h.2

theorem reshape_twin {change : Stack → Except Misuse Stack}
    (hchange : ∀ {S S' : Stack}, List.Forall₂ (Value.Like f) S S' →
      Both (List.Forall₂ (Value.Like f)) (change S) (change S')) :
    StepStill p p' Eq f (reshape change) (reshape change) := by
  refine get_twin.bind fun F F' hF => ?_
  have hreshaped := hchange hF.stack
  generalize change F.stack = e at hreshaped ⊢
  generalize change F'.stack = e' at hreshaped ⊢
  cases hreshaped with
  | error => exact .misuse
  | ok h => exact setStack_twin h

theorem shuffle_twin (op : Opcode) : StepStill p p' Eq f (shuffle op) (shuffle op) := by
  unfold shuffle
  split
  · exact reshape_twin (drop_like 1)
  · exact reshape_twin (drop_like 2)
  · exact reshape_twin (dup_like 1 0)
  · exact reshape_twin (dup_like 1 1)
  · exact reshape_twin (dup_like 1 2)
  · exact reshape_twin (dup_like 2 0)
  · exact reshape_twin (dup_like 2 1)
  · exact reshape_twin (dup_like 2 2)
  · exact pop_twin.bind fun _ _ hb => pop_twin.bind fun _ _ ha =>
      (push_twin hb).bind_eq fun _ => push_twin ha

/-! ## Popped numbers and references -/

theorem wrongKind_twin (expected : String) (hv : v.Like f v') :
    StepTwin p p' A f (wrongKind expected v : Step α) (wrongKind expected v') :=
  StepStill.bind_eq (.ofRun (kindName_twin hv)) fun _ => .misuse

theorem popInt_twin : StepStill p p' Eq f popInt popInt := by
  refine pop_twin.bind fun _ _ hv => ?_
  cases hv with
  | int n => exact .done rfl
  | null => exact wrongKind_twin _ .null
  | long n => exact wrongKind_twin _ (.long n)
  | float bits => exact wrongKind_twin _ (.float bits)
  | double bits => exact wrongKind_twin _ (.double bits)
  | ref h => exact wrongKind_twin _ (.ref h)
  | address h => exact wrongKind_twin _ (.address h)

theorem popLong_twin : StepStill p p' Eq f popLong popLong := by
  refine pop_twin.bind fun _ _ hv => ?_
  cases hv with
  | long n => exact .done rfl
  | null => exact wrongKind_twin _ .null
  | int n => exact wrongKind_twin _ (.int n)
  | float bits => exact wrongKind_twin _ (.float bits)
  | double bits => exact wrongKind_twin _ (.double bits)
  | ref h => exact wrongKind_twin _ (.ref h)
  | address h => exact wrongKind_twin _ (.address h)

theorem popFloat_twin : StepStill p p' Eq f popFloat popFloat := by
  refine pop_twin.bind fun _ _ hv => ?_
  cases hv with
  | float bits => exact .done rfl
  | null => exact wrongKind_twin _ .null
  | int n => exact wrongKind_twin _ (.int n)
  | long n => exact wrongKind_twin _ (.long n)
  | double bits => exact wrongKind_twin _ (.double bits)
  | ref h => exact wrongKind_twin _ (.ref h)
  | address h => exact wrongKind_twin _ (.address h)

theorem popDouble_twin : StepStill p p' Eq f popDouble popDouble := by
  refine pop_twin.bind fun _ _ hv => ?_
  cases hv with
  | double bits => exact .done rfl
  | null => exact wrongKind_twin _ .null
  | int n => exact wrongKind_twin _ (.int n)
  | long n => exact wrongKind_twin _ (.long n)
  | float bits => exact wrongKind_twin _ (.float bits)
  | ref h => exact wrongKind_twin _ (.ref h)
  | address h => exact wrongKind_twin _ (.address h)

theorem popRef_twin : StepStill p p' (Value.Like f) f popRef popRef := by
  have hmisuse {v v' : Value} (hv : v.Like f v') : StepStill p p' (Value.Like f) f
      (do misuse (.notReference (← kindName v))) (do misuse (.notReference (← kindName v'))) :=
    StepStill.bind_eq (.ofRun (kindName_twin hv)) fun _ => .misuse
  refine pop_twin.bind fun _ _ hv => ?_
  cases hv with
  | null => exact .done .null
  | ref h => exact .done (.ref h)
  | address h => exact .done (.address h)
  | int n => exact hmisuse (.int n)
  | long n => exact hmisuse (.long n)
  | float bits => exact hmisuse (.float bits)
  | double bits => exact hmisuse (.double bits)

theorem pushFloat_twin (v : Float32) : StepStill p p' Eq f (pushFloat v) (pushFloat v) :=
  push_twin (.float _)

theorem pushDouble_twin (v : Float) : StepStill p p' Eq f (pushDouble v) (pushDouble v) :=
  push_twin (.double _)

/-- Pushes what a computation answers. -/
theorem push_answer {s s' : Step Value} (h : StepTwin p p' Value.Like f s s') :
    StepTwin p p' (fun _ _ _ => True) f (do push (← s)) (do push (← s')) :=
  h.bind fun _ _ _ _ hv => (push_twin hv).imp fun _ _ _ _ _ => trivial

/-! ## Local variables -/

theorem load_twin (slot : UInt16) : StepStill p p' (Value.Like f) f (load slot) (load slot) := by
  refine get_twin.bind fun F F' hF => ?_
  have hfound := forall₂_getElem? hF.locals slot.toNat
  rw [Array.getElem?_toList, Array.getElem?_toList] at hfound
  generalize F.locals[slot.toNat]? = v at hfound ⊢
  generalize F'.locals[slot.toNat]? = v' at hfound ⊢
  cases hfound with
  | none => exact .misuse
  | some hv => exact .done hv

theorem values_set {vs vs' : Array Value}
    (h : List.Forall₂ (Value.Like f) vs.toList vs'.toList) (i : Nat) (hv : v.Like f v') :
    List.Forall₂ (Value.Like f) (vs.setIfInBounds i v).toList (vs'.setIfInBounds i v').toList := by
  rw [Array.toList_setIfInBounds, Array.toList_setIfInBounds]
  generalize vs.toList = l at h ⊢
  generalize vs'.toList = l' at h ⊢
  induction h generalizing i with
  | nil => exact .nil
  | cons hu hrest ih =>
    cases i with
    | zero => exact .cons hv hrest
    | succ i => exact .cons hu (ih i)

theorem store_twin (slot : UInt16) (hv : v.Like f v') :
    StepStill p p' Eq f (store slot v) (store slot v') := by
  refine get_twin.bind fun F F' hF => ?_
  have hsize : F.locals.size = F'.locals.size := by simpa using hF.locals.length_eq
  have hset : StepStill p p' Eq f
      (modifyThe Frame fun F =>
        let locals := F.locals.setIfInBounds slot.toNat v
        { F with locals := if v.isWide then locals.setIfInBounds (slot.toNat + 1) .null else locals })
      (modifyThe Frame fun F =>
        let locals := F.locals.setIfInBounds slot.toNat v'
        { F with locals := if v'.isWide then locals.setIfInBounds (slot.toNat + 1) .null
                           else locals }) := by
    intro σ σ' F F' w w' _ hF hw
    refine .ok (.refl f) hw ⟨?_, hF.stack⟩ ⟨rfl, rfl, rfl⟩ ⟨rfl, rfl, rfl⟩ ⟨rfl, rfl⟩
    dsimp only
    rw [isWide_eq hv]
    split
    · exact values_set (values_set hF.locals _ hv) _ .null
    · exact values_set hF.locals _ hv
  dsimp only
  rw [hsize, isWide_eq hv] at *
  split
  · exact StepStill.bind_eq .misuse fun _ => hset
  · exact hset

theorem storeLocal_twin (op : Opcode) (slot : UInt16) :
    StepStill p p' Eq f (storeLocal op slot) (storeLocal op slot) := by
  unfold storeLocal
  split
  · exact popInt_twin.bind_eq fun n => store_twin slot (.int n)
  · exact popLong_twin.bind_eq fun n => store_twin slot (.long n)
  · exact popFloat_twin.bind_eq fun x => store_twin slot (.float _)
  · exact popDouble_twin.bind_eq fun x => store_twin slot (.double _)
  · exact popRef_twin.bind fun _ _ hv => store_twin slot hv

theorem increment_twin (slot : UInt16) (delta : Int32) :
    StepStill p p' Eq f (increment slot delta) (increment slot delta) := by
  refine (load_twin slot).bind fun _ _ hv => ?_
  cases hv with
  | int n => exact store_twin slot (.int _)
  | _ => exact .misuse

theorem returnAddress_twin (slot : UInt16) :
    StepStill p p' (fun pc pc' : Int => pc = pc' ∧ ∃ n : Nat, pc = n ∧ f.returns n) f
      (returnAddress slot) (returnAddress slot) := by
  refine (load_twin slot).bind fun _ _ hv => ?_
  cases hv with
  | address h => exact .done ⟨rfl, _, rfl, h⟩
  | _ => exact .misuse

theorem pushConstant_twin (op : Opcode) :
    StepStill p p' Eq f (pushConstant op) (pushConstant op) := by
  unfold pushConstant
  split
  case h_1 => exact push_twin .null
  case h_9 | h_10 => exact push_twin (.long _)
  case h_11 | h_12 | h_13 => exact pushFloat_twin _
  case h_14 | h_15 => exact pushDouble_twin _
  case h_16 => exact .done rfl
  all_goals exact push_twin (.int _)

/-! ## Arithmetic -/

theorem quotient_twin {β : Type} (answer : Option β) :
    StepStill p p' Eq f (liftM (quotient answer) : Step β) (liftM (quotient answer)) := by
  cases answer with
  | none => exact .ofRun (throwNew_twin _ _)
  | some b => exact .ofRun (.done rfl)

theorem intArithmetic_twin (op : Opcode) :
    StepStill p p' Eq f (intArithmetic op) (intArithmetic op) :=
  popInt_twin.bind_eq fun _ => popInt_twin.bind_eq fun _ => (quotient_twin _).bind_eq fun _ =>
    push_twin (.int _)

theorem longArithmetic_twin (op : Opcode) :
    StepStill p p' Eq f (longArithmetic op) (longArithmetic op) :=
  popLong_twin.bind_eq fun _ => popLong_twin.bind_eq fun _ => (quotient_twin _).bind_eq fun _ =>
    push_twin (.long _)

theorem arithmetic_twin (op : Opcode) : StepStill p p' Eq f (arithmetic op) (arithmetic op) := by
  have hshift : StepStill p p' Eq f (shiftLong op) (shiftLong op) :=
    popInt_twin.bind_eq fun _ => popLong_twin.bind_eq fun _ => push_twin (.long _)
  have hfloat : StepStill p p' Eq f (floatArithmetic op) (floatArithmetic op) :=
    popFloat_twin.bind_eq fun _ => popFloat_twin.bind_eq fun _ => pushFloat_twin _
  have hdouble : StepStill p p' Eq f (doubleArithmetic op) (doubleArithmetic op) :=
    popDouble_twin.bind_eq fun _ => popDouble_twin.bind_eq fun _ => pushDouble_twin _
  unfold arithmetic
  split
  · exact popInt_twin.bind_eq fun _ => push_twin (.int _)
  · exact popLong_twin.bind_eq fun _ => push_twin (.long _)
  · exact popFloat_twin.bind_eq fun _ => pushFloat_twin _
  · exact popDouble_twin.bind_eq fun _ => pushDouble_twin _
  · exact hshift
  · exact hshift
  · exact hshift
  · split
    · split
      · exact intArithmetic_twin op
      · exact longArithmetic_twin op
    · split
      · exact intArithmetic_twin op
      · exact longArithmetic_twin op
      · exact hfloat
      · exact hdouble

theorem convert_twin (op : Opcode) : StepStill p p' Eq f (convert op) (convert op) := by
  unfold convert
  split
  case h_1 => exact popInt_twin.bind_eq fun _ => push_twin (.long _)
  case h_2 => exact popInt_twin.bind_eq fun _ => pushFloat_twin _
  case h_3 => exact popInt_twin.bind_eq fun _ => pushDouble_twin _
  case h_4 => exact popLong_twin.bind_eq fun _ => push_twin (.int _)
  case h_5 => exact popLong_twin.bind_eq fun _ => pushFloat_twin _
  case h_6 => exact popLong_twin.bind_eq fun _ => pushDouble_twin _
  case h_7 => exact popFloat_twin.bind_eq fun _ => push_twin (.int _)
  case h_8 => exact popFloat_twin.bind_eq fun _ => push_twin (.long _)
  case h_9 => exact popFloat_twin.bind_eq fun _ => pushDouble_twin _
  case h_10 => exact popDouble_twin.bind_eq fun _ => push_twin (.int _)
  case h_11 => exact popDouble_twin.bind_eq fun _ => push_twin (.long _)
  case h_12 => exact popDouble_twin.bind_eq fun _ => pushFloat_twin _
  all_goals exact popInt_twin.bind_eq fun _ => push_twin (.int _)

theorem compareNumbers_twin (op : Opcode) :
    StepStill p p' Eq f (compareNumbers op) (compareNumbers op) := by
  have hfloats : StepStill p p' Eq f
      (do
        let b ← popFloat
        let a ← popFloat
        push (.int (compareDouble a.toFloat b.toFloat (if op = .fcmpg then 1 else -1))))
      (do
        let b ← popFloat
        let a ← popFloat
        push (.int (compareDouble a.toFloat b.toFloat (if op = .fcmpg then 1 else -1)))) :=
    popFloat_twin.bind_eq fun _ => popFloat_twin.bind_eq fun _ => push_twin (.int _)
  unfold compareNumbers
  split
  · exact popLong_twin.bind_eq fun _ => popLong_twin.bind_eq fun _ => push_twin (.int _)
  · exact hfloats
  · exact hfloats
  · exact popDouble_twin.bind_eq fun _ => popDouble_twin.bind_eq fun _ => push_twin (.int _)

theorem isTaken_twin (op : Opcode) : StepStill p p' Eq f (isTaken op) (isTaken op) := by
  unfold isTaken
  split
  · exact popInt_twin.bind_eq fun _ => .done rfl
  · split
    · exact popInt_twin.bind_eq fun _ => popInt_twin.bind_eq fun _ => .done rfl
    · split
      · refine .of_nodup fun hf => popRef_twin.bind fun _ _ hb => popRef_twin.bind fun _ _ ha => ?_
        rw [ha.same_eq hf hb]
        exact .done rfl
      · refine .of_nodup fun hf => popRef_twin.bind fun _ _ hv => .done ?_
        simp only [hv.eq_iff hf .null]

end Step

end Cleartext.Machine
