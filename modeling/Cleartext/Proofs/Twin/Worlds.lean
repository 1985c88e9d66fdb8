import Cleartext.Proofs.Machine.Families
import Mathlib.Data.List.Forall2
import Mathlib.Data.List.Nodup

/-!
# Two runs side by side

A run of a class and a run of a smaller copy of it.  The objects of the smaller run are
numbered in another way, and there are objects in the larger one that the smaller does not
have: the shared strings and classes that its additional static fields brought in.

A `Numbering` gives the number that each object of the smaller run has in the larger, and
it grows while the two go on.  `World.Like` is what the states of the two runs have in
common, and `Run.Twin` says of two computations that they keep it and give answers that
are alike.  A failure ends a run, so one that fails may fail for another reason than its
twin; a thrown object is alike as any other.
-/

namespace Cleartext.Machine

/-! ## Numberings -/

/-- The numbers that the objects of the smaller run have in the larger one, the names of the
fields that both have, and the offsets at which subroutines may go on. -/
structure Numbering where
  ids : List Nat
  used : String → Prop
  returns : Nat → Prop

namespace Numbering

variable {f g h : Numbering} {i j : Nat}

/-- The object `j` of the smaller run is `i` in the larger. -/
def Links (f : Numbering) (i j : Nat) : Prop := f.ids[j]? = some i

/-- A numbering goes on. -/
structure Extends (f g : Numbering) : Prop where
  ids : f.ids <+: g.ids
  used : g.used = f.used
  returns : g.returns = f.returns

/-- Numbers another object. -/
def push (f : Numbering) (i : Nat) : Numbering := { f with ids := f.ids ++ [i] }

theorem Extends.refl (f : Numbering) : f.Extends f := ⟨List.prefix_rfl, rfl, rfl⟩

theorem Extends.trans (hfg : f.Extends g) (hgh : g.Extends h) : f.Extends h :=
  ⟨hfg.ids.trans hgh.ids, hgh.used.trans hfg.used, hgh.returns.trans hfg.returns⟩

theorem extends_push (f : Numbering) (i : Nat) : f.Extends (f.push i) :=
  ⟨List.prefix_append _ _, rfl, rfl⟩

theorem Links.mono (hij : f.Links i j) (hfg : f.Extends g) : g.Links i j := by
  obtain ⟨more, hmore⟩ := hfg.ids
  obtain ⟨hlt, -⟩ := List.getElem?_eq_some_iff.1 hij
  rw [Links, ← hmore, List.getElem?_append_left hlt]
  exact hij

theorem links_push (f : Numbering) (i : Nat) : (f.push i).Links i f.ids.length := by
  simp [Links, push]

theorem links_push_iff {k : Nat} :
    (f.push k).Links i j ↔ f.Links i j ∨ i = k ∧ j = f.ids.length := by
  unfold Links push
  rw [List.getElem?_append]
  split
  · rename_i hlt
    simp [Nat.ne_of_lt hlt]
  · rename_i hge
    rw [List.getElem?_eq_none (Nat.le_of_not_lt hge), List.getElem?_singleton]
    split
    · have : j = f.ids.length := by omega
      simp [this, eq_comm]
    · have : j ≠ f.ids.length := by omega
      simp [this]

/-- The number of an object in the smaller run is known from that in the larger. -/
theorem Links.unique {i' j' : Nat} (hij : f.Links i j) (hf : f.ids.Nodup) (hij' : f.Links i' j') :
    i = i' ↔ j = j' := by
  obtain ⟨hj, hi⟩ := List.getElem?_eq_some_iff.1 hij
  obtain ⟨hj', hi'⟩ := List.getElem?_eq_some_iff.1 hij'
  rw [← hi, ← hi']
  exact hf.getElem_inj_iff

theorem Links.mem (hij : f.Links i j) : i ∈ f.ids := List.mem_of_getElem? hij

end Numbering

open Cleartext.Machine.Numbering (Links)

variable {f g : Numbering}

/-! ## Values and objects -/

/-- A value of the larger run and one of the smaller: they are equal, or refer to the same
object. -/
inductive Value.Like (f : Numbering) : Value → Value → Prop
  | null : Like f .null .null
  | int (v : Int32) : Like f (.int v) (.int v)
  | long (v : Int64) : Like f (.long v) (.long v)
  | float (bits : UInt32) : Like f (.float bits) (.float bits)
  | double (bits : UInt64) : Like f (.double bits) (.double bits)
  | ref {i j : Nat} (h : f.Links i j) : Like f (.ref i) (.ref j)
  | address {pc : Nat} (h : f.returns pc) : Like f (.address pc) (.address pc)

/-- Named values that are alike under the names that both runs use. -/
def EntriesLike (f : Numbering) (entries entries' : List (String × Value)) : Prop :=
  ∀ name, f.used name → Option.Rel (Value.Like f) (named? entries name) (named? entries' name)

/-- Keys of maps that are alike. -/
inductive MapKey.Like (f : Numbering) : MapKey → MapKey → Prop
  | text (bytes : Bytes) : Like f (.text bytes) (.text bytes)
  | boxed (cls : String) {v v' : Value} (h : v.Like f v') : Like f (.boxed cls v) (.boxed cls v')
  | value {v v' : Value} (h : v.Like f v') : Like f (.value v) (.value v')

/-- Hidden states that are alike. -/
inductive Hidden.Like (f : Numbering) : Hidden → Hidden → Prop
  | none : Like f .none .none
  | builder (units : Units) : Like f (.builder units) (.builder units)
  | throwable {message message' : Option Nat} (h : Option.Rel f.Links message message')
      (trace : List StackFrame) : Like f (.throwable message trace) (.throwable message' trace)
  | text (content : String) : Like f (.text content) (.text content)
  | frame (content : StackFrame) : Like f (.frame content) (.frame content)
  | boxed {v v' : Value} (h : v.Like f v') : Like f (.boxed v) (.boxed v')
  | table {entries entries' : List (MapKey × Value)}
      (h : List.Forall₂ (fun e e' => e.1.Like f e'.1 ∧ e.2.Like f e'.2) entries entries') :
      Like f (.table entries) (.table entries')

/-- Objects that are alike. -/
inductive Object.Like (f : Numbering) : Object → Object → Prop
  | string (units : Units) : Like f (.string units) (.string units)
  | array (component : String) {elements elements' : Array Value}
      (h : List.Forall₂ (Value.Like f) elements.toList elements'.toList) :
      Like f (.array component elements) (.array component elements')
  | instance (cls : String) {fields fields' : Option (List (String × Value))}
      {hidden hidden' : Hidden} (hfields : Option.Rel (EntriesLike f) fields fields')
      (hhidden : hidden.Like f hidden') :
      Like f (.instance cls fields hidden) (.instance cls fields' hidden')

theorem Value.Like.mono {v v' : Value} (h : v.Like f v') (hfg : f.Extends g) : v.Like g v' := by
  cases h with
  | ref h => exact .ref (h.mono hfg)
  | address h => exact .address (hfg.returns ▸ h)
  | _ => constructor

/-- Equal values are equal in the other run. -/
theorem Value.Like.eq_iff {u u' v v' : Value} (hu : u.Like f u') (hf : f.ids.Nodup)
    (hv : v.Like f v') : u = v ↔ u' = v' := by
  cases hu with
  | ref hij =>
    cases hv with
    | ref hij' => simpa using hij.unique hf hij'
    | _ => simp
  | _ => cases hv <;> simp

theorem Value.Like.same_eq {u u' v v' : Value} (hu : u.Like f u') (hf : f.ids.Nodup)
    (hv : v.Like f v') : u.same v = u'.same v' := by
  have hdecide : decide (u = v) = decide (u' = v') := decide_eq_decide.2 (hu.eq_iff hf hv)
  cases hu <;> cases hv <;> first | rfl | exact hdecide

theorem rel_mono {α β : Type} {R S : α → β → Prop} {o : Option α} {o' : Option β}
    (h : Option.Rel R o o') (himp : ∀ a b, R a b → S a b) : Option.Rel S o o' := by
  cases h with
  | none => exact .none
  | some h => exact .some (himp _ _ h)

theorem values_mono {vs vs' : List Value} (h : List.Forall₂ (Value.Like f) vs vs')
    (hfg : f.Extends g) : List.Forall₂ (Value.Like g) vs vs' :=
  h.imp fun _ _ hv => hv.mono hfg

theorem EntriesLike.mono {entries entries' : List (String × Value)}
    (h : EntriesLike f entries entries') (hfg : f.Extends g) : EntriesLike g entries entries' := by
  intro name hname
  exact rel_mono (h name (hfg.used ▸ hname)) fun _ _ hv => hv.mono hfg

theorem MapKey.Like.mono {k k' : MapKey} (h : k.Like f k') (hfg : f.Extends g) : k.Like g k' := by
  cases h with
  | text bytes => exact .text bytes
  | boxed cls h => exact .boxed cls (h.mono hfg)
  | value h => exact .value (h.mono hfg)

theorem Hidden.Like.mono {x x' : Hidden} (h : x.Like f x') (hfg : f.Extends g) : x.Like g x' := by
  cases h with
  | throwable h trace => exact .throwable (rel_mono h fun _ _ hij => hij.mono hfg) trace
  | boxed h => exact .boxed (h.mono hfg)
  | table h => exact .table (h.imp fun _ _ he => ⟨he.1.mono hfg, he.2.mono hfg⟩)
  | _ => constructor

theorem Object.Like.mono {o o' : Object} (h : o.Like f o') (hfg : f.Extends g) : o.Like g o' := by
  cases h with
  | string units => exact .string units
  | array component h => exact .array component (values_mono h hfg)
  | «instance» cls hfields hhidden =>
    exact .instance cls (rel_mono hfields fun _ _ he => he.mono hfg) (hhidden.mono hfg)

theorem named?_setNamed (name other : String) (v : Value) (entries : List (String × Value)) :
    named? (setNamed name v entries) other =
      if other = name then some v else named? entries other := by
  unfold named?
  induction entries with
  | nil =>
    rw [Machine.setNamed, List.lookup_cons]
    by_cases h : other = name
    · simp [h]
    · simp [h, beq_eq_false_iff_ne.2 h]
  | cons entry rest ih =>
    obtain ⟨n, old⟩ := entry
    rw [Machine.setNamed]
    by_cases hname : n = name
    · subst hname
      rw [if_pos rfl, List.lookup_cons, List.lookup_cons]
      by_cases h : other = n
      · simp [h]
      · simp [h, beq_eq_false_iff_ne.2 h]
    · rw [if_neg hname, List.lookup_cons, List.lookup_cons, ih]
      by_cases h : other = n
      · subst h
        simp [hname]
      · simp [beq_eq_false_iff_ne.2 h]

theorem EntriesLike.setNamed {entries entries' : List (String × Value)}
    (h : EntriesLike f entries entries') (name : String) {v v' : Value} (hv : v.Like f v') :
    EntriesLike f (setNamed name v entries) (setNamed name v' entries') := by
  intro other hother
  rw [named?_setNamed, named?_setNamed]
  split
  · exact .some hv
  · exact h other hother

/-! ## Worlds -/

/-- What is filed under a name: nothing, objects that are one, or an object of the larger
run alone, of which only the content is known. -/
inductive SharedLike (f : Numbering) (heap : Array Object) (content : Object → Prop) :
    Option Nat → Option Nat → Prop
  | none : SharedLike f heap content none none
  | both {i j : Nat} (h : f.Links i j) : SharedLike f heap content (some i) (some j)
  | spare {i : Nat} {o : Object} (hnew : i ∉ f.ids) (ho : heap[i]? = some o) (hcontent : content o) :
      SharedLike f heap content (some i) none

/-- An object is the mirror of a class. -/
def IsMirror (cls : String) (o : Object) : Prop := o = .instance "java/lang/Class" none (.text cls)

/-- An object is a string with a text. -/
def IsText (text : String) (o : Object) : Prop := ∃ units, o = .string units ∧ units.text = text

/-- The heaps of the two runs are alike: every object of the smaller is one of the larger. -/
structure HeapLike (f : Numbering) (heap heap' : Array Object) : Prop where
  nodup : f.ids.Nodup
  size : f.ids.length = heap'.size
  objects : ∀ {i j}, f.Links i j → ∃ o o', heap[i]? = some o ∧ heap'[j]? = some o' ∧ o.Like f o'

/-- The states of the two runs are alike. -/
structure World.Like (f : Numbering) (w w' : World) : Prop where
  heap : HeapLike f w.heap w'.heap
  statics : EntriesLike f w.statics w'.statics
  mirrors : ∀ cls,
    SharedLike f w.heap (IsMirror cls) (w.mirrors.lookup cls) (w'.mirrors.lookup cls)
  interned : ∀ text,
    SharedLike f w.heap (IsText text) (w.interned.lookup text) (w'.interned.lookup text)
  hashes : List.Forall₂ (fun x x' => x.1.Like f x'.1 ∧ x.2 = x'.2) w.hashes w'.hashes
  thread : Option.Rel f.Links w.thread w'.thread

theorem SharedLike.mono {heap heap' : Array Object} {content : Object → Prop} {o o' : Option Nat}
    (h : SharedLike f heap content o o') (hfg : f.Extends g)
    (hspare : ∀ i x, i ∉ f.ids → heap[i]? = some x → content x → i ∉ g.ids ∧ heap'[i]? = some x) :
    SharedLike g heap' content o o' := by
  cases h with
  | none => exact .none
  | both h => exact .both (h.mono hfg)
  | spare hnew ho hcontent =>
    obtain ⟨hnew', ho'⟩ := hspare _ _ hnew ho hcontent
    exact .spare hnew' ho' hcontent

namespace HeapLike

variable {heap heap' : Array Object} {i j : Nat} {o o' : Object}

theorem lt (h : HeapLike f heap heap') (hi : i ∈ f.ids) : i < heap.size := by
  obtain ⟨j, hij⟩ := List.getElem?_of_mem hi
  obtain ⟨o, o', ho, -⟩ := h.objects hij
  exact (Array.getElem?_eq_some_iff.1 ho).1

/-- An object of the larger run becomes one of both, and the smaller has a new one for it. -/
theorem adopt (h : HeapLike f heap heap') (hnew : i ∉ f.ids) (ho : heap[i]? = some o)
    (hlike : o.Like f o') : HeapLike (f.push i) heap (heap'.push o') := by
  refine ⟨List.nodup_append.2 ⟨h.nodup, List.nodup_singleton i, ?_⟩, ?_, fun hij => ?_⟩
  · intro k hk k' hk' heq
    obtain rfl := List.mem_singleton.1 hk'
    exact hnew (heq ▸ hk)
  · simp [Numbering.push, h.size]
  · rcases Numbering.links_push_iff.1 hij with hij | ⟨rfl, rfl⟩
    · obtain ⟨x, x', hx, hx', hlike'⟩ := h.objects hij
      refine ⟨x, x', hx, ?_, hlike'.mono (f.extends_push _)⟩
      rw [Array.getElem?_push, if_neg, hx']
      have := (Array.getElem?_eq_some_iff.1 hx').1
      omega
    · refine ⟨o, o', ho, ?_, hlike.mono (f.extends_push _)⟩
      rw [h.size]
      exact Array.getElem?_push_size

/-- The larger run has a new object for itself. -/
theorem grown (h : HeapLike f heap heap') (o : Object) : HeapLike f (heap.push o) heap' := by
  refine ⟨h.nodup, h.size, fun hij => ?_⟩
  obtain ⟨x, x', hx, hx', hlike⟩ := h.objects hij
  refine ⟨x, x', ?_, hx', hlike⟩
  rw [Array.getElem?_push, if_neg, hx]
  have := h.lt hij.mem
  omega

/-- Both runs have a new object. -/
theorem push (h : HeapLike f heap heap') (hlike : o.Like f o') :
    HeapLike (f.push heap.size) (heap.push o) (heap'.push o') := by
  refine (h.grown o).adopt (fun hmem => ?_) Array.getElem?_push_size hlike
  exact absurd (h.lt hmem) (Nat.lt_irrefl _)

/-- Both runs change an object that is one in the same way. -/
theorem modify (h : HeapLike f heap heap') (hij : f.Links i j) {F F' : Object → Object}
    (hF : ∀ o o', o.Like f o' → (F o).Like f (F' o')) :
    HeapLike f (heap.modify i F) (heap'.modify j F') := by
  refine ⟨h.nodup, by simpa using h.size, fun {k l} hkl => ?_⟩
  obtain ⟨o, o', ho, ho', hlike⟩ := h.objects hkl
  rw [Array.getElem?_modify, Array.getElem?_modify, ho, ho']
  by_cases heq : i = k
  · rw [if_pos heq, if_pos ((hij.unique h.nodup hkl).1 heq)]
    exact ⟨_, _, rfl, rfl, hF o o' hlike⟩
  · rw [if_neg heq, if_neg fun h' => heq ((hij.unique h.nodup hkl).2 h')]
    exact ⟨o, o', rfl, rfl, hlike⟩

end HeapLike

namespace World.Like

variable {w w' : World} {i j : Nat} {o o' : Object}

/-- The heaps change, and the objects of the larger run alone do not. -/
theorem onHeap (h : w.Like f w') (hfg : f.Extends g) {heap heap' : Array Object}
    (hheap : HeapLike g heap heap')
    (hspare : ∀ i x, i ∉ f.ids → w.heap[i]? = some x → i ∉ g.ids ∧ heap[i]? = some x) :
    World.Like g { w with heap } { w' with heap := heap' } where
  heap := hheap
  statics := h.statics.mono hfg
  mirrors cls := (h.mirrors cls).mono hfg fun i x hi hx _ => hspare i x hi hx
  interned text := (h.interned text).mono hfg fun i x hi hx _ => hspare i x hi hx
  hashes := h.hashes.imp fun _ _ hx => ⟨hx.1.mono hfg, hx.2⟩
  thread := rel_mono h.thread fun _ _ hij => hij.mono hfg

theorem push (h : w.Like f w') (hlike : o.Like f o') :
    World.Like (f.push w.heap.size) { w with heap := w.heap.push o }
      { w' with heap := w'.heap.push o' } := by
  refine h.onHeap (f.extends_push _) (h.heap.push hlike) fun i x hi hx => ?_
  have hlt := (Array.getElem?_eq_some_iff.1 hx).1
  refine ⟨?_, by rw [Array.getElem?_push, if_neg (by omega), hx]⟩
  rw [Numbering.push, List.mem_append, List.mem_singleton]
  exact not_or.2 ⟨hi, Nat.ne_of_lt hlt⟩

theorem modify (h : w.Like f w') (hij : f.Links i j) {F F' : Object → Object}
    (hF : ∀ o o', o.Like f o' → (F o).Like f (F' o')) :
    World.Like f { w with heap := w.heap.modify i F } { w' with heap := w'.heap.modify j F' } := by
  refine h.onHeap (.refl f) (h.heap.modify hij hF) fun k x hk hx => ⟨hk, ?_⟩
  rw [Array.getElem?_modify, if_neg, hx]
  rintro rfl
  exact hk hij.mem

end World.Like

/-! ## Computations -/

/-- The settings of the two runs are alike. -/
structure Setting.Like (f : Numbering) (σ σ' : Setting) : Prop where
  config : σ'.config = σ.config
  active : σ'.active = σ.active
  name : σ'.program.name = σ.program.name
  lineage : σ'.program.lineage = σ.program.lineage
  fields : EntriesLike f (Step.newFields σ.program.cf) (Step.newFields σ'.program.cf)

/-- The ends of two computations: answers that are alike, objects that are one and thrown,
or two failures. -/
inductive Together {α : Type} (A : Numbering → α → α → Prop) (f : Numbering) :
    Except Halt α × World → Except Halt α × World → Prop
  | ok {g : Numbering} {a a' : α} {w w' : World} (hfg : f.Extends g) (hw : w.Like g w')
      (ha : A g a a') : Together A f (.ok a, w) (.ok a', w')
  | thrown {g : Numbering} {i j : Nat} {w w' : World} (hfg : f.Extends g) (hw : w.Like g w')
      (hij : g.Links i j) : Together A f (.error (.thrown i), w) (.error (.thrown j), w')
  | halted {h h' : Halt} {w w' : World} (hh : ∀ i, h ≠ .thrown i) (hh' : ∀ i, h' ≠ .thrown i) :
      Together A f (.error h, w) (.error h', w')

/-- Two computations keep states alike, and come to ends that are. -/
def Twin {α : Type} (A : Numbering → α → α → Prop) (f : Numbering) (r r' : Run α) : Prop :=
  ∀ σ σ' w w', σ.Like f σ' → w.Like f w' → Together A f (r σ w) (r' σ' w')

/-- Two computations that number no object when they come to an answer. -/
abbrev Still {α : Type} (A : α → α → Prop) (f : Numbering) (r r' : Run α) : Prop :=
  Twin (fun g a a' => g = f ∧ A a a') f r r'

theorem Setting.Like.mono {σ σ' : Setting} (h : σ.Like f σ') (hfg : f.Extends g) : σ.Like g σ' :=
  ⟨h.config, h.active, h.name, h.lineage, h.fields.mono hfg⟩

section

variable {α β : Type} {A : Numbering → α → α → Prop} {B : Numbering → β → β → Prop}
  {r r' : Run α}

theorem Together.weaken {e e' : Except Halt α × World} (h : Together A g e e') (hfg : f.Extends g) :
    Together A f e e' := by
  cases h with
  | ok hgh hw ha => exact .ok (hfg.trans hgh) hw ha
  | thrown hgh hw hij => exact .thrown (hfg.trans hgh) hw hij
  | halted hh hh' => exact .halted hh hh'

theorem Together.imp {A' : Numbering → α → α → Prop} {e e' : Except Halt α × World}
    (h : Together A f e e') (himp : ∀ g a a', f.Extends g → A g a a' → A' g a a') :
    Together A' f e e' := by
  cases h with
  | ok hfg hw ha => exact .ok hfg hw (himp _ _ _ hfg ha)
  | thrown hfg hw hij => exact .thrown hfg hw hij
  | halted hh hh' => exact .halted hh hh'

theorem Twin.imp {A' : Numbering → α → α → Prop} (h : Twin A f r r')
    (himp : ∀ g a a', f.Extends g → A g a a' → A' g a a') : Twin A' f r r' :=
  fun σ σ' w w' hσ hw => (h σ σ' w w' hσ hw).imp himp

/-- Twins one after another. -/
theorem Twin.bind {k k' : α → Run β} (h : Twin A f r r')
    (hk : ∀ g a a', f.Extends g → A g a a' → Twin B g (k a) (k' a')) :
    Twin B f (r >>= k) (r' >>= k') := by
  intro σ σ' w w' hσ hw
  rw [Run.bind_eq, Run.bind_eq]
  have htogether := h σ σ' w w' hσ hw
  generalize r σ w = e at htogether
  generalize r' σ' w' = e' at htogether
  cases htogether with
  | ok hfg hw ha => exact (hk _ _ _ hfg ha _ _ _ _ (hσ.mono hfg) hw).weaken hfg
  | thrown hfg hw hij => exact .thrown hfg hw hij
  | halted hh hh' => exact .halted hh hh'

theorem Twin.pure {a a' : α} (ha : A f a a') : Twin A f (pure a) (pure a') :=
  fun _ _ _ _ _ hw => .ok (.refl f) hw ha

/-- A computation that numbers no object, and then another. -/
theorem Still.bind {R : α → α → Prop} {k k' : α → Run β} (h : Still R f r r')
    (hk : ∀ a a', R a a' → Twin B f (k a) (k' a')) : Twin B f (r >>= k) (r' >>= k') :=
  Twin.bind h fun _ _ _ _ ha => ha.1 ▸ hk _ _ ha.2

/-- A computation that numbers no object and has one answer, and then another. -/
theorem Still.bind_eq {k k' : α → Run β} (h : Still Eq f r r')
    (hk : ∀ a, Twin B f (k a) (k' a)) : Twin B f (r >>= k) (r' >>= k') :=
  Still.bind h fun a _ ha => ha ▸ hk a

theorem Twin.done {R : α → α → Prop} {a a' : α} (ha : R a a') :
    Still R f (Pure.pure a) (Pure.pure a') :=
  Twin.pure ⟨rfl, ha⟩

theorem Still.grow {R : α → α → Prop} (h : Still R f r r') (himp : ∀ a a', R a a' → A f a a') :
    Twin A f r r' :=
  Twin.imp h fun _ _ _ _ ha => ha.1 ▸ himp _ _ ha.2

/-- While two runs are alike, no object has two numbers. -/
theorem Twin.of_nodup (h : f.ids.Nodup → Twin A f r r') : Twin A f r r' :=
  fun σ σ' w w' hσ hw => h hw.heap.nodup σ σ' w w' hσ hw

theorem Twin.halt {h h' : Halt} (hh : ∀ i, h ≠ .thrown i) (hh' : ∀ i, h' ≠ .thrown i) :
    Twin A f (throw h : Run α) (throw h') :=
  fun _ _ _ _ _ _ => .halted hh hh'

theorem Twin.unsupported {lack lack' : Lack} :
    Twin A f (unsupported lack : Run α) (unsupported lack') := .halt nofun nofun

theorem Twin.collapse : Twin A f (collapse : Run α) collapse := .halt nofun nofun

end

/-! ## The heap -/

section

variable {α : Type} {A : Numbering → α → α → Prop} {i j : Nat} {o o' : Object} {v v' : Value}

theorem alloc_twin (ho : o.Like f o') : Twin Numbering.Links f (alloc o) (alloc o') := by
  intro σ σ' w w' hσ hw
  refine .ok (f.extends_push _) (hw.push ho) ?_
  show (f.push w.heap.size).Links w.heap.size w'.heap.size
  rw [← hw.heap.size]
  exact f.links_push _

theorem new_twin (ho : o.Like f o') : Twin Value.Like f (new o) (new o') :=
  (alloc_twin ho).bind fun _ _ _ _ hij => .pure (.ref hij)

theorem newUnits_twin (units : Units) : Twin Value.Like f (newUnits units) (newUnits units) :=
  new_twin (.string units)

theorem newText_twin (text : String) : Twin Value.Like f (newText text) (newText text) :=
  newUnits_twin _

theorem newHidden_twin (cls : String) {hidden hidden' : Hidden} (h : hidden.Like f hidden') :
    Twin Value.Like f (newHidden cls hidden) (newHidden cls hidden') :=
  new_twin (.instance cls .none h)

theorem get_twin : Still (World.Like f) f (getThe World) (getThe World) :=
  fun _ _ _ _ _ hw => .ok (.refl f) hw ⟨rfl, hw⟩

theorem modify_twin {F F' : World → World} (hF : ∀ w w', w.Like f w' → (F w).Like f (F' w')) :
    Still Eq f (modify F : Run Unit) (modify F') :=
  fun _ _ _ _ _ hw => .ok (.refl f) (hF _ _ hw) ⟨rfl, rfl⟩

theorem object?_twin (hij : f.Links i j) :
    Still (Option.Rel (Object.Like f)) f (object? i) (object? j) := by
  intro σ σ' w w' hσ hw
  obtain ⟨o, o', ho, ho', hlike⟩ := hw.heap.objects hij
  refine .ok (.refl f) hw ⟨rfl, ?_⟩
  rw [ho, ho']
  exact .some hlike

/-- A look at two objects that are one, and what follows it. -/
theorem found_twin {k k' : Option Object → Run α} (hij : f.Links i j)
    (hk : ∀ o o', o.Like f o' → Twin A f (k (some o)) (k' (some o'))) :
    Twin A f (object? i >>= k) (object? j >>= k') := by
  have hobjects : Still (fun a a' => ∃ o o', a = some o ∧ a' = some o' ∧ o.Like f o') f
      (object? i) (object? j) := by
    intro σ σ' w w' hσ hw
    obtain ⟨o, o', ho, ho', hlike⟩ := hw.heap.objects hij
    exact .ok (.refl f) hw ⟨rfl, o, o', ho, ho', hlike⟩
  refine hobjects.bind ?_
  rintro _ _ ⟨o, o', rfl, rfl, hlike⟩
  exact hk o o' hlike

theorem deref?_twin (hv : v.Like f v') :
    Still (Option.Rel (Object.Like f)) f (deref? v) (deref? v') := by
  cases hv with
  | ref hij => exact object?_twin hij
  | _ => exact .done .none

theorem update_twin (hij : f.Links i j) {F F' : Object → Object}
    (hF : ∀ o o', o.Like f o' → (F o).Like f (F' o')) :
    Still Eq f (update i F) (update j F') :=
  modify_twin fun _ _ hw => hw.modify hij hF

theorem setHidden_twin (hij : f.Links i j) {hidden hidden' : Hidden} (h : hidden.Like f hidden') :
    Still Eq f (setHidden i hidden) (setHidden j hidden') := by
  refine update_twin hij fun o o' ho => ?_
  cases ho with
  | «instance» cls hfields _ => exact .instance cls hfields h
  | string units => exact .string units
  | array component h => exact .array component h

/-! ## Kinds and classes -/

theorem kindName_twin (hv : v.Like f v') : Still Eq f (kindName v) (kindName v') := by
  cases hv with
  | ref hij =>
    refine found_twin hij fun o o' ho => ?_
    cases ho <;> exact .done rfl
  | _ => exact .done rfl

theorem runtimeClass_twin (hv : v.Like f v') :
    Still Eq f (runtimeClass v) (runtimeClass v') := by
  refine (deref?_twin hv).bind fun o o' ho => ?_
  cases ho with
  | none => exact .done rfl
  | some ho => cases ho <;> exact .done rfl

theorem className_twin (hv : v.Like f v') :
    Still Eq f (className v) (className v') := by
  unfold className
  rw [map_eq_pure_bind, map_eq_pure_bind]
  exact (runtimeClass_twin hv).bind_eq fun _ => .done rfl

theorem read_twin : Still (Setting.Like f) f read read :=
  fun _ _ _ _ hσ hw => .ok (.refl f) hw ⟨rfl, hσ⟩

theorem arrayInstanceOf_twin (component cls : String) :
    Still Eq f (arrayInstanceOf component cls) (arrayInstanceOf component cls) := by
  unfold arrayInstanceOf
  split
  · split
    · exact .done rfl
    · split
      · exact .collapse
      · split
        · exact .done rfl
        · split
          · exact .collapse
          · split
            · exact .done rfl
            · split
              · exact read_twin.bind fun σ σ' hσ => .done (by rw [hσ.lineage])
              · exact .collapse
  · exact .done rfl

theorem instanceOf_twin (hv : v.Like f v') (cls : String) :
    Still Eq f (instanceOf v cls) (instanceOf v' cls) := by
  unfold instanceOf
  refine (deref?_twin hv).bind fun o o' ho => ?_
  have hassignable : Still Eq f
      (do return (← read).program.lineage.assignable (← runtimeClass v) cls)
      (do return (← read).program.lineage.assignable (← runtimeClass v') cls) := by
    refine read_twin.bind fun σ σ' hσ => (runtimeClass_twin hv).bind_eq fun c => .done ?_
    rw [hσ.lineage]
  cases ho with
  | none => exact hassignable
  | some ho =>
    cases ho with
    | array component h => exact arrayInstanceOf_twin component cls
    | _ => exact hassignable

/-! ## Exceptions -/

theorem callStack_twin : Still Eq f callStack callStack := by
  refine read_twin.bind fun σ σ' hσ => .done ?_
  rw [hσ.config, hσ.active, hσ.name]

theorem throwNew_twin (cls message : String) :
    Twin A f (throwNew cls message : Run α) (throwNew cls message) := by
  refine callStack_twin.bind_eq fun trace => ?_
  have hthrow {g : Numbering} {m m' : Option Nat} (hm : Option.Rel g.Links m m') :
      Twin A g (do throw (.thrown (← alloc (.instance cls none (.throwable m trace)))) : Run α)
        (do throw (.thrown (← alloc (.instance cls none (.throwable m' trace))))) :=
    (alloc_twin (.instance cls .none (.throwable hm trace))).bind fun _ _ _ _ hij =>
      fun _ _ _ _ _ hw => .thrown (.refl _) hw hij
  split
  · exact hthrow .none
  · exact Twin.bind ((alloc_twin (.string _)).bind fun _ _ _ _ hij => .pure (.some hij))
      fun _ _ _ _ hm => hthrow hm

theorem throwNew_bind_twin {β : Type} {k k' : β → Run α} (cls message : String) :
    Twin A f (throwNew cls message >>= k) (throwNew cls message >>= k') :=
  (@throwNew_twin f β (fun _ _ _ => False) cls message).bind fun _ _ _ _ h => h.elim

/-- Both runs check the same, and throw the same when it fails. -/
theorem check_twin {c : Prop} [Decidable c] (cls message : String) {k k' : PUnit → Run α}
    (hk : Twin A f (k ⟨⟩) (k' ⟨⟩)) :
    Twin A f (if c then throwNew cls message >>= k else k ⟨⟩)
      (if c then throwNew cls message >>= k' else k' ⟨⟩) := by
  split
  · exact throwNew_bind_twin cls message
  · exact hk

theorem throwNull_twin : Twin A f (throwNull : Run α) throwNull := throwNew_twin _ _

theorem stringText_twin (hij : f.Links i j) : Still Eq f (stringText i) (stringText j) := by
  refine found_twin hij fun o o' ho => ?_
  cases ho <;> exact .done rfl

/-! ## Shared objects -/

theorem lookup_cons {l : List (String × Nat)} (name other : String) (n : Nat) :
    ((name, n) :: l).lookup other = if other = name then some n else l.lookup other := by
  rw [List.lookup_cons]
  by_cases h : other = name
  · simp [h]
  · simp [h, beq_eq_false_iff_ne.2 h]

theorem lookup_filter {l : List (String × Nat)} {name other : String} (h : other ≠ name) :
    (l.filter (·.1 ≠ name)).lookup other = l.lookup other := by
  induction l with
  | nil => rfl
  | cons entry rest ih =>
    obtain ⟨n, id⟩ := entry
    by_cases hn : n = name
    · rw [List.filter_cons_of_neg (by simpa using hn), ih, lookup_cons, if_neg (hn ▸ h)]
    · rw [List.filter_cons_of_pos (by simpa using hn), lookup_cons, lookup_cons, ih]

theorem mirror_eq (cls : String) (σ : Setting) (w : World) :
    mirror cls σ w = match w.mirrors.lookup cls with
      | some id => (.ok (.ref id), w)
      | none => (.ok (.ref w.heap.size),
        { w with
          heap := w.heap.push (.instance "java/lang/Class" none (.text cls))
          mirrors := (cls, w.heap.size) :: w.mirrors }) := by
  unfold mirror
  rw [Run.bind_eq]
  show (match w.mirrors.lookup cls with
    | some id => return .ref id
    | none => _ : Run Value) σ w = _
  cases w.mirrors.lookup cls <;> rfl

section

variable {w w' : World}

/-- Both runs file a new mirror. -/
theorem World.Like.newMirror (h : w.Like f w') (cls : String) :
    World.Like (f.push w.heap.size)
      { w with
        heap := w.heap.push (.instance "java/lang/Class" none (.text cls))
        mirrors := (cls, w.heap.size) :: w.mirrors }
      { w' with
        heap := w'.heap.push (.instance "java/lang/Class" none (.text cls))
        mirrors := (cls, w'.heap.size) :: w'.mirrors } := by
  have hpush := h.push (.instance "java/lang/Class" .none (.text cls))
  refine { hpush with mirrors := fun other => ?_ }
  rw [lookup_cons, lookup_cons]
  split
  · refine .both ?_
    rw [← h.heap.size]
    exact f.links_push _
  · exact hpush.mirrors other

/-- Both runs file a new string. -/
theorem World.Like.newText (h : w.Like f w') (units : Units) :
    World.Like (f.push w.heap.size)
      { w with
        heap := w.heap.push (.string units)
        interned := (units.text, w.heap.size) :: w.interned.filter (·.1 ≠ units.text) }
      { w' with
        heap := w'.heap.push (.string units)
        interned := (units.text, w'.heap.size) :: w'.interned.filter (·.1 ≠ units.text) } := by
  have hpush := h.push (.string units)
  refine { hpush with interned := fun other => ?_ }
  rw [lookup_cons, lookup_cons]
  split
  · refine .both ?_
    rw [← h.heap.size]
    exact f.links_push _
  · rename_i hother
    rw [lookup_filter hother, lookup_filter hother]
    exact hpush.interned other

theorem SharedLike.push {heap : Array Object} {content : Object → Prop} {found found' : Option Nat}
    {i : Nat} {o : Object} (h : SharedLike f heap content found found') (ho : heap[i]? = some o)
    (hcontent : ¬ content o) : SharedLike (f.push i) heap content found found' := by
  refine h.mono (f.extends_push i) fun k x hk hx hx' => ⟨?_, hx⟩
  rw [Numbering.push, List.mem_append, List.mem_singleton]
  refine not_or.2 ⟨hk, ?_⟩
  rintro rfl
  obtain rfl := Option.some.inj (hx.symm.trans ho)
  exact hcontent hx'

/-- The smaller run has a new object for one that the larger had for itself, and files it. -/
theorem World.Like.adopt (h : w.Like f w') {i : Nat} {o : Object} (hnew : i ∉ f.ids)
    (ho : w.heap[i]? = some o) (hlike : o.Like f o) {mirrors interned : List (String × Nat)}
    (hmirrors : ∀ cls,
      SharedLike (f.push i) w.heap (IsMirror cls) (w.mirrors.lookup cls) (mirrors.lookup cls))
    (hinterned : ∀ text,
      SharedLike (f.push i) w.heap (IsText text) (w.interned.lookup text) (interned.lookup text)) :
    World.Like (f.push i) w { w' with heap := w'.heap.push o, mirrors, interned } where
  heap := h.heap.adopt hnew ho hlike
  statics := h.statics.mono (f.extends_push i)
  mirrors := hmirrors
  interned := hinterned
  hashes := h.hashes.imp fun _ _ hx => ⟨hx.1.mono (f.extends_push i), hx.2⟩
  thread := rel_mono h.thread fun _ _ hij => hij.mono (f.extends_push i)

end

theorem intern_twin (units : Units) : Twin Value.Like f (intern units) (intern units) := by
  intro σ σ' w w' hσ hw
  have hnewest : (f.push w.heap.size).Links w.heap.size w'.heap.size := by
    rw [← hw.heap.size]
    exact f.links_push _
  have hboth (h : w.shared? units = none) (h' : w'.shared? units = none) :
      Together Value.Like f (intern units σ w) (intern units σ' w') := by
    rw [Run.intern_eq, Run.intern_eq, h, h']
    exact .ok (f.extends_push _) (hw.newText units) (.ref hnewest)
  have hshared := hw.interned units.text
  generalize hfound : w.interned.lookup units.text = found at hshared
  generalize hfound' : w'.interned.lookup units.text = found' at hshared
  cases hshared with
  | none =>
    exact hboth (by simp [World.shared?, hfound]) (by simp [World.shared?, hfound'])
  | @both i j hij =>
    obtain ⟨o, o', ho, ho', hlike⟩ := hw.heap.objects hij
    by_cases heq : o = .string units
    · subst heq
      cases hlike
      rw [Run.intern_eq, Run.intern_eq, show w.shared? units = some i by
          simp [World.shared?, hfound, ho], show w'.shared? units = some j by
          simp [World.shared?, hfound', ho']]
      exact .ok (.refl f) hw (.ref hij)
    · refine hboth ?_ ?_
      · cases hlike <;> simp_all [World.shared?]
      · cases hlike <;> simp_all [World.shared?]
  | @spare i o hnew ho hcontent =>
    obtain ⟨u, rfl, htext⟩ := hcontent
    by_cases heq : u = units
    · subst heq
      rw [Run.intern_eq, Run.intern_eq, show w.shared? u = some i by
          simp [World.shared?, hfound, ho], show w'.shared? u = none by
          simp [World.shared?, hfound']]
      refine .ok (f.extends_push i) (hw.adopt hnew ho (.string u) (fun cls => ?_) fun other => ?_)
        (.ref ?_)
      · exact (hw.mirrors cls).push ho (by simp [IsMirror])
      · rw [lookup_cons]
        split
        · rename_i hother
          rw [hother, hfound, ← hw.heap.size]
          exact .both (f.links_push i)
        · rename_i hother
          rw [lookup_filter hother]
          refine (hw.interned other).push ho fun hcontent => ?_
          obtain ⟨u', hu', htext'⟩ := hcontent
          obtain rfl := Object.string.inj hu'
          exact hother htext'.symm
      · rw [← hw.heap.size]
        exact f.links_push i
    · exact hboth (by simp [World.shared?, hfound, ho, heq]) (by simp [World.shared?, hfound'])

theorem mirror_twin (cls : String) : Twin Value.Like f (mirror cls) (mirror cls) := by
  intro σ σ' w w' hσ hw
  rw [mirror_eq, mirror_eq]
  have hshared := hw.mirrors cls
  generalize hfound : w.mirrors.lookup cls = found at hshared
  generalize hfound' : w'.mirrors.lookup cls = found' at hshared
  cases hshared with
  | none =>
    refine .ok (f.extends_push _) (hw.newMirror cls) (.ref ?_)
    rw [← hw.heap.size]
    exact f.links_push _
  | both hij => exact .ok (.refl f) hw (.ref hij)
  | @spare i o hnew ho hcontent =>
    obtain rfl : o = _ := hcontent
    refine .ok (f.extends_push i) (hw.adopt hnew ho (.instance _ .none (.text cls)) (fun other => ?_)
      fun text => ?_) (.ref ?_)
    · rw [lookup_cons]
      split
      · rename_i hother
        rw [hother, hfound, ← hw.heap.size]
        exact .both (f.links_push i)
      · rename_i hother
        refine (hw.mirrors other).push ho fun hcontent => ?_
        exact hother (Hidden.text.inj (Object.instance.inj hcontent).2.2).symm
    · exact (hw.interned text).push ho (by simp [IsText])
    · rw [← hw.heap.size]
      exact f.links_push i

/-- What an answer that was looked up comes to. -/
theorem run_found (found : Option (Value × Int32)) (r : Run Int32) (σ : Setting) (w : World) :
    (match found with
      | some (_, h) => return h
      | none => r : Run Int32) σ w =
      match found with
      | some (_, h) => (.ok h, w)
      | none => r σ w := by
  cases found <;> rfl

theorem identityHash_eq (v : Value) (σ : Setting) (w : World) : identityHash v σ w =
    match w.hashes.find? fun x => x.1.same v with
    | some (_, h) => (.ok h, w)
    | none => (.ok (Int32.ofNat (w.hashes.length * 0x61c88647 + 0x1b873593)),
      { w with hashes :=
        (v, Int32.ofNat (w.hashes.length * 0x61c88647 + 0x1b873593)) :: w.hashes }) := by
  unfold identityHash
  rw [Run.bind_eq]
  exact run_found (w.hashes.find? fun x => x.1.same v) _ σ w

theorem identityHash_twin (hv : v.Like f v') :
    Still Eq f (identityHash v) (identityHash v') := by
  intro σ σ' w w' hσ hw
  have hfind : ∀ {l l' : List (Value × Int32)},
      List.Forall₂ (fun x x' => x.1.Like f x'.1 ∧ x.2 = x'.2) l l' →
      Option.Rel (fun x x' => x.1.Like f x'.1 ∧ x.2 = x'.2) (l.find? fun x => x.1.same v)
        (l'.find? fun x => x.1.same v') := by
    intro l l' hl
    induction hl with
    | nil => exact .none
    | cons hx _ ih =>
      rw [List.find?_cons, List.find?_cons, hx.1.same_eq hw.heap.nodup hv]
      split
      · exact .some hx
      · exact ih
  rw [identityHash_eq, identityHash_eq]
  have hfound := hfind hw.hashes
  generalize w.hashes.find? _ = found at hfound ⊢
  generalize w'.hashes.find? _ = found' at hfound ⊢
  cases hfound with
  | some hx => exact .ok (.refl f) hw ⟨rfl, hx.2⟩
  | none =>
    have hlength := hw.hashes.length_eq
    rw [hlength]
    exact .ok (.refl f) { hw with hashes := .cons ⟨hv, rfl⟩ hw.hashes } ⟨rfl, rfl⟩

theorem ofLoadable_twin (l : Loadable) : Twin Value.Like f (ofLoadable l) (ofLoadable l) := by
  cases l with
  | int v => exact .pure (.int v)
  | long v => exact .pure (.long v)
  | float bits => exact .pure (.float bits)
  | double bits => exact .pure (.double bits)
  | string units => exact intern_twin units
  | class_ name => exact mirror_twin name

/-- Two lookups: they give answers that are related, or both fail. -/
inductive Both {ε β : Type} (R : β → β → Prop) : Except ε β → Except ε β → Prop
  | ok {b b' : β} (h : R b b') : Both R (.ok b) (.ok b')
  | error {e e' : ε} : Both R (.error e) (.error e')

theorem both_eq {ε β : Type} {x x' : Except ε β} (h : ∀ b, x = .ok b ↔ x' = .ok b) :
    Both Eq x x' := by
  cases x with
  | ok b =>
    rw [(h b).1 rfl]
    exact .ok rfl
  | error e =>
    cases x' with
    | ok b => cases (h b).2 rfl
    | error e' => exact .error

theorem Both.toOption_eq {ε β : Type} {x x' : Except ε β} (h : Both Eq x x') :
    x'.toOption = x.toOption := by
  cases h with
  | ok heq => rw [heq]
  | error => rfl

theorem both_refl {ε β : Type} {R : β → β → Prop} (hR : ∀ b, R b b) (x : Except ε β) :
    Both R x x := by
  cases x with
  | error e => exact .error
  | ok b => exact .ok (hR b)

theorem lift_twin {R : α → α → Prop} {x x' : Except Error α} (h : Both R x x') :
    Still R f (Machine.lift x) (Machine.lift x') := by
  have hfails (e : Error) : ∃ h, (Machine.lift (.error e) : Run α) = throw h ∧ ∀ i, h ≠ .thrown i := by
    cases e <;> exact ⟨_, rfl, nofun⟩
  cases h with
  | ok ha => exact .done ha
  | @error e e' =>
    obtain ⟨h, heq, hhalt⟩ := hfails e
    obtain ⟨h', heq', hhalt'⟩ := hfails e'
    rw [heq, heq']
    exact .halt hhalt hhalt'

end

end Cleartext.Machine
