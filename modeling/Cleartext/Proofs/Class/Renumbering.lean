import Cleartext.Class.References
import Cleartext.Proofs.Class.Sites
import Cleartext.Proofs.Class.Format
import Cleartext.Proofs.Code.Commit

/-!
# Changing the references of a class

`ClassFile.Renumbered R cf cf'` says that `cf'` is `cf` with every reference
outside the pool changed from `i` to some `x` with `R i x`, and with nothing
else changed.  A reference of zero stays zero.  Attribute bodies and code keep
their length and every byte that does not belong to a reference.

`ClassFile.changeReferences` gives such a class whenever what it is given gives
related indices (`ClassFile.gives_changeReferences`).  The change may carry a
state; `Gives` says that the state keeps an invariant and moves forward, and
that the answer is right in every later state.

What a visit finds in an attribute body does not depend on the code positions
that stand there: a body in which only these differ has the same sites, so the
layout of an attribute survives a change of the positions it holds
(`Layout.visit_congr`).  Nor does it depend on the references, as long as a name that is
read through one is the same (`Layout.visit_renumbered`); the pool may be another one.
-/

namespace Cleartext

/-! ## Patched bytes -/

namespace Bytes

/-- Patching changes the bytes under the patch and no others. -/
theorem getElem?_overwrite (bytes : Bytes) (pos : Nat) (new : Bytes) (k : Nat) :
    (overwrite bytes pos new)[k]? =
      if pos ≤ k ∧ k < pos + new.length ∧ k < bytes.length then new[k - pos]? else bytes[k]? := by
  fun_induction overwrite bytes pos new generalizing k with
  | case1 => simp
  | case2 bytes pos => rw [if_neg (by simp; omega)]
  | case3 b rest pos new _ ih =>
    cases k with
    | zero => simp
    | succ k =>
      have hlt : k + 1 < pos + 1 + new.length ↔ k < pos + new.length := by omega
      simp [ih, hlt]
  | case4 b rest n new ih =>
    cases k with
    | zero => simp
    | succ k => simp [ih]

theorem overwrite_nil (bytes : Bytes) (pos : Nat) : overwrite bytes pos [] = bytes := by
  cases bytes <;> rfl

theorem getElem?_overwrite_of_lt {bytes new : Bytes} {pos k : Nat}
    (h : k < pos ∨ pos + new.length ≤ k) : (overwrite bytes pos new)[k]? = bytes[k]? := by
  rw [getElem?_overwrite, if_neg (by omega)]

/-- The word at a place, by its two bytes. -/
theorem u16At_eq (bytes : Bytes) (pos : Nat) :
    bytes.u16At pos = match bytes[pos]?, bytes[pos + 1]? with
      | some a, some b => toU16 a b
      | _, _ => 0 := by
  have hfirst : bytes[pos]? = (bytes.drop pos)[0]? := by rw [List.getElem?_drop, Nat.add_zero]
  have hsecond : bytes[pos + 1]? = (bytes.drop pos)[1]? := by rw [List.getElem?_drop]
  unfold u16At
  rw [hfirst, hsecond]
  match bytes.drop pos with
  | [] | [_] | _ :: _ :: _ => rfl

theorem u16At_congr {bytes bytes' : Bytes} {pos : Nat} (h : bytes[pos]? = bytes'[pos]?)
    (h' : bytes[pos + 1]? = bytes'[pos + 1]?) : bytes.u16At pos = bytes'.u16At pos := by
  rw [u16At_eq, u16At_eq, h, h']

theorem u16At_overwrite {bytes : Bytes} {pos : Nat} {v : UInt16} (h : pos + 2 ≤ bytes.length) :
    (overwrite bytes pos (ofU16 v)).u16At pos = v := by
  have hbyte (k : Nat) (hk : k < 2) :
      (overwrite bytes pos (ofU16 v))[pos + k]? = (ofU16 v)[k]? := by
    rw [getElem?_overwrite, ofU16_length, if_pos (by omega), Nat.add_sub_cancel_left]
  have hzero := hbyte 0 (by omega)
  rw [Nat.add_zero] at hzero
  rw [u16At_eq, hzero, hbyte 1 (by omega)]
  exact toU16_ofU16 v

/-- A word that stands in bytes, spelled out. -/
theorem drop_eq_ofU16 {bytes : Bytes} {pos : Nat} (h : pos + 2 ≤ bytes.length) :
    bytes.drop pos = ofU16 (bytes.u16At pos) ++ bytes.drop (pos + 2) := by
  unfold u16At
  rw [← List.drop_drop]
  have hlength : (bytes.drop pos).length = bytes.length - pos := List.length_drop
  cases hdrop : bytes.drop pos with
  | nil =>
    rw [hdrop, List.length_nil] at hlength
    omega
  | cons a rest =>
    cases rest with
    | nil =>
      rw [hdrop, List.length_singleton] at hlength
      omega
    | cons b rest => exact congrArg (· ++ rest) (ofU16_toU16 a b).symm

/-- The bytes of a word. -/
theorem getElem?_add_of_word {bytes : Bytes} {pos k : Nat} (h : pos + 2 ≤ bytes.length)
    (hk : k < 2) : bytes[pos + k]? = (ofU16 (bytes.u16At pos))[k]? := by
  rw [← List.getElem?_drop, drop_eq_ofU16 h, List.getElem?_append_left (by rwa [ofU16_length])]

/-- Writing what stands there changes nothing. -/
theorem overwrite_of_getElem? {bytes new : Bytes} {pos : Nat}
    (h : ∀ k < new.length, bytes[pos + k]? = new[k]?) : overwrite bytes pos new = bytes := by
  refine List.ext_getElem? fun k => ?_
  rw [getElem?_overwrite]
  split
  · rename_i hk
    rw [← h (k - pos) (by omega), show pos + (k - pos) = k by omega]
  · rfl

end Bytes

/-! ## Renumbered parts -/

section Renumbered

variable (R : UInt16 → UInt16 → Prop)

/-- An index that may be zero: zero stays, and any other index is changed. -/
def IndexRenumbered (i x : UInt16) : Prop := i = 0 ∧ x = 0 ∨ i ≠ 0 ∧ R i x

/-- Bytes that hold references at some places: the references are changed, and
every byte outside them stays. -/
structure Bytes.Renumbered (positions : List Nat) (bytes bytes' : Bytes) : Prop where
  length : bytes'.length = bytes.length
  references : ∀ pos ∈ positions, R (bytes.u16At pos) (bytes'.u16At pos)
  others : ∀ k, (∀ pos ∈ positions, k < pos ∨ pos + 2 ≤ k) → bytes'[k]? = bytes[k]?

/-- The places of the sites that are references. -/
def Layout.referencePositions (sites : List Layout.Site) : List Nat :=
  (sites.filter fun site => site.kind = .reference).map Layout.Site.position

/-- The body of an attribute, which could be visited, with the references that
the visit finds changed. -/
structure Layout.Renumbered (pool : Pool) (name : String) (info info' : Bytes) : Prop where
  visited : (visit pool name info).failure = none
  patched : Bytes.Renumbered R (referencePositions (visit pool name info).sites) info info'

namespace Instruction

/-- The number of bytes of a pool operand, which follow the opcode. -/
def indexWidth (ins : Instruction) : Nat :=
  match ins.operand.index? with
  | none => 0
  | some _ => if ins.op.shape = .pool8 then 1 else 2

/-- An instruction with its pool operand changed, if it has one. -/
def Renumbered (ins ins' : Instruction) : Prop :=
  match ins.operand.index? with
  | none => ins' = ins
  | some i => ∃ x, R i x ∧ ins' = ins.withIndex x

/-- Code that can be taken apart: the pool operands of the instructions are
changed, every instruction stays where it is, and so does every byte outside the
operands. -/
structure CodeRenumbered (code code' : Bytes) : Prop where
  length : code'.length = code.length
  instructions : ∃ instructions instructions', decodeAll code = .ok instructions ∧
    decodeAll code' = .ok instructions' ∧
    List.Forall₂ (Instruction.Renumbered R) instructions instructions' ∧
    ∀ k, (∀ ins ∈ instructions, k ≤ ins.offset ∨ ins.offset + ins.indexWidth < k) →
      code'[k]? = code[k]?

end Instruction

/-- A row of an exception table: the range and the target stay. -/
structure Handler.Renumbered (h h' : Handler) : Prop where
  start : h'.start = h.start
  stop : h'.stop = h.stop
  target : h'.target = h.target
  catchType : IndexRenumbered R h.catchType h'.catchType

/-- An attribute with its references changed, also those of what is nested in
it. -/
inductive Attribute.Renumbered (pool : Pool) : Attribute → Attribute → Prop
  | raw {i i' : UInt16} {name : String} {info info' : Bytes}
      (hindex : IndexRenumbered R i i') (hinfo : Layout.Renumbered R pool name info info') :
      Renumbered pool (.raw i name info) (.raw i' name info')
  | code {i i' : UInt16} {name : String} {body body' : MethodBody}
      (hindex : IndexRenumbered R i i') (hstack : body'.maxStack = body.maxStack)
      (hlocals : body'.maxLocals = body.maxLocals)
      (hcode : Instruction.CodeRenumbered R body.bytecode body'.bytecode)
      (hhandlers : List.Forall₂ (Handler.Renumbered R) body.handlers body'.handlers)
      (hattributes : List.Forall₂ (Renumbered pool) body.attributes body'.attributes) :
      Renumbered pool (.code i name body) (.code i' name body')

/-- A member with its references changed. -/
structure Member.Renumbered (pool : Pool) (m m' : Member) : Prop where
  access : m'.access = m.access
  nameIndex : IndexRenumbered R m.nameIndex m'.nameIndex
  descriptorIndex : IndexRenumbered R m.descriptorIndex m'.descriptorIndex
  attributes : List.Forall₂ (Attribute.Renumbered R pool) m.attributes m'.attributes

/-- A class with its references outside the pool changed. -/
structure ClassFile.Renumbered (cf cf' : ClassFile) : Prop where
  minor : cf'.minor = cf.minor
  major : cf'.major = cf.major
  access : cf'.access = cf.access
  thisClass : IndexRenumbered R cf.thisClass cf'.thisClass
  superClass : IndexRenumbered R cf.superClass cf'.superClass
  interfaces : List.Forall₂ (IndexRenumbered R) cf.interfaces cf'.interfaces
  fields : List.Forall₂ (Member.Renumbered R cf.pool) cf.fields cf'.fields
  methods : List.Forall₂ (Member.Renumbered R cf.pool) cf.methods cf'.methods
  attributes : List.Forall₂ (Attribute.Renumbered R cf.pool) cf.attributes cf'.attributes

end Renumbered

/-! ## What is left as it is -/

namespace Instruction

theorem withIndex_self {ins : Instruction} {i : UInt16} (h : ins.operand.index? = some i) :
    ins.withIndex i = ins := by
  have hset {s : Shape} {o : Operand s} (h : o.index? = some i) : withIndex.set i o = o := by
    cases o with
    | pool8 | pool16 | interface | dynamic | dimensions =>
      obtain rfl := Option.some.inj h
      rfl
    | _ => cases h
  unfold withIndex
  rw [hset h]

theorem Renumbered.refl {R : UInt16 → UInt16 → Prop} (hR : ∀ i, R i i) (ins : Instruction) :
    ins.Renumbered R ins := by
  unfold Renumbered
  cases hindex : ins.operand.index? with
  | none => rfl
  | some i => exact ⟨i, hR i, (withIndex_self hindex).symm⟩

/-- An instruction differs from its copy at most in the index. -/
theorem Renumbered.withIndex {R : UInt16 → UInt16 → Prop} {ins ins' : Instruction}
    (h : ins.Renumbered R ins') : ∃ x, ins' = ins.withIndex x := by
  unfold Renumbered at h
  cases hindex : ins.operand.index? with
  | none =>
    rw [hindex] at h
    have hset {s : Shape} {o : Operand s} (ho : o.index? = none) : withIndex.set 0 o = o := by
      cases o with
      | pool8 | pool16 | interface | dynamic | dimensions => cases ho
      | _ => rfl
    refine ⟨0, h.trans ?_⟩
    unfold Instruction.withIndex
    rw [hset hindex]
  | some i =>
    rw [hindex] at h
    obtain ⟨x, -, rfl⟩ := h
    exact ⟨x, rfl⟩

theorem exists_index?_of_usesPool {ins : Instruction} (h : ins.op.usesPool = true) :
    ∃ i, ins.operand.index? = some i := by
  obtain ⟨op, operand, wide, offset⟩ := ins
  revert h
  unfold Opcode.usesPool
  dsimp only
  generalize op.shape = s at operand ⊢
  intro h
  cases operand with
  | pool8 i | pool16 i | interface i | dynamic i | dimensions i => exact ⟨i, rfl⟩
  | _ => cases h

/-- The index of an instruction that has one is changed. -/
theorem Renumbered.index {R : UInt16 → UInt16 → Prop} {ins ins' : Instruction}
    (h : ins.Renumbered R ins') (hpool : ins.op.usesPool = true) :
    R ins.operand.index ins'.operand.index := by
  have hset {s : Shape} {o : Operand s} {i : UInt16} (ho : o.index? = some i) (x : UInt16) :
      (withIndex.set x o).index = x := by
    cases o with
    | pool8 | pool16 | interface | dynamic | dimensions => rfl
    | _ => cases ho
  obtain ⟨i, hi⟩ := exists_index?_of_usesPool hpool
  have hindex : ins.operand.index = i := by
    unfold Operand.index
    rw [hi]
    rfl
  unfold Renumbered at h
  rw [hi] at h
  obtain ⟨x, hx, rfl⟩ := h
  rw [hindex, show (ins.withIndex x).operand.index = x from hset hi x]
  exact hx

end Instruction

theorem Attribute.Renumbered.name_eq {R : UInt16 → UInt16 → Prop} {pool : Pool}
    {a a' : Attribute} (h : a.Renumbered R pool a') : a'.name = a.name := by
  cases h <;> rfl

theorem Attribute.Renumbered.find? {R : UInt16 → UInt16 → Prop} {pool : Pool} (name : String)
    {attributes attributes' : List Attribute}
    (h : List.Forall₂ (Attribute.Renumbered R pool) attributes attributes') :
    Option.Rel (Attribute.Renumbered R pool) (Attribute.find? attributes name)
      (Attribute.find? attributes' name) := by
  unfold Attribute.find?
  induction h with
  | nil => exact .none
  | @cons a a' rest rest' ha _ ih =>
    rw [List.find?_cons, List.find?_cons, ha.name_eq]
    split
    · exact .some ha
    · exact ih

/-! ## Bodies that are renumbered -/

/-- The body of a member, if it has one, and that of another: its code is that of the
first with its pool operands changed, and its exception table has the same targets. -/
def Member.BodyRenumbered (R : UInt16 → UInt16 → Prop) (m m' : Member) : Prop :=
  match m.body? with
  | none => m'.body? = none
  | some body => ∃ body', m'.body? = some body' ∧
      body'.handlers.map (·.target) = body.handlers.map (·.target) ∧
      ∀ code, Instruction.decodeAll body.bytecode = .ok code →
        ∃ code', Instruction.decodeAll body'.bytecode = .ok code' ∧
          List.Forall₂ (Instruction.Renumbered R) code code'

theorem Member.BodyRenumbered.refl {R : UInt16 → UInt16 → Prop} (hR : ∀ i, R i i) (m : Member) :
    m.BodyRenumbered R m := by
  unfold BodyRenumbered
  split
  · assumption
  · rename_i body hbody
    exact ⟨body, hbody, rfl, fun code hcode => ⟨code, hcode,
      List.forall₂_same.2 fun ins _ => Instruction.Renumbered.refl hR ins⟩⟩

theorem Member.Renumbered.body {R : UInt16 → UInt16 → Prop} {pool : Pool} {m m' : Member}
    (h : m.Renumbered R pool m') : m.BodyRenumbered R m' := by
  have hfind := Attribute.Renumbered.find? "Code" h.attributes
  unfold BodyRenumbered body?
  generalize Attribute.find? m.attributes "Code" = found at hfind ⊢
  generalize Attribute.find? m'.attributes "Code" = found' at hfind ⊢
  cases hfind with
  | none => rfl
  | some ha =>
    cases ha with
    | raw => rfl
    | @code i i' name body body' hindex hstack hlocals hcode hhandlers hattributes =>
      refine ⟨body', rfl, (map_eq_map hhandlers fun _ _ h => h.target.symm).symm,
        fun code hdecode => ?_⟩
      obtain ⟨instructions, code', hdecode', hcode', hrenumbered, -⟩ := hcode.instructions
      obtain rfl := Except.ok.inj (hdecode.symm.trans hdecode')
      exact ⟨code', hcode', hrenumbered⟩

/-! ## Changes that carry a state -/

open Layout (Change)

/-- A preorder on the states of a change, and an invariant of them. -/
structure Regime (σ : Type) where
  Inv : σ → Prop
  Le : σ → σ → Prop
  refl : ∀ s, Le s s
  trans : ∀ s t u, Le s t → Le t u → Le s u

variable {σ α β : Type} {G : Regime σ}

/-- A change keeps the invariant, moves the state forward, and gives an answer
that is right in every later state. -/
def Gives (G : Regime σ) (change : Change σ α) (Right : σ → α → Prop) : Prop :=
  ∀ s a s', G.Inv s → change.run s = .ok (a, s') →
    G.Inv s' ∧ G.Le s s' ∧ ∀ t, G.Le s' t → Right t a

namespace Gives

theorem pure {a : α} {P : σ → α → Prop} (h : ∀ t, P t a) :
    Gives G (Pure.pure a : Change σ α) P := by
  intro s b s' hs hrun
  obtain ⟨rfl, rfl⟩ := Prod.mk.inj (Except.ok.inj hrun)
  exact ⟨hs, G.refl _, fun t _ => h t⟩

theorem bind {change : Change σ α} {next : α → Change σ β} {P : σ → α → Prop}
    {Q : σ → β → Prop} (h : Gives G change P)
    (hnext : ∀ a, Gives G (next a) fun t b => P t a → Q t b) : Gives G (change >>= next) Q := by
  intro s b s'' hs hrun
  rw [StateT.run_bind] at hrun
  obtain ⟨⟨a, s'⟩, hfirst, hrest⟩ := Except.bind_ok.1 hrun
  obtain ⟨hs', hle, hright⟩ := h s a s' hs hfirst
  obtain ⟨hs'', hle', hright'⟩ := hnext a s' b s'' hs' hrest
  exact ⟨hs'', G.trans _ _ _ hle hle', fun t ht =>
    hright' t ht (hright t (G.trans _ _ _ hle' ht))⟩

theorem mono {change : Change σ α} {P Q : σ → α → Prop} (h : Gives G change P)
    (himp : ∀ t a, P t a → Q t a) : Gives G change Q := by
  intro s a s' hs hrun
  obtain ⟨hs', hle, hright⟩ := h s a s' hs hrun
  exact ⟨hs', hle, fun t ht => himp t a (hright t ht)⟩

theorem throw {e : Error} {P : σ → α → Prop} : Gives G (MonadExcept.throw e : Change σ α) P := by
  intro s a s' _ hrun
  cases hrun

theorem throw_bind {e : Error} {next : α → Change σ β} {P : σ → β → Prop} :
    Gives G ((MonadExcept.throw e : Change σ α) >>= next) P := by
  intro s a s' _ hrun
  cases hrun

theorem explain {change : Change σ α} {P : σ → α → Prop} (h : Gives G change P)
    (words : Error → Error) : Gives G (change.explain words) P := by
  intro s a s' hs hrun
  refine h s a s' hs ?_
  replace hrun : (change.run s).mapError words = .ok (a, s') := hrun
  cases hresult : change.run s with
  | error e => rw [hresult] at hrun; cases hrun
  | ok answer => rw [hresult] at hrun; exact hrun

theorem mapM {items : List α} {change : α → Change σ β} {P : σ → α → β → Prop}
    (h : ∀ a ∈ items, Gives G (change a) fun t b => P t a b) :
    Gives G (items.mapM change) fun t answers => List.Forall₂ (P t) items answers := by
  induction items with
  | nil => exact Gives.pure fun _ => .nil
  | cons a items ih =>
    rw [List.forall_mem_cons] at h
    rw [List.mapM_cons]
    refine Gives.bind h.1 fun b => Gives.bind (ih h.2) fun answers => Gives.pure ?_
    exact fun _ hanswers hb => .cons hb hanswers

end Gives

/-! ## Attribute bodies -/

/-- Patching one more reference, which stands in front of the others. -/
theorem Bytes.Renumbered.cons {R : UInt16 → UInt16 → Prop} {positions : List Nat}
    {bytes bytes' : Bytes} {pos : Nat} {x : UInt16} (hinside : pos + 2 ≤ bytes.length)
    (hlater : ∀ p ∈ positions, pos + 2 ≤ p) (hx : R (bytes.u16At pos) x)
    (h : Bytes.Renumbered R positions (bytes.overwrite pos (Bytes.ofU16 x)) bytes') :
    Bytes.Renumbered R (pos :: positions) bytes bytes' := by
  have hkept (k : Nat) (hk : k < pos ∨ pos + 2 ≤ k) :
      (bytes.overwrite pos (Bytes.ofU16 x))[k]? = bytes[k]? :=
    Bytes.getElem?_overwrite_of_lt hk
  refine ⟨h.length.trans (Bytes.overwrite_length ..), ?_, fun k hk => ?_⟩
  · rw [List.forall_mem_cons]
    constructor
    · -- The later references leave the word alone.
      have hword : bytes'.u16At pos = x := by
        rw [← Bytes.u16At_overwrite (v := x) hinside]
        exact Bytes.u16At_congr
          (h.others pos fun p hp => .inl (by have := hlater p hp; omega))
          (h.others (pos + 1) fun p hp => .inl (by have := hlater p hp; omega))
      rw [hword]
      exact hx
    · intro p hp
      have hle := hlater p hp
      rw [← Bytes.u16At_congr (hkept p (.inr hle)) (hkept (p + 1) (.inr (by omega)))]
      exact h.references p hp
  · rw [List.forall_mem_cons] at hk
    rw [h.others k hk.2, hkept k hk.1]

section

variable {f : UInt16 → Change σ UInt16} {R : σ → UInt16 → UInt16 → Prop}
  (hf : ∀ i, Gives G (f i) fun t x => R t i x)

include hf

theorem gives_changeIndex (i : UInt16) :
    Gives G (changeIndex f i) fun t x => IndexRenumbered (R t) i x := by
  unfold changeIndex
  by_cases hi : i = 0
  · rw [if_pos hi]
    exact Gives.pure fun _ => .inl ⟨hi, rfl⟩
  · rw [if_neg hi]
    exact (hf i).mono fun _ _ hx => .inr ⟨hi, hx⟩

/-- Sites that are spaced are patched one after another without touching each
other. -/
theorem gives_rewriteSites (name : String) : ∀ (sites : List Layout.Site) (info : Bytes),
    (sites.Pairwise fun earlier later => earlier.position + 2 ≤ later.position) →
    (∀ site ∈ sites, site.position + 2 ≤ info.length) →
    Gives G (Layout.rewriteSites name (fun site info =>
      match site.kind with
      | .reference => Bytes.ofU16 <$> f (info.u16At site.position)
      | _ => return []) sites info)
      fun t info' => Bytes.Renumbered (R t) (Layout.referencePositions sites) info info' := by
  intro sites
  induction sites with
  | nil =>
    intro info _ _
    exact Gives.pure fun _ => ⟨rfl, by simp [Layout.referencePositions], fun _ _ => rfl⟩
  | cons site sites ih =>
    intro info hpairs hinside
    rw [List.pairwise_cons] at hpairs
    rw [List.forall_mem_cons] at hinside
    have hlater (new : Bytes) : Gives G (Layout.rewriteSites name (fun site info =>
        match site.kind with
        | .reference => Bytes.ofU16 <$> f (info.u16At site.position)
        | _ => return []) sites (info.overwrite site.position new))
        fun t info' => Bytes.Renumbered (R t) (Layout.referencePositions sites)
          (info.overwrite site.position new) info' :=
      ih _ hpairs.2 (by rw [Bytes.overwrite_length]; exact hinside.2)
    unfold Layout.rewriteSites
    by_cases hkind : site.kind = .reference
    · have hpositions : Layout.referencePositions (site :: sites) =
          site.position :: Layout.referencePositions sites := by
        simp [Layout.referencePositions, hkind]
      rw [hkind, hpositions]
      refine Gives.bind (P := fun t new => ∃ x, R t (info.u16At site.position) x ∧
        new = Bytes.ofU16 x) (Gives.explain ?_ _) fun new => ?_
      · rw [map_eq_pure_bind]
        exact Gives.bind (hf _) fun x => Gives.pure fun t hx => ⟨x, hx, rfl⟩
      · refine (hlater new).mono fun t info' h hnew => ?_
        obtain ⟨x, hx, rfl⟩ := hnew
        refine h.cons hinside.1 (fun p hp => ?_) hx
        obtain ⟨later, hmem, rfl⟩ := List.mem_map.1 hp
        exact hpairs.1 later (List.mem_of_mem_filter hmem)
    · have hpositions : Layout.referencePositions (site :: sites) =
          Layout.referencePositions sites := by
        simp [Layout.referencePositions, hkind]
      rw [hpositions]
      refine Gives.bind (P := fun _ new => new = []) (Gives.explain ?_ _) fun new => ?_
      · split
        · exact absurd ‹_› hkind
        · exact Gives.pure fun _ => rfl
      · refine (hlater new).mono fun t info' h hnew => ?_
        rw [hnew, Bytes.overwrite_nil] at h
        exact h

theorem gives_changeInfo (pool : Pool) (name : String) (info : Bytes) :
    Gives G (changeInfo pool f name info) fun t info' =>
      Layout.Renumbered (R t) pool name info info' := by
  unfold changeInfo Layout.rewrite
  cases hfailure : (Layout.visit pool name info).failure with
  | none =>
    have hspaced := Layout.spaced_visit hfailure
    refine Gives.bind (gives_rewriteSites hf name _ info hspaced.ordered hspaced.inside)
      fun info' => ?_
    simp only [hfailure]
    exact Gives.pure fun _ h => ⟨hfailure, h⟩
  | some e =>
    -- The visit failed, and so does the change once the sites are rewritten.
    intro s a s' _ hrun
    simp only [StateT.run_bind, hfailure] at hrun
    obtain ⟨answer, -, hthrow⟩ := Except.bind_ok.1 hrun
    cases hthrow

end

/-! ## Code -/

/-- Writing another index over operands spells the operands with that index. -/
theorem Operand.Spelled.set {s : Shape} {o : Operand s} {wide : Bool} {offset : Nat}
    {operands : Bytes} {i : UInt16} (x : UInt16) (hindex : o.index? = some i)
    (h : o.Spelled wide offset operands) :
    (Instruction.withIndex.set x o).Spelled wide offset
      (operands.overwrite 0 (if s = .pool8 then [x.toUInt8] else Bytes.ofU16 x)) := by
  cases o with
  | pool8 i => exact h ▸ rfl
  | pool16 i => exact h ▸ rfl
  | interface i n =>
    obtain ⟨y, rfl⟩ := h
    exact ⟨y, rfl⟩
  | dynamic i =>
    obtain ⟨y, rfl⟩ := h
    exact ⟨y, rfl⟩
  | dimensions i n => exact h ▸ rfl
  | _ => exact absurd hindex (by simp [Operand.index?])

theorem Operand.Valid.set {s : Shape} {o : Operand s} {wide : Bool} {i x : UInt16}
    (hindex : o.index? = some i) (hfits : s = .pool8 → x ≤ 255) :
    (Instruction.withIndex.set x o).Valid wide := by
  cases o with
  | pool8 i => exact hfits rfl
  | pool16 i | interface i n | dynamic i | dimensions i n => exact True.intro
  | _ => exact absurd hindex (by simp [Operand.index?])

namespace Instruction

/-- The bytes of the pool operand. -/
def indexBytes (ins : Instruction) (x : UInt16) : Bytes :=
  if ins.op.shape = .pool8 then [x.toUInt8] else Bytes.ofU16 x

theorem length_indexBytes {ins : Instruction} {i : UInt16} (hindex : ins.operand.index? = some i)
    (x : UInt16) : (ins.indexBytes x).length = ins.indexWidth := by
  unfold indexBytes indexWidth
  rw [hindex]
  by_cases hshape : ins.op.shape = .pool8
  · rw [if_pos hshape, if_pos hshape]
    rfl
  · rw [if_neg hshape, if_neg hshape]
    rfl

/-- An instruction with a pool operand has no wide form. -/
theorem Valid.wide_eq_false {ins : Instruction} (h : ins.Valid) {i : UInt16}
    (hindex : ins.operand.index? = some i) : ins.wide = false := by
  by_contra hwide
  have hcan := canWiden_iff.1 (h.2 (by simpa using hwide))
  obtain ⟨op, operand, wide, offset⟩ := ins
  revert hindex hcan
  show operand.index? = some i → op.shape = .slot ∨ op.shape = .increment → False
  clear h hwide
  intro hindex hcan
  generalize op.shape = s at operand hcan
  cases operand <;> simp [Operand.index?] at hindex hcan

/-- Writing another index behind the opcode spells the instruction with that
index. -/
theorem Spelled.withIndex {ins : Instruction} {bytes : Bytes} {i x : UInt16}
    (hvalid : ins.Valid) (h : ins.Spelled bytes) (hindex : ins.operand.index? = some i)
    (hfits : ins.op.shape = .pool8 → x ≤ 255) :
    (ins.withIndex x).Valid ∧
      (ins.withIndex x).Spelled (Bytes.overwrite bytes 1 (ins.indexBytes x)) := by
  have hwide := hvalid.wide_eq_false hindex
  obtain ⟨operands, hoperands, rfl⟩ := h
  refine ⟨⟨Operand.Valid.set hindex hfits, hvalid.2⟩, _, hoperands.set x hindex, ?_⟩
  show Bytes.overwrite ((if ins.wide then [Opcode.wide.code] else []) ++ [ins.op.code] ++ operands)
      1 (ins.indexBytes x) =
    (if ins.wide then [Opcode.wide.code] else []) ++ [ins.op.code] ++
      operands.overwrite 0 (ins.indexBytes x)
  rw [hwide]
  unfold indexBytes
  by_cases hshape : ins.op.shape = .pool8
  · rw [if_pos hshape]
    rfl
  · rw [if_neg hshape]
    rfl

/-- One instruction in place: the bytes `own` become `own'`. -/
structure Patched (R : UInt16 → UInt16 → Prop) (ins : Instruction) (own : Bytes)
    (ins' : Instruction) (own' : Bytes) : Prop where
  renumbered : Instruction.Renumbered R ins ins'
  valid : ins'.Valid
  spelled : ins'.Spelled own'
  offset : ins'.offset = ins.offset
  length : own'.length = own.length
  others : ∀ k, k = 0 ∨ ins.indexWidth < k → own'[k]? = own[k]?

theorem patched_self {R : UInt16 → UInt16 → Prop} {ins : Instruction} {own : Bytes}
    (hvalid : ins.Valid) (h : ins.Spelled own) (hindex : ins.operand.index? = none) :
    Patched R ins own ins own :=
  ⟨by unfold Instruction.Renumbered; rw [hindex], hvalid, h, rfl, rfl, fun _ _ => rfl⟩

theorem patched_withIndex {R : UInt16 → UInt16 → Prop} {ins : Instruction} {own : Bytes}
    {i x : UInt16} (hvalid : ins.Valid) (h : ins.Spelled own)
    (hindex : ins.operand.index? = some i) (hfits : ins.op.shape = .pool8 → x ≤ 255)
    (hx : R i x) :
    Patched R ins own (ins.withIndex x) (Bytes.overwrite own 1 (ins.indexBytes x)) := by
  obtain ⟨hvalid', hspelled⟩ := h.withIndex hvalid hindex hfits
  have hwidth := length_indexBytes hindex x
  refine ⟨?_, hvalid', hspelled, rfl, Bytes.overwrite_length .., fun k hk => ?_⟩
  · unfold Instruction.Renumbered
    rw [hindex]
    exact ⟨x, hx, rfl⟩
  · exact Bytes.getElem?_overwrite_of_lt (by omega)

/-- Instructions that stand from `offset` on, in place: the bytes `code` become
`code'`. -/
structure PatchedAll (R : UInt16 → UInt16 → Prop) (offset : Nat) (instructions : List Instruction)
    (code code' : Bytes) : Prop where
  length : code'.length = code.length
  tiles : ∃ instructions', Tiles offset instructions' code' ∧
    List.Forall₂ (Instruction.Renumbered R) instructions instructions'
  others : ∀ k, (∀ ins ∈ instructions, offset + k ≤ ins.offset ∨
    ins.offset + ins.indexWidth < offset + k) → code'[k]? = code[k]?

/-- A patched instruction in front of patched ones.  It has as many bytes as
before, so that those behind it have not moved. -/
theorem Patched.cons {R : UInt16 → UInt16 → Prop} {ins ins' : Instruction}
    {rest : List Instruction} {own own' more more' : Bytes} (hown : Patched R ins own ins' own')
    (hvalid : ins.Valid) (hspelled : ins.Spelled own)
    (hmore : PatchedAll R ins.next rest more more') :
    PatchedAll R ins.offset (ins :: rest) (own ++ more) (own' ++ more') := by
  have hlength := hspelled.length hvalid
  have hlength' := hown.length
  have hnext : ins'.next = ins.next := by
    have hsize := hown.spelled.length hown.valid
    have hoffset := hown.offset
    unfold next
    omega
  obtain ⟨rest', htiles, hrenumbered⟩ := hmore.tiles
  refine ⟨by simp [hlength', hmore.length], ⟨ins' :: rest', ?_, .cons hown.renumbered hrenumbered⟩,
    fun k hk => ?_⟩
  · exact ⟨hown.valid, hown.offset, own', more', hown.spelled, rfl, by rw [hnext]; exact htiles⟩
  · rw [List.forall_mem_cons] at hk
    by_cases hlt : k < own.length
    · rw [List.getElem?_append_left (by omega), List.getElem?_append_left hlt]
      exact hown.others k (by omega)
    · rw [List.getElem?_append_right (by omega), List.getElem?_append_right (by omega), hlength']
      refine hmore.others (k - own.length) fun i hi => ?_
      have hi' := hk.2 i hi
      unfold next
      omega

end Instruction

section

variable {f : UInt16 → Change σ UInt16} {R : σ → UInt16 → UInt16 → Prop}
  (hf : ∀ i, Gives G (f i) fun t x => R t i x)

include hf

open Instruction in
theorem gives_changeOperands : ∀ (instructions : List Instruction) (offset : Nat) (code : Bytes),
    Tiles offset instructions code →
    Gives G (changeOperands f instructions code) fun t code' =>
      PatchedAll (R t) offset instructions code code' := by
  intro instructions
  induction instructions with
  | nil =>
    intro offset code htiles
    exact Gives.pure fun _ => ⟨rfl, ⟨[], htiles, .nil⟩, fun _ _ => rfl⟩
  | cons ins rest ih =>
    intro offset code htiles
    obtain ⟨hvalid, rfl, own, more, hspelled, rfl, hrest⟩ := htiles
    have hsplit : (own ++ more).splitAt ins.size = (own, more) := by
      rw [← hspelled.length hvalid, List.splitAt_eq, List.take_left, List.drop_left]
    -- The instructions behind the first, whatever becomes of it.
    have hcontinue (own' : Bytes) :
        Gives G (do return own' ++ (← changeOperands f rest more)) fun t code' =>
          ∀ ins', Patched (R t) ins own ins' own' →
            PatchedAll (R t) ins.offset (ins :: rest) (own ++ more) code' :=
      Gives.bind (ih ins.next more hrest) fun more' => Gives.pure fun t hmore ins' hown =>
        hown.cons hvalid hspelled hmore
    unfold changeOperands
    rw [hsplit]
    cases hindex : ins.operand.index? with
    | none =>
      simp only [pure_bind]
      exact (hcontinue own).mono fun t code' h => h ins (patched_self hvalid hspelled hindex)
    | some i =>
      refine Gives.bind (Gives.explain (hf i) _) fun x => ?_
      have hpatch (own' : Bytes) (hown : own' = own.overwrite 1 (ins.indexBytes x))
          (hfits : ins.op.shape = .pool8 → x ≤ 255) :=
        (hcontinue own').mono fun t code' h (hx : R t i x) =>
          h (ins.withIndex x) (hown ▸ patched_withIndex hvalid hspelled hindex hfits hx)
      by_cases hshape : ins.op.shape = .pool8
      · rw [if_pos hshape]
        by_cases hx : 255 < x
        · rw [if_pos hx]
          exact Gives.throw_bind
        · rw [if_neg hx]
          simp only [pure_bind]
          exact hpatch _ (by rw [indexBytes, if_pos hshape]) fun _ => by simpa using hx
      · rw [if_neg hshape]
        simp only [pure_bind]
        exact hpatch _ (by rw [indexBytes, if_neg hshape]) fun h => absurd h hshape

theorem gives_changeCode (code : Bytes) :
    Gives G (changeCode f code) fun t code' => Instruction.CodeRenumbered (R t) code code' := by
  unfold changeCode
  cases hdecode : Instruction.decodeAll code with
  | error e => exact Gives.throw
  | ok instructions =>
    refine (gives_changeOperands hf instructions 0 code (Instruction.decodeAll_ok.1 hdecode)).mono
      fun t code' h => ?_
    obtain ⟨instructions', htiles, hrenumbered⟩ := h.tiles
    refine ⟨h.length, instructions, instructions', hdecode, Instruction.decodeAll_ok.2 htiles,
      hrenumbered, fun k hk => h.others k ?_⟩
    simpa only [Nat.zero_add] using hk

/-! ## Attributes, members and the class -/

theorem gives_changeHandlers (handlers : List Handler) :
    Gives G (handlers.mapM fun h => return { h with catchType := ← changeIndex f h.catchType })
      fun t handlers' => List.Forall₂ (Handler.Renumbered (R t)) handlers handlers' :=
  Gives.mapM fun h _ => Gives.bind (gives_changeIndex hf h.catchType) fun _ =>
    Gives.pure fun _ hcatch => ⟨rfl, rfl, rfl, hcatch⟩

omit hf in
private theorem gives_changeAll_of (pool : Pool) {attributes : List Attribute}
    (h : ∀ a ∈ attributes, Gives G (a.changeReferences pool f) fun t a' =>
      Attribute.Renumbered (R t) pool a a') :
    Gives G (Attribute.changeAll pool f attributes) fun t attributes' =>
      List.Forall₂ (Attribute.Renumbered (R t) pool) attributes attributes' := by
  induction attributes with
  | nil =>
    unfold Attribute.changeAll
    exact Gives.pure fun _ => .nil
  | cons a attributes ih =>
    rw [List.forall_mem_cons] at h
    unfold Attribute.changeAll
    exact Gives.bind h.1 fun a' => Gives.bind (ih h.2) fun attributes' =>
      Gives.pure fun _ hattributes ha => .cons ha hattributes

theorem Attribute.gives_changeReferences (pool : Pool) (a : Attribute) :
    Gives G (a.changeReferences pool f) fun t a' => Attribute.Renumbered (R t) pool a a' := by
  induction a using Attribute.induction with
  | hraw i name info =>
    unfold Attribute.changeReferences
    exact Gives.bind (gives_changeIndex hf i) fun i' =>
      Gives.bind (gives_changeInfo hf pool name info) fun info' =>
        Gives.pure fun _ hinfo hindex => .raw hindex hinfo
  | hcode i name body ih =>
    obtain ⟨maxStack, maxLocals, bytecode, handlers, attributes⟩ := body
    unfold Attribute.changeReferences
    exact Gives.bind (gives_changeIndex hf i) fun i' =>
      Gives.bind (gives_changeCode hf bytecode) fun bytecode' =>
        Gives.bind (gives_changeHandlers hf handlers) fun handlers' =>
          Gives.bind (gives_changeAll_of pool ih) fun attributes' =>
            Gives.pure fun _ hattributes hhandlers hcode hindex =>
              .code hindex rfl rfl hcode hhandlers hattributes

theorem Attribute.gives_changeAll (pool : Pool) (attributes : List Attribute) :
    Gives G (Attribute.changeAll pool f attributes) fun t attributes' =>
      List.Forall₂ (Attribute.Renumbered (R t) pool) attributes attributes' :=
  gives_changeAll_of pool fun a _ => a.gives_changeReferences hf pool

theorem Member.gives_changeReferences (pool : Pool) (m : Member) :
    Gives G (m.changeReferences pool f) fun t m' => Member.Renumbered (R t) pool m m' := by
  unfold Member.changeReferences
  exact Gives.bind (gives_changeIndex hf m.nameIndex) fun _ =>
    Gives.bind (gives_changeIndex hf m.descriptorIndex) fun _ =>
      Gives.bind (Attribute.gives_changeAll hf pool m.attributes) fun _ =>
        Gives.pure fun _ hattributes hdescriptor hname => ⟨rfl, hname, hdescriptor, hattributes⟩

/-- Changing the references of a class changes them all, and nothing else. -/
theorem ClassFile.gives_changeReferences (cf : ClassFile) :
    Gives G (cf.changeReferences f) fun t cf' => ClassFile.Renumbered (R t) cf cf' := by
  unfold ClassFile.changeReferences
  exact Gives.bind (gives_changeIndex hf cf.thisClass) fun _ =>
    Gives.bind (gives_changeIndex hf cf.superClass) fun _ =>
      Gives.bind (Gives.mapM fun i _ => gives_changeIndex hf i) fun _ =>
        Gives.bind (Gives.mapM fun m _ => m.gives_changeReferences hf cf.pool) fun _ =>
          Gives.bind (Gives.mapM fun m _ => m.gives_changeReferences hf cf.pool) fun _ =>
            Gives.bind (Attribute.gives_changeAll hf cf.pool cf.attributes) fun _ =>
              Gives.pure fun _ hattributes hmethods hfields hinterfaces hsuper hthis =>
                ⟨rfl, rfl, rfl, hthis, hsuper, hinterfaces, hfields, hmethods, hattributes⟩

end

/-! ## Two changes of one class

What a first change says of the references can be used of a second one. -/

section Both

variable {R S T : UInt16 → UInt16 → Prop} (hT : ∀ i x y, R i x → S i y → T i y)

private theorem forall₂_both {P : α → β → Prop} {Q U : α → β → Prop} {items : List α}
    {first second : List β} (hU : ∀ a ∈ items, ∀ b c, P a b → Q a c → U a c)
    (h : List.Forall₂ P items first) (h' : List.Forall₂ Q items second) :
    List.Forall₂ U items second := by
  induction h' generalizing first with
  | nil => exact .nil
  | @cons a c items second hc _ ih =>
    rw [List.forall_mem_cons] at hU
    cases h with
    | cons hb hrest => exact .cons (hU.1 _ _ hb hc) (ih hU.2 hrest)

include hT

theorem IndexRenumbered.both {i x y : UInt16} (h : IndexRenumbered R i x)
    (h' : IndexRenumbered S i y) : IndexRenumbered T i y := by
  rcases h' with h' | ⟨hi, hy⟩
  · exact .inl h'
  · rcases h with ⟨hzero, -⟩ | ⟨-, hx⟩
    · exact absurd hzero hi
    · exact .inr ⟨hi, hT i x y hx hy⟩

theorem Layout.Renumbered.both {pool : Pool} {name : String} {info first second : Bytes}
    (h : Layout.Renumbered R pool name info first)
    (h' : Layout.Renumbered S pool name info second) :
    Layout.Renumbered T pool name info second :=
  ⟨h'.visited, h'.patched.length, fun pos hpos =>
    hT _ _ _ (h.patched.references pos hpos) (h'.patched.references pos hpos), h'.patched.others⟩

theorem Instruction.Renumbered.both {ins first second : Instruction}
    (h : Instruction.Renumbered R ins first) (h' : Instruction.Renumbered S ins second) :
    Instruction.Renumbered T ins second := by
  unfold Instruction.Renumbered at h h' ⊢
  cases hindex : ins.operand.index? with
  | none =>
    rw [hindex] at h'
    exact h'
  | some i =>
    rw [hindex] at h h'
    obtain ⟨x, hx, -⟩ := h
    obtain ⟨y, hy, hsecond⟩ := h'
    exact ⟨y, hT i x y hx hy, hsecond⟩

theorem Instruction.CodeRenumbered.both {code first second : Bytes}
    (h : CodeRenumbered R code first) (h' : CodeRenumbered S code second) :
    CodeRenumbered T code second := by
  obtain ⟨instructions, _, hdecode, -, hfirst, -⟩ := h.instructions
  obtain ⟨instructions', second', hdecode', hsecond, hrenumbered, hothers⟩ := h'.instructions
  obtain rfl := Except.ok.inj (hdecode.symm.trans hdecode')
  exact ⟨h'.length, instructions, second', hdecode, hsecond,
    forall₂_both (fun _ _ _ _ => Instruction.Renumbered.both hT) hfirst hrenumbered, hothers⟩

theorem Handler.Renumbered.both {row first second : Handler} (h : Handler.Renumbered R row first)
    (h' : Handler.Renumbered S row second) : Handler.Renumbered T row second :=
  ⟨h'.start, h'.stop, h'.target, h.catchType.both hT h'.catchType⟩

theorem Attribute.Renumbered.both {pool : Pool} {a first second : Attribute}
    (h : Attribute.Renumbered R pool a first) (h' : Attribute.Renumbered S pool a second) :
    Attribute.Renumbered T pool a second := by
  induction a using Attribute.induction generalizing first second with
  | hraw i name info =>
    cases h with
    | raw hindex hinfo =>
      cases h' with
      | raw hindex' hinfo' => exact .raw (hindex.both hT hindex') (hinfo.both hT hinfo')
  | hcode i name body ih =>
    cases h with
    | code hindex _ _ hcode hhandlers hattributes =>
      cases h' with
      | code hindex' hstack hlocals hcode' hhandlers' hattributes' =>
        exact .code (hindex.both hT hindex') hstack hlocals (hcode.both hT hcode')
          (forall₂_both (fun _ _ _ _ => Handler.Renumbered.both hT) hhandlers hhandlers')
          (forall₂_both (fun a ha _ _ h h' => ih a ha h h') hattributes hattributes')

theorem Attribute.Renumbered.forall₂_both {pool : Pool} {attributes first second : List Attribute}
    (h : List.Forall₂ (Attribute.Renumbered R pool) attributes first)
    (h' : List.Forall₂ (Attribute.Renumbered S pool) attributes second) :
    List.Forall₂ (Attribute.Renumbered T pool) attributes second :=
  Cleartext.forall₂_both (fun _ _ _ _ => Attribute.Renumbered.both hT) h h'

theorem Member.Renumbered.both {pool : Pool} {m first second : Member}
    (h : Member.Renumbered R pool m first) (h' : Member.Renumbered S pool m second) :
    Member.Renumbered T pool m second :=
  ⟨h'.access, h.nameIndex.both hT h'.nameIndex, h.descriptorIndex.both hT h'.descriptorIndex,
    Attribute.Renumbered.forall₂_both hT h.attributes h'.attributes⟩

theorem ClassFile.Renumbered.both {cf first second : ClassFile}
    (h : ClassFile.Renumbered R cf first) (h' : ClassFile.Renumbered S cf second) :
    ClassFile.Renumbered T cf second :=
  ⟨h'.minor, h'.major, h'.access, h.thisClass.both hT h'.thisClass,
    h.superClass.both hT h'.superClass,
    forall₂_both (fun _ _ _ _ => IndexRenumbered.both hT) h.interfaces h'.interfaces,
    forall₂_both (fun _ _ _ _ => Member.Renumbered.both hT) h.fields h'.fields,
    forall₂_both (fun _ _ _ _ => Member.Renumbered.both hT) h.methods h'.methods,
    Attribute.Renumbered.forall₂_both hT h.attributes h'.attributes⟩

end Both

/-! ## Visiting a patched attribute body -/

namespace Layout

variable {p q pool : Pool} {name : String} {info info' : Bytes} {T : UInt16 → UInt16 → Prop}

/-- A body of which the references correspond to those of another, and which is the
same outside the sites, is visited in the same way in the pool of its references. -/
theorem visit_renumbered (hT : SameNames p q T) (h : (visit p name info).failure = none)
    (hlength : info'.length = info.length)
    (hreferences : ∀ site ∈ (visit p name info).sites, site.kind = .reference →
      T (info.u16At site.position) (info'.u16At site.position))
    (hbytes : ∀ k, (∀ site ∈ (visit p name info).sites, ¬ site.Takes k) →
      info'[k]? = info[k]?) :
    visit q name info' = visit p name info := by
  obtain ⟨sites, hvisit, -, hsame⟩ := visit_ok hT h
  rw [hvisit] at hreferences hbytes
  have hmem {site : Site} (hsite : site ∈ sites) : site ∈ sites.reverse := List.mem_reverse.2 hsite
  refine hsame info' ⟨hlength, fun k _ huntaken => hbytes k fun site hsite => ?_,
    fun site hsite hkind k hk => ?_⟩
  · have hk := huntaken site (List.mem_reverse.1 hsite)
    rwa [show (opened info).cursor.offset = 0 from rfl, Nat.zero_add] at hk
  · rw [show (opened info).cursor.offset = 0 from rfl, Nat.zero_add] at hk
    exact hk ▸ hreferences site (hmem hsite) hkind

/-- Two sites that stand one after another do not overlap. -/
theorem apart_of_spread {sites : List Site}
    (h : sites.Pairwise fun earlier later => earlier.position + earlier.kind.width ≤ later.position)
    {a b : Site} (ha : a ∈ sites) (hb : b ∈ sites) (hab : a ≠ b) {k : Nat} (hk : a.Takes k) :
    ¬ b.Takes k := by
  intro hk'
  have := hk.1
  have := hk.2
  have := hk'.1
  have := hk'.2
  induction h with
  | nil => cases ha
  | cons hfirst _ ih =>
    rcases List.mem_cons.1 ha with rfl | ha'
    · rcases List.mem_cons.1 hb with rfl | hb'
      · exact hab rfl
      · have := hfirst b hb'
        omega
    · rcases List.mem_cons.1 hb with rfl | hb'
      · have := hfirst a ha'
        omega
      · exact ih ha' hb'

/-- A body that differs only in code positions is visited in the same way. -/
theorem visit_congr (h : (visit pool name info).failure = none)
    (hlength : info'.length = info.length)
    (hbytes : ∀ k, (∀ site ∈ (visit pool name info).sites, ¬ site.Covers k) →
      info'[k]? = info[k]?) :
    visit pool name info' = visit pool name info := by
  have hspread := ordered_visit pool name info
  -- A reference overlaps with no code position, so its bytes stay.
  have hkept {site : Site} (hsite : site ∈ (visit pool name info).sites)
      (hkind : site.kind = .reference) {k : Nat} (hk : site.Takes k) : info'[k]? = info[k]? := by
    refine hbytes k fun other hother hcovers => ?_
    have hne : site ≠ other := fun heq => hcovers.1 (heq ▸ hkind)
    exact apart_of_spread hspread hsite hother hne hk hcovers.2
  refine visit_renumbered (sameNames_self pool) h hlength (fun site hsite hkind => ?_)
    fun k huntaken => ?_
  · have hsame : info'.u16At site.position = info.u16At site.position := by
      have hwidth := site.kind.two_le_width
      exact Bytes.u16At_congr (hkept hsite hkind ⟨le_rfl, by omega⟩)
        (hkept hsite hkind ⟨by omega, by omega⟩)
    exact ⟨hsame, hsame ▸ (spaced_visit h).nonzero site hsite hkind⟩
  · exact hbytes k fun site hsite hcovers => huntaken site hsite hcovers.2

end Layout

end Cleartext
