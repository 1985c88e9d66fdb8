import Cleartext.Proofs.Class.Growing
import Cleartext.Proofs.Isolation.Lifting
import Cleartext.Proofs.Pattern.Operands

/-!
# Lifting keeps exactly what is reached

The methods of the copy are those that the routine and the class initializer reach, in
their order, and its fields are those that these methods have instructions for.  A member
that is kept has its name, its type, its flags and its code, in which only pool operands are
renumbered, each to one of the same value (`MemberKept`).

The value of an index is compared by what one sees from it (`Pool.sight`), so that entries
that refer to themselves, which a class that is not shrunk keeps, are compared as well.  The
superclass is added to the pool before the class is shrunk.  An index that names nothing
until then, and one of the constants that are added afterwards, is left out (`Spared`); it
lies behind the pool (`spared_of_lt`).
-/

namespace Cleartext

/-! ## What one sees from an index -/

/-- What one sees from an index, down to some depth: that there is no entry, or the data of
the entry and what one sees from what it refers to. -/
inductive Sight
  | far
  | missing
  | entry (own : Constant) (parts : List Sight)

namespace Pool

variable {p q r : Pool} {i x y : UInt16}

/-- What one sees from an index. -/
def sight (p : Pool) : Nat → UInt16 → Sight
  | 0, _ => .far
  | depth + 1, i =>
    match p.get? i with
    | none => .missing
    | some c => .entry c.bare (c.references.map (p.sight depth))

/-- From two indices one sees the same, however far. -/
def SameValue (p q : Pool) (i x : UInt16) : Prop := ∀ depth, q.sight depth x = p.sight depth i

theorem SameValue.trans (h : p.SameValue q i x) (h' : q.SameValue r x y) : p.SameValue r i y :=
  fun depth => (h' depth).trans (h depth)

/-- Indices that correspond have the same value. -/
theorem Corresponds.sameValue (h : p.Corresponds q i x) : p.SameValue q i x := by
  intro depth
  induction depth generalizing i x with
  | zero => rfl
  | succ depth ih =>
    have hentry := h.entry
    unfold sight
    unfold get at hentry
    generalize p.get? i = c at hentry ⊢
    generalize q.get? x = d at hentry ⊢
    cases c with
    | none =>
      cases d with
      | none => rfl
      | some d => cases hentry
    | some c =>
      cases d with
      | none => cases hentry
      | some d =>
        cases hentry with
        | ok hcd =>
          obtain ⟨hbare, hrefs⟩ := hcd
          dsimp only
          rw [hbare, map_eq_map hrefs fun r s hrs => (ih hrs).symm]

/-- An entry has the same value in a pool that extends its own. -/
theorem Extends.sameValue (h : p.Extends q) (hclosed : p.Closed) (hi : q.get? i = p.get? i) :
    p.SameValue q i i := by
  intro depth
  induction depth generalizing i with
  | zero => rfl
  | succ depth ih =>
    unfold sight
    rw [hi]
    cases hc : p.get? i with
    | none => rfl
    | some c =>
      dsimp only
      refine congrArg (Sight.entry c.bare) (List.map_congr_left fun r hr => ih ?_)
      obtain ⟨d, hd⟩ := Option.isSome_iff_exists.1 (hclosed.isSome_of_get? hc r hr)
      rw [hd, h r d hd]

/-- The text at an index is part of its value. -/
theorem SameValue.text (h : p.SameValue q i x) :
    (q.text x).toOption = (p.text i).toOption := by
  have hone := h 1
  unfold sight at hone
  unfold Pool.text Pool.units get
  generalize p.get? i = c at hone ⊢
  generalize q.get? x = d at hone ⊢
  cases c with
  | none =>
    cases d with
    | none => rfl
    | some d => cases hone
  | some c =>
    cases d with
    | none => cases hone
    | some d =>
      have hbare := (Sight.entry.inj hone).1
      cases c <;> cases d <;> cases hbare <;> rfl

end Pool

namespace Isolation

variable {cf cf' : ClassFile} {p q : Pool} {m m' : Member}

/-! ## Members that are kept -/

/-- An index names the same before and after the superclass is added. -/
def Spared (p : Pool) (i : UInt16) : Prop :=
  (p.edit (Pool.Edit.class_ "java/lang/Object")).2.get? i = p.get? i

/-- No index of a pool is left out. -/
theorem spared_of_lt {i : UInt16} (hp : p.Coherent) (hi : i.toNat < p.count) : Spared p i := by
  have hgives : Pool.Edit.Gives (fun _ => True) (Pool.Edit.class_ "java/lang/Object") _ :=
    Pool.Edit.gives_class _
  obtain ⟨hq, hextends, -⟩ := hgives p hp fun _ _ => True.intro
  exact hextends.get?_eq_of_lt hp.wellFormed hq.wellFormed hi

/-- An index and what became of it have the same value, unless the index is left out. -/
def Keeps (p q : Pool) (i x : UInt16) : Prop := Spared p i → p.SameValue q i x

/-- A member and its copy. -/
structure MemberKept (p q : Pool) (m m' : Member) : Prop where
  access : m'.access = m.access
  name : Spared p m.nameIndex → m'.name q = m.name p
  descriptor : Spared p m.descriptorIndex → m'.descriptor q = m.descriptor p
  body : m.BodyRenumbered (Keeps p q) m'

section

variable {p₁ : Pool} {superClass : UInt16} (hp : p.Coherent)
  (hadded : p.edit (Pool.Edit.class_ "java/lang/Object") = (.ok superClass, p₁))

include hp hadded

theorem keeps_of_corresponds {i x : UInt16} (h : p₁.Corresponds q i x) : Keeps p q i x := by
  intro hspared
  obtain ⟨-, hextends, -, -⟩ := className_object hp hadded
  unfold Spared at hspared
  rw [hadded] at hspared
  exact (hextends.sameValue hp.closed hspared).trans h.sameValue

theorem memberKept_self (m : Member) : MemberKept p p₁ m m where
  access := rfl
  name hspared := by
    unfold Member.name
    rw [(keeps_of_corresponds hp hadded (.refl _) hspared).text]
  descriptor hspared := by
    unfold Member.descriptor
    rw [(keeps_of_corresponds hp hadded (.refl _) hspared).text]
  body := .refl (fun _ => keeps_of_corresponds hp hadded (.refl _)) m

theorem memberKept_of_renumbered {pool : Pool} (hq : q.get? 0 = none)
    (h : m.Renumbered (p₁.SameMeaning q) pool m') : MemberKept p q m m' := by
  obtain ⟨hp₁, -, -, -⟩ := className_object hp hadded
  have hkeeps {i x : UInt16} (hix : IndexRenumbered (p₁.SameMeaning q) i x) : Keeps p q i x :=
    keeps_of_corresponds hp hadded (.of_index hp₁.wellFormed.get?_zero hq hix)
  refine ⟨h.access, fun hspared => ?_, fun hspared => ?_,
    (h.both (fun i _ x _ hix => keeps_of_corresponds hp hadded (.same hix)) h).body⟩
  · unfold Member.name
    rw [(hkeeps h.nameIndex hspared).text]
  · unfold Member.descriptor
    rw [(hkeeps h.descriptorIndex hspared).text]

end

/-! ## The copy -/

open Classical in
/-- A class of its own with what a routine of a class reaches. -/
structure KeptPart (cf : ClassFile) (method : String) (cf' : ClassFile) : Prop where
  name : cf'.name = cf.name
  superName : cf'.superName = "java/lang/Object"
  interfaces : cf'.interfaces = []
  attributes : cf'.attributes.map Attribute.name =
    (cf.attributes.map Attribute.name).filter (· == "BootstrapMethods")
  methods : List.Forall₂ (MemberKept cf.pool cf'.pool)
    (cf.methods.filter fun m => Reached cf method m) cf'.methods
  fields : List.Forall₂ (MemberKept cf.pool cf'.pool)
    (cf.fields.filter fun f => Accessed cf method (keyOf cf f)) cf'.fields
  /-- The code of what is kept was looked at. -/
  decoded : ∀ m, Reached cf method m → ∀ body, m.body? = some body →
    ∃ code, Instruction.decodeAll body.bytecode = .ok code

/-- What is left of the kept part of a class, shrunk or not. -/
theorem members_shrunk {p₁ : Pool} {superClass : UInt16} {part : ClassFile} {notes : List Note}
    (hp : p.Coherent)
    (hadded : p.edit (Pool.Edit.class_ "java/lang/Object") = (.ok superClass, p₁))
    (hpart : part.pool = p₁) (h : shrunk part = .ok (cf', notes)) :
    cf'.interfaces.length = part.interfaces.length ∧
      cf'.attributes.map Attribute.name = part.attributes.map Attribute.name ∧
      List.Forall₂ (MemberKept p cf'.pool) part.methods cf'.methods ∧
      List.Forall₂ (MemberKept p cf'.pool) part.fields cf'.fields := by
  obtain ⟨hp₁, -, -, -⟩ := className_object hp hadded
  subst hpart
  obtain rfl | ⟨hq, hsame⟩ := shrunk_cases hp₁.wellFormed h
  · exact ⟨rfl, rfl, List.forall₂_same.2 fun m _ => memberKept_self hp hadded m,
      List.forall₂_same.2 fun m _ => memberKept_self hp hadded m⟩
  · exact ⟨hsame.interfaces.length_eq.symm,
      (map_eq_map hsame.attributes fun _ _ ha => ha.name_eq.symm).symm,
      hsame.methods.imp fun _ _ => memberKept_of_renumbered hp hadded hq.get?_zero,
      hsame.fields.imp fun _ _ => memberKept_of_renumbered hp hadded hq.get?_zero⟩

/-- The search for what a routine reaches comes to its end for every class.  When the
methods of the class are told apart by their names and types, the copy that is made for the
routine has exactly what is reached. -/
theorem lift_keeps_reached (cf : ClassFile) (method : String) :
    Search cf (seeds cf method) ⟨[], []⟩ (reachable cf method) ∧
      ∀ (data : Bytes) (cf' : ClassFile) (notes : List Note), ClassFile.parse data = .ok cf →
        (cf.methods.map (keyOf cf)).Nodup → lift cf method = .ok (cf', notes) →
        KeptPart cf method cf' := by
  classical
  refine ⟨search_reachable cf method, fun data cf' notes hparse hdistinct hlift => ?_⟩
  obtain ⟨uses, superClass, pool, huses, hadded, hshrunk⟩ := lift_steps hparse hlift
  have hconsistent := ClassFile.Consistent.of_parse hparse
  have hp := hconsistent.pool
  obtain ⟨hpool, hextends, hzero, hobject⟩ := className_object hp hadded
  have hcopies := shrunk_ok hpool.wellFormed hshrunk
  obtain ⟨hinterfaces, hattributes, hmethods, hfields⟩ := members_shrunk hp hadded rfl hshrunk
  refine ⟨?_, ?_, List.length_eq_zero_iff.1 hinterfaces, ?_, ?_, ?_,
    fun m hm body => hm.decoded huses hdistinct⟩
  · obtain ⟨name, hname⟩ := hconsistent.thisClass
    rw [hcopies.name]
    unfold ClassFile.name
    rw [hname]
    exact congrArg (fun e => e.toOption.getD "") (hextends.className hname)
  · rw [hcopies.superName]
    unfold ClassFile.superName
    dsimp only
    rw [if_neg hzero, hobject]
    rfl
  · rw [hattributes, List.filter_map]
    rfl
  · have hkept : (restrict cf uses).methods = cf.methods.filter fun m => Reached cf method m := by
      refine List.filter_congr fun m hm => ?_
      rw [decide_eq_decide]
      exact mem_methods_iff huses hdistinct hm
    rw [← hkept]
    exact hmethods
  · have hkept : (restrict cf uses).fields =
        cf.fields.filter fun f => Accessed cf method (keyOf cf f) := by
      refine List.filter_congr fun f _ => ?_
      rw [decide_eq_decide]
      exact mem_fields_iff huses hdistinct _
    rw [← hkept]
    exact hfields

/-- The copy of `giving` has the routine that is asked for, and no other method. -/
theorem lift_keeps_reached_giving :
    ∃ notes, ClassFile.parse giving.image = .ok giving ∧ (giving.methods.map (keyOf giving)).Nodup ∧
      lift giving "d" = .ok (given, notes) ∧ KeptPart giving "d" given := by
  obtain ⟨notes, hlift⟩ := lift_giving
  have hdistinct : (giving.methods.map (keyOf giving)).Nodup := by decide
  exact ⟨notes, parse_giving, hdistinct, hlift,
    (lift_keeps_reached giving "d").2 giving.image given notes parse_giving hdistinct hlift⟩

end Isolation

end Cleartext
