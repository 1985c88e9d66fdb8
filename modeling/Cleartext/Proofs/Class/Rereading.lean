import Cleartext.Proofs.Class.References

/-!
# Going through a renumbered class again

A class whose references were changed has the changed references at the same places:
it can be gone through again, in the pool that the new references belong to, and they
are found in the same order (`ClassFile.Renumbered.references`).

A class whose references were changed to themselves is the same class
(`ClassFile.Renumbered.eq_of_same`).
-/

namespace Cleartext

variable {R : UInt16 → UInt16 → Prop}

/-! ## The new references -/

section References

variable {p q : Pool} (hT : Layout.SameNames p q R)

include hT

theorem IndexRenumbered.references {i x : UInt16} (h : IndexRenumbered R i x) :
    List.Forall₂ R (referencesOf i) (referencesOf x) := by
  unfold referencesOf
  rcases h with ⟨rfl, rfl⟩ | ⟨hi, hx⟩
  · exact .nil
  · rw [if_neg hi, if_neg (hT.nonzero i x hx)]
    exact .cons hx .nil

/-- The body of an attribute is visited again in the same way. -/
theorem Layout.Renumbered.visit_eq {name : String} {info info' : Bytes}
    (h : Layout.Renumbered R p name info info') :
    Layout.visit q name info' = Layout.visit p name info := by
  refine Layout.visit_renumbered hT h.visited h.patched.length (fun site hsite hkind => ?_)
    fun k huntaken => h.patched.others k fun pos hpos => ?_
  · exact h.patched.references _ (List.mem_map_of_mem (List.mem_filter.2 ⟨hsite, by simpa⟩))
  · obtain ⟨site, hsite, rfl⟩ := List.mem_map.1 hpos
    obtain ⟨hsite, -⟩ := List.mem_filter.1 hsite
    have huntaken := huntaken site hsite
    have hwidth := site.kind.two_le_width
    unfold Layout.Site.Takes at huntaken
    omega

theorem Layout.Renumbered.references {name : String} {info info' : Bytes}
    (h : Layout.Renumbered R p name info info') :
    List.Forall₂ R (Layout.references p name info) (Layout.references q name info') := by
  unfold Layout.references
  rw [h.visit_eq hT, List.forall₂_map_left_iff, List.forall₂_map_right_iff, List.forall₂_same]
  exact h.patched.references

omit hT in
theorem Instruction.Renumbered.references {ins ins' : Instruction}
    (h : Instruction.Renumbered R ins ins') :
    List.Forall₂ R ins.operand.index?.toList ins'.operand.index?.toList := by
  have hset {s : Shape} {o : Operand s} {i : UInt16} (ho : o.index? = some i) (x : UInt16) :
      (withIndex.set x o).index? = some x := by
    cases o with
    | pool8 | pool16 | interface | dynamic | dimensions => rfl
    | _ => cases ho
  unfold Instruction.Renumbered at h
  cases hindex : ins.operand.index? with
  | none =>
    rw [hindex] at h
    rw [h, hindex]
    exact .nil
  | some i =>
    rw [hindex] at h
    obtain ⟨x, hx, rfl⟩ := h
    rw [show (ins.withIndex x).operand.index? = some x from hset hindex x]
    exact .cons hx .nil

omit hT in
theorem Instruction.CodeRenumbered.references {code code' : Bytes}
    (h : CodeRenumbered R code code') : (∃ instructions, decodeAll code' = .ok instructions) ∧
      List.Forall₂ R (Instruction.references code) (Instruction.references code') := by
  obtain ⟨instructions, instructions', hold, hnew, hrenumbered, -⟩ := h.instructions
  unfold Instruction.references
  rw [hold, hnew]
  exact ⟨⟨_, rfl⟩, List.rel_flatMap hrenumbered fun _ _ => Instruction.Renumbered.references⟩

omit hT in
private theorem forall₂_referencesAll {attributes attributes' : List Attribute}
    (h : List.Forall₂ (Attribute.Renumbered R p) attributes attributes')
    (hone : ∀ a ∈ attributes, ∀ a', a.Renumbered R p a' →
      a'.Walkable q ∧ List.Forall₂ R (a.references p) (a'.references q)) :
    (∀ a ∈ attributes', a.Walkable q) ∧
      List.Forall₂ R (Attribute.referencesAll p attributes)
        (Attribute.referencesAll q attributes') := by
  induction h with
  | nil =>
    rw [Attribute.referencesAll, Attribute.referencesAll]
    exact ⟨by simp, .nil⟩
  | cons ha _ ih =>
    rw [List.forall_mem_cons] at hone
    obtain ⟨hwalk, hrefs⟩ := hone.1 _ ha
    obtain ⟨hwalks, hrest⟩ := ih hone.2
    rw [Attribute.referencesAll, Attribute.referencesAll, List.forall_mem_cons]
    exact ⟨⟨hwalk, hwalks⟩, List.rel_append hrefs hrest⟩

theorem Attribute.Renumbered.references {a a' : Attribute} (h : a.Renumbered R p a') :
    a'.Walkable q ∧ List.Forall₂ R (a.references p) (a'.references q) := by
  induction a using Attribute.induction generalizing a' with
  | hraw i name info =>
    cases h with
    | raw hindex hinfo =>
      rw [Attribute.references, Attribute.references]
      refine ⟨.raw ?_, List.rel_append (hindex.references hT) (hinfo.references hT)⟩
      rw [hinfo.visit_eq hT]
      exact hinfo.visited
  | hcode i name body ih =>
    obtain ⟨maxStack, maxLocals, bytecode, handlers, attributes⟩ := body
    cases h with
    | @code _ _ _ _ body' hindex _ _ hcode hhandlers hattributes =>
      obtain ⟨maxStack', maxLocals', bytecode', handlers', attributes'⟩ := body'
      obtain ⟨hdecode, hinstructions⟩ := hcode.references
      obtain ⟨hwalk, hrest⟩ := forall₂_referencesAll hattributes fun a ha a' h => ih a ha h
      rw [Attribute.references, Attribute.references]
      refine ⟨.code hdecode hwalk, List.rel_append (hindex.references hT)
        (List.rel_append hinstructions (List.rel_append ?_ hrest))⟩
      exact List.rel_flatMap hhandlers fun _ _ h => h.catchType.references hT

theorem Attribute.Renumbered.referencesAll {attributes attributes' : List Attribute}
    (h : List.Forall₂ (Attribute.Renumbered R p) attributes attributes') :
    (∀ a ∈ attributes', a.Walkable q) ∧
      List.Forall₂ R (Attribute.referencesAll p attributes)
        (Attribute.referencesAll q attributes') :=
  forall₂_referencesAll h fun _ _ _ h => h.references hT

theorem Member.Renumbered.references {m m' : Member} (h : m.Renumbered R p m') :
    (∀ a ∈ m'.attributes, a.Walkable q) ∧
      List.Forall₂ R (m.references p) (m'.references q) := by
  obtain ⟨hwalk, hrefs⟩ := Attribute.Renumbered.referencesAll hT h.attributes
  exact ⟨hwalk, List.rel_append (h.nameIndex.references hT)
    (List.rel_append (h.descriptorIndex.references hT) hrefs)⟩

private theorem forall₂_members {members members' : List Member}
    (h : List.Forall₂ (Member.Renumbered R p) members members') :
    (∀ m ∈ members', ∀ a ∈ m.attributes, a.Walkable q) ∧
      List.Forall₂ R (members.flatMap (Member.references p))
        (members'.flatMap (Member.references q)) := by
  refine ⟨fun m' hm' => ?_, List.rel_flatMap h fun _ _ h => (h.references hT).2⟩
  obtain ⟨m, -, hm⟩ := exists_mem_of_forall₂ h hm'
  exact (hm.references hT).1

omit hT in
/-- A class with changed references can be gone through again, and finds the changed
references one after another. -/
theorem ClassFile.Renumbered.references {cf cf' : ClassFile}
    (hT : Layout.SameNames cf.pool cf'.pool R) (h : cf.Renumbered R cf') :
    cf'.Walkable ∧ List.Forall₂ R cf.references cf'.references := by
  obtain ⟨hfields, hfieldRefs⟩ := forall₂_members hT h.fields
  obtain ⟨hmethods, hmethodRefs⟩ := forall₂_members hT h.methods
  obtain ⟨hattributes, hattributeRefs⟩ := Attribute.Renumbered.referencesAll hT h.attributes
  refine ⟨⟨hfields, hmethods, hattributes⟩, ?_⟩
  exact List.rel_append (h.thisClass.references hT) <|
    List.rel_append (h.superClass.references hT) <|
    List.rel_append (List.rel_flatMap h.interfaces fun _ _ h => h.references hT) <|
    List.rel_append hfieldRefs <| List.rel_append hmethodRefs hattributeRefs

end References

/-! ## References that stay -/

section Same

private theorem eq_of_forall₂ {α : Type} {P : α → α → Prop} {items items' : List α}
    (h : List.Forall₂ P items items') (hone : ∀ a ∈ items, ∀ a', P a a' → a' = a) :
    items' = items := by
  induction h with
  | nil => rfl
  | cons ha _ ih =>
    rw [List.forall_mem_cons] at hone
    rw [hone.1 _ ha, ih hone.2]

variable (hR : ∀ i x, R i x → x = i)

include hR

theorem IndexRenumbered.eq_of_same {i x : UInt16} (h : IndexRenumbered R i x) : x = i := by
  rcases h with ⟨rfl, rfl⟩ | ⟨-, hx⟩
  · rfl
  · exact hR i x hx

/-- Bytes in which words are changed to themselves. -/
theorem Bytes.Renumbered.eq_of_same {positions : List Nat} {bytes bytes' : Bytes}
    (h : Bytes.Renumbered R positions bytes bytes')
    (hinside : ∀ pos ∈ positions, pos + 2 ≤ bytes.length) : bytes' = bytes := by
  refine List.ext_getElem? fun k => ?_
  by_cases hk : ∃ pos ∈ positions, pos ≤ k ∧ k < pos + 2
  · obtain ⟨pos, hpos, hle, hlt⟩ := hk
    have hlength := hinside pos hpos
    have hword := hR _ _ (h.references pos hpos)
    rw [← Nat.add_sub_cancel' hle, Bytes.getElem?_add_of_word hlength (by omega),
      Bytes.getElem?_add_of_word (by rwa [h.length]) (by omega), hword]
  · exact h.others k fun pos hpos => by
      by_contra hnot
      exact hk ⟨pos, hpos, by omega, by omega⟩

theorem Layout.Renumbered.eq_of_same {pool : Pool} {name : String} {info info' : Bytes}
    (h : Layout.Renumbered R pool name info info') : info' = info := by
  refine h.patched.eq_of_same hR fun pos hpos => ?_
  obtain ⟨site, hsite, rfl⟩ := List.mem_map.1 hpos
  obtain ⟨hsite, hkind⟩ := List.mem_filter.1 hsite
  have hinside := Layout.inside_visit pool name info site hsite
  have hwidth := site.kind.two_le_width
  omega

theorem Instruction.Renumbered.eq_of_same {ins ins' : Instruction}
    (h : Instruction.Renumbered R ins ins') : ins' = ins := by
  unfold Instruction.Renumbered at h
  cases hindex : ins.operand.index? with
  | none =>
    rw [hindex] at h
    exact h
  | some i =>
    rw [hindex] at h
    obtain ⟨x, hx, rfl⟩ := h
    rw [hR i x hx, withIndex_self hindex]

omit hR

/-- The bytes of the pool operand of an instruction. -/
theorem Instruction.Spelled.getElem?_index {ins : Instruction} {own : Bytes} {i : UInt16}
    (hvalid : ins.Valid) (h : ins.Spelled own) (hindex : ins.operand.index? = some i) {k : Nat}
    (hk : k < (ins.indexBytes i).length) : own[1 + k]? = (ins.indexBytes i)[k]? := by
  have hwide := hvalid.wide_eq_false hindex
  have hoperands {s : Shape} {o : Operand s} {offset : Nat} {operands : Bytes}
      (ho : o.index? = some i) (h : o.Spelled false offset operands) :
      ∃ more, operands = (if s = .pool8 then [i.toUInt8] else Bytes.ofU16 i) ++ more := by
    cases o with
    | pool8 | pool16 | dimensions =>
      obtain rfl := Option.some.inj ho
      exact ⟨_, h.trans rfl⟩
    | interface | dynamic =>
      obtain rfl := Option.some.inj ho
      obtain ⟨x, rfl⟩ := h
      exact ⟨_, rfl⟩
    | _ => cases ho
  obtain ⟨operands, hspelled, rfl⟩ := h
  rw [hwide] at hspelled
  obtain ⟨more, rfl⟩ := hoperands hindex hspelled
  rw [hwide, if_neg (by simp), List.nil_append, List.singleton_append, Nat.add_comm,
    List.getElem?_cons_succ]
  exact List.getElem?_append_left hk

/-- The pool operand lies inside the instruction. -/
theorem Instruction.Spelled.indexWidth_lt {ins : Instruction} {own : Bytes} {i : UInt16}
    (hvalid : ins.Valid) (h : ins.Spelled own) (hindex : ins.operand.index? = some i) :
    ins.indexWidth < own.length := by
  have hlength := length_indexBytes hindex i
  have hpos : 0 < (ins.indexBytes i).length := by
    unfold indexBytes
    split <;> simp
  have hinside : (ins.indexBytes i).length - 1 < (ins.indexBytes i).length := by omega
  have hlast := (h.getElem?_index hvalid hindex hinside).trans (List.getElem?_eq_getElem hinside)
  have hlt := (List.getElem?_eq_some_iff.1 hlast).1
  omega

/-- The bytes of the pool operand of an instruction that stands in code. -/
theorem Instruction.Tiles.getElem?_index {instructions : List Instruction} {offset : Nat}
    {code : Bytes} (h : Tiles offset instructions code) {ins : Instruction}
    (hins : ins ∈ instructions) {i : UInt16} (hindex : ins.operand.index? = some i) {k : Nat}
    (hk : k < (ins.indexBytes i).length) :
    offset ≤ ins.offset ∧ code[ins.offset - offset + (1 + k)]? = (ins.indexBytes i)[k]? := by
  induction instructions generalizing offset code with
  | nil => cases hins
  | cons first rest ih =>
    obtain ⟨hvalid, rfl, own, more, hspelled, rfl, hrest⟩ := h
    have hlength := hspelled.length hvalid
    rcases List.mem_cons.1 hins with rfl | hins
    · have hbyte := hspelled.getElem?_index hvalid hindex hk
      have hlt : 1 + k < own.length := by
        rw [List.getElem?_eq_getElem hk] at hbyte
        exact (List.getElem?_eq_some_iff.1 hbyte).1
      rw [Nat.sub_self, Nat.zero_add, List.getElem?_append_left hlt]
      exact ⟨le_rfl, hbyte⟩
    · obtain ⟨hle, hbyte⟩ := ih hrest hins
      unfold next at hle hbyte
      rw [List.getElem?_append_right (by omega), ← hbyte, hlength]
      exact ⟨by omega, by congr 1; omega⟩

include hR

/-- Code in which operands are changed to themselves. -/
theorem Instruction.CodeRenumbered.eq_of_same {code code' : Bytes}
    (h : CodeRenumbered R code code') : code' = code := by
  obtain ⟨instructions, instructions', hold, hnew, hrenumbered, hothers⟩ := h.instructions
  obtain rfl : instructions' = instructions := by
    exact eq_of_forall₂ hrenumbered fun _ _ _ h => Instruction.Renumbered.eq_of_same hR h
  have htiles := decodeAll_ok.1 hold
  have htiles' := decodeAll_ok.1 hnew
  refine List.ext_getElem? fun k => ?_
  by_cases hk : ∃ ins ∈ instructions', ins.offset < k ∧ k ≤ ins.offset + ins.indexWidth
  · obtain ⟨ins, hins, hlt, hle⟩ := hk
    obtain ⟨i, hindex⟩ : ∃ i, ins.operand.index? = some i := by
      cases hindex : ins.operand.index? with
      | some i => exact ⟨i, rfl⟩
      | none =>
        have hzero : ins.indexWidth = 0 := by rw [indexWidth, hindex]
        omega
    have hinside : k - ins.offset - 1 < (ins.indexBytes i).length := by
      rw [length_indexBytes hindex]
      omega
    rw [show k = ins.offset - 0 + (1 + (k - ins.offset - 1)) by omega,
      (htiles'.getElem?_index hins hindex hinside).2, (htiles.getElem?_index hins hindex hinside).2]
  · exact hothers k fun ins hins => by
      by_contra hnot
      exact hk ⟨ins, hins, by omega, by omega⟩

theorem Attribute.Renumbered.eq_of_same {pool : Pool} {a a' : Attribute}
    (h : a.Renumbered R pool a') : a' = a := by
  induction a using Attribute.induction generalizing a' with
  | hraw i name info =>
    cases h with
    | raw hindex hinfo => rw [hindex.eq_of_same hR, hinfo.eq_of_same hR]
  | hcode i name body ih =>
    cases h with
    | @code _ _ _ _ body' hindex hstack hlocals hcode hhandlers hattributes =>
      have hrow (row row' : Handler) (h : row.Renumbered R row') : row' = row := by
        obtain ⟨start, stop, target, catchType⟩ := row
        obtain ⟨start', stop', target', catchType'⟩ := row'
        obtain ⟨rfl, rfl, rfl, hcatch⟩ := h
        rw [show catchType' = catchType from hcatch.eq_of_same hR]
      have hrows := eq_of_forall₂ hhandlers fun row _ row' => hrow row row'
      have hnested := eq_of_forall₂ hattributes fun a ha a' h => ih a ha h
      obtain ⟨maxStack, maxLocals, bytecode, handlers, attributes⟩ := body
      obtain ⟨maxStack', maxLocals', bytecode', handlers', attributes'⟩ := body'
      obtain rfl : maxStack' = maxStack := hstack
      obtain rfl : maxLocals' = maxLocals := hlocals
      obtain rfl : bytecode' = bytecode := hcode.eq_of_same hR
      obtain rfl : handlers' = handlers := hrows
      obtain rfl : attributes' = attributes := hnested
      rw [hindex.eq_of_same hR]

theorem Member.Renumbered.eq_of_same {pool : Pool} {m m' : Member} (h : m.Renumbered R pool m') :
    m' = m := by
  obtain ⟨access, nameIndex, descriptorIndex, attributes⟩ := m
  obtain ⟨access', nameIndex', descriptorIndex', attributes'⟩ := m'
  obtain ⟨haccess, hname, hdescriptor, hattributes⟩ := h
  obtain rfl : access' = access := haccess
  obtain rfl : nameIndex' = nameIndex := hname.eq_of_same hR
  obtain rfl : descriptorIndex' = descriptorIndex := hdescriptor.eq_of_same hR
  obtain rfl : attributes' = attributes :=
    eq_of_forall₂ hattributes fun _ _ _ h => h.eq_of_same hR
  rfl

/-- A class whose references were changed to themselves is the same, but for its pool. -/
theorem ClassFile.Renumbered.eq_of_same {cf cf' : ClassFile} (h : cf.Renumbered R cf') :
    cf' = { cf with pool := cf'.pool } := by
  obtain ⟨minor, major, pool, access, thisClass, superClass, interfaces, fields, methods,
    attributes⟩ := cf
  obtain ⟨minor', major', pool', access', thisClass', superClass', interfaces', fields', methods',
    attributes'⟩ := cf'
  obtain ⟨hminor, hmajor, haccess, hthis, hsuper, hinterfaces, hfields, hmethods,
    hattributes⟩ := h
  obtain rfl : minor' = minor := hminor
  obtain rfl : major' = major := hmajor
  obtain rfl : access' = access := haccess
  obtain rfl : thisClass' = thisClass := hthis.eq_of_same hR
  obtain rfl : superClass' = superClass := hsuper.eq_of_same hR
  obtain rfl : interfaces' = interfaces :=
    eq_of_forall₂ hinterfaces fun _ _ _ h => h.eq_of_same hR
  obtain rfl : fields' = fields := eq_of_forall₂ hfields fun _ _ _ h => h.eq_of_same hR
  obtain rfl : methods' = methods := eq_of_forall₂ hmethods fun _ _ _ h => h.eq_of_same hR
  obtain rfl : attributes' = attributes :=
    eq_of_forall₂ hattributes fun _ _ _ h => h.eq_of_same hR
  rfl

end Same

end Cleartext
