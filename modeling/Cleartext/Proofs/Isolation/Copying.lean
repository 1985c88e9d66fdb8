import Cleartext.Proofs.Class.Shrinking
import Cleartext.Proofs.Class.Words
import Cleartext.Proofs.Twin.Loading

/-!
# Copies of members

What a run reads of a class that was shrunk is what it reads of the class itself.  An index
corresponds to one of the same meaning (`Pool.Corresponds`), so the fields of the copy have
the same names and constants (`FieldLike`), its methods have the same names and code in
which only indices differ (`MethodLike`), and its call sites are alike (`SitesLike`).

A class whose pool stays as it is, is a copy of itself in this sense.
-/

namespace Cleartext

/-! ## Indices that correspond -/

namespace Pool

open Machine (Both both_eq)

/-- An index corresponds to one of the same meaning, or to itself in the same pool; and one
that names no entry corresponds to another such. -/
inductive Corresponds (p : Pool) : Pool → UInt16 → UInt16 → Prop
  | same {q : Pool} {i x : UInt16} (h : p.SameMeaning q i x) : Corresponds p q i x
  | absent {q : Pool} {i x : UInt16} (h : p.get? i = none) (h' : q.get? x = none) :
      Corresponds p q i x
  | refl (i : UInt16) : Corresponds p p i i

variable {p q : Pool} {i x : UInt16}

/-- An index that may be zero corresponds to what it is renumbered to. -/
theorem Corresponds.of_index (hp : p.get? 0 = none) (hq : q.get? 0 = none)
    (h : IndexRenumbered (p.SameMeaning q) i x) : p.Corresponds q i x := by
  rcases h with ⟨rfl, rfl⟩ | ⟨-, h⟩
  · exact .absent hp hq
  · exact .same h

theorem get_absent (h : p.get? i = none) : p.get i = .error (.badIndex (.absent i p.count)) := by
  unfold get
  rw [h]

namespace Corresponds

variable (h : p.Corresponds q i x)

include h

theorem symm : q.Corresponds p x i := by
  cases h with
  | same h =>
    obtain ⟨m, hm, hm'⟩ := h
    exact .same ⟨m, hm', hm⟩
  | absent h h' => exact .absent h' h
  | refl => exact .refl i

theorem standsFor : p.StandsFor q i x := by
  cases h with
  | same h => exact h.standsFor
  | absent h _ =>
    intro op v hv
    exact absurd (isSome_of_poolMeaning hv) (by simp [h])
  | refl => exact .refl p i

theorem stands : p.Stands q i x := ⟨h.standsFor, h.symm.standsFor⟩

/-- Entries that correspond are of one kind, and so does what they refer to. -/
theorem entry : Both (fun c d => d.bare = c.bare ∧
    List.Forall₂ (p.Corresponds q) c.references d.references) (p.get i) (q.get x) := by
  cases h with
  | same h =>
    obtain ⟨m, hm, hm'⟩ := h
    obtain ⟨c, -, hc, -⟩ := means_iff.1 hm
    obtain ⟨d, hd, hbare, hrefs⟩ := SameMeaning.entry ⟨m, hm, hm'⟩ hc
    rw [get_ok.2 hc, get_ok.2 hd]
    exact .ok ⟨hbare, hrefs.imp fun _ _ => .same⟩
  | absent h h' =>
    rw [get_absent h, get_absent h']
    exact .error
  | refl =>
    cases p.get i with
    | error e => exact .error
    | ok c => exact .ok ⟨rfl, List.forall₂_same.2 fun r _ => .refl r⟩

theorem text {s : String} (hs : p.text i = .ok s) : q.text x = .ok s := by
  cases h with
  | same h => exact h.text hs
  | absent h _ =>
    obtain ⟨raw, -, hraw, -⟩ := text_ok.1 hs
    rw [h] at hraw
    cases hraw
  | refl => exact hs

theorem nameAndType {names : String × String} (hn : p.nameAndType i = .ok names) :
    q.nameAndType x = .ok names := by
  cases h with
  | same h => exact h.nameAndType hn
  | absent h _ =>
    unfold Pool.nameAndType at hn
    rw [get_absent h] at hn
    cases hn
  | refl => exact hn

theorem text_both : Both Eq (p.text i) (q.text x) := both_eq fun _ => ⟨h.text, h.symm.text⟩

theorem nameAndType_both : Both Eq (p.nameAndType i) (q.nameAndType x) :=
  both_eq fun _ => ⟨h.nameAndType, h.symm.nameAndType⟩

end Corresponds

end Pool

namespace Machine

open Layout (Word bootstrapWords tableWords BootstrapRenumbered Fits)

variable {p q : Pool} {cf cf' : ClassFile}

/-! ## Bootstrap methods -/

namespace Step

/-- The word behind some bytes. -/
theorem bootstrapWord_append (front : Bytes) (v : UInt16) (back : Bytes) :
    bootstrapWord (front ++ (Bytes.ofU16 v ++ back)) front.length = .ok v := by
  unfold bootstrapWord
  rw [List.drop_left]
  exact congrArg Except.ok (Bytes.toU16_ofU16 v)

/-- The two words that a bootstrap method starts with. -/
theorem bootstrapWord_first (front : Bytes) (b : UInt16 × List UInt16) (back : Bytes) :
    bootstrapWord (front ++ (Word.bytes (bootstrapWords b) ++ back)) front.length = .ok b.1 ∧
      bootstrapWord (front ++ (Word.bytes (bootstrapWords b) ++ back)) (front.length + 2) =
        .ok b.2.length.toUInt16 := by
  unfold bootstrapWords
  rw [Word.bytes_cons, Word.bytes_cons, List.append_assoc, List.append_assoc]
  refine ⟨bootstrapWord_append .., ?_⟩
  rw [← List.append_assoc]
  have hlength : front.length + 2 = (front ++ Bytes.ofU16 (Word.ref b.1).value).length := by
    rw [List.length_append, Bytes.ofU16_length]
  rw [hlength]
  exact bootstrapWord_append ..

theorem toNat_length {args : List UInt16} (h : args.length < 65536) :
    args.length.toUInt16.toNat = args.length := UInt16.toNat_ofNat_of_lt' h

/-- The bytes in front of a bootstrap method. -/
theorem bootstrapPosition_eq {table : List (UInt16 × List UInt16)}
    (hfits : ∀ b ∈ table, b.2.length < 65536) (front : Bytes) {skip : Nat}
    (hskip : skip < table.length) :
    bootstrapPosition (front ++ Word.bytes (table.flatMap bootstrapWords)) skip front.length =
      .ok (front ++ Word.bytes ((table.take skip).flatMap bootstrapWords)).length := by
  induction table generalizing front skip with
  | nil => cases hskip
  | cons b table ih =>
    obtain ⟨hb, hfits⟩ := List.forall_mem_cons.1 hfits
    have hfirst := bootstrapWord_first front b (Word.bytes (table.flatMap bootstrapWords))
    rw [List.flatMap_cons, Word.bytes_append]
    cases skip with
    | zero =>
      unfold bootstrapPosition
      rw [hfirst.1, hfirst.2]
      exact congrArg Except.ok (congrArg List.length (List.append_nil front)).symm
    | succ skip =>
      unfold bootstrapPosition
      rw [hfirst.1, hfirst.2]
      show bootstrapPosition _ skip (front.length + 4 + 2 * b.2.length.toUInt16.toNat) = _
      have hnext : front.length + 4 + 2 * b.2.length.toUInt16.toNat =
          (front ++ Word.bytes (bootstrapWords b)).length := by
        rw [toNat_length hb, List.length_append, Word.length_bytes]
        unfold bootstrapWords
        rw [List.length_cons, List.length_cons, List.length_map]
        omega
      rw [hnext, ← List.append_assoc, ih hfits _ (Nat.lt_of_succ_lt_succ hskip), List.take_succ_cons,
        List.flatMap_cons, Word.bytes_append, List.append_assoc]

/-- The arguments of a bootstrap method. -/
theorem mapM_bootstrapWord (front : Bytes) (args : List UInt16) (back : Bytes) :
    ((List.range args.length).mapM fun k => bootstrapWord
      (front ++ (Word.bytes (args.map .ref) ++ back)) (front.length + 2 * k)) = .ok args := by
  rw [Except.mapM_ok]
  induction args generalizing front with
  | nil => exact .nil
  | cons i args ih =>
    rw [List.length_cons, List.range_succ_eq_map, List.map_cons, Word.bytes_cons, List.append_assoc]
    refine .cons (bootstrapWord_append ..) (List.forall₂_map_left_iff.2 ?_)
    refine (ih (front ++ Bytes.ofU16 i)).imp fun k x hx => ?_
    rw [List.append_assoc, List.length_append, Bytes.ofU16_length] at hx
    rw [← hx]
    congr 1
    omega

theorem mapM_bootstrapWords (front : Bytes) {b : UInt16 × List UInt16} (hb : b.2.length < 65536)
    (back : Bytes) :
    ((List.range b.2.length.toUInt16.toNat).mapM fun k => bootstrapWord
      (front ++ (Word.bytes (bootstrapWords b) ++ back)) (front.length + 4 + 2 * k)) = .ok b.2 := by
  have hlength : front.length + 4 =
      (front ++ (Bytes.ofU16 b.1 ++ Bytes.ofU16 b.2.length.toUInt16)).length := by
    rw [List.length_append]
    rfl
  have hargs := mapM_bootstrapWord
    (front ++ (Bytes.ofU16 b.1 ++ Bytes.ofU16 b.2.length.toUInt16)) b.2 back
  rw [← hlength, List.append_assoc, List.append_assoc] at hargs
  rw [toNat_length hb]
  unfold bootstrapWords
  rw [Word.bytes_cons, Word.bytes_cons, List.append_assoc, List.append_assoc]
  exact hargs

/-- The reference and the arguments of a bootstrap method that stands in a table. -/
def handled (p : Pool) (b : UInt16 × List UInt16) : Except Error (Ref × List UInt16) := do
  match ← p.get b.1 with
  | .methodHandle _ reference => return (← p.ref reference, b.2)
  | c => throw (.badIndex (.notHandle b.1 c.tag))

/-- What stands in a table in front of a bootstrap method, and behind it. -/
theorem bytes_tableWords {table : List (UInt16 × List UInt16)} {k : Nat} (hk : k < table.length) :
    Word.bytes (tableWords table) =
      (Bytes.ofU16 table.length.toUInt16 ++ Word.bytes ((table.take k).flatMap bootstrapWords)) ++
        (Word.bytes (bootstrapWords table[k]) ++
          Word.bytes ((table.drop (k + 1)).flatMap bootstrapWords)) := by
  have hsplit : table.flatMap bootstrapWords = (table.take k).flatMap bootstrapWords ++
      (bootstrapWords table[k] ++ (table.drop (k + 1)).flatMap bootstrapWords) := by
    rw [← List.flatMap_cons, ← List.drop_eq_getElem_cons hk, ← List.flatMap_append,
      List.take_append_drop]
  unfold tableWords
  rw [Word.bytes_cons, hsplit, Word.bytes_append, Word.bytes_append, List.append_assoc]
  rfl

/-- A bootstrap method is looked up in the table. -/
theorem bootstrap_eq {a : Attribute} {table : List (UInt16 × List UInt16)}
    (hfound : Attribute.find? cf.attributes "BootstrapMethods" = some a)
    (hinfo : a.info = Word.bytes (tableWords table)) (hfits : Fits table) (index : UInt16) :
    bootstrap cf index = match table[index.toNat]? with
      | none => .error (.badIndex (.bootstrap index table.length.toUInt16))
      | some b => handled cf.pool b := by
  have hcount : table.length.toUInt16.toNat = table.length := UInt16.toNat_ofNat_of_lt' hfits.1
  have hbytes : Word.bytes (tableWords table) =
      Bytes.ofU16 table.length.toUInt16 ++ Word.bytes (table.flatMap bootstrapWords) := rfl
  have hfirst : bootstrapWord (Word.bytes (tableWords table)) 0 = .ok table.length.toUInt16 :=
    bootstrapWord_append [] _ _
  unfold bootstrap
  rw [hfound]
  dsimp only
  rw [hinfo, hfirst]
  dsimp only [bind, Except.bind]
  by_cases hindex : index.toNat < table.length
  · rw [List.getElem?_eq_getElem hindex, if_neg]
    · have hposition := bootstrapPosition_eq hfits.2 (Bytes.ofU16 table.length.toUInt16) hindex
      rw [← hbytes, Bytes.ofU16_length, List.length_append] at hposition
      have hb := hfits.2 _ (List.getElem_mem hindex)
      have hfront := bytes_tableWords hindex
      rw [← List.length_append] at hposition
      generalize Bytes.ofU16 table.length.toUInt16 ++ _ = front at hposition hfront
      generalize Word.bytes ((table.drop (index.toNat + 1)).flatMap bootstrapWords) = back at hfront
      generalize table[index.toNat] = b at hb hfront ⊢
      have hwords := bootstrapWord_first front b back
      have hargs := mapM_bootstrapWords front hb back
      rw [← hfront] at hwords hargs
      dsimp only [pure, Except.pure]
      rw [hposition]
      dsimp only
      rw [hwords.1, hwords.2]
      dsimp only
      rw [hargs]
      rfl
    · rw [UInt16.le_iff_toNat_le, hcount]
      omega
  · rw [List.getElem?_eq_none (Nat.le_of_not_lt hindex), if_pos]
    · rfl
    · rw [UInt16.le_iff_toNat_le, hcount]
      omega

end Step

/-! ## Copies -/

/-- Bodies of methods in which only indices differ. -/
structure BodyLike (p q : Pool) (b b' : MethodBody) : Prop where
  maxLocals : b'.maxLocals = b.maxLocals
  length : b'.bytecode.length = b.bytecode.length
  handlers : List.Forall₂ (Handler.Like p q) b.handlers b'.handlers
  code : ∀ instructions, Instruction.decodeAll b.bytecode = .ok instructions →
    ∃ instructions', Instruction.decodeAll b'.bytecode = .ok instructions' ∧
      List.Forall₂ (Instruction.Renumbered (p.Corresponds q)) instructions instructions'

/-- Methods that are alike: by name, type and code. -/
structure MethodLike (p q : Pool) (m m' : Member) : Prop where
  name : m'.name q = m.name p
  descriptor : m'.descriptor q = m.descriptor p
  isStatic : m'.isStatic = m.isStatic
  body : Option.Rel (BodyLike p q) m.body? m'.body?

/-- A class and another in which a run finds the same. -/
structure Copies (cf cf' : ClassFile) : Prop where
  name : cf'.name = cf.name
  superName : cf'.superName = cf.superName
  fields : List.Forall₂ (FieldLike cf cf') cf.fields cf'.fields
  methods : List.Forall₂ (MethodLike cf.pool cf'.pool) cf.methods cf'.methods
  bootstrap : ∀ index,
    Both (BootstrapLike cf.pool cf'.pool) (Step.bootstrap cf index) (Step.bootstrap cf' index)

/-- Indices that correspond name call sites that are alike. -/
theorem sitesLike (hbootstrap : ∀ index, Both (BootstrapLike cf.pool cf'.pool)
      (Step.bootstrap cf index) (Step.bootstrap cf' index)) {i x : UInt16}
    (hix : cf.pool.Corresponds cf'.pool i x) : SitesLike cf cf' i x := by
  unfold SitesLike
  have hentry := hix.entry
  generalize cf.pool.get i = a at hentry ⊢
  generalize cf'.pool.get x = b at hentry ⊢
  cases hentry with
  | error => exact .error
  | @ok c d hcd =>
    obtain ⟨hbare, hrefs⟩ := hcd
    refine .ok ?_
    cases c with
    | invokeDynamic m n =>
      cases d with
      | invokeDynamic m' n' =>
        obtain rfl : m' = m := (Constant.invokeDynamic.inj hbare).1
        exact .site (List.forall₂_cons.1 hrefs).1.nameAndType_both (hbootstrap m')
      | _ => cases hbare
    | _ =>
      refine .other (fun m n => Constant.noConfusion) fun m n hd => ?_
      subst hd
      cases hbare

/-! ### A class is a copy of itself -/

theorem BodyLike.refl (p : Pool) (b : MethodBody) : BodyLike p p b b where
  maxLocals := rfl
  length := rfl
  handlers := List.forall₂_same.2 fun _ _ =>
    ⟨rfl, rfl, rfl, Iff.rfl, fun _ => both_refl (fun _ => rfl) _⟩
  code instructions hcode := ⟨instructions, hcode,
    List.forall₂_same.2 fun ins _ => Instruction.Renumbered.refl Pool.Corresponds.refl ins⟩

theorem Copies.refl (cf : ClassFile) : Copies cf cf where
  name := rfl
  superName := rfl
  fields := List.forall₂_same.2 fun _ _ => ⟨rfl, rfl, rfl, fun _ => both_refl (fun _ => rfl) _⟩
  methods := List.forall₂_same.2 fun m _ => ⟨rfl, rfl, rfl, by
    cases m.body? with
    | none => exact .none
    | some b => exact .some (.refl cf.pool b)⟩
  bootstrap index := both_refl (fun b => ⟨rfl, List.forall₂_same.2 fun i _ =>
    (Pool.Corresponds.refl i).stands⟩) _

/-! ### A class that is shrunk -/

section

variable (hp : p.get? 0 = none) (hq : q.get? 0 = none)

include hp hq

theorem text_renumbered {i x : UInt16} (h : IndexRenumbered (p.SameMeaning q) i x) :
    (q.text x).toOption = (p.text i).toOption :=
  (Pool.Corresponds.of_index hp hq h).text_both.toOption_eq

theorem className_renumbered {i x : UInt16} (h : IndexRenumbered (p.SameMeaning q) i x) :
    Both Eq (p.className i) (q.className x) :=
  className_both (Pool.Corresponds.of_index hp hq h).stands

omit hp in
theorem renumbered_zero_iff {i x : UInt16} (h : IndexRenumbered (p.SameMeaning q) i x) :
    x = 0 ↔ i = 0 := by
  rcases h with ⟨hi, hx⟩ | ⟨hi, m, -, hm⟩
  · exact iff_of_true hx hi
  · refine iff_of_false (fun hx => ?_) hi
    obtain ⟨d, -, hd, -⟩ := Pool.means_iff.1 hm
    rw [hx, hq] at hd
    cases hd

theorem Handler.Like.of_renumbered {h h' : Handler}
    (hh : Handler.Renumbered (p.SameMeaning q) h h') : Handler.Like p q h h' :=
  ⟨hh.start, hh.stop, hh.target, renumbered_zero_iff hq hh.catchType,
    fun _ => className_renumbered hp hq hh.catchType⟩

theorem BodyLike.of_renumbered {pool : Pool} {m m' : Member}
    (h : m.Renumbered (p.SameMeaning q) pool m') : Option.Rel (BodyLike p q) m.body? m'.body? := by
  have hfind := Attribute.Renumbered.find? "Code" h.attributes
  unfold Member.body?
  generalize Attribute.find? m.attributes "Code" = found at hfind ⊢
  generalize Attribute.find? m'.attributes "Code" = found' at hfind ⊢
  cases hfind with
  | none => exact .none
  | some ha =>
    cases ha with
    | raw => exact .none
    | code hindex hstack hlocals hcode hhandlers hattributes =>
      obtain ⟨instructions, code', hdecode, hcode', hrenumbered, -⟩ := hcode.instructions
      refine .some ⟨hlocals, hcode.length, hhandlers.imp fun _ _ => Handler.Like.of_renumbered hp hq,
        fun code hdecode' => ⟨code', hcode', ?_⟩⟩
      obtain rfl := Except.ok.inj (hdecode.symm.trans hdecode')
      exact hrenumbered.imp fun _ _ hins => hins.both (fun _ _ _ _ => .same) hins

theorem MethodLike.of_renumbered {pool : Pool} {m m' : Member}
    (h : m.Renumbered (p.SameMeaning q) pool m') : MethodLike p q m m' where
  name := by
    unfold Member.name
    rw [text_renumbered hp hq h.nameIndex]
  descriptor := by
    unfold Member.descriptor
    rw [text_renumbered hp hq h.descriptorIndex]
  isStatic := by
    unfold Member.isStatic
    rw [h.access]
  body := BodyLike.of_renumbered hp hq h

theorem handled_renumbered {b b' : UInt16 × List UInt16}
    (h : BootstrapRenumbered (p.SameMeaning q) b b') :
    Both (BootstrapLike p q) (Step.handled p b) (Step.handled q b') := by
  have hargs : List.Forall₂ (p.Stands q) b.2 b'.2 :=
    h.2.imp fun _ _ hi => (Pool.Corresponds.of_index hp hq hi).stands
  have hentry := (Pool.Corresponds.of_index hp hq h.1).entry
  unfold Step.handled
  generalize p.get b.1 = c at hentry ⊢
  generalize q.get b'.1 = d at hentry ⊢
  cases hentry with
  | error => exact .error
  | @ok c d hcd =>
    obtain ⟨hbare, hrefs⟩ := hcd
    cases c with
    | methodHandle kind r =>
      cases d with
      | methodHandle kind' r' =>
        have href := ref_both (List.forall₂_cons.1 hrefs).1.stands
        dsimp only [bind, Except.bind]
        generalize p.ref r = e at href ⊢
        generalize q.ref r' = e' at href ⊢
        cases href with
        | error => exact .error
        | ok heq => exact .ok ⟨heq.1, hargs⟩
      | _ => cases hbare
    | _ =>
      cases d with
      | methodHandle => cases hbare
      | _ => exact .error

end

section

variable (hp : cf.pool.get? 0 = none) (hq : cf'.pool.get? 0 = none)

include hp hq

theorem FieldLike.of_renumbered {pool : Pool} {m m' : Member}
    (h : m.Renumbered (cf.pool.SameMeaning cf'.pool) pool m') : FieldLike cf cf' m m' := by
  have hlike := MethodLike.of_renumbered hp hq h
  refine ⟨hlike.name, hlike.descriptor, hlike.isStatic, fun _ => ?_⟩
  have hfind := Attribute.Renumbered.find? "ConstantValue" h.attributes
  have hnamed : ∀ a, Attribute.find? m.attributes "ConstantValue" = some a →
      a.name = "ConstantValue" := fun a ha => by simpa using List.find?_some ha
  unfold Emulation.initialValue
  rw [hlike.name, hlike.descriptor]
  generalize Attribute.find? m.attributes "ConstantValue" = found at hfind hnamed ⊢
  generalize Attribute.find? m'.attributes "ConstantValue" = found' at hfind ⊢
  cases hfind with
  | none => exact .ok rfl
  | some ha =>
    have hname := hnamed _ rfl
    cases ha with
    | code => exact .ok rfl
    | raw hindex hinfo =>
      obtain rfl := hname
      obtain ⟨i, x, rfl, rfl, hx⟩ := Layout.constantValue_renumbered hinfo
      have hvalue := value_both (Pool.Corresponds.of_index hp hq hx).stands
      simp only [Bytes.ofU16, Bytes.toU16_ofU16]
      generalize cf.pool.value i = e at hvalue ⊢
      generalize cf'.pool.value x = e' at hvalue ⊢
      cases hvalue with
      | error => exact .error
      | ok heq => exact .ok (congrArg ofLoadable heq)

theorem bootstrap_renumbered {pool : Pool} (h : List.Forall₂
      (Attribute.Renumbered (cf.pool.SameMeaning cf'.pool) pool) cf.attributes cf'.attributes)
    (index : UInt16) : Both (BootstrapLike cf.pool cf'.pool) (Step.bootstrap cf index)
      (Step.bootstrap cf' index) := by
  have hfind := Attribute.Renumbered.find? "BootstrapMethods" h
  cases hfound : Attribute.find? cf.attributes "BootstrapMethods" with
  | none =>
    rw [hfound] at hfind
    cases hfound' : Attribute.find? cf'.attributes "BootstrapMethods" with
    | some a' =>
      rw [hfound'] at hfind
      cases hfind
    | none =>
      unfold Step.bootstrap
      rw [hfound, hfound']
      exact .error
  | some a =>
    have hname : a.name = "BootstrapMethods" := by simpa using List.find?_some hfound
    rw [hfound] at hfind
    cases hfound' : Attribute.find? cf'.attributes "BootstrapMethods" with
    | none =>
      rw [hfound'] at hfind
      cases hfind
    | some a' =>
      rw [hfound'] at hfind
      cases hfind with
      | some ha =>
        cases ha with
        | code =>
          unfold Step.bootstrap
          rw [hfound, hfound']
          exact .error
        | raw hindex hinfo =>
          obtain rfl := hname
          obtain ⟨table, table', hfits, rfl, rfl, htable⟩ := Layout.bootstrapMethods_renumbered hinfo
          rw [Step.bootstrap_eq hfound rfl hfits,
            Step.bootstrap_eq hfound' rfl (hfits.renumbered htable)]
          have hentry := forall₂_getElem? htable index.toNat
          generalize table[index.toNat]? = e at hentry ⊢
          generalize table'[index.toNat]? = e' at hentry ⊢
          cases hentry with
          | none => exact .error
          | some hb => exact handled_renumbered hp hq hb

end

/-- A class in which only indices changed, each to one of the same meaning, is a copy. -/
theorem Copies.of_renumbered (hzero : cf.pool.get? 0 = none) (hzero' : cf'.pool.get? 0 = none)
    (h : cf.Renumbered (cf.pool.SameMeaning cf'.pool) cf') : Copies cf cf' := by
  refine ⟨?_, ?_, h.fields.imp fun _ _ => FieldLike.of_renumbered hzero hzero',
    h.methods.imp fun _ _ => MethodLike.of_renumbered hzero hzero',
    bootstrap_renumbered hzero hzero' h.attributes⟩
  · unfold ClassFile.name
    rw [(className_renumbered hzero hzero' h.thisClass).toOption_eq]
  · unfold ClassFile.superName
    rw [(className_renumbered hzero hzero' h.superClass).toOption_eq]
    simp only [renumbered_zero_iff hzero' h.superClass]

end Machine

end Cleartext
