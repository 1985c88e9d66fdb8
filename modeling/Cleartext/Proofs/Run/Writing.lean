import Cleartext.Proofs.Run.Session

/-!
# Writing rewritten classes

A class can be read when a body in it has no code, or too much, and then it cannot be
written.  So it is a matter of the lengths of its code, nested attributes included
(`codeLengths`), whether a rewritten class can be written.

Rewriting leaves such a length, or it makes one that fits: where there is no instruction
there is no call site, and a commit refuses code that is too long.  `Refit` says this of
one length.  It goes from a commit (`Editor.commit_fits`) through the methods of a class
(`rewriteMethod_refits`, `rewriteMethods_refits`) and through shrinking, which keeps all
lengths (`ClassFile.shrink_codeLengths`), to a class (`rewriteClass_refits`) and to a run.
Nothing is asked of operands on the way.

`Session.encode_rewritten_iff` is the main statement: only code that was not rewritten
keeps a rewritten class from being written, and then the archive ends before it.
-/

namespace Cleartext

/-! ## Lengths of code -/

namespace Attribute

/-- The length of the code of an attribute that has some. -/
def codeLength? (a : Attribute) : Option Nat := a.body?.map (·.bytecode.length)

/-- The lengths of all code in attributes, nested attributes included. -/
def codeLengths (attributes : List Attribute) : List Nat :=
  (insideAll attributes).filterMap codeLength?

@[simp] theorem codeLengths_nil : codeLengths [] = [] := by
  rw [codeLengths, insideAll]
  rfl

@[simp] theorem codeLengths_raw_cons (i : UInt16) (name : String) (info : Bytes)
    (rest : List Attribute) : codeLengths (.raw i name info :: rest) = codeLengths rest := by
  rw [codeLengths, insideAll, inside_raw]
  rfl

@[simp] theorem codeLengths_code_cons (i : UInt16) (name : String) (body : MethodBody)
    (rest : List Attribute) :
    codeLengths (.code i name body :: rest) =
      body.bytecode.length :: (codeLengths body.attributes ++ codeLengths rest) := by
  rw [codeLengths, insideAll, inside_code, List.cons_append, List.filterMap_cons,
    List.filterMap_append]
  rfl

theorem codeLengths_append (first second : List Attribute) :
    codeLengths (first ++ second) = codeLengths first ++ codeLengths second := by
  unfold codeLengths
  rw [insideAll_eq_flatMap, List.flatMap_append, List.filterMap_append, ← insideAll_eq_flatMap,
    ← insideAll_eq_flatMap]

theorem codeLengths_congr {attributes attributes' : List Attribute}
    (h : List.Forall₂ (fun a a' => codeLengths [a'] = codeLengths [a]) attributes attributes') :
    codeLengths attributes' = codeLengths attributes := by
  induction h with
  | nil => rfl
  | @cons a a' rest rest' ha _ ih =>
    calc codeLengths (a' :: rest')
      _ = codeLengths [a'] ++ codeLengths rest' := codeLengths_append [a'] rest'
      _ = codeLengths [a] ++ codeLengths rest := by rw [ha, ih]
      _ = codeLengths (a :: rest) := (codeLengths_append [a] rest).symm

/-- Changing references keeps the lengths of code. -/
theorem Renumbered.codeLengths_eq {R : UInt16 → UInt16 → Prop} {pool : Pool} {a a' : Attribute}
    (h : a.Renumbered R pool a') : codeLengths [a'] = codeLengths [a] := by
  induction a using Attribute.induction generalizing a' with
  | hraw i name info =>
    cases h
    simp
  | hcode i name body ih =>
    cases h with
    | @code _ i' _ _ body' _ _ _ hcode _ hattributes =>
      have hnested : codeLengths body'.attributes = codeLengths body.attributes :=
        codeLengths_congr (((List.forall₂_and_left _ _).2 ⟨ih, hattributes⟩).imp
          fun a a' h => h.1 h.2)
      simp [hcode.length, hnested]

end Attribute

/-- The lengths of all code in a member. -/
def Member.codeLengths (m : Member) : List Nat := Attribute.codeLengths m.attributes

theorem Member.Renumbered.codeLengths_eq {R : UInt16 → UInt16 → Prop} {pool : Pool} {m m' : Member}
    (h : m.Renumbered R pool m') : m'.codeLengths = m.codeLengths :=
  Attribute.codeLengths_congr (h.attributes.imp fun _ _ ha => ha.codeLengths_eq)

namespace ClassFile

/-- The lengths of all code in a class. -/
def codeLengths (cf : ClassFile) : List Nat := cf.allAttributes.filterMap Attribute.codeLength?

theorem codeLengths_eq (cf : ClassFile) :
    cf.codeLengths = cf.fields.flatMap Member.codeLengths ++
      cf.methods.flatMap Member.codeLengths ++ Attribute.codeLengths cf.attributes := by
  rw [codeLengths, allAttributes, List.filterMap_append, List.filterMap_append,
    List.filterMap_flatMap, List.filterMap_flatMap]
  rfl

theorem writable_iff_codeLengths {cf : ClassFile} :
    cf.Writable ↔ ∀ n ∈ cf.codeLengths, 0 < n ∧ n < 65536 := by
  unfold Writable codeLengths Body.Writable
  constructor
  · intro h n hn
    obtain ⟨a, ha, hn⟩ := List.mem_filterMap.1 hn
    obtain ⟨body, hbody, rfl⟩ := Option.map_eq_some_iff.1 hn
    exact h a ha body hbody
  · intro h a ha body hbody
    exact h _ (List.mem_filterMap.2 ⟨a, ha, by rw [Attribute.codeLength?, hbody]; rfl⟩)

/-- A class can be written when the length of all code in it is right. -/
theorem exists_encode_iff {cf : ClassFile} :
    (∃ data, cf.encode = .ok data) ↔ ∀ n ∈ cf.codeLengths, 0 < n ∧ n < 65536 := by
  rw [← writable_iff_codeLengths]
  constructor
  · rintro ⟨data, hdata⟩
    exact (encode_ok.1 hdata).1
  · intro h
    exact ⟨cf.image, encode_ok.2 ⟨h, rfl⟩⟩

/-- A class cannot be written when some code in it is missing, or too long. -/
theorem encode_error_iff {cf : ClassFile} :
    (∃ err, cf.encode = .error err) ↔
      0 ∈ cf.codeLengths ∨ ∃ n ∈ cf.codeLengths, 65536 ≤ n := by
  have hnot : (∃ err, cf.encode = .error err) ↔ ¬ ∃ data, cf.encode = .ok data := by
    cases cf.encode <;> simp
  rw [hnot, exists_encode_iff]
  constructor
  · intro h
    push Not at h
    obtain ⟨n, hn, hlength⟩ := h
    by_cases hzero : n = 0
    · exact .inl (hzero ▸ hn)
    · exact .inr ⟨n, hn, hlength (Nat.pos_of_ne_zero hzero)⟩
  · rintro (hzero | ⟨n, hn, hlength⟩) h
    · exact absurd (h 0 hzero).1 (Nat.lt_irrefl 0)
    · exact absurd (h n hn).2 (Nat.not_lt.2 hlength)

/-- Shrinking keeps the lengths of code. -/
theorem shrink_codeLengths {cf cf' : ClassFile} (h : cf.shrink = .ok cf') :
    cf'.codeLengths = cf.codeLengths := by
  obtain ⟨live, plan, -, -, -, hmoved⟩ := shrink_ok h
  have hmembers {members members' : List Member}
      (h : List.Forall₂ (Member.Renumbered (fun i x => Marked live i ∧ x = plan.move i) cf.pool)
        members members') :
      members'.flatMap Member.codeLengths = members.flatMap Member.codeLengths := by
    induction h with
    | nil => rfl
    | cons hm _ ih => rw [List.flatMap_cons, List.flatMap_cons, hm.codeLengths_eq, ih]
  rw [codeLengths_eq, codeLengths_eq, hmembers hmoved.fields, hmembers hmoved.methods,
    Attribute.codeLengths_congr (hmoved.attributes.imp fun _ _ ha => ha.codeLengths_eq)]

end ClassFile

/-! ## Code that is laid out anew -/

namespace Editor

variable {e e' : Editor} {pool : Pool}

/-- Staging keeps the body and the instructions that are there. -/
theorem stage_keeps {offset : Int} {edit : Staged → Staged}
    (hedit : ∀ s, (edit s).original = s.original) (h : e.stage offset edit = .ok e') :
    e'.body = e.body ∧ e'.instructions = e.instructions := by
  unfold stage at h
  split at h
  · obtain rfl := Except.ok.inj h
    refine ⟨rfl, ?_⟩
    unfold instructions
    rw [List.map_map]
    refine List.map_congr_left fun s _ => ?_
    rw [Function.comp_apply]
    split
    · exact hedit s
    · rfl
  · cases h

/-- Where there is no instruction, nothing is staged. -/
theorem isModified_of_nil (h : e.instructions = []) : e.isModified = false := by
  have hstaged : e.staged = [] := List.map_eq_nil_iff.1 h
  rw [isModified, hstaged]
  rfl

end Editor

/-- A length of code becomes another: the code is left, or there was some and it was laid
out anew. -/
def Refit (n n' : Nat) : Prop := n' = n ∨ 0 < n ∧ 0 < n' ∧ n' < 65536

theorem Refit.all_refl (lengths : List Nat) : List.Forall₂ Refit lengths lengths :=
  List.forall₂_same.2 fun _ _ => .inl rfl

/-- Code that is missing is not laid out anew, and there is some where it is. -/
theorem Refit.zero_mem_iff {lengths lengths' : List Nat} (h : List.Forall₂ Refit lengths lengths') :
    0 ∈ lengths' ↔ 0 ∈ lengths := by
  induction h with
  | nil => rfl
  | @cons n n' lengths lengths' hn _ ih =>
    have hzero : 0 = n' ↔ 0 = n := by
      rcases hn with rfl | ⟨hn, hn', -⟩
      · rfl
      · omega
    rw [List.mem_cons, List.mem_cons, hzero, ih]

/-- Lengths that fit become lengths that fit. -/
theorem Refit.fits {lengths lengths' : List Nat} (h : List.Forall₂ Refit lengths lengths')
    (hfits : ∀ n ∈ lengths, 0 < n ∧ n < 65536) : ∀ n ∈ lengths', 0 < n ∧ n < 65536 := by
  intro n' hn'
  obtain ⟨n, hn, rfl | ⟨-, hn'⟩⟩ := exists_mem_of_forall₂ h hn'
  · exact hfits _ hn
  · exact hn'

theorem Member.refit_setBody {m : Member} {body body' : MethodBody} (hbody : m.body? = some body)
    (h : List.Forall₂ Refit (body.bytecode.length :: Attribute.codeLengths body.attributes)
      (body'.bytecode.length :: Attribute.codeLengths body'.attributes)) :
    List.Forall₂ Refit m.codeLengths (m.setBody body').codeLengths := by
  obtain ⟨before, i, after, hattributes, -, hset⟩ := Member.exists_of_body? hbody
  unfold Member.codeLengths
  rw [hset, hattributes, Attribute.codeLengths_append, Attribute.codeLengths_append,
    Attribute.codeLengths_code_cons, Attribute.codeLengths_code_cons]
  exact List.rel_append (Refit.all_refl _) (List.rel_append h (Refit.all_refl _))

theorem Relocation.codeLengths_eq_nil {r : Relocation} {pool : Pool}
    {attributes attributes' : List Attribute}
    (h : List.Forall₂ (fun a a' => r.attribute_ pool a = .ok a') attributes attributes') :
    Attribute.codeLengths attributes = [] ∧ Attribute.codeLengths attributes' = [] := by
  induction h with
  | nil => simp
  | cons ha _ ih =>
    obtain ⟨i, name, info, info', rfl, rfl⟩ := Relocation.attribute_ok ha
    simpa using ih

/-- A commit leaves the body, or the code of the body fits, and nothing nested in it has
any. -/
theorem Editor.commit_fits {e e' : Editor} {pool : Pool} (h : e.commit pool = .ok e') :
    e'.body = e.body ∨ e.instructions ≠ [] ∧
      (0 < e'.body.bytecode.length ∧ e'.body.bytecode.length < 65536) ∧
      Attribute.codeLengths e.body.attributes = [] ∧
      Attribute.codeLengths e'.body.attributes = [] := by
  unfold commit at h
  split at h
  · obtain rfl := Except.pure_ok.1 h
    exact .inl rfl
  · rename_i hmodified
    obtain ⟨body, hedited, h⟩ := Except.bind_ok.1 h
    obtain rfl := Except.pure_ok.1 h
    obtain ⟨hlength, parts, _, _, attributes, hparts, -, ⟨relocation, hrelocated⟩, rfl⟩ :=
      edited_ok hedited
    obtain ⟨-, -, -, hstop⟩ := NewLayout.laid_of_encode e.newLayout_consecutive hparts
    rw [Nat.zero_add] at hstop
    refine .inr ⟨fun hnil => hmodified (by simp [isModified_of_nil hnil]), hstop ▸ hlength, ?_⟩
    exact Relocation.codeLengths_eq_nil hrelocated

namespace Run

open Archive (Candidate Entry)
open Isolation (Identity)
open Pattern (CallSite)

variable {σ : Type}

/-! ## Rewriting methods -/

/-- Only constants were added to a class. -/
def Work.Keeps (w w' : Work σ) : Prop := w'.cf = { w.cf with pool := w'.cf.pool }

/-- Going on with an editor keeps its body and its instructions. -/
def KeepsBody (ed ed' : Editor) : Prop := ed'.body = ed.body ∧ ed'.instructions = ed.instructions

theorem stageValue_keeps {ed ed' : Editor} {site : CallSite} {index : UInt16}
    (h : stageValue ed site index = .ok ed') : KeepsBody ed ed' := by
  unfold stageValue at h
  split at h
  · obtain ⟨ed₁, hreplace, hdelete⟩ := Except.bind_ok.1 h
    unfold Editor.replace at hreplace
    unfold Editor.delete at hdelete
    obtain ⟨hbody, hinstructions⟩ := Editor.stage_keeps (by intro; rfl) hreplace
    obtain ⟨hbody', hinstructions'⟩ := Editor.stage_keeps (by intro; rfl) hdelete
    exact ⟨hbody'.trans hbody, hinstructions'.trans hinstructions⟩
  · obtain rfl := Except.ok.inj h
    exact ⟨rfl, rfl⟩

section

variable {runner : Runner σ} {lookup : String → Option ClassFile} {caller : Identity}

theorem rewriteSite_keeps (ed : Editor) (site : CallSite) (w : Work σ) :
    w.Keeps (rewriteSite runner lookup caller ed site w).2 ∧
      ∀ ed' isEdited, (rewriteSite runner lookup caller ed site w).1 = .ok (ed', isEdited) →
        KeepsBody ed ed' := by
  have hstep := rewriteSite_steps runner lookup caller ed site w
  generalize rewriteSite runner lookup caller ed site w = answer at hstep ⊢
  have hkeeps {w' : Work σ} {pool : Pool} (hcf : w'.cf = { w.cf with pool }) : w.Keeps w' := by
    unfold Work.Keeps
    rw [hcf]
  cases hstep with
  | left reason hcf _ =>
    refine ⟨hkeeps hcf, fun ed' isEdited h => ?_⟩
    obtain ⟨rfl, -⟩ := Prod.mk.inj (Except.ok.inj h)
    exact ⟨rfl, rfl⟩
  | full _ hcf _ | unstaged _ _ hcf _ => exact ⟨hkeeps hcf, fun _ _ h => by cases h⟩
  | replaced _ hstage hcf _ =>
    refine ⟨hkeeps hcf, fun ed' isEdited h => ?_⟩
    obtain ⟨rfl, -⟩ := Prod.mk.inj (Except.ok.inj h)
    exact stageValue_keeps hstage

theorem rewriteSites_keeps {barriers : List Int} {fuel : Nat} {instructions : List Instruction}
    {ed ed' : Editor} {edits n : Nat} {w w' : Work σ}
    (h : rewriteSites runner lookup caller barriers fuel instructions ed edits w =
      (.ok (ed', n), w')) : w.Keeps w' ∧ KeepsBody ed ed' := by
  induction fuel generalizing instructions ed edits w with
  | zero =>
    obtain ⟨hanswer, rfl⟩ := Prod.mk.inj h
    obtain ⟨rfl, -⟩ := Prod.mk.inj (Except.ok.inj hanswer)
    exact ⟨rfl, rfl, rfl⟩
  | succ fuel ih =>
    unfold rewriteSites at h
    split at h
    · cases h
    · obtain ⟨hanswer, rfl⟩ := Prod.mk.inj h
      obtain ⟨rfl, -⟩ := Prod.mk.inj (Except.ok.inj hanswer)
      exact ⟨rfl, rfl, rfl⟩
    · rename_i found rest _
      obtain ⟨hkeeps, hbody⟩ := @rewriteSite_keeps σ runner lookup caller ed (CallSite.of found) w
      split at h
      · cases h
      · rename_i ed₁ isEdited w₁ hsite
        rw [hsite] at hkeeps hbody
        obtain ⟨hbody₁, hinstructions₁⟩ := hbody ed₁ isEdited rfl
        obtain ⟨hkeeps', hbody', hinstructions'⟩ := ih h
        refine ⟨?_, hbody'.trans hbody₁, hinstructions'.trans hinstructions₁⟩
        unfold Work.Keeps at hkeeps hkeeps' ⊢
        rw [hkeeps', hkeeps]

/-- Rewriting a method leaves the lengths of the code in it, or makes them fit. -/
theorem rewriteMethod_refits {before after : List Member} {m : Member} {body : MethodBody}
    {n : Nat} {w w' : Work σ} (hbody : m.body? = some body)
    (hmethods : w.cf.methods = before ++ m :: after)
    (h : rewriteMethod runner lookup caller before.length body w = (.ok n, w')) :
    ∃ m', w'.cf = { w.cf with pool := w'.cf.pool, methods := before ++ m' :: after } ∧
      List.Forall₂ Refit m.codeLengths m'.codeLengths := by
  unfold rewriteMethod at h
  split at h
  · cases h
  · rename_i ed hnew
    obtain ⟨old, hold, rfl⟩ := Editor.new_ok.1 hnew
    simp only [Editor.instructions_mk] at h
    split at h
    · cases h
    · rename_i w₁ hsites
      obtain ⟨-, rfl⟩ := Prod.mk.inj h
      refine ⟨m, ?_, Refit.all_refl _⟩
      rw [← hmethods]
      exact (rewriteSites_keeps hsites).1
    · rename_i ed₁ edits w₁ _ hsites
      obtain ⟨hkeeps, hbody₁, hinstructions₁⟩ := rewriteSites_keeps hsites
      split at h
      · cases h
      · rename_i ed' hcommit
        obtain ⟨-, rfl⟩ := Prod.mk.inj h
        have hmethods₁ : w₁.cf.methods = before ++ m :: after := by
          rw [hkeeps, ← hmethods]
        refine ⟨m.setBody ed'.body, ?_, ?_⟩
        · simp only [hmethods₁]
          rw [hkeeps]
          simp [List.modify_eq_take_cons_drop]
        · rw [Editor.instructions_mk] at hinstructions₁
          rcases Editor.commit_fits hcommit with hleft | ⟨hinstructions, hlength, hnested, hnested'⟩
          · rw [hleft, hbody₁, Member.setBody_self hbody]
            exact Refit.all_refl _
          · refine Member.refit_setBody hbody ?_
            rw [hbody₁] at hnested
            rw [hnested, hnested']
            refine .cons (.inr ⟨?_, hlength⟩) .nil
            rw [hinstructions₁] at hinstructions
            rw [List.length_pos_iff]
            intro hempty
            rw [hempty] at hold
            exact hinstructions (Except.ok.inj hold).symm

end

section

variable {runner : Runner σ} {lookup : String → Option ClassFile} {c : Candidate}

theorem rewriteMethods_refits {todo : List Member} :
    ∀ {before : List Member} {edits n : Nat} {w w' : Work σ},
    w.cf.methods = before ++ todo →
    rewriteMethods runner lookup c before.length todo edits w = (.ok n, w') →
    ∃ new, w'.cf = { w.cf with pool := w'.cf.pool, methods := before ++ new } ∧
      List.Forall₂ (fun m m' => List.Forall₂ Refit (Member.codeLengths m) (Member.codeLengths m'))
        todo new := by
  induction todo with
  | nil =>
    intro before edits n w w' hmethods h
    obtain ⟨-, rfl⟩ := Prod.mk.inj h
    exact ⟨[], by rw [← hmethods], .nil⟩
  | cons m todo ih =>
    intro before edits n w w' hmethods h
    unfold rewriteMethods at h
    have hlength (m : Member) : (before ++ [m]).length = before.length + 1 := by simp
    split at h
    · rw [← hlength m] at h
      obtain ⟨new, hw', hnew⟩ := ih (by simpa using hmethods) h
      exact ⟨m :: new, by simpa using hw', .cons (Refit.all_refl _) hnew⟩
    · rename_i body hbody
      simp only at h
      split at h
      · cases h
      · rename_i more w₁ hmethod
        obtain ⟨m', hw₁, hm'⟩ := rewriteMethod_refits hbody hmethods hmethod
        rw [← hlength m'] at h
        obtain ⟨new, hw', hnew⟩ := ih (by rw [hw₁]; simp) h
        refine ⟨m' :: new, ?_, .cons hm' hnew⟩
        rw [hw', hw₁]
        simp

/-- A class that was rewritten has code of the lengths that it had, or of lengths that
fit. -/
theorem rewriteClass_refits {kept : σ} {cf : ClassFile} {w : Work σ}
    (h : rewriteClass runner lookup c kept = (.rewritten cf, w)) :
    List.Forall₂ Refit c.cf.codeLengths cf.codeLengths := by
  have hrewritten {n : Nat} {w : Work σ}
      (h : rewriteMethods runner lookup c 0 c.cf.methods 0 { cf := c.cf, kept } = (.ok n, w)) :
      List.Forall₂ Refit c.cf.codeLengths w.cf.codeLengths := by
    obtain ⟨new, hw, hnew⟩ := @rewriteMethods_refits σ runner lookup c c.cf.methods [] 0 n _ w rfl h
    rw [hw, ClassFile.codeLengths_eq, ClassFile.codeLengths_eq]
    exact List.rel_append
      (List.rel_append (Refit.all_refl _) (List.rel_flatMap hnew fun _ _ h => h))
      (Refit.all_refl _)
  unfold rewriteClass at h
  split at h
  · split at h <;> cases h
  · cases h
  · rename_i w₁ _ hmethods
    split at h
    · rename_i cf₁ hshrink
      obtain ⟨hcf, -⟩ := Prod.mk.inj h
      obtain rfl := Verdict.rewritten.inj hcf
      rw [ClassFile.shrink_codeLengths hshrink]
      exact hrewritten hmethods
    · split at h
      · obtain ⟨hcf, -⟩ := Prod.mk.inj h
        obtain rfl := Verdict.rewritten.inj hcf
        exact hrewritten hmethods
      · cases h

end

/-! ## Writing an archive -/

/-- Dealing with a class leaves the lengths of the code in it, or makes them fit. -/
theorem Session.decryptClass_refits {runner : Runner σ} {s s' : Session σ} {c : Candidate}
    (hc : c.modified = false) (h : s.decryptClass runner c = .ok s') :
    ∃ c' results, s.Treats c c' results s' ∧
      List.Forall₂ Refit c.cf.codeLengths c'.cf.codeLengths := by
  obtain ⟨verdict, w, hanswer, ⟨e, -, hfailed⟩ | ⟨s₁, hs₁, htreats⟩⟩ :=
    @Session.decryptClass_cases σ runner s c hc
  · cases h.symm.trans hfailed
  · obtain rfl := Except.ok.inj (hs₁.symm.trans h)
    refine ⟨_, _, htreats, ?_⟩
    cases verdict with
    | rewritten cf => exact rewriteClass_refits hanswer
    | _ => exact Refit.all_refl _

/-- A class that was rewritten comes from one of the archive. -/
theorem Session.exists_parse_of_modified {runner : Runner σ} {entries : List Entry}
    {todo later : List Candidate} {s s' : Session σ}
    (hread : ∀ c ∈ todo ++ later, c.ReadFrom entries)
    (hpositions : ((todo ++ later).map (·.position)).Nodup) (hclasses : s.classes = todo ++ later)
    (hrun : s.decryptClasses runner todo = .ok s') :
    s'.classes.map (·.position) = (todo ++ later).map (·.position) ∧
      ∀ c' ∈ s'.classes, c'.modified = true →
        ∃ e cf, entries[c'.position]? = some e ∧ ClassFile.parse e.data = .ok cf ∧
          List.Forall₂ Refit cf.codeLengths c'.cf.codeLengths := by
  have hstep : ∀ c ∈ todo, ∀ s s' : Session σ, s.decryptClass runner c = .ok s' →
      ∃ c' results, s.Treats c c' results s' ∧ c'.position = c.position ∧
        List.Forall₂ Refit c.cf.codeLengths c'.cf.codeLengths := by
    intro c hc s s' h
    obtain ⟨c', results, htreats, hrefit⟩ :=
      Session.decryptClass_refits (hread c (List.mem_append_left _ hc)).unmodified h
    exact ⟨c', results, htreats, htreats.position, hrefit⟩
  obtain ⟨treated, hcomes, htreated⟩ := @Session.decryptClasses_ok σ runner
    (fun c c' _ => c'.position = c.position ∧
      List.Forall₂ Refit c.cf.codeLengths c'.cf.codeLengths) todo hstep [] later s s' hclasses
      hpositions hrun
  refine ⟨hclasses ▸ hcomes.positions, fun c' hc' hmodified => ?_⟩
  rw [hcomes.classes, List.nil_append] at hc'
  rcases List.mem_append.1 hc' with hc' | hc'
  · obtain ⟨new, hnew, rfl⟩ := List.mem_map.1 hc'
    obtain ⟨c, hc, hposition, hrefit⟩ := exists_mem_of_forall₂ htreated hnew
    have hc := hread c (List.mem_append_left _ hc)
    obtain ⟨e, he, -, hdata⟩ := hc.entry
    exact ⟨e, c.cf, hposition ▸ he, hdata ▸ hc.parsed, hrefit⟩
  · have hunmodified := (hread c' (List.mem_append_right _ hc')).unmodified
    exact absurd (hmodified.symm.trans hunmodified) (by simp)

/-- A rewritten class can be written if it could be before, and what keeps it from being
written is code that was not rewritten: a body without any, or one with too much.  From
such a class on, nothing of the archive is written. -/
theorem Session.encode_rewritten_iff {runner : Runner σ} {entries : List Entry}
    {todo later : List Candidate} {notes : List Archive.LoadNote} {s s' : Session σ}
    (hload : Archive.loadClasses entries false = .ok (todo ++ later, notes))
    (hclasses : s.classes = todo ++ later) (hrun : s.decryptClasses runner todo = .ok s')
    {c' : Candidate} (hc' : c' ∈ s'.classes) (hmodified : c'.modified = true) :
    ∃ e cf, entries[c'.position]? = some e ∧ ClassFile.parse e.data = .ok cf ∧
      (cf.Writable → ∃ data, c'.cf.encode = .ok data ∧
        (Job.outputEntries entries s'.classes)[c'.position]? = some (.ok { e.copied with data })) ∧
      ((∃ err, c'.cf.encode = .error err) ↔
        0 ∈ cf.codeLengths ∨ ∃ n ∈ c'.cf.codeLengths, 65536 ≤ n) ∧
      ((∃ err, c'.cf.encode = .error err) →
        (Archive.packAll (Job.outputEntries entries s'.classes)).2 ≠ none ∧
          (Archive.packAll (Job.outputEntries entries s'.classes)).1.length ≤ c'.position) := by
  obtain ⟨hread, hordered⟩ := Archive.loadClasses_ok hload
  have hpositions := hordered.imp Nat.ne_of_lt
  obtain ⟨hmoved, hfrom⟩ := Session.exists_parse_of_modified hread hpositions hclasses hrun
  obtain ⟨e, cf, he, hparse, hrefit⟩ := hfrom c' hc' hmodified
  have houtput := Job.getElem?_outputEntries_of_modified (hmoved ▸ hpositions) hc' hmodified he
  refine ⟨e, cf, he, hparse, ?_, ?_, ?_⟩
  · intro hwritable
    obtain ⟨data, hdata⟩ := ClassFile.exists_encode_iff.2
      (Refit.fits hrefit (ClassFile.writable_iff_codeLengths.1 hwritable))
    rcases houtput with ⟨data, hencode, houtput⟩ | ⟨err, err', hencode, houtput⟩
    · exact ⟨data, hencode, houtput⟩
    · cases hdata.symm.trans hencode
  · rw [ClassFile.encode_error_iff, Refit.zero_mem_iff hrefit]
  · rintro ⟨err, herr⟩
    rcases houtput with ⟨data, hencode, -⟩ | ⟨-, err', -, houtput⟩
    · cases herr.symm.trans hencode
    · exact (Archive.length_packAll_le houtput).symm

/-! ## Rewriting a class with a method without code -/

/-- What `calling` becomes. -/
def called : MethodBody := ⟨1, 0, [0x12, 8, 0x57, 0xb1], [], []⟩

theorem edit_halfEmpty : (Pool.ofSlots halfEmptySlots).edit (Pool.Edit.stringUnits [65]) =
    (.ok 8, Pool.ofSlots halfEmptySlots) := by
  have hunits : (Pool.ofSlots halfEmptySlots).edit (Pool.Edit.units [65]) =
      (.ok 1, Pool.ofSlots halfEmptySlots) := Pool.add_ofSlots rfl
  rw [Pool.Edit.stringUnits, Pool.edit_bind, hunits]
  exact Pool.add_ofSlots rfl

/-- The editor of `calling`, with nothing staged. -/
def callingEditor : Editor := ⟨calling, callingCode.map fun ins => { original := ins }⟩

/-- The call site of `calling`. -/
def callingMatch : Pattern.Match :=
  Pattern.found (Pattern.templateOf .ldc) callingLoad callingCall [65]
    ⟨.method, "A", "d", Pattern.decryptDescriptor⟩

/-- The edits of `calling` are staged, and laying them out gives `called`. -/
theorem commit_calling :
    ∃ ed ed', stageValue callingEditor (CallSite.of callingMatch) 8 = .ok ed ∧
      ed.commit (Pool.ofSlots halfEmptySlots) = .ok ed' ∧ ed'.body = called :=
  ⟨_, _, rfl, rfl, rfl⟩

/-- A call of a routine of the class itself that is answered is replaced. -/
theorem rewriteSite_answered {σ : Type} {runner : Runner σ} {lookup : String → Option ClassFile}
    {caller : Identity} {ed ed' : Editor} {site : CallSite} {w : Work σ} {value : Units} {kept : σ}
    {index : UInt16} {pool : Pool} (howner : site.cls = caller.cls)
    (hanswer : runner.decrypt w.kept w.cf site.method caller site.literal = (⟨.ok value, []⟩, kept))
    (hedit : w.cf.pool.edit (Pool.Edit.stringUnits value) = (.ok index, pool))
    (hstage : stageValue ed site index = .ok ed') :
    ∃ w', rewriteSite runner lookup caller ed site w = (.ok (ed', true), w') ∧
      w'.cf = { w.cf with pool } ∧
      w'.results = siteResult caller site (.decrypted value.text) :: w.results := by
  unfold rewriteSite
  rw [if_pos howner]
  simp only [hanswer, Work.noting, List.foldl_nil, hedit, hstage]
  exact ⟨_, rfl, rfl, rfl⟩

theorem rewriteMethod_calling (lookup : String → Option ClassFile) (w : Work Unit)
    (hpool : w.cf.pool = Pool.ofSlots halfEmptySlots) :
    ∃ w', rewriteMethod echo lookup ⟨"A", "d", 9⟩ 0 calling w = (.ok 1, w') ∧
      w'.cf = { w.cf with methods := w.cf.methods.modify 0 (·.setBody called) } ∧
      w'.results =
        siteResult ⟨"A", "d", 9⟩ (CallSite.of callingMatch) (.decrypted "A") :: w.results := by
  obtain ⟨ed, ed', hstage, hcommit, hbody⟩ := commit_calling
  have hbarriers : Pattern.barriersOf calling callingCode = [] := rfl
  have hedit : w.cf.pool.edit (Pool.Edit.stringUnits [65]) = (.ok 8, w.cf.pool) := by
    rw [hpool]
    exact edit_halfEmpty
  obtain ⟨w₁, hsite, hw₁, hresults⟩ := @rewriteSite_answered Unit echo lookup ⟨"A", "d", 9⟩
    callingEditor ed (CallSite.of callingMatch) w [65] () 8 _ rfl rfl hedit hstage
  replace hw₁ : w₁.cf = w.cf := hw₁
  have hnext : Pattern.next? w.cf.pool [] Pattern.decryptCalls callingCode =
      .ok (some (callingMatch, callingCode.drop 2)) := by
    rw [hpool]
    rfl
  have hdone :
      Pattern.next? w₁.cf.pool [] Pattern.decryptCalls (callingCode.drop 2) = .ok none := by
    rw [hw₁, hpool]
    rfl
  have hsites : rewriteSites echo lookup ⟨"A", "d", 9⟩ [] 4 callingCode callingEditor 0 w =
      (.ok (ed, 1), w₁) := by
    rw [rewriteSites, hnext]
    simp only [hsite, if_true]
    rw [rewriteSites, hdone]
  have hnew : Editor.new calling = .ok callingEditor := Editor.new_ok.2 ⟨_, decodeAll_calling, rfl⟩
  unfold rewriteMethod
  simp only [hnew, show callingEditor.instructions = callingCode from rfl, hbarriers,
    show callingCode.length = 4 from rfl, hsites]
  rw [hw₁, hpool, hcommit]
  refine ⟨_, rfl, ?_, hresults⟩
  rw [hbody]

/-- The first method of a class is `calling`. -/
theorem rewriteMethods_calling {c : Candidate} {rest : List Member}
    (hcaller : (⟨c.name, Member.name ⟨8, 4, 5, [.code 3 "Code" calling]⟩ c.cf.pool, c.poolCount⟩ :
      Identity) = ⟨"A", "d", 9⟩)
    (lookup : String → Option ClassFile) (w : Work Unit)
    (hpool : w.cf.pool = Pool.ofSlots halfEmptySlots) :
    ∃ w', rewriteMethods echo lookup c 0 (⟨8, 4, 5, [.code 3 "Code" calling]⟩ :: rest) 0 w =
        rewriteMethods echo lookup c 1 rest 1 w' ∧
      w'.cf = { w.cf with methods := w.cf.methods.modify 0 (·.setBody called) } ∧
      w'.results =
        siteResult ⟨"A", "d", 9⟩ (CallSite.of callingMatch) (.decrypted "A") :: w.results := by
  obtain ⟨w', hmethod, hw'⟩ := rewriteMethod_calling lookup w hpool
  refine ⟨w', ?_, hw'⟩
  rw [rewriteMethods]
  simp only [show Member.body? ⟨8, 4, 5, [.code 3 "Code" calling]⟩ = some calling from rfl, hcaller,
    hmethod]

theorem shrink_halfEmpty :
    ∃ e name, (halfEmpty called).shrink = .error e ∧ e.root = .unknownAttribute name :=
  ⟨_, _, rfl, rfl⟩

theorem rewriteClass_halfEmpty (lookup : String → Option ClassFile) :
    ∃ cf w, rewriteClass echo lookup halfEmptyClass () = (.rewritten cf, w) := by
  obtain ⟨w₁, hmethods, hw₁, -⟩ := @rewriteMethods_calling halfEmptyClass
    [⟨8, 1, 5, [.code 3 "Code" ⟨1, 0, [], [], []⟩]⟩] rfl lookup
    { cf := halfEmpty calling, kept := () } rfl
  replace hw₁ : w₁.cf = halfEmpty called := hw₁
  replace hmethods : rewriteMethods echo lookup halfEmptyClass 0 (halfEmpty calling).methods 0
      { cf := halfEmpty calling, kept := () } = (.ok 1, w₁) := hmethods
  obtain ⟨e, name, hshrink, hroot⟩ := shrink_halfEmpty
  unfold rewriteClass
  rw [show halfEmptyClass.cf = halfEmpty calling from rfl, hmethods]
  simp only [hw₁, hshrink, hroot]
  exact ⟨_, _, rfl⟩

/-- Rewriting the class `A`, which has a method without code, leaves nothing of its
archive. -/
theorem Session.encode_rewritten_iff_half_empty :
    Archive.loadClasses halfEmptyEntries false = .ok ([halfEmptyClass], []) ∧
      ∃ (s' : Session Unit) (c' : Candidate),
        Session.decrypt echo { classes := [halfEmptyClass], kept := () } = .ok s' ∧
        c' ∈ s'.classes ∧ c'.modified = true ∧ (∃ err, c'.cf.encode = .error err) ∧
        (Archive.packAll (Job.outputEntries halfEmptyEntries s'.classes)).2 ≠ none ∧
        (Archive.packAll (Job.outputEntries halfEmptyEntries s'.classes)).1 = [] := by
  have hzero : 0 ∈ (halfEmpty calling).codeLengths := by
    simp [ClassFile.codeLengths_eq, halfEmpty, Member.codeLengths]
  obtain ⟨verdict, w, hanswer, hdone⟩ := @Session.decryptClass_cases Unit echo
    { classes := [halfEmptyClass], kept := () } halfEmptyClass rfl
  obtain ⟨cf, w', hrewritten⟩ := rewriteClass_halfEmpty _
  obtain ⟨rfl, rfl⟩ := Prod.mk.inj (hanswer.symm.trans hrewritten)
  rcases hdone with ⟨e, he, -⟩ | ⟨s', hs', htreats⟩
  · cases he
  · have hclasses : s'.classes = [{ halfEmptyClass with cf, modified := true }] :=
      htreats.classes [] [] rfl (by simp)
    have hrun : Session.decryptClasses echo { classes := [halfEmptyClass], kept := () }
        [halfEmptyClass] = .ok s' := Except.bind_ok.2 ⟨s', hs', rfl⟩
    have hc' := List.mem_singleton_self { halfEmptyClass with cf, modified := true }
    rw [← hclasses] at hc'
    obtain ⟨e, cf₀, he, hparse, -, hiff, hlost⟩ := @Session.encode_rewritten_iff Unit echo _
      [halfEmptyClass] [] _ _ s' loadClasses_halfEmpty rfl hrun _ hc' rfl
    obtain rfl := Option.some.inj he
    obtain rfl := Except.ok.inj (parse_halfEmpty.symm.trans hparse)
    have herror := hiff.2 (.inl hzero)
    obtain ⟨hfailure, hlength⟩ := hlost herror
    exact ⟨loadClasses_halfEmpty, s', _, hrun, hc', rfl, herror, hfailure,
      List.length_eq_zero_iff.1 (Nat.le_zero.1 hlength)⟩

end Run

end Cleartext
