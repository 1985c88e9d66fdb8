import Cleartext.Proofs.Isolation.Neutralizing

/-!
# What is left of the checks

Behind the replacement of checks, the code of a method has a push and an append where a check
was, and its other instructions are in the same order as before (`Aligned`).  A template that
matches there does not begin at such an append, and no step of it fits such a push, so it
looks at instructions that stood one behind the other all along
(`Aligned.exists_window`).

What kept it from being replaced was something that led behind its first instruction, and
that is gone.  Jumps stay, and so does a row of the exception table as long as something of
its range is left.  So it was kept by rows that protect nothing but instructions of other
checks, and nothing of those is left (`Freed`).

* `neutralize_settles`: a template matches in the new class only where a check was freed.
  When none was, no check is left, and replacing the checks once more changes nothing.
-/

namespace Cleartext

namespace Isolation

open Pattern

variable {p q : Pool} {caller : Identity} {body body' : MethodBody} {code new : List Instruction}
  {checks : List Check} {t : Template} {i k stop : Nat}

/-! ## Checks that are freed -/

/-- An instruction goes when the check it belongs to is replaced: it is neither the first
one, which becomes the push, nor the append. -/
def Goes (p : Pool) (body : MethodBody) (code : List Instruction) (ins : Instruction) : Prop :=
  ∃ t ∈ protectionTemplates, ∃ i, t.Matches p (some body) code i ∧
    ins ∈ (t.window code i).tail.dropLast

/-- A check is not replaced, because an exception can lead behind its first instruction, but
all instructions in which this exception can arise go with other checks. -/
structure Freed (p : Pool) (body : MethodBody) (code : List Instruction) (t : Template) (i : Nat) :
    Prop where
  looks : t.Matches p none code i
  led : ∃ ins ∈ (t.window code i).tail, Leads body code ins.offset
  unjumped : ∀ ins ∈ (t.window code i).tail, ∀ jump ∈ code, (ins.offset : Int) ∉ jump.targets
  goes : ∀ ins ∈ (t.window code i).tail, ∀ row ∈ body.handlers, row.target.toNat = ins.offset →
    ∀ inside ∈ code, row.start.toNat ≤ inside.offset → inside.offset < row.stop.toNat →
      Goes p body code inside

/-- What is freed was kept by a row of the exception table. -/
theorem Freed.exists_row (h : Freed p body code t i) : ∃ row, row ∈ body.handlers := by
  obtain ⟨ins, hins, ⟨jump, hjump, htarget⟩ | ⟨row, hrow, -⟩⟩ := h.led
  · exact absurd htarget (h.unjumped ins hins jump hjump)
  · exact ⟨row, hrow⟩

/-! ## What the edits of checks leave -/

/-- Items are paired with what others were paired with that are related to them. -/
theorem forall_zip_of_forall₂ {α β : Type} {R : β → β → Prop} {P P' : α → β → Prop} {xs : List α}
    {ys zs : List β} (hrel : List.Forall₂ R ys zs) (h : ∀ pair ∈ xs.zip zs, P pair.1 pair.2)
    (hback : ∀ x ∈ xs, ∀ y z, R y z → P x z → P' x y) : ∀ pair ∈ xs.zip ys, P' pair.1 pair.2 := by
  induction hrel generalizing xs with
  | nil => simp
  | cons hyz _ ih =>
    cases xs with
    | nil => simp
    | cons x xs =>
      rw [List.zip_cons_cons, List.forall_mem_cons] at h ⊢
      rw [List.forall_mem_cons] at hback
      exact ⟨hback.1 _ _ hyz h.1, ih h.2 hback.2⟩

theorem forall₂_tail {α β : Type} {R : α → β → Prop} {xs : List α} {ys : List β}
    (h : List.Forall₂ R xs ys) : List.Forall₂ R xs.tail ys.tail := by
  cases h with
  | nil => exact .nil
  | cons _ hrest => exact hrest

theorem window_subset (t : Template) (code : List Instruction) (i : Nat) : t.window code i ⊆ code :=
  fun _ hins => List.drop_subset _ _ (List.take_subset _ _ hins)

namespace Combed

/-- Every check that was found is one that matches. -/
theorem exists_matches (h : Combed p q body code caller i checks) {c : Check} (hc : c ∈ checks) :
    c.Stands q caller ∧ ∃ j, c.query.template.Matches p (some body) code j ∧
      c.window = c.query.template.window code j := by
  induction h with
  | done => cases hc
  | passed _ _ _ ih => exact ih hc
  | replaced hmatches hwindow hstands _ ih =>
    rcases List.mem_cons.1 hc with rfl | hc
    · exact ⟨hstands, _, hmatches, hwindow⟩
    · exact ih hc

/-- Where no check was found, there is none. -/
theorem not_matches (h : Combed p q body code caller i []) (hk : i ≤ k)
    (ht : t ∈ protectionTemplates) : ¬ t.Matches p (some body) code k := by
  generalize hnil : ([] : List Check) = checks at h
  induction h with
  | @done i hi =>
    intro hmatches
    have hroom := hmatches.room
    have hpos := List.length_pos_iff.2 hmatches.steps
    omega
  | @passed i checks _ hnone _ ih =>
    rcases Nat.lt_or_eq_of_le hk with hlt | rfl
    · exact ih hlt hnil
    · exact hnone t ht
  | replaced => cases hnil

variable (h : Combed p q body code caller i checks)

include h

/-- Instructions that ask are replaced and deleted. -/
theorem staged_cases : ∀ edit ∈ checks.flatMap Check.edits,
    ∃ c ∈ checks, (∃ ins ∈ c.front, (ins.offset : Int) = edit.offset) ∧
      ((∃ o new, edit = .replace o new) ∨ ∃ ins ∈ c.front.tail, edit = .delete ins.offset) := by
  intro edit hedit
  obtain ⟨c, hc, hedit⟩ := List.mem_flatMap.1 hedit
  have hfront : c.front ≠ [] := by
    intro hnil
    have htwo := (h.exists_matches hc).1.asks.two_le
    simp [hnil] at htwo
  refine ⟨c, hc, exists_offset_of_mem_edits hfront hedit, ?_⟩
  rcases List.mem_cons.1 hedit with rfl | hedit
  · exact .inl ⟨_, _, rfl⟩
  · obtain ⟨ins, hins, rfl⟩ := List.mem_map.1 hedit
    exact .inr ⟨ins, hins, rfl⟩

theorem length_planned_le (ins : Instruction) :
    (Edit.planned (checks.flatMap Check.edits) ins).length ≤ 1 := by
  refine Edit.length_planned_le (fun edit hedit => ?_) ins
  obtain ⟨-, -, -, hreplace | ⟨deleted, -, rfl⟩⟩ := h.staged_cases edit hedit
  · exact .inl hreplace
  · exact .inr ⟨_, rfl⟩

/-- What asks does not jump. -/
theorem planned_of_jump (hcode : Consecutive 0 code stop) {ins : Instruction} (hins : ins ∈ code)
    (hjumps : ins.operand.distances ≠ []) :
    Edit.planned (checks.flatMap Check.edits) ins = [ins] := by
  refine Edit.planned_of_ne fun edit hedit hoffset => ?_
  obtain ⟨c, hc, ⟨other, hother, hoffset'⟩, -⟩ := h.staged_cases edit hedit
  obtain ⟨-, j, hmatches, hwindow⟩ := h.exists_matches hc
  have hother : other ∈ c.query.template.window code j := by
    rw [← hwindow, Check.window]
    exact List.mem_append_left _ hother
  obtain ⟨m, hm⟩ := List.getElem?_of_mem hins
  obtain ⟨n, hn⟩ := List.getElem?_of_mem (window_subset _ _ _ hother)
  obtain rfl := Edit.index_unique hcode hm hn (by omega)
  obtain rfl := Option.some.inj (hm.symm.trans hn)
  obtain ⟨s, hs, hfits⟩ := hmatches.exists_fits hother
  exact hjumps ((checkStep_of_mem c.query s hs).distances_eq_nil hfits)

/-- An instruction of which nothing is left goes with its check. -/
theorem goes (hcode : Consecutive 0 code stop) {ins : Instruction} (hins : ins ∈ code)
    (hplanned : Edit.planned (checks.flatMap Check.edits) ins = []) : Goes p body code ins := by
  by_contra hstays
  refine Edit.planned_ne_nil (fun edit hedit => ?_) hplanned
  rintro rfl
  obtain ⟨c, hc, -, ⟨o, new, hedit⟩ | ⟨deleted, hdeleted, hedit⟩⟩ := h.staged_cases _ hedit
  · cases hedit
  obtain ⟨-, j, hmatches, hwindow⟩ := h.exists_matches hc
  have hinner : deleted ∈ (c.query.template.window code j).tail.dropLast := by
    obtain ⟨first, more, hfront⟩ : ∃ first more, c.front = first :: more :=
      List.exists_cons_of_ne_nil (by rintro hnil; simp [hnil] at hdeleted)
    rw [hfront, List.tail_cons] at hdeleted
    rw [← hwindow, Check.window, hfront, List.cons_append, List.tail_cons, List.dropLast_concat]
    exact hdeleted
  obtain ⟨m, hm⟩ := List.getElem?_of_mem hins
  obtain ⟨n, hn⟩ := List.getElem?_of_mem
    (window_subset _ _ _ (List.mem_of_mem_tail (List.dropLast_subset _ hinner)))
  obtain rfl := Edit.index_unique hcode hm hn (by simpa [Edit.delete.injEq] using hedit)
  obtain rfl := Option.some.inj (hm.symm.trans hn)
  exact hstays ⟨_, template_mem_protectionTemplates c.query, j, hmatches, hinner⟩

end Combed

/-! ## The new code -/

/-- Code behind the replacement of checks, from an old position on: an instruction of the old
code, somewhere at which no template matched, or the push and the append of a check.  Where
`Kept` relates the place of an old instruction to what it has become. -/
inductive Aligned (p : Pool) (body : MethodBody) (code : List Instruction)
    (Kept : Nat → Instruction → Prop) : Nat → List Instruction → Prop
  | done {i : Nat} : code.length ≤ i → Aligned p body code Kept i []
  | passed {i : Nat} {ins ins' : Instruction} {new : List Instruction} :
      code[i]? = some ins → (∀ t ∈ protectionTemplates, ¬ t.Matches p (some body) code i) →
      ins'.unplaced = ins.unplaced → Kept ins.offset ins' →
      Aligned p body code Kept (i + 1) new → Aligned p body code Kept i (ins' :: new)
  | replaced {i j : Nat} {push append ins : Instruction} {new : List Instruction} :
      push.op.code ≤ Opcode.ldcW.code → ins ∈ code → ins.op = .invokevirtual →
      append.unplaced = ins.unplaced → Aligned p body code Kept j new →
      Aligned p body code Kept i (push :: append :: new)

section

variable {Kept : Nat → Instruction → Prop}

/-- What is laid out for the checks of some code is aligned with it. -/
theorem Combed.aligned (h : Combed p q body code caller i checks) {start : Nat}
    (hcode : Consecutive start (code.drop i) stop) (hvalid : ∀ ins ∈ code, ins.Valid)
    (hplan : List.Forall₂ (fun entry ins' => ins'.unplaced = entry.2.lengthened.unplaced ∧
      Kept entry.1 ins') (Edit.plan (checks.flatMap Check.edits) (code.drop i)) new) :
    Aligned p body code Kept i new := by
  induction h generalizing start new with
  | done hi =>
    rw [List.drop_eq_nil_of_le hi] at hplan
    cases hplan
    exact .done hi
  | @passed i checks hi hnone hrest ih =>
    have hvalid' := hvalid _ (List.getElem_mem hi)
    rw [List.drop_eq_getElem_cons hi] at hcode hplan
    rw [Run.plan_passed hcode hrest.swept.exists_offset] at hplan
    obtain ⟨ins', new, ⟨hsame, hkept⟩, hnew, rfl⟩ := List.forall₂_cons_left_iff.1 hplan
    rw [Instruction.lengthened_eq_of_valid hvalid'] at hsame
    exact .passed (List.getElem?_eq_getElem hi) hnone hsame hkept (ih hcode.2 hnew)
  | @replaced i c checks hmatches hwindow hstands hrest ih =>
    have hfront : c.front ≠ [] := by
      intro hnil
      have htwo := hstands.asks.two_le
      simp [hnil] at htwo
    have happend : c.append ∈ code := by
      refine window_subset c.query.template code i ?_
      rw [← hwindow]
      exact List.mem_append_right _ List.mem_cons_self
    rw [drop_eq_window c.query.template, ← hwindow] at hcode hplan
    obtain ⟨middle, -, hbehind⟩ := consecutive_append.1 hcode
    have hchecks := @plan_check c [] _ _ _ _ hfront hcode hrest.swept.exists_offset
    rw [List.nil_append] at hchecks
    rw [List.flatMap_cons, hchecks, List.map_nil, List.nil_append] at hplan
    obtain ⟨push, rest, ⟨hpush, -⟩, hplan', rfl⟩ := List.forall₂_cons_left_iff.1 hplan
    obtain ⟨append, new, ⟨hsame, -⟩, hnew, rfl⟩ := List.forall₂_cons_left_iff.1 hplan'
    rw [Instruction.lengthened_eq_of_valid hstands.valid] at hpush
    rw [Instruction.lengthened_eq_of_valid (hvalid _ happend)] at hsame
    refine .replaced ?_ happend hstands.appends.1 hsame (ih hbehind hnew)
    rw [Instruction.op_of_unplaced hpush]
    exact hstands.captures.code_le

/-- From every position on, the new code is aligned, or it starts with an append. -/
theorem Aligned.drop (h : Aligned p body code Kept i new) (k : Nat) :
    (∃ j, Aligned p body code Kept j (new.drop k)) ∨
      ∃ append rest, new.drop k = append :: rest ∧ append.op = .invokevirtual := by
  induction h generalizing k with
  | done hi => exact .inl ⟨_, by rw [List.drop_nil]; exact .done hi⟩
  | passed hget hnone hsame hkept hrest ih =>
    cases k with
    | zero => exact .inl ⟨_, .passed hget hnone hsame hkept hrest⟩
    | succ k => exact ih k
  | replaced hpush hins hop hsame hrest ih =>
    match k with
    | 0 => exact .inl ⟨0, .replaced hpush hins hop hsame hrest⟩
    | 1 => exact .inr ⟨_, _, rfl, (Instruction.op_of_unplaced hsame).trans hop⟩
    | k + 2 => exact ih k

/-- What fits steps of a template in the new code stood in a row in the old code. -/
theorem Aligned.exists_window (h : Aligned p body code Kept i new) {steps : List Step}
    (hsteps : ∀ s ∈ steps, CheckStep s) (hpaired : Paired steps) (hlength : steps.length ≤ new.length)
    (hfits : ∀ pair ∈ steps.zip (new.take steps.length), pair.1.Fits q pair.2) :
    List.Forall₂ (fun ins ins' => ins'.unplaced = ins.unplaced ∧ Kept ins.offset ins')
      ((code.drop i).take steps.length) (new.take steps.length) := by
  induction steps generalizing i new with
  | nil => simp
  | cons s steps ih =>
    rw [List.forall_mem_cons] at hsteps
    cases h with
    | done => simp at hlength
    | @passed _ ins ins' new hget hnone hsame hkept hrest =>
      obtain ⟨hi, rfl⟩ := List.getElem?_eq_some_iff.1 hget
      rw [List.length_cons, List.take_succ_cons] at hfits ⊢
      rw [List.zip_cons_cons, List.forall_mem_cons] at hfits
      rw [List.drop_eq_getElem_cons hi, List.take_succ_cons]
      exact .cons ⟨hsame, hkept⟩
        (ih hrest hsteps.2 hpaired.2 (by simpa using hlength) hfits.2)
    | @replaced _ _ push append ins new hpush hins hop hsame hrest =>
      -- Only the step for the number fits the push, and the step behind it is for no append.
      rw [List.length_cons, List.take_succ_cons, List.zip_cons_cons, List.forall_mem_cons] at hfits
      have hhead := hpaired.1 (hsteps.1.family_of_push hfits.1 hpush)
      cases steps with
      | nil => cases hhead
      | cons s' steps =>
        have hfits' := hfits.2 (s', append) (by simp)
        have haccepts := hfits'.1
        rw [show s'.family = .exactly .aaload from Option.some.inj hhead] at haccepts
        have happend : append.op = .invokevirtual := (Instruction.op_of_unplaced hsame).trans hop
        rw [Family.accepts, decide_eq_true_eq, happend] at haccepts
        cases haccepts

/-- Where a template matches in the new code, its instructions stood in a row at a position
of the old code at which no template matched. -/
theorem Aligned.exists_of_matches (h : Aligned p body code Kept 0 new) (hwidens : p.Widens q)
    (hclosed : p.Closed) (ht : t ∈ protectionTemplates) {body? : Option MethodBody}
    (hmatches : t.Matches q body? new k) :
    ∃ i, t.Matches p none code i ∧ ¬ t.Matches p (some body) code i ∧
      List.Forall₂ (fun ins ins' => ins'.unplaced = ins.unplaced ∧ Kept ins.offset ins')
        (t.window code i) (t.window new k) := by
  have hsteps := checkStep_of_protection ht
  have hunbound : ∀ s ∈ t.steps, s.demand.Unbound := fun s hs => (hsteps s hs).unbound
  obtain ⟨first, steps, hfirst, hfamily⟩ := head_of_protection ht
  have hroom := hmatches.room
  have hlength : t.steps.length ≤ (new.drop k).length := by
    rw [List.length_drop]
    omega
  have hfits : ∀ pair ∈ t.steps.zip ((new.drop k).take t.steps.length), pair.1.Fits q pair.2 :=
    hmatches.fits
  rcases h.drop k with ⟨i, haligned⟩ | ⟨append, rest, hdrop, hop⟩
  · have hwindow := haligned.exists_window hsteps (paired_of_protection ht) hlength hfits
    have hsame : (t.window code i).length = t.steps.length :=
      hwindow.length_eq.trans hmatches.length_window
    refine ⟨i, ?_, ?_, hwindow⟩
    · have hpos := List.length_pos_iff.2 hmatches.steps
      rw [Template.window, List.length_take, List.length_drop] at hsame
      refine (Template.matches_iff_of_unbound hunbound).2 ⟨hmatches.steps, by omega, ?_,
        fun _ _ _ hbody => absurd hbody (Option.not_mem_none _)⟩
      exact forall_zip_of_forall₂ hwindow hfits fun s hs ins ins' hstayed =>
        ((hsteps s hs).fits_iff hwidens hclosed hstayed.1).1
    · rw [hfirst] at hfits hlength
      generalize new.drop k = rest at haligned hfits hlength
      cases haligned with
      | done => simp at hlength
      | passed _ hnone => exact hnone t ht
      | replaced hpush =>
        have hpushed := (hsteps first (by simp [hfirst])).family_of_push
          (hfits (first, _) (by simp)) hpush
        rw [hpushed] at hfamily
        rcases hfamily with hfamily | hfamily <;> cases hfamily
  · rw [hfirst, hdrop] at hfits
    have haccepts := (hfits (first, append) (by simp)).1
    rcases hfamily with hfamily | hfamily <;> rw [hfamily, Family.accepts, hop] at haccepts <;>
      exact absurd haccepts (by decide)

end

/-! ## The methods of the new class -/

section

variable {m m' : Member}

/-- Where a template matches in the code of a method, a check was freed in what the method
was before. -/
def OnlyFreed (p q : Pool) (m m' : Member) : Prop :=
  ∀ body', m'.body? = some body' → ∃ body code new, m.body? = some body ∧
    Instruction.decodeAll body.bytecode = .ok code ∧
    Instruction.decodeAll body'.bytecode = .ok new ∧
    ∀ t ∈ protectionTemplates, ∀ k, t.Matches q (some body') new k → ∃ i, Freed p body code t i

/-- The instructions of what is laid out for checks, and what still leads to them. -/
theorem Combed.aligned_of_rewritten (h : Combed p q body code caller 0 checks)
    (hcode : Instruction.decodeAll body.bytecode = .ok code)
    (hrewritten : Edit.Rewritten (checks.flatMap Check.edits) code body new body') :
    Aligned p body code (fun place ins' =>
      Edit.StillLeads (checks.flatMap Check.edits) body code place →
        (ins'.offset : Int) ∈ barriersOf body' new) 0 new := by
  have htiles := Instruction.decodeAll_ok.1 hcode
  have hconsecutive := htiles.consecutive
  rw [Nat.zero_add] at hconsecutive
  have hplan := hrewritten.leads_of_plan hconsecutive (fun ins _ => h.length_planned_le ins)
    fun ins => h.planned_of_jump hconsecutive
  rw [← List.drop_zero (l := code)] at hconsecutive hplan
  exact h.aligned hconsecutive htiles.valid hplan

theorem Treated.onlyFreed (h : Treated p q caller m m' checks) (hwidens : p.Widens q)
    (hclosed : p.Closed) : OnlyFreed p q m m' := by
  intro body₁ hbody₁
  cases h with
  | bodiless hnone => cases hnone.symm.trans hbody₁
  | @kept body code hbody hcode hcombed =>
    obtain rfl := Option.some.inj ((Member.body?_setBody hbody body).symm.trans hbody₁)
    refine ⟨body, code, code, hbody, hcode, hcode, fun t ht k hmatches => ?_⟩
    exact absurd ((matches_iff_of_widens ht hwidens hclosed).1 hmatches)
      (hcombed.not_matches (Nat.zero_le k) ht)
  | @rewritten body body' code new checks hbody hcode hcombed hrewritten =>
    obtain rfl := Option.some.inj ((Member.body?_setBody hbody body').symm.trans hbody₁)
    refine ⟨body, code, new, hbody, hcode, hrewritten.decoded, fun t ht k hmatches => ?_⟩
    have hunbound : ∀ s ∈ t.steps, s.demand.Unbound :=
      fun s hs => (checkStep_of_protection ht s hs).unbound
    have haligned := hcombed.aligned_of_rewritten hcode hrewritten
    obtain ⟨i, hlooks, hkept, hwindow⟩ := haligned.exists_of_matches hwidens hclosed ht hmatches
    have hconsecutive := (Instruction.decodeAll_ok.1 hcode).consecutive
    have hfree : ∀ ins ∈ (t.window code i).tail,
        ¬ Edit.StillLeads (checks.flatMap Check.edits) body code ins.offset := by
      intro ins hins hstill
      obtain ⟨j, hj⟩ := List.getElem?_of_mem hins
      obtain ⟨ins', hins', -, hled⟩ := exists_getElem?_of_forall₂ (forall₂_tail hwindow) hj
      have hbarrier : (ins'.offset : Int) ∈ barriersIn (some body') new := hled hstill
      obtain ⟨b, hb, hleads⟩ := mem_barriersIn.1 hbarrier
      exact hmatches.guarded ins' (List.mem_of_getElem? hins') b hb hleads
    refine ⟨i, hlooks, ?_, fun ins hins jump hjump htarget => ?_,
      fun ins hins row hrow htarget inside hinside hfrom hto => ?_⟩
    · by_contra hled
      refine hkept ((Template.matches_iff_of_unbound hunbound).2
        ⟨hlooks.steps, hlooks.room, hlooks.fits, fun ins hins b hb hleads => ?_⟩)
      obtain rfl := Option.some.inj hb
      exact hled ⟨ins, hins, hleads⟩
    · exact hfree ins hins (.inl ⟨jump, hjump, htarget⟩)
    · by_contra hstays
      refine hfree ins hins (.inr ⟨row, hrow, htarget, inside, hinside, hfrom, hto, fun hnil => ?_⟩)
      exact hstays (hcombed.goes hconsecutive hinside hnil)

/-! ### Members that are named -/

/-- Where an instruction looks for a member, there is one. -/
def FindsMember (p : Pool) (ins : Instruction) : Prop :=
  looksForMember ins.op = true →
    ∃ kind owner nameAndType, p.get? ins.operand.index = some (.member kind owner nameAndType)

/-- Where the instructions of a method look for members, there are some. -/
def FindsMembers (p : Pool) (m : Member) : Prop :=
  ∀ body code, m.body? = some body → Instruction.decodeAll body.bytecode = .ok code →
    ∀ ins ∈ code, FindsMember p ins

theorem FindsMember.namesMember {ins ins' : Instruction} (h : FindsMember p ins)
    (hextends : p.Extends q) (hsame : ins'.unplaced = ins.unplaced) : NamesMember q ins' := by
  intro hlooks c hc
  rw [Instruction.op_of_unplaced hsame] at hlooks
  rw [Instruction.index_of_unplaced hsame] at hc
  obtain ⟨kind, owner, nameAndType, hget⟩ := h hlooks
  exact ⟨kind, owner, nameAndType, Option.some.inj (hc.symm.trans (hextends _ _ hget))⟩

/-- A push does not look for a member. -/
theorem namesMember_of_code_le {ins : Instruction} (h : ins.op.code ≤ Opcode.ldcW.code) :
    NamesMember q ins := by
  have hcodes : ∀ n ≤ Opcode.ldcW.code.toNat, looksForMember ⟨UInt8.ofNat n⟩ = false := by decide
  have hlooks := hcodes ins.op.code.toNat (UInt8.le_iff_toNat_le.1 h)
  rw [UInt8.ofNat_toNat] at hlooks
  intro hlooks'
  rw [hlooks] at hlooks'
  cases hlooks'

theorem Aligned.namesMembers {Kept : Nat → Instruction → Prop}
    (h : Aligned p body code Kept i new) (hextends : p.Extends q)
    (hfinds : ∀ ins ∈ code, FindsMember p ins) : NamesMembers q new := by
  induction h with
  | done => exact fun ins hins => by cases hins
  | passed hget _ hsame _ _ ih =>
    have hins := List.mem_of_getElem? hget
    exact List.forall_mem_cons.2 ⟨(hfinds _ hins).namesMember hextends hsame, ih⟩
  | replaced hpush hins _ hsame _ ih =>
    exact List.forall_mem_cons.2 ⟨namesMember_of_code_le hpush,
      List.forall_mem_cons.2 ⟨(hfinds _ hins).namesMember hextends hsame, ih⟩⟩

/-- The new code of a method names members where the old one finds them. -/
theorem Treated.namesMembers (h : Treated p q caller m m' checks) (hwidens : p.Widens q)
    (hfinds : FindsMembers p m) {code' : List Instruction} (hbody : m'.body? = some body')
    (hcode : Instruction.decodeAll body'.bytecode = .ok code') : NamesMembers q code' := by
  cases h with
  | bodiless hnone => cases hnone.symm.trans hbody
  | @kept body₁ code hold hdecoded =>
    obtain rfl := Option.some.inj ((Member.body?_setBody hold body₁).symm.trans hbody)
    obtain rfl := Except.ok.inj (hdecoded.symm.trans hcode)
    exact fun ins hins => (hfinds _ _ hold hdecoded ins hins).namesMember hwidens.extends_ rfl
  | @rewritten body₁ body₂ _ _ _ hold hdecoded hcombed hrewritten =>
    obtain rfl := Option.some.inj ((Member.body?_setBody hold body₂).symm.trans hbody)
    obtain rfl := Except.ok.inj (hrewritten.decoded.symm.trans hcode)
    exact (hcombed.aligned_of_rewritten hdecoded hrewritten).namesMembers hwidens.extends_
      (hfinds _ _ hold hdecoded)

/-! ### Replacing checks once more -/

/-- A search of the code of a method comes upon no check. -/
def Settled (p : Pool) (m : Member) : Prop :=
  ∀ body, m.body? = some body → ∃ code, Instruction.decodeAll body.bytecode = .ok code ∧
    next? p (barriersOf body code) protectionTemplates code = .ok none

theorem stageChecks_of_none {s : Neutralized} {method : String} {barriers : List Int} {ed : Editor}
    (hnext : next? s.cf.pool barriers protectionTemplates code = .ok none) (fuel : Nat) :
    (stageChecks caller method barriers fuel code ed).run.run s = (.ok ed, s) := by
  cases fuel with
  | zero => rfl
  | succ fuel => rw [stageChecks_succ, hnext]

theorem modify_of_same {methods : List Member} {position : Nat} {f : Member → Member}
    (hm : methods[position]? = some m) (hf : f m = m) : methods.modify position f = methods := by
  refine List.ext_getElem? fun j => ?_
  rw [List.getElem?_modify]
  split
  · rename_i hj
    rw [← hj, hm]
    exact congrArg some hf
  · exact Option.map_id_apply

/-- A method in which no check is found is left as it is. -/
theorem neutralizeMethod_settled {s : Neutralized} {position : Nat}
    (hm : s.cf.methods[position]? = some m) (h : Settled s.cf.pool m) :
    (neutralizeMethod caller position m).run.run s = (.ok (), s) := by
  cases hbody : m.body? with
  | none =>
    unfold neutralizeMethod
    rw [hbody]
    rfl
  | some body =>
    obtain ⟨code, hcode, hnext⟩ := h body hbody
    have hnew := Editor.new_ok.2 ⟨code, hcode, rfl⟩
    have hcommit : Editor.commit ⟨body, code.map fun ins => { original := ins }⟩ s.cf.pool =
        .ok ⟨body, code.map fun ins => { original := ins }⟩ := by
      unfold Editor.commit
      rw [if_pos (by simp [Editor.isModified, Staged.isEdited])]
      rfl
    rw [neutralizeMethod_body hbody, hnew]
    dsimp only
    rw [Editor.instructions_mk, stageChecks_of_none hnext]
    dsimp only
    rw [hcommit]
    dsimp only
    rw [modify_of_same hm (Member.setBody_self hbody)]

theorem neutralizeMethods_settled {s : Neutralized} {front methods : List Member}
    (hmethods : s.cf.methods = front ++ methods) (h : ∀ m ∈ methods, Settled s.cf.pool m) :
    (neutralizeMethods caller front.length methods).run.run s = (.ok (), s) := by
  induction methods generalizing front with
  | nil => rfl
  | cons m rest ih =>
    rw [List.forall_mem_cons] at h
    have hm : s.cf.methods[front.length]? = some m := by
      rw [hmethods]
      simp
    rw [neutralizeMethods, run_bind, neutralizeMethod_settled hm h.1]
    have hrest := @ih (front ++ [m]) (by rw [hmethods]; simp) h.2
    rwa [List.length_append] at hrest

end

/-- A class whose methods are settled is left as it is. -/
theorem neutralize_settled {cf : ClassFile} (h : ∀ m ∈ cf.methods, Settled cf.pool m)
    (caller : Identity) : neutralize cf caller = (none, ⟨[], cf⟩) := by
  have hrun := @neutralizeMethods_settled caller ⟨[], cf⟩ [] cf.methods rfl h
  rw [List.length_nil] at hrun
  unfold neutralize
  rw [hrun]

/-- When there was no failure, all methods were combed. -/
theorem treated_of_neutralize {cf : ClassFile} {out : Neutralized} (hpool : cf.pool.Coherent)
    (h : neutralize cf caller = (none, out)) : cf.pool.Widens out.cf.pool ∧
      List.Forall₂ (fun m m' => ∃ checks, Treated cf.pool out.cf.pool caller m m' checks)
        cf.methods out.cf.methods := by
  have hall := @clearedAll_neutralizeMethods cf.pool caller ⟨[], cf⟩ [] cf.methods (.refl hpool)
    hpool.closed rfl
  unfold neutralize at h
  rw [List.length_nil] at hall
  generalize (neutralizeMethods caller 0 cf.methods).run.run ⟨[], cf⟩ = result at h hall
  obtain ⟨rfl, hok⟩ : out = result.2 ∧ result.1 = .ok () := by
    obtain ⟨_ | _, s⟩ := result <;> obtain ⟨hanswer, rfl⟩ := Prod.mk.inj h
    · cases hanswer
    · exact ⟨rfl, rfl⟩
  obtain ⟨cleared, -, -, hmethods, hcleared, -⟩ := hall.cleared
  refine ⟨hall.widens, ?_⟩
  rw [hmethods, List.nil_append, List.forall₂_map_right_iff]
  exact hcleared.imp fun m new hm => ⟨new.2, hm.2 hok⟩

/-- No check of a class is freed when the others are replaced. -/
def NoneFreed (cf : ClassFile) : Prop :=
  ∀ m ∈ cf.methods, ∀ body code, m.body? = some body →
    Instruction.decodeAll body.bytecode = .ok code →
    ∀ t ∈ protectionTemplates, ∀ i, ¬ Freed cf.pool body code t i

/-- When the checks of a class were replaced without a failure, a template matches in the code
of a new method only where a check was freed in the old one.  When none was, a scan comes upon
no check, and if the instructions of the class find the members that they look for, replacing
the checks once more, for whatever caller, leaves the class as it is.

What leads behind the first instruction of a check that is freed is a row of the exception
table, and it goes with the instructions that it protects. -/
theorem neutralize_settles {cf : ClassFile} {caller : Identity} {out : Neutralized}
    (hpool : cf.pool.Coherent) (h : neutralize cf caller = (none, out)) :
    List.Forall₂ (OnlyFreed cf.pool out.cf.pool) cf.methods out.cf.methods ∧
      (NoneFreed cf →
        (∀ m ∈ out.cf.methods, ∀ body code, m.body? = some body →
          Instruction.decodeAll body.bytecode = .ok code → ∀ found, Except.ok found ∉
            scan out.cf.pool (barriersOf body code) protectionTemplates code) ∧
        ((∀ m ∈ cf.methods, FindsMembers cf.pool m) →
          (∀ m ∈ out.cf.methods, ∀ body code, m.body? = some body →
            Instruction.decodeAll body.bytecode = .ok code →
              scan out.cf.pool (barriersOf body code) protectionTemplates code = []) ∧
          ∀ caller', neutralize out.cf caller' = (none, ⟨[], out.cf⟩))) := by
  obtain ⟨hwidens, htreated⟩ := treated_of_neutralize hpool h
  have honly := htreated.imp fun m m' ⟨checks, hm⟩ => hm.onlyFreed hwidens hpool.closed
  refine ⟨honly, fun hnone => ?_⟩
  have hno (m') (hm' : m' ∈ out.cf.methods) (body) (code) (hbody : m'.body? = some body)
      (hcode : Instruction.decodeAll body.bytecode = .ok code) :
      ∀ t ∈ protectionTemplates, ∀ k, ¬ t.Matches out.cf.pool (some body) code k := by
    intro t ht k hmatches
    obtain ⟨m, hm, hfreed⟩ := exists_mem_of_forall₂ honly hm'
    obtain ⟨old, oldCode, new, hold, holdCode, hnew, hfreed⟩ := hfreed body hbody
    obtain rfl := Except.ok.inj (hcode.symm.trans hnew)
    obtain ⟨i, hi⟩ := hfreed t ht k hmatches
    exact hnone m hm old oldCode hold holdCode t ht i hi
  refine ⟨fun m' hm' body code hbody hcode found hfound => ?_, fun hfinds => ?_⟩
  · rcases next?_of_not_matches (hno m' hm' body code hbody hcode) with hnext | ⟨hnext, -⟩
    · rw [← barriersIn_some, scan_of_none hnext] at hfound
      cases hfound
    · rw [← barriersIn_some, scan_of_error hnext] at hfound
      cases List.mem_singleton.1 hfound
  · have hnext (m') (hm' : m' ∈ out.cf.methods) (body) (code) (hbody : m'.body? = some body)
        (hcode : Instruction.decodeAll body.bytecode = .ok code) :
        next? out.cf.pool (barriersOf body code) protectionTemplates code = .ok none := by
      obtain ⟨m, hm, checks, htreated⟩ := exists_mem_of_forall₂ htreated hm'
      have hnames := htreated.namesMembers hwidens (hfinds m hm) hbody hcode
      exact (next?_of_not_matches (hno m' hm' body code hbody hcode)).resolve_right
        fun hstumbles => hstumbles.2 hnames
    refine ⟨fun m' hm' body code hbody hcode => scan_of_none (hnext m' hm' body code hbody hcode),
      neutralize_settled fun m' hm' body hbody => ?_⟩
    obtain ⟨m, -, hfreed⟩ := exists_mem_of_forall₂ honly hm'
    obtain ⟨-, -, new, -, -, hnew, -⟩ := hfreed body hbody
    exact ⟨new, hnew, hnext m' hm' body new hbody hnew⟩

/-- The method of `asking` has no exception table, so no check of it is freed. -/
theorem noneFreed_asking : NoneFreed asking := by
  intro m hm body code hbody _ t _ i hfreed
  obtain rfl := List.mem_singleton.1 hm
  obtain rfl : askingBody = body := Option.some.inj hbody
  obtain ⟨row, hrow⟩ := hfreed.exists_row
  cases hrow

theorem findsMembers_asking : ∀ m ∈ asking.methods, FindsMembers asking.pool m := by
  intro m hm body code hbody hcode ins hins hlooks
  obtain rfl := List.mem_singleton.1 hm
  obtain rfl : askingBody = body := Option.some.inj hbody
  rw [askingCode_ok] at hcode
  obtain rfl := Except.ok.inj hcode
  have hrefs : ∀ ins ∈ askingCode, looksForMember ins.op = true →
      (asking.pool.ref ins.operand.index).toBool = true := by
    decide +kernel
  have href := hrefs ins hins hlooks
  cases hr : asking.pool.ref ins.operand.index with
  | error e =>
    rw [hr] at href
    cases href
  | ok r => exact exists_member_of_ref hr

/-- The check of `asking` is replaced, and then there is nothing left to replace. -/
theorem neutralize_settles_asking : asking.pool.Coherent ∧ ∃ out,
    neutralize asking genuine = (none, out) ∧ out.replaced = 1 ∧
      ∀ caller', neutralize out.cf caller' = (none, ⟨[], out.cf⟩) := by
  obtain ⟨out, hout⟩ : ∃ out, neutralize asking genuine = (none, out) :=
    ⟨_, Prod.ext (Option.isNone_iff_eq_none.1 (by decide +kernel)) rfl⟩
  obtain ⟨-, hsettles⟩ := neutralize_settles coherent_asking hout
  refine ⟨coherent_asking, out, hout, ?_, ((hsettles noneFreed_asking).2 findsMembers_asking).2⟩
  have hone : (neutralize asking genuine).2.replaced = 1 := by decide +kernel
  rwa [hout] at hone

/-- Code with two checks.  An exception that arises behind the first instruction of the one
leads behind the first instruction of the other. -/
def shelteredBody : MethodBody :=
  { askingBody with
    bytecode := askingBody.bytecode.take 24 ++ askingBody.bytecode.drop 1
    handlers := [⟨4, 21, 27, 0⟩] }

/-- A class with a method of this code. -/
def sheltered : ClassFile := { asking with methods := [⟨9, 3, 4, [.code 5 "Code" shelteredBody]⟩] }

example : (neutralize sheltered genuine).2.replaced = 1 ∧
    (neutralize (neutralize sheltered genuine).2.cf genuine).2.replaced = 1 := by
  decide +kernel

end Isolation

end Cleartext
