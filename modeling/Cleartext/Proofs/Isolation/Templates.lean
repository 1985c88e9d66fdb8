import Cleartext.Proofs.Code.Barriers
import Cleartext.Proofs.Isolation.Capturing
import Cleartext.Proofs.Pattern.Matching

/-!
# The templates of the checks

The templates bind no names, and each of their steps asks for an opcode, for a push of the
number two, or for a call of a method (`CheckStep`).  So it depends on few things whether
one matches.

* `CheckStep.fits_iff`: a step fits an instruction in a pool that has widened if it fits it
  in the pool as it was.  Neither a member nor the number two is among what was added.
* `matches_iff_of_widens`: so do the templates.
* `CheckStep.family_of_push`: only the step for the number fits a push.  The step behind it
  takes an element of an array (`Paired`).
-/

namespace Cleartext

namespace Pattern

/-- A demand binds no names. -/
def Demand.Unbound (d : Demand) : Prop := ∀ index value, d.uses index value = []

theorem Demand.unbound_any : Demand.any.Unbound := fun _ _ => rfl

theorem Demand.unbound_oneOf (values : List Meaning) : (Demand.oneOf values).Unbound := fun _ _ => rfl

theorem Demand.unbound_ref {owner name descriptor : Demand} (howner : owner.Unbound)
    (hname : name.Unbound) (hdescriptor : descriptor.Unbound) :
    (Demand.ref owner name descriptor).Unbound := by
  intro index value
  cases value with
  | ref r => simp [Demand.uses, howner index, hname index, hdescriptor index]
  | _ => rfl

theorem Step.uses_of_unbound {pool : Pool} {s : Step} {ins : Instruction} (h : s.demand.Unbound) :
    s.uses pool ins = [] := by
  unfold Step.uses
  split
  · exact h _ _
  · rfl

theorem usesOf_of_unbound {pool : Pool} {steps : List Step} (window : List Instruction)
    (h : ∀ s ∈ steps, s.demand.Unbound) : usesOf pool steps window = [] := by
  refine List.flatMap_eq_nil_iff.2 fun pair hpair => ?_
  exact Step.uses_of_unbound (h _ (List.of_mem_zip hpair).1)

/-- A template that binds no names matches where its steps fit and nothing leads behind the
first instruction. -/
theorem Template.matches_iff_of_unbound {pool : Pool} {body? : Option MethodBody}
    {instructions : List Instruction} {i : Nat} {t : Template}
    (h : ∀ s ∈ t.steps, s.demand.Unbound) : t.Matches pool body? instructions i ↔
      t.steps ≠ [] ∧ i + t.steps.length ≤ instructions.length ∧
        (∀ pair ∈ t.steps.zip (t.window instructions i), pair.1.Fits pool pair.2) ∧
        ∀ ins ∈ (t.window instructions i).tail, ∀ body ∈ body?,
          ¬ Leads body instructions ins.offset := by
  constructor
  · rintro ⟨hsteps, hroom, hfits, hguarded, -⟩
    exact ⟨hsteps, hroom, hfits, hguarded⟩
  · rintro ⟨hsteps, hroom, hfits, hguarded⟩
    refine ⟨hsteps, hroom, hfits, hguarded, ?_⟩
    rw [usesOf_of_unbound _ h]
    intro before name b after heq
    exact absurd heq (by simp)

end Pattern

namespace Isolation

open Pattern

variable {p q : Pool} {ins ins' : Instruction} {s : Step} {t : Template}

/-! ## Steps -/

/-- The steps that the templates have. -/
inductive CheckStep : Step → Prop
  | load : CheckStep { family := .load .aload }
  | two : CheckStep { family := .pushInt, demand := .exactly (.constant (.int 2)) }
  | element : CheckStep { family := .exactly .aaload }
  | call {op : Opcode} {owner name descriptor : Demand}
      (hop : op = .invokevirtual ∨ op = .invokestatic ∨ op = .invokeinterface)
      (hunbound : (Demand.ref owner name descriptor).Unbound) :
      CheckStep { family := .exactly op, demand := .ref owner name descriptor }

theorem CheckStep.unbound (h : CheckStep s) : s.demand.Unbound := by
  cases h with
  | load | element => exact Demand.unbound_any
  | two => exact Demand.unbound_oneOf _
  | call _ hunbound => exact hunbound

theorem checkStep_callerElement : ∀ s ∈ callerElement, CheckStep s := by
  simp only [callerElement, List.forall_mem_cons, List.not_mem_nil, false_imp_iff, implies_true,
    and_true]
  exact ⟨.load, .two, .element⟩

theorem checkStep_element (getter : String) : CheckStep (elementStep getter) :=
  .call (.inl rfl) (Demand.unbound_ref (Demand.unbound_oneOf _) (Demand.unbound_oneOf _)
    (Demand.unbound_oneOf _))

theorem checkStep_append (type : String) : CheckStep (appendStep type) :=
  .call (.inl rfl) (Demand.unbound_ref (Demand.unbound_oneOf _) (Demand.unbound_oneOf _)
    (Demand.unbound_oneOf _))

theorem checkStep_of_mem (query : Query) : ∀ s ∈ query.template.steps, CheckStep s := by
  cases query with
  | className | methodName =>
    refine List.forall_mem_append.2 ⟨checkStep_callerElement, ?_⟩
    exact List.forall_mem_cons.2 ⟨checkStep_element _, List.forall_mem_singleton.2 (checkStep_append _)⟩
  | poolSize =>
    refine List.forall_mem_cons.2 ⟨.call (.inr (.inl rfl)) ?_, ?_⟩
    · exact Demand.unbound_ref (Demand.unbound_oneOf _) (Demand.unbound_oneOf _) Demand.unbound_any
    refine List.forall_mem_append.2 ⟨checkStep_callerElement, ?_⟩
    refine List.forall_mem_cons.2 ⟨checkStep_element _, List.forall_mem_cons.2 ⟨?_,
      List.forall_mem_cons.2 ⟨?_, List.forall_mem_cons.2 ⟨?_,
        List.forall_mem_singleton.2 (checkStep_append _)⟩⟩⟩⟩
    · exact .call (.inr (.inl rfl)) (Demand.unbound_ref (Demand.unbound_oneOf _)
        (Demand.unbound_oneOf _) (Demand.unbound_oneOf _))
    · exact .call (.inr (.inr rfl)) (Demand.unbound_ref Demand.unbound_any (Demand.unbound_oneOf _)
        Demand.unbound_any)
    · exact .call (.inl rfl) (Demand.unbound_ref (Demand.unbound_oneOf _) (Demand.unbound_oneOf _)
        (Demand.unbound_oneOf _))

theorem template_mem_protectionTemplates (query : Query) : query.template ∈ protectionTemplates :=
  List.mem_map_of_mem (by cases query <;> decide)

theorem checkStep_of_protection (ht : t ∈ protectionTemplates) : ∀ s ∈ t.steps, CheckStep s := by
  obtain ⟨query, -, rfl⟩ := List.mem_map.1 ht
  exact checkStep_of_mem query

/-! ## Pools that widen -/

theorem pushedInt?_unplaced (ins : Instruction) (pool : Option Pool) :
    ins.unplaced.pushedInt? pool = ins.pushedInt? pool := by
  have himmediate {s : Shape} (o : Operand s) (f : Int32 → Int32) :
      (o.mapDistances f).immediate = o.immediate := by
    cases o <;> rfl
  have hindex : ins.unplaced.operand.index = ins.operand.index :=
    congrArg (·.getD 0) (ins.operand.index?_mapDistances _)
  unfold Instruction.pushedInt?
  rw [hindex, show ins.unplaced.operand.immediate = ins.operand.immediate from himmediate _ _]
  rfl

theorem pushedInt?_of_unplaced (hunplaced : ins'.unplaced = ins.unplaced) (pool : Option Pool) :
    ins'.pushedInt? pool = ins.pushedInt? pool := by
  rw [← pushedInt?_unplaced, hunplaced, pushedInt?_unplaced]

theorem fits_any_iff (h : s.demand = .any) : s.Fits p ins ↔ s.family.accepts p ins = true := by
  unfold Step.Fits
  rw [h]
  exact and_iff_left nofun

theorem fits_two_iff : Step.Fits p { family := .pushInt, demand := .exactly (.constant (.int 2)) } ins ↔
    ins.pushedInt? (some p) = some 2 := by
  have hagrees (n : Int32) : Demand.Fits (.exactly (.constant (.int 2))) (numberMeaning n).2 ↔ n = 2 := by
    simp only [Demand.exactly, Demand.Fits, numberMeaning, List.mem_singleton, exists_eq_left,
      Meaning.agrees, Meaning.number?, decide_eq_true_eq]
    rw [Int32.toInt_inj]
    exact eq_comm
  unfold Step.Fits
  dsimp only [Family.accepts, Family.resolve]
  constructor
  · rintro ⟨-, h⟩
    obtain ⟨index, value, hresolve, hvalue⟩ := h rfl
    obtain ⟨n, hn, hmeaning⟩ := Option.map_eq_some_iff.1 (Except.ok.inj hresolve)
    have hn2 := (hagrees n).1 (by rw [hmeaning]; exact hvalue)
    rw [hn, hn2]
  · intro h
    refine ⟨by rw [h]; rfl, fun _ => ⟨_, _, by rw [h]; rfl, (hagrees 2).2 rfl⟩⟩

/-- A call fits its step when it names a method that fits. -/
theorem fits_call_iff {op : Opcode} {owner name descriptor : Demand}
    (hop : op = .invokevirtual ∨ op = .invokestatic ∨ op = .invokeinterface) :
    Step.Fits p { family := .exactly op, demand := .ref owner name descriptor } ins ↔
      ins.op = op ∧ ∃ r, p.ref ins.operand.index = .ok r ∧
        Demand.Fits (.ref owner name descriptor) (.ref r) := by
  unfold Step.Fits
  dsimp only [Family.accepts]
  rw [decide_eq_true_eq]
  refine and_congr_right fun haccepts => ?_
  have hpool : ins.op.usesPool = true := by
    rw [haccepts]
    rcases hop with rfl | rfl | rfl <;> rfl
  have hmeaning (index : UInt16) : poolMeaning p ins.op index = (do return .ref (← p.ref index)) := by
    rw [haccepts]
    rcases hop with rfl | rfl | rfl <;> rfl
  rw [resolve_pool (fun _ h => by cases h) (fun h => by cases h) hpool, hmeaning]
  constructor
  · intro h
    obtain ⟨index, value, hresolve, hvalue⟩ := h rfl
    cases hr : p.ref ins.operand.index with
    | error e =>
      rw [hr] at hresolve
      cases e <;> cases hresolve
    | ok r =>
      rw [hr] at hresolve
      obtain ⟨rfl, rfl⟩ := Prod.mk.inj (Option.some.inj (Except.ok.inj hresolve))
      exact ⟨r, rfl, hvalue⟩
  · rintro ⟨r, hr, hvalue⟩ -
    exact ⟨_, _, by rw [hr]; rfl, hvalue⟩

/-- A pool that has widened names no other members. -/
theorem ref_iff_of_widens (h : p.Widens q) (hclosed : p.Closed) {i : UInt16} {r : Ref} :
    q.ref i = .ok r ↔ p.ref i = .ok r := by
  refine ⟨fun hr => ?_, h.extends_.ref⟩
  obtain ⟨c, hc, hr'⟩ := Except.bind_ok.1 hr
  cases c with
  | member kind owner nameAndType =>
    have hget := (h.added (Pool.get_ok.1 hc)).resolve_right id
    rw [← hr, h.extends_.ref_eq hclosed (by rw [hget]; rfl)]
  | _ => cases hr'

/-- Nothing that was added to a pool is a push of the number two. -/
theorem pushedInt?_two_of_widens (h : p.Widens q) :
    ins.pushedInt? (some q) = some 2 ↔ ins.pushedInt? (some p) = some 2 := by
  refine ⟨fun htwo => ?_, Machine.Step.pushedInt?_mono h.extends_⟩
  unfold Instruction.pushedInt? at htwo ⊢
  split
  · rw [if_pos ‹_›] at htwo
    exact htwo
  · rw [if_neg ‹_›] at htwo
    split
    · rw [if_pos ‹_›] at htwo
      exact htwo
    · rw [if_neg ‹_›] at htwo
      split
      · rw [if_pos ‹_›] at htwo
        dsimp only [Option.bind_some] at htwo ⊢
        cases hget : q.get? ins.operand.index with
        | none =>
          rw [hget] at htwo
          cases htwo
        | some c =>
          rw [hget] at htwo
          cases c with
          | integer v =>
            obtain rfl := Option.some.inj htwo
            rcases h.added hget with hold | hstock
            · rw [hold]
            · cases hstock
          | _ => cases htwo
      · rw [if_neg ‹_›] at htwo
        exact htwo

/-- Whether a step fits does not depend on where the instruction stands, nor on whether the
pool has widened. -/
theorem CheckStep.fits_iff (hs : CheckStep s) (h : p.Widens q) (hclosed : p.Closed)
    (hunplaced : ins'.unplaced = ins.unplaced) : s.Fits q ins' ↔ s.Fits p ins := by
  have hop := Instruction.op_of_unplaced hunplaced
  cases hs with
  | load | element =>
    rw [fits_any_iff rfl, fits_any_iff rfl]
    dsimp only [Family.accepts]
    rw [hop]
  | two =>
    rw [fits_two_iff, fits_two_iff, pushedInt?_of_unplaced hunplaced]
    exact pushedInt?_two_of_widens h
  | call hcall =>
    rw [fits_call_iff hcall, fits_call_iff hcall, Instruction.index_of_unplaced hunplaced]
    simp only [hop, ref_iff_of_widens h hclosed]

/-- Whether a template of a check matches does not depend on whether the pool has widened. -/
theorem matches_iff_of_widens {body? : Option MethodBody} {code : List Instruction} {i : Nat}
    (ht : t ∈ protectionTemplates) (h : p.Widens q) (hclosed : p.Closed) :
    t.Matches q body? code i ↔ t.Matches p body? code i := by
  have hsteps := checkStep_of_protection ht
  have hunbound : ∀ s ∈ t.steps, s.demand.Unbound := fun s hs => (hsteps s hs).unbound
  rw [Template.matches_iff_of_unbound hunbound, Template.matches_iff_of_unbound hunbound]
  have hfits : (∀ pair ∈ t.steps.zip (t.window code i), pair.1.Fits q pair.2) ↔
      ∀ pair ∈ t.steps.zip (t.window code i), pair.1.Fits p pair.2 :=
    forall₂_congr fun pair hpair => (hsteps _ (List.of_mem_zip hpair).1).fits_iff h hclosed rfl
  rw [hfits]

/-! ## Pushes -/

/-- What pushes a constant has one of the lowest opcodes. -/
theorem code_le_of_pushedInt? {pool : Option Pool} {v : Int32} (h : ins.pushedInt? pool = some v) :
    ins.op.code ≤ Opcode.ldcW.code := by
  unfold Instruction.pushedInt? at h
  split at h
  · rename_i hop
    rw [Bool.and_eq_true, decide_eq_true_eq, decide_eq_true_eq] at hop
    exact UInt8.le_trans hop.2 (by decide)
  · split at h
    · rename_i hop
      rw [Bool.or_eq_true, decide_eq_true_eq, decide_eq_true_eq] at hop
      rcases hop with hop | hop <;> rw [hop] <;> decide
    · split at h
      · rename_i hop
        rw [Bool.or_eq_true, decide_eq_true_eq, decide_eq_true_eq] at hop
        rcases hop with hop | hop <;> rw [hop] <;> decide
      · cases h

theorem Captures.code_le {caller : Identity} {query : Query} (h : Captures p caller query ins) :
    ins.op.code ≤ Opcode.ldcW.code := by
  cases h with
  | size hpush => exact code_le_of_pushedInt? hpush
  | text _ hop _ => rcases hop with hop | hop <;> rw [hop] <;> decide

/-- The short loads and stores are behind the pushes and in front of the jumps. -/
theorem code_of_expand? {op : Opcode} (h : op.expand?.isSome) :
    Opcode.ldcW.code < op.code ∧ op.code ≤ Opcode.dcmpg.code := by
  unfold Opcode.expand? at h
  split at h
  · rename_i hop
    rw [Bool.and_eq_true, decide_eq_true_eq, decide_eq_true_eq] at hop
    exact ⟨UInt8.lt_of_lt_of_le (by decide) hop.1, UInt8.le_trans hop.2 (by decide)⟩
  · split at h
    · rename_i hop
      rw [Bool.and_eq_true, decide_eq_true_eq, decide_eq_true_eq] at hop
      exact ⟨UInt8.lt_of_lt_of_le (by decide) hop.1, UInt8.le_trans hop.2 (by decide)⟩
    · cases h

/-- Only the step for the number fits a push. -/
theorem CheckStep.family_of_push (hs : CheckStep s) (hfits : s.Fits p ins)
    (hpush : ins.op.code ≤ Opcode.ldcW.code) : s.family = .pushInt := by
  have haccepts := hfits.1
  have hlow {op : Opcode} (hlt : Opcode.ldcW.code < op.code) : ins.op ≠ op := by
    rintro rfl
    exact UInt8.not_lt.2 hpush hlt
  cases hs with
  | two => rfl
  | element => exact absurd (of_decide_eq_true haccepts) (hlow (by decide))
  | call hop =>
    refine absurd (of_decide_eq_true haccepts) (hlow ?_)
    rcases hop with rfl | rfl | rfl <;> decide
  | load =>
    simp only [Family.accepts, Bool.or_eq_true, decide_eq_true_eq] at haccepts
    rcases haccepts with hload | hshort
    · exact absurd hload (hlow (by decide))
    · obtain ⟨_, hexpand, -⟩ := Option.map_eq_some_iff.1 hshort
      exact absurd rfl (hlow (code_of_expand? (by rw [hexpand]; rfl)).1)

/-- A step for a number is followed by the one that takes an element of an array. -/
def Paired : List Step → Prop
  | [] => True
  | s :: rest =>
    (s.family = .pushInt → rest.head?.map (·.family) = some (.exactly .aaload)) ∧ Paired rest

theorem paired_of_protection (ht : t ∈ protectionTemplates) : Paired t.steps := by
  obtain ⟨query, -, rfl⟩ := List.mem_map.1 ht
  cases query <;>
    simp [Paired, Query.template, callerElement, elementStep, appendStep]

/-- A template of a check starts with a load or with a static call. -/
theorem head_of_protection (ht : t ∈ protectionTemplates) : ∃ s rest, t.steps = s :: rest ∧
    (s.family = .load .aload ∨ s.family = .exactly .invokestatic) := by
  obtain ⟨query, -, rfl⟩ := List.mem_map.1 ht
  cases query with
  | poolSize => exact ⟨_, _, rfl, .inr rfl⟩
  | className | methodName => exact ⟨_, _, rfl, .inl rfl⟩

/-! ## Jumps -/

/-- The instructions of a check do not jump. -/
theorem CheckStep.distances_eq_nil (hs : CheckStep s) (hfits : s.Fits p ins) :
    ins.operand.distances = [] := by
  have haccepts := hfits.1
  have hlow {op : Opcode} (hop : ins.op = op) (hcode : op.code ≤ Opcode.dcmpg.code) :
      ins.operand.distances = [] :=
    Instruction.distances_of_code_le (hop ▸ hcode)
  cases hs with
  | two =>
    have hcode := code_le_of_pushedInt? (fits_two_iff.1 hfits)
    exact Instruction.distances_of_code_le (UInt8.le_trans hcode (by decide))
  | element => exact hlow (of_decide_eq_true haccepts) (by decide)
  | call hop =>
    have hshape : ins.op.shape = .pool16 ∨ ins.op.shape = .interface := by
      rw [of_decide_eq_true haccepts]
      rcases hop with rfl | rfl | rfl
      · exact .inl rfl
      · exact .inl rfl
      · exact .inr rfl
    refine ins.operand.distances_of_shape ?_
    rcases hshape with hshape | hshape <;> rw [hshape] <;> decide
  | load =>
    simp only [Family.accepts, Bool.or_eq_true, decide_eq_true_eq] at haccepts
    rcases haccepts with hload | hshort
    · exact hlow hload (by decide)
    · obtain ⟨_, hexpand, -⟩ := Option.map_eq_some_iff.1 hshort
      exact Instruction.distances_of_code_le (code_of_expand? (by rw [hexpand]; rfl)).2

end Isolation

end Cleartext
