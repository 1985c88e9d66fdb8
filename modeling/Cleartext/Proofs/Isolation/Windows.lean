import Cleartext.Isolation.Neutralize
import Cleartext.Proofs.Pattern.Decryption

/-!
# Windows

A window is what a check of the caller looks like in code: instructions that ask for
something, and the call that appends the answer to a builder.

* `next?_ok`: what a search comes upon matches one of the templates, instruction by
  instruction, and what is left to be searched stands behind it.
* `asks_of_matches`: instructions that match the template of a query ask for it
  (`Asks`), and then append (`Appends`).
-/

namespace Cleartext

namespace Pattern

variable {p : Pool} {barriers : List Int} {ins : Instruction} {instructions : List Instruction}

/-- An instruction meets a step, whatever is bound. -/
def Step.Meets (p : Pool) (s : Step) (ins : Instruction) : Prop :=
  ∃ bound bound', s.check p ins bound = .ok (some bound')

/-! ## Searching -/

theorem checkSteps_ok {steps : List Step} {bound bound' : Bindings}
    (h : checkSteps p barriers steps instructions bound = .ok (some bound')) :
    steps.length ≤ instructions.length ∧
      List.Forall₂ (Step.Meets p) steps (instructions.take steps.length) := by
  induction steps generalizing instructions bound with
  | nil => exact ⟨Nat.zero_le _, .nil⟩
  | cons s steps ih =>
    cases instructions with
    | nil => cases h
    | cons ins rest =>
      unfold checkSteps at h
      split at h
      · cases h
      · obtain ⟨checked, hcheck, h⟩ := Except.bind_ok.1 h
        cases checked with
        | none => cases h
        | some bound₁ =>
          obtain ⟨hlength, hmeets⟩ := ih h
          refine ⟨Nat.succ_le_succ hlength, ?_⟩
          rw [List.length_cons, List.take_succ_cons]
          exact .cons ⟨bound, bound₁, hcheck⟩ hmeets

theorem matchAt_ok {t : Template} {m : Match}
    (h : t.matchAt p barriers instructions = .ok (some m)) :
    m.template = t ∧ (∃ rest, instructions = m.instructions ++ rest) ∧ m.instructions ≠ [] ∧
      List.Forall₂ (Step.Meets p) t.steps m.instructions := by
  unfold Template.matchAt at h
  split at h
  · rename_i first steps ins rest hsteps
    split at h
    · cases h
    · obtain ⟨checked, hcheck, h⟩ := Except.bind_ok.1 h
      cases checked with
      | none => cases h
      | some bound =>
        obtain ⟨found, hfound, h⟩ := Except.bind_ok.1 h
        cases found with
        | none => cases h
        | some bound' =>
          obtain rfl := Option.some.inj (Except.ok.inj h)
          obtain ⟨-, hmeets⟩ := checkSteps_ok hfound
          rw [hsteps]
          exact ⟨rfl, ⟨rest.drop steps.length, by simp⟩, by simp, .cons ⟨_, _, hcheck⟩ hmeets⟩
  · cases h

theorem firstMatch_ok {templates : List Template} {m : Match}
    (h : firstMatch p barriers instructions templates = .ok (some m)) :
    ∃ t ∈ templates, t.matchAt p barriers instructions = .ok (some m) := by
  induction templates with
  | nil => cases h
  | cons t templates ih =>
    obtain ⟨found, hfound, h⟩ := Except.bind_ok.1 h
    cases found with
    | some m' =>
      obtain rfl := Option.some.inj (Except.ok.inj h)
      exact ⟨t, List.mem_cons_self, hfound⟩
    | none =>
      obtain ⟨t', ht', hmatch⟩ := ih h
      exact ⟨t', List.mem_cons_of_mem _ ht', hmatch⟩

/-- A search comes upon instructions that match a template; it goes on behind them. -/
theorem next?_ok {templates : List Template} {m : Match} {rest : List Instruction}
    (h : next? p barriers templates instructions = .ok (some (m, rest))) :
    m.template ∈ templates ∧ (∃ skipped, instructions = skipped ++ m.instructions ++ rest) ∧
      List.Forall₂ (Step.Meets p) m.template.steps m.instructions := by
  induction instructions with
  | nil => cases h
  | cons ins more ih =>
    obtain ⟨found, hfound, h⟩ := Except.bind_ok.1 h
    cases found with
    | some m' =>
      obtain ⟨rfl, rfl⟩ := Prod.mk.inj (Option.some.inj (Except.ok.inj h))
      obtain ⟨t, ht, hmatch⟩ := firstMatch_ok hfound
      obtain ⟨rfl, ⟨behind, hbehind⟩, hne, hmeets⟩ := matchAt_ok hmatch
      refine ⟨ht, ⟨[], ?_⟩, hmeets⟩
      obtain ⟨first, window, hwindow⟩ := List.exists_cons_of_ne_nil hne
      rw [hwindow] at hbehind ⊢
      obtain ⟨rfl, rfl⟩ := List.cons.inj hbehind
      simp
    | none =>
      obtain ⟨ht, ⟨skipped, hskipped⟩, hmeets⟩ := ih h
      exact ⟨ht, ⟨ins :: skipped, by rw [hskipped]; rfl⟩, hmeets⟩

/-! ## Steps -/

variable {s : Step}

theorem Step.Meets.accepts (h : s.Meets p ins) : s.family.accepts p ins = true := by
  obtain ⟨bound, bound', hcheck⟩ := h
  unfold Step.check at hcheck
  split at hcheck
  · cases hcheck
  · rename_i haccepts
    simpa using haccepts

theorem Step.Meets.demand (h : s.Meets p ins) (hdemand : s.demand.isAny = false) :
    ∃ index value bound bound', s.family.resolve p ins = .ok (some (index, value)) ∧
      s.demand.check index value bound = some bound' := by
  obtain ⟨bound, bound', hcheck⟩ := h
  unfold Step.check at hcheck
  split at hcheck
  · cases hcheck
  · rw [if_neg (by simp [hdemand])] at hcheck
    obtain ⟨resolved, hresolved, hcheck⟩ := Except.bind_ok.1 hcheck
    cases resolved with
    | none => cases hcheck
    | some found =>
      obtain ⟨index, value⟩ := found
      exact ⟨index, value, bound, bound', hresolved, Except.ok.inj hcheck⟩

/-- A demand that a text can meet. -/
def Demand.Admits (d : Demand) (s : String) : Prop :=
  ∃ index bound bound', d.check index (.text s) bound = some bound'

theorem admits_oneOf {texts : List String} {s : String}
    (h : (Demand.oneOf (texts.map .text)).Admits s) : s ∈ texts := by
  obtain ⟨index, bound, bound', h⟩ := h
  unfold Demand.check at h
  split at h
  · rename_i hany
    simpa [agrees_text] using hany
  · cases h

theorem admits_text {s t : String} (h : (Demand.text t).Admits s) : s = t := by
  simpa using @admits_oneOf [t] s h

/-- A call that meets a step: its reference has the parts that are demanded. -/
theorem Step.Meets.call {op : Opcode} {owner name descriptor : Demand}
    (h : Step.Meets p { family := .exactly op, demand := .ref owner name descriptor } ins)
    (hop : op = .invokevirtual ∨ op = .invokestatic ∨ op = .invokeinterface) :
    ins.op = op ∧ ∃ r, p.ref ins.operand.index = .ok r ∧ owner.Admits r.owner ∧
      name.Admits r.name ∧ descriptor.Admits r.descriptor := by
  have haccepts : ins.op = op := by simpa [Family.accepts] using h.accepts
  refine ⟨haccepts, ?_⟩
  obtain ⟨index, value, bound, bound', hresolve, hcheck⟩ := h.demand rfl
  have hresolved : (do
      return (← orNothing (poolMeaning p op ins.operand.index)).map (ins.operand.index, ·)) =
        (.ok (some (index, value)) : Except Error (Option (UInt16 × Meaning))) := by
    rw [← hresolve]
    obtain ⟨op', operand, wide, offset⟩ := ins
    obtain rfl : op' = op := haccepts
    rcases hop with rfl | rfl | rfl <;> rfl
  have hmeaning : poolMeaning p op ins.operand.index =
      (do return .ref (← p.ref ins.operand.index)) := by
    rcases hop with rfl | rfl | rfl <;> rfl
  rw [hmeaning] at hresolved
  cases hr : p.ref ins.operand.index with
  | error e =>
    rw [hr] at hresolved
    cases e <;> cases hresolved
  | ok r =>
    rw [hr] at hresolved
    obtain ⟨rfl, rfl⟩ := Prod.mk.inj (Option.some.inj (Except.ok.inj hresolved))
    obtain ⟨bound₁, howner, hcheck⟩ := Option.bind_eq_some_iff.1 hcheck
    obtain ⟨bound₂, hname, hdescriptor⟩ := Option.bind_eq_some_iff.1 hcheck
    exact ⟨r, rfl, ⟨_, _, _, howner⟩, ⟨_, _, _, hname⟩, ⟨_, _, _, hdescriptor⟩⟩

theorem Step.Meets.load {demand : Demand}
    (h : Step.Meets p { family := .load .aload, demand } ins) :
    ∃ slot, ins.op.expand?.getD (ins.op, ins.operand.local_) = (.aload, slot) := by
  have haccepts := h.accepts
  unfold Family.accepts at haccepts
  obtain ⟨op, operand, wide, offset⟩ := ins
  dsimp only at haccepts ⊢
  rw [Bool.or_eq_true, decide_eq_true_eq, decide_eq_true_eq] at haccepts
  rcases haccepts with rfl | hshort
  · exact ⟨operand.local_, rfl⟩
  · obtain ⟨⟨general, slot⟩, hexpand, rfl⟩ := Option.map_eq_some_iff.1 hshort
    exact ⟨slot, by rw [hexpand]; rfl⟩

theorem Step.Meets.two
    (h : Step.Meets p { family := .pushInt, demand := .exactly (.constant (.int 2)) } ins) :
    ins.pushedInt? (some p) = some 2 := by
  obtain ⟨index, value, bound, bound', hresolve, hcheck⟩ := h.demand rfl
  obtain ⟨n, hn, hvalue⟩ := Option.map_eq_some_iff.1 (Except.ok.inj hresolve)
  obtain ⟨rfl, rfl⟩ := Prod.mk.inj hvalue
  unfold Demand.exactly Demand.check at hcheck
  split at hcheck
  · rename_i hany
    have hagrees : (2 : Int32).toInt = n.toInt := by
      simpa [Meaning.agrees, Meaning.number?] using hany
    rw [hn, Int32.toInt_inj.1 hagrees]
  · cases hcheck

end Pattern

namespace Isolation

open Pattern

/-! ## Windows -/

/-- The type that the answer of a query is appended as. -/
def Query.type : Query → String
  | .poolSize => "I"
  | .className | .methodName => "Ljava/lang/String;"

/-- The descriptors with which a builder appends a value of a type. -/
def appendDescriptors (type : String) : List String :=
  ["(" ++ type ++ ")Ljava/lang/StringBuilder;", "(" ++ type ++ ")Ljava/lang/StringBuffer;"]

/-- An instruction calls a method with a name. -/
def CallsNamed (p : Pool) (op : Opcode) (ins : Instruction) (name : String) : Prop :=
  ins.op = op ∧ ∃ r, p.ref ins.operand.index = .ok r ∧ r.name = name

/-- Instructions take the third element of an array in a local variable. -/
structure TakesElement (p : Pool) (load two element : Instruction) : Prop where
  load : ∃ slot, load.op.expand?.getD (load.op, load.operand.local_) = (.aload, slot)
  two : two.pushedInt? (some p) = some 2
  element : element.op = .aaload

/-- Instructions ask for something about the caller. -/
inductive Asks (p : Pool) : Query → List Instruction → Prop
  | className {load two element getter : Instruction} (htakes : TakesElement p load two element)
      (hgetter : CallsNamed p .invokevirtual getter "getClassName") :
      Asks p .className [load, two, element, getter]
  | methodName {load two element getter : Instruction} (htakes : TakesElement p load two element)
      (hgetter : CallsNamed p .invokevirtual getter "getMethodName") :
      Asks p .methodName [load, two, element, getter]
  | poolSize {access load two element getter cls pool size : Instruction}
      (haccess : CallsNamed p .invokestatic access "getJavaLangAccess")
      (htakes : TakesElement p load two element)
      (hgetter : CallsNamed p .invokevirtual getter "getClassName")
      (hcls : CallsNamed p .invokestatic cls "forName")
      (hpool : CallsNamed p .invokeinterface pool "getConstantPool")
      (hsize : CallsNamed p .invokevirtual size "getSize") :
      Asks p .poolSize [access, load, two, element, getter, cls, pool, size]

/-- An instruction appends a value of a type to a builder. -/
def Appends (p : Pool) (type : String) (ins : Instruction) : Prop :=
  ins.op = .invokevirtual ∧ ∃ r, p.ref ins.operand.index = .ok r ∧ r.name = "append" ∧
    r.descriptor ∈ appendDescriptors type

variable {p : Pool} {ins : Instruction}

theorem appends_of_meets {type : String} (h : (appendStep type).Meets p ins) :
    Appends p type ins := by
  obtain ⟨hop, r, hr, -, hname, hdescriptor⟩ := h.call (.inl rfl)
  exact ⟨hop, r, hr, admits_text hname, admits_oneOf hdescriptor⟩

theorem callsNamed_of_meets {op : Opcode} {owner descriptor : Demand} {name : String}
    (h : Step.Meets p { family := .exactly op, demand := .ref owner (.text name) descriptor } ins)
    (hop : op = .invokevirtual ∨ op = .invokestatic ∨ op = .invokeinterface) :
    CallsNamed p op ins name := by
  obtain ⟨hop, r, hr, -, hname, -⟩ := h.call hop
  exact ⟨hop, r, hr, admits_text hname⟩

theorem takesElement_of_meets {steps : List Step} {instructions : List Instruction}
    (h : List.Forall₂ (Step.Meets p) (callerElement ++ steps) instructions) :
    ∃ load two element rest, instructions = load :: two :: element :: rest ∧
      TakesElement p load two element ∧ List.Forall₂ (Step.Meets p) steps rest := by
  obtain ⟨load, _, hload, h₁, rfl⟩ := List.forall₂_cons_left_iff.1 h
  obtain ⟨two, _, htwo, h₂, rfl⟩ := List.forall₂_cons_left_iff.1 h₁
  obtain ⟨element, rest, helement, h₃, rfl⟩ := List.forall₂_cons_left_iff.1 h₂
  exact ⟨load, two, element, rest, rfl,
    ⟨hload.load, htwo.two, by simpa [Family.accepts] using helement.accepts⟩, h₃⟩

/-- What matches the template of a query asks for it, and appends the answer. -/
theorem asks_of_matches {q : Query} {instructions : List Instruction}
    (h : List.Forall₂ (Step.Meets p) q.template.steps instructions) :
    ∃ front append, instructions = front ++ [append] ∧ Asks p q front ∧
      Appends p q.type append := by
  cases q with
  | poolSize =>
    obtain ⟨access, _, haccess, h₁, rfl⟩ := List.forall₂_cons_left_iff.1 h
    obtain ⟨load, two, element, _, rfl, htakes, h₂⟩ := takesElement_of_meets h₁
    obtain ⟨getter, _, hgetter, h₃, rfl⟩ := List.forall₂_cons_left_iff.1 h₂
    obtain ⟨cls, _, hcls, h₄, rfl⟩ := List.forall₂_cons_left_iff.1 h₃
    obtain ⟨pool, _, hpool, h₅, rfl⟩ := List.forall₂_cons_left_iff.1 h₄
    obtain ⟨size, _, hsize, h₆, rfl⟩ := List.forall₂_cons_left_iff.1 h₅
    obtain ⟨append, _, happend, h₇, rfl⟩ := List.forall₂_cons_left_iff.1 h₆
    obtain rfl := List.forall₂_nil_left_iff.1 h₇
    exact ⟨[access, load, two, element, getter, cls, pool, size], append, rfl,
      .poolSize (callsNamed_of_meets haccess (.inr (.inl rfl))) htakes
        (callsNamed_of_meets hgetter (.inl rfl)) (callsNamed_of_meets hcls (.inr (.inl rfl)))
        (callsNamed_of_meets hpool (.inr (.inr rfl))) (callsNamed_of_meets hsize (.inl rfl)),
      appends_of_meets happend⟩
  | className =>
    obtain ⟨load, two, element, _, rfl, htakes, h₁⟩ := takesElement_of_meets h
    obtain ⟨getter, _, hgetter, h₂, rfl⟩ := List.forall₂_cons_left_iff.1 h₁
    obtain ⟨append, _, happend, h₃, rfl⟩ := List.forall₂_cons_left_iff.1 h₂
    obtain rfl := List.forall₂_nil_left_iff.1 h₃
    exact ⟨[load, two, element, getter], append, rfl,
      .className htakes (callsNamed_of_meets hgetter (.inl rfl)), appends_of_meets happend⟩
  | methodName =>
    obtain ⟨load, two, element, _, rfl, htakes, h₁⟩ := takesElement_of_meets h
    obtain ⟨getter, _, hgetter, h₂, rfl⟩ := List.forall₂_cons_left_iff.1 h₁
    obtain ⟨append, _, happend, h₃, rfl⟩ := List.forall₂_cons_left_iff.1 h₂
    obtain rfl := List.forall₂_nil_left_iff.1 h₃
    exact ⟨[load, two, element, getter], append, rfl,
      .methodName htakes (callsNamed_of_meets hgetter (.inl rfl)), appends_of_meets happend⟩

/-- The template of a check is that of the query that it is named after. -/
theorem template_of_queryNamed? {t : Template} {q : Query} (ht : t ∈ protectionTemplates)
    (hq : queryNamed? t.name = some q) : t = q.template := by
  obtain ⟨q', -, rfl⟩ := List.mem_map.1 ht
  have hname : ∀ q' : Query, queryNamed? q'.template.name = some q' := by
    intro q'
    cases q' <;> decide
  obtain rfl := Option.some.inj ((hname q').symm.trans hq)
  rfl

end Isolation

end Cleartext
