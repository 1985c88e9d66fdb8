import Cleartext.Proofs.Isolation.Windows
import Cleartext.Proofs.Machine.Execution
import Cleartext.Proofs.Machine.Inquiries

/-!
# What a check comes to see

A check asks for something about the caller and appends the answer to a builder.  This
module follows the machine through the instructions of a check, and through those that
take their place.
-/

namespace Cleartext

namespace Machine

/-! ## States with more on the stack -/

/-- A routine has gone on in the same frame: some values have been pushed, and nothing
that was there before is different. -/
structure State.Over (s : State) (values : Stack) (s' : State) : Prop where
  frame : s'.frame = { s.frame with stack := values ++ s.frame.stack, pc := s'.frame.pc }
  grown : s.progress.world.Grown s'.progress.world

namespace State.Over

variable {plan : Plan} {s s₁ s₂ : State} {values args : Stack} {v : Value}

theorem refl (s : State) : s.Over [] s := ⟨rfl, .refl _⟩

theorem stack (h : s.Over values s₁) : s₁.frame.stack = values ++ s.frame.stack := by
  rw [h.frame]

theorem locals (h : s.Over values s₁) : s₁.frame.locals = s.frame.locals := by
  rw [h.frame]

/-- Values are taken from the stack, and another one is pushed. -/
theorem next (h : s.Over (args ++ values) s₁)
    (hframe : s₂.frame =
      { s₁.frame with stack := v :: (values ++ s.frame.stack), pc := s₂.frame.pc })
    (hgrown : s₁.progress.world.Grown s₂.progress.world) : s.Over (v :: values) s₂ := by
  refine ⟨?_, h.grown.trans hgrown⟩
  rw [hframe, h.frame]
  rfl

end State.Over

namespace Plan

variable {plan : Plan} {s s₁ s₂ : State} {values : Stack} {ins : Instruction}

theorem Completes.load {slot : UInt16} (h : plan.Completes s₁ ins s₂)
    (hover : s.Over values s₁)
    (hslot : ins.op.expand?.getD (ins.op, ins.operand.local_) = (.aload, slot)) :
    ∃ v, s.frame.locals[slot.toNat]? = some v ∧ s.Over (v :: values) s₂ := by
  obtain ⟨pc, f, hrun, hframe, -⟩ := h.frame
  obtain ⟨v, hv, rfl, hworld, -⟩ := (Step.run_load_ok hslot).1 hrun
  rw [hover.locals] at hv
  refine ⟨v, hv, @State.Over.next _ _ _ _ [] _ hover ?_ (hworld ▸ .refl _)⟩
  rw [hframe, hover.stack]

theorem Completes.pushedInt {n : Int32} {p : Pool} (h : plan.Completes s₁ ins s₂)
    (hover : s.Over values s₁) (hpool : plan.program.cf.pool.Extends p)
    (hpush : ins.pushedInt? (some p) = some n) : s.Over (.int n :: values) s₂ := by
  obtain ⟨pc, f, hrun, hframe, -⟩ := h.frame
  have hpush := Step.pushedInt?_of_extends hpool hpush hrun
  obtain ⟨rfl, hworld, -⟩ := (Step.run_pushedInt_ok hpush).1 hrun
  refine @State.Over.next _ _ _ _ [] _ hover ?_ (hworld ▸ .refl _)
  rw [hframe, hover.stack]

theorem Completes.loadElement {i : Int32} {id : Nat} {component : String}
    {elements : Array Value} (h : plan.Completes s₁ ins s₂)
    (hover : s.Over (.int i :: .ref id :: values) s₁) (hop : ins.op = .aaload)
    (harray : s.progress.world.heap[id]? = some (.array component elements)) :
    ∃ v, elements[i.toInt.toNat]? = some v ∧ s.Over (v :: values) s₂ := by
  obtain ⟨pc, f, hrun, hframe, -⟩ := h.frame
  obtain ⟨i', id', rest, v, component', elements', hstack, harray', hv, rfl, hworld, -⟩ :=
    Step.run_loadElement_ok hop hrun
  rw [hover.stack] at hstack
  obtain ⟨hi, hstack⟩ := List.cons.inj hstack
  obtain ⟨hid, rfl⟩ := List.cons.inj hstack
  obtain rfl := Value.int.inj hi
  obtain rfl := Value.ref.inj hid
  rw [hover.grown.heap harray] at harray'
  obtain ⟨-, rfl⟩ := Object.array.inj (Option.some.inj harray')
  refine ⟨v, hv, @State.Over.next _ _ _ _ [_, _] _ hover ?_ (hworld ▸ .refl _)⟩
  rw [hframe]
  rfl

end Plan

end Machine

namespace Machine.Library

/-- The number of parameters of a method that a routine asks its caller with. -/
def arity (name : String) : Nat :=
  if name = "forName" || name = "getConstantPool" then 1 else 0

theorem Inquiry.parses {name text : String} {m : LibraryMethod} (h : Inquiry name text m)
    (hname : name ≠ "append") : ∃ params result,
      Descriptor.parse text = .ok ⟨params, result⟩ ∧ result ≠ "V" ∧ params.length = arity name := by
  have hparse {text : String} {params : List String} {result : String}
      (h : Descriptor.parse text = .ok ⟨params, result⟩) (hresult : result ≠ "V")
      (hlength : params.length = arity name) : ∃ params result,
        Descriptor.parse text = .ok ⟨params, result⟩ ∧ result ≠ "V" ∧
          params.length = arity name := ⟨params, result, h, hresult, hlength⟩
  cases h with
  | className => exact @hparse _ [] "Ljava/lang/String;" rfl (by decide) (by decide)
  | methodName => exact @hparse _ [] "Ljava/lang/String;" rfl (by decide) (by decide)
  | forName =>
    exact @hparse _ ["Ljava/lang/String;"] "Ljava/lang/Class;" rfl (by decide) (by decide)
  | access hp =>
    simp only [poolPackages, List.mem_cons, List.not_mem_nil, or_false] at hp
    rcases hp with rfl | rfl | rfl
    · exact @hparse _ [] "Lsun/misc/JavaLangAccess;" rfl (by decide) (by decide)
    · exact @hparse _ [] "Ljdk/internal/misc/JavaLangAccess;" rfl (by decide) (by decide)
    · exact @hparse _ [] "Ljdk/internal/access/JavaLangAccess;" rfl (by decide) (by decide)
  | pool hp =>
    simp only [poolPackages, List.mem_cons, List.not_mem_nil, or_false] at hp
    rcases hp with rfl | rfl | rfl
    · exact @hparse _ ["Ljava/lang/Class;"] "Lsun/reflect/ConstantPool;" rfl (by decide) (by decide)
    · exact @hparse _ ["Ljava/lang/Class;"] "Ljdk/internal/reflect/ConstantPool;" rfl (by decide)
        (by decide)
    · exact @hparse _ ["Ljava/lang/Class;"] "Ljdk/internal/reflect/ConstantPool;" rfl (by decide)
        (by decide)
  | size => exact @hparse _ [] "I" rfl (by decide) (by decide)
  | append => exact absurd rfl hname

variable {name text : String} {m : LibraryMethod}

theorem Inquiry.eq_className (h : Inquiry name text m) (hname : name = "getClassName") :
    m = (fun args => do newText (externalName (← stackFrame (← arg args 0)).cls)) := by
  cases h with
  | className => rfl
  | _ => exact absurd hname (by decide)

theorem Inquiry.eq_methodName (h : Inquiry name text m) (hname : name = "getMethodName") :
    m = (fun args => do newText (← stackFrame (← arg args 0)).method) := by
  cases h with
  | methodName => rfl
  | _ => exact absurd hname (by decide)

theorem Inquiry.eq_poolSize (h : Inquiry name text m) (hname : name = "getSize") :
    m = poolSize := by
  cases h with
  | size => rfl
  | _ => exact absurd hname (by decide)

end Machine.Library

namespace Isolation

open Machine

variable {plan : Plan} {caller : Identity} {s s₁ s₂ : State} {values : Stack} {ins : Instruction}
  {p : Pool}

/-! ## Calls -/

/-- A call of one of the methods that a routine asks its caller with finds one of the list. -/
theorem CallsNamed.completes {op : Opcode} {name : String} (hcall : CallsNamed p op ins name)
    (hop : op = .invokevirtual ∨ op = .invokestatic ∨ op = .invokeinterface)
    (hname : name ∈ Library.inquiries) (hpool : plan.program.cf.pool.Extends p)
    (h : plan.Completes s₁ ins s₂) :
    ∃ text descriptor args rest m v, Library.Inquiry name text m ∧
      Descriptor.parse text = .ok descriptor ∧
      Stack.takeValues (descriptor.params.length + if op = .invokestatic then 0 else 1)
        s₁.frame.stack = .ok (args, rest) ∧
      m args (plan.setting s₁.frame) s₁.progress.world = (.ok v, s₂.progress.world) ∧
      s₂.frame = { s₁.frame with
        stack := if descriptor.result ≠ "V" then v :: rest else rest, pc := s₂.frame.pc } := by
  obtain ⟨pc, f, hrun, hframe, -⟩ := h.frame
  obtain ⟨rfl, r, hr, rfl⟩ := hcall
  obtain ⟨ref, descriptor, args, rest, m, v, hcalls, hm, rfl, rfl⟩ := (Step.run_invoke_ok hop).1 hrun
  obtain rfl := Except.ok.inj (hr.symm.trans (hpool.ref hcalls.names))
  obtain ⟨owner, -, -, hfinds⟩ := hcalls.finds
  refine ⟨_, descriptor, args, rest, m, v, Library.method?_inquiry hname hfinds, hcalls.parses, ?_,
    hm, ?_⟩
  · simpa using hcalls.takes
  · rw [hframe]

/-! ## What is found of the caller -/

/-- A value is an array of which the third element is the caller. -/
def HoldsCaller (caller : Identity) (w : World) (v : Value) : Prop :=
  ∃ id component elements e cls fields, v = .ref id ∧
    w.heap[id]? = some (.array component elements) ∧ elements[2]? = some (.ref e) ∧
    w.heap[e]? = some (.instance cls fields (.frame ⟨caller.cls, caller.method⟩))

/-- How the answer to a query is shown when it is appended. -/
def Query.shown : Query → String
  | .poolSize => "I"
  | .className | .methodName => ""

/-- What a query finds of a caller. -/
def Query.units (caller : Identity) : Query → Units
  | .poolSize => Units.ofText (toString (Int32.ofInt caller.poolSize).toInt)
  | .className => Units.ofText (externalName caller.cls)
  | .methodName => Units.ofText caller.method

/-- What a check needs to find: whatever local variable it loads holds the caller. -/
def Finds (caller : Identity) (window : List Instruction) (s : State) : Prop :=
  ∀ ins ∈ window, ∀ slot, ins.op.expand?.getD (ins.op, ins.operand.local_) = (.aload, slot) →
    ∃ v, s.frame.locals[slot.toNat]? = some v ∧ HoldsCaller caller s.progress.world v

theorem Finds.mono {window part : List Instruction} (h : Finds caller window s)
    (hpart : part ⊆ window) : Finds caller part s := fun ins hins => h ins (hpart hins)

/-- Taking the element pushes the caller. -/
theorem TakesElement.passes {load two element : Instruction} {s' : State}
    (htakes : TakesElement p load two element) (hpool : plan.program.cf.pool.Extends p)
    (hover : s.Over values s₁) (hfinds : Finds caller [load] s)
    (h : plan.Passes [load, two, element] s₁ s') :
    ∃ e cls fields, s.Over (.ref e :: values) s' ∧
      s'.progress.world.heap[e]? =
        some (.instance cls fields (.frame ⟨caller.cls, caller.method⟩)) := by
  obtain ⟨s₂, hload, s₃, htwo, s₄, helement, rfl⟩ := h
  obtain ⟨slot, hslot⟩ := htakes.load
  obtain ⟨v, hv, hover⟩ := hload.load hover hslot
  obtain ⟨v', hv', hcaller⟩ := hfinds load (by simp) slot hslot
  obtain rfl := Option.some.inj (hv.symm.trans hv')
  obtain ⟨id, component, elements, e, cls, fields, rfl, harray, he, hinstance⟩ := hcaller
  have hover := htwo.pushedInt hover hpool htakes.two
  obtain ⟨x, hx, hover⟩ := helement.loadElement hover htakes.element harray
  obtain rfl : .ref e = x := Option.some.inj (he.symm.trans hx)
  exact ⟨e, cls, fields, hover, hover.grown.heap hinstance⟩

/-- A call of a method of the list takes its arguments and pushes its answer. -/
theorem CallsNamed.pushes {op : Opcode} {name : String} {s' : State} (args : List Value)
    (hcall : CallsNamed p op ins name)
    (hop : op = .invokevirtual ∨ op = .invokestatic ∨ op = .invokeinterface)
    (hname : name ∈ Library.inquiries) (happend : name ≠ "append")
    (hpool : plan.program.cf.pool.Extends p)
    (hargs : Library.arity name + (if op = .invokestatic then 0 else 1) = args.length)
    (hover : s.Over (args.reverse ++ values) s₁) (h : plan.Completes s₁ ins s') :
    ∃ text m x, Library.Inquiry name text m ∧ s.Over (x :: values) s' ∧
      m args (plan.setting s₁.frame) s₁.progress.world = (.ok x, s'.progress.world) := by
  obtain ⟨text, descriptor, args', rest, m, x, hinquiry, hparse, htakes, hm, hframe⟩ :=
    hcall.completes hop hname hpool h
  obtain ⟨params, result, hparse', hresult, harity⟩ := hinquiry.parses happend
  obtain rfl := Except.ok.inj (hparse'.symm.trans hparse)
  have htaken : Stack.takeValues args.length s₁.frame.stack = .ok (args, values ++ s.frame.stack) := by
    rw [hover.stack, List.append_assoc]
    simp [Stack.takeValues]
  rw [harity, hargs, htaken] at htakes
  obtain ⟨rfl, rfl⟩ := Prod.mk.inj (Except.ok.inj htakes)
  rw [if_pos hresult] at hframe
  exact ⟨text, m, x, hinquiry, hover.next hframe (hinquiry.grown happend hm), hm⟩

theorem Asks.two_le {q : Query} {front : List Instruction} (h : Asks p q front) :
    2 ≤ front.length := by
  cases h <;> simp

/-- What the instructions of a query push is what it finds of the caller. -/
theorem Asks.passes {q : Query} {front : List Instruction} {s' : State} (hasks : Asks p q front)
    (hpool : plan.program.cf.pool.Extends p)
    (hsize : plan.config.poolSize = caller.poolSize) (hfinds : Finds caller front s)
    (h : plan.Passes front s s') :
    ∃ v, s.Over [v] s' ∧ Library.Shows s'.progress.world v q.shown (q.units caller) := by
  cases hasks with
  | @className load two element getter htakes hgetter =>
    obtain ⟨s₁, hfront, s₂, hgets, rfl⟩ :=
      (@Plan.passes_append plan s s' [load, two, element] [getter]).1 h
    obtain ⟨e, cls, fields, hover, he⟩ := htakes.passes hpool (.refl s) (hfinds.mono (by simp)) hfront
    obtain ⟨text, m, x, hinquiry, hover, hm⟩ := hgetter.pushes [.ref e] (.inl rfl)
      (by decide) (by decide) hpool rfl hover hgets
    obtain rfl := hinquiry.eq_className rfl
    obtain ⟨id, rfl, -, hid⟩ := Library.elementText_ok he hm
    exact ⟨_, hover, Library.shows_string hid _⟩
  | @methodName load two element getter htakes hgetter =>
    obtain ⟨s₁, hfront, s₂, hgets, rfl⟩ :=
      (@Plan.passes_append plan s s' [load, two, element] [getter]).1 h
    obtain ⟨e, cls, fields, hover, he⟩ := htakes.passes hpool (.refl s) (hfinds.mono (by simp)) hfront
    obtain ⟨text, m, x, hinquiry, hover, hm⟩ := hgetter.pushes [.ref e] (.inl rfl)
      (by decide) (by decide) hpool rfl hover hgets
    obtain rfl := hinquiry.eq_methodName rfl
    obtain ⟨id, rfl, -, hid⟩ := Library.elementText_ok he hm
    exact ⟨_, hover, Library.shows_string hid _⟩
  | @poolSize access load two element getter cls pool size haccess htakes hgetter hcls hgetPool
      hgetSize =>
    obtain ⟨s₁, hopens, hrest⟩ := h
    obtain ⟨s₂, hfront, s₃, hgets, s₄, hnames, s₅, hreads, s₆, hcounts, rfl⟩ :=
      (@Plan.passes_append plan s₁ s' [load, two, element] [getter, cls, pool, size]).1 hrest
    have hzero : (Library.arity "getJavaLangAccess" +
        if Opcode.invokestatic = .invokestatic then 0 else 1) = ([] : List Value).length := rfl
    obtain ⟨-, -, access', -, hover, -⟩ := haccess.pushes [] (.inr (.inl rfl)) (by decide)
      (by decide) hpool hzero (.refl s) hopens
    obtain ⟨e, -, -, hover, -⟩ := htakes.passes hpool hover (hfinds.mono (by simp)) hfront
    obtain ⟨-, -, name, -, hover, -⟩ := hgetter.pushes [.ref e] (.inl rfl) (by decide) (by decide)
      hpool rfl hover hgets
    obtain ⟨-, -, mirror, -, hover, -⟩ := hcls.pushes [name] (.inr (.inl rfl)) (by decide)
      (by decide) hpool rfl hover hnames
    obtain ⟨-, -, pool', -, hover, -⟩ := hgetPool.pushes [access', mirror] (.inr (.inr rfl))
      (by decide) (by decide) hpool rfl hover hreads
    obtain ⟨text, m, n, hinquiry, hover, hm⟩ := hgetSize.pushes [pool'] (.inl rfl) (by decide)
      (by decide) hpool rfl hover hcounts
    obtain rfl := hinquiry.eq_poolSize rfl
    obtain ⟨rfl, -⟩ := Library.poolSize_ok hm
    refine ⟨_, hover, ?_⟩
    show Library.Shows _ (.int (Int32.ofInt plan.config.poolSize)) "I" _
    rw [hsize]
    exact Library.shows_int _ _

/-! ## Appending -/

theorem append?_type (q : Query) : Library.append? q.type = some (Library.append q.shown) := by
  cases q <;> rfl

theorem parse_appendDescriptors {q : Query} {descriptor : String}
    (h : descriptor ∈ appendDescriptors q.type) :
    ∃ result, Descriptor.parse descriptor = .ok ⟨[q.type], result⟩ ∧ result ≠ "V" := by
  have hresults : "Ljava/lang/StringBuilder;" ≠ "V" ∧ "Ljava/lang/StringBuffer;" ≠ "V" := by decide
  simp only [appendDescriptors, List.mem_cons, List.not_mem_nil, or_false] at h
  cases q <;> rcases h with rfl | rfl
  all_goals first | exact ⟨_, rfl, hresults.1⟩ | exact ⟨_, rfl, hresults.2⟩

/-- A builder that is asked to append a value of a type does so. -/
theorem Inquiry.eq_append {q : Query} {name descriptor : String} {m : LibraryMethod}
    (h : Library.Inquiry name descriptor m) (hname : name = "append")
    (hdescriptor : descriptor ∈ appendDescriptors q.type) : m = Library.append q.shown := by
  cases h with
  | append hparams hbuilder hm =>
    have htype : ∀ q : Query, ∀ descriptor ∈ appendDescriptors q.type,
        ∀ builder ∈ ["java/lang/StringBuilder", "java/lang/StringBuffer"],
        ∀ params ∈ Library.parameters? descriptor ("L" ++ builder ++ ";"), params = q.type := by
      intro q
      cases q <;> decide +kernel
    rw [htype q _ hdescriptor _ hbuilder _ hparams, append?_type] at hm
    exact (Option.some.inj hm).symm
  | _ => exact absurd hname (by decide)

/-- A call appends a value to a builder of a class: no method of the program is in the way. -/
structure AppendsTo (program : Program) (cls : String) (q : Query) (ins : Instruction)
    (ref : Ref) : Prop where
  op : ins.op = .invokevirtual
  names : program.cf.pool.ref ins.operand.index = .ok ref
  descriptor : ref.descriptor ∈ appendDescriptors q.type
  foreign : cls = program.name → program.routine? ref.name ref.descriptor = none
  finds : Library.method? program.lineage cls ref = some (Library.append q.shown)

section

variable {q : Query} {cls : String} {fields : Option (List (String × Value))}
  {id : Nat} {v : Value} {units text : Units} {ref : Ref} {σ : Setting} {f : Frame} {w : World}
  {rest : Stack}

theorem AppendsTo.run (h : AppendsTo σ.program cls q ins ref)
    (hstack : f.stack = v :: .ref id :: rest)
    (hid : w.heap[id]? = some (.instance cls fields (.builder units)))
    (hshows : Library.Shows w v q.shown text) :
    Step.run ins σ f w = ((.ok (.next ins.next), { f with stack := .ref id :: rest }),
      { w with heap := w.heap.modify id (Library.extended text) }) := by
  obtain ⟨result, hparse, hresult⟩ := parse_appendDescriptors h.descriptor
  have hop := h.op
  refine (Step.run_invoke_ok (.inl hop)).2 ⟨ref, ⟨[q.type], result⟩, [.ref id, v], rest, _, .ref id,
    ⟨h.names, hparse, ?_, ?_, cls, ?_, h.foreign, h.finds⟩, Library.append_ok hid hshows, rfl, ?_⟩
  · rw [hstack, hop]
    simp [Stack.takeValues]
  · simp
  · rw [hop]
    exact (World.classOf_instance hid).symm
  · rw [if_pos hresult]

/-- An append that completes finds its method in the library. -/
theorem Appends.completes (happend : Appends p q.type ins)
    (hpool : plan.program.cf.pool.Extends p) (hstack : s₁.frame.stack = v :: .ref id :: rest)
    (hid : s₁.progress.world.heap[id]? = some (.instance cls fields (.builder units)))
    (h : plan.Completes s₁ ins s₂) : ∃ ref, AppendsTo plan.program cls q ins ref := by
  obtain ⟨pc, f, hrun, hframe, -⟩ := h.frame
  obtain ⟨hop, r, hr, hname, hdescriptor⟩ := happend
  obtain ⟨ref, descriptor, args, rest', m, x, hcalls, hm, -, -⟩ :=
    (Step.run_invoke_ok (.inl hop)).1 hrun
  obtain rfl := Except.ok.inj (hr.symm.trans (hpool.ref hcalls.names))
  obtain ⟨result, hparse, hresult⟩ := parse_appendDescriptors hdescriptor
  obtain rfl := Except.ok.inj (hparse.symm.trans hcalls.parses)
  have htakes := hcalls.takes
  rw [hstack, hop] at htakes
  have htaken : Stack.takeValues 2 (v :: .ref id :: rest) = .ok ([.ref id, v], rest) := by
    simp [Stack.takeValues]
  obtain ⟨rfl, rfl⟩ := Prod.mk.inj (Except.ok.inj (htaken.symm.trans htakes))
  obtain ⟨owner, howner, hforeign, hfinds⟩ := hcalls.finds
  rw [hop] at howner
  obtain rfl : owner = cls := howner.trans (World.classOf_instance hid)
  have hinquiry := Library.method?_inquiry (by rw [hname]; decide) hfinds
  obtain rfl := Inquiry.eq_append hinquiry hname hdescriptor
  exact ⟨r, hop, hcalls.names, hdescriptor, hforeign, hfinds⟩

end

/-! ## What takes the place of a check -/

/-- An instruction pushes a value that shows a text. -/
def PushesShown (program : Program) (ins : Instruction) (type : String) (text : Units) : Prop :=
  ∀ (σ : Setting) (f : Frame) (w : World), σ.program = program →
    ∃ v w', Step.run ins σ f w =
        ((.ok (.next ins.next), { f with stack := v :: f.stack }), w') ∧
      w.Grown w' ∧ Library.Shows w' v type text

/-- A frame is at an instruction. -/
def Reaches (f : Frame) (ins : Instruction) : Prop :=
  Plan.isOutside f = false ∧ Plan.fetch f = .ok ins

/-- Two states that interpreted code finds the same things in: the operand stack, the local
variables, the static fields, and the objects that were there when there were `n`. -/
structure SameView (n : Nat) (s s' : State) : Prop where
  stack : s'.frame.stack = s.frame.stack
  locals : s'.frame.locals = s.frame.locals
  statics : s'.progress.world.statics = s.progress.world.statics
  heap : ∀ id < n, s'.progress.world.heap[id]? = s.progress.world.heap[id]?

section

variable {q : Query} {front : List Instruction} {append push' append' : Instruction}
  {plan' : Plan} {routine' : Routine} {cls : String} {fields : Option (List (String × Value))}
  {id : Nat} {rest : Stack} {units : Units} {s' : State}

/-- The start of the code that takes the place of a check. -/
def entering (s : State) (routine : Routine) (pc : Nat) : State :=
  { s with frame := { s.frame with routine, pc } }

/-- What takes the place of a check ends where the check does, as far as interpreted code can
tell. -/
theorem passes_in_place (hasks : Asks p q front) (happend : Appends p q.type append)
    (hpool : plan.program.cf.pool.Extends p) (hsize : plan.config.poolSize = caller.poolSize)
    (hfinds : Finds caller (front ++ [append]) s) (hstack : s.frame.stack = .ref id :: rest)
    (hid : s.progress.world.heap[id]? = some (.instance cls fields (.builder units)))
    (h : plan.Passes (front ++ [append]) s s')
    (hcancelled : plan'.cancelled = plan.cancelled)
    (hpush' : PushesShown plan'.program push' q.shown (q.units caller))
    (happend' : ∀ ref, AppendsTo plan.program cls q append ref →
      AppendsTo plan'.program cls q append' ref)
    (hfirst : ∀ f : Frame, f.routine = routine' → f.pc = push'.offset → Reaches f push')
    (hsecond : ∀ f : Frame, f.routine = routine' → f.pc = push'.next → Reaches f append') :
    ∃ t, plan'.Passes [push', append'] (entering s routine' push'.offset) t ∧
      SameView s.progress.world.heap.size s' t ∧ t.frame.pc = append'.next := by
  obtain ⟨s₁, hfront, _, hlast, rfl⟩ := Plan.passes_append.1 h
  obtain ⟨v, hover, hshows⟩ := hasks.passes hpool hsize (hfinds.mono (by simp)) hfront
  have hstack₁ : s₁.frame.stack = v :: .ref id :: rest := by
    rw [hover.stack, hstack]
    rfl
  obtain ⟨ref, hto⟩ := happend.completes hpool hstack₁ (hover.grown.heap hid) hlast
  -- Where the check ends.
  obtain ⟨pc, f, hrun, hframe, -⟩ := hlast.frame
  rw [AppendsTo.run hto hstack₁ (hover.grown.heap hid) hshows] at hrun
  obtain ⟨hf, hworld⟩ := Prod.mk.inj hrun
  obtain ⟨-, rfl⟩ := Prod.mk.inj hf
  -- Where the push and the append lead to.
  obtain ⟨hdue, hdue'⟩ := h.isDue_eq_false (by simp; have := hasks.two_le; omega)
  rw [Plan.isDue, ← hcancelled] at hdue
  rw [← hcancelled] at hdue'
  let t := entering s routine' push'.offset
  obtain ⟨v', w₁, hrun₁, hgrown, hshows'⟩ := hpush' (plan'.setting t.frame) t.frame
    s.progress.world rfl
  obtain ⟨hinside, hfetch⟩ := hfirst t.frame rfl rfl
  have hcompletes₁ := Plan.completes_iff.2 ⟨hinside, hdue, hfetch, _, _, _, hrun₁, rfl⟩
  let t₁ := plan'.after t push' push'.next { t.frame with stack := v' :: t.frame.stack } w₁
  have hrun₂ := (happend' ref hto).run (σ := plan'.setting t₁.frame) (f := t₁.frame)
    (show v' :: s.frame.stack = _ by rw [hstack]) (hgrown.heap hid) hshows'
  obtain ⟨hinside', hfetch'⟩ := hsecond t₁.frame rfl rfl
  have hdue₁ : plan'.isDue t₁ = false := by
    have hsteps : t₁.progress.steps = s.progress.steps + 1 := Plan.charged_steps ..
    rw [Plan.isDue, hsteps]
    exact hdue'
  have hcompletes₂ := Plan.completes_iff.2 ⟨hinside', hdue₁, hfetch', _, _, _, hrun₂, rfl⟩
  refine ⟨_, ⟨_, hcompletes₁, _, hcompletes₂, rfl⟩, ⟨?_, ?_, ?_, ?_⟩, rfl⟩
  · rw [hframe]
    rfl
  · rw [hframe]
    exact hover.locals.symm
  · rw [← hworld]
    exact hgrown.statics.trans hover.grown.statics.symm
  · intro id' hid'
    rw [← hworld]
    exact hgrown.getElem?_modify hover.grown _ _ hid'

end

end Isolation

end Cleartext
