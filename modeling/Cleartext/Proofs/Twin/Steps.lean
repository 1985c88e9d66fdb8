import Cleartext.Proofs.Twin.Calls
import Mathlib.Data.FinEnum

/-!
# An instruction in both runs

`InstructionsLike` is what an instruction of the class and its copy in the smaller one have
in common: they differ at most in the index, which stands for the same, and what they name
of the class itself is there in both.  Such instructions do the same (`run_twin`), and the
method goes on behind the instruction, where it jumps, or where a subroutine returns to.
-/

namespace Cleartext

/-! ## Another index -/

namespace Instruction

variable (ins : Instruction) (x : UInt16)

theorem operand_withIndex {β : Type} (read : {s : Shape} → Operand s → β)
    (hread : ∀ {s : Shape} (o : Operand s), read (withIndex.set x o) = read o) :
    read (ins.withIndex x).operand = read ins.operand :=
  hread ins.operand

theorem local_withIndex : (ins.withIndex x).operand.local_ = ins.operand.local_ :=
  ins.operand_withIndex x Operand.local_ fun o => by cases o <;> rfl

theorem immediate_withIndex : (ins.withIndex x).operand.immediate = ins.operand.immediate :=
  ins.operand_withIndex x Operand.immediate fun o => by cases o <;> rfl

theorem distance_withIndex : (ins.withIndex x).operand.distance = ins.operand.distance :=
  ins.operand_withIndex x Operand.distance fun o => by cases o <;> rfl

theorem select_withIndex (key : Int32) :
    (ins.withIndex x).operand.select key = ins.operand.select key :=
  ins.operand_withIndex x (Operand.select key) fun o => by cases o <;> rfl

theorem arrayCode_withIndex : (ins.withIndex x).operand.arrayCode = ins.operand.arrayCode :=
  ins.operand_withIndex x Operand.arrayCode fun o => by cases o <;> rfl

theorem dimensionCount_withIndex :
    (ins.withIndex x).operand.dimensionCount = ins.operand.dimensionCount :=
  ins.operand_withIndex x Operand.dimensionCount fun o => by cases o <;> rfl

theorem next_withIndex : (ins.withIndex x).next = ins.next := by
  have hsize : (ins.withIndex x).operand.sizeAt ins.wide ins.offset =
      ins.operand.sizeAt ins.wide ins.offset :=
    ins.operand_withIndex x (fun o => o.sizeAt ins.wide ins.offset) fun o => by cases o <;> rfl
  exact congrArg (ins.offset + ·) hsize

end Instruction

namespace Machine

/-- Where a method goes on after an instruction: behind it, at its own offset, where it jumps,
or where a subroutine returns to. -/
def Reaches (ins : Instruction) (f : Numbering) (pc : Int) : Prop :=
  pc = ins.next ∨ pc = ins.offset ∨ pc ∈ ins.targets ∨
    ins.op = .ret ∧ ∃ n : Nat, pc = n ∧ f.returns n

/-- An instruction and its copy, which has an index that stands for the same.  What the
instruction names of the class itself is there in both programs. -/
structure InstructionsLike (p p' : Program) (f : Numbering) (ins ins' : Instruction) : Prop where
  same : ∃ x, ins' = ins.withIndex x
  index : ins.op.usesPool = true →
    p.cf.pool.Stands p'.cf.pool ins.operand.index ins'.operand.index
  site : ins.op = .invokedynamic → SitesLike p.cf p'.cf ins.operand.index ins'.operand.index
  fields : ins.op.isWithin .getstatic .putfield = true → ∀ r,
    p.cf.pool.ref ins.operand.index = .ok r → r.owner = p.name → f.used r.name
  calls : ins.op.isWithin .invokevirtual .invokeinterface = true → ∀ r,
    p.cf.pool.ref ins.operand.index = .ok r →
    (ins.op = .invokevirtual || ins.op = .invokeinterface) = true ∨ r.owner = p.name →
    Option.Rel (SameRoutine p p') (p.routine? r.name r.descriptor) (p'.routine? r.name r.descriptor)
  returns : ins.op = .jsr ∨ ins.op = .jsrW → f.returns ins.next

/-- Whether an opcode loads or stores a local variable. -/
def isVariable (op : Opcode) : Bool := op.isWithin .iload .aload || op.isWithin .istore .astore

/-- A short form of a load or a store stands for a general one. -/
theorem expanded_eq {ins : Instruction} {op : Opcode} {slot : UInt16}
    (h : ins.op.expand?.getD (ins.op, ins.operand.local_) = (op, slot))
    (hop : isVariable op = false) : op = ins.op := by
  have hgeneral : ∀ b : UInt8, ∀ e ∈ Opcode.expand? ⟨b⟩, isVariable e.1 = true := by
    decide +kernel
  cases hexpand : ins.op.expand? with
  | none =>
    rw [hexpand] at h
    exact (congrArg Prod.fst h).symm
  | some e =>
    rw [hexpand] at h
    obtain rfl : e = (op, slot) := h
    exact absurd (hgeneral ins.op.code _ hexpand) (by simp [hop])

/-- The opcodes that take a constant of the pool. -/
theorem isWithin_ldc {op : Opcode} (h : op.isWithin .ldc .ldc2W = true) :
    op.usesPool = true ∧ isVariable op = false := by
  have hall : ∀ b : UInt8, Opcode.isWithin ⟨b⟩ .ldc .ldc2W = true →
      Opcode.usesPool ⟨b⟩ = true ∧ isVariable ⟨b⟩ = false := by
    decide +kernel
  exact hall op.code h

/-- The opcodes that call a method by a reference. -/
theorem isWithin_invoke {op : Opcode} (h : op.isWithin .invokevirtual .invokeinterface = true) :
    op.usesPool = true ∧ isVariable op = false := by
  have hall : ∀ b : UInt8, Opcode.isWithin ⟨b⟩ .invokevirtual .invokeinterface = true →
      Opcode.usesPool ⟨b⟩ = true ∧ isVariable ⟨b⟩ = false := by
    decide +kernel
  exact hall op.code h

section

variable (ins : Instruction) (f : Numbering)

theorem reaches_of_mem {d : Int32} (h : d ∈ ins.operand.distances) :
    Reaches ins f (ins.offset + d.toInt) :=
  .inr (.inr (.inl (List.mem_map.2 ⟨d, h, rfl⟩)))

theorem reaches_zero : Reaches ins f (ins.offset + (0 : Int32).toInt) :=
  .inr (.inl (Int.add_zero _))

theorem reaches_distance : Reaches ins f (ins.offset + ins.operand.distance.toInt) := by
  unfold Operand.distance
  cases hdistances : ins.operand.distances with
  | nil => exact reaches_zero ins f
  | cons d rest => exact reaches_of_mem ins f (by simp [hdistances])

/-- The distance by which a switch jumps is one of its own, or it does not jump. -/
theorem select_mem {s : Shape} (o : Operand s) (key : Int32) :
    o.select key ∈ o.distances ∨ o.select key = 0 := by
  cases o with
  | table otherwise low high targets =>
    show (if low ≤ key && key ≤ high then targets.getD (key.toInt - low.toInt).toNat 0 else otherwise) ∈
      otherwise :: targets ∨
      (if low ≤ key && key ≤ high then targets.getD (key.toInt - low.toInt).toNat 0 else otherwise) = 0
    split
    · rw [List.getD_eq_getElem?_getD]
      cases hfound : targets[(key.toInt - low.toInt).toNat]? with
      | none => exact .inr rfl
      | some d => exact .inl (List.mem_cons_of_mem _ (List.mem_of_getElem? hfound))
    · exact .inl List.mem_cons_self
  | lookup otherwise keys targets =>
    show ((keys.zip targets).lookup key).getD otherwise ∈ otherwise :: targets ∨
      ((keys.zip targets).lookup key).getD otherwise = 0
    cases hfound : (keys.zip targets).lookup key with
    | none => exact .inl List.mem_cons_self
    | some d =>
      obtain ⟨before, after, hsplit, -⟩ := List.lookup_eq_some_iff.1 hfound
      have hmem : (key, d) ∈ keys.zip targets := by simp [hsplit]
      exact .inl (List.mem_cons_of_mem _ (List.of_mem_zip hmem).2)
  | _ => exact .inr rfl

theorem reaches_select (key : Int32) : Reaches ins f (ins.offset + (ins.operand.select key).toInt) := by
  rcases select_mem ins.operand key with h | h
  · exact reaches_of_mem ins f h
  · rw [h]
    exact reaches_zero ins f

end

namespace Step

variable {f : Numbering} {p p' : Program} {α : Type} {A : Numbering → α → α → Prop} {v v' : Value}

theorem objects_twin {ins ins' : Instruction} (h : InstructionsLike p p' f ins ins')
    (hname : p'.name = p.name) :
    StepTwin p p' (fun _ _ _ => True) f (objects ins) (objects ins') := by
  obtain ⟨x, rfl⟩ := h.same
  have hindex := h.index
  have hsite := h.site
  have hfields := h.fields
  unfold objects
  dsimp only
  rw [ins.arrayCode_withIndex, ins.dimensionCount_withIndex]
  clear h
  generalize (ins.withIndex x).operand.index = i' at *
  generalize ins.operand.index = i at *
  generalize ins.operand.arrayCode = code
  generalize ins.operand.dimensionCount = count
  rw [show (ins.withIndex x).op = ins.op from rfl]
  generalize ins.op = op at *
  have hunit {s s' : Step Unit} (hs : StepStill p p' Eq f s s') :
      StepTwin p p' (fun _ _ _ => True) f s s' := hs.imp fun _ _ _ _ _ => trivial
  split
  · exact hunit (getStatic_twin (hindex rfl) hname (hfields rfl))
  · exact hunit (putStatic_twin (hindex rfl) hname (hfields rfl))
  · exact hunit (getField_twin (hindex rfl) hname (hfields rfl))
  · exact hunit (putField_twin (hindex rfl) hname (hfields rfl))
  · exact invokeDynamic_twin (hsite rfl)
  · exact (classAt_twin (hindex rfl)).bind_eq fun cls => push_answer (.ofRun (newInstance_twin cls))
  · exact newPrimitiveArray_twin code
  · exact newReferenceArray_twin (hindex rfl)
  · exact newMultiArray_twin (hindex rfl) count
  · exact hunit arrayLength_twin
  · exact hunit throwObject_twin
  · exact hunit (checkCast_twin (hindex rfl))
  · exact hunit (testInstance_twin (hindex rfl))
  · exact hunit useMonitor_twin
  · exact hunit useMonitor_twin
  · exact .unsupported

/-- Both runs go on behind the instruction. -/
theorem go_twin {goes : Numbering → Int → Prop} {next : Int} (hnext : ∀ g, goes g next)
    {s s' : Step Unit} (hs : StepTwin p p' (fun _ _ _ => True) f s s') :
    StepTwin p p' (Outcome.Like p p' goes) f (do s; return .next next) (do s'; return .next next) :=
  hs.bind fun g _ _ _ _ => .pure (.next (hnext g))

theorem if_twin {c : Prop} [Decidable c] {s s' t t' : Step α} (hs : c → StepTwin p p' A f s s')
    (ht : ¬ c → StepTwin p p' A f t t') :
    StepTwin p p' A f (if c then s else t) (if c then s' else t') := by
  split
  · exact hs ‹_›
  · exact ht ‹_›

/-- An instruction and its copy do the same. -/
theorem run_twin {ins ins' : Instruction} (h : InstructionsLike p p' f ins ins')
    (hname : p'.name = p.name) :
    StepTwin p p' (Outcome.Like p p' (Reaches ins)) f (run ins) (run ins') := by
  have hobjects := objects_twin h hname
  obtain ⟨x, rfl⟩ := h.same
  have hindex := h.index
  have hcalls := h.calls
  have hreturns := h.returns
  clear h
  have hnext (g : Numbering) : Reaches ins g ins.next := .inl rfl
  have hunit {s s' : Step Unit} (hs : StepStill p p' Eq f s s') :
      StepTwin p p' (fun _ _ _ => True) f s s' := hs.imp fun _ _ _ _ _ => trivial
  unfold run
  simp only [ins.local_withIndex, ins.immediate_withIndex, ins.distance_withIndex,
    ins.select_withIndex, ins.next_withIndex]
  generalize (ins.withIndex x).operand.index = i' at *
  rw [show (ins.withIndex x).op = ins.op from rfl, show (ins.withIndex x).offset = ins.offset from rfl]
  generalize hexpanded : ins.op.expand?.getD (ins.op, ins.operand.local_) = expanded
  obtain ⟨op, slot⟩ := expanded
  have hop := expanded_eq hexpanded
  dsimp only
  refine if_twin (fun _ => go_twin hnext (hunit (pushConstant_twin op))) fun _ => ?_
  refine if_twin (fun _ => go_twin hnext (hunit (push_twin (.int _)))) fun _ => ?_
  refine if_twin (fun hldc => ?_) fun _ => ?_
  · obtain ⟨huses, hvariable⟩ := isWithin_ldc hldc
    exact go_twin hnext (loadConstant_twin (hindex (hop hvariable ▸ huses)))
  refine if_twin (fun _ => go_twin hnext ?_) fun _ => ?_
  · exact hunit ((load_twin slot).bind fun _ _ hv => push_twin hv)
  refine if_twin (fun _ => go_twin hnext (hunit loadElement_twin)) fun _ => ?_
  refine if_twin (fun _ => go_twin hnext (hunit (storeLocal_twin op slot))) fun _ => ?_
  refine if_twin (fun _ => go_twin hnext (hunit storeElement_twin)) fun _ => ?_
  refine if_twin (fun _ => go_twin hnext (hunit (shuffle_twin op))) fun _ => ?_
  refine if_twin (fun _ => go_twin hnext (hunit (arithmetic_twin op))) fun _ => ?_
  refine if_twin (fun _ => go_twin hnext (hunit (increment_twin slot _))) fun _ => ?_
  refine if_twin (fun _ => go_twin hnext (hunit (convert_twin op))) fun _ => ?_
  refine if_twin (fun _ => go_twin hnext (hunit (compareNumbers_twin op))) fun _ => ?_
  -- The branches.
  refine if_twin (fun _ => (isTaken_twin op).bind_eq fun taken => ?_) fun _ => ?_
  · cases taken with
    | true => exact .pure (.next (reaches_distance ins f))
    | false => exact .pure (.next (hnext f))
  refine if_twin (fun _ => .pure (.next (reaches_distance ins f))) fun _ => ?_
  refine if_twin (fun hjsr => ?_) fun _ => ?_
  · have hvariable : isVariable op = false := by
      rcases Bool.or_eq_true_iff.1 hjsr with h | h <;> rw [of_decide_eq_true h] <;> rfl
    rw [hop hvariable] at hjsr
    exact (push_twin (.address (hreturns (by simpa using hjsr)))).bind_eq fun _ =>
      .pure (.next (reaches_distance ins f))
  refine if_twin (fun hret => (returnAddress_twin slot).bind fun pc pc' hpc => ?_) fun _ => ?_
  · obtain ⟨rfl, hpc⟩ := hpc
    exact .pure (.next (.inr (.inr (.inr ⟨hop (hret ▸ rfl) ▸ hret, hpc⟩))))
  refine if_twin (fun _ => popInt_twin.bind_eq fun key =>
    .pure (.next (reaches_select ins f key))) fun _ => ?_
  refine if_twin (fun _ => .pure (.finish .null)) fun _ => ?_
  refine if_twin (fun _ => pop_twin.bind fun _ _ hv => .pure (.finish hv)) fun _ => ?_
  -- The calls.
  refine if_twin (fun hcall => ?_) fun _ => go_twin hnext hobjects
  obtain ⟨huses, hvariable⟩ := isWithin_invoke hcall
  obtain rfl := hop hvariable
  exact invoke_twin (hindex huses) hname _ _ hnext (hcalls hcall)

end Step

end Machine

end Cleartext
