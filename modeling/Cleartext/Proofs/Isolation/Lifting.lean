import Cleartext.Proofs.Class.RoundTrip
import Cleartext.Proofs.Isolation.Copying
import Cleartext.Proofs.Isolation.Reaching
import Cleartext.Proofs.Text.Utf16

/-!
# Lifting keeps what a routine computes

The copy of a class that is made for a routine has what the routine reaches by its
references.  A run can come to more: a method of the class may be called on an object by a
reference to a superclass, a field may be found by its name alone, and a jump into the
middle of an instruction leads to code that nobody has looked at.  `SelfContained` says that
a class has nothing of this kind.  Then the copy and the class run side by side
(`program_like`), and the routine gives the same in both (`lift_faithful`).
-/

namespace Cleartext.Isolation

open Machine (Program Routine Config Emulation Numbering Both SameRoutine FieldLike FieldsLike
  BodyLike MethodLike Copies BootstrapLike SitesLike HasText Distinct InstructionsLike)

variable {cf cf' : ClassFile} {uses : Uses}

/-! ## What is asked of the class -/

/-- The body of a method that is kept, and its instructions. -/
def Kept (cf : ClassFile) (uses : Uses) (body : MethodBody) (code : List Instruction) : Prop :=
  ∃ key ∈ uses.methods, ∃ m, cf.method? key.1 key.2 = some m ∧ m.body? = some body ∧
    Instruction.decodeAll body.bytecode = .ok code

/-- A place at an instruction or outside the code. -/
def IsPlace (body : MethodBody) (code : List Instruction) (pc : Int) : Prop :=
  (pc < 0 ∨ (body.bytecode.length : Int) ≤ pc) ∨ ∃ ins ∈ code, pc = ins.offset

/-- An instruction jumps to a subroutine. -/
def Calls (ins : Instruction) : Prop := ins.op = .jsr ∨ ins.op = .jsrW

/-- A class from which nothing is missing when only what `uses` names is kept. -/
structure SelfContained (cf : ClassFile) (uses : Uses) : Prop where
  parent : cf.superName = "java/lang/Object"
  /-- The superclass is found in the pool. -/
  pooled : (cf.pool.edit (Pool.Edit.class_ "java/lang/Object")).2 = cf.pool
  /-- Jumps lead to instructions. -/
  jumps : ∀ body code, Kept cf uses body code → ∀ ins ∈ code, ∀ pc ∈ ins.targets,
    IsPlace body code pc
  /-- Handlers are instructions. -/
  handlers : ∀ body code, Kept cf uses body code → ∀ h ∈ body.handlers,
    IsPlace body code h.target.toNat
  /-- Subroutines return to instructions. -/
  returns : ∀ body code, Kept cf uses body code → (∃ ins ∈ code, ins.op = .ret) →
    ∀ body' code', Kept cf uses body' code' → ∀ ins ∈ code', Calls ins → IsPlace body code ins.next
  /-- A field is used if one of its name is. -/
  fields : ∀ m ∈ cf.fields, (∃ key ∈ uses.fields, key.1 = m.name cf.pool) →
    keyOf cf m ∈ uses.fields
  /-- A method that is called on an object is used, whatever class the reference names. -/
  calls : ∀ body code, Kept cf uses body code → ∀ ins ∈ code,
    (ins.op = .invokevirtual || ins.op = .invokeinterface) = true → ∀ r,
      cf.pool.ref ins.operand.index = .ok r →
      ((cf.method? r.name r.descriptor).bind Member.body?).isSome →
        (r.name, r.descriptor) ∈ uses.methods
  /-- The constants of static fields are different strings when their texts are. -/
  texts : Distinct fun units => ∃ m ∈ cf.fields, m.isStatic = true ∧ HasText cf m units

/-! ## What lifting leaves -/

/-- The copy has the used members of the class, and the same call sites. -/
structure Lifted (cf : ClassFile) (uses : Uses) (cf' : ClassFile) : Prop where
  name : cf'.name = cf.name
  superName : cf'.superName = cf.superName
  fields : List.Forall₂ (FieldLike cf cf') (cf.fields.filter fun m => keyOf cf m ∈ uses.fields)
    cf'.fields
  methods : List.Forall₂ (MethodLike cf.pool cf'.pool)
    (cf.methods.filter fun m => keyOf cf m ∈ uses.methods) cf'.methods
  bootstrap : ∀ index, Both (BootstrapLike cf.pool cf'.pool) (Machine.Step.bootstrap cf index)
    (Machine.Step.bootstrap cf' index)

/-- A class that was read is its own copy. -/
theorem copy_eq {data : Bytes} {copy : ClassFile} (hparse : ClassFile.parse data = .ok cf)
    (h : cf.copy = .ok copy) : copy = cf := by
  obtain ⟨bytes, hencode, hread⟩ := Except.bind_ok.1 h
  obtain ⟨-, rfl⟩ := ClassFile.encode_ok.1 hencode
  obtain ⟨-, -, hdata, -⟩ := ClassFile.parse_ok.1 hparse
  rw [hdata, hparse] at hread
  exact (Except.ok.inj hread).symm

theorem find?_bootstrapMethods (attributes : List Attribute) :
    Attribute.find? (attributes.filter fun a => a.name == "BootstrapMethods") "BootstrapMethods" =
      Attribute.find? attributes "BootstrapMethods" := by
  unfold Attribute.find?
  rw [List.find?_filter]
  simp only [and_self, Bool.decide_eq_true]

/-- A class is shrunk, or stays as it is. -/
theorem shrunk_cases {notes : List Note} (hp : cf.pool.WellFormed)
    (h : shrunk cf = .ok (cf', notes)) :
    cf' = cf ∨ cf'.pool.WellFormed ∧ cf.Renumbered (cf.pool.SameMeaning cf'.pool) cf' := by
  unfold shrunk at h
  cases hshrink : cf.shrink with
  | ok small =>
    rw [hshrink] at h
    obtain ⟨rfl, -⟩ := Prod.mk.inj (Except.ok.inj h)
    obtain ⟨R, hR, hmoved⟩ := ClassFile.shrink_moves hp hshrink
    exact .inr ⟨(ClassFile.shrink_pool hp hshrink).1, hmoved.both (fun i _ x _ => hR i x) hmoved⟩
  | error e =>
    rw [hshrink] at h
    dsimp only at h
    split at h
    · obtain ⟨rfl, -⟩ := Prod.mk.inj (Except.ok.inj h)
      exact .inl rfl
    · cases h

theorem shrunk_ok {notes : List Note} (hp : cf.pool.WellFormed)
    (h : shrunk cf = .ok (cf', notes)) : Copies cf cf' := by
  obtain rfl | ⟨hp', hsame⟩ := shrunk_cases hp h
  · exact .refl cf'
  · exact .of_renumbered hp.get?_zero hp'.get?_zero hsame

/-- A copy of the kept part of a class, which has the superclass under some index. -/
theorem lifted_of_copies {superClass : UInt16} {access : UInt16} (hzero : superClass ≠ 0)
    (hparent : cf.pool.className superClass = .ok cf.superName)
    (h : Copies { restrict cf uses with superClass, access } cf') : Lifted cf uses cf' where
  name := h.name
  superName := by
    rw [h.superName]
    unfold ClassFile.superName
    dsimp only
    rw [if_neg hzero]
    exact congrArg (fun x => Except.toOption x |>.getD "") hparent
  fields := h.fields.imp fun _ _ hm => ⟨hm.name, hm.descriptor, hm.isStatic, hm.initial⟩
  methods := h.methods
  bootstrap index := by
    have hfound := find?_bootstrapMethods cf.attributes
    have hpart := h.bootstrap index
    unfold Machine.Step.bootstrap at hpart ⊢
    dsimp only [restrict] at hpart
    rw [hfound] at hpart
    exact hpart

/-- The steps of lifting a class that was read: what the routine reaches is kept, the
superclass is added to the pool, and the class is shrunk. -/
theorem lift_steps {data : Bytes} {method : String} {notes : List Note}
    (hparse : ClassFile.parse data = .ok cf) (h : lift cf method = .ok (cf', notes)) :
    ∃ uses superClass pool, reachable cf method = .ok uses ∧
      cf.pool.edit (Pool.Edit.class_ "java/lang/Object") = (.ok superClass, pool) ∧
      shrunk { restrict cf uses with pool, superClass, access := liftedAccess } =
        .ok (cf', notes) := by
  unfold lift at h
  cases hcopy : cf.copy with
  | error e =>
    rw [hcopy] at h
    cases h
  | ok copy =>
    rw [hcopy, copy_eq hparse hcopy] at h
    obtain ⟨copy, hpure, h⟩ := Except.bind_ok.1 h
    obtain rfl := Except.ok.inj hpure
    dsimp only at h
    split at h
    · cases h
    · obtain ⟨uses, huses, h⟩ := Except.bind_ok.1 h
      rw [show (restrict cf uses).pool = cf.pool from rfl] at h
      refine ⟨uses, ?_⟩
      generalize cf.pool.edit (Pool.Edit.class_ "java/lang/Object") = answer at h ⊢
      obtain ⟨found, pool⟩ := answer
      cases found with
      | error e => cases h
      | ok superClass => exact ⟨superClass, pool, huses, rfl, h⟩

/-- The superclass is found in the pool it was added to. -/
theorem className_object {p q : Pool} {superClass : UInt16} (hp : p.Coherent)
    (h : p.edit (Pool.Edit.class_ "java/lang/Object") = (.ok superClass, q)) :
    q.Coherent ∧ p.Extends q ∧ superClass ≠ 0 ∧
      q.className superClass = .ok "java/lang/Object" := by
  have hgives : Pool.Edit.Gives (fun _ => True) (Pool.Edit.class_ "java/lang/Object") _ :=
    Pool.Edit.gives_class _
  obtain ⟨hq, hextends, hright⟩ := hgives p hp fun _ _ => True.intro
  rw [h] at hq hextends hright
  obtain ⟨n, hclass, htext⟩ := hright superClass rfl q (Pool.Extends.refl q)
  refine ⟨hq, hextends, fun hzero => ?_, ?_⟩
  · rw [hzero, hq.wellFormed.get?_zero] at hclass
    cases hclass
  · rw [Pool.className_ok]
    refine ⟨n, hclass, (Pool.text_of_get? htext).trans ?_⟩
    rw [Units.text_ofText]

/-- What lifting leaves of a class that was read. -/
theorem lifted_of_lift {data : Bytes} {method : String} {notes : List Note}
    (hparse : ClassFile.parse data = .ok cf) (huses : reachable cf method = .ok uses)
    (hparent : cf.superName = "java/lang/Object")
    (hpooled : (cf.pool.edit (Pool.Edit.class_ "java/lang/Object")).2 = cf.pool)
    (h : lift cf method = .ok (cf', notes)) : Lifted cf uses cf' := by
  obtain ⟨uses', superClass, pool, huses', hadded, hshrunk⟩ := lift_steps hparse h
  obtain rfl := Except.ok.inj (huses.symm.trans huses')
  obtain rfl : cf.pool = pool := by rw [← hpooled, hadded]
  have hpool := (ClassFile.Consistent.of_parse hparse).pool
  obtain ⟨-, -, hzero, hname⟩ := className_object hpool hadded
  refine lifted_of_copies hzero ?_ (shrunk_ok hpool.wellFormed hshrunk)
  rw [hname, hparent]

/-! ## Members of the copy -/

theorem routine?_of (cf : ClassFile) (name descriptor : String) :
    (Program.of cf).routine? name descriptor =
      (cf.method? name descriptor).bind (Routine.of? cf) := by
  have hlookup (ms : List Member) :
      ((ms.map fun m => ((m.name cf.pool, m.descriptor cf.pool), Routine.of? cf m)).lookup
        (name, descriptor)).join = (ms.find? (cf.isNamed name descriptor)).bind (Routine.of? cf) := by
    induction ms with
    | nil => rfl
    | cons m ms ih =>
      have hnamed : ((name, descriptor) == (m.name cf.pool, m.descriptor cf.pool)) =
          cf.isNamed name descriptor m := by
        rw [Bool.eq_iff_iff, beq_iff_eq, eq_comm]
        exact (@isNamed_iff cf (name, descriptor) m).symm
      rw [List.map_cons, List.lookup_cons, hnamed, List.find?_cons]
      split
      · rfl
      · exact ih
  exact hlookup cf.methods

namespace Lifted

variable (h : Lifted cf uses cf')

include h

/-- A method that is used stands in the copy, and no other does. -/
theorem method? (key : MemberKey) : Option.Rel (MethodLike cf.pool cf'.pool)
    (if key ∈ uses.methods then cf.method? key.1 key.2 else none) (cf'.method? key.1 key.2) := by
  have hkept : (cf.methods.filter fun m => keyOf cf m ∈ uses.methods).find?
      (cf.isNamed key.1 key.2) = if key ∈ uses.methods then cf.method? key.1 key.2 else none := by
    rw [List.find?_filter]
    split
    · rename_i hkey
      refine congrArg (List.find? · cf.methods) (funext fun m => ?_)
      rw [Bool.eq_iff_iff, decide_eq_true_eq, decide_eq_true_eq, isNamed_iff]
      exact and_iff_right_of_imp fun hm => hm ▸ hkey
    · rename_i hkey
      rw [List.find?_eq_none]
      intro m _ hm
      rw [decide_eq_true_eq, decide_eq_true_eq, isNamed_iff] at hm
      exact hkey (hm.2 ▸ hm.1)
  have hfind {ms ms' : List Member} (hms : List.Forall₂ (MethodLike cf.pool cf'.pool) ms ms') :
      Option.Rel (MethodLike cf.pool cf'.pool) (ms.find? (cf.isNamed key.1 key.2))
        (ms'.find? (cf'.isNamed key.1 key.2)) := by
    induction hms with
    | nil => exact .none
    | @cons m m' _ _ hm _ ih =>
      have hnamed : cf'.isNamed key.1 key.2 m' = cf.isNamed key.1 key.2 m := by
        unfold ClassFile.isNamed
        rw [hm.name, hm.descriptor]
      rw [List.find?_cons, List.find?_cons, hnamed]
      split
      · exact .some hm
      · exact ih
  rw [← hkept]
  exact hfind h.methods

/-- A routine whose key is used is there in both programs, or in neither. -/
theorem routine? (key : MemberKey)
    (hkey : ((cf.method? key.1 key.2).bind Member.body?).isSome → key ∈ uses.methods) :
    Option.Rel (SameRoutine (Program.of cf) (Program.of cf'))
      ((Program.of cf).routine? key.1 key.2) ((Program.of cf').routine? key.1 key.2) := by
  have hmethod := h.method? key
  have hsame {r r' : Routine} (hr : (Program.of cf).routine? key.1 key.2 = some r)
      (hr' : (Program.of cf').routine? key.1 key.2 = some r') :
      SameRoutine (Program.of cf) (Program.of cf') r r' := ⟨key.1, key.2, hr, hr'⟩
  revert hsame
  rw [routine?_of, routine?_of]
  by_cases hused : key ∈ uses.methods
  · rw [if_pos hused] at hmethod
    generalize cf.method? key.1 key.2 = m at hmethod ⊢
    generalize cf'.method? key.1 key.2 = m' at hmethod ⊢
    intro hsame
    cases hmethod with
    | none => exact .none
    | @some m m' hm =>
      have hbody := hm.body
      rw [Option.bind_some, Option.bind_some] at hsame ⊢
      unfold Routine.of? at hsame ⊢
      generalize m.body? = b at hbody hsame ⊢
      generalize m'.body? = b' at hbody hsame ⊢
      cases hbody with
      | none => exact .none
      | some => exact .some (hsame rfl rfl)
  · rw [if_neg hused] at hmethod
    generalize cf'.method? key.1 key.2 = m' at hmethod ⊢
    cases hmethod
    have hnone : (cf.method? key.1 key.2).bind (Routine.of? cf) = none := by
      cases hm : cf.method? key.1 key.2 with
      | none => rfl
      | some m =>
        have hbody : m.body? = none := by
          by_contra hbody
          rw [hm] at hkey
          exact hused (hkey (Option.ne_none_iff_isSome.1 hbody))
        rw [Option.bind_some]
        unfold Routine.of?
        rw [hbody]
        rfl
    rw [hnone]
    exact fun _ => .none

/-- Routines of one name are of methods that are alike, of which the one is kept. -/
theorem sameRoutine {r r' : Routine} (hr : SameRoutine (Program.of cf) (Program.of cf') r r') :
    ∃ key ∈ uses.methods, ∃ m m', cf.method? key.1 key.2 = some m ∧
      MethodLike cf.pool cf'.pool m m' ∧ Routine.of? cf m = some r ∧ Routine.of? cf' m' = some r' := by
  obtain ⟨name, descriptor, hr, hr'⟩ := hr
  rw [routine?_of] at hr hr'
  obtain ⟨m, hm, hroutine⟩ := Option.bind_eq_some_iff.1 hr
  obtain ⟨m', hm', hroutine'⟩ := Option.bind_eq_some_iff.1 hr'
  have hmethod := h.method? (name, descriptor)
  dsimp only at hmethod
  rw [hm'] at hmethod
  by_cases hused : (name, descriptor) ∈ uses.methods
  · rw [if_pos hused, hm] at hmethod
    cases hmethod with
    | some hlike => exact ⟨_, hused, m, m', hm, hlike, hroutine, hroutine'⟩
  · rw [if_neg hused] at hmethod
    cases hmethod

end Lifted

/-! ## The two programs -/

/-- Nothing is numbered yet.  The names of used fields are used, and subroutines that are
called in kept code return. -/
def start (cf : ClassFile) (uses : Uses) : Numbering :=
  .start (fun name => ∃ key ∈ uses.fields, key.1 = name)
    fun n => ∃ body code, Kept cf uses body code ∧ ∃ ins ∈ code, Calls ins ∧ n = ins.next

/-- The code of a method that is found can be taken apart, and what it names is found. -/
theorem kept_names (hclosed : Closed cf [] uses) {body : MethodBody} {code : List Instruction}
    (h : Kept cf uses body code) : ∀ ins ∈ code, ∀ key, Names cf ins key →
      (isCall ins.op = true → (cf.method? key.1 key.2).isSome → key ∈ uses.methods) ∧
        (isFieldAccess ins.op = true → key ∈ uses.fields) := by
  obtain ⟨key, hkey, m, hm, hbody, hcode⟩ := h
  obtain ⟨m', own, hm', hown, hmethods, hfields⟩ := hclosed.used key hkey
  obtain rfl := Option.some.inj (hm.symm.trans hm')
  obtain ⟨-, hcalled, haccessed, -⟩ := uses_ok hown
  intro ins hins other hother
  have hstands : StandsIn ins m := ⟨body, code, hbody, hcode, hins⟩
  refine ⟨fun hop hsome => ?_,
    fun hop => hfields ((haccessed other).2 ⟨ins, hstands, hop, hother⟩)⟩
  have hused := (hcalled other).2 ⟨ins, hstands, hop, hother⟩
  exact (hmethods other hused hsome).resolve_right List.not_mem_nil

theorem isCall_of_isWithin {op : Opcode} (h : op.isWithin .invokevirtual .invokeinterface = true) :
    isCall op = true := by
  have hall : ∀ b : UInt8, Opcode.isWithin ⟨b⟩ .invokevirtual .invokeinterface = true →
      isCall ⟨b⟩ = true := by decide +kernel
  exact hall op.code h

theorem isFieldAccess_of_isWithin {op : Opcode} (h : op.isWithin .getstatic .putfield = true) :
    isFieldAccess op = true := by
  have hall : ∀ b : UInt8, Opcode.isWithin ⟨b⟩ .getstatic .putfield = true →
      isFieldAccess ⟨b⟩ = true := by decide +kernel
  exact hall op.code h

/-- An instruction of kept code and its copy do the same. -/
theorem instructionsLike (hlifted : Lifted cf uses cf') (hclosed : Closed cf [] uses)
    (hself : SelfContained cf uses) {body : MethodBody} {code : List Instruction}
    (hkept : Kept cf uses body code) {ins ins' : Instruction} (hins : ins ∈ code)
    (h : ins.Renumbered (cf.pool.Corresponds cf'.pool) ins') :
    InstructionsLike (Program.of cf) (Program.of cf') (start cf uses) ins ins' where
  same := h.withIndex
  index hpool := (h.index hpool).stands
  site hop := Machine.sitesLike hlifted.bootstrap (h.index (by rw [hop]; rfl))
  fields hop r hr howner := by
    refine ⟨_, (kept_names hclosed hkept ins hins (r.name, r.descriptor) ⟨r, hr, howner, rfl⟩).2
      (isFieldAccess_of_isWithin hop), rfl⟩
  calls hop r hr hdispatch := by
    refine hlifted.routine? (r.name, r.descriptor) fun hsome => ?_
    rcases hdispatch with hvirtual | howner
    · exact hself.calls body code hkept ins hins hvirtual r hr hsome
    · refine (kept_names hclosed hkept ins hins (r.name, r.descriptor) ⟨r, hr, howner, rfl⟩).1
        (isCall_of_isWithin hop) ?_
      cases hm : cf.method? r.name r.descriptor with
      | none =>
        rw [hm] at hsome
        cases hsome
      | some m => rfl
  returns hop := ⟨body, code, hkept, ins, hins, hop, rfl⟩

/-- Behind an instruction stands the next one, or the code ends. -/
theorem exists_next {code : List Instruction} {offset stop : Nat} (h : Consecutive offset code stop)
    {ins : Instruction} (hins : ins ∈ code) :
    ins.next = stop ∨ ∃ later ∈ code, later.offset = ins.next := by
  induction code generalizing offset with
  | nil => cases hins
  | cons first rest ih =>
    rcases List.mem_cons.1 hins with rfl | hins
    · cases rest with
      | nil => exact .inl h.2
      | cons second rest => exact .inr ⟨second, by simp, h.2.1⟩
    · exact (ih h.2 hins).imp_right fun ⟨later, hlater, heq⟩ =>
        ⟨later, List.mem_cons_of_mem _ hlater, heq⟩

/-- A method goes on at an instruction, or leaves its code. -/
theorem isPlace_of_reaches (hself : SelfContained cf uses) {body : MethodBody}
    {code : List Instruction} (hkept : Kept cf uses body code) {ins : Instruction} (hins : ins ∈ code)
    {pc : Int} (h : Machine.Reaches ins (start cf uses) pc) : IsPlace body code pc := by
  obtain rfl | rfl | htarget | ⟨hret, n, rfl, body', code', hkept', call, hcall, hop, rfl⟩ := h
  · obtain ⟨-, -, -, -, -, hcode⟩ := hkept
    have hconsecutive := (Instruction.decodeAll_ok.1 hcode).consecutive
    rw [Nat.zero_add] at hconsecutive
    rcases exists_next hconsecutive hins with heq | ⟨later, hlater, heq⟩
    · exact .inl (.inr (by omega))
    · exact .inr ⟨later, hlater, congrArg Int.ofNat heq.symm⟩
  · exact .inr ⟨ins, hins, rfl⟩
  · exact hself.jumps body code hkept ins hins pc htarget
  · exact hself.returns body code hkept ⟨ins, hins, hret⟩ body' code' hkept' call hcall hop

/-- Code starts at an instruction, if there is any. -/
theorem isPlace_zero {body : MethodBody} {code : List Instruction}
    (hcode : Instruction.decodeAll body.bytecode = .ok code) : IsPlace body code 0 := by
  have htiles := Instruction.decodeAll_ok.1 hcode
  cases code with
  | nil =>
    have hempty : body.bytecode = [] := htiles
    exact .inl (.inr (by rw [hempty]; rfl))
  | cons ins rest => exact .inr ⟨ins, List.mem_cons_self, by rw [htiles.2.1]; rfl⟩

theorem holds_of_isPlace {r : Routine} {code : List Instruction}
    (hlength : r.length = r.body.bytecode.length)
    (hcode : Instruction.decodeAll r.body.bytecode = .ok code) {pc : Int}
    (h : IsPlace r.body code pc) : r.Holds pc := by
  rcases h with h | h
  · exact .inl (hlength ▸ h)
  · exact .inr ⟨code, hcode, h⟩

/-- A kept routine and its copy are alike. -/
theorem routineLike (hlifted : Lifted cf uses cf') (hclosed : Closed cf [] uses)
    (hself : SelfContained cf uses) {r r' : Routine}
    (hr : SameRoutine (Program.of cf) (Program.of cf') r r') :
    r.Like (Program.of cf) (Program.of cf') (start cf uses) r' := by
  obtain ⟨key, hkey, m, m', hm, hlike, hroutine, hroutine'⟩ := hlifted.sameRoutine hr
  obtain ⟨body, hbody, hfst⟩ := Option.map_eq_some_iff.1 hroutine
  obtain ⟨body', hbody', hsnd⟩ := Option.map_eq_some_iff.1 hroutine'
  have hbodies := hlike.body
  rw [hbody, hbody'] at hbodies
  obtain ⟨code, hcode⟩ : ∃ code, Instruction.decodeAll body.bytecode = .ok code := by
    obtain ⟨found, own, hfound, hown, -⟩ := hclosed.used key hkey
    obtain rfl := Option.some.inj (hm.symm.trans hfound)
    exact (uses_ok hown).1 body hbody
  have hkept : Kept cf uses body code := ⟨key, hkey, m, hm, hbody, hcode⟩
  cases hbodies with
  | some hbodies =>
    obtain ⟨code', hcode', hinstructions⟩ := hbodies.code code hcode
    have hplace {pc : Int} (h : IsPlace body code pc) : r.Holds pc := by
      subst hfst
      exact holds_of_isPlace rfl hcode h
    refine ⟨?_, ?_, ?_, ?_, ?_, ?_, ?_, ?_⟩
    · rw [← hfst, ← hsnd]
      exact hlike.name
    · rw [← hfst, ← hsnd]
      exact hlike.isStatic
    · rw [← hfst, ← hsnd]
      exact hbodies.maxLocals
    · rw [← hfst, ← hsnd]
      exact hbodies.length
    · rw [← hfst, ← hsnd]
      exact hbodies.handlers
    · exact hplace (isPlace_zero hcode)
    · intro row hrow
      rw [← hfst] at hrow
      exact hplace (hself.handlers body code hkept row hrow)
    · intro F F' hF hF' hpc hholds hinside
      rcases hholds with houtside | ⟨found, hfound, ins, hins, hoffset⟩
      · unfold Machine.Plan.isOutside at hinside
        rw [hF] at hinside
        simp only [Bool.or_eq_false_iff, decide_eq_false_iff_not] at hinside
        exact absurd houtside (not_or.2 hinside)
      · rw [← hfst] at hfound
        obtain rfl := Except.ok.inj (hcode.symm.trans hfound)
        obtain ⟨ins', hins', hrenumbered⟩ := exists_mem_of_forall₂ hinstructions.flip hins
        have hsame : ins'.offset = ins.offset := by
          obtain ⟨x, rfl⟩ := Instruction.Renumbered.withIndex hrenumbered
          rfl
        rw [← hF] at hroutine hfst
        rw [← hF'] at hroutine' hsnd
        refine ⟨ins, ins', (Machine.Plan.fetch_of_decodeAll hroutine ?_ hins hoffset).2,
          (Machine.Plan.fetch_of_decodeAll hroutine' ?_ hins' ?_).2,
          instructionsLike hlifted hclosed hself hkept hins hrenumbered, fun pc hpc => ?_⟩
        · rw [← hfst]
          exact hcode
        · rw [← hsnd]
          exact hcode'
        · rw [hpc, hoffset, hsame]
        · rw [hF]
          exact hplace (isPlace_of_reaches hself hkept hins hpc)

/-- Fields of which some are left out, whose names are not used. -/
theorem fieldsLike_of_filter {used : String → Prop} {p : Member → Bool} {ms ms' : List Member}
    (hused : ∀ m ∈ ms, used (m.name cf.pool) → p m = true)
    (h : List.Forall₂ (FieldLike cf cf') (ms.filter p) ms') : FieldsLike cf cf' used ms ms' := by
  induction ms generalizing ms' with
  | nil =>
    cases h
    exact .nil
  | cons m ms ih =>
    obtain ⟨hm, hms⟩ := List.forall_mem_cons.1 hused
    cases hp : p m with
    | true =>
      rw [List.filter_cons_of_pos hp] at h
      cases h with
      | cons hfield hrest => exact .both hfield (ih hms hrest)
    | false =>
      rw [List.filter_cons_of_neg (by simp [hp])] at h
      exact .dropped (fun hname => by simp [hm hname] at hp) (ih hms h)

theorem fieldsLike (hlifted : Lifted cf uses cf') (hself : SelfContained cf uses) :
    FieldsLike cf cf' (start cf uses).used cf.fields cf'.fields :=
  fieldsLike_of_filter (fun m hm hused => decide_eq_true (hself.fields m hm hused)) hlifted.fields

/-- A class that is self-contained and its lifted copy run side by side. -/
theorem program_like (hlifted : Lifted cf uses cf') (hclosed : Closed cf [] uses)
    (hself : SelfContained cf uses) :
    (Program.of cf).Like (Program.of cf') (start cf uses) where
  name := hlifted.name
  lineage := by
    show Machine.Lineage.mk cf'.name cf'.superName = ⟨cf.name, cf.superName⟩
    rw [hlifted.name, hlifted.superName]
  fields := Machine.newFields_like (fieldsLike hlifted hself) fun _ _ => .none
  routines _ _ hr := routineLike hlifted hclosed hself hr

/-! ## What the routine computes -/

/-- The code units of a value that is a string. -/
def stringOf (em : Emulation) : Machine.Value → Option Units
  | .ref id =>
    match em.progress.world.heap[id]? with
    | some (.string units) => some units
    | _ => none
  | _ => none

/-- Runs that go side by side come to one string. -/
theorem same_string {f : Numbering} {e e' : Except Error Machine.Value × Emulation}
    (h : Machine.Answered f e e') :
    Both (fun v v' => stringOf e.2 v = stringOf e'.2 v') e.1 e'.1 := by
  cases h with
  | failed => exact .error
  | returned hfg hv hw =>
    refine .ok ?_
    cases hv with
    | ref hij =>
      obtain ⟨o, o', ho, ho', hlike⟩ := hw.heap.objects hij
      unfold stringOf
      dsimp only
      rw [ho, ho']
      cases hlike <;> rfl
    | _ => rfl

/-- The routine of a class that is self-contained computes the same in the lifted copy: when
it is called with a string, the two runs give strings of the same units, or values that are
no strings, or both fail. -/
theorem lift_faithful {data : Bytes} {method : String} {notes : List Note} {config : Config}
    {em : Emulation} (hparse : ClassFile.parse data = .ok cf)
    (hlift : lift cf method = .ok (cf', notes)) (huses : reachable cf method = .ok uses)
    (hself : SelfContained cf uses) (hload : Emulation.load cf config = .ok em)
    (literal : Units) (cancelled : Bool) :
    ∃ em', Emulation.load cf' config = .ok em' ∧
      let call (em : Emulation) := em.invoke method Pattern.decryptDescriptor
        (do return [← Machine.newUnits literal]) cancelled
      Both (fun v v' => stringOf (call em).2 v = stringOf (call em').2 v') (call em).1 (call em').1 := by
  have hlifted := lifted_of_lift hparse huses hself.parent hself.pooled hlift
  obtain ⟨hclosed, hmethod, hinit⟩ := reachable_ok huses
  have hprogram := program_like hlifted hclosed hself
  obtain ⟨g, em', hg, hload', hem, hem', hbeside⟩ := Emulation.load_beside hprogram
    (fieldsLike hlifted hself) hself.texts (fun m hm hstatic units hunits => ⟨m, hm, hstatic, hunits⟩)
    hload
  have hsome {key : MemberKey} (h : (cf.method? key.1 key.2).isSome → key ∈ uses.methods) :
      ((cf.method? key.1 key.2).bind Member.body?).isSome → key ∈ uses.methods := by
    intro hbody
    refine h ?_
    cases hm : cf.method? key.1 key.2 with
    | none =>
      rw [hm] at hbody
      cases hbody
    | some m => rfl
  refine ⟨em', hload', same_string (Emulation.invoke_beside hbeside ?_ ?_ literal cancelled)⟩
  · rw [hem, hem']
    exact hlifted.routine? ("<clinit>", "()V") (hsome hinit)
  · rw [hem, hem']
    exact hlifted.routine? (method, Pattern.decryptDescriptor) (hsome hmethod)

/-! ## A class with a routine that gives back its argument -/

/-- A body that gives back its argument. -/
def givingBody : MethodBody := ⟨1, 1, [0x2a, 0xb0], [], []⟩

/-- The pool of `giving`. -/
def givingPool : Pool := Pool.ofSlots [none, some (.utf8 [65]), some (.class_ 1),
  some (.utf8 [67, 111, 100, 101]), some (.utf8 [100]),
  some (.utf8 [40, 76, 106, 97, 118, 97, 47, 108, 97, 110, 103, 47, 79, 98, 106, 101, 99, 116, 59,
      41, 76, 106, 97, 118, 97, 47, 108, 97, 110, 103, 47, 83, 116, 114, 105, 110, 103, 59]),
  some (.utf8 [106, 97, 118, 97, 47, 108, 97, 110, 103, 47, 79, 98, 106, 101, 99, 116]),
  some (.class_ 6)]

/-- The routine of `giving`. -/
def givingRoutine : Member := ⟨9, 4, 5, [.code 3 "Code" givingBody, .raw 1 "A" []]⟩

/-- The class `A` with a routine `d` and another method. -/
def giving : ClassFile where
  minor := 0
  major := 52
  pool := givingPool
  access := 0x21
  thisClass := 2
  superClass := 7
  interfaces := []
  fields := []
  methods := [givingRoutine, ⟨9, 1, 5, [.code 3 "Code" givingBody]⟩]
  attributes := []

theorem readable_givingPool : givingPool.Readable := by
  refine ⟨_, rfl, by decide, ?_, ?_, Pool.dangling?_eq_none.1 rfl⟩
  · exact .narrow True.intro rfl <| .narrow True.intro rfl <| .narrow True.intro rfl <|
      .narrow True.intro rfl <| .narrow True.intro rfl <| .narrow True.intro rfl <|
      .narrow True.intro rfl .nil
  · intro c hc
    simp only [List.mem_cons, Option.some.injEq, List.not_mem_nil, or_false] at hc
    rcases hc with rfl | rfl | rfl | rfl | rfl | rfl | rfl
    all_goals simp only [Constant.Fits]
    all_goals decide

theorem edit_giving : givingPool.edit (Pool.Edit.class_ "java/lang/Object") = (.ok 7, givingPool) := by
  have htext : givingPool.edit (Pool.Edit.text "java/lang/Object") = (.ok 6, givingPool) :=
    Pool.add_ofSlots rfl
  rw [Pool.Edit.class_, Pool.edit_bind, htext]
  exact Pool.add_ofSlots rfl

/-- What the routine of `giving` reaches. -/
def givingUses : Uses := ⟨[("d", Pattern.decryptDescriptor)], []⟩

theorem reachable_giving : reachable giving "d" = .ok givingUses := by rfl

/-- The attributes of a method of `giving` can be read. -/
theorem readable_giving {attributes : List Attribute}
    (h : ∀ a ∈ attributes, a = .code 3 "Code" givingBody ∨ a = .raw 1 "A" [])
    (hlength : attributes.length < 65536) : Attribute.Readable givingPool attributes := by
  refine ⟨hlength, ?_⟩
  rw [Attribute.insideAll_eq_flatMap]
  intro a ha
  obtain ⟨b, hb, ha⟩ := List.mem_flatMap.1 ha
  rcases h b hb with rfl | rfl
  · have hname : givingPool.text 3 = .ok "Code" := rfl
    rw [Attribute.inside_code] at ha
    simp only [givingBody, Attribute.insideAll, List.mem_singleton] at ha
    subst ha
    exact ⟨⟨hname, by simp [Attribute.body?, Attribute.name]⟩, by decide, by simp [Attribute.body?]⟩
  · have hname : givingPool.text 1 = .ok "A" := rfl
    rw [Attribute.inside_raw] at ha
    obtain rfl := List.mem_singleton.1 ha
    exact ⟨⟨hname, by decide⟩, by decide, by simp [Attribute.body?]⟩

theorem parse_giving : ClassFile.parse giving.image = .ok giving := by
  have hreadable : giving.Readable := by
    refine ⟨readable_givingPool, by decide, ⟨by decide, by simp [giving]⟩, ⟨by decide, ?_⟩,
      by decide, by simp [giving, Attribute.insideAll]⟩
    intro m hm
    rcases List.mem_pair.1 hm with rfl | rfl
    · exact readable_giving (by simp [givingRoutine]) (by decide)
    · exact readable_giving (by simp) (by decide)
  exact ClassFile.parse_ok.2 ⟨rfl, hreadable, rfl, "A", rfl⟩

theorem copy_giving : giving.copy = .ok giving := by
  refine Except.bind_ok.2 ⟨giving.image, ClassFile.encode_ok.2 ⟨?_, rfl⟩, parse_giving⟩
  intro a ha body hbody
  simp only [ClassFile.allAttributes, giving, givingRoutine, Attribute.insideAll_eq_flatMap,
    givingBody, Attribute.inside_code, Attribute.inside_raw, List.flatMap_cons, List.flatMap_nil,
    List.append_nil, List.nil_append, List.cons_append, List.mem_cons, List.not_mem_nil,
    or_false] at ha
  rcases ha with rfl | rfl | rfl
  · obtain rfl := Option.some.inj hbody
    exact ⟨by decide, by decide⟩
  · cases hbody
  · obtain rfl := Option.some.inj hbody
    exact ⟨by decide, by decide⟩

/-- The copy of `giving` for its routine. -/
def given : ClassFile := { giving with methods := [givingRoutine] }

theorem lift_giving : ∃ notes, lift giving "d" = .ok (given, notes) := by
  have hfound : ((giving.method? "d" Pattern.decryptDescriptor).bind Member.body?).isNone = false := rfl
  obtain ⟨e, name, hshrink, hroot⟩ :
      ∃ e name, given.shrink = .error e ∧ e.root = .unknownAttribute name := ⟨_, _, rfl, rfl⟩
  have hshrunk : shrunk given = .ok (given, [.unshrunk given.name e]) := by
    unfold shrunk
    rw [hshrink]
    simp only [hroot]
  have hedit : (restrict giving givingUses).pool.edit (Pool.Edit.class_ "java/lang/Object") =
      (.ok 7, givingPool) := edit_giving
  refine ⟨[.unshrunk given.name e], ?_⟩
  unfold lift
  rw [copy_giving]
  refine Except.bind_ok.2 ⟨giving, rfl, ?_⟩
  simp only [hfound, Bool.false_eq_true, if_false]
  refine Except.bind_ok.2 ⟨givingUses, reachable_giving, ?_⟩
  rw [hedit]
  exact hshrunk

/-- The instructions of `givingBody`. -/
def givingCode : List Instruction :=
  [{ op := .aload0, operand := (.none : Operand .none) },
    { op := .areturn, operand := (.none : Operand .none), offset := 1 }]

theorem kept_giving {body : MethodBody} {code : List Instruction}
    (h : Kept giving givingUses body code) : body = givingBody ∧ code = givingCode := by
  obtain ⟨key, hkey, m, hm, hbody, hcode⟩ := h
  obtain rfl := List.mem_singleton.1 hkey
  obtain rfl : givingRoutine = m := Option.some.inj hm
  obtain rfl : givingBody = body := Option.some.inj hbody
  exact ⟨rfl, Except.ok.inj (hcode.symm.trans rfl)⟩

/-- Nothing is missing from the copy. -/
theorem selfContained_giving : SelfContained giving givingUses where
  parent := rfl
  pooled := by rw [show giving.pool = givingPool from rfl, edit_giving]
  jumps body code h ins hins pc hpc := by
    obtain ⟨rfl, rfl⟩ := kept_giving h
    rcases List.mem_pair.1 hins with rfl | rfl <;> cases hpc
  handlers body code h row hrow := by
    obtain ⟨rfl, rfl⟩ := kept_giving h
    cases hrow
  returns body code h := by
    rintro ⟨ins, hins, hop⟩
    obtain ⟨rfl, rfl⟩ := kept_giving h
    rcases List.mem_pair.1 hins with rfl | rfl <;> exact absurd hop (by decide)
  fields := List.forall_mem_nil _
  calls body code h ins hins hop := by
    obtain ⟨rfl, rfl⟩ := kept_giving h
    rcases List.mem_pair.1 hins with rfl | rfl <;> exact absurd hop (by decide)
  texts := by
    rintro units units' ⟨m, hm, -⟩
    cases hm

theorem lift_faithful_giving :
    ∃ (cf' : ClassFile) (notes : List Note) (em em' : Emulation),
      ClassFile.parse giving.image = .ok giving ∧ lift giving "d" = .ok (cf', notes) ∧
      Emulation.load giving {} = .ok em ∧ Emulation.load cf' {} = .ok em' ∧
      let call (em : Emulation) := em.invoke "d" Pattern.decryptDescriptor
        (do return [← Machine.newUnits [65]]) false
      Both (fun v v' => stringOf (call em).2 v = stringOf (call em').2 v')
        (call em).1 (call em').1 := by
  obtain ⟨notes, hlift⟩ := lift_giving
  obtain ⟨em, hload⟩ : ∃ em, Emulation.load giving {} = .ok em := ⟨_, rfl⟩
  obtain ⟨em', hload', hboth⟩ := lift_faithful parse_giving hlift reachable_giving
    selfContained_giving hload [65] false
  exact ⟨given, notes, em, em', parse_giving, hlift, hload, hload', hboth⟩

end Cleartext.Isolation
