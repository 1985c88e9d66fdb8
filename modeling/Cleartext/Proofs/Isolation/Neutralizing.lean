import Cleartext.Proofs.Isolation.Clearing

/-!
# Replaced checks push what the checks would have seen

In the new code of a method the push of each check and the append stand in a row
(`exists_in_place`), and the class as a whole still answers the append as it did
(`AppendsTo.later`).  So running the two ends as running the check does
(`neutralize_faithful`).

The check has to run by itself: each of its instructions goes on to the next one.  A class
that is named like one of the library classes that a check calls can answer such a call with
a method of its own; the push shows what the library class would have answered.
-/

namespace Cleartext

namespace Isolation

open Machine

variable {p q : Pool} {caller : Identity} {query : Query} {push : Instruction}

/-! ## The new code -/

/-- Of instructions one behind the other, each stands in front of all later ones. -/
theorem pairwise_of_consecutive {offset stop : Nat} {instructions : List Instruction}
    (h : Consecutive offset instructions stop) :
    instructions.Pairwise fun x y => x.offset < y.offset := by
  induction instructions generalizing offset with
  | nil => exact .nil
  | cons ins rest ih =>
    refine .cons (fun y hy => ?_) (ih h.2)
    have hle := h.2.le_offset y hy
    have hsize := ins.size_pos
    rw [Instruction.next] at hle
    omega

/-- Instructions that are deleted are gone. -/
theorem survivor_deletes {deleted : List Instruction} (kept : Option Instruction) {at_ : Int}
    (h : kept = none ∨ ∃ ins ∈ deleted, (ins.offset : Int) = at_) :
    Edit.survivor (deleted.map fun ins => .delete ins.offset) at_ kept = none := by
  induction deleted generalizing kept with
  | nil =>
    rcases h with rfl | ⟨ins, hins, -⟩
    · rfl
    · cases hins
  | cons first deleted ih =>
    show Edit.survivor (deleted.map _) at_ (if (first.offset : Int) = at_ then none else kept) = none
    refine ih _ ?_
    split
    · exact .inl rfl
    · rename_i hne
      rcases h with rfl | ⟨ins, hins, hat⟩
      · exact .inl rfl
      · rcases List.mem_cons.1 hins with rfl | hins
        · exact absurd hat hne
        · exact .inr ⟨ins, hins, hat⟩

theorem planned_edits (c : Check) (ins : Instruction) :
    Edit.planned c.edits ins = (Edit.survivor (c.front.tail.map fun ins => .delete ins.offset)
      ins.offset (if (c.start : Int) = ins.offset then some c.push else some ins)).toList := by
  have hinserted : Edit.inserted c.edits ins.offset = [] := by
    refine List.flatMap_eq_nil_iff.2 fun edit hedit => ?_
    rcases List.mem_cons.1 hedit with rfl | hedit
    · rfl
    · obtain ⟨deleted, -, rfl⟩ := List.mem_map.1 hedit
      rfl
  rw [Edit.planned, hinserted]
  rfl

theorem exists_offset_of_mem_edits {c : Check} {edit : Edit} (hfront : c.front ≠ [])
    (h : edit ∈ c.edits) : ∃ ins ∈ c.front, (ins.offset : Int) = edit.offset := by
  obtain ⟨query, front, append, push⟩ := c
  obtain ⟨first, rest, rfl⟩ := List.exists_cons_of_ne_nil hfront
  rcases List.mem_cons.1 h with rfl | h
  · exact ⟨first, List.mem_cons_self, rfl⟩
  · obtain ⟨ins, hins, rfl⟩ := List.mem_map.1 h
    exact ⟨ins, List.mem_cons_of_mem _ hins, rfl⟩

theorem Swept.exists_offset {instructions : List Instruction} {checks : List Check}
    (h : Swept p caller instructions checks) : ∀ edit ∈ checks.flatMap Check.edits,
      ∃ ins ∈ instructions, (ins.offset : Int) = edit.offset := by
  induction h with
  | done => simp
  | @replaced skipped rest c checks hcheck _ ih =>
    intro edit hedit
    rw [List.flatMap_cons, List.mem_append] at hedit
    rcases hedit with hedit | hedit
    · have hfront : c.front ≠ [] := by
        intro hnil
        have htwo := hcheck.asks.two_le
        simp [hnil] at htwo
      obtain ⟨ins, hins, hoffset⟩ := exists_offset_of_mem_edits hfront hedit
      exact ⟨ins, by simp [Check.window, hins], hoffset⟩
    · obtain ⟨ins, hins, hoffset⟩ := ih edit hedit
      exact ⟨ins, by simp [hins], hoffset⟩

/-- The plan of a check by itself: the push in place of its first instruction, and the append. -/
theorem plan_window {c : Check} {offset stop : Nat} (hfront : c.front ≠ [])
    (hold : Consecutive offset c.window stop) :
    Edit.plan c.edits c.window = [(c.start, c.push), (c.append.offset, c.append)] := by
  have hcheck {edit : Edit} (hedit : edit ∈ c.edits) := exists_offset_of_mem_edits hfront hedit
  obtain ⟨query, front, append, push⟩ := c
  obtain ⟨first, more, rfl⟩ := List.exists_cons_of_ne_nil hfront
  let c : Check := ⟨query, first :: more, append, push⟩
  have hpairwise := pairwise_of_consecutive hold
  rw [Check.window, List.pairwise_append] at hpairwise
  obtain ⟨hfirst, -, happend⟩ := hpairwise
  replace hfirst := (List.pairwise_cons.1 hfirst).1
  have hplannedFirst : Edit.planned c.edits first = [push] := by
    rw [planned_edits, if_pos (show (c.start : Int) = first.offset from rfl), Edit.survivor_of_ne]
    · rfl
    · intro edit hedit heq
      obtain ⟨other, hother, rfl⟩ := List.mem_map.1 hedit
      have hlt := hfirst other hother
      rw [Edit.offset] at heq
      omega
  have hplannedMore : ∀ ins ∈ more, Edit.planned c.edits ins = [] := by
    intro ins hins
    rw [planned_edits]
    exact congrArg Option.toList (survivor_deletes _ (.inr ⟨ins, hins, rfl⟩))
  have hplannedAppend : Edit.planned c.edits append = [append] := by
    refine Edit.planned_of_ne fun edit hedit heq => ?_
    obtain ⟨other, hother, hoffset⟩ := hcheck hedit
    have hlt := happend other hother append (List.mem_singleton_self _)
    omega
  have hplanMore : (more.flatMap fun ins =>
      (Edit.planned c.edits ins).map fun new => (ins.offset, new)) = [] :=
    List.flatMap_eq_nil_iff.2 fun ins hins => by rw [hplannedMore ins hins]; rfl
  show Edit.plan c.edits (first :: more ++ [append]) = _
  unfold Edit.plan
  simp only [List.flatMap_append, List.flatMap_cons, List.flatMap_nil, hplanMore, hplannedFirst,
    hplannedAppend]
  rfl

/-- The plan of code with a check: the push, and then the append. -/
theorem plan_check {c : Check} {skipped rest : List Instruction} {edits : List Edit}
    {offset stop : Nat} (hfront : c.front ≠ [])
    (hold : Consecutive offset (skipped ++ c.window ++ rest) stop)
    (hedits : ∀ edit ∈ edits, ∃ ins ∈ rest, (ins.offset : Int) = edit.offset) :
    Edit.plan (c.edits ++ edits) (skipped ++ c.window ++ rest) =
      skipped.map (fun ins => (ins.offset, ins)) ++
        (c.start, c.push) :: (c.append.offset, c.append) :: Edit.plan edits rest := by
  have hcheck : ∀ edit ∈ c.edits, ∃ ins ∈ c.window, (ins.offset : Int) = edit.offset := by
    intro edit hedit
    obtain ⟨ins, hins, hoffset⟩ := exists_offset_of_mem_edits hfront hedit
    exact ⟨ins, List.mem_append_left _ hins, hoffset⟩
  obtain ⟨middle, hfirst, -⟩ := consecutive_append.1 hold
  obtain ⟨start, -, hwindow⟩ := consecutive_append.1 hfirst
  have hskipped : Edit.plan c.edits (skipped ++ c.window) =
      Edit.plan [] skipped ++ Edit.plan c.edits c.window :=
    @Edit.plan_append [] _ _ _ _ _ hfirst (by simp) hcheck
  rw [Edit.plan_append hold (fun edit hedit => ?_) hedits, hskipped, plan_window hfront hwindow,
    Edit.plan_of_unstaged (by simp), List.append_assoc]
  · rfl
  · obtain ⟨ins, hins, hoffset⟩ := hcheck edit hedit
    exact ⟨ins, List.mem_append_right _ hins, hoffset⟩

/-- The plan of code has the push and the append of each check in a row. -/
theorem Swept.exists_plan {instructions : List Instruction} {checks : List Check}
    (h : Swept p caller instructions checks) {offset stop : Nat}
    (hold : Consecutive offset instructions stop) {c : Check} (hc : c ∈ checks) :
    c.window ⊆ instructions ∧ c.Stands p caller ∧ ∃ before after,
      Edit.plan (checks.flatMap Check.edits) instructions =
        before ++ (c.start, c.push) :: (c.append.offset, c.append) :: after := by
  induction h generalizing offset with
  | done => cases hc
  | @replaced skipped rest first checks hcheck hswept ih =>
    have hfront : first.front ≠ [] := by
      intro hnil
      have htwo := hcheck.asks.two_le
      simp [hnil] at htwo
    rw [List.flatMap_cons, plan_check hfront hold hswept.exists_offset]
    rcases List.mem_cons.1 hc with rfl | hc
    · exact ⟨fun ins hins => by simp [hins], hcheck, _, _, rfl⟩
    · obtain ⟨middle, -, hrest⟩ := consecutive_append.1 hold
      obtain ⟨hwindow, hstands, before, after, hplan⟩ := ih hrest hc
      refine ⟨fun ins hins => by simp [hwindow hins], hstands,
        skipped.map (fun ins => (ins.offset, ins)) ++
          (first.start, first.push) :: (first.append.offset, first.append) :: before, after, ?_⟩
      rw [hplan]
      simp

theorem Captures.of_unplaced {push' : Instruction} (h : Captures p caller query push)
    (hunplaced : push'.unplaced = push.unplaced) : Captures p caller query push' := by
  cases h with
  | size hpush =>
    refine .size ?_
    rw [pushedInt?_of_unplaced hunplaced, hpush]
  | text hquery hop hvalue =>
    refine .text hquery ?_ ?_
    · rwa [Instruction.op_of_unplaced hunplaced]
    · rwa [Instruction.index_of_unplaced hunplaced]

/-- In the new code of a method, the push of a check and the append stand in a row. -/
theorem exists_in_place {old new : List Instruction} {checks : List Check} {code code' : Bytes}
    (hold : Instruction.decodeAll code = .ok old) (hnew : Instruction.decodeAll code' = .ok new)
    (hswept : Swept p caller old checks)
    (hplan : new.map Instruction.unplaced = (Edit.plan (checks.flatMap Check.edits) old).map
      fun planned => planned.2.lengthened.unplaced) {c : Check} (hc : c ∈ checks) :
    c.Stands p caller ∧ ∃ push append, push ∈ new ∧ append ∈ new ∧ append.offset = push.next ∧
      push.unplaced = c.push.unplaced ∧ append.unplaced = c.append.unplaced := by
  have hconsecutive := (Instruction.decodeAll_ok.1 hold).consecutive
  obtain ⟨hwindow, hstands, before, after, hchecks⟩ := hswept.exists_plan hconsecutive hc
  have happend : c.append ∈ old := hwindow (by simp [Check.window])
  have hvalid := (Instruction.decodeAll_ok.1 hold).valid _ happend
  rw [hchecks, List.map_append, List.map_cons, List.map_cons,
    Instruction.lengthened_eq_of_valid hstands.valid, Instruction.lengthened_eq_of_valid hvalid]
    at hplan
  obtain ⟨front, rest, rfl, -, hrest⟩ := List.map_eq_append_iff.1 hplan
  obtain ⟨push, rest, rfl, hpush, hrest⟩ := List.map_eq_cons_iff.1 hrest
  obtain ⟨append, rest, rfl, happend', -⟩ := List.map_eq_cons_iff.1 hrest
  refine ⟨hstands, push, append, by simp, by simp, ?_, hpush, happend'⟩
  obtain ⟨middle, -, hnext⟩ := consecutive_append.1 (Instruction.decodeAll_ok.1 hnew).consecutive
  exact hnext.2.1

/-! ## The class around a check -/

/-- The names and the descriptors of the methods of a class can be read. -/
def NamesMethods (cf : ClassFile) : Prop :=
  ∀ m ∈ cf.methods, (∃ name, cf.pool.text m.nameIndex = .ok name) ∧
    ∃ descriptor, cf.pool.text m.descriptorIndex = .ok descriptor

section

variable {cf cf' : ClassFile} {m m' : Member} {checks : List Check}

theorem name_of_widens (hcf : cf' = { cf with pool := cf'.pool, methods := cf'.methods })
    (hwidens : cf.pool.Widens cf'.pool) (hclosed : cf.pool.Closed) :
    cf'.name = cf.name ∧ cf'.superName = cf.superName := by
  rw [hcf]
  unfold ClassFile.name ClassFile.superName
  dsimp only
  rw [hwidens.className_eq hclosed, hwidens.className_eq hclosed]
  exact ⟨rfl, rfl⟩

/-- A method whose checks are replaced keeps its name and its descriptor, and whether it
has a body. -/
theorem Cleared.entry (h : Cleared p caller m m' checks) (hextends : cf.pool.Extends cf'.pool)
    (hname : ∃ name, cf.pool.text m.nameIndex = .ok name)
    (hdescriptor : ∃ descriptor, cf.pool.text m.descriptorIndex = .ok descriptor) :
    m'.name cf'.pool = m.name cf.pool ∧ m'.descriptor cf'.pool = m.descriptor cf.pool ∧
      ((Routine.of? cf m).isNone → (Routine.of? cf' m').isNone) := by
  obtain ⟨name, hname⟩ := hname
  obtain ⟨descriptor, hdescriptor⟩ := hdescriptor
  unfold Member.name Member.descriptor Routine.of?
  cases h with
  | untouched =>
    rw [hextends.text hname, hextends.text hdescriptor, hname, hdescriptor]
    simp
  | @rewritten body body' _ _ _ hbody =>
    obtain ⟨before, i, after, -, -, hset⟩ := Member.exists_of_body? hbody
    have hindices : (m.setBody body').nameIndex = m.nameIndex ∧
        (m.setBody body').descriptorIndex = m.descriptorIndex := by
      rw [hset]
      exact ⟨rfl, rfl⟩
    rw [hindices.1, hindices.2, hextends.text hname, hextends.text hdescriptor, hname, hdescriptor,
      hbody]
    simp

/-- A method that a class does not have it does not have afterwards either. -/
theorem routine?_of_cleared {cleared : List (Member × List Check)}
    (hcleared : List.Forall₂ (fun m new => Cleared p caller m new.1 new.2) cf.methods cleared)
    (hmethods : cf'.methods = cleared.map (·.1)) (hextends : cf.pool.Extends cf'.pool)
    (hnames : NamesMethods cf) {name descriptor : String}
    (h : (Program.of cf).routine? name descriptor = none) :
    (Program.of cf').routine? name descriptor = none := by
  unfold Program.routine? Program.of at h ⊢
  dsimp only at h ⊢
  unfold NamesMethods at hnames
  rw [hmethods]
  clear hmethods
  generalize cf.methods = methods at hcleared hnames h
  induction hcleared with
  | nil => rfl
  | @cons m new methods cleared hm _ ih =>
    obtain ⟨⟨hname, hdescriptor⟩, hrest⟩ := List.forall_mem_cons.1 hnames
    obtain ⟨hname', hdescriptor', hnone⟩ := hm.entry hextends hname hdescriptor
    rw [List.map_cons, List.lookup_cons] at h
    rw [List.map_cons, List.map_cons, List.lookup_cons, hname', hdescriptor']
    cases hkey : (name, descriptor) == (m.name cf.pool, m.descriptor cf.pool) with
    | true =>
      rw [hkey] at h
      exact Option.isNone_iff_eq_none.1 (hnone (Option.isNone_iff_eq_none.2 h))
    | false =>
      rw [hkey] at h
      exact ih hrest h

/-- A class that has widened answers an append as it did. -/
theorem AppendsTo.later {cls : String} {ins ins' : Instruction} {ref : Ref}
    (h : AppendsTo (Program.of cf) cls query ins ref)
    (hcf : cf' = { cf with pool := cf'.pool, methods := cf'.methods })
    (hwidens : cf.pool.Widens cf'.pool) (hclosed : cf.pool.Closed)
    (hforeign : cls = cf.name → (Program.of cf).routine? ref.name ref.descriptor = none →
      (Program.of cf').routine? ref.name ref.descriptor = none)
    (hunplaced : ins'.unplaced = ins.unplaced) :
    AppendsTo (Program.of cf') cls query ins' ref := by
  obtain ⟨hname, hsuper⟩ := name_of_widens hcf hwidens hclosed
  refine ⟨?_, ?_, h.descriptor, fun hcls => ?_, ?_⟩
  · rw [Instruction.op_of_unplaced hunplaced, h.op]
  · rw [Instruction.index_of_unplaced hunplaced]
    exact hwidens.extends_.ref h.names
  · have hcls' : cls = cf.name := Eq.trans hcls hname
    exact hforeign hcls' (h.foreign hcls')
  · show Library.method? ⟨cf'.name, cf'.superName⟩ cls ref = _
    rw [hname, hsuper]
    exact h.finds

end

/-! ## Replaced checks -/

/-- A routine has reached a check.  A builder is on top of the operand stack, and the local
variable that the check loads holds the caller.  Where the class itself is the class of the
builder, its methods have names. -/
structure AtCheck (cf : ClassFile) (m : Member) (caller : Identity) (c : Check) (s : State) :
    Prop where
  routine : Routine.of? cf m = some s.frame.routine
  builder : ∃ id cls fields units rest, s.frame.stack = .ref id :: rest ∧
    s.progress.world.heap[id]? = some (.instance cls fields (.builder units)) ∧
    (cls = cf.name → NamesMethods cf)
  finds : Finds caller c.window s

/-- The push of a check and the append behind it end where the check ends: wherever the
check runs by itself, they run by themselves, and interpreted code finds the same things
afterwards.  A run goes on from these two ends. -/
def Faithful (cf cf' : ClassFile) (caller : Identity) (m m' : Member) (c : Check) : Prop :=
  ∃ routine' push append, Routine.of? cf' m' = some routine' ∧
    push.unplaced = c.push.unplaced ∧ append.unplaced = c.append.unplaced ∧
    ∀ (config : Config) (cancelled : Bool) (s s' : State), config.poolSize = caller.poolSize →
      AtCheck cf m caller c s → (Plan.mk (Program.of cf) config cancelled).Passes c.window s s' →
      ∃ t, (Plan.mk (Program.of cf') config cancelled).Passes [push, append]
          (entering s routine' push.offset) t ∧
        SameView s.progress.world.heap.size s' t ∧ t.frame.pc = append.next ∧
        (Plan.mk (Program.of cf) config cancelled).GoesOn c.window.length s s' ∧
        (Plan.mk (Program.of cf') config cancelled).GoesOn 2 (entering s routine' push.offset) t

section

variable {cf cf' : ClassFile} {m m' : Member} {checks : List Check}

/-- The checks of a method are replaced by what they would have seen. -/
theorem Cleared.faithful (h : Cleared cf'.pool caller m m' checks)
    (hcf : cf' = { cf with pool := cf'.pool, methods := cf'.methods })
    (hwidens : cf.pool.Widens cf'.pool) (hclosed : cf.pool.Closed)
    (hroutine : ∀ {name descriptor : String}, NamesMethods cf →
      (Program.of cf).routine? name descriptor = none →
      (Program.of cf').routine? name descriptor = none) {c : Check} (hc : c ∈ checks) :
    Faithful cf cf' caller m m' c := by
  cases h with
  | untouched => cases hc
  | @rewritten body body' old new _ hbody hold hnew hswept hplan =>
    obtain ⟨hstands, push, append, hpush, happend, hnext, hpushed, happended⟩ :=
      exists_in_place hold hnew hswept hplan hc
    have hbody' := Member.body?_setBody hbody body'
    have hroutine' : ∃ routine', Routine.of? cf' (m.setBody body') = some routine' ∧
        routine'.body = body' := by
      unfold Routine.of?
      rw [hbody']
      exact ⟨_, rfl, rfl⟩
    obtain ⟨routine', hof, rfl⟩ := hroutine'
    refine ⟨routine', push, append, hof, hpushed, happended, ?_⟩
    intro config cancelled s s' hsize hat hpasses
    obtain ⟨id, cls, fields, units, rest, hstack, hid, hnames⟩ := hat.builder
    have hreaches {ins : Instruction} (hins : ins ∈ new) (f : Frame) (hf : f.routine = routine')
        (hpc : f.pc = ins.offset) : Reaches f ins := by
      subst hf
      exact Plan.fetch_of_decodeAll hof hnew hins hpc
    obtain ⟨t, ht, hview, hpc⟩ : ∃ t, (Plan.mk (Program.of cf') config cancelled).Passes
        [push, append] (entering s routine' push.offset) t ∧
        SameView s.progress.world.heap.size s' t ∧ t.frame.pc = append.next := by
      refine passes_in_place hstands.asks hstands.appends hwidens.extends_ hsize hat.finds hstack
        hid hpasses rfl (hstands.captures.of_unplaced hpushed).pushesShown ?_ (hreaches hpush) ?_
      · intro ref hto
        exact hto.later hcf hwidens hclosed (fun hcls => hroutine (hnames hcls)) happended
      · rw [← hnext]
        exact hreaches happend
    exact ⟨t, ht, hview, hpc, hpasses.goesOn, ht.goesOn⟩

end

/-- Every check that is replaced is replaced by what it would have seen: the new code of its
method has a push in its place, and wherever the check runs by itself, the push and the
append end as it does, with the same operand stack, local variables, static fields and
objects.  There is a note for each of them.  A failure leaves the methods behind it as they
were. -/
theorem neutralize_faithful {cf : ClassFile} {caller : Identity} {answer : Option Error}
    {out : Neutralized} (hpool : cf.pool.Coherent) (h : neutralize cf caller = (answer, out)) :
    ∃ (cleared : List (Member × List Check)) (noted more : List Note),
      out.cf = { cf with pool := out.cf.pool, methods := cleared.map (·.1) } ∧
      List.Forall₂ (fun m new => Cleared out.cf.pool caller m new.1 new.2 ∧
        ∀ c ∈ new.2, Faithful cf out.cf caller m new.1 c) cf.methods cleared ∧
      out.notes = more ++ noted.reverse ∧ (answer = none → more = []) ∧
      List.Forall₂ Check.IsNoted (cleared.flatMap (·.2)) noted := by
  have hall := @clearedAll_neutralizeMethods cf.pool caller ⟨[], cf⟩ [] cf.methods (.refl hpool)
    hpool.closed rfl
  unfold neutralize at h
  rw [List.length_nil] at hall
  generalize (neutralizeMethods caller 0 cf.methods).run.run ⟨[], cf⟩ = result at h hall
  obtain ⟨cleared, noted, more, hmethods, hcleared, hnotes, hmore, hnoted⟩ := hall.cleared
  obtain ⟨rfl, hanswer⟩ : out = result.2 ∧ (answer = none → result.1 = .ok ()) := by
    obtain ⟨_ | _, s⟩ := result <;> obtain ⟨rfl, rfl⟩ := Prod.mk.inj h <;> exact ⟨rfl, by simp⟩
  have hcf := hall.cf
  have hwidens := hall.widens
  replace hcleared := hcleared.imp fun _ _ => And.left
  rw [List.nil_append] at hmethods
  refine ⟨cleared, noted, more, hmethods ▸ hcf, ?_, by simpa using hnotes,
    fun hnone => hmore (hanswer hnone), hnoted⟩
  refine hcleared.imp fun m new hm => ⟨hm, fun c hc => ?_⟩
  exact hm.faithful hcf hwidens hpool.closed
    (fun hnames => routine?_of_cleared hcleared hmethods hwidens.extends_ hnames) hc

/-- The pool of `asking`. -/
def askingConstants : List Constant :=
  [.utf8 (Bytes.ofText "A"), .class_ 1, .utf8 (Bytes.ofText "m"),
    .utf8 (Bytes.ofText "()V"), .utf8 (Bytes.ofText "Code"),
    .utf8 (Bytes.ofText "sun/misc/SharedSecrets"), .class_ 6,
    .utf8 (Bytes.ofText "getJavaLangAccess"),
    .utf8 (Bytes.ofText "()Lsun/misc/JavaLangAccess;"),
    .nameAndType 8 9, .member .method 7 10,
    .utf8 (Bytes.ofText "java/lang/StackTraceElement"), .class_ 12,
    .utf8 (Bytes.ofText "getClassName"), .utf8 (Bytes.ofText "()Ljava/lang/String;"),
    .nameAndType 14 15, .member .method 13 16,
    .utf8 (Bytes.ofText "java/lang/Class"), .class_ 18,
    .utf8 (Bytes.ofText "forName"),
    .utf8 (Bytes.ofText "(Ljava/lang/String;)Ljava/lang/Class;"),
    .nameAndType 20 21, .member .method 19 22,
    .utf8 (Bytes.ofText "sun/misc/JavaLangAccess"), .class_ 24,
    .utf8 (Bytes.ofText "getConstantPool"),
    .utf8 (Bytes.ofText "(Ljava/lang/Class;)Lsun/reflect/ConstantPool;"),
    .nameAndType 26 27, .member .interfaceMethod 25 28,
    .utf8 (Bytes.ofText "sun/reflect/ConstantPool"), .class_ 30,
    .utf8 (Bytes.ofText "getSize"), .utf8 (Bytes.ofText "()I"),
    .nameAndType 32 33, .member .method 31 34,
    .utf8 (Bytes.ofText "java/lang/StringBuilder"), .class_ 36,
    .utf8 (Bytes.ofText "append"),
    .utf8 (Bytes.ofText "(I)Ljava/lang/StringBuilder;"),
    .nameAndType 38 39, .member .method 37 40]

/-- Code that appends the size of the caller's constant pool to a builder. -/
def askingBody : MethodBody :=
  ⟨3, 2, [0x2b, 0xb8, 0, 11, 0x2a, 0x05, 0x32, 0xb6, 0, 17, 0xb8, 0, 23, 0xb9, 0, 29, 2, 0,
    0xb6, 0, 35, 0xb6, 0, 41, 0x57, 0xb1], [], []⟩

/-- A static method that checks its caller. -/
def askingMethod : Member := ⟨9, 3, 4, [.code 5 "Code" askingBody]⟩

/-- A class with a method that checks its caller. -/
def asking : ClassFile where
  minor := 0
  major := 52
  pool := Pool.ofSlots (none :: askingConstants.map some)
  access := 0x21
  thisClass := 2
  superClass := 0
  interfaces := []
  fields := []
  methods := [askingMethod]
  attributes := []

/-- The instructions of `askingBody`. -/
def askingCode : List Instruction := (Instruction.decodeAll askingBody.bytecode).toOption.getD []

theorem askingCode_ok : Instruction.decodeAll askingBody.bytecode = .ok askingCode := by
  rfl

/-- The check in `askingCode`. -/
def askingWindow : List Instruction := (askingCode.drop 1).take 9

/-- The caller that `asking` expects. -/
def genuine : Identity := ⟨"B", "run", 20⟩

/-- The configuration that shows this caller. -/
def genuineConfig : Config := { caller := ⟨"B", "run"⟩, poolSize := 20 }

/-- The routine of `asking`. -/
def askingRoutine : Routine := (Routine.of? asking askingMethod).get (by decide)

/-- The start of the check: an empty builder is on the operand stack and in the second local
variable, and the first one holds a call stack. -/
def askingState : State where
  frame := { routine := askingRoutine, locals := #[.ref 1, .ref 0], stack := [.ref 0], pc := 1,
             active := ["A.m"] }
  callers := []
  progress := { world := { heap := #[.instance "java/lang/StringBuilder" none (.builder []),
    .array "Ljava/lang/StackTraceElement;" #[.null, .null, .ref 2],
    .instance "java/lang/StackTraceElement" none (.frame ⟨"B", "run"⟩)] } }

theorem coherent_asking : asking.pool.Coherent :=
  Pool.coherent_ofSlots ⟨_, rfl, Pool.laid_of_narrow (by decide), by decide⟩
    (Pool.dangling?_eq_none.1 (by decide +kernel))

theorem atCheck_asking {c : Check} (hc : c.window = askingWindow) :
    AtCheck asking askingMethod genuine c askingState := by
  refine ⟨(Option.some_get (by decide)).symm,
    ⟨0, "java/lang/StringBuilder", none, [], [], rfl, rfl, ?_⟩, ?_⟩
  · intro hname
    exact absurd hname (by decide +kernel)
  · rw [Finds, hc]
    have hloads : ∀ ins ∈ askingWindow, ins.op.expand?.getD (ins.op, ins.operand.local_) =
        (.aload, 0) ∨ (ins.op.expand?.getD (ins.op, ins.operand.local_)).1 ≠ .aload := by
      decide +kernel
    intro ins hins slot hslot
    rcases hloads ins hins with hload | hload
    · obtain ⟨-, rfl⟩ := Prod.mk.inj (hload.symm.trans hslot)
      exact ⟨.ref 1, rfl, 1, _, _, 2, _, _, rfl, rfl, rfl, rfl⟩
    · rw [hslot] at hload
      exact absurd rfl hload

/-- The check for the pool size that starts at offset 1 is the window. -/
theorem window_asking {p : Pool} {caller : Identity} {c : Check}
    (h : Swept p caller askingCode [c]) (hquery : c.query = .poolSize) (hstart : c.start = 1) :
    c.window = askingWindow := by
  obtain ⟨skipped, rest, hcheck, hcode⟩ : ∃ skipped rest, c.Stands p caller ∧
      askingCode = skipped ++ c.window ++ rest := by
    generalize askingCode = code at h
    cases h with
    | replaced hcheck _ => exact ⟨_, _, hcheck, rfl⟩
  have hasks := hcheck.asks
  rw [hquery] at hasks
  have hlength : c.window.length = 9 := by
    generalize hfront : c.front = front at hasks
    cases hasks
    simp [Check.window, hfront]
  have hoffset : askingCode[skipped.length]?.map (·.offset) = some 1 := by
    obtain ⟨first, more, hwindow⟩ := List.exists_cons_of_length_eq_add_one hlength
    rw [hcode, ← hstart, Check.start, hwindow]
    simp
  have hunique : ∀ k < askingCode.length, askingCode[k]?.map (·.offset) = some 1 → k = 1 := by
    decide +kernel
  have hskipped : skipped.length = 1 := by
    refine hunique _ ?_ hoffset
    rw [hcode]
    simp [hlength]
  rw [askingWindow, hcode, List.append_assoc, List.drop_left' hskipped, List.take_left' hlength]

/-- What was noted of a class with one check for the pool size at offset 1. -/
def notesOne : List Note → Bool
  | [.replaced _ 1 name] => name = Query.poolSize.name
  | _ => false

theorem neutralize_faithful_asking :
    asking.pool.Coherent ∧ ∃ (out : Neutralized) (m' : Member) (routine' : Routine)
      (push append : Instruction) (s' t : State),
      neutralize asking genuine = (none, out) ∧ out.cf.methods = [m'] ∧
      Routine.of? out.cf m' = some routine' ∧
      (Plan.mk (Program.of asking) genuineConfig false).Passes askingWindow askingState s' ∧
      (Plan.mk (Program.of out.cf) genuineConfig false).Passes [push, append]
        (entering askingState routine' push.offset) t ∧
      SameView 3 s' t := by
  obtain ⟨out, hout⟩ : ∃ out, neutralize asking genuine = (none, out) :=
    ⟨_, Prod.ext (Option.isNone_iff_eq_none.1 (by decide +kernel)) rfl⟩
  have hone : notesOne (neutralize asking genuine).2.notes = true := by decide +kernel
  rw [hout] at hone
  obtain ⟨cleared, noted, more, hcf, hcleared, hnotes, hmore, hnoted⟩ :=
    neutralize_faithful coherent_asking hout
  obtain rfl := hmore rfl
  obtain ⟨⟨m', checks⟩, cleared, ⟨hm, hfaithful⟩, hrest, rfl⟩ := List.forall₂_cons_left_iff.1 hcleared
  obtain rfl := List.forall₂_nil_left_iff.1 hrest
  -- One check is noted, so it is the only one, and it is the window.
  obtain ⟨method, hnoted'⟩ : ∃ method, noted = [.replaced method 1 Query.poolSize.name] := by
    rw [hnotes, List.nil_append] at hone
    generalize hreverse : noted.reverse = notes at hone
    unfold notesOne at hone
    split at hone
    · obtain rfl := of_decide_eq_true hone
      exact ⟨_, by rw [← noted.reverse_reverse, hreverse]; rfl⟩
    · cases hone
  rw [hnoted', List.flatMap_singleton] at hnoted
  obtain ⟨c, checks, ⟨_, hnote⟩, hchecks, rfl⟩ := List.forall₂_cons_right_iff.1 hnoted
  obtain rfl := List.forall₂_nil_right_iff.1 hchecks
  obtain ⟨-, hstart, hname⟩ := Note.replaced.inj hnote
  have hquery : c.query = .poolSize := by
    revert hname
    cases c.query <;> decide
  have hwindow : c.window = askingWindow := by
    cases hm with
    | rewritten hbody hold hnew hswept hplan =>
      obtain rfl : askingBody = _ := Option.some.inj hbody
      rw [askingCode_ok] at hold
      obtain rfl := Except.ok.inj hold
      exact window_asking hswept hquery hstart.symm
  obtain ⟨routine', push, append, hroutine', -, -, hruns⟩ := hfaithful c (by simp)
  obtain ⟨s', hs'⟩ : ∃ s', (Plan.mk (Program.of asking) genuineConfig false).pass? askingWindow
      askingState = some s' := Option.isSome_iff_exists.1 (by decide +kernel)
  have hpasses := Plan.passes_of_pass? hs'
  obtain ⟨t, ht, hview, -⟩ := hruns genuineConfig false askingState s' rfl
    (atCheck_asking hwindow) (hwindow ▸ hpasses)
  exact ⟨coherent_asking, out, m', routine', push, append, s', t, hout,
    congrArg ClassFile.methods hcf, hroutine', hpasses, ht, hview⟩

end Isolation

end Cleartext
