import Mathlib.Algebra.Order.BigOperators.Group.List
import Mathlib.Data.List.Nodup
import Cleartext.Isolation.Lift
import Cleartext.Proofs.Code.Spelling

/-!
# What a routine reaches

Lifting collects methods and fields from a queue of keys.  What it has found is closed
(`Closed`): whatever a found method names of its class is found, too, or waits in the queue.
A step keeps this, and the fuel suffices to empty the queue (`waiting`), so in the end
nothing waits (`reachable_ok`).
-/

namespace Cleartext.Isolation

variable {cf : ClassFile}

/-! ## The uses of a method -/

/-- An instruction names a member of the class itself. -/
def Names (cf : ClassFile) (ins : Instruction) (key : MemberKey) : Prop :=
  ∃ r, cf.pool.ref ins.operand.index = .ok r ∧ r.owner = cf.name ∧ key = (r.name, r.descriptor)

theorem ownMember?_ok {ins : Instruction} {found : Option MemberKey}
    (h : ownMember? cf ins = .ok found) (key : MemberKey) : Names cf ins key ↔ found = some key := by
  unfold ownMember? at h
  unfold Names
  cases hr : cf.pool.ref ins.operand.index with
  | error e =>
    rw [hr] at h
    have hfound : found = none := by
      cases e <;> cases h <;> rfl
    simp [hfound]
  | ok r =>
    rw [hr] at h
    replace h : (if r.owner = cf.name then some (r.name, r.descriptor) else none) = found :=
      Except.ok.inj h
    rw [← h]
    split
    · rename_i howner
      simp [howner, eq_comm]
    · rename_i howner
      simp [howner]

theorem not_isFieldAccess {op : Opcode} (h : isCall op = true) : ¬ isFieldAccess op = true := by
  revert h
  unfold isCall isFieldAccess
  simp only [List.mem_cons, List.not_mem_nil, or_false, decide_eq_true_eq]
  rintro (rfl | rfl | rfl | rfl) <;> decide

theorem mem_toList_append {ins : Instruction} {found : Option MemberKey}
    (h : ownMember? cf ins = .ok found) (keys : List MemberKey) (key : MemberKey) :
    key ∈ found.toList ++ keys ↔ Names cf ins key ∨ key ∈ keys := by
  rw [List.mem_append, Option.mem_toList, ← ownMember?_ok h key]

/-- What instructions use is what they name, and they do not name more than there are of
them. -/
theorem usesOf_ok {instructions : List Instruction} {uses : Uses}
    (h : usesOf cf instructions = .ok uses) :
    (∀ key, key ∈ uses.methods ↔
      ∃ ins ∈ instructions, isCall ins.op = true ∧ Names cf ins key) ∧
    (∀ key, key ∈ uses.fields ↔
      ∃ ins ∈ instructions, isFieldAccess ins.op = true ∧ Names cf ins key) ∧
    uses.methods.length ≤ instructions.length := by
  induction instructions generalizing uses with
  | nil =>
    obtain rfl := Except.ok.inj h
    simp
  | cons ins rest ih =>
    simp only [List.exists_mem_cons_iff]
    unfold usesOf at h
    by_cases hcall : isCall ins.op = true
    · have hfield := not_isFieldAccess hcall
      rw [if_pos hcall] at h
      obtain ⟨found, hfound, h⟩ := Except.bind_ok.1 h
      obtain ⟨later, hlater, h⟩ := Except.bind_ok.1 h
      obtain rfl := Except.pure_ok.1 h
      obtain ⟨hmethods, hfields, hlength⟩ := ih hlater
      refine ⟨fun key => ?_, fun key => ?_, ?_⟩
      · rw [mem_toList_append hfound, hmethods]
        simp only [hcall, true_and]
      · rw [hfields]
        simp only [hfield, Bool.false_eq_true, false_and, false_or]
      · have htwo : found.toList.length ≤ 1 := by cases found <;> simp
        rw [List.length_append, List.length_cons]
        omega
    · rw [if_neg hcall] at h
      by_cases hfield : isFieldAccess ins.op = true
      · rw [if_pos hfield] at h
        obtain ⟨found, hfound, h⟩ := Except.bind_ok.1 h
        obtain ⟨later, hlater, h⟩ := Except.bind_ok.1 h
        obtain rfl := Except.pure_ok.1 h
        obtain ⟨hmethods, hfields, hlength⟩ := ih hlater
        refine ⟨fun key => ?_, fun key => ?_, hlength.trans (Nat.le_succ _)⟩
        · rw [hmethods]
          simp only [hcall, Bool.false_eq_true, false_and, false_or]
        · rw [mem_toList_append hfound, hfields]
          simp only [hfield, true_and]
      · rw [if_neg hfield] at h
        obtain ⟨hmethods, hfields, hlength⟩ := ih h
        refine ⟨fun key => ?_, fun key => ?_, hlength.trans (Nat.le_succ _)⟩
        · rw [hmethods]
          simp only [hcall, Bool.false_eq_true, false_and, false_or]
        · rw [hfields]
          simp only [hfield, Bool.false_eq_true, false_and, false_or]

/-- The number of bytes of the code of a method. -/
def sizeOf (m : Member) : Nat := (m.body?.map fun b => b.bytecode.length).getD 0

theorem length_le_of_tiles {instructions : List Instruction} {offset : Nat} {code : Bytes}
    (h : Instruction.Tiles offset instructions code) : instructions.length ≤ code.length := by
  induction instructions generalizing offset code with
  | nil => exact Nat.zero_le _
  | cons ins rest ih =>
    obtain ⟨-, -, bytes, more, hspelled, rfl, hrest⟩ := h
    have hpos := List.length_pos_iff.2 hspelled.ne_nil
    have hle := ih hrest
    rw [List.length_cons, List.length_append]
    omega

/-- An instruction stands in the code of a method. -/
def StandsIn (ins : Instruction) (m : Member) : Prop :=
  ∃ body code, m.body? = some body ∧ Instruction.decodeAll body.bytecode = .ok code ∧ ins ∈ code

/-- What a method uses is what its instructions name. -/
theorem uses_ok {m : Member} {uses : Uses} (h : Member.uses cf m = .ok uses) :
    (∀ body, m.body? = some body →
      ∃ code, Instruction.decodeAll body.bytecode = .ok code) ∧
    (∀ key, key ∈ uses.methods ↔
      ∃ ins, StandsIn ins m ∧ isCall ins.op = true ∧ Names cf ins key) ∧
    (∀ key, key ∈ uses.fields ↔
      ∃ ins, StandsIn ins m ∧ isFieldAccess ins.op = true ∧ Names cf ins key) ∧
    uses.methods.length ≤ sizeOf m := by
  unfold Member.uses at h
  unfold sizeOf StandsIn
  cases hbody : m.body? with
  | none =>
    rw [hbody] at h
    obtain rfl := Except.ok.inj h
    simp
  | some body =>
    rw [hbody] at h
    dsimp only at h
    cases hdecode : Instruction.decodeAll body.bytecode with
    | error e =>
      rw [hdecode] at h
      cases h
    | ok code =>
      rw [hdecode] at h
      obtain ⟨hmethods, hfields, hlength⟩ := usesOf_ok h
      have hstands (ins : Instruction) : (∃ body' code', some body = some body' ∧
          Instruction.decodeAll body'.bytecode = .ok code' ∧ ins ∈ code') ↔ ins ∈ code := by
        constructor
        · rintro ⟨body', code', hbody', hdecode', hins⟩
          obtain rfl := Option.some.inj hbody'
          obtain rfl := Except.ok.inj (hdecode.symm.trans hdecode')
          exact hins
        · exact fun hins => ⟨body, code, rfl, hdecode, hins⟩
      simp only [hstands]
      refine ⟨?_, hmethods, hfields,
        hlength.trans (length_le_of_tiles (Instruction.decodeAll_ok.1 hdecode))⟩
      intro body' hbody'
      obtain rfl := Option.some.inj hbody'
      exact ⟨code, hdecode⟩

/-! ## The queue -/

/-- Whatever a method of `found` uses is in `found`, or waits in the queue, or is no method
of the class. -/
structure Closed (cf : ClassFile) (queue : List MemberKey) (found : Uses) : Prop where
  used : ∀ key ∈ found.methods, ∃ m uses, cf.method? key.1 key.2 = some m ∧
    Member.uses cf m = .ok uses ∧
      (∀ other ∈ uses.methods, (cf.method? other.1 other.2).isSome →
        other ∈ found.methods ∨ other ∈ queue) ∧
      uses.fields ⊆ found.fields

/-- The number of bytes of the methods that are not found yet. -/
def waiting (cf : ClassFile) (found : List MemberKey) : Nat :=
  ((cf.methods.filter fun m => !found.contains (keyOf cf m)).map sizeOf).sum

/-- Leaving out one more item leaves out its size. -/
theorem sum_filter_le {α : Type} (size : α → Nat) {p q : α → Bool} (hpq : ∀ a, p a = true → q a = true)
    {a : α} {items : List α} (ha : a ∈ items) (hp : p a = false) (hq : q a = true) :
    ((items.filter p).map size).sum + size a ≤ ((items.filter q).map size).sum := by
  have hle (items : List α) : ((items.filter p).map size).sum ≤ ((items.filter q).map size).sum :=
    ((List.monotone_filter_right items hpq).map size).sum_le_sum fun _ _ => Nat.zero_le _
  induction items with
  | nil => cases ha
  | cons b items ih =>
    rcases List.mem_cons.1 ha with rfl | ha
    · rw [List.filter_cons_of_neg (by simp [hp]), List.filter_cons_of_pos hq, List.map_cons,
        List.sum_cons, Nat.add_comm]
      exact Nat.add_le_add_left (hle items) _
    · have hrest := ih ha
      cases hb : p b with
      | true =>
        rw [List.filter_cons_of_pos hb, List.filter_cons_of_pos (hpq b hb), List.map_cons,
          List.map_cons, List.sum_cons, List.sum_cons]
        omega
      | false =>
        rw [List.filter_cons_of_neg (by simp [hb])]
        refine hrest.trans ?_
        rw [List.filter_cons]
        split
        · rw [List.map_cons, List.sum_cons]
          omega
        · exact le_rfl

theorem isNamed_iff {key : MemberKey} {m : Member} :
    cf.isNamed key.1 key.2 m = true ↔ keyOf cf m = key := by
  unfold ClassFile.isNamed keyOf
  simp only [Bool.and_eq_true, beq_iff_eq, Prod.ext_iff]

theorem method?_eq_some {key : MemberKey} {m : Member} (h : cf.method? key.1 key.2 = some m) :
    m ∈ cf.methods ∧ keyOf cf m = key :=
  ⟨List.mem_of_find?_eq_some h, isNamed_iff.1 (List.find?_some h)⟩

theorem waiting_cons {key : MemberKey} {m : Member} (hm : cf.method? key.1 key.2 = some m)
    {found : List MemberKey} (hkey : key ∉ found) :
    waiting cf (key :: found) + sizeOf m ≤ waiting cf found := by
  obtain ⟨hmem, rfl⟩ := method?_eq_some hm
  refine sum_filter_le sizeOf (fun m hm => ?_) hmem ?_ ?_
  · simp only [Bool.not_eq_true', List.contains_cons, Bool.or_eq_false_iff] at hm ⊢
    exact hm.2
  · simp
  · simpa using hkey

/-- A key that is found, or stands for no method, need not wait. -/
theorem Closed.skip {key : MemberKey} {queue : List MemberKey} {found : Uses}
    (h : Closed cf (key :: queue) found)
    (hkey : (cf.method? key.1 key.2).isSome → key ∈ found.methods) : Closed cf queue found := by
  refine ⟨fun k hk => ?_⟩
  obtain ⟨m, uses, hm, huses, hmethods, hfields⟩ := h.used k hk
  refine ⟨m, uses, hm, huses, fun other hother hsome => ?_, hfields⟩
  rcases hmethods other hother hsome with hfound | hqueue
  · exact .inl hfound
  · rcases List.mem_cons.1 hqueue with rfl | hqueue
    · exact .inl (hkey hsome)
    · exact .inr hqueue

/-- A method is found, and what it uses waits. -/
theorem Closed.take {key : MemberKey} {queue : List MemberKey} {found uses : Uses} {m : Member}
    (h : Closed cf (key :: queue) found) (hm : cf.method? key.1 key.2 = some m)
    (huses : Member.uses cf m = .ok uses) :
    Closed cf (queue ++ uses.methods) ⟨key :: found.methods, uses.fields ++ found.fields⟩ := by
  refine ⟨List.forall_mem_cons.2 ⟨⟨m, uses, hm, huses, fun other hother _ => ?_, ?_⟩, ?_⟩⟩
  · exact .inr (List.mem_append_right _ hother)
  · exact List.subset_append_left _ _
  · intro k hk
    obtain ⟨m', uses', hm', huses', hmethods, hfields⟩ := h.used k hk
    refine ⟨m', uses', hm', huses', fun other hother hsome => ?_,
      List.subset_append_of_subset_right _ hfields⟩
    rcases hmethods other hother hsome with hfound | hqueue
    · exact .inl (List.mem_cons_of_mem _ hfound)
    · rcases List.mem_cons.1 hqueue with rfl | hqueue
      · exact .inl List.mem_cons_self
      · exact .inr (List.mem_append_left _ hqueue)

/-! ## The search -/

/-- A search as it goes until nothing waits: a key is passed over when it is found already
or stands for no method; otherwise its method is found, and what that calls waits. -/
inductive Search (cf : ClassFile) : List MemberKey → Uses → Except Error Uses → Prop
  | done {found : Uses} : Search cf [] found (.ok found)
  | again {key : MemberKey} {queue : List MemberKey} {found : Uses} {result : Except Error Uses}
      (hkey : key ∈ found.methods) (h : Search cf queue found result) :
      Search cf (key :: queue) found result
  | absent {key : MemberKey} {queue : List MemberKey} {found : Uses} {result : Except Error Uses}
      (hkey : key ∉ found.methods) (hm : cf.method? key.1 key.2 = none)
      (h : Search cf queue found result) : Search cf (key :: queue) found result
  | refused {key : MemberKey} {queue : List MemberKey} {found : Uses} {m : Member} {e : Error}
      (hkey : key ∉ found.methods) (hm : cf.method? key.1 key.2 = some m)
      (huses : Member.uses cf m = .error e) : Search cf (key :: queue) found (.error e)
  | taken {key : MemberKey} {queue : List MemberKey} {found own : Uses} {m : Member}
      {result : Except Error Uses} (hkey : key ∉ found.methods)
      (hm : cf.method? key.1 key.2 = some m) (huses : Member.uses cf m = .ok own)
      (h : Search cf (queue ++ own.methods) ⟨key :: found.methods, own.fields ++ found.fields⟩
        result) :
      Search cf (key :: queue) found result

/-- The fuel suffices while it covers what waits and what is not found yet. -/
theorem search_reach (fuel : Nat) {queue : List MemberKey} {found : Uses}
    (hfuel : queue.length + waiting cf found.methods ≤ fuel) :
    Search cf queue found (reach cf fuel queue found) := by
  induction fuel generalizing queue found with
  | zero =>
    obtain rfl := List.length_eq_zero_iff.1 (by omega : queue.length = 0)
    exact .done
  | succ fuel ih =>
    cases queue with
    | nil => exact .done
    | cons key queue =>
      rw [List.length_cons] at hfuel
      unfold reach
      by_cases hkey : key ∈ found.methods
      · rw [if_pos hkey]
        exact .again hkey (ih (by omega))
      · rw [if_neg hkey]
        cases hm : cf.method? key.1 key.2 with
        | none => exact .absent hkey hm (ih (by omega))
        | some m =>
          dsimp only
          cases hown : Member.uses cf m with
          | error e => exact .refused hkey hm hown
          | ok own =>
            obtain ⟨-, -, -, hlength⟩ := uses_ok hown
            have hwaiting := waiting_cons hm hkey
            refine .taken hkey hm hown (ih ?_)
            rw [List.length_append]
            dsimp only
            omega

/-- The keys that a search starts with: that of the routine, and that of the class
initializer if there is one. -/
def seeds (cf : ClassFile) (method : String) : List MemberKey :=
  (method, Pattern.decryptDescriptor) ::
    if (cf.method? "<clinit>" "()V").isSome then [("<clinit>", "()V")] else []

/-- The search of a class comes to its end, however its methods call one another. -/
theorem search_reachable (cf : ClassFile) (method : String) :
    Search cf (seeds cf method) ⟨[], []⟩ (reachable cf method) := by
  have hsize : waiting cf [] = codeSize cf := by
    unfold waiting codeSize
    rw [List.filter_eq_self.2 (by simp)]
    rfl
  have hlength : ∀ b : Bool, (if b = true then [("<clinit>", "()V")] else []).length ≤ 1 := by
    decide
  refine search_reach _ ?_
  have hle := hlength (cf.method? "<clinit>" "()V").isSome
  show (seeds cf method).length + waiting cf [] ≤ _
  rw [seeds, List.length_cons]
  omega

/-- When nothing waits any more, what was found and what waited is closed. -/
theorem Search.closed {queue : List MemberKey} {found : Uses} {result : Except Error Uses}
    (h : Search cf queue found result) (hclosed : Closed cf queue found) {uses : Uses}
    (hresult : result = .ok uses) :
    Closed cf [] uses ∧ found.methods ⊆ uses.methods ∧
      ∀ key ∈ queue, (cf.method? key.1 key.2).isSome → key ∈ uses.methods := by
  induction h with
  | done =>
    obtain rfl := Except.ok.inj hresult
    exact ⟨hclosed, List.Subset.refl _, List.forall_mem_nil _⟩
  | again hkey _ ih =>
    obtain ⟨hfinal, hfound, hqueue⟩ := ih (hclosed.skip fun _ => hkey) hresult
    exact ⟨hfinal, hfound, List.forall_mem_cons.2 ⟨fun _ => hfound hkey, hqueue⟩⟩
  | absent hkey hm _ ih =>
    obtain ⟨hfinal, hfound, hqueue⟩ := ih (hclosed.skip (by simp [hm])) hresult
    exact ⟨hfinal, hfound, List.forall_mem_cons.2 ⟨by simp [hm], hqueue⟩⟩
  | refused => cases hresult
  | taken hkey hm huses _ ih =>
    obtain ⟨hfinal, hfound, hqueue⟩ := ih (hclosed.take hm huses) hresult
    rw [List.cons_subset] at hfound
    rw [List.forall_mem_append] at hqueue
    exact ⟨hfinal, hfound.2, List.forall_mem_cons.2 ⟨fun _ => hfound.1, hqueue.1⟩⟩

/-- What a routine and the class initializer reach is closed, and they are in it. -/
theorem reachable_ok {method : String} {uses : Uses} (h : reachable cf method = .ok uses) :
    Closed cf [] uses ∧
      ((cf.method? method Pattern.decryptDescriptor).isSome →
        (method, Pattern.decryptDescriptor) ∈ uses.methods) ∧
      ((cf.method? "<clinit>" "()V").isSome → ("<clinit>", "()V") ∈ uses.methods) := by
  obtain ⟨hclosed, -, hstart⟩ :=
    (search_reachable cf method).closed ⟨List.forall_mem_nil _⟩ h
  obtain ⟨hmethod, hinit⟩ := List.forall_mem_cons.1 hstart
  refine ⟨hclosed, hmethod, fun hsome => hinit _ ?_ hsome⟩
  rw [if_pos hsome]
  exact List.mem_singleton_self _

/-! ## What is reached -/

/-- The methods that are reached: the routine, the class initializer, and with each of them
those that its calls name. -/
inductive Reached (cf : ClassFile) (method : String) : Member → Prop
  | routine {m : Member} (hm : m ∈ cf.methods)
      (hkey : keyOf cf m = (method, Pattern.decryptDescriptor)) : Reached cf method m
  | initializer {m : Member} (hm : m ∈ cf.methods) (hkey : keyOf cf m = ("<clinit>", "()V")) :
      Reached cf method m
  | call {m caller : Member} {ins : Instruction} (hm : m ∈ cf.methods)
      (h : Reached cf method caller) (hins : StandsIn ins caller) (hop : isCall ins.op = true)
      (hnames : Names cf ins (keyOf cf m)) : Reached cf method m

/-- A reached method has an instruction for a field of the class. -/
def Accessed (cf : ClassFile) (method : String) (key : MemberKey) : Prop :=
  ∃ m ins, Reached cf method m ∧ StandsIn ins m ∧ isFieldAccess ins.op = true ∧ Names cf ins key

theorem Reached.mem {method : String} {m : Member} (h : Reached cf method m) :
    m ∈ cf.methods := by
  cases h <;> assumption

/-- What was found is reached, and so is what waits. -/
structure Warranted (cf : ClassFile) (method : String) (queue : List MemberKey) (found : Uses) :
    Prop where
  queue : ∀ key ∈ queue, ∀ m ∈ cf.methods, keyOf cf m = key → Reached cf method m
  methods : ∀ key ∈ found.methods, ∀ m ∈ cf.methods, keyOf cf m = key → Reached cf method m
  fields : ∀ key ∈ found.fields, Accessed cf method key

theorem Warranted.skip {method : String} {key : MemberKey} {queue : List MemberKey}
    {found : Uses} (h : Warranted cf method (key :: queue) found) :
    Warranted cf method queue found :=
  ⟨(List.forall_mem_cons.1 h.queue).2, h.methods, h.fields⟩

/-- What a reached method names is reached. -/
theorem Warranted.take {method : String} {key : MemberKey} {queue : List MemberKey}
    {found own : Uses} {m : Member} (h : Warranted cf method (key :: queue) found)
    (hm : cf.method? key.1 key.2 = some m) (huses : Member.uses cf m = .ok own) :
    Warranted cf method (queue ++ own.methods)
      ⟨key :: found.methods, own.fields ++ found.fields⟩ := by
  obtain ⟨hmem, hkey⟩ := method?_eq_some hm
  obtain ⟨hfirst, hqueue⟩ := List.forall_mem_cons.1 h.queue
  obtain ⟨-, hmethods, hfields, -⟩ := uses_ok huses
  have hreached := hfirst m hmem hkey
  refine ⟨List.forall_mem_append.2 ⟨hqueue, ?_⟩, List.forall_mem_cons.2 ⟨hfirst, h.methods⟩,
    List.forall_mem_append.2 ⟨?_, h.fields⟩⟩
  · intro other hother callee hcallee hnamed
    obtain ⟨ins, hins, hop, hnames⟩ := (hmethods other).1 hother
    exact .call hcallee hreached hins hop (hnamed ▸ hnames)
  · intro other hother
    obtain ⟨ins, hins, hop, hnames⟩ := (hfields other).1 hother
    exact ⟨m, ins, hreached, hins, hop, hnames⟩

/-- A search finds nothing that is not reached. -/
theorem Search.warranted {method : String} {queue : List MemberKey} {found : Uses}
    {result : Except Error Uses} (h : Search cf queue found result)
    (hfound : Warranted cf method queue found) {uses : Uses} (hresult : result = .ok uses) :
    Warranted cf method [] uses := by
  induction h with
  | done =>
    obtain rfl := Except.ok.inj hresult
    exact hfound
  | again _ _ ih => exact ih hfound.skip hresult
  | absent _ _ _ ih => exact ih hfound.skip hresult
  | refused => cases hresult
  | taken _ hm huses _ ih => exact ih (hfound.take hm huses) hresult

theorem warranted_seeds (cf : ClassFile) (method : String) :
    Warranted cf method (seeds cf method) ⟨[], []⟩ := by
  refine ⟨List.forall_mem_cons.2 ⟨fun m hm hkey => .routine hm hkey, ?_⟩, List.forall_mem_nil _,
    List.forall_mem_nil _⟩
  split
  · exact List.forall_mem_singleton.2 fun m hm hkey => .initializer hm hkey
  · exact List.forall_mem_nil _

/-- When the methods of a class are told apart by their keys, a method is found by its own. -/
theorem method?_keyOf (hdistinct : (cf.methods.map (keyOf cf)).Nodup) {m : Member}
    (hm : m ∈ cf.methods) : cf.method? (keyOf cf m).1 (keyOf cf m).2 = some m := by
  cases hfound : cf.method? (keyOf cf m).1 (keyOf cf m).2 with
  | none => exact absurd (isNamed_iff.2 rfl) (List.find?_eq_none.1 hfound m hm)
  | some m' =>
    obtain ⟨hm', hkey⟩ := method?_eq_some hfound
    rw [List.inj_on_of_nodup_map hdistinct hm' hm hkey]

section

variable {method : String} {uses : Uses} (huses : reachable cf method = .ok uses)
  (hdistinct : (cf.methods.map (keyOf cf)).Nodup)

include huses

/-- Nothing that is not reached is found. -/
theorem reached_of_mem_methods {m : Member} (hm : m ∈ cf.methods)
    (h : keyOf cf m ∈ uses.methods) : Reached cf method m :=
  ((search_reachable cf method).warranted (warranted_seeds cf method) huses).methods _ h m hm rfl

include hdistinct

/-- What a reached method uses is found. -/
theorem mem_methods_of_reached {m : Member} (h : Reached cf method m) :
    keyOf cf m ∈ uses.methods := by
  obtain ⟨hclosed, hmethod, hinit⟩ := reachable_ok huses
  have hdeclared {m : Member} (hm : m ∈ cf.methods) :
      (cf.method? (keyOf cf m).1 (keyOf cf m).2).isSome := by
    rw [method?_keyOf hdistinct hm]
    rfl
  induction h with
  | routine hm hkey =>
    have hsome := hdeclared hm
    rw [hkey] at hsome ⊢
    exact hmethod hsome
  | initializer hm hkey =>
    have hsome := hdeclared hm
    rw [hkey] at hsome ⊢
    exact hinit hsome
  | call hm hcaller hins hop hnames ih =>
    obtain ⟨m', own, hm', hown, hmethods, -⟩ := hclosed.used _ ih
    obtain rfl := Option.some.inj ((method?_keyOf hdistinct hcaller.mem).symm.trans hm')
    have hused := ((uses_ok hown).2.1 _).2 ⟨_, hins, hop, hnames⟩
    exact (hmethods _ hused (hdeclared hm)).resolve_right List.not_mem_nil

/-- The methods that are found are those that are reached. -/
theorem mem_methods_iff {m : Member} (hm : m ∈ cf.methods) :
    keyOf cf m ∈ uses.methods ↔ Reached cf method m :=
  ⟨reached_of_mem_methods huses hm, mem_methods_of_reached huses hdistinct⟩

/-- What a reached method uses was looked at. -/
theorem Reached.looked {m : Member} (h : Reached cf method m) :
    ∃ own, Member.uses cf m = .ok own ∧ own.fields ⊆ uses.fields := by
  obtain ⟨m', own, hm', hown, -, hfields⟩ :=
    (reachable_ok huses).1.used _ (mem_methods_of_reached huses hdistinct h)
  obtain rfl := Option.some.inj ((method?_keyOf hdistinct h.mem).symm.trans hm')
  exact ⟨own, hown, hfields⟩

/-- The fields that are found are those that a reached method has an instruction for. -/
theorem mem_fields_iff (key : MemberKey) : key ∈ uses.fields ↔ Accessed cf method key := by
  constructor
  · exact ((search_reachable cf method).warranted (warranted_seeds cf method) huses).fields key
  · rintro ⟨m, ins, hm, hins, hop, hnames⟩
    obtain ⟨own, hown, hfields⟩ := hm.looked huses hdistinct
    exact hfields (((uses_ok hown).2.2.1 key).2 ⟨ins, hins, hop, hnames⟩)

/-- The code of a reached method can be taken apart. -/
theorem Reached.decoded {m : Member} (h : Reached cf method m) {body : MethodBody}
    (hbody : m.body? = some body) :
    ∃ code, Instruction.decodeAll body.bytecode = .ok code := by
  obtain ⟨own, hown, -⟩ := h.looked huses hdistinct
  exact (uses_ok hown).1 body hbody

end

end Cleartext.Isolation
