import Mathlib.Data.List.Induction
import Cleartext.Proofs.Pattern.Operands

/-!
# Matching templates

When a template matches at a position.  Its steps fit the instructions from there on, nothing
leads behind the first of them, and every name has one value (`Template.Matches`); the
bindings of a match are the first uses of its names.

* `Demand.check_eq_some`: checking a demand step by step comes to the same as collecting
  the uses of names, and binding them when all else fits.
* `bindAll_eq_some`: the names can be bound when later uses agree with the first ones.
* `matchAt_cases`, `firstMatch_cases`: a template, and the first of several, is found where
  it matches, unless one that is tried has no answer.

Looking up a reference where the pool has an entry of another kind comes to no answer at all,
not to a step that fails.  A step stumbles over an instruction for which that is done
(`Step.Stumbles`), and a template over its first step that stumbles, when all earlier ones are
passed (`Template.StumblesAt`).  No other operand leaves a step without an answer
(`Step.check_error_iff`).
-/

namespace Cleartext.Pattern

variable {pool : Pool} {body? : Option MethodBody} {templates : List Template} {t : Template}
  {instructions rest : List Instruction} {ins : Instruction} {i : Nat}

/-! ## What a match is -/

/-- Whether a value meets a demand, whatever its names are bound to. -/
def Demand.Fits : Demand → Meaning → Prop
  | .any, _ => True
  | .oneOf values, value => ∃ v ∈ values, v.agrees value = true
  | .bind _ stringOnly, value => stringOnly = true → value.isString = true
  | .ref owner name descriptor, value =>
    ∃ r, value = .ref r ∧ owner.Fits (.text r.owner) ∧ name.Fits (.text r.name) ∧
      descriptor.Fits (.text r.descriptor)

/-- The names that a demand uses and the values it uses them for, in order. -/
def Demand.uses (index : UInt16) : Demand → Meaning → Bindings
  | .bind name _, value => [(name, ⟨index, value⟩)]
  | .ref owner name descriptor, .ref r =>
    owner.uses index (.text r.owner) ++ name.uses index (.text r.name) ++
      descriptor.uses index (.text r.descriptor)
  | _, _ => []

/-- A step accepts an instruction, and the operand, if something is demanded of it, meets
the demand. -/
def Step.Fits (pool : Pool) (s : Step) (ins : Instruction) : Prop :=
  s.family.accepts pool ins = true ∧ (s.demand.isAny = false →
    ∃ index value, s.family.resolve pool ins = .ok (some (index, value)) ∧ s.demand.Fits value)

/-- The names that a step uses. -/
def Step.uses (pool : Pool) (s : Step) (ins : Instruction) : Bindings :=
  match s.family.resolve pool ins with
  | .ok (some (index, value)) => s.demand.uses index value
  | _ => []

/-- The names that steps use, one instruction for each. -/
def usesOf (pool : Pool) (steps : List Step) (window : List Instruction) : Bindings :=
  (steps.zip window).flatMap fun (s, ins) => s.uses pool ins

/-- Every use of a name agrees with the first one. -/
def Consistent (uses : Bindings) : Prop :=
  ∀ before name b after, uses = before ++ (name, b) :: after →
    ∀ first, before.lookup name = some first → first.value.agrees b.value = true

/-- The first use of every name. -/
def firstUses (uses : Bindings) : Bindings :=
  uses.foldl (fun bound use => if (bound.lookup use.1).isSome then bound else bound ++ [use]) []

/-- Execution comes to an offset from elsewhere: from a branch or a switch, or with an
exception. -/
def Leads (body : MethodBody) (instructions : List Instruction) (offset : Nat) : Prop :=
  (∃ ins ∈ instructions, (offset : Int) ∈ ins.targets) ∨ ∃ h ∈ body.handlers, h.target.toNat = offset

/-- The instructions at the steps of a template, the first of which is at `i`. -/
def Template.window (t : Template) (instructions : List Instruction) (i : Nat) : List Instruction :=
  (instructions.drop i).take t.steps.length

/-- A template matches at a position.  Where the body is given, nothing may lead behind the
first instruction. -/
structure Template.Matches (pool : Pool) (body? : Option MethodBody)
    (instructions : List Instruction) (i : Nat) (t : Template) : Prop where
  steps : t.steps ≠ []
  room : i + t.steps.length ≤ instructions.length
  fits : ∀ pair ∈ t.steps.zip (t.window instructions i), pair.1.Fits pool pair.2
  guarded : ∀ ins ∈ (t.window instructions i).tail, ∀ body ∈ body?,
    ¬ Leads body instructions ins.offset
  consistent : Consistent (usesOf pool t.steps (t.window instructions i))

/-- The match of a template at a position. -/
def Template.found (pool : Pool) (instructions : List Instruction) (i : Nat) (t : Template) : Match :=
  { template := t
    bindings := firstUses (usesOf pool t.steps (t.window instructions i))
    instructions := t.window instructions i }

theorem Template.Matches.length_window (h : t.Matches pool body? instructions i) :
    (t.window instructions i).length = t.steps.length := by
  have hroom := h.room
  rw [window, List.length_take, List.length_drop]
  omega

/-- Every instruction of a match fits a step. -/
theorem Template.Matches.exists_fits (h : t.Matches pool body? instructions i)
    (hins : ins ∈ t.window instructions i) : ∃ s ∈ t.steps, s.Fits pool ins := by
  obtain ⟨k, hk, rfl⟩ := List.getElem_of_mem hins
  have hlength := h.length_window
  have hpair : (t.steps[k], (t.window instructions i)[k]) ∈
      t.steps.zip (t.window instructions i) := by
    rw [← List.getElem_zip]
    exact List.getElem_mem (by rw [List.length_zip]; omega)
  exact ⟨_, List.getElem_mem _, h.fits _ hpair⟩

/-! ## What a template stumbles over -/

/-- Whether the operand of an opcode is looked up as a member. -/
def looksForMember : Opcode → Bool
  | .ldc | .ldcW | .ldc2W | .new | .anewarray | .checkcast | .instanceof | .multianewarray
  | .invokedynamic => false
  | op => op.usesPool

/-- Where an instruction looks for a member, there is one, or nothing at all. -/
def NamesMember (pool : Pool) (ins : Instruction) : Prop :=
  looksForMember ins.op = true → ∀ c, pool.get? ins.operand.index = some c →
    ∃ kind owner nameAndType, c = .member kind owner nameAndType

/-- The operands of instructions are of the right kinds. -/
def NamesMembers (pool : Pool) (instructions : List Instruction) : Prop :=
  ∀ ins ∈ instructions, NamesMember pool ins

/-- A step accepts an instruction and demands something of its operand, which is looked up as
a member, and the pool has another entry there. -/
structure Step.Stumbles (pool : Pool) (s : Step) (ins : Instruction) : Prop where
  family : s.family = .exactly ins.op
  demands : s.demand.isAny = false
  strays : ¬ NamesMember pool ins

/-- A step demands something of an operand that is looked up in the pool, and nothing can be
read there. -/
structure Step.Misses (pool : Pool) (s : Step) (ins : Instruction) : Prop where
  demands : s.demand.isAny = false
  usesPool : ins.op.usesPool = true
  family : (∀ op, s.family ≠ .load op) ∧ s.family ≠ .pushInt
  lookup : ∃ e, poolMeaning pool ins.op ins.operand.index = .error e

/-- The first steps of a template. -/
def Template.upTo (t : Template) (k : Nat) : Template := { t with steps := t.steps.take k }

/-- A template stumbles at one of its steps: there is room for all of its steps, those before
match, and nothing leads to the instruction, unless it is the first. -/
structure Template.StumblesAt (pool : Pool) (body? : Option MethodBody)
    (instructions : List Instruction) (i : Nat) (t : Template) (k : Nat) : Prop where
  room : i + t.steps.length ≤ instructions.length
  before : k ≠ 0 → (t.upTo k).Matches pool body? instructions i
  stumbles : ∃ s ins, t.steps[k]? = some s ∧ instructions[i + k]? = some ins ∧
    s.Stumbles pool ins ∧ (k ≠ 0 → ∀ body ∈ body?, ¬ Leads body instructions ins.offset)

/-- A template stumbles at a position. -/
def Template.Stumbles (pool : Pool) (body? : Option MethodBody) (instructions : List Instruction)
    (i : Nat) (t : Template) : Prop :=
  ∃ k, t.StumblesAt pool body? instructions i k

/-! ## Names and their first uses -/

theorem firstUses_concat (uses : Bindings) (name : String) (b : Binding) :
    firstUses (uses ++ [(name, b)]) =
      if ((firstUses uses).lookup name).isSome then firstUses uses
      else firstUses uses ++ [(name, b)] := by
  unfold firstUses
  rw [List.foldl_append]
  rfl

/-- The first uses bind every name to what it is used for first. -/
theorem lookup_firstUses (uses : Bindings) (name : String) :
    (firstUses uses).lookup name = uses.lookup name := by
  induction uses using List.reverseRecOn with
  | nil => rfl
  | append_singleton uses use ih =>
    obtain ⟨n, b⟩ := use
    rw [firstUses_concat, List.lookup_append, ← ih]
    split
    · rename_i hbound
      rw [List.lookup_cons]
      cases hname : name == n with
      | false => simp
      | true =>
        rw [← eq_of_beq hname] at hbound
        obtain ⟨first, hfirst⟩ := Option.isSome_iff_exists.1 hbound
        rw [hfirst, Option.some_or]
    · rw [List.lookup_append]

theorem Consistent.of_append {uses later : Bindings} (h : Consistent (uses ++ later)) :
    Consistent uses := by
  rintro before name b after rfl
  exact h before name b (after ++ later) (by simp)

theorem consistent_concat {uses : Bindings} {name : String} {b : Binding} :
    Consistent (uses ++ [(name, b)]) ↔ Consistent uses ∧
      ∀ first, uses.lookup name = some first → first.value.agrees b.value = true := by
  constructor
  · intro h
    exact ⟨h.of_append, h uses name b [] rfl⟩
  · rintro ⟨huses, hlast⟩ before n b' after heq
    rcases List.eq_nil_or_concat after with rfl | ⟨after, use, rfl⟩
    · obtain ⟨rfl, hsame⟩ := List.append_inj' heq rfl
      obtain ⟨rfl, rfl⟩ := Prod.mk.inj (List.singleton_inj.1 hsame)
      exact hlast
    · rw [List.concat_eq_append, ← List.cons_append, ← List.append_assoc] at heq
      exact huses before n b' after (List.append_inj' heq rfl).1

/-- Binds names one after another, as long as each use agrees with what is bound. -/
def bindAll : Bindings → Bindings → Option Bindings
  | bound, [] => some bound
  | bound, (name, b) :: uses =>
    match bound.lookup name with
    | some first => if first.value.agrees b.value then bindAll bound uses else none
    | none => bindAll (bound ++ [(name, b)]) uses

theorem bindAll_append (bound uses uses' : Bindings) :
    bindAll bound (uses ++ uses') = (bindAll bound uses).bind (bindAll · uses') := by
  fun_induction bindAll bound uses with
  | case1 bound => rfl
  | case2 bound name b uses first hfirst hagrees ih =>
    rw [List.cons_append, bindAll, hfirst]
    simp only [hagrees, if_true]
    exact ih
  | case3 bound name b uses first hfirst hagrees =>
    rw [List.cons_append, bindAll, hfirst]
    simp only [hagrees]
    rfl
  | case4 bound name b uses hfirst ih =>
    rw [List.cons_append, bindAll, hfirst]
    exact ih

/-- Uses that follow earlier ones can be bound when they agree with the first ones, and it
is the first ones that are bound. -/
theorem bindAll_firstUses {earlier uses bound : Bindings} (h : Consistent earlier) :
    bindAll (firstUses earlier) uses = some bound ↔
      Consistent (earlier ++ uses) ∧ bound = firstUses (earlier ++ uses) := by
  induction uses generalizing earlier with
  | nil => simp [bindAll, h, eq_comm]
  | cons use uses ih =>
    obtain ⟨name, b⟩ := use
    have hsplit : earlier ++ (name, b) :: uses = (earlier ++ [(name, b)]) ++ uses := by simp
    have hconcat := firstUses_concat earlier name b
    rw [bindAll, hsplit, lookup_firstUses]
    cases hlookup : earlier.lookup name with
    | some first =>
      rw [lookup_firstUses, hlookup, Option.isSome_some, if_pos rfl] at hconcat
      dsimp only
      by_cases hagrees : first.value.agrees b.value = true
      · rw [if_pos hagrees, ← hconcat]
        refine ih (consistent_concat.2 ⟨h, fun first' hfirst' => ?_⟩)
        rw [← Option.some.inj (hlookup.symm.trans hfirst')]
        exact hagrees
      · rw [if_neg hagrees]
        refine iff_of_false nofun fun hboth => hagrees ?_
        exact (consistent_concat.1 hboth.1.of_append).2 first hlookup
    | none =>
      rw [lookup_firstUses, hlookup, Option.isSome_none, if_neg (by decide)] at hconcat
      dsimp only
      rw [← hconcat]
      refine ih (consistent_concat.2 ⟨h, fun first hfirst => ?_⟩)
      rw [hlookup] at hfirst
      cases hfirst

/-- Names can be bound when every use agrees with the first one. -/
theorem bindAll_eq_some {uses bound : Bindings} :
    bindAll [] uses = some bound ↔ Consistent uses ∧ bound = firstUses uses :=
  bindAll_firstUses (show Consistent [] from fun _ _ _ _ h => by simp at h)

/-! ## Steps -/

/-- Checking a demand is to see that it fits and to bind the names that it uses. -/
theorem Demand.check_eq_some {d : Demand} {index : UInt16} {value : Meaning} {bound bound' : Bindings} :
    d.check index value bound = some bound' ↔
      d.Fits value ∧ bindAll bound (d.uses index value) = some bound' := by
  induction d generalizing value bound bound' with
  | any => simp [check, Fits, uses, bindAll]
  | oneOf values =>
    simp only [check, Fits, uses, bindAll, ← List.any_eq_true]
    split <;> simp_all
  | bind name stringOnly =>
    simp only [check, Fits, uses, bindAll]
    cases hlookup : bound.lookup name with
    | none => cases stringOnly <;> cases value.isString <;> simp
    | some first => cases stringOnly <;> cases value.isString <;> simp
  | ref owner name descriptor howner hname hdescriptor =>
    cases value with
    | ref r =>
      simp only [check, Fits, uses, bindAll_append, Meaning.ref.injEq, Option.bind_eq_bind,
        Option.bind_eq_some_iff, howner, hname, hdescriptor]
      constructor
      · rintro ⟨b₁, ⟨hfits₁, hb₁⟩, b₂, ⟨hfits₂, hb₂⟩, hfits₃, hb₃⟩
        exact ⟨⟨r, rfl, hfits₁, hfits₂, hfits₃⟩, b₂, ⟨b₁, hb₁, hb₂⟩, hb₃⟩
      · rintro ⟨⟨_, rfl, hfits₁, hfits₂, hfits₃⟩, b₂, ⟨b₁, hb₁, hb₂⟩, hb₃⟩
        exact ⟨b₁, ⟨hfits₁, hb₁⟩, b₂, ⟨hfits₂, hb₂⟩, hfits₃, hb₃⟩
    | _ => simp [check, Fits]

/-! ## Operands -/

/-- The lookup of a reference has no answer when the pool has an entry of another kind. -/
theorem ref_collapsed_iff {p : Pool} {index : UInt16} : p.ref index = .error .collapsed ↔
    ∃ c, p.get? index = some c ∧ ∀ kind owner nameAndType, c ≠ .member kind owner nameAndType := by
  constructor
  · intro h
    cases hget : p.get? index with
    | none =>
      unfold Pool.ref Pool.get at h
      rw [hget] at h
      cases h
    | some c =>
      refine ⟨c, rfl, ?_⟩
      rintro kind owner nameAndType rfl
      exact ref_ne_collapsed hget h
  · rintro ⟨c, hget, hc⟩
    unfold Pool.ref
    rw [Pool.get_ok.2 hget]
    cases c with
    | member kind owner nameAndType => exact absurd rfl (hc kind owner nameAndType)
    | _ => rfl

/-- A reference that can be looked up stands at a member. -/
theorem exists_member_of_ref {p : Pool} {index : UInt16} {r : Ref} (h : p.ref index = .ok r) :
    ∃ kind owner nameAndType, p.get? index = some (.member kind owner nameAndType) := by
  obtain ⟨c, hget, hread⟩ := Except.bind_ok.1 h
  cases c with
  | member kind owner nameAndType => exact ⟨kind, owner, nameAndType, Pool.get_ok.1 hget⟩
  | _ => cases hread

theorem not_namesMember_iff : ¬ NamesMember pool ins ↔
    looksForMember ins.op = true ∧ pool.ref ins.operand.index = .error .collapsed := by
  unfold NamesMember
  rw [ref_collapsed_iff]
  push Not
  rfl

theorem poolMeaning_ne_collapsed (h : NamesMember pool ins) (hop : ins.op.usesPool = true) :
    poolMeaning pool ins.op ins.operand.index ≠ .error .collapsed := by
  unfold NamesMember at h
  generalize ins.operand.index = index at h ⊢
  unfold poolMeaning
  unfold looksForMember at h
  split
  case h_1 | h_2 | h_3 => exact bind_ne_collapsed (value_ne_collapsed pool index) fun _ => pure_ne_collapsed _
  case h_9 =>
    refine bind_ne_collapsed (get_ne_collapsed pool index) fun c => ?_
    cases c with
    | dynamic _ n | invokeDynamic _ n =>
      exact bind_ne_collapsed (nameAndType_ne_collapsed pool n) fun _ => pure_ne_collapsed _
    | _ =>
      intro heq
      cases heq
  case h_10 =>
    refine bind_ne_collapsed ?_ fun _ => pure_ne_collapsed _
    have hmember := h (by simp_all)
    cases hget : pool.get? index with
    | some c =>
      obtain ⟨kind, owner, nameAndType, rfl⟩ := hmember c hget
      exact ref_ne_collapsed hget
    | none =>
      unfold Pool.ref Pool.get
      rw [hget]
      intro heq
      cases heq
  all_goals exact bind_ne_collapsed (className_ne_collapsed pool index) fun _ => pure_ne_collapsed _

theorem poolMeaning_collapsed (h : ¬ NamesMember pool ins) :
    poolMeaning pool ins.op ins.operand.index = .error .collapsed := by
  obtain ⟨hlooks, href⟩ := not_namesMember_iff.1 h
  unfold looksForMember at hlooks
  unfold poolMeaning
  split <;> simp_all

theorem usesPool_of_looksForMember {op : Opcode} (h : looksForMember op = true) :
    op.usesPool = true := by
  unfold looksForMember at h
  split at h <;> first | exact h | cases h

/-- What the operand of a family without rules of its own stands for: what the lookup finds. -/
theorem resolve_pool {f : Family} (hload : ∀ op, f ≠ .load op) (hpush : f ≠ .pushInt)
    (hpool : ins.op.usesPool = true) :
    f.resolve pool ins = (orNothing (poolMeaning pool ins.op ins.operand.index)).map
      (Option.map fun v => (ins.operand.index, v)) := by
  unfold Family.resolve
  unfold Opcode.usesPool at hpool
  split
  · exact absurd rfl (hload _)
  · exact absurd rfl hpush
  · split <;> rename_i hshape
    case h_1 | h_2 | h_3 | h_4 | h_5 =>
      rw [hshape] at hpool
      cases hpool
    · rw [if_pos (by unfold Opcode.usesPool; exact hpool)]
      rfl

theorem orNothing_error {α : Type} {a : Except Error α} {e : Error} (h : orNothing a = .error e) :
    e = .collapsed ∧ a = .error .collapsed := by
  unfold orNothing at h
  split at h <;> cases h
  exact ⟨rfl, rfl⟩

/-- The lookup for an operand comes to no answer where a member is looked for and there is
something else. -/
theorem strays_of_resolve_error {f : Family} {e : Error} (h : f.resolve pool ins = .error e) :
    e = .collapsed ∧ ¬ NamesMember pool ins := by
  by_cases hpool : ins.op.usesPool = true
  · cases f with
    | load | pushInt => cases h
    | exactly | loadConstant =>
      rw [resolve_pool (fun _ h => by cases h) (fun h => by cases h) hpool] at h
      cases hlookup : orNothing (poolMeaning pool ins.op ins.operand.index) with
      | ok answer =>
        rw [hlookup] at h
        cases h
      | error e' =>
        rw [hlookup] at h
        obtain rfl := Except.error.inj h
        obtain ⟨rfl, hmeaning⟩ := orNothing_error hlookup
        exact ⟨rfl, fun hnames => poolMeaning_ne_collapsed hnames hpool hmeaning⟩
  · unfold Family.resolve at h
    rw [if_neg hpool] at h
    split at h
    · cases h
    · cases h
    · split at h <;> cases h

/-- An operand stands for something or for nothing, except where a member is looked for and
there is something else. -/
theorem Family.resolve_error_iff {f : Family} {e : Error} (haccepts : f.accepts pool ins = true) :
    f.resolve pool ins = .error e ↔ e = .collapsed ∧ f = .exactly ins.op ∧ ¬ NamesMember pool ins := by
  constructor
  · intro h
    obtain ⟨rfl, hstrays⟩ := strays_of_resolve_error h
    refine ⟨rfl, ?_, hstrays⟩
    cases f with
    | load | pushInt => cases h
    | exactly op => rw [of_decide_eq_true haccepts]
    | loadConstant =>
      have hlooks := (not_namesMember_iff.1 hstrays).1
      simp only [accepts, Bool.or_eq_true, decide_eq_true_eq] at haccepts
      rcases haccepts with hop | hop <;> rw [hop] at hlooks <;> cases hlooks
  · rintro ⟨rfl, rfl, hstrays⟩
    have hpool := usesPool_of_looksForMember (not_namesMember_iff.1 hstrays).1
    rw [resolve_pool (fun _ h => by cases h) (fun h => by cases h) hpool, poolMeaning_collapsed hstrays]
    rfl

/-! ## Steps -/

/-- A step has an answer for every instruction but those that it stumbles over. -/
theorem Step.check_error_iff {s : Step} {bound : Bindings} {e : Error} :
    s.check pool ins bound = .error e ↔ e = .collapsed ∧ s.Stumbles pool ins := by
  unfold check
  cases haccepts : s.family.accepts pool ins with
  | false =>
    refine iff_of_false nofun fun ⟨_, hs⟩ => ?_
    rw [hs.family] at haccepts
    simp [Family.accepts] at haccepts
  | true =>
    cases hany : s.demand.isAny with
    | true => exact iff_of_false nofun fun ⟨_, hs⟩ => by cases hany.symm.trans hs.demands
    | false =>
      have hresolve := Family.resolve_error_iff (e := e) haccepts
      have hstumbles : e = .collapsed ∧ s.Stumbles pool ins ↔ s.family.resolve pool ins = .error e := by
        rw [hresolve]
        exact ⟨fun ⟨he, hs⟩ => ⟨he, hs.family, hs.strays⟩, fun ⟨he, hf, hs⟩ => ⟨he, hf, hany, hs⟩⟩
      rw [hstumbles]
      cases s.family.resolve pool ins with
      | error e' =>
        show (Except.error e' : Except Error (Option Bindings)) = .error e ↔ _
        rw [Except.error.injEq, Except.error.injEq]
      | ok operand => rcases operand with _ | ⟨index, value⟩ <;> exact iff_of_false nofun nofun

/-- A step that has an answer is passed when it fits and its names can be bound. -/
theorem Step.check_spec {s : Step} {bound : Bindings} {answer : Option Bindings}
    (h : s.check pool ins bound = .ok answer) (bound' : Bindings) :
    answer = some bound' ↔ s.Fits pool ins ∧ bindAll bound (s.uses pool ins) = some bound' := by
  unfold check at h
  unfold Fits uses
  cases haccepts : s.family.accepts pool ins with
  | false =>
    rw [haccepts] at h
    obtain rfl := Except.ok.inj h
    simp
  | true =>
    rw [haccepts] at h
    cases hany : s.demand.isAny with
    | true =>
      have hdemand : s.demand = .any := by
        cases hd : s.demand with
        | any => rfl
        | _ => simp [hd, Demand.isAny] at hany
      rw [hany] at h
      obtain rfl := Except.ok.inj h
      have huses : (match s.family.resolve pool ins with
          | .ok (some (index, value)) => s.demand.uses index value
          | _ => []) = [] := by
        rw [hdemand]
        split <;> rfl
      rw [huses]
      simp [bindAll]
    | false =>
      rw [hany] at h
      cases hresolve : s.family.resolve pool ins with
      | error e =>
        rw [hresolve] at h
        cases h
      | ok operand =>
        rw [hresolve] at h
        rcases operand with _ | ⟨index, value⟩
        · obtain rfl := Except.ok.inj h
          simp
        · obtain rfl := Except.ok.inj h
          rw [Demand.check_eq_some]
          simp

/-- A step that fits does not stumble. -/
theorem Step.Fits.not_stumbles {s : Step} (h : s.Fits pool ins) : ¬ s.Stumbles pool ins := by
  intro hs
  obtain ⟨index, value, hresolve, -⟩ := h.2 hs.demands
  have herror := (Family.resolve_error_iff h.1).2 ⟨rfl, hs.family, hs.strays⟩
  cases hresolve.symm.trans herror

theorem Step.Misses.not_fits {s : Step} (h : s.Misses pool ins) : ¬ s.Fits pool ins := by
  intro hfits
  obtain ⟨index, value, hresolve, -⟩ := hfits.2 h.demands
  obtain ⟨e, he⟩ := h.lookup
  rw [resolve_pool h.family.1 h.family.2 h.usesPool, he] at hresolve
  cases e <;> cases hresolve

/-- A step fails for an operand of which nothing can be read, unless it stumbles. -/
theorem Step.Misses.check_eq {s : Step} {bound : Bindings} (h : s.Misses pool ins)
    (hs : ¬ s.Stumbles pool ins) : s.check pool ins bound = .ok none := by
  rcases hcheck : s.check pool ins bound with e | _ | bound'
  · exact absurd (check_error_iff.1 hcheck).2 hs
  · rfl
  · exact absurd ((check_spec hcheck bound').1 rfl).1 h.not_fits

theorem usesOf_cons (s : Step) (steps : List Step) (ins : Instruction) (window : List Instruction) :
    usesOf pool (s :: steps) (ins :: window) = s.uses pool ins ++ usesOf pool steps window := by
  rfl

/-- Steps that have an answer are passed when nothing leads to their instructions, each of them
fits, and the names of all of them can be bound. -/
theorem checkSteps_spec {barriers : List Int} {steps : List Step} {window : List Instruction}
    {bound : Bindings} {answer : Option Bindings} (hlength : window.length = steps.length)
    (h : checkSteps pool barriers steps (window ++ rest) bound = .ok answer) (bound' : Bindings) :
    answer = some bound' ↔ (∀ ins ∈ window, (ins.offset : Int) ∉ barriers) ∧
      (∀ pair ∈ steps.zip window, pair.1.Fits pool pair.2) ∧
      bindAll bound (usesOf pool steps window) = some bound' := by
  induction steps generalizing window bound with
  | nil =>
    obtain rfl := List.eq_nil_of_length_eq_zero hlength
    obtain rfl := Except.ok.inj h
    simp [usesOf, bindAll]
  | cons s steps ih =>
    obtain ⟨ins, window, rfl⟩ := List.exists_cons_of_length_eq_add_one hlength
    rw [List.cons_append, checkSteps] at h
    simp only [List.forall_mem_cons, List.zip_cons_cons, usesOf_cons, bindAll_append,
      Option.bind_eq_some_iff]
    by_cases hbarrier : (ins.offset : Int) ∈ barriers
    · rw [if_pos hbarrier] at h
      obtain rfl := Except.ok.inj h
      simp [hbarrier]
    · rw [if_neg hbarrier] at h
      cases hcheck : s.check pool ins bound with
      | error e =>
        rw [hcheck] at h
        cases h
      | ok first =>
        rw [hcheck] at h
        have hfirst := Step.check_spec hcheck
        cases first with
        | none =>
          obtain rfl := Except.ok.inj h
          refine iff_of_false nofun ?_
          rintro ⟨-, ⟨hfits, -⟩, bound₁, hbound₁, -⟩
          cases (hfirst bound₁).2 ⟨hfits, hbound₁⟩
        | some bound₁ =>
          obtain ⟨hfits, hbound₁⟩ := (hfirst bound₁).1 rfl
          rw [ih (by simpa using hlength) h, hbound₁]
          simp [hbarrier, hfits]

section

variable {barriers : List Int} {s : Step} {steps : List Step} {window : List Instruction}
  {bound bound' : Bindings}

theorem checkSteps_of_some (hbarrier : (ins.offset : Int) ∉ barriers)
    (hcheck : s.check pool ins bound = .ok (some bound')) :
    checkSteps pool barriers (s :: steps) (ins :: window) bound =
      checkSteps pool barriers steps window bound' := by
  rw [checkSteps, if_neg hbarrier, hcheck]
  rfl

theorem checkSteps_of_none
    (h : (ins.offset : Int) ∈ barriers ∨ s.check pool ins bound = .ok none) :
    checkSteps pool barriers (s :: steps) (ins :: window) bound = .ok none := by
  rw [checkSteps]
  split
  · rfl
  · rename_i hbarrier
    rw [h.resolve_left hbarrier]
    rfl

/-- Steps have an answer unless one of them stumbles when all before it are passed, and nothing
leads to its instruction. -/
theorem checkSteps_error_iff {e : Error} : checkSteps pool barriers steps window bound = .error e ↔
    e = .collapsed ∧ ∃ (k : Nat) (s : Step) (ins : Instruction) (bound' : Bindings),
      steps[k]? = some s ∧ window[k]? = some ins ∧
      checkSteps pool barriers (steps.take k) window bound = .ok (some bound') ∧
      (ins.offset : Int) ∉ barriers ∧ s.Stumbles pool ins := by
  induction steps generalizing window bound with
  | nil => simp [checkSteps]
  | cons s steps ih =>
    cases window with
    | nil => simp [checkSteps]
    | cons ins window =>
      by_cases hnone : (ins.offset : Int) ∈ barriers ∨ s.check pool ins bound = .ok none
      · rw [checkSteps_of_none hnone]
        refine iff_of_false nofun ?_
        rintro ⟨-, _ | k, s', ins', bound', hs, hins, hbefore, hbarrier, hstumbles⟩
        · obtain rfl := Option.some.inj hs
          obtain rfl := Option.some.inj hins
          have herror : s.check pool ins bound = .error .collapsed :=
            Step.check_error_iff.2 ⟨rfl, hstumbles⟩
          cases herror.symm.trans (hnone.resolve_left hbarrier)
        · rw [List.take_succ_cons, checkSteps_of_none hnone] at hbefore
          cases hbefore
      · obtain ⟨hbarrier, hcheck⟩ := not_or.1 hnone
        cases hfirst : s.check pool ins bound with
        | error e' =>
          obtain ⟨rfl, hstumbles⟩ := Step.check_error_iff.1 hfirst
          have herror : checkSteps pool barriers (s :: steps) (ins :: window) bound =
              .error .collapsed := by
            rw [checkSteps, if_neg hbarrier, hfirst]
            rfl
          rw [herror]
          constructor
          · intro h
            exact ⟨(Except.error.inj h).symm, 0, s, ins, bound, rfl, rfl, rfl, hbarrier, hstumbles⟩
          · rintro ⟨rfl, -⟩
            rfl
        | ok first =>
          obtain ⟨bound₁, rfl⟩ := Option.ne_none_iff_exists'.1 fun h => hcheck (h ▸ hfirst)
          rw [checkSteps_of_some hbarrier hfirst, ih]
          refine and_congr_right fun _ => ⟨?_, ?_⟩
          · rintro ⟨k, s', ins', bound', hs, hins, hbefore, hrest⟩
            refine ⟨k + 1, s', ins', bound', hs, hins, ?_, hrest⟩
            rw [List.take_succ_cons, checkSteps_of_some hbarrier hfirst]
            exact hbefore
          · rintro ⟨_ | k, s', ins', bound', hs, hins, hbefore, hbarrier', hstumbles⟩
            · obtain rfl := Option.some.inj hs
              obtain rfl := Option.some.inj hins
              cases hfirst.symm.trans (Step.check_error_iff.2 ⟨rfl, hstumbles⟩)
            · rw [List.take_succ_cons, checkSteps_of_some hbarrier hfirst] at hbefore
              exact ⟨k, s', ins', bound', hs, hins, hbefore, hbarrier', hstumbles⟩

end

/-! ## Templates at a position -/

/-- The barriers of a scan, which has none without a body. -/
def barriersIn (body? : Option MethodBody) (instructions : List Instruction) : List Int :=
  body?.elim [] (barriersOf · instructions)

theorem barriersIn_some (body : MethodBody) (instructions : List Instruction) :
    barriersIn (some body) instructions = barriersOf body instructions := rfl

theorem mem_barriersIn {offset : Nat} : (offset : Int) ∈ barriersIn body? instructions ↔
    ∃ body ∈ body?, Leads body instructions offset := by
  cases body? with
  | none => simp [barriersIn]
  | some body =>
    simp only [barriersIn, Option.elim_some, barriersOf, List.mem_append, List.mem_flatMap,
      List.mem_map, Option.mem_some_iff, exists_eq_left', Leads, Nat.cast_inj]

section

variable {first : Step} {steps : List Step}

theorem Template.window_eq (hsteps : t.steps = first :: steps)
    (hdrop : instructions.drop i = ins :: rest) :
    t.window instructions i = ins :: rest.take steps.length := by
  rw [window, hdrop, hsteps, List.length_cons, List.take_succ_cons]

/-- Matching, by the first step and the others. -/
theorem Template.matches_iff (hsteps : t.steps = first :: steps)
    (hdrop : instructions.drop i = ins :: rest) :
    t.Matches pool body? instructions i ↔ steps.length ≤ rest.length ∧
      (∀ ins ∈ rest.take steps.length, (ins.offset : Int) ∉ barriersIn body? instructions) ∧
      (first.Fits pool ins ∧ ∀ pair ∈ steps.zip (rest.take steps.length), pair.1.Fits pool pair.2) ∧
      Consistent (first.uses pool ins ++ usesOf pool steps (rest.take steps.length)) := by
  have hwindow := window_eq hsteps hdrop
  have hroom : i + t.steps.length ≤ instructions.length ↔ steps.length ≤ rest.length := by
    have hlength := congrArg List.length hdrop
    rw [List.length_drop, List.length_cons] at hlength
    rw [hsteps, List.length_cons]
    omega
  constructor
  · rintro ⟨-, hle, hfits, hguarded, hconsistent⟩
    rw [hwindow, hsteps] at hfits hconsistent
    rw [hwindow] at hguarded
    refine ⟨hroom.1 hle, fun ins hins hbarrier => ?_, List.forall_mem_cons.1 hfits, hconsistent⟩
    obtain ⟨body, hbody, hleads⟩ := mem_barriersIn.1 hbarrier
    exact hguarded ins hins body hbody hleads
  · rintro ⟨hle, hguarded, hfits, hconsistent⟩
    refine ⟨by rw [hsteps]; nofun, hroom.2 hle, ?_, ?_, ?_⟩
    · rw [hwindow, hsteps]
      exact List.forall_mem_cons.2 hfits
    · rw [hwindow]
      exact fun ins hins body hbody hleads =>
        hguarded ins hins (mem_barriersIn.2 ⟨body, hbody, hleads⟩)
    · rw [hwindow, hsteps]
      exact hconsistent

end

/-- A template that matches has a step, and an instruction for it. -/
theorem Template.Matches.exists_cons (h : t.Matches pool body? instructions i) :
    ∃ first steps ins rest, t.steps = first :: steps ∧ instructions.drop i = ins :: rest := by
  have hpos := List.length_pos_iff.2 h.steps
  have hroom := h.room
  obtain ⟨first, steps, hsteps⟩ := List.exists_cons_of_ne_nil h.steps
  obtain ⟨ins, rest, hdrop⟩ := List.exists_cons_of_length_pos
    (show 0 < (instructions.drop i).length by rw [List.length_drop]; omega)
  exact ⟨first, steps, ins, rest, hsteps, hdrop⟩

/-- A template that has an answer is found where it matches. -/
theorem Template.matchAt_spec {answer : Option Match}
    (h : t.matchAt pool (barriersIn body? instructions) (instructions.drop i) = .ok answer) (m : Match) :
    answer = some m ↔ t.Matches pool body? instructions i ∧ m = t.found pool instructions i := by
  unfold matchAt at h
  split at h
  · rename_i first steps ins rest hsteps hdrop
    have hmatches : t.Matches pool body? instructions i ↔ _ := matches_iff hsteps hdrop
    by_cases hshort : rest.length < steps.length
    · rw [if_pos hshort] at h
      obtain rfl := Except.ok.inj h
      exact iff_of_false nofun fun hm => by have := (hmatches.1 hm.1).1; omega
    · rw [if_neg hshort] at h
      obtain ⟨checked, hcheck, h⟩ := Except.bind_ok.1 h
      have hchecked := Step.check_spec hcheck
      cases checked with
      | none =>
        obtain rfl := Except.ok.inj h
        refine iff_of_false nofun fun hm => ?_
        obtain ⟨-, -, ⟨hfits, -⟩, hconsistent⟩ := hmatches.1 hm.1
        cases (hchecked _).2 ⟨hfits, bindAll_eq_some.2 ⟨hconsistent.of_append, rfl⟩⟩
      | some bound =>
        obtain ⟨hfits, hbound⟩ := (hchecked bound).1 rfl
        obtain ⟨last, hrest, h⟩ := Except.bind_ok.1 h
        obtain rfl := Except.ok.inj h
        rw [← List.take_append_drop steps.length rest] at hrest
        have hlast := checkSteps_spec (List.length_take_of_le (Nat.le_of_not_lt hshort)) hrest
        -- The names of all steps are bound from those of the first one.
        have hall (bindings : Bindings) : last = some bindings ↔
            t.Matches pool body? instructions i ∧
              bindings = firstUses (usesOf pool t.steps (t.window instructions i)) := by
          have hboth := bindAll_append [] (first.uses pool ins)
            (usesOf pool steps (rest.take steps.length))
          rw [hbound, Option.bind_some] at hboth
          rw [hlast, hmatches, window_eq hsteps hdrop, hsteps, usesOf_cons, ← hboth, bindAll_eq_some]
          have hle := Nat.le_of_not_lt hshort
          tauto
        rw [Option.map_eq_some_iff, ← window_eq hsteps hdrop]
        constructor
        · rintro ⟨bindings, hbindings, rfl⟩
          obtain ⟨hm, rfl⟩ := (hall bindings).1 hbindings
          exact ⟨hm, rfl⟩
        · rintro ⟨hm, rfl⟩
          exact ⟨_, (hall _).2 ⟨hm, rfl⟩, rfl⟩
  · rename_i hnot
    obtain rfl := Except.ok.inj h
    refine iff_of_false nofun fun hm => ?_
    obtain ⟨first, steps, ins, rest, hsteps, hdrop⟩ := hm.1.exists_cons
    exact hnot _ _ _ _ hsteps hdrop

/-- A template that matches does not stumble. -/
theorem Template.Matches.not_stumbles (h : t.Matches pool body? instructions i) :
    ¬ t.Stumbles pool body? instructions i := by
  rintro ⟨k, -, -, s, ins, hs, hins, hstumbles, -⟩
  have hwindow : (t.window instructions i)[k]? = some ins := by
    rw [window, List.getElem?_take_of_lt (List.getElem?_eq_some_iff.1 hs).1, List.getElem?_drop, hins]
  have hpair : (t.steps.zip (t.window instructions i))[k]? = some (s, ins) := by
    rw [List.getElem?_zip_eq_some]
    exact ⟨hs, hwindow⟩
  exact (h.fits _ (List.mem_of_getElem? hpair)).not_stumbles hstumbles

section

variable {first : Step} {steps : List Step} {barriers : List Int} {bound : Bindings}

variable (barriers) in
/-- Behind its first step, matching a template is to check the others. -/
theorem Template.matchAt_of_some (hsteps : t.steps = first :: steps)
    (hle : steps.length ≤ rest.length) (hcheck : first.check pool ins [] = .ok (some bound)) :
    t.matchAt pool barriers (ins :: rest) = (checkSteps pool barriers steps rest bound).map
      (Option.map fun bindings => ⟨t, bindings, ins :: rest.take steps.length⟩) := by
  unfold matchAt
  rw [hsteps]
  dsimp only
  rw [if_neg (Nat.not_lt.2 hle), hcheck]
  dsimp only [bind, Except.bind]
  cases checkSteps pool barriers steps rest bound <;> rfl

theorem Template.matchAt_of_error {e : Error} (hsteps : t.steps = first :: steps)
    (hle : steps.length ≤ rest.length) (hcheck : first.check pool ins [] = .error e) :
    t.matchAt pool barriers (ins :: rest) = .error e := by
  unfold matchAt
  rw [hsteps]
  dsimp only
  rw [if_neg (Nat.not_lt.2 hle), hcheck]
  rfl

/-- A template comes to a match through its first step, and to no answer at its first step or
at a later one. -/
theorem Template.exists_cons_of_matchAt {answer : Except Error (Option Match)}
    (h : t.matchAt pool barriers instructions = answer) (hanswer : answer ≠ .ok none) :
    ∃ first steps ins rest, t.steps = first :: steps ∧ instructions = ins :: rest ∧
      steps.length ≤ rest.length ∧ first.check pool ins [] ≠ .ok none := by
  unfold matchAt at h
  split at h
  · rename_i first steps ins rest hsteps
    refine ⟨first, steps, ins, rest, hsteps, rfl, ?_, fun hcheck => ?_⟩
    · by_contra hshort
      rw [if_pos (Nat.lt_of_not_le hshort)] at h
      exact hanswer h.symm
    · rw [hcheck] at h
      refine hanswer (h.symm.trans ?_)
      split <;> rfl
  · exact absurd h.symm hanswer

end

section

variable {first : Step} {steps : List Step}

theorem room_of_drop_eq (hsteps : t.steps = first :: steps) (hdrop : instructions.drop i = ins :: rest) :
    i + t.steps.length ≤ instructions.length ↔ steps.length ≤ rest.length := by
  have hlength := congrArg List.length hdrop
  rw [List.length_drop, List.length_cons] at hlength
  rw [hsteps, List.length_cons]
  omega

theorem getElem?_of_drop_eq (hdrop : instructions.drop i = ins :: rest) (k : Nat) :
    instructions[i + k]? = (ins :: rest)[k]? := by
  rw [← hdrop, List.getElem?_drop]

end

/-- A template has an answer at a position unless it stumbles there. -/
theorem Template.stumbles_of_matchAt_error {e : Error}
    (h : t.matchAt pool (barriersIn body? instructions) (instructions.drop i) = .error e) :
    e = .collapsed ∧ t.Stumbles pool body? instructions i := by
  obtain ⟨first, steps, ins, rest, hsteps, hdrop, hle, hfirst⟩ := exists_cons_of_matchAt h nofun
  rw [hdrop] at h
  have hroom := (room_of_drop_eq hsteps hdrop).2 hle
  rcases hcheck : first.check pool ins [] with e' | checked
  · obtain rfl := Except.error.inj ((matchAt_of_error hsteps hle hcheck).symm.trans h)
    obtain ⟨rfl, hstumbles⟩ := Step.check_error_iff.1 hcheck
    refine ⟨rfl, 0, hroom, fun h => absurd rfl h, first, ins, by rw [hsteps]; rfl, ?_, hstumbles,
      fun h => absurd rfl h⟩
    exact getElem?_of_drop_eq hdrop 0
  · obtain ⟨bound, rfl⟩ := Option.ne_none_iff_exists'.1 fun hnone => hfirst (hnone ▸ hcheck)
    rw [matchAt_of_some _ hsteps hle hcheck] at h
    rcases hrest : checkSteps pool (barriersIn body? instructions) steps rest bound with e' | last
    · rw [hrest] at h
      obtain rfl := Except.error.inj h
      obtain ⟨rfl, k, s, ins', bound', hs, hins, hbefore, hbarrier, hstumbles⟩ :=
        checkSteps_error_iff.1 hrest
      refine ⟨rfl, k + 1, hroom, fun _ => ?_, s, ins', by rw [hsteps]; exact hs,
        (getElem?_of_drop_eq hdrop (k + 1)).trans hins, hstumbles, fun _ body hbody hleads =>
          hbarrier (mem_barriersIn.2 ⟨body, hbody, hleads⟩)⟩
      have hupTo : (t.upTo (k + 1)).steps = first :: steps.take k := by
        rw [upTo, hsteps, List.take_succ_cons]
      have hmatch := matchAt_of_some (barriersIn body? instructions) hupTo
        (Nat.le_trans (List.length_take_le' ..) hle) hcheck
      rw [hbefore, ← hdrop] at hmatch
      exact ((matchAt_spec hmatch _).1 rfl).1
    · rw [hrest] at h
      cases h

theorem Template.Matches.matchAt_eq (h : t.Matches pool body? instructions i) :
    t.matchAt pool (barriersIn body? instructions) (instructions.drop i) =
      .ok (some (t.found pool instructions i)) := by
  rcases hanswer : t.matchAt pool (barriersIn body? instructions) (instructions.drop i) with e | answer
  · exact absurd (stumbles_of_matchAt_error hanswer).2 h.not_stumbles
  · rw [(matchAt_spec hanswer _).2 ⟨h, rfl⟩]

theorem Template.Stumbles.matchAt_eq (h : t.Stumbles pool body? instructions i) :
    t.matchAt pool (barriersIn body? instructions) (instructions.drop i) = .error .collapsed := by
  obtain ⟨_ | k, hroom, hbefore, s, ins', hs, hins, hstumbles, hguarded⟩ := h
  · obtain ⟨first, steps, hsteps⟩ := List.exists_cons_of_ne_nil (show t.steps ≠ [] by
      rintro hnil
      rw [hnil] at hs
      cases hs)
    obtain ⟨ins, rest, hdrop⟩ := List.exists_cons_of_length_pos
      (show 0 < (instructions.drop i).length by
        have := (List.getElem?_eq_some_iff.1 hins).1
        rw [List.length_drop]
        omega)
    rw [hsteps] at hs
    rw [getElem?_of_drop_eq hdrop 0] at hins
    obtain rfl := Option.some.inj hs
    obtain rfl := Option.some.inj hins
    rw [hdrop]
    exact matchAt_of_error hsteps ((room_of_drop_eq hsteps hdrop).1 hroom)
      (Step.check_error_iff.2 ⟨rfl, hstumbles⟩)
  · have hmatch := (hbefore (Nat.succ_ne_zero k)).matchAt_eq
    obtain ⟨first, before, ins, rest, hupTo, hdrop, hle, hfirst⟩ := exists_cons_of_matchAt hmatch nofun
    obtain ⟨steps, hsteps, rfl⟩ : ∃ steps, t.steps = first :: steps ∧ before = steps.take k := by
      unfold upTo at hupTo
      cases hsteps : t.steps with
      | nil =>
        rw [hsteps] at hs
        cases hs
      | cons first' steps =>
        rw [hsteps] at hupTo
        obtain ⟨rfl, rfl⟩ := List.cons.inj hupTo
        exact ⟨steps, rfl, rfl⟩
    have hle' := (room_of_drop_eq hsteps hdrop).1 hroom
    rw [hdrop] at hmatch ⊢
    rcases hcheck : first.check pool ins [] with e | checked
    · cases (matchAt_of_error hupTo hle hcheck).symm.trans hmatch
    · obtain ⟨bound, rfl⟩ := Option.ne_none_iff_exists'.1 fun hnone => hfirst (hnone ▸ hcheck)
      rw [matchAt_of_some _ hupTo hle hcheck] at hmatch
      rw [matchAt_of_some _ hsteps hle' hcheck]
      have hrest : checkSteps pool (barriersIn body? instructions) steps rest bound =
          .error .collapsed := by
        rcases hlast : checkSteps pool (barriersIn body? instructions) (steps.take k) rest bound with
          e | last
        · rw [hlast] at hmatch
          cases hmatch
        · rcases last with _ | bound'
          · rw [hlast] at hmatch
            cases hmatch
          · rw [hsteps] at hs
            rw [getElem?_of_drop_eq hdrop (k + 1)] at hins
            refine checkSteps_error_iff.2 ⟨rfl, k, s, ins', bound', hs, hins, hlast, ?_, hstumbles⟩
            intro hbarrier
            obtain ⟨body, hbody, hleads⟩ := mem_barriersIn.1 hbarrier
            exact hguarded (Nat.succ_ne_zero k) body hbody hleads
      rw [hrest]
      rfl

/-- The first of several templates that matches is found, unless one that is tried before
stumbles. -/
theorem firstMatch_cases (pool : Pool) (body? : Option MethodBody) (instructions : List Instruction)
    (templates : List Template) (i : Nat) :
    ((∀ t ∈ templates, ¬ t.Matches pool body? instructions i ∧ ¬ t.Stumbles pool body? instructions i) ∧
      firstMatch pool (barriersIn body? instructions) (instructions.drop i) templates = .ok none) ∨
    ∃ (earlier : List Template) (t : Template) (later : List Template),
      templates = earlier ++ t :: later ∧
      (∀ e ∈ earlier, ¬ e.Matches pool body? instructions i ∧ ¬ e.Stumbles pool body? instructions i) ∧
      (t.Matches pool body? instructions i ∧
          firstMatch pool (barriersIn body? instructions) (instructions.drop i) templates =
            .ok (some (t.found pool instructions i)) ∨
        t.Stumbles pool body? instructions i ∧
          firstMatch pool (barriersIn body? instructions) (instructions.drop i) templates =
            .error .collapsed) := by
  induction templates with
  | nil => exact .inl ⟨by simp, rfl⟩
  | cons t templates ih =>
    rw [firstMatch]
    rcases hanswer : t.matchAt pool (barriersIn body? instructions) (instructions.drop i) with e | answer
    · obtain ⟨rfl, hstumbles⟩ := Template.stumbles_of_matchAt_error hanswer
      exact .inr ⟨[], t, templates, rfl, by simp, .inr ⟨hstumbles, rfl⟩⟩
    · have hspec := Template.matchAt_spec hanswer
      cases answer with
      | some m =>
        obtain ⟨hmatches, rfl⟩ := (hspec m).1 rfl
        exact .inr ⟨[], t, templates, rfl, by simp, .inl ⟨hmatches, rfl⟩⟩
      | none =>
        have hnot : ¬ t.Matches pool body? instructions i ∧ ¬ t.Stumbles pool body? instructions i :=
          ⟨fun h => (by cases (hspec _).2 ⟨h, rfl⟩), fun h => (by cases hanswer.symm.trans h.matchAt_eq)⟩
        rcases ih with ⟨hnone, hfirst⟩ | ⟨earlier, t', later, rfl, hearlier, hend⟩
        · exact .inl ⟨List.forall_mem_cons.2 ⟨hnot, hnone⟩, hfirst⟩
        · exact .inr ⟨t :: earlier, t', later, rfl, List.forall_mem_cons.2 ⟨hnot, hearlier⟩, hend⟩

end Cleartext.Pattern
