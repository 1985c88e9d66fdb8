import Cleartext.Proofs.Code.Barriers
import Cleartext.Proofs.Run.Classes

/-!
# Call sites that remain

A class that was rewritten can still have call sites.  A call that was left is still
there.  But there are also new ones.  Where the answer of a routine was handed straight to
another routine, the load of the answer and the second call are a call site now, and so
are a load and a call that were kept apart by nothing but a row of the exception table
that is gone.  `Remains` names these three, and `Ran.remains` says that there are no
others.

A load and a call are no call site when something else leads to the call.  Where call
sites were replaced, the jumps still lead there, for a jump is neither a load nor a call.
The exception table can lose a row: one whose range is empty when the calls that were
replaced are gone, and with it goes what it leads to.  `StaysApart` leaves out such rows.
What stays apart in a method is a barrier of what the method becomes (`LaidAnew.apart`).

The way back from the new code to the old one needs operands that name what they should
(`WellNamed`): an index at which nothing stands may name a constant that was added since.
Where every operand does, no look at the new code is without an answer either.
-/

namespace Cleartext

section

open Pattern (Calls)

namespace Run

open Isolation (Identity)

/-! ## What is staged for call sites -/

namespace Ran

variable {p q : Pool} {barriers : List Int} {caller : Identity} {old : List Instruction}
  {edits : List Edit} {results : List CallResult} (h : Ran p barriers caller q old edits results)

include h

/-- Loads are replaced and calls are deleted. -/
theorem staged_cases : ∀ edit ∈ edits, ∃ ins ∈ old, (ins.offset : Int) = edit.offset ∧
    ((ins.op = .ldc ∨ ins.op = .ldcW) ∧ (∃ o new, edit = .replace o new) ∨
      (∃ owner name, Calls p ins owner name) ∧ ∃ o, edit = .delete o) := by
  induction h with
  | done => simp
  | passed _ _ ih =>
    intro edit hedit
    obtain ⟨ins, hins, hstaged⟩ := ih edit hedit
    exact ⟨ins, List.mem_cons_of_mem _ hins, hstaged⟩
  | left _ _ ih =>
    intro edit hedit
    obtain ⟨ins, hins, hstaged⟩ := ih edit hedit
    exact ⟨ins, List.mem_cons_of_mem _ (List.mem_cons_of_mem _ hins), hstaged⟩
  | replaced hsite _ _ ih =>
    rw [List.forall_mem_append]
    refine ⟨?_, fun edit hedit => ?_⟩
    · simp only [siteEdits, List.forall_mem_cons, List.not_mem_nil, false_imp_iff, implies_true,
        and_true]
      refine ⟨⟨_, List.mem_cons_self, rfl, .inl ⟨hsite.loads.1, _, _, rfl⟩⟩, _,
        List.mem_cons_of_mem _ List.mem_cons_self, rfl, .inr ⟨⟨_, _, hsite.calls⟩, _, rfl⟩⟩
    · obtain ⟨ins, hins, hstaged⟩ := ih edit hedit
      exact ⟨ins, List.mem_cons_of_mem _ (List.mem_cons_of_mem _ hins), hstaged⟩

/-- Nothing is inserted. -/
theorem length_planned_le (ins : Instruction) : (Edit.planned edits ins).length ≤ 1 := by
  refine Edit.length_planned_le (fun edit hedit => ?_) ins
  obtain ⟨-, -, -, ⟨-, hreplace⟩ | ⟨-, hdelete⟩⟩ := h.staged_cases edit hedit
  · exact .inl hreplace
  · exact .inr hdelete

/-- Only loads and calls are edited, and neither of them jumps. -/
theorem planned_of_jump {stop : Nat} (hold : Consecutive 0 old stop) {ins : Instruction}
    (hins : ins ∈ old) (hjumps : ins.operand.distances ≠ []) : Edit.planned edits ins = [ins] := by
  refine Edit.planned_of_ne fun edit hedit hoffset => ?_
  obtain ⟨other, hother, hoffset', hstaged⟩ := h.staged_cases edit hedit
  obtain ⟨m, hm⟩ := List.getElem?_of_mem hins
  obtain ⟨n, hn⟩ := List.getElem?_of_mem hother
  obtain rfl := Edit.index_unique hold hm hn (by omega)
  obtain rfl := Option.some.inj (hm.symm.trans hn)
  have hindex : ins.operand.index? = some ins.operand.index := by
    refine Instruction.index?_eq_some rfl ?_
    rcases hstaged with ⟨hop, -⟩ | ⟨⟨_, _, hcalls⟩, -⟩
    · tauto
    · exact .inr (.inr hcalls.1)
  exact hjumps (Operand.distances_of_index? hindex)

/-- What is no call of a routine is replaced, if anything. -/
theorem planned_ne_nil {stop : Nat} (hold : Consecutive 0 old stop) {ins : Instruction}
    (hins : ins ∈ old) (hcalls : ∀ owner name, ¬ Calls p ins owner name) :
    Edit.planned edits ins ≠ [] := by
  have hkept : ∀ edit ∈ edits, edit ≠ .delete ins.offset := by
    rintro edit hedit rfl
    obtain ⟨other, hother, hoffset, ⟨-, o, new, hedit⟩ | ⟨⟨owner, name, hcall⟩, -⟩⟩ :=
      h.staged_cases _ hedit
    · cases hedit
    · obtain ⟨m, hm⟩ := List.getElem?_of_mem hins
      obtain ⟨n, hn⟩ := List.getElem?_of_mem hother
      have hoffset : ins.offset = other.offset := by simpa [Edit.offset] using hoffset.symm
      obtain rfl := Edit.index_unique hold hm hn hoffset
      obtain rfl := Option.some.inj (hm.symm.trans hn)
      exact hcalls owner name hcall
  exact Edit.planned_ne_nil hkept

end Ran

/-! ## What stays apart -/

/-- Something leads to a place of some code, also when the calls of routines are gone: a
jump, or a row of the exception table that protects something else. -/
def StaysApart (p : Pool) (body : MethodBody) (old : List Instruction) (place : Nat) : Prop :=
  (∃ ins ∈ old, (place : Int) ∈ ins.targets) ∨
    ∃ row ∈ body.handlers, row.target.toNat = place ∧
      ∃ ins ∈ old, row.start.toNat ≤ ins.offset ∧ ins.offset < row.stop.toNat ∧
        ∀ owner name, ¬ Calls p ins owner name

variable {p q : Pool} {barriers : List Int} {caller : Identity} {body body' : MethodBody}
  {old new : List Instruction} {edits : List Edit} {results : List CallResult}

theorem StaysApart.mem_barriersOf {place : Nat} (h : StaysApart p body old place) :
    (place : Int) ∈ Pattern.barriersOf body old := by
  rw [Cleartext.mem_barriersOf]
  refine h.imp id ?_
  rintro ⟨row, hrow, rfl, -⟩
  exact ⟨row, hrow, rfl⟩

/-- What stays apart is still led to when call sites were replaced. -/
theorem StaysApart.stillLeads (hran : Ran p barriers caller q old edits results) {stop place : Nat}
    (hold : Consecutive 0 old stop) (h : StaysApart p body old place) :
    Edit.StillLeads edits body old place := by
  refine h.imp id ?_
  rintro ⟨row, hrow, htarget, ins, hins, hfrom, hto, hcalls⟩
  exact ⟨row, hrow, htarget, ins, hins, hfrom, hto, hran.planned_ne_nil hold hins hcalls⟩

/-- What is laid out for call sites: every instruction is one of the plan, and stands at a
barrier where the plan has a place that stays apart. -/
theorem LaidAnew.apart (hlaid : LaidAnew edits old body new body')
    (hold : Instruction.decodeAll body.bytecode = .ok old)
    (hnew : Instruction.decodeAll body'.bytecode = .ok new)
    (hran : Ran p barriers caller q old edits results) :
    List.Forall₂ (fun entry ins' => ins'.unplaced = entry.2.lengthened.unplaced ∧
        (StaysApart p body old entry.1 → (ins'.offset : Int) ∈ Pattern.barriersOf body' new))
      (Edit.plan edits old) new := by
  have htiles := Instruction.decodeAll_ok.1 hold
  rcases hlaid with ⟨rfl, rfl⟩ | hrewritten
  · obtain rfl := Except.ok.inj (hold.symm.trans hnew)
    rw [Edit.plan_of_unstaged (by simp), List.forall₂_map_left_iff, List.forall₂_same]
    refine fun ins hins => ⟨?_, StaysApart.mem_barriersOf⟩
    rw [Instruction.lengthened_eq_of_valid (htiles.valid ins hins)]
  · have hconsecutive := htiles.consecutive
    rw [Nat.zero_add] at hconsecutive
    refine (hrewritten.leads_of_plan hconsecutive (fun ins _ => hran.length_planned_le ins)
      fun ins => hran.planned_of_jump hconsecutive).imp fun entry ins' h => ⟨h.1, fun happart => ?_⟩
    exact h.2 (happart.stillLeads hran hconsecutive)

end Run

end

/-! ## The way back -/

namespace Pool

/-- An index of the pool `q` that `R` relates to one of `p` stands for what that one
stands for, and names a member where that one does. -/
structure Tracks (p q : Pool) (R : UInt16 → UInt16 → Prop) : Prop where
  back : ∀ i x, R i x → q.StandsFor p x i
  member : ∀ i x, R i x → ∀ kind owner nameAndType,
    p.get? i = some (.member kind owner nameAndType) →
    ∃ owner' nameAndType', q.get? x = some (.member kind owner' nameAndType')

variable {p q q' : Pool} {R : UInt16 → UInt16 → Prop}

theorem Tracks.refl (p : Pool) : Tracks p p Eq := by
  refine ⟨?_, ?_⟩
  · rintro i _ rfl
    exact StandsFor.refl p i
  · rintro i _ rfl kind owner nameAndType hget
    exact ⟨owner, nameAndType, hget⟩

/-- A pool with the same entries does as well. -/
theorem Tracks.congr (h : Tracks p q R) (hclosed : q'.Closed) (hfrom : q'.Extends q)
    (hto : q.Extends q') : Tracks p q' R := by
  refine ⟨fun i x hx => (hfrom.standsFor hclosed x).trans (h.back i x hx), ?_⟩
  intro i x hx kind owner nameAndType hget
  obtain ⟨owner', nameAndType', hget'⟩ := h.member i x hx kind owner nameAndType hget
  exact ⟨owner', nameAndType', hto x _ hget'⟩

theorem SameMeaning.symm {i x : UInt16} (h : p.SameMeaning q i x) : q.SameMeaning p x i := by
  obtain ⟨m, hm, hm'⟩ := h
  exact ⟨m, hm', hm⟩

theorem Tracks.of_sameMeaning (h : ∀ i x, R i x → p.SameMeaning q i x) : Tracks p q R := by
  refine ⟨fun i x hx => (h i x hx).symm.standsFor, ?_⟩
  intro i x hx kind owner nameAndType hget
  obtain ⟨d, hd, hbare, -⟩ := (h i x hx).entry hget
  cases d with
  | member kind' owner' nameAndType' =>
    obtain rfl : kind' = kind := (Constant.member.inj hbare).1
    exact ⟨owner', nameAndType', hd⟩
  | _ => exact absurd hbare (by simp [Constant.bare, Constant.mapReferences])

end Pool

/-- Shrinking leads back to the class that was shrunk. -/
theorem ClassFile.shrink_tracks {cf cf' : ClassFile} (hpool : cf.pool.Coherent)
    (hshrink : cf.shrink = .ok cf') :
    ∃ R, Pool.Tracks cf.pool cf'.pool R ∧
      List.Forall₂ (Member.BodyRenumbered R) cf.methods cf'.methods := by
  obtain ⟨R, hR, hmoved⟩ := shrink_moves hpool.wellFormed hshrink
  exact ⟨R, Pool.Tracks.of_sameMeaning hR, hmoved.methods.imp fun m m' hm => hm.body⟩

namespace Instruction

variable {R : UInt16 → UInt16 → Prop} {ins ins' mid : Instruction}

theorem Renumbered.op_eq (h : ins.Renumbered R ins') : ins'.op = ins.op := by
  obtain ⟨x, rfl⟩ := h.withIndex
  rfl

theorem Renumbered.offset_eq (h : ins.Renumbered R ins') : ins'.offset = ins.offset := by
  obtain ⟨x, rfl⟩ := h.withIndex
  rfl

/-- A pool operand says nothing about jumps. -/
theorem Renumbered.targets_eq (h : ins.Renumbered R ins') : ins'.targets = ins.targets := by
  obtain ⟨x, rfl⟩ := h.withIndex
  have hset {s : Shape} (o : Operand s) : (withIndex.set x o).distances = o.distances := by
    cases o <;> rfl
  show (withIndex.set x ins.operand).distances.map _ = _
  rw [hset]
  rfl

end Instruction

namespace Run

open Isolation (Identity)
open Pattern (Calls IsCallSite Loads callAt?)

variable {p q q₀ : Pool} {barriers barriers' : List Int} {R : UInt16 → UInt16 → Prop}
  {units : Units} {owner name : String} {ins ins' mid load call : Instruction}

/-- A load names an entry, and a call a member. -/
def WellNamed (p : Pool) (ins : Instruction) : Prop :=
  (ins.op = .ldc ∨ ins.op = .ldcW → (p.get? ins.operand.index).isSome) ∧
    (ins.op = .invokestatic → ∃ kind owner nameAndType,
      p.get? ins.operand.index = some (.member kind owner nameAndType))

theorem WellNamed.wellKinded (hload : WellNamed p load) (hcall : WellNamed p call) :
    Pattern.WellKinded p barriers load call :=
  fun hldc hinvoke _ => ⟨hload.1 hldc, fun _ _ => hcall.2 hinvoke⟩

theorem loads_back (htracks : q₀.Tracks q R) (h : mid.Renumbered R ins')
    (hloads : Loads q ins' units) : Loads q₀ mid units := by
  obtain ⟨hop, hvalue⟩ := hloads
  rw [h.op_eq] at hop
  refine ⟨hop, (htracks.back _ _ (h.index ?_)).value hvalue⟩
  rcases hop with hop | hop <;> rw [hop] <;> rfl

theorem calls_back (htracks : q₀.Tracks q R) (h : mid.Renumbered R ins')
    (hcalls : Calls q ins' owner name) : Calls q₀ mid owner name := by
  obtain ⟨hop, kind, href⟩ := hcalls
  rw [h.op_eq] at hop
  refine ⟨hop, kind, (htracks.back _ _ (h.index ?_)).ref href⟩
  rw [hop]
  rfl

theorem loads_of_unplaced (h : mid.unplaced = ins.unplaced) (hloads : Loads p mid units) :
    Loads p ins units := by
  unfold Loads at hloads ⊢
  rwa [Instruction.index_of_unplaced h, Instruction.op_of_unplaced h] at hloads

theorem calls_of_unplaced (h : mid.unplaced = ins.unplaced) (hcalls : Calls p mid owner name) :
    Calls p ins owner name := by
  unfold Calls at hcalls ⊢
  rwa [Instruction.index_of_unplaced h, Instruction.op_of_unplaced h] at hcalls

theorem loads_earlier (hnamed : WellNamed p ins) (hclosed : p.Closed) (hextends : p.Extends q)
    (h : Loads q ins units) : Loads p ins units :=
  ⟨h.1, by rw [← hextends.value_eq hclosed (hnamed.1 h.1), h.2]⟩

theorem calls_earlier (hnamed : WellNamed p ins) (hclosed : p.Closed) (hextends : p.Extends q)
    (h : Calls q ins owner name) : Calls p ins owner name := by
  obtain ⟨hop, kind, href⟩ := h
  obtain ⟨_, _, _, hget⟩ := hnamed.2 hop
  exact ⟨hop, kind, by rw [← hextends.ref_eq hclosed (by rw [hget]; rfl), href]⟩

theorem loads_unique {units' : Units} (h : Loads p ins units) (h' : Loads p ins units') :
    units = units' := by
  simpa using h.2.symm.trans h'.2

theorem calls_unique {owner' name' : String} (h : Calls p ins owner name)
    (h' : Calls p ins owner' name') : owner = owner' ∧ name = name' := by
  obtain ⟨-, kind, href⟩ := h
  obtain ⟨-, kind', href'⟩ := h'
  obtain ⟨-, howner, hname, -⟩ := Ref.mk.inj (Except.ok.inj (href.symm.trans href'))
  exact ⟨howner, hname⟩

/-! ## A look at two instructions -/

/-- A look at two instructions in a row comes to an answer, and if they are a call site, it
is one of those that `P` tells of. -/
def Sighted (P : Units → String → String → Prop) (p : Pool) (barriers : List Int)
    (load call : Instruction) : Prop :=
  (∃ answer, callAt? p barriers load call = .ok answer) ∧
    ∀ units owner name, IsCallSite p barriers load call units owner name → P units owner name

variable {P : Units → String → String → Prop}

theorem Sighted.imp {P' : Units → String → String → Prop}
    (himp : ∀ units owner name, P units owner name → P' units owner name)
    (h : Sighted P p barriers load call) : Sighted P' p barriers load call :=
  ⟨h.1, fun units owner name hsite => himp _ _ _ (h.2 units owner name hsite)⟩

theorem sighted_of_not_load (h : ¬ (load.op = .ldc ∨ load.op = .ldcW)) :
    Sighted P p barriers load call :=
  ⟨⟨none, Pattern.callAt?_of_not fun hops => h hops.1⟩, fun _ _ _ hsite => absurd hsite.loads.1 h⟩

theorem sighted_of_not_call (h : call.op ≠ .invokestatic) : Sighted P p barriers load call :=
  ⟨⟨none, Pattern.callAt?_of_not fun hops => h hops.2.1⟩, fun _ _ _ hsite => absurd hsite.calls.1 h⟩

/-- A look at a call that names a member comes to an answer. -/
theorem exists_callAt? {kind : Tag} {owner nameAndType : UInt16}
    (hget : p.get? call.operand.index = some (.member kind owner nameAndType)) :
    ∃ answer, callAt? p barriers load call = .ok answer := by
  have hcollapsed := Pattern.ref_ne_collapsed hget
  unfold callAt?
  split
  · split
    · split
      · split
        · exact ⟨_, rfl⟩
        · rename_i href
          exact absurd href hcollapsed
        · exact ⟨none, rfl⟩
      · exact ⟨none, rfl⟩
    · exact ⟨none, rfl⟩
  · exact ⟨none, rfl⟩

theorem sighted_of_wellNamed (hcall : WellNamed p call) :
    Sighted (fun units owner name => IsCallSite p barriers load call units owner name) p barriers
      load call := by
  refine ⟨?_, fun _ _ _ => id⟩
  by_cases hop : call.op = .invokestatic
  · obtain ⟨_, _, _, hget⟩ := hcall.2 hop
    exact exists_callAt? hget
  · exact (sighted_of_not_call (P := fun _ _ _ => True) hop).1

/-! ## What remains in a method -/

/-- A call that a rewritten method still has, by its code as it was read and what became of
the call sites there: the string that is handed over, and the routine. -/
inductive Remains (p : Pool) (body : MethodBody) (caller : Identity) (old : List Instruction)
    (results : List CallResult) : Units → String → String → Prop
  /-- A call that was left. -/
  | left {load call : Instruction} {units : Units} {owner name reason : String}
      (hcode : [load, call] <:+: old)
      (hsite : IsCallSite p (Pattern.barriersOf body old) load call units owner name)
      (hresult : reported caller load units owner name (.failed reason) ∈ results) :
      Remains p body caller old results units owner name
  /-- An answer that is handed straight to a routine. -/
  | handedOn {load call next : Instruction} {units value : Units}
      {owner name owner' name' : String} (hcode : [load, call, next] <:+: old)
      (hsite : IsCallSite p (Pattern.barriersOf body old) load call units owner name)
      (hresult : reported caller load units owner name (.decrypted value.text) ∈ results)
      (hcalls : Calls p next owner' name') (hopen : ¬ StaysApart p body old next.offset) :
      Remains p body caller old results value owner' name'
  /-- A load and a call that are no longer kept apart. -/
  | joined {load call : Instruction} {units : Units} {owner name : String}
      (hcode : [load, call] <:+: old) (hloads : Loads p load units)
      (hcalls : Calls p call owner name)
      (hapart : (call.offset : Int) ∈ Pattern.barriersOf body old)
      (hopen : ¬ StaysApart p body old call.offset) :
      Remains p body caller old results units owner name

/-- The instruction `ins` has become `ins'`: it was moved and its pool operand changed, and
where something leads to it that stays, something leads to it now. -/
def Stayed (p : Pool) (R : UInt16 → UInt16 → Prop) (body : MethodBody) (old : List Instruction)
    (barriers' : List Int) (ins ins' : Instruction) : Prop :=
  ∃ mid : Instruction, mid.unplaced = ins.unplaced ∧ mid.Renumbered R ins' ∧
    (StaysApart p body old ins.offset → (ins'.offset : Int) ∈ barriers')

section

variable {body : MethodBody} {caller : Identity} {old rest : List Instruction}

namespace Stayed

variable (h : Stayed p R body old barriers' ins ins')

include h

theorem op_eq : ins'.op = ins.op := by
  obtain ⟨mid, hunplaced, hrenumbered, -⟩ := h
  rw [hrenumbered.op_eq, Instruction.op_of_unplaced hunplaced]

theorem loads (htracks : q₀.Tracks q R) (hclosed : p.Closed) (hextends : p.Extends q₀)
    (hnamed : WellNamed p ins) (hloads : Loads q ins' units) : Loads p ins units := by
  obtain ⟨mid, hunplaced, hrenumbered, -⟩ := h
  exact loads_earlier hnamed hclosed hextends
    (loads_of_unplaced hunplaced (loads_back htracks hrenumbered hloads))

theorem calls (htracks : q₀.Tracks q R) (hclosed : p.Closed) (hextends : p.Extends q₀)
    (hnamed : WellNamed p ins) (hcalls : Calls q ins' owner name) : Calls p ins owner name := by
  obtain ⟨mid, hunplaced, hrenumbered, -⟩ := h
  exact calls_earlier hnamed hclosed hextends
    (calls_of_unplaced hunplaced (calls_back htracks hrenumbered hcalls))

/-- A look at a call that stayed comes to an answer, and the call site that is seen there, if
any, is of the string that is loaded now and of the routine that was called before. -/
theorem sighted (htracks : q₀.Tracks q R) (hclosed : p.Closed) (hextends : p.Extends q₀)
    (hnamed : WellNamed p ins) (hop : ins'.op = .invokestatic)
    (hP : ∀ units owner name, Loads q load units → Calls p ins owner name →
      ¬ StaysApart p body old ins.offset → P units owner name) :
    Sighted P q barriers' load ins' := by
  have hop₀ : ins.op = .invokestatic := h.op_eq ▸ hop
  obtain ⟨mid, hunplaced, hrenumbered, hapart⟩ := id h
  constructor
  · obtain ⟨kind, owner, nameAndType, hget⟩ := hnamed.2 hop₀
    rw [← Instruction.index_of_unplaced hunplaced] at hget
    have hindex := hrenumbered.index (by rw [← hrenumbered.op_eq, hop]; rfl)
    obtain ⟨_, _, hget'⟩ := htracks.member _ _ hindex _ _ _ (hextends _ _ hget)
    exact exists_callAt? hget'
  · intro units owner name hsite
    exact hP units owner name hsite.loads (h.calls htracks hclosed hextends hnamed hsite.calls)
      fun hstays => hsite.guarded (hapart hstays)

end Stayed

theorem stayed_of_planned (hins : ins.Valid)
    (hmid : mid.unplaced = ins.lengthened.unplaced ∧
      (StaysApart p body old ins.offset → (mid.offset : Int) ∈ barriers'))
    (hrenumbered : mid.Renumbered R ins') : Stayed p R body old barriers' ins ins' := by
  obtain ⟨hunplaced, hapart⟩ := hmid
  rw [Instruction.lengthened_eq_of_valid hins] at hunplaced
  exact ⟨mid, hunplaced, hrenumbered, by rwa [hrenumbered.offset_eq]⟩

/-- A look at what comes first in the new code is one at an instruction that stayed, if it is
at a call. -/
theorem sighted_head {new' : List Instruction} (htracks : q₀.Tracks q R) (hclosed : p.Closed)
    (hextends : p.Extends q₀) (hnamed : ∀ next ∈ rest.head?, WellNamed p next)
    (hhead : ∀ next' ∈ new'.head?, next'.op = .invokestatic →
      ∃ next ∈ rest.head?, Stayed p R body old barriers' next next')
    (hP : ∀ next ∈ rest.head?, ∀ units owner name, Loads q load units →
      Calls p next owner name → ¬ StaysApart p body old next.offset → P units owner name) :
    ∀ next' ∈ new'.head?, Sighted P q barriers' load next' := by
  intro next' hnext'
  by_cases hop : next'.op = .invokestatic
  · obtain ⟨next, hnext, hstayed⟩ := hhead next' hnext' hop
    exact hstayed.sighted htracks hclosed hextends (hnamed next hnext) hop (hP next hnext)
  · exact sighted_of_not_call hop

/-- The instructions at the start of a part of some code follow one another in it. -/
theorem adjacent_of_suffix {all front : List Instruction} (h : front ++ rest <:+ all) :
    front <:+: all :=
  (List.prefix_append front rest).isInfix.trans h.isInfix

/-- The call sites of the new code of a method are calls that remain. -/
theorem Ran.remains {all : List Instruction} {edits : List Edit}
    {results allResults : List CallResult}
    (h : Ran p (Pattern.barriersOf body all) caller q₀ old edits results)
    (hclosed : p.Closed) (hextends : p.Extends q₀) (htracks : q₀.Tracks q R)
    (hsuffix : old <:+ all) (hresults : ∀ r ∈ results, r ∈ allResults)
    (hnamed : ∀ ins ∈ all, WellNamed p ins) (hvalid : ∀ ins ∈ all, ins.Valid)
    {offset stop : Nat} (hold : Consecutive offset old stop) {new new' : List Instruction}
    (hnew : List.Forall₂ (fun entry mid => mid.unplaced = entry.2.lengthened.unplaced ∧
        (StaysApart p body all entry.1 → (mid.offset : Int) ∈ barriers'))
      (Edit.plan edits old) new)
    (hrenumbered : List.Forall₂ (Instruction.Renumbered R) new new') :
    new'.IsChain (Sighted (Remains p body caller all allResults) q barriers') ∧
      ∀ ins' ∈ new'.head?, ins'.op = .invokestatic →
        ∃ ins ∈ old.head?, Stayed p R body all barriers' ins ins' := by
  induction h generalizing offset new new' with
  | done =>
    cases hnew
    cases hrenumbered
    exact ⟨.nil, by simp⟩
  | @passed ins rest edits results hpassed hran ih =>
    have hrest : rest <:+ all := (List.suffix_cons ins rest).trans hsuffix
    have hins : ins ∈ all := hsuffix.subset List.mem_cons_self
    rw [plan_passed hold hran.exists_offset] at hnew
    cases hnew with | @cons _ mid _ new hmid hnew =>
    cases hrenumbered with | @cons _ ins' _ new' hins' hrenumbered =>
    have hstayed := stayed_of_planned (hvalid ins hins) hmid hins'
    obtain ⟨hchain, hhead⟩ := ih hrest hresults hold.2 hnew hrenumbered
    refine ⟨List.isChain_cons.2 ⟨sighted_head htracks hclosed hextends (fun next hnext =>
      hnamed next (hrest.subset (List.mem_of_mem_head? hnext))) hhead
      fun next hnext units owner name hloads hcalls hopen => ?_, hchain⟩, ?_⟩
    · obtain ⟨rest, rfl⟩ := List.head?_eq_some_iff.1 hnext
      have hcode : [ins, next] <:+: all := adjacent_of_suffix hsuffix
      have hloads := hstayed.loads htracks hclosed hextends (hnamed ins hins) hloads
      by_cases hapart : (next.offset : Int) ∈ Pattern.barriersOf body all
      · exact .joined hcode hloads hcalls hapart hopen
      · exact absurd ⟨hloads, hcalls, hapart⟩ (hpassed next rfl units owner name)
    · rintro _ ⟨⟩ -
      exact ⟨ins, rfl, hstayed⟩
  | @left load call rest edits results units owner name reason hsite hran ih =>
    have hrest : rest <:+ all := (List.suffix_append [load, call] rest).trans hsuffix
    have hload : load ∈ all := hsuffix.subset List.mem_cons_self
    have hcall : call ∈ all := hsuffix.subset (List.mem_cons_of_mem _ List.mem_cons_self)
    have hcode : [load, call] <:+: all := adjacent_of_suffix hsuffix
    have hedits := hran.exists_offset
    rw [plan_passed hold fun edit hedit => by
        obtain ⟨ins, hins, hoffset⟩ := hedits edit hedit
        exact ⟨ins, List.mem_cons_of_mem _ hins, hoffset⟩,
      plan_passed hold.2 hedits] at hnew
    cases hnew with | @cons _ mid _ new hmid hnew =>
    cases hnew with | @cons _ mid' _ new hmid' hnew =>
    cases hrenumbered with | @cons _ load' _ new' hload' hrenumbered =>
    cases hrenumbered with | @cons _ call' _ new' hcall' hrenumbered =>
    have hloadStayed := stayed_of_planned (hvalid load hload) hmid hload'
    have hcallStayed := stayed_of_planned (hvalid call hcall) hmid' hcall'
    rw [List.forall_mem_cons] at hresults
    obtain ⟨hchain, -⟩ := ih hrest hresults.2 hold.2.2 hnew hrenumbered
    have hop : call'.op = .invokestatic := hcallStayed.op_eq.trans hsite.calls.1
    refine ⟨List.isChain_cons_cons.2 ⟨?_, List.isChain_cons.2 ⟨fun next' _ => ?_, hchain⟩⟩, ?_⟩
    · refine hcallStayed.sighted htracks hclosed hextends (hnamed call hcall) hop
        fun units' owner' name' hloads hcalls _ => ?_
      obtain rfl := loads_unique hsite.loads
        (hloadStayed.loads htracks hclosed hextends (hnamed load hload) hloads)
      obtain ⟨rfl, rfl⟩ := calls_unique hsite.calls hcalls
      exact .left hcode hsite hresults.1
    · exact sighted_of_not_load (by rw [hop]; decide)
    · rintro _ ⟨⟩ -
      exact ⟨load, rfl, hloadStayed⟩
  | @replaced load call rest edits results units value owner name index hsite hvalue hran ih =>
    have hrest : rest <:+ all := (List.suffix_append [load, call] rest).trans hsuffix
    rw [plan_siteEdits hold hran.exists_offset] at hnew
    cases hnew with | @cons _ mid _ new hmid hnew =>
    cases hrenumbered with | @cons _ load' _ new' hload' hrenumbered =>
    rw [List.forall_mem_cons] at hresults
    obtain ⟨hchain, hhead⟩ := ih hrest hresults.2 hold.2.2 hnew hrenumbered
    have hunplaced := hmid.1
    rw [Instruction.lengthened_eq_of_valid (Instruction.valid_ldc index)] at hunplaced
    refine ⟨List.isChain_cons.2 ⟨sighted_head htracks hclosed hextends (fun next hnext =>
      hnamed next (hrest.subset (List.mem_of_mem_head? hnext))) hhead
      fun next hnext units' owner' name' hloads hcalls hopen => ?_, hchain⟩, ?_⟩
    · obtain ⟨rest, rfl⟩ := List.head?_eq_some_iff.1 hnext
      have hcode : [load, call, next] <:+: all := adjacent_of_suffix hsuffix
      obtain rfl := loads_unique (loads_ldc hvalue)
        (loads_of_unplaced hunplaced (loads_back htracks hload' hloads))
      exact .handedOn hcode hsite hresults.1 hcalls hopen
    · rintro _ ⟨⟩ hop
      rw [hload'.op_eq, Instruction.op_of_unplaced hunplaced] at hop
      rcases (loads_ldc hvalue).1 with hldc | hldc <;>
        exact absurd (hldc.symm.trans hop) (by decide)

end

/-! ## What remains in a class -/

open Archive (Candidate)

/-- Every look at the code of a method comes to an answer, and its call sites are among
those that `P` tells of. -/
def SitesAmong (P : Units → String → String → Prop) (q : Pool) (m : Member) : Prop :=
  ∀ body, m.body? = some body → ∀ code, Instruction.decodeAll body.bytecode = .ok code →
    code.IsChain (Sighted P q (Pattern.barriersOf body code))

theorem SitesAmong.imp {P' : Units → String → String → Prop} {m : Member}
    (himp : ∀ units owner name, P units owner name → P' units owner name)
    (h : SitesAmong P p m) : SitesAmong P' p m :=
  fun body hbody code hcode => (h body hbody code hcode).imp fun _ _ hsighted => hsighted.imp himp

/-- The operands of the code of a method name what they should. -/
def WellNamedMethod (p : Pool) (m : Member) : Prop :=
  ∀ body, m.body? = some body → ∀ code, Instruction.decodeAll body.bytecode = .ok code →
    ∀ ins ∈ code, WellNamed p ins

/-- The operands of the code of a class name what they should. -/
def WellNamedClass (cf : ClassFile) : Prop := ∀ m ∈ cf.methods, WellNamedMethod cf.pool m

theorem isChain_of_adjacent {S : Instruction → Instruction → Prop} {code : List Instruction}
    (h : ∀ load call, [load, call] <:+: code → S load call) : code.IsChain S := by
  refine List.isChain_iff_forall_rel_of_append_cons_cons.2 fun load call before after hcode => ?_
  exact h load call ⟨before, after, by simp [hcode]⟩

theorem WellNamedClass.wellKinded {cf : ClassFile} (h : WellNamedClass cf) :
    WellKindedClass cf := by
  intro m hm body hbody code hcode
  have hnamed := h m hm body hbody code hcode
  refine isChain_of_adjacent fun load call hpart => ?_
  exact (hnamed load (hpart.subset (by simp))).wellKinded (hnamed call (hpart.subset (by simp)))

/-- A call that remains in a method of a class that was rewritten. -/
def RemainsIn (c : Candidate) (m : Member) (results : List CallResult) (units : Units)
    (owner name : String) : Prop :=
  ∃ body old, m.body? = some body ∧ Instruction.decodeAll body.bytecode = .ok old ∧
    Remains c.cf.pool body ⟨c.name, m.name c.cf.pool, c.poolCount⟩ old results units owner name

/-- A call site of a method as it was read. -/
def SiteIn (c : Candidate) (m : Member) (units : Units) (owner name : String) : Prop :=
  ∃ body code load call, m.body? = some body ∧ Instruction.decodeAll body.bytecode = .ok code ∧
    [load, call] <:+: code ∧
    IsCallSite c.cf.pool (Pattern.barriersOf body code) load call units owner name

variable {c : Candidate}

theorem WellNamedMethod.sites {m : Member} (h : WellNamedMethod c.cf.pool m) :
    SitesAmong (SiteIn c m) c.cf.pool m := by
  intro body hbody code hcode
  refine isChain_of_adjacent fun load call hpart => ?_
  have hcall := h body hbody code hcode call (hpart.subset (by simp))
  exact (sighted_of_wellNamed hcall).imp fun units owner name hsite =>
    ⟨body, code, load, call, hbody, hcode, hpart, hsite⟩

theorem barriersOf_renumbered {R : UInt16 → UInt16 → Prop} {body body' : MethodBody}
    {code code' : List Instruction}
    (htargets : body'.handlers.map (·.target) = body.handlers.map (·.target))
    (hcode : List.Forall₂ (Instruction.Renumbered R) code code') :
    Pattern.barriersOf body' code' = Pattern.barriersOf body code := by
  have hjumps : code'.flatMap Instruction.targets = code.flatMap Instruction.targets := by
    rw [List.flatMap_def, List.flatMap_def, map_eq_map hcode fun _ _ h => h.targets_eq.symm]
  have hrows : body'.handlers.map (fun row => (row.target.toNat : Int)) =
      body.handlers.map fun row => (row.target.toNat : Int) := by
    simpa [Function.comp_def] using congrArg (List.map fun t : UInt16 => (t.toNat : Int)) htargets
  rw [Pattern.barriersOf, Pattern.barriersOf, hjumps, hrows]

/-- The call sites of a method that was rewritten and renumbered remain in it. -/
theorem RewroteMethod.remains {q₀ q : Pool} {R : UInt16 → UInt16 → Prop} {m mid m' : Member}
    {results allResults : List CallResult} (h : RewroteMethod c q₀ m mid results)
    (hclosed : c.cf.pool.Closed) (hextends : c.cf.pool.Extends q₀) (htracks : q₀.Tracks q R)
    (hnamed : WellNamedMethod c.cf.pool m) (hresults : ∀ r ∈ results, r ∈ allResults)
    (hmid : mid.BodyRenumbered R m') : SitesAmong (RemainsIn c m allResults) q m' := by
  intro body' hbody' code' hcode'
  unfold RewroteMethod at h
  unfold Member.BodyRenumbered at hmid
  cases hbody : m.body? with
  | none =>
    rw [hbody] at h
    obtain ⟨rfl, -⟩ := h
    rw [hbody] at hmid
    cases hbody'.symm.trans hmid
  | some body =>
    rw [hbody] at h
    obtain ⟨body₁, rfl, old, new, edits, hold, hnew, -, hlaid, hran⟩ := h
    rw [Member.body?_setBody hbody] at hmid
    obtain ⟨body'', hbody'', htargets, hcode⟩ := hmid
    obtain rfl := Option.some.inj (hbody''.symm.trans hbody')
    obtain ⟨code'', hcode'', hrenumbered⟩ := hcode new hnew
    obtain rfl := Except.ok.inj (hcode''.symm.trans hcode')
    have htiles := Instruction.decodeAll_ok.1 hold
    obtain ⟨hchain, -⟩ := hran.remains hclosed hextends htracks List.suffix_rfl hresults
      (hnamed body hbody old hold) htiles.valid htiles.consecutive
      (hlaid.apart hold hnew hran) hrenumbered
    rw [barriersOf_renumbered htargets hrenumbered]
    exact hchain.imp fun load call hsighted =>
      hsighted.imp fun units owner name hremains => ⟨body, old, hbody, hold, hremains⟩

section

variable {σ : Type} {runner : Runner σ} {lookup : String → Option ClassFile}

/-- The call sites of a class that was rewritten remain in it, also when it is read with
another pool that has the same entries. -/
theorem rewriteClass_remains (hpool : c.cf.pool.Coherent) (hnamed : WellNamedClass c.cf) {kept : σ}
    {cf : ClassFile} {w : Work σ} (h : rewriteClass runner lookup c kept = (.rewritten cf, w))
    {q : Pool} (hclosed : q.Closed) (hfrom : q.Extends cf.pool) (hto : cf.pool.Extends q) :
    List.Forall₂ (fun m m' => SitesAmong (RemainsIn c m w.results) q m') c.cf.methods
      cf.methods := by
  have hstart : Work.Stands { cf := c.cf, kept } c.cf ([] ++ c.cf.methods) [] :=
    ⟨rfl, hpool, Pool.Extends.refl _, rfl⟩
  unfold rewriteClass at h
  rcases @rewriteMethods_cases σ runner lookup c hpool.closed c.cf.methods [] 0 [] _
    (fun m hm body hbody => hnamed.wellKinded m hm body hbody) hstart
    with ⟨rewritten, w₁, hran, hw, -, hrewrote⟩ | ⟨method, e, more, w₁, hfailed, -⟩
  · rw [List.length_nil] at hran
    rw [hran] at h
    have hmethods : w₁.cf.methods = rewritten.map (·.1) := by
      rw [hw.cf]
      rfl
    have hresults : ∀ new ∈ rewritten, ∀ r ∈ new.2, r ∈ w₁.results := by
      intro new hnew r hr
      rw [hw.results, List.nil_append, List.mem_reverse]
      exact List.mem_flatMap.2 ⟨new, hnew, hr⟩
    have hall {R : UInt16 → UInt16 → Prop} {methods : List Member}
        (htracks : w₁.cf.pool.Tracks q R)
        (hbodies : List.Forall₂ (Member.BodyRenumbered R) w₁.cf.methods methods) :
        List.Forall₂ (fun m m' => SitesAmong (RemainsIn c m w₁.results) q m') c.cf.methods
          methods := by
      rw [hmethods, List.forall₂_map_left_iff] at hbodies
      refine forall₂_comp ((List.forall₂_and_left _ _).2 ⟨hnamed, hrewrote⟩)
        ((List.forall₂_and_left _ _).2 ⟨hresults, hbodies⟩) ?_
      rintro m new m' ⟨hnamed, hm⟩ ⟨hresults, hbody⟩
      exact hm.remains hpool.closed hw.extends_ htracks hnamed hresults hbody
    generalize 0 + decryptedCount _ = n at h
    cases n with
    | zero => cases h
    | succ n =>
      simp only at h
      split at h
      · rename_i cf₁ hshrink
        obtain ⟨hcf, rfl⟩ := Prod.mk.inj h
        obtain rfl := Verdict.rewritten.inj hcf
        obtain ⟨R, htracks, hbodies⟩ := ClassFile.shrink_tracks hw.coherent hshrink
        exact hall (htracks.congr hclosed hfrom hto) hbodies
      · split at h
        · -- The class was not shrunk, and every index stays.
          obtain ⟨hcf, rfl⟩ := Prod.mk.inj h
          obtain rfl := Verdict.rewritten.inj hcf
          refine hall ((Pool.Tracks.refl _).congr hclosed hfrom hto) ?_
          exact List.forall₂_same.2 fun m _ => Member.BodyRenumbered.refl (fun _ => rfl) m
        · cases h
  · rw [List.length_nil] at hfailed
    rw [hfailed] at h
    simp only at h
    split at h <;> cases h

end

end Run

end Cleartext
