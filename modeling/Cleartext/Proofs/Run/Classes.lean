import Cleartext.Proofs.Run.Rewriting

/-!
# Rewriting a class

A class that was rewritten is shrunk, which renumbers the pool operands of all code
once more.  `Instruction.Alike` joins the two changes to an instruction that stays: it
was moved, and its pool operand stands for what it stood for.

`Carried` is the trace `Ran` over the old code and the new one.  A call site that was
left still loads its string and calls its routine; where one was replaced, the
decrypted string is loaded.  `Ran.carried` leads from the first trace to the second,
and `CarriedClass` says the same of all methods.

`rewriteClass_cases` is the main statement: a class is left as it is, carried over as a
whole, or given up.
-/

namespace Cleartext

/-! ## Instructions that stay -/

theorem Operand.index?_mapDistances {s : Shape} (o : Operand s) (f : Int32 → Int32) :
    (o.mapDistances f).index? = o.index? := by
  cases o <;> rfl

theorem Operand.index?_set {s : Shape} {o : Operand s} {i : UInt16} (h : o.index? = some i)
    (x : UInt16) : (Instruction.withIndex.set x o).index? = some x := by
  cases o with
  | pool8 | pool16 | interface | dynamic | dimensions => rfl
  | _ => cases h

namespace Instruction

theorem op_of_unplaced {ins mid : Instruction} (h : mid.unplaced = ins.unplaced) :
    mid.op = ins.op := by
  show mid.unplaced.op = ins.unplaced.op
  rw [h]

theorem index?_of_unplaced {ins mid : Instruction} (h : mid.unplaced = ins.unplaced) :
    mid.operand.index? = ins.operand.index? := by
  have hindex (ins : Instruction) : ins.unplaced.operand.index? = ins.operand.index? :=
    ins.operand.index?_mapDistances _
  rw [← hindex mid, ← hindex ins, h]

theorem index_of_unplaced {ins mid : Instruction} (h : mid.unplaced = ins.unplaced) :
    mid.operand.index = ins.operand.index :=
  congrArg (·.getD 0) (index?_of_unplaced h)

/-- Loads and calls have a pool operand. -/
theorem index?_eq_some {ins : Instruction} {op : Opcode} (hop : ins.op = op)
    (hops : op = .ldc ∨ op = .ldcW ∨ op = .invokestatic) :
    ins.operand.index? = some ins.operand.index := by
  obtain ⟨op', operand, wide, offset⟩ := ins
  obtain rfl : op' = op := hop
  rcases hops with rfl | rfl | rfl
  · change Operand .pool8 at operand
    cases operand
    rfl
  · change Operand .pool16 at operand
    cases operand
    rfl
  · change Operand .pool16 at operand
    cases operand
    rfl

/-- The instruction `ins'` of a class with the pool `q` is `ins` of one with the pool
`p`, at some place and with the distances from there.  Its pool operand stands for
the same. -/
def Alike (p q : Pool) (ins ins' : Instruction) : Prop :=
  ∃ mid : Instruction, mid.unplaced = ins.unplaced ∧ mid.Renumbered (p.StandsFor q) ins'

namespace Alike

variable {p q : Pool} {ins ins' : Instruction} (h : Alike p q ins ins')

include h

theorem op_eq : ins'.op = ins.op := by
  obtain ⟨mid, hunplaced, hrenumbered⟩ := h
  rw [← op_of_unplaced hunplaced]
  unfold Renumbered at hrenumbered
  split at hrenumbered
  · rw [hrenumbered]
  · obtain ⟨x, -, rfl⟩ := hrenumbered
    rfl

theorem index? {i : UInt16} (hi : ins.operand.index? = some i) :
    ∃ x, p.StandsFor q i x ∧ ins'.operand.index? = some x := by
  obtain ⟨mid, hunplaced, hrenumbered⟩ := h
  have hmid : mid.operand.index? = some i := by rw [index?_of_unplaced hunplaced, hi]
  unfold Renumbered at hrenumbered
  rw [hmid] at hrenumbered
  obtain ⟨x, hx, rfl⟩ := hrenumbered
  exact ⟨x, hx, Operand.index?_set hmid x⟩

theorem loads {units : Units} (hloads : Pattern.Loads p ins units) :
    Pattern.Loads q ins' units := by
  obtain ⟨hop, hvalue⟩ := hloads
  obtain ⟨x, hx, hindex⟩ := h.index? (index?_eq_some rfl (by tauto))
  refine ⟨by rwa [h.op_eq], ?_⟩
  rw [show ins'.operand.index = x by rw [Operand.index, hindex]; rfl]
  exact hx.value hvalue

theorem calls {owner name : String} (hcalls : Pattern.Calls p ins owner name) :
    Pattern.Calls q ins' owner name := by
  obtain ⟨hop, kind, href⟩ := hcalls
  obtain ⟨x, hx, hindex⟩ := h.index? (index?_eq_some rfl (by tauto))
  refine ⟨by rwa [h.op_eq], kind, ?_⟩
  rw [show ins'.operand.index = x by rw [Operand.index, hindex]; rfl]
  exact hx.ref href

end Alike

end Instruction

namespace Run

open Archive (Candidate)
open Isolation (Identity)
open Pattern (IsCallSite Loads Calls)

/-! ## Methods that are carried over -/

theorem loads_ldc {q : Pool} {index : UInt16} {value : Units}
    (h : q.value index = .ok (.string value)) : Loads q (Instruction.ldc index) value := by
  by_cases hlong : 255 < index
  · rw [Instruction.ldc, if_pos hlong]
    exact ⟨.inr rfl, h⟩
  · rw [Instruction.ldc, if_neg hlong]
    exact ⟨.inl rfl, h⟩

/-- The code `old` of a caller, in a class with the pool `p`, has become `new`, in a
class with the pool `q`, and `results` say what became of its call sites.  A call site
that was left is still there, with its string and its routine; the others load the
decrypted string. -/
inductive Carried (p q : Pool) (barriers : List Int) (caller : Identity) :
    List Instruction → List Instruction → List CallResult → Prop
  | done : Carried p q barriers caller [] [] []
  | passed {ins ins' : Instruction} {old new : List Instruction} {results : List CallResult}
      (hpassed : ∀ next ∈ old.head?, ∀ units owner name,
        ¬ IsCallSite p barriers ins next units owner name)
      (halike : Instruction.Alike p q ins ins') (h : Carried p q barriers caller old new results) :
      Carried p q barriers caller (ins :: old) (ins' :: new) results
  | left {load call load' call' : Instruction} {old new : List Instruction}
      {results : List CallResult} {units : Units} {owner name reason : String}
      (hsite : IsCallSite p barriers load call units owner name)
      (hload : Instruction.Alike p q load load') (hcall : Instruction.Alike p q call call')
      (hloads : Loads q load' units) (hcalls : Calls q call' owner name)
      (h : Carried p q barriers caller old new results) :
      Carried p q barriers caller (load :: call :: old) (load' :: call' :: new)
        (reported caller load units owner name (.failed reason) :: results)
  | replaced {load call load' : Instruction} {old new : List Instruction}
      {results : List CallResult} {units value : Units} {owner name : String}
      (hsite : IsCallSite p barriers load call units owner name) (hloads : Loads q load' value)
      (h : Carried p q barriers caller old new results) :
      Carried p q barriers caller (load :: call :: old) (load' :: new)
        (reported caller load units owner name (.decrypted value.text) :: results)

section

variable {load call : Instruction} {index : UInt16} {rest : List Instruction} {edits : List Edit}
  {offset stop : Nat}

/-- The plan of a call site that is replaced: the load of the constant, and nothing in
place of the call. -/
theorem plan_siteEdits (hold : Consecutive offset (load :: call :: rest) stop)
    (hedits : ∀ edit ∈ edits, ∃ ins ∈ rest, (ins.offset : Int) = edit.offset) :
    Edit.plan (siteEdits load call index ++ edits) (load :: call :: rest) =
      (load.offset, Instruction.ldc index) :: Edit.plan edits rest := by
  have hne : ¬ call.offset = load.offset := by
    have hcall := hold.2.1
    have hsize := load.size_pos
    rw [Instruction.next] at hcall
    omega
  have hsite : Edit.plan (siteEdits load call index) [load, call] =
      [(load.offset, Instruction.ldc index)] := by
    simp [Edit.plan, Edit.planned, Edit.inserted, Edit.survivor, siteEdits, hne]
  have hoffsets : ∀ edit ∈ siteEdits load call index,
      ∃ ins ∈ [load, call], (ins.offset : Int) = edit.offset := by
    simp [siteEdits, Edit.offset]
  have happend := @Edit.plan_append _ _ [load, call] _ _ _ hold hoffsets hedits
  rwa [hsite] at happend

theorem plan_passed {ins : Instruction} (hold : Consecutive offset (ins :: rest) stop)
    (hedits : ∀ edit ∈ edits, ∃ other ∈ rest, (other.offset : Int) = edit.offset) :
    Edit.plan edits (ins :: rest) = (ins.offset, ins) :: Edit.plan edits rest :=
  @Edit.plan_append [] edits [ins] rest _ _ hold (by simp) hedits

end

/-- What was laid out for a method, and then renumbered, carries it over. -/
theorem Ran.carried {p q₀ q : Pool} {barriers : List Int} {caller : Identity}
    {old : List Instruction} {edits : List Edit} {results : List CallResult}
    {R : UInt16 → UInt16 → Prop} (h : Ran p barriers caller q₀ old edits results)
    (hp : ∀ i x, R i x → p.StandsFor q i x) (hq : ∀ i x, R i x → q₀.StandsFor q i x)
    {offset stop : Nat} (hold : Consecutive offset old stop) (hvalid : ∀ ins ∈ old, ins.Valid)
    {new new' : List Instruction}
    (hnew : new.map Instruction.unplaced =
      (Edit.plan edits old).map fun planned => planned.2.lengthened.unplaced)
    (hrenumbered : List.Forall₂ (Instruction.Renumbered R) new new') :
    Carried p q barriers caller old new' results := by
  have halike {ins mid ins' : Instruction} (hins : ins.Valid)
      (hunplaced : mid.unplaced = ins.lengthened.unplaced) (hmid : mid.Renumbered R ins') :
      Instruction.Alike p q ins ins' := by
    rw [Instruction.lengthened_eq_of_valid hins] at hunplaced
    exact ⟨mid, hunplaced, hmid.both (fun i _ x _ hx => hp i x hx) hmid⟩
  induction h generalizing offset new new' with
  | done =>
    obtain rfl : new = [] := List.map_eq_nil_iff.1 hnew
    cases hrenumbered
    exact .done
  | passed hpassed hran ih =>
    rw [List.forall_mem_cons] at hvalid
    rw [plan_passed hold hran.exists_offset, List.map_cons] at hnew
    obtain ⟨mid, new, rfl, hunplaced, hnew⟩ := List.map_eq_cons_iff.1 hnew
    cases hrenumbered with
    | cons hmid hrenumbered =>
      exact .passed hpassed (halike hvalid.1 hunplaced hmid)
        (ih hold.2 hvalid.2 hnew hrenumbered)
  | left hsite hran ih =>
    rw [List.forall_mem_cons, List.forall_mem_cons] at hvalid
    have hedits := hran.exists_offset
    rw [plan_passed hold fun edit hedit => by
        obtain ⟨ins, hins, hoffset⟩ := hedits edit hedit
        exact ⟨ins, List.mem_cons_of_mem _ hins, hoffset⟩,
      plan_passed hold.2 hedits, List.map_cons, List.map_cons] at hnew
    obtain ⟨load, new, rfl, hload, hnew⟩ := List.map_eq_cons_iff.1 hnew
    obtain ⟨call, new, rfl, hcall, hnew⟩ := List.map_eq_cons_iff.1 hnew
    cases hrenumbered with
    | cons hload' hrenumbered =>
      cases hrenumbered with
      | cons hcall' hrenumbered =>
        have hload := halike hvalid.1 hload hload'
        have hcall := halike hvalid.2.1 hcall hcall'
        exact .left hsite hload hcall (hload.loads hsite.loads) (hcall.calls hsite.calls)
          (ih hold.2.2 hvalid.2.2 hnew hrenumbered)
  | @replaced load call rest edits results units value owner name index hsite hvalue hran ih =>
    rw [List.forall_mem_cons, List.forall_mem_cons] at hvalid
    rw [plan_siteEdits hold hran.exists_offset, List.map_cons] at hnew
    obtain ⟨mid, new, rfl, hmid, hnew⟩ := List.map_eq_cons_iff.1 hnew
    cases hrenumbered with
    | cons hmid' hrenumbered =>
      rw [Instruction.lengthened_eq_of_valid (Instruction.valid_ldc index)] at hmid
      have halike : Instruction.Alike q₀ q (Instruction.ldc index) _ :=
        ⟨mid, hmid, hmid'.both (fun i _ x _ hx => hq i x hx) hmid'⟩
      exact .replaced hsite (halike.loads (loads_ldc hvalue))
        (ih hold.2.2 hvalid.2.2 hnew hrenumbered)

/-- The method `m` of a class has become `m'`, in a class with the pool `q`, and
`results` say what became of its call sites. -/
def CarriedMethod (c : Candidate) (q : Pool) (m m' : Member) (results : List CallResult) : Prop :=
  match m.body? with
  | none => m'.body? = none ∧ results = []
  | some body => ∃ body' old new, m'.body? = some body' ∧
      Instruction.decodeAll body.bytecode = .ok old ∧
      Instruction.decodeAll body'.bytecode = .ok new ∧
      Carried c.cf.pool q (Pattern.barriersOf body old) ⟨c.name, m.name c.cf.pool, c.poolCount⟩ old
        new results

theorem RewroteMethod.carried {c : Candidate} {q₀ q : Pool} {m mid m' : Member}
    {results : List CallResult} {R : UInt16 → UInt16 → Prop}
    (h : RewroteMethod c q₀ m mid results) (hp : ∀ i x, R i x → c.cf.pool.StandsFor q i x)
    (hq : ∀ i x, R i x → q₀.StandsFor q i x) (hmid : mid.BodyRenumbered R m') :
    CarriedMethod c q m m' results := by
  unfold RewroteMethod at h
  unfold CarriedMethod
  unfold Member.BodyRenumbered at hmid
  cases hbody : m.body? with
  | none =>
    rw [hbody] at h
    obtain ⟨rfl, rfl⟩ := h
    rw [hbody] at hmid
    exact ⟨hmid, rfl⟩
  | some body =>
    rw [hbody] at h
    obtain ⟨body₁, rfl, old, new, edits, hold, hnew, hunplaced, -, hran⟩ := h
    rw [Member.body?_setBody hbody] at hmid
    obtain ⟨body', hbody', -, hcode⟩ := hmid
    obtain ⟨new', hnew', hrenumbered⟩ := hcode new hnew
    have htiles := Instruction.decodeAll_ok.1 hold
    exact ⟨body', old, new', hbody', hold, hnew',
      hran.carried hp hq htiles.consecutive htiles.valid hunplaced hrenumbered⟩

/-- The class `c` has become `cf`, method by method, and `results` say what became of
its call sites. -/
def CarriedClass (c : Candidate) (cf : ClassFile) (results : List CallResult) : Prop :=
  ∃ rewritten : List (Member × List CallResult), cf.methods = rewritten.map (·.1) ∧
    results = rewritten.flatMap (·.2) ∧
    List.Forall₂ (fun m new => CarriedMethod c cf.pool m new.1 new.2) c.cf.methods rewritten

theorem carriedClass_of_rewrote {c : Candidate} {q₀ : Pool} {cf : ClassFile}
    {rewritten : List (Member × List CallResult)} {R : UInt16 → UInt16 → Prop}
    (h : List.Forall₂ (fun m new => RewroteMethod c q₀ m new.1 new.2) c.cf.methods rewritten)
    (hp : ∀ i x, R i x → c.cf.pool.StandsFor cf.pool i x)
    (hq : ∀ i x, R i x → q₀.StandsFor cf.pool i x)
    (hmethods : List.Forall₂ (Member.BodyRenumbered R) (rewritten.map (·.1)) cf.methods) :
    CarriedClass c cf (rewritten.flatMap (·.2)) := by
  unfold CarriedClass
  generalize cf.methods = methods at hmethods ⊢
  generalize c.cf.methods = old at h ⊢
  induction h generalizing methods with
  | nil =>
    cases hmethods
    exact ⟨[], rfl, rfl, .nil⟩
  | @cons m new old rewritten hm _ ih =>
    cases hmethods with
    | @cons _ m' _ methods hm' hmethods =>
      obtain ⟨rewritten', rfl, hresults, hcarried⟩ := ih methods hmethods
      refine ⟨(m', new.2) :: rewritten', rfl, ?_, .cons (hm.carried hp hq hm') hcarried⟩
      rw [List.flatMap_cons, List.flatMap_cons, hresults]

/-! ## A class that is decided on -/

/-- The operands of a class are of the kinds that call sites ask for. -/
def WellKindedClass (cf : ClassFile) : Prop :=
  ∀ m ∈ cf.methods, ∀ body, m.body? = some body → WellKindedBody cf.pool body

/-- Shrinking changes the pool operands of code to indices that stand for the same. -/
theorem shrink_methods {cf cf' : ClassFile} (hpool : cf.pool.Coherent)
    (hshrink : cf.shrink = .ok cf') :
    List.Forall₂ (Member.BodyRenumbered (cf.pool.StandsFor cf'.pool)) cf.methods cf'.methods := by
  obtain ⟨R, hR, hmoved⟩ := ClassFile.shrink_moves hpool.wellFormed hshrink
  refine hmoved.methods.imp fun m m' hm => ?_
  exact (hm.both (fun i _ x _ hx => (hR i x hx).standsFor) hm).body

/-- What the results of a class say, by what became of it.  No class is senseless. -/
def Concluded (c : Candidate) (results : List CallResult) : Verdict → Prop
  | .untouched => decryptedCount results = 0
  | .rewritten cf => 0 < decryptedCount results ∧ CarriedClass c cf results
  | .abandoned _ => True
  | .senseless _ => False

section

variable {σ : Type} {runner : Runner σ} {lookup : String → Option ClassFile} {c : Candidate}

/-- A class is left as it is, rewritten as a whole, or given up. -/
theorem rewriteClass_cases (hpool : c.cf.pool.Coherent) (hkinds : WellKindedClass c.cf) (kept : σ) :
    ∃ verdict w results, rewriteClass runner lookup c kept = (verdict, w) ∧
      w.results = results.reverse ∧ (∀ r ∈ results, r.cls = c.name) ∧
      Concluded c results verdict := by
  have hstart : Work.Stands { cf := c.cf, kept } c.cf ([] ++ c.cf.methods) [] :=
    ⟨rfl, hpool, Pool.Extends.refl _, rfl⟩
  unfold rewriteClass
  rcases @rewriteMethods_cases σ runner lookup c hpool.closed c.cf.methods [] 0 [] _ hkinds hstart
    with ⟨rewritten, w, hran, hw, -, hrewrote⟩ | ⟨method, e, more, w, hfailed, hresults, hlayout, hcls⟩
  · have hresults : w.results = (rewritten.flatMap (·.2)).reverse := hw.results
    have hcls : ∀ r ∈ rewritten.flatMap (·.2), r.cls = c.name := by
      intro r hr
      obtain ⟨new, hnew, hr⟩ := List.mem_flatMap.1 hr
      obtain ⟨m, -, hm⟩ := exists_mem_of_forall₂ hrewrote hnew
      exact hm.cls_eq r hr
    have hmethods : w.cf.methods = rewritten.map (·.1) := by
      rw [hw.cf]
      rfl
    have hstands (i : UInt16) := hw.extends_.standsFor hpool.closed i
    rw [List.length_nil, Nat.zero_add] at hran
    rw [hran]
    generalize hn : decryptedCount (rewritten.flatMap (·.2)) = n
    cases n with
    | zero => exact ⟨.untouched, w, _, rfl, hresults, hcls, hn⟩
    | succ n =>
      have hpos : 0 < decryptedCount (rewritten.flatMap (·.2)) := by omega
      simp only
      split
      · rename_i cf hshrink
        have hshrunk := shrink_methods hw.coherent hshrink
        rw [hmethods] at hshrunk
        exact ⟨.rewritten cf, w, _, rfl, hresults, hcls, hpos, carriedClass_of_rewrote hrewrote
          (fun i x hx => (hstands i).trans hx) (fun _ _ hx => hx) hshrunk⟩
      · rename_i e hshrink
        split
        · -- The pool stays as it is, and so does every index.
          refine ⟨.rewritten w.cf, _, _, rfl, hresults, hcls, hpos, carriedClass_of_rewrote
            (R := Eq) hrewrote ?_ ?_ ?_⟩
          · rintro i _ rfl
            exact hstands i
          · rintro i _ rfl
            exact Pool.StandsFor.refl _ i
          · rw [hmethods]
            exact List.forall₂_same.2 fun m _ => Member.BodyRenumbered.refl (fun _ => rfl) m
        · exact ⟨.abandoned e, _, _, rfl, hresults, hcls, True.intro⟩
  · rw [List.length_nil] at hfailed
    rw [hfailed]
    obtain ⟨offset, hoffset⟩ := Option.isSome_iff_exists.1 hlayout
    simp only [hoffset]
    exact ⟨.abandoned e, _, more, rfl, hresults, hcls, True.intro⟩

end

end Run

end Cleartext
