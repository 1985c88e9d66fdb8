import Cleartext.Run.Session
import Cleartext.Proofs.Code.Placement
import Cleartext.Proofs.Pattern.Decryption
import Mathlib.Data.List.Chain

/-!
# Rewriting the call sites of a method

`rewriteSites` goes through the instructions of a method.  `Ran` is a declarative
trace of the choices it makes: an instruction is passed, a call site is left for a
reason, or a call site is replaced by the load of a constant.  The trace knows neither
the editor nor the runner, only the edits that were staged and the results that were
noted.

The pool grows on the way, so a trace has two of them.  Call sites are those of the
pool that was read, and `Pattern.WellKinded.callAt?_eq` says that later pools show no
others; constants are those of the pool in the end (`Ran.later`).

Every stage comes to an answer, or to an error at a place in the code that gives up the
class:

* `rewriteSite_cases`: one call site, by what it can do (`SiteStep`).
* `rewriteSites_proceeds`: all call sites of a method, with one lemma for each step of
  the trace (`Proceeds.passed`, `Proceeds.left` and `Proceeds.replaced`).
* `rewriteMethod_cases`: the edits are laid out, and the new body is put in its place.
* `rewriteMethods_cases`: all methods.  `Work.Stands` holds between two of them.
-/

namespace Cleartext

/-! ## The body of a method -/

namespace Member

variable {m : Member} {body : MethodBody}

private theorem exists_code {attributes : List Attribute}
    (h : (Attribute.find? attributes "Code").bind Attribute.body? = some body) :
    ∃ before i after, attributes = before ++ Attribute.code i "Code" body :: after ∧
      (∀ a ∈ before, a.name ≠ "Code") ∧
      ∀ new, setBody.go new attributes = before ++ Attribute.code i "Code" new :: after := by
  induction attributes with
  | nil => cases h
  | cons a rest ih =>
    by_cases hname : a.name = "Code"
    · have hfind : Attribute.find? (a :: rest) "Code" = some a := by
        simp [Attribute.find?, hname]
      rw [hfind] at h
      cases a with
      | raw i name info => cases h
      | code i name body' =>
        obtain rfl : body' = body := Option.some.inj h
        obtain rfl : name = "Code" := hname
        exact ⟨[], i, rest, rfl, by simp, fun new => by simp [setBody.go, Attribute.name]⟩
    · have hfind : Attribute.find? (a :: rest) "Code" = Attribute.find? rest "Code" := by
        simp [Attribute.find?, hname]
      rw [hfind] at h
      obtain ⟨before, i, after, rfl, hbefore, hset⟩ := ih h
      refine ⟨a :: before, i, after, rfl, List.forall_mem_cons.2 ⟨hname, hbefore⟩, fun new => ?_⟩
      unfold setBody.go
      rw [if_neg (by simpa using hname), hset]
      rfl

/-- A method with a body has it in its first `Code` attribute, and that is where
another body goes. -/
theorem exists_of_body? (h : m.body? = some body) :
    ∃ before i after, m.attributes = before ++ .code i "Code" body :: after ∧
      (∀ a ∈ before, a.name ≠ "Code") ∧
      ∀ new, m.setBody new = { m with attributes := before ++ .code i "Code" new :: after } := by
  obtain ⟨before, i, after, hattributes, hbefore, hset⟩ := exists_code h
  refine ⟨before, i, after, hattributes, hbefore, fun new => ?_⟩
  unfold setBody
  rw [hset]

theorem setBody_self (h : m.body? = some body) : m.setBody body = m := by
  obtain ⟨before, i, after, hattributes, -, hset⟩ := exists_of_body? h
  rw [hset, ← hattributes]

theorem body?_setBody (h : m.body? = some body) (new : MethodBody) :
    (m.setBody new).body? = some new := by
  obtain ⟨before, i, after, -, hbefore, hset⟩ := exists_of_body? h
  have hfind : Attribute.find? (before ++ .code i "Code" new :: after) "Code" =
      some (.code i "Code" new) := by
    unfold Attribute.find?
    rw [List.find?_append, List.find?_eq_none.2 (by simpa using hbefore)]
    simp [Attribute.name]
  rw [hset, body?, hfind]
  rfl

end Member

namespace Run

open Isolation (Identity Note)
open Pattern (CallSite IsCallSite Loads Calls WellKinded callAt?)

variable {σ : Type}

/-! ## One call site -/

/-- What is reported of a call site of a caller. -/
def reported (caller : Identity) (load : Instruction) (units : Units) (owner name : String)
    (outcome : Outcome) : CallResult :=
  { cls := caller.cls, method := caller.method, offset := load.offset
    routine := owner ++ "." ++ name, literal := units.text, outcome }

/-- A class that is being rewritten goes on from `w` to `w'`: constants were added,
and results were noted. -/
structure Work.Grows (w w' : Work σ) (results : List CallResult) : Prop where
  cf : w'.cf = { w.cf with pool := w'.cf.pool }
  coherent : w'.cf.pool.Coherent
  extends_ : w.cf.pool.Extends w'.cf.pool
  results : w'.results = results.reverse ++ w.results

theorem Work.Grows.refl {w : Work σ} (h : w.cf.pool.Coherent) : w.Grows w [] :=
  ⟨rfl, h, Pool.Extends.refl _, rfl⟩

theorem Work.Grows.trans {w w' w'' : Work σ} {results results' : List CallResult}
    (h : w.Grows w' results) (h' : w'.Grows w'' results') :
    w.Grows w'' (results ++ results') := by
  refine ⟨?_, h'.coherent, h.extends_.trans h'.extends_, ?_⟩
  · rw [h'.cf, h.cf]
  · rw [h'.results, h.results, List.reverse_append, List.append_assoc]

@[simp] theorem Work.noting_cf (w : Work σ) (notes : List Note) : (w.noting notes).cf = w.cf := by
  unfold noting
  induction notes generalizing w with
  | nil => rfl
  | cons note notes ih => exact ih _

@[simp] theorem Work.noting_results (w : Work σ) (notes : List Note) :
    (w.noting notes).results = w.results := by
  unfold noting
  induction notes generalizing w with
  | nil => rfl
  | cons note notes ih => exact ih _

/-- The calls that stage the load of a constant in place of a call site. -/
def siteEdits (load call : Instruction) (index : UInt16) : List Edit :=
  [.replace load.offset (Instruction.ldc index), .delete call.offset]

theorem attempt_of_run {ed ed' : Editor} (edit : Edit) (h : edit.run ed = .ok ed') :
    ed.attempt edit = ed' := by
  unfold Editor.attempt
  rw [h]
  rfl

/-- A call that stages an edit is refused only where no instruction starts. -/
theorem layoutOffset?_of_run {ed : Editor} (edit : Edit) {e : Error}
    (h : edit.run ed = .error e) : (layoutOffset? e).isSome := by
  have hstage {offset : Int} {f : Staged → Staged} (h : ed.stage offset f = .error e) :
      (layoutOffset? e).isSome := by
    unfold Editor.stage at h
    split at h
    · cases h
    · obtain rfl := Except.error.inj h
      rfl
  cases edit with
  | replace o ins => exact hstage h
  | delete o => exact hstage h
  | insert o instructions => exact hstage h

theorem stageValue_cases (ed : Editor) (t : Pattern.Template) (load call : Instruction)
    (units : Units) (r : Ref) (index : UInt16) :
    stageValue ed (CallSite.of (Pattern.found t load call units r)) index =
        .ok (ed.attemptAll (siteEdits load call index)) ∨
      ∃ e, stageValue ed (CallSite.of (Pattern.found t load call units r)) index = .error e ∧
        (layoutOffset? e).isSome := by
  have hstage : stageValue ed (CallSite.of (Pattern.found t load call units r)) index =
      ed.replace load.offset (Instruction.ldc index) >>= fun ed => ed.delete call.offset := rfl
  rw [hstage]
  cases hreplace : ed.replace load.offset (Instruction.ldc index) with
  | error e => exact .inr ⟨e, rfl, layoutOffset?_of_run (.replace _ _) hreplace⟩
  | ok ed₁ =>
    show ed₁.delete call.offset = _ ∨ ∃ e, ed₁.delete call.offset = _ ∧ _
    cases hdelete : ed₁.delete call.offset with
    | error e => exact .inr ⟨e, rfl, layoutOffset?_of_run (.delete _) hdelete⟩
    | ok ed₂ =>
      refine .inl ?_
      rw [siteEdits, Editor.attemptAll, List.foldl_cons, List.foldl_cons, List.foldl_nil,
        attempt_of_run (.replace _ _) hreplace, attempt_of_run (.delete _) hdelete]

/-- What a call site can do to a class that is being rewritten: it is left, there is no
room for its string, the edit cannot be staged, or it is replaced. -/
inductive SiteStep (caller : Identity) (ed : Editor) (site : CallSite) (w : Work σ) :
    Except Error (Editor × Bool) × Work σ → Prop
  | left {w' : Work σ} (reason : String) (hcf : w'.cf = w.cf)
      (hresults : w'.results = siteResult caller site (.failed reason) :: w.results) :
      SiteStep caller ed site w (.ok (ed, false), w')
  | full {w' : Work σ} {value : Units} {pool : Pool} {e : Error}
      (hedit : w.cf.pool.edit (Pool.Edit.stringUnits value) = (.error e, pool))
      (hcf : w'.cf = { w.cf with pool }) (hresults : w'.results = w.results) :
      SiteStep caller ed site w (.error (.unfit site.offset e), w')
  | unstaged {w' : Work σ} {value : Units} {pool : Pool} {index : UInt16} {e : Error}
      (hedit : w.cf.pool.edit (Pool.Edit.stringUnits value) = (.ok index, pool))
      (hstage : stageValue ed site index = .error e)
      (hcf : w'.cf = { w.cf with pool }) (hresults : w'.results = w.results) :
      SiteStep caller ed site w (.error e, w')
  | replaced {w' : Work σ} {value : Units} {pool : Pool} {index : UInt16} {ed' : Editor}
      (hedit : w.cf.pool.edit (Pool.Edit.stringUnits value) = (.ok index, pool))
      (hstage : stageValue ed site index = .ok ed') (hcf : w'.cf = { w.cf with pool })
      (hresults : w'.results = siteResult caller site (.decrypted value.text) :: w.results) :
      SiteStep caller ed site w (.ok (ed', true), w')

theorem rewriteSite_steps (runner : Runner σ) (lookup : String → Option ClassFile)
    (caller : Identity) (ed : Editor) (site : CallSite) (w : Work σ) :
    SiteStep caller ed site w (rewriteSite runner lookup caller ed site w) := by
  unfold rewriteSite
  split
  · exact .left _ rfl rfl
  · simp only
    split
    · rename_i e _
      refine .left e.message ?_ ?_
      · simp [Work.left, Work.happened, Work.blamed, Work.concluded]
      · simp [Work.left, Work.happened, Work.blamed, Work.concluded]
    · rename_i value _
      simp only [Work.noting_cf]
      split
      · rename_i hedit
        exact .full hedit rfl (by simp)
      · rename_i hedit
        split
        · rename_i hstage
          exact .unstaged hedit hstage rfl (by simp)
        · rename_i hstage
          exact .replaced hedit hstage rfl (by simp [Work.happened, Work.concluded])

/-- Adding a string lets a class grow. -/
theorem Work.grows_of_edit {w w' : Work σ} {value : Units} {pool : Pool}
    {answer : Except Error UInt16} (results : List CallResult) (hpool : w.cf.pool.Coherent)
    (hedit : w.cf.pool.edit (Pool.Edit.stringUnits value) = (answer, pool))
    (hcf : w'.cf = { w.cf with pool }) (hresults : w'.results = results.reverse ++ w.results) :
    w.Grows w' results ∧
      ∀ index, answer = .ok index → w'.cf.pool.value index = .ok (.string value) := by
  have hgives : Pool.Edit.Gives (fun _ => True) (Pool.Edit.stringUnits value) _ :=
    Pool.Edit.gives_stringUnits value
  obtain ⟨hcoherent, hextends, hright⟩ := hgives w.cf.pool hpool fun _ _ => True.intro
  rw [hedit] at hcoherent hextends hright
  have hpool' : w'.cf.pool = pool := by rw [hcf]
  refine ⟨⟨?_, hpool' ▸ hcoherent, hpool' ▸ hextends, hresults⟩, fun index hindex => ?_⟩
  · rw [hpool', hcf]
  · obtain ⟨n, hstring, hn⟩ := hright index hindex pool (Pool.Extends.refl pool)
    rw [hpool']
    exact Except.bind_ok.2 ⟨_, Pool.get_ok.2 hstring, Except.bind_ok.2 ⟨value,
      Pool.units_ok.2 ⟨_, hn, ModifiedUtf8.decode_encode value⟩, rfl⟩⟩

/-- What can come of a call site: it is left, it is replaced, or the class is given
up. -/
theorem rewriteSite_cases {runner : Runner σ} {lookup : String → Option ClassFile}
    {caller : Identity} {w : Work σ} (hpool : w.cf.pool.Coherent) (ed : Editor)
    (t : Pattern.Template) (load call : Instruction) (units : Units) (r : Ref) :
    (∃ reason w', rewriteSite runner lookup caller ed
          (CallSite.of (Pattern.found t load call units r)) w = (.ok (ed, false), w') ∧
        w.Grows w' [reported caller load units r.owner r.name (.failed reason)]) ∨
      (∃ value index w', rewriteSite runner lookup caller ed
          (CallSite.of (Pattern.found t load call units r)) w =
            (.ok (ed.attemptAll (siteEdits load call index), true), w') ∧
        w.Grows w' [reported caller load units r.owner r.name (.decrypted value.text)] ∧
        w'.cf.pool.value index = .ok (.string value)) ∨
      ∃ e w', rewriteSite runner lookup caller ed
          (CallSite.of (Pattern.found t load call units r)) w = (.error e, w') ∧
        w.Grows w' [] ∧ (layoutOffset? e).isSome := by
  have hstep := rewriteSite_steps runner lookup caller ed
    (CallSite.of (Pattern.found t load call units r)) w
  have hcases (index : UInt16) := stageValue_cases ed t load call units r index
  generalize rewriteSite runner lookup caller ed _ w = answer at hstep ⊢
  cases hstep with
  | @left w' reason hcf hresults =>
    refine .inl ⟨reason, w', rfl, ?_, ?_, ?_, hresults⟩
    · rw [hcf]
    · rwa [hcf]
    · rw [hcf]
      exact Pool.Extends.refl _
  | @full w' value pool e hedit hcf hresults =>
    obtain ⟨hgrows, -⟩ := Work.grows_of_edit [] hpool hedit hcf hresults
    exact .inr (.inr ⟨_, w', rfl, hgrows, rfl⟩)
  | @unstaged w' value pool index e hedit hstage hcf hresults =>
    obtain ⟨hgrows, -⟩ := Work.grows_of_edit [] hpool hedit hcf hresults
    rcases hcases index with hstaged | ⟨e', herror, hlayout⟩
    · cases hstage.symm.trans hstaged
    · obtain rfl := Except.error.inj (hstage.symm.trans herror)
      exact .inr (.inr ⟨e, w', rfl, hgrows, hlayout⟩)
  | @replaced w' value pool index ed' hedit hstage hcf hresults =>
    obtain ⟨hgrows, hvalue⟩ := Work.grows_of_edit [_] hpool hedit hcf hresults
    rcases hcases index with hstaged | ⟨e', herror, -⟩
    · obtain rfl := Except.ok.inj (hstage.symm.trans hstaged)
      exact .inr (.inl ⟨value, index, w', rfl, hgrows, hvalue index rfl⟩)
    · cases hstage.symm.trans herror

/-! ## All call sites of a method -/

/-- The instructions of a caller were gone through from one to the next: a call
site was left or replaced, and everything else was passed.  The call sites are
those of the pool `p`; the constants that are loaded in their place are those of
`q`. -/
inductive Ran (p : Pool) (barriers : List Int) (caller : Identity) (q : Pool) :
    List Instruction → List Edit → List CallResult → Prop
  | done : Ran p barriers caller q [] [] []
  | passed {ins : Instruction} {rest : List Instruction} {edits : List Edit}
      {results : List CallResult}
      (hpassed : ∀ next ∈ rest.head?, ∀ units owner name,
        ¬ IsCallSite p barriers ins next units owner name)
      (h : Ran p barriers caller q rest edits results) :
      Ran p barriers caller q (ins :: rest) edits results
  | left {load call : Instruction} {rest : List Instruction} {edits : List Edit}
      {results : List CallResult} {units : Units} {owner name reason : String}
      (hsite : IsCallSite p barriers load call units owner name)
      (h : Ran p barriers caller q rest edits results) :
      Ran p barriers caller q (load :: call :: rest) edits
        (reported caller load units owner name (.failed reason) :: results)
  | replaced {load call : Instruction} {rest : List Instruction} {edits : List Edit}
      {results : List CallResult} {units value : Units} {owner name : String} {index : UInt16}
      (hsite : IsCallSite p barriers load call units owner name)
      (hvalue : q.value index = .ok (.string value))
      (h : Ran p barriers caller q rest edits results) :
      Ran p barriers caller q (load :: call :: rest) (siteEdits load call index ++ edits)
        (reported caller load units owner name (.decrypted value.text) :: results)

theorem Ran.later {p q q' : Pool} {barriers : List Int} {caller : Identity}
    {instructions : List Instruction} {edits : List Edit} {results : List CallResult}
    (h : Ran p barriers caller q instructions edits results) (hclosed : q.Closed)
    (hextends : q.Extends q') : Ran p barriers caller q' instructions edits results := by
  induction h with
  | done => exact .done
  | passed hpassed _ ih => exact .passed hpassed ih
  | left hsite _ ih => exact .left hsite ih
  | replaced hsite hvalue _ ih =>
    exact .replaced hsite ((hextends.standsFor hclosed _).value hvalue) ih

namespace Ran

variable {p q : Pool} {barriers : List Int} {caller : Identity} {old : List Instruction}
  {edits : List Edit} {results : List CallResult} (h : Ran p barriers caller q old edits results)

include h

theorem cls_eq : ∀ r ∈ results, r.cls = caller.cls := by
  induction h with
  | done => simp
  | passed _ _ ih => exact ih
  | left _ _ ih | replaced _ _ _ ih => exact List.forall_mem_cons.2 ⟨rfl, ih⟩

/-- Edits are staged at instructions that are there. -/
theorem exists_offset : ∀ edit ∈ edits, ∃ ins ∈ old, (ins.offset : Int) = edit.offset := by
  induction h with
  | done => simp
  | passed _ _ ih =>
    intro edit hedit
    obtain ⟨ins, hins, hoffset⟩ := ih edit hedit
    exact ⟨ins, List.mem_cons_of_mem _ hins, hoffset⟩
  | left _ _ ih =>
    intro edit hedit
    obtain ⟨ins, hins, hoffset⟩ := ih edit hedit
    exact ⟨ins, List.mem_cons_of_mem _ (List.mem_cons_of_mem _ hins), hoffset⟩
  | @replaced load call _ _ _ _ _ _ _ _ _ _ _ ih =>
    intro edit hedit
    simp only [siteEdits, List.cons_append, List.nil_append, List.mem_cons] at hedit
    rcases hedit with rfl | rfl | hedit
    · exact ⟨load, by simp, rfl⟩
    · exact ⟨call, by simp, rfl⟩
    · obtain ⟨ins, hins, hoffset⟩ := ih edit hedit
      exact ⟨ins, List.mem_cons_of_mem _ (List.mem_cons_of_mem _ hins), hoffset⟩

/-- Only loads of constants are staged. -/
theorem stageable : ∀ edit ∈ edits, ∀ ins ∈ edit.instructions, ins.Stageable := by
  induction h with
  | done => simp
  | passed _ _ ih => exact ih
  | left _ _ ih => exact ih
  | replaced _ _ _ ih =>
    refine List.forall_mem_append.2 ⟨?_, ih⟩
    simp [siteEdits, Edit.instructions, Instruction.Stageable.load]

end Ran

/-- The number of results with a decrypted string. -/
def decryptedCount (results : List CallResult) : Nat :=
  results.countP (·.outcome.isDecrypted)

theorem decryptedCount_append (results more : List CallResult) :
    decryptedCount (results ++ more) = decryptedCount results + decryptedCount more :=
  List.countP_append

/-- Going through instructions with an editor comes to an answer: the edits that were
staged and their number, or a failure to lay out an edit. -/
def Proceeds (p : Pool) (barriers : List Int) (caller : Identity)
    (instructions : List Instruction) (ed : Editor) (edits : Nat) (w : Work σ)
    (answer : Except Error (Editor × Nat) × Work σ) : Prop :=
  (∃ calls results w', answer = (.ok (ed.attemptAll calls, edits + decryptedCount results), w') ∧
      w.Grows w' results ∧ Ran p barriers caller w'.cf.pool instructions calls results) ∨
    ∃ e results w', answer = (.error e, w') ∧ w.Grows w' results ∧
      (layoutOffset? e).isSome ∧ ∀ r ∈ results, r.cls = caller.cls

section

variable {caller : Identity} {barriers : List Int} {p : Pool} {ins load call : Instruction}
  {rest : List Instruction} {ed : Editor} {edits : Nat} {w w' : Work σ} {units : Units}
  {owner name : String} {answer : Except Error (Editor × Nat) × Work σ}

theorem Proceeds.passed (hpassed : ∀ next ∈ rest.head?, ∀ units owner name,
      ¬ IsCallSite p barriers ins next units owner name)
    (h : Proceeds p barriers caller rest ed edits w answer) :
    Proceeds p barriers caller (ins :: rest) ed edits w answer := by
  rcases h with ⟨calls, results, w', hanswer, hgrows, hran⟩ | hfailed
  · exact .inl ⟨calls, results, w', hanswer, hgrows, .passed hpassed hran⟩
  · exact .inr hfailed

theorem Proceeds.left {reason : String} (hsite : IsCallSite p barriers load call units owner name)
    (hgrows : w.Grows w' [reported caller load units owner name (.failed reason)])
    (h : Proceeds p barriers caller rest ed edits w' answer) :
    Proceeds p barriers caller (load :: call :: rest) ed edits w answer := by
  rcases h with ⟨calls, results, w'', hanswer, hgrows', hran⟩ |
    ⟨e, results, w'', hanswer, hgrows', hlayout, hcls⟩
  · refine .inl ⟨calls, _, w'', ?_, hgrows.trans hgrows', .left hsite hran⟩
    have hcount : decryptedCount (reported caller load units owner name (.failed reason) ::
        results) = decryptedCount results := by
      simp [decryptedCount, reported, Outcome.isDecrypted]
    rw [hanswer, List.singleton_append, hcount]
  · exact .inr ⟨e, _, w'', hanswer, hgrows.trans hgrows', hlayout,
      List.forall_mem_cons.2 ⟨rfl, hcls⟩⟩

theorem Proceeds.replaced {value : Units} {index : UInt16}
    (hsite : IsCallSite p barriers load call units owner name)
    (hgrows : w.Grows w' [reported caller load units owner name (.decrypted value.text)])
    (hvalue : w'.cf.pool.value index = .ok (.string value))
    (h : Proceeds p barriers caller rest (ed.attemptAll (siteEdits load call index)) (edits + 1) w'
      answer) :
    Proceeds p barriers caller (load :: call :: rest) ed edits w answer := by
  rcases h with ⟨calls, results, w'', hanswer, hgrows', hran⟩ |
    ⟨e, results, w'', hanswer, hgrows', hlayout, hcls⟩
  · have hlater := (hgrows'.extends_.standsFor hgrows.coherent.closed index).value hvalue
    refine .inl ⟨siteEdits load call index ++ calls, _, w'', ?_, hgrows.trans hgrows',
      .replaced hsite hlater hran⟩
    have hcount : decryptedCount (reported caller load units owner name (.decrypted value.text) ::
        results) = 1 + decryptedCount results := by
      simp [decryptedCount, reported, Outcome.isDecrypted, Nat.add_comm]
    rw [hanswer, List.singleton_append, hcount, ← Nat.add_assoc, Editor.attemptAll,
      Editor.attemptAll, ← List.foldl_append]
    rfl
  · exact .inr ⟨e, _, w'', hanswer, hgrows.trans hgrows', hlayout,
      List.forall_mem_cons.2 ⟨rfl, hcls⟩⟩

end

section

variable {runner : Runner σ} {lookup : String → Option ClassFile} {caller : Identity}
  {barriers : List Int} {p : Pool} {ins : Instruction} {rest : List Instruction}

theorem rewriteSites_nil (fuel : Nat) (ed : Editor) (edits : Nat) (w : Work σ) :
    rewriteSites runner lookup caller barriers fuel [] ed edits w = (.ok (ed, edits), w) := by
  cases fuel <;> rfl

/-- An instruction at which the look for a call site goes on is passed over. -/
theorem rewriteSites_passed {fuel : Nat} {ed : Editor} {edits : Nat} {w : Work σ}
    (h : Pattern.next? w.cf.pool barriers Pattern.decryptCalls (ins :: rest) =
      Pattern.next? w.cf.pool barriers Pattern.decryptCalls rest) :
    rewriteSites runner lookup caller barriers (fuel + 1) (ins :: rest) ed edits w =
      rewriteSites runner lookup caller barriers (fuel + 1) rest ed edits w := by
  unfold rewriteSites
  rw [h]

/-- Going through the instructions of a method comes to an end, or the class is
given up. -/
theorem rewriteSites_proceeds (hclosed : p.Closed) (instructions : List Instruction) :
    ∀ (fuel : Nat) (ed : Editor) (edits : Nat) (w : Work σ), instructions.length ≤ fuel →
    instructions.IsChain (WellKinded p barriers) → p.Extends w.cf.pool → w.cf.pool.Coherent →
    Proceeds p barriers caller instructions ed edits w
      (rewriteSites runner lookup caller barriers fuel instructions ed edits w) := by
  -- A call site takes two instructions, and everything else is passed one by one.
  induction instructions using List.twoStepInduction with
  | nil =>
    intro fuel ed edits w _ _ _ hpool
    rw [rewriteSites_nil]
    exact .inl ⟨[], [], w, rfl, Work.Grows.refl hpool, .done⟩
  | singleton ins =>
    intro fuel ed edits w hfuel _ _ hpool
    obtain ⟨fuel, rfl⟩ := Nat.exists_eq_succ_of_ne_zero (Nat.pos_iff_ne_zero.1 hfuel)
    rw [rewriteSites_passed Pattern.next?_singleton, rewriteSites_nil]
    exact .inl ⟨[], [], w, rfl, Work.Grows.refl hpool, .passed (by simp) .done⟩
  | cons_cons load call rest ihRest ihNext =>
    intro fuel ed edits w hfuel hkinds hextends hpool
    obtain ⟨fuel, rfl⟩ := Nat.exists_eq_succ_of_ne_zero
      (Nat.pos_iff_ne_zero.1 (Nat.lt_of_lt_of_le (by simp) hfuel))
    rw [List.length_cons, List.length_cons] at hfuel
    obtain ⟨hkinded, hchain⟩ := List.isChain_cons_cons.1 hkinds
    obtain ⟨hlater, answer, hanswer⟩ := hkinded.callAt?_eq hclosed hextends
    have hnext := @Pattern.next?_cons_cons w.cf.pool barriers load call rest
    rw [hlater, hanswer] at hnext
    cases answer with
    | none =>
      rw [rewriteSites_passed hnext]
      refine .passed ?_ (ihNext call _ ed edits w (by simp; omega) hchain hextends hpool)
      simpa using fun units owner name => Pattern.callAt?_eq_none hanswer
    | some found =>
      obtain ⟨units, r⟩ := found
      have hsite := Pattern.callAt?_eq_some hanswer
      have hrest : rest.IsChain (WellKinded p barriers) := hchain.tail
      unfold rewriteSites
      simp only [hnext]
      rcases @rewriteSite_cases σ runner lookup caller w hpool ed (Pattern.templateOf load.op) load
        call units r with ⟨reason, w', hleft, hgrows⟩ |
        ⟨value, index, w', hreplaced, hgrows, hvalue⟩ | ⟨e, w', hfailed, hgrows, hlayout⟩
      · rw [hleft]
        exact .left hsite hgrows (ihRest _ _ _ _ (by omega) hrest
          (hextends.trans hgrows.extends_) hgrows.coherent)
      · rw [hreplaced]
        exact .replaced hsite hgrows hvalue (ihRest _ _ _ _ (by omega) hrest
          (hextends.trans hgrows.extends_) hgrows.coherent)
      · rw [hfailed]
        exact .inr ⟨e, [], w', rfl, hgrows, hlayout, by simp⟩

end

theorem Ran.edits_eq_nil {p q : Pool} {barriers : List Int} {caller : Identity}
    {old : List Instruction} {edits : List Edit} {results : List CallResult}
    (h : Ran p barriers caller q old edits results) (hcount : decryptedCount results = 0) :
    edits = [] := by
  induction h with
  | done => rfl
  | passed _ _ ih => exact ih hcount
  | left _ _ ih =>
    refine ih ?_
    simpa [decryptedCount, reported, Outcome.isDecrypted] using hcount
  | replaced => exact absurd hcount (by simp [decryptedCount, reported, Outcome.isDecrypted])

/-! ## One method -/

/-- The body `body'`, with the instructions `new`, is `body` with edits laid out, or there
are none. -/
def LaidAnew (edits : List Edit) (old : List Instruction) (body : MethodBody) (new : List Instruction)
    (body' : MethodBody) : Prop :=
  edits = [] ∧ body' = body ∨ Edit.Rewritten edits old body new body'

/-- Laying out edits of a body gives the instructions of the plan. -/
theorem decodeAll_of_commit {body : MethodBody} {old : List Instruction} {edits : List Edit}
    {pool : Pool} {ed' : Editor} (hold : Instruction.decodeAll body.bytecode = .ok old)
    (hthere : ∀ edit ∈ edits, ∃ ins ∈ old, (ins.offset : Int) = edit.offset)
    (hedits : ∀ edit ∈ edits, ∀ ins ∈ edit.instructions, ins.Stageable)
    (hcommit : (Editor.attemptAll ⟨body, old.map fun ins => { original := ins }⟩ edits).commit
      pool = .ok ed') :
    ∃ new, Instruction.decodeAll ed'.body.bytecode = .ok new ∧
      new.map Instruction.unplaced =
        (Edit.plan edits old).map (fun planned => planned.2.lengthened.unplaced) ∧
      LaidAnew edits old body new ed'.body := by
  rcases Editor.commit_cases hcommit with ⟨hunstaged, rfl⟩ | ⟨-, hedited⟩
  · have hnone : edits = [] := List.eq_nil_iff_forall_not_mem.2 fun edit hedit => by
      obtain ⟨ins, hins, hoffset⟩ := hthere edit hedit
      exact hunstaged edit hedit ins hins hoffset
    exact ⟨old, hold, (Edit.laidOut_of_unstaged hunstaged hold).instructions, .inl ⟨hnone, rfl⟩⟩
  · obtain ⟨new, hrewritten⟩ := (Editor.attemptAll_plans body old edits).rewritten
      (Editor.valid_of_mem_plan hold hedits) hedited
    rw [Editor.attemptAll_body] at hrewritten
    exact ⟨new, hrewritten.decoded, hrewritten.instructions, .inr hrewritten⟩

theorem layoutOffset?_of_isStructural {e : Error} (h : e.isStructural = true) :
    (layoutOffset? e).isSome := by
  induction e with
  | structural | unfit => rfl
  | within _ cause ih => exact ih h
  | _ => cases h

theorem layoutOffset?_asStructural (e : Error) : (layoutOffset? (asStructural e)).isSome := by
  unfold asStructural
  split
  · rename_i h
    exact layoutOffset?_of_isStructural h
  · rfl

/-- The operands of the instructions of a body are of the kinds that call sites ask
for. -/
def WellKindedBody (p : Pool) (body : MethodBody) : Prop :=
  ∀ old, Instruction.decodeAll body.bytecode = .ok old →
    old.IsChain (WellKinded p (Pattern.barriersOf body old))

/-- The body `body'` is `body` with call sites replaced, and `results` say what
became of them. -/
def Rewrote (p : Pool) (caller : Identity) (q : Pool) (body body' : MethodBody)
    (results : List CallResult) : Prop :=
  ∃ old new edits, Instruction.decodeAll body.bytecode = .ok old ∧
    Instruction.decodeAll body'.bytecode = .ok new ∧
    new.map Instruction.unplaced =
      (Edit.plan edits old).map (fun planned => planned.2.lengthened.unplaced) ∧
    LaidAnew edits old body new body' ∧
    Ran p (Pattern.barriersOf body old) caller q old edits results

/-- A class is being rewritten: constants were added to what was read, methods were
put in the place of others, and results were noted. -/
structure Work.Stands (w : Work σ) (original : ClassFile) (methods : List Member)
    (results : List CallResult) : Prop where
  cf : w.cf = { original with pool := w.cf.pool, methods }
  coherent : w.cf.pool.Coherent
  extends_ : original.pool.Extends w.cf.pool
  results : w.results = results.reverse

theorem Work.Stands.grows {cf : ClassFile} {methods : List Member}
    {results more : List CallResult} {w w' : Work σ} (h : w.Stands cf methods results)
    (hgrows : w.Grows w' more) : w'.Stands cf methods (results ++ more) := by
  refine ⟨?_, hgrows.coherent, h.extends_.trans hgrows.extends_, ?_⟩
  · rw [hgrows.cf, h.cf]
  · rw [hgrows.results, h.results, List.reverse_append]

/-- Putting a body into a method. -/
theorem Work.Stands.replacing {original : ClassFile} {before after : List Member} {m : Member}
    {results : List CallResult} {w : Work σ}
    (h : w.Stands original (before ++ m :: after) results) (body : MethodBody) :
    Work.Stands { w with cf := { w.cf with
      methods := w.cf.methods.modify before.length (·.setBody body) } }
      original (before ++ m.setBody body :: after) results := by
  have hmethods : w.cf.methods.modify before.length (·.setBody body) =
      before ++ m.setBody body :: after := by
    rw [h.cf]
    simp [List.modify_eq_take_cons_drop]
  refine ⟨?_, h.coherent, h.extends_, h.results⟩
  rw [hmethods]
  exact congrArg (fun cf : ClassFile => { cf with methods := before ++ m.setBody body :: after })
    h.cf

section

variable {runner : Runner σ} {lookup : String → Option ClassFile} {caller : Identity}
  {cf : ClassFile} {before after : List Member} {m : Member} {body : MethodBody}
  {results : List CallResult} {w : Work σ}

/-- Rewriting a method puts a body in the place of another, or the class is given
up. -/
theorem rewriteMethod_cases (hclosed : cf.pool.Closed) (hkinds : WellKindedBody cf.pool body)
    (hbody : m.body? = some body) (hw : w.Stands cf (before ++ m :: after) results) :
    (∃ body' more w', rewriteMethod runner lookup caller before.length body w =
          (.ok (decryptedCount more), w') ∧
        w'.Stands cf (before ++ m.setBody body' :: after) (results ++ more) ∧
        w.cf.pool.Extends w'.cf.pool ∧ Rewrote cf.pool caller w'.cf.pool body body' more) ∨
      ∃ e more w', rewriteMethod runner lookup caller before.length body w = (.error e, w') ∧
        w'.Stands cf (before ++ m :: after) (results ++ more) ∧
        (layoutOffset? e).isSome ∧ ∀ r ∈ more, r.cls = caller.cls := by
  unfold rewriteMethod
  cases hnew : Editor.new body with
  | error e =>
    exact .inr ⟨_, [], w, rfl, by rwa [List.append_nil], rfl, by simp⟩
  | ok ed =>
    obtain ⟨old, hold, rfl⟩ := Editor.new_ok.1 hnew
    simp only [Editor.instructions_mk]
    rcases rewriteSites_proceeds hclosed old old.length _ 0 w le_rfl (hkinds old hold) hw.extends_
      hw.coherent with ⟨edits, more, w', hran, hgrows, hran'⟩ |
      ⟨e, more, w', hfailed, hgrows, hrest⟩
    · rw [hran, Nat.zero_add]
      have hw' := hw.grows hgrows
      have hstageable := hran'.stageable
      generalize hn : decryptedCount more = n
      cases n with
      | zero =>
        -- Nothing was staged, and the body stays.
        obtain rfl := hran'.edits_eq_nil hn
        refine .inl ⟨body, more, w', by rw [hn]; rfl, by rwa [Member.setBody_self hbody],
          hgrows.extends_, old, old, [], hold, hold, ?_, .inl ⟨rfl, rfl⟩, hran'⟩
        have hunstaged : ∀ edit ∈ ([] : List Edit), ∀ ins ∈ old,
            (ins.offset : Int) ≠ edit.offset := by
          simp
        exact (Edit.laidOut_of_unstaged hunstaged hold).instructions
      | succ n =>
        simp only
        cases hcommit : (Editor.attemptAll ⟨body, old.map fun ins => { original := ins }⟩
            edits).commit w'.cf.pool with
        | error e =>
          exact .inr ⟨_, more, w', rfl, hw', layoutOffset?_asStructural e, hran'.cls_eq⟩
        | ok ed' =>
          obtain ⟨new, hnew', hunplaced, hlaid⟩ :=
            decodeAll_of_commit hold hran'.exists_offset hstageable hcommit
          refine .inl ⟨ed'.body, more, { w' with cf := { w'.cf with
            methods := w'.cf.methods.modify before.length (·.setBody ed'.body) } }, by rw [hn], ?_,
            hgrows.extends_, old, new, edits, hold, hnew', hunplaced, hlaid, hran'⟩
          exact hw'.replacing ed'.body
    · rw [hfailed]
      exact .inr ⟨e, more, w', rfl, hw.grows hgrows, hrest⟩

end

theorem Rewrote.later {p q q' : Pool} {caller : Identity} {body body' : MethodBody}
    {results : List CallResult} (h : Rewrote p caller q body body' results) (hclosed : q.Closed)
    (hextends : q.Extends q') : Rewrote p caller q' body body' results := by
  obtain ⟨old, new, edits, hold, hnew, hunplaced, hlaid, hran⟩ := h
  exact ⟨old, new, edits, hold, hnew, hunplaced, hlaid, hran.later hclosed hextends⟩

theorem Rewrote.cls_eq {p q : Pool} {caller : Identity} {body body' : MethodBody}
    {results : List CallResult} (h : Rewrote p caller q body body' results) :
    ∀ r ∈ results, r.cls = caller.cls := by
  obtain ⟨old, new, edits, -, -, -, -, hran⟩ := h
  exact hran.cls_eq

/-! ## All methods of a class -/

/-- The method `m` has become `m'`, and `results` say what became of its call
sites. -/
def RewroteMethod (c : Archive.Candidate) (q : Pool) (m m' : Member) (results : List CallResult) :
    Prop :=
  match m.body? with
  | none => m' = m ∧ results = []
  | some body => ∃ body', m' = m.setBody body' ∧
      Rewrote c.cf.pool ⟨c.name, m.name c.cf.pool, c.poolCount⟩ q body body' results

theorem RewroteMethod.cls_eq {c : Archive.Candidate} {q : Pool} {m m' : Member}
    {results : List CallResult} (h : RewroteMethod c q m m' results) :
    ∀ r ∈ results, r.cls = c.name := by
  unfold RewroteMethod at h
  split at h
  · rw [h.2]
    simp
  · obtain ⟨body', -, hrewrote⟩ := h
    exact hrewrote.cls_eq

section

variable {runner : Runner σ} {lookup : String → Option ClassFile} {c : Archive.Candidate}

/-- Rewriting methods one after another puts bodies in the place of others, or the
class is given up. -/
theorem rewriteMethods_cases (hclosed : c.cf.pool.Closed) (todo : List Member) :
    ∀ (before : List Member) (edits : Nat) (results : List CallResult) (w : Work σ),
    (∀ m ∈ todo, ∀ body, m.body? = some body → WellKindedBody c.cf.pool body) →
    w.Stands c.cf (before ++ todo) results →
    (∃ (rewritten : List (Member × List CallResult)) (w' : Work σ),
        rewriteMethods runner lookup c before.length todo edits w =
          (.ok (edits + decryptedCount (rewritten.flatMap (·.2))), w') ∧
        w'.Stands c.cf (before ++ rewritten.map (·.1)) (results ++ rewritten.flatMap (·.2)) ∧
        w.cf.pool.Extends w'.cf.pool ∧
        List.Forall₂ (fun m new => RewroteMethod c w'.cf.pool m new.1 new.2) todo rewritten) ∨
      ∃ method e more w', rewriteMethods runner lookup c before.length todo edits w =
          (.error (method, e), w') ∧ w'.results = (results ++ more).reverse ∧
        (layoutOffset? e).isSome ∧ ∀ r ∈ more, r.cls = c.name := by
  induction todo with
  | nil =>
    intro before edits results w _ hw
    refine .inl ⟨[], w, rfl, ?_, Pool.Extends.refl _, .nil⟩
    simpa using hw
  | cons m todo ih =>
    intro before edits results w hkinds hw
    rw [List.forall_mem_cons] at hkinds
    unfold rewriteMethods
    cases hbody : m.body? with
    | none =>
      rcases ih (before ++ [m]) edits results w hkinds.2 (by simpa using hw) with
        ⟨rewritten, w', hran, hw', hextends, hrewrote⟩ | ⟨method, e, more, w', hfailed, hrest⟩
      · rw [List.length_append, List.length_singleton] at hran
        refine .inl ⟨(m, []) :: rewritten, w', hran, by simpa using hw', hextends,
          .cons ?_ hrewrote⟩
        simp [RewroteMethod, hbody]
      · rw [List.length_append, List.length_singleton] at hfailed
        exact .inr ⟨method, e, more, w', hfailed, hrest⟩
    | some body =>
      simp only
      rcases @rewriteMethod_cases σ runner lookup ⟨c.name, m.name c.cf.pool, c.poolCount⟩ c.cf
        before todo m body results w hclosed (hkinds.1 body hbody) hbody hw with
        ⟨body', more, w', hran, hw', hextends, hrewrote⟩ |
        ⟨e, more, w', hfailed, hw', hlayout, hcls⟩
      · rw [hran]
        simp only
        rcases ih (before ++ [m.setBody body']) (edits + decryptedCount more) (results ++ more) w'
          hkinds.2 (by simpa using hw') with
          ⟨rewritten, w'', hran', hw'', hextends', hrewrote'⟩ |
          ⟨method, e, more', w'', hfailed, hresults, hlayout, hcls⟩
        · rw [List.length_append, List.length_singleton] at hran'
          refine .inl ⟨(m.setBody body', more) :: rewritten, w'', ?_, by simpa using hw'',
            hextends.trans hextends', .cons ?_ hrewrote'⟩
          · rw [hran', List.flatMap_cons, decryptedCount_append, Nat.add_assoc]
          · unfold RewroteMethod
            rw [hbody]
            exact ⟨body', rfl, hrewrote.later hw'.coherent.closed hextends'⟩
        · rw [List.length_append, List.length_singleton] at hfailed
          refine .inr ⟨method, e, more ++ more', w'', hfailed, by rw [hresults, List.append_assoc],
            hlayout, ?_⟩
          exact List.forall_mem_append.2 ⟨hrewrote.cls_eq, hcls⟩
      · rw [hfailed]
        exact .inr ⟨_, e, more, w', rfl, hw'.results, hlayout, hcls⟩

end

end Run

end Cleartext
