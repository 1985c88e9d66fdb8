import Cleartext.Proofs.Isolation.Templates
import Cleartext.Proofs.Pattern.Scanning

/-!
# The checks that are replaced

Replacing the checks of a class goes through its methods.  In each of them the checks are
found one behind the other (`Swept`) and staged, and the method is laid out again.  Nothing
is left out: between the checks there is no place at which one was found in the pool as it
was in the beginning (`Combed`).

* `stagedAll_stageChecks`: what is staged in a method is the replacement of the checks that
  were found, with a note for each.
* `clearedAll_neutralizeMethods`: the code of every method in front of a failure is laid out
  from the old one with its checks replaced, and the other methods are as they were
  (`Cleared`).  When there is no failure, all methods were combed (`Treated`).
-/

namespace Cleartext

namespace Isolation

open Machine

variable {p q : Pool} {caller : Identity} {query : Query} {push : Instruction}

/-! ## The checks of a method -/

/-- A check that is replaced: the instructions that ask, the one that appends, and the
push that takes the place of those that ask. -/
structure Check where
  query : Query
  front : List Instruction
  append : Instruction
  push : Instruction

namespace Check

/-- The instructions of a check. -/
def window (c : Check) : List Instruction := c.front ++ [c.append]

/-- Where a check starts. -/
def start (c : Check) : Nat := (c.window.head?.map (·.offset)).getD 0

/-- The calls that replace a check: the first instruction becomes the push, and the others
that ask go. -/
def edits (c : Check) : List Edit :=
  .replace c.start c.push :: c.front.tail.map fun ins => .delete ins.offset

/-- A check is replaced by what its query finds of the caller. -/
structure Stands (c : Check) (p : Pool) (caller : Identity) : Prop where
  asks : Asks p c.query c.front
  appends : Appends p c.query.type c.append
  captures : Captures p caller c.query c.push
  valid : c.push.Valid
  stageable : c.push.Stageable

/-- What is noted when a check is replaced. -/
def IsNoted (c : Check) (note : Note) : Prop :=
  ∃ method, note = .replaced method c.start c.query.name

end Check

/-- Instructions were searched for checks, one behind the other. -/
inductive Swept (p : Pool) (caller : Identity) : List Instruction → List Check → Prop
  | done (instructions : List Instruction) : Swept p caller instructions []
  | replaced {skipped rest : List Instruction} {c : Check} {checks : List Check}
      (hcheck : c.Stands p caller) (h : Swept p caller rest checks) :
      Swept p caller (skipped ++ c.window ++ rest) (c :: checks)

theorem CallsNamed.later {op : Opcode} {ins : Instruction} {name : String}
    (h : CallsNamed p op ins name) (hextends : p.Extends q) : CallsNamed q op ins name := by
  obtain ⟨hop, r, hr, hname⟩ := h
  exact ⟨hop, r, hextends.ref hr, hname⟩

theorem TakesElement.later {load two element : Instruction} (h : TakesElement p load two element)
    (hextends : p.Extends q) : TakesElement q load two element :=
  ⟨h.load, Step.pushedInt?_mono hextends h.two, h.element⟩

theorem Asks.later {front : List Instruction} (h : Asks p query front) (hextends : p.Extends q) :
    Asks q query front := by
  cases h with
  | className htakes hgetter => exact .className (htakes.later hextends) (hgetter.later hextends)
  | methodName htakes hgetter => exact .methodName (htakes.later hextends) (hgetter.later hextends)
  | poolSize haccess htakes hgetter hcls hpool hsize =>
    exact .poolSize (haccess.later hextends) (htakes.later hextends) (hgetter.later hextends)
      (hcls.later hextends) (hpool.later hextends) (hsize.later hextends)

theorem Appends.later {type : String} {ins : Instruction} (h : Appends p type ins)
    (hextends : p.Extends q) : Appends q type ins := by
  obtain ⟨hop, r, hr, happend⟩ := h
  exact ⟨hop, r, hextends.ref hr, happend⟩

theorem Check.Stands.later {c : Check} (h : c.Stands p caller) (hwidens : p.Widens q)
    (hclosed : p.Closed) : c.Stands q caller :=
  ⟨h.asks.later hwidens.extends_, h.appends.later hwidens.extends_,
    h.captures.later hclosed hwidens.extends_, h.valid, h.stageable⟩

/-- One instruction more in front of what was searched. -/
theorem Swept.cons {instructions : List Instruction} {checks : List Check}
    (h : Swept p caller instructions checks) (ins : Instruction) :
    Swept p caller (ins :: instructions) checks := by
  cases h with
  | done => exact .done _
  | @replaced skipped rest c checks hcheck h =>
    exact @Swept.replaced p caller (ins :: skipped) rest c checks hcheck h

/-- The code of a method was searched for checks from a position on.  At every position
either no template matches, or there is a check, and the search goes on behind it.  What
matches does so in the pool `p`, as it was in the beginning. -/
inductive Combed (p q : Pool) (body : MethodBody) (code : List Instruction) (caller : Identity) :
    Nat → List Check → Prop
  | done {i : Nat} : code.length ≤ i → Combed p q body code caller i []
  | passed {i : Nat} {checks : List Check} : i < code.length →
      (∀ t ∈ protectionTemplates, ¬ t.Matches p (some body) code i) →
      Combed p q body code caller (i + 1) checks → Combed p q body code caller i checks
  | replaced {i : Nat} {c : Check} {checks : List Check} :
      c.query.template.Matches p (some body) code i →
      c.window = c.query.template.window code i → c.Stands q caller →
      Combed p q body code caller (i + c.query.template.steps.length) checks →
      Combed p q body code caller i (c :: checks)

section

variable {body : MethodBody} {code : List Instruction} {i : Nat} {checks : List Check}

theorem Combed.later {q' : Pool} (h : Combed p q body code caller i checks) (hwidens : q.Widens q')
    (hclosed : q.Closed) : Combed p q' body code caller i checks := by
  induction h with
  | done hi => exact .done hi
  | passed hi hnone _ ih => exact .passed hi hnone ih
  | replaced hmatches hwindow hstands _ ih =>
    exact .replaced hmatches hwindow (hstands.later hwidens hclosed) ih

/-- Positions at which no template matches are passed over. -/
theorem Combed.skip {k : Nat} (h : Combed p q body code caller k checks) (hik : i ≤ k)
    (hk : k ≤ code.length)
    (hnone : ∀ j, i ≤ j → j < k → ∀ t ∈ protectionTemplates, ¬ t.Matches p (some body) code j) :
    Combed p q body code caller i checks := by
  induction hik using Nat.decreasingInduction with
  | self => exact h
  | of_succ j hj ih =>
    exact .passed (by omega) (hnone j (Nat.le_refl j) hj)
      (ih fun other hother => hnone other (by omega))

theorem combed_nil (h : ∀ j, i ≤ j → ∀ t ∈ protectionTemplates, ¬ t.Matches p (some body) code j) :
    Combed p q body code caller i [] := by
  by_cases hi : code.length ≤ i
  · exact .done hi
  · exact Combed.skip (.done (Nat.le_refl _)) (by omega) (Nat.le_refl _) fun j hj _ => h j hj

theorem drop_eq_window (t : Pattern.Template) (code : List Instruction) (i : Nat) :
    code.drop i = t.window code i ++ code.drop (i + t.steps.length) := by
  rw [Pattern.Template.window, ← List.drop_drop, List.take_append_drop]

/-- Code that was combed was searched. -/
theorem Combed.swept (h : Combed p q body code caller i checks) :
    Swept q caller (code.drop i) checks := by
  induction h with
  | done hi =>
    rw [List.drop_eq_nil_of_le hi]
    exact .done []
  | passed hi _ _ ih =>
    rw [List.drop_eq_getElem_cons hi]
    exact ih.cons _
  | replaced _ hwindow hstands _ ih =>
    rw [drop_eq_window, ← hwindow]
    exact @Swept.replaced q caller [] _ _ _ hstands ih

end

/-! ### Staging -/

/-- Instructions that match the template of a query are a check, once its answer is captured. -/
theorem Query.exists_check {query : Query} {instructions : List Instruction} {push : Instruction}
    (h : List.Forall₂ (Pattern.Step.Meets p) query.template.steps instructions)
    (hextends : p.Extends q) (hcaptures : Captures q caller query push) (hvalid : push.Valid)
    (hstageable : push.Stageable) :
    ∃ c : Check, c.query = query ∧ c.push = push ∧ c.window = instructions ∧ c.front ≠ [] ∧
      c.Stands q caller := by
  obtain ⟨front, append, rfl, hasks, happends⟩ := asks_of_matches h
  have hfront : front ≠ [] := by
    rintro rfl
    exact absurd hasks.two_le (by simp)
  exact ⟨⟨query, front, append, push⟩, rfl, rfl, rfl, hfront, hasks.later hextends,
    happends.later hextends, hcaptures, hvalid, hstageable⟩

theorem stageCheck_ok {ed ed' : Editor} {c : Check} (hfront : c.front ≠ [])
    (h : stageCheck ed c.push c.window = .ok ed') : ed' = ed.attemptAll c.edits := by
  obtain ⟨query, front, append, push⟩ := c
  obtain ⟨first, rest, rfl⟩ := List.exists_cons_of_ne_nil hfront
  unfold stageCheck Check.window at h
  dsimp only [List.cons_append] at h
  obtain ⟨ed₁, hreplace, hdeletes⟩ := Except.bind_ok.1 h
  rw [List.dropLast_concat] at hdeletes
  have hdelete : ∀ (deleted : List Instruction) (ed₁ : Editor),
      deleted.foldlM (fun ed ins => ed.delete ins.offset) ed₁ = .ok ed' →
      ed' = ed₁.attemptAll (deleted.map fun ins => .delete ins.offset) := by
    intro deleted
    induction deleted with
    | nil =>
      intro ed₁ h
      exact (Except.ok.inj h).symm
    | cons ins deleted ih =>
      intro ed₁ h
      rw [List.foldlM_cons] at h
      obtain ⟨ed₂, hrun, hrest⟩ := Except.bind_ok.1 h
      rw [ih ed₂ hrest, List.map_cons]
      show _ = (ed₁.attempt (.delete ins.offset)).attemptAll _
      rw [Run.attempt_of_run (.delete _) hrun]
  rw [hdelete rest ed₁ hdeletes]
  show _ = (ed.attempt (.replace first.offset push)).attemptAll _
  rw [Run.attempt_of_run (.replace _ _) hreplace]
  rfl

/-- A class goes on from `s` to `s'` while checks are staged: its pool has widened, and
notes were taken. -/
structure Neutralized.Grows (s s' : Neutralized) : Prop where
  cf : s'.cf = { s.cf with pool := s'.cf.pool }
  widens : s.cf.pool.Widens s'.cf.pool
  notes : ∃ more, s'.notes = more ++ s.notes

theorem Neutralized.Grows.refl {s : Neutralized} (h : s.cf.pool.Coherent) : s.Grows s :=
  ⟨rfl, .refl h, [], rfl⟩

theorem Neutralized.Grows.trans {s s' s'' : Neutralized} (h : s.Grows s') (h' : s'.Grows s'') :
    s.Grows s'' := by
  obtain ⟨more, hmore⟩ := h.notes
  obtain ⟨more', hmore'⟩ := h'.notes
  refine ⟨?_, h.widens.trans h'.widens, more' ++ more, ?_⟩
  · rw [h'.cf, h.cf]
  · rw [hmore', hmore, List.append_assoc]

section

variable {s s' : Neutralized} {method : String} {barriers : List Int} {body : MethodBody}
  {instructions code : List Instruction} {i : Nat} {ed : Editor}

theorem run_bind {α β : Type} (x : Neutralizing α) (f : α → Neutralizing β) (s : Neutralized) :
    (x >>= f).run.run s = match x.run.run s with
      | (.ok a, s) => (f a).run.run s
      | (.error e, s) => (.error e, s) := by
  show (ExceptT.bindCont f (x.run.run s).1).run (x.run.run s).2 = _
  rcases x.run.run s with ⟨_ | a, s⟩ <;> rfl

theorem stageChecks_succ (fuel : Nat) :
    (stageChecks caller method barriers (fuel + 1) instructions ed).run.run s =
      match Pattern.next? s.cf.pool barriers protectionTemplates instructions with
      | .error e => (.error e, s)
      | .ok none => (.ok ed, s)
      | .ok (some (m, rest)) =>
        match queryNamed? m.template.name with
        | none => (.error (.entangled (.unknownCheck m.template.name)), s)
        | some query =>
          let s₁ := { s with cf := { s.cf with pool := (s.cf.pool.edit (query.captured caller)).2 } }
          match (s.cf.pool.edit (query.captured caller)).1 with
          | .error e => (.error e, s₁)
          | .ok push =>
            match stageCheck ed push m.instructions with
            | .error e => (.error (.isolation e), s₁)
            | .ok ed =>
              (stageChecks caller method barriers fuel rest ed).run.run
                { s₁ with notes := .replaced method m.start m.template.name :: s₁.notes } := by
  rw [stageChecks, run_bind]
  show (match Pattern.next? s.cf.pool barriers protectionTemplates instructions with
    | .error e => throw e
    | .ok none => return ed
    | .ok (some (m, rest)) => _ : Neutralizing Editor).run.run s = _
  cases Pattern.next? s.cf.pool barriers protectionTemplates instructions with
  | error e => rfl
  | ok found =>
    cases found with
    | none => rfl
    | some found =>
      obtain ⟨m, rest⟩ := found
      dsimp only
      cases queryNamed? m.template.name with
      | none => rfl
      | some query =>
        dsimp only
        rw [run_bind]
        cases (s.cf.pool.edit (query.captured caller)).1 with
        | error e => rfl
        | ok push =>
          dsimp only
          cases hstage : stageCheck ed push m.instructions with
          | error e =>
            show (stageChecks.liftExcept ((stageCheck ed push m.instructions).mapError .isolation) >>=
              _ : Neutralizing Editor).run.run _ = _
            rw [hstage]
            rfl
          | ok ed' =>
            show (stageChecks.liftExcept ((stageCheck ed push m.instructions).mapError .isolation) >>=
              _ : Neutralizing Editor).run.run _ = _
            rw [hstage]
            rfl

/-- What staging the checks of some code from a position on comes to: the checks that were
found, with a note for each of them. -/
structure StagedAll (p : Pool) (body : MethodBody) (code : List Instruction) (caller : Identity)
    (s : Neutralized) (i : Nat) (ed : Editor) (result : Except Error Editor × Neutralized) :
    Prop where
  grows : s.Grows result.2
  staged : ∀ ed', result.1 = .ok ed' → ∃ checks noted,
    Combed p result.2.cf.pool body code caller i checks ∧
    ed' = ed.attemptAll (checks.flatMap Check.edits) ∧
    result.2.notes = noted.reverse ++ s.notes ∧ List.Forall₂ Check.IsNoted checks noted

theorem stagedAll_of_error {e : Error} (h : s.Grows s') :
    StagedAll p body code caller s i ed (.error e, s') := ⟨h, nofun⟩

theorem stagedAll_of_none (hpool : s.cf.pool.Coherent)
    (h : Combed p s.cf.pool body code caller i []) :
    StagedAll p body code caller s i ed (.ok ed, s) :=
  ⟨.refl hpool, fun _ hed => ⟨[], [], h, (Except.ok.inj hed).symm, rfl, .nil⟩⟩

/-- One check is staged, and then those behind it. -/
theorem StagedAll.cons {k : Nat} {c : Check} {note : Note}
    {result : Except Error Editor × Neutralized} {pool : Pool} (hik : i ≤ k)
    (hnone : ∀ j, i ≤ j → j < k → ∀ t ∈ protectionTemplates, ¬ t.Matches p (some body) code j)
    (hmatches : c.query.template.Matches p (some body) code k)
    (hwindow : c.window = c.query.template.window code k) (hcheck : c.Stands pool caller)
    (hwidens : s.cf.pool.Widens pool) (hnote : c.IsNoted note)
    (h : StagedAll p body code caller ⟨note :: s.notes, { s.cf with pool }⟩
      (k + c.query.template.steps.length) (ed.attemptAll c.edits) result) :
    StagedAll p body code caller s i ed result := by
  have hgrows : s.Grows ⟨note :: s.notes, { s.cf with pool }⟩ := ⟨rfl, hwidens, [note], rfl⟩
  refine ⟨hgrows.trans h.grows, fun ed' hed => ?_⟩
  obtain ⟨checks, noted, hcombed, rfl, hnotes, hnoted⟩ := h.staged ed' hed
  have hlater := hcheck.later h.grows.widens hwidens.coherent.closed
  have hroom := hmatches.room
  refine ⟨c :: checks, note :: noted,
    (Combed.replaced hmatches hwindow hlater hcombed).skip hik (by omega) hnone, ?_, ?_,
    .cons hnote hnoted⟩
  · simp [Editor.attemptAll]
  · rw [hnotes]
    simp

theorem stagedAll_stageChecks (caller : Identity) (method : String) (fuel : Nat) (ed : Editor)
    (hpool : p.Widens s.cf.pool) (hclosed : p.Closed) (hfuel : code.length ≤ i + fuel) :
    StagedAll p body code caller s i ed
      ((stageChecks caller method (Pattern.barriersOf body code) fuel (code.drop i) ed).run.run s) := by
  induction fuel generalizing i ed s with
  | zero => exact stagedAll_of_none hpool.coherent (.done hfuel)
  | succ fuel ih =>
    have hmatches_iff {t : Pattern.Template} {j : Nat} (ht : t ∈ protectionTemplates) :
        t.Matches s.cf.pool (some body) code j ↔ t.Matches p (some body) code j :=
      matches_iff_of_widens ht hpool hclosed
    rw [stageChecks_succ]
    rcases Pattern.next?_cases s.cf.pool (some body) protectionTemplates code i with
      ⟨hnext, hnone⟩ | ⟨k, earlier, t, later, hik, hnone, htemplates, -,
        ⟨hmatches, hnext⟩ | ⟨-, hnext⟩⟩ <;>
      rw [Pattern.barriersIn_some] at hnext
    · rw [hnext]
      exact stagedAll_of_none hpool.coherent
        (combed_nil fun j hj t ht hmatches => hnone j hj t ht ((hmatches_iff ht).2 hmatches))
    · obtain ⟨ht, -, hmeets⟩ := Pattern.next?_ok hnext
      rw [hnext]
      dsimp only [Pattern.Template.found] at ht hmeets ⊢
      cases hquery : queryNamed? t.name with
      | none => exact stagedAll_of_error (.refl hpool.coherent)
      | some query =>
        obtain ⟨hwidens, hcaptures⟩ := captured_cases caller hpool.coherent query
        dsimp only
        generalize s.cf.pool.edit (query.captured caller) = edited at hwidens hcaptures ⊢
        obtain ⟨result, pool⟩ := edited
        cases result with
        | error e => exact stagedAll_of_error ⟨rfl, hwidens, [], rfl⟩
        | ok push =>
          obtain ⟨hcapture, hvalid, hstageable⟩ := hcaptures push rfl
          obtain rfl : t = query.template := template_of_queryNamed? ht hquery
          obtain ⟨c, rfl, rfl, hwindow, hfront, hcheck⟩ :=
            Query.exists_check hmeets hwidens.extends_ hcapture hvalid hstageable
          dsimp only
          rw [← hwindow]
          cases hstage : stageCheck ed c.push c.window with
          | error e => exact stagedAll_of_error ⟨rfl, hwidens, [], rfl⟩
          | ok ed₁ =>
            obtain rfl := stageCheck_ok hfront hstage
            have hgap (j : Nat) (hij : i ≤ j) (hjk : j < k) (t) (ht : t ∈ protectionTemplates) :
                ¬ t.Matches p (some body) code j :=
              fun hmatches => hnone j hij hjk t ht ((hmatches_iff ht).2 hmatches)
            refine StagedAll.cons hik hgap ((hmatches_iff ht).1 hmatches) hwindow hcheck
              hwidens ⟨method, rfl⟩ (ih _ (hpool.trans hwidens) ?_)
            have hroom := hmatches.room
            have hpos := List.length_pos_iff.2 hmatches.steps
            omega
    · rw [hnext]
      exact stagedAll_of_error (.refl hpool.coherent)

end

/-! ## The methods of a class -/

/-- The checks of a method were replaced, which made it `m'`. -/
inductive Cleared (p : Pool) (caller : Identity) (m : Member) : Member → List Check → Prop
  | untouched : Cleared p caller m m []
  | rewritten {body body' : MethodBody} {old new : List Instruction} {checks : List Check}
      (hbody : m.body? = some body) (hold : Instruction.decodeAll body.bytecode = .ok old)
      (hnew : Instruction.decodeAll body'.bytecode = .ok new) (hswept : Swept p caller old checks)
      (hplan : new.map Instruction.unplaced =
        (Edit.plan (checks.flatMap Check.edits) old).map fun planned =>
          planned.2.lengthened.unplaced) :
      Cleared p caller m (m.setBody body') checks

/-- What an edit of a check brings in can be staged. -/
theorem Swept.stageable {instructions : List Instruction} {checks : List Check}
    (h : Swept p caller instructions checks) :
    ∀ edit ∈ checks.flatMap Check.edits, ∀ ins ∈ edit.instructions, ins.Stageable := by
  induction h with
  | done => simp
  | replaced hcheck _ ih =>
    intro edit hedit ins hins
    rw [List.flatMap_cons, List.mem_append] at hedit
    rcases hedit with hedit | hedit
    · rcases List.mem_cons.1 hedit with rfl | hedit
      · obtain rfl := List.mem_singleton.1 hins
        exact hcheck.stageable
      · obtain ⟨deleted, -, rfl⟩ := List.mem_map.1 hedit
        cases hins
    · exact ih edit hedit ins hins

/-- The code of a method was combed for checks, and laid out again if there were any, which
made it `m'`.  The pool was `p` in the beginning. -/
inductive Treated (p q : Pool) (caller : Identity) (m : Member) : Member → List Check → Prop
  | bodiless : m.body? = none → Treated p q caller m m []
  | kept {body : MethodBody} {code : List Instruction} (hbody : m.body? = some body)
      (hcode : Instruction.decodeAll body.bytecode = .ok code)
      (hcombed : Combed p q body code caller 0 []) : Treated p q caller m (m.setBody body) []
  | rewritten {body body' : MethodBody} {old new : List Instruction} {checks : List Check}
      (hbody : m.body? = some body) (hold : Instruction.decodeAll body.bytecode = .ok old)
      (hcombed : Combed p q body old caller 0 checks)
      (hrewritten : Edit.Rewritten (checks.flatMap Check.edits) old body new body') :
      Treated p q caller m (m.setBody body') checks

theorem Treated.later {m m' : Member} {checks : List Check} {q' : Pool}
    (h : Treated p q caller m m' checks) (hwidens : q.Widens q') (hclosed : q.Closed) :
    Treated p q' caller m m' checks := by
  cases h with
  | bodiless hbody => exact .bodiless hbody
  | kept hbody hcode hcombed => exact .kept hbody hcode (hcombed.later hwidens hclosed)
  | rewritten hbody hold hcombed hrewritten =>
    exact .rewritten hbody hold (hcombed.later hwidens hclosed) hrewritten

theorem Treated.cleared {m m' : Member} {checks : List Check}
    (h : Treated p q caller m m' checks) : Cleared q caller m m' checks := by
  cases h with
  | bodiless => exact .untouched
  | kept hbody hcode hcombed =>
    refine .rewritten hbody hcode hcode hcombed.swept ?_
    rw [List.flatMap_nil, Edit.plan_of_unstaged (by simp), List.map_map]
    refine List.map_congr_left fun ins hins => ?_
    have hvalid := (Instruction.decodeAll_ok.1 hcode).valid ins hins
    rw [Function.comp_apply, Instruction.lengthened_eq_of_valid hvalid]
  | rewritten hbody hold hcombed hrewritten =>
    exact .rewritten hbody hold hrewritten.decoded hcombed.swept hrewritten.instructions

/-- The edits of a check are staged at instructions. -/
theorem Combed.staged {body : MethodBody} {code : List Instruction} {i : Nat} {c : Check}
    {checks : List Check} (h : Combed p q body code caller i (c :: checks)) :
    ∃ edit ∈ (c :: checks).flatMap Check.edits, ∃ ins ∈ code, (ins.offset : Int) = edit.offset := by
  generalize hall : c :: checks = all at h ⊢
  induction h with
  | done => cases hall
  | passed _ _ _ ih => exact ih hall
  | @replaced i c checks hmatches hwindow =>
    refine ⟨.replace c.start c.push, by simp [Check.edits], ?_⟩
    obtain ⟨first, rest, hfirst⟩ : ∃ first rest, c.window = first :: rest :=
      List.exists_cons_of_ne_nil (by simp [Check.window])
    have hmem : first ∈ c.query.template.window code i := by
      rw [← hwindow, hfirst]
      exact List.mem_cons_self
    refine ⟨first, List.drop_subset _ _ (List.take_subset _ _ hmem), ?_⟩
    simp [Check.start, hfirst, Edit.offset]

/-- Laying out the checks of a body replaces them. -/
theorem treated_of_commit {m : Member} {body : MethodBody} {ed ed' : Editor} {checks : List Check}
    {pool : Pool} (hbody : m.body? = some body) (hnew : Editor.new body = .ok ed)
    (hcombed : Combed p q body ed.instructions caller 0 checks)
    (hcommit : (ed.attemptAll (checks.flatMap Check.edits)).commit pool = .ok ed') :
    Treated p q caller m (m.setBody ed'.body) checks := by
  obtain ⟨old, hold, rfl⟩ := Editor.new_ok.1 hnew
  rw [Editor.instructions_mk] at hcombed
  have hswept := hcombed.swept
  rw [List.drop_zero] at hswept
  obtain ⟨hnew', hcases⟩ := Editor.commit_rewrites hnew hswept.stageable hcommit
  rw [Editor.instructions_mk] at hcases
  rcases hcases with ⟨hunstaged, rfl⟩ | hrewritten
  · -- Nothing is staged at an instruction, so there are no checks.
    cases checks with
    | nil => exact .kept hbody hold hcombed
    | cons c checks =>
      obtain ⟨edit, hedit, ins, hins, hoffset⟩ := hcombed.staged
      exact absurd hoffset (hunstaged edit hedit ins hins)
  · exact .rewritten hbody hold hcombed hrewritten

/-- What replacing the checks of methods comes to: those in front of a failure are
done, and the others are as they were.  The pool was `p` in the beginning. -/
structure ClearedAll (p : Pool) (caller : Identity) (s : Neutralized) (front methods : List Member)
    (result : Except Error Unit × Neutralized) : Prop where
  cf : result.2.cf = { s.cf with pool := result.2.cf.pool, methods := result.2.cf.methods }
  widens : s.cf.pool.Widens result.2.cf.pool
  cleared : ∃ (cleared : List (Member × List Check)) (noted more : List Note),
    result.2.cf.methods = front ++ cleared.map (·.1) ∧
    List.Forall₂ (fun m new => Cleared result.2.cf.pool caller m new.1 new.2 ∧
      (result.1 = .ok () → Treated p result.2.cf.pool caller m new.1 new.2)) methods cleared ∧
    result.2.notes = more ++ noted.reverse ++ s.notes ∧ (result.1 = .ok () → more = []) ∧
    List.Forall₂ Check.IsNoted (cleared.flatMap (·.2)) noted

section

variable {s s' : Neutralized} {front methods : List Member} {m : Member}

/-- After a failure the methods are as they were. -/
theorem clearedAll_of_error {e : Error} (hmethods : s.cf.methods = front ++ methods)
    (h : s.Grows s') : ClearedAll p caller s front methods (.error e, s') := by
  obtain ⟨more, hmore⟩ := h.notes
  refine ⟨?_, h.widens, methods.map (·, []), [], more, ?_, ?_, by simpa using hmore, nofun, by simp⟩
  · rw [h.cf]
  · rw [h.cf]
    simpa [Function.comp_def] using hmethods
  · rw [List.forall₂_map_right_iff]
    exact List.forall₂_same.2 fun m _ => ⟨.untouched, nofun⟩

/-- One method is done, and then those behind it. -/
theorem ClearedAll.cons {checks : List Check} {noted : List Note} {m' : Member}
    {result : Except Error Unit × Neutralized} (hm : Treated p s'.cf.pool caller m m' checks)
    (hcf : s'.cf = { s.cf with pool := s'.cf.pool, methods := s'.cf.methods })
    (hwidens : s.cf.pool.Widens s'.cf.pool) (hnotes : s'.notes = noted.reverse ++ s.notes)
    (hnoted : List.Forall₂ Check.IsNoted checks noted)
    (h : ClearedAll p caller s' (front ++ [m']) methods result) :
    ClearedAll p caller s front (m :: methods) result := by
  obtain ⟨cleared, noted', more, hmethods, hcleared, hnotes', hmore, hnoted'⟩ := h.cleared
  have hlater := hm.later h.widens hwidens.coherent.closed
  refine ⟨?_, hwidens.trans h.widens, (m', checks) :: cleared, noted ++ noted', more, ?_,
    .cons ⟨hlater.cleared, fun _ => hlater⟩ hcleared, ?_, hmore, List.rel_append hnoted hnoted'⟩
  · rw [h.cf, hcf]
  · rw [hmethods]
    simp
  · rw [hnotes', hnotes]
    simp

theorem neutralizeMethod_body {body : MethodBody} {position : Nat} (hbody : m.body? = some body) :
    (neutralizeMethod caller position m).run.run s =
      let place (e : Error) : Error := .isolation (.within (.member s.cf.name (m.name s.cf.pool)) e)
      match Editor.new body with
      | .error e => (.error (place e), s)
      | .ok ed =>
        match (stageChecks caller (m.name s.cf.pool) (Pattern.barriersOf body ed.instructions)
          ed.instructions.length ed.instructions ed).run.run s with
        | (.error e, s) => (.error e, s)
        | (.ok ed, s) =>
          match ed.commit s.cf.pool with
          | .error e => (.error (place e), s)
          | .ok ed => (.ok (), { s with
              cf := { s.cf with methods := s.cf.methods.modify position (·.setBody ed.body) } }) := by
  unfold neutralizeMethod
  rw [hbody]
  dsimp only
  rw [run_bind]
  show (match Editor.new body with
    | .error e => _
    | .ok ed => _ : Neutralizing Unit).run.run s = _
  cases Editor.new body with
  | error e => rfl
  | ok ed =>
    dsimp only
    rw [run_bind]
    generalize (stageChecks caller (m.name s.cf.pool) (Pattern.barriersOf body ed.instructions)
      ed.instructions.length ed.instructions ed).run.run s = staged
    obtain ⟨answer, s₁⟩ := staged
    cases answer with
    | error e => rfl
    | ok ed₁ =>
      dsimp only
      rw [run_bind]
      show (match ed₁.commit s₁.cf.pool with
        | .error e => _
        | .ok ed => _ : Neutralizing Unit).run.run s₁ = _
      cases ed₁.commit s₁.cf.pool with
      | error e => rfl
      | ok ed₂ => rfl

theorem modify_append (front : List Member) (m : Member) (rest : List Member)
    (f : Member → Member) :
    (front ++ m :: rest).modify front.length f = front ++ f m :: rest := by
  induction front with
  | nil => rfl
  | cons first front ih => simpa using ih

theorem clearedAll_neutralizeMethods (hpool : p.Widens s.cf.pool) (hclosed : p.Closed)
    (hmethods : s.cf.methods = front ++ methods) :
    ClearedAll p caller s front methods
      ((neutralizeMethods caller front.length methods).run.run s) := by
  induction methods generalizing front s with
  | nil =>
    have hmethods' : s.cf.methods = front ++ [] := hmethods
    exact ⟨rfl, .refl hpool.coherent, [], [], [], hmethods', .nil, rfl, fun _ => rfl, .nil⟩
  | cons m rest ih =>
    have hlength (m' : Member) : front.length + 1 = (front ++ [m']).length := by simp
    rw [neutralizeMethods, run_bind]
    cases hbody : m.body? with
    | none =>
      have hskip : (neutralizeMethod caller front.length m).run.run s = (.ok (), s) := by
        unfold neutralizeMethod
        rw [hbody]
        rfl
      rw [hskip]
      dsimp only
      rw [hlength m]
      exact @ClearedAll.cons _ _ s s front rest m [] [] m _ (.bodiless hbody) rfl
        (.refl hpool.coherent) rfl .nil (ih hpool (by rw [hmethods]; simp))
    | some body =>
      rw [neutralizeMethod_body hbody]
      dsimp only
      cases hnew : Editor.new body with
      | error e => exact clearedAll_of_error hmethods (.refl hpool.coherent)
      | ok ed =>
        dsimp only
        have hstaged := @stagedAll_stageChecks p s body ed.instructions 0 caller
          (m.name s.cf.pool) ed.instructions.length ed hpool hclosed (by omega)
        rw [List.drop_zero] at hstaged
        generalize (stageChecks caller (m.name s.cf.pool) (Pattern.barriersOf body ed.instructions)
          ed.instructions.length ed.instructions ed).run.run s = result at hstaged ⊢
        obtain ⟨answer, s₁⟩ := result
        cases answer with
        | error e => exact clearedAll_of_error hmethods hstaged.grows
        | ok ed₁ =>
          dsimp only
          cases hcommit : ed₁.commit s₁.cf.pool with
          | error e => exact clearedAll_of_error hmethods hstaged.grows
          | ok ed₂ =>
            obtain ⟨checks, noted, hcombed, rfl, hnotes, hnoted⟩ := hstaged.staged ed₁ rfl
            have htreated := treated_of_commit hbody hnew hcombed hcommit
            have hcf : s₁.cf.methods = front ++ m :: rest := by
              have hgrows := congrArg ClassFile.methods hstaged.grows.cf
              exact hgrows.trans hmethods
            dsimp only
            rw [hcf, modify_append, hlength (m.setBody ed₂.body)]
            let s₂ : Neutralized :=
              ⟨s₁.notes, { s₁.cf with methods := front ++ m.setBody ed₂.body :: rest }⟩
            have hcf₂ : s₂.cf = { s.cf with pool := s₂.cf.pool, methods := s₂.cf.methods } := by
              show ({ s₁.cf with methods := _ } : ClassFile) = _
              rw [hstaged.grows.cf]
            exact @ClearedAll.cons _ _ s s₂ _ _ _ _ _ _ _ htreated hcf₂ hstaged.grows.widens hnotes
              hnoted (ih (hpool.trans hstaged.grows.widens) (by simp [s₂]))

end

end Isolation

end Cleartext
