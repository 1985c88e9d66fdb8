import Cleartext.Proofs.Machine.Budget
import Cleartext.Proofs.Quiet.Identity

/-!
# Runs under higher limits

A class is run under two configurations that differ in the limits only: the number of
instructions and the number of nested calls.  As long as the first run does not fail for its
limits, the second goes the same way.

* `Plan.advanceAlone_raised`: a round comes to the same under the higher limits, or it fails
  for the lower ones.
* `Plan.Runs.raised`: so does a frame, by induction on its run.  A failure for a limit is no
  exception, so it passes through every frame that waits; a run that does not end with one
  has met none.
* `Emulation.invoke_raised`: and so does an invocation.
-/

namespace Cleartext.Machine

/-! ## Higher limits -/

/-- A failure that is about the limits of a run. -/
def Error.IsLimit : Error → Prop
  | .stepLimit _ | .stackDepth _ => True
  | _ => False

/-- An answer that is a failure for the limits. -/
def AtLimit (answer : Except Halt Value) : Prop :=
  ∃ e, answer = .error (.failure e) ∧ Error.IsLimit e

/-- The second configuration has limits at least as high, and is otherwise the same. -/
structure Config.Raises (c c' : Config) : Prop where
  caller : c.caller = c'.caller
  poolSize : c.poolSize = c'.poolSize
  codeSource : c.codeSource = c'.codeSource
  traced : c.traced = c'.traced
  charsets : c.charsets = c'.charsets
  stepLimit : c.stepLimit ≤ c'.stepLimit
  depthLimit : c.depthLimit ≤ c'.depthLimit

/-- The second plan has limits at least as high, and is otherwise the same. -/
structure Plan.Raises (plan plan' : Plan) : Prop where
  program : plan.program = plan'.program
  config : plan.config.Raises plan'.config
  cancelled : plan.cancelled = plan'.cancelled

/-- Limits that are given are compared as they are given. -/
theorem Config.raises_of_positive (c : Config) {maxSteps maxDepth : Int} (hsteps : 0 < c.maxSteps)
    (hdepth : 0 < c.maxDepth) (hstepsle : c.maxSteps ≤ maxSteps) (hdepthle : c.maxDepth ≤ maxDepth) :
    c.Raises { c with maxSteps, maxDepth } where
  caller := rfl
  poolSize := rfl
  codeSource := rfl
  traced := rfl
  charsets := rfl
  stepLimit := by
    unfold stepLimit
    rw [if_neg (by omega), if_neg (by simp only; omega)]
    exact Int.toNat_le_toNat hstepsle
  depthLimit := by
    unfold depthLimit
    rw [if_neg (by omega), if_neg (by simp only; omega)]
    exact Int.toNat_le_toNat hdepthle

/-- Nothing of a run but its bounds depends on the limits. -/
theorem Config.Raises.setting {c c' : Config} (h : c.Raises c') (program : Program)
    (active : List String) : Setting.Alike true ⟨program, c, active⟩ ⟨program, c', active⟩ where
  program := rfl
  active := rfl
  charsets := h.charsets
  caller := fun _ => h.caller
  poolSize := fun _ => h.poolSize
  codeSource := fun _ => h.codeSource

namespace World

variable {w w' : World}

theorem seen_true (w : World) : w.seen true = w := by
  unfold seen
  rw [Object.seen_true, Array.map_id]

theorem Alike.eq (h : w.Alike true w') : w = w' := by
  rw [← w.seen_true, ← w'.seen_true]
  exact h

end World

namespace Plan

variable {plan plan' : Plan} {r : Routine} {args : List Value} {f : Frame} {m m' : Moment}
  {events : List Event} {answer : Except Halt Value}

/-! ## A round -/

/-- An instruction answers under the higher limits as under the lower ones. -/
theorem Raises.run_eq (h : plan.Raises plan') (ins : Instruction) (f : Frame) (w : World) :
    Step.run ins (plan.setting f) f w = Step.run ins (plan'.setting f) f w := by
  have hsetting : (plan.setting f).Alike true (plan'.setting f) := by
    unfold setting
    rw [← h.program]
    exact h.config.setting ..
  obtain ⟨hanswer, hworld⟩ := Step.run_blind (.inl rfl) _ _ hsetting (.refl true w)
  exact Prod.ext hanswer hworld.eq

/-- A method is entered in the same way, unless the call stack is at the lower limit. -/
theorem Raises.enter_eq (h : plan.Raises plan') (r : Routine) (args : List Value)
    (names : List String) :
    plan'.enter r args names = plan.enter r args names ∨
      ∃ e, plan.enter r args names = .error e ∧ Error.IsLimit e := by
  unfold enter
  by_cases hdepth : plan.config.depthLimit ≤ names.length
  · rw [if_pos hdepth]
    exact .inr ⟨_, rfl, trivial⟩
  · rw [if_neg hdepth, if_neg (fun hle => hdepth (h.config.depthLimit.trans hle)), tooMany, tooMany, h.program]
    exact .inl rfl

/-- What an instruction answers leads on in the same way, unless a call is at the lower
limit. -/
theorem Raises.resume_eq (h : plan.Raises plan') (next : Nat) (outcome : Except Halt Outcome)
    (f : Frame) (p : Progress) :
    plan'.resume [] next outcome f p = plan.resume [] next outcome f p ∨
      ∃ answer p', plan.resume [] next outcome f p = .error (answer, p') ∧ AtLimit answer := by
  unfold resume
  rcases outcome with (id | e | lack) | (pc | v | ⟨r, args, returns⟩)
  case ok.enter =>
    dsimp only
    rcases h.enter_eq r args f.active with henter | ⟨e, henter, he⟩
    · rw [henter]
      exact .inl rfl
    · rw [henter]
      exact .inr ⟨_, _, rfl, e, rfl, he⟩
  case error.thrown =>
    rw [h.program]
    exact .inl rfl
  all_goals exact .inl rfl

/-- A round comes to the same under the higher limits, or it fails for the lower ones. -/
theorem advanceAlone_raised (h : plan.Raises plan') (f : Frame) (p : Progress) :
    plan'.advanceAlone f p = plan.advanceAlone f p ∨
      ∃ answer p', plan.advanceAlone f p = .error (answer, p') ∧ AtLimit answer := by
  unfold advanceAlone advance
  dsimp only
  by_cases hspent : isOutside f = false ∧ plan.config.stepLimit ≤ p.steps
  · rw [if_pos hspent]
    exact .inr ⟨_, _, rfl, _, rfl, trivial⟩
  · have hspent' : ¬ (isOutside f = false ∧ plan'.config.stepLimit ≤ p.steps) := fun hs =>
      hspent ⟨hs.1, h.config.stepLimit.trans hs.2⟩
    rw [if_neg hspent, if_neg hspent']
    unfold step
    dsimp only
    rw [← h.cancelled]
    split
    · exact .inl rfl
    · split
      · exact .inl rfl
      · split
        · exact .inl rfl
        · have hnote (ins : Instruction) (p : Progress) : plan'.note f ins p = plan.note f ins p := by
            unfold note
            rw [h.program, h.config.traced]
          unfold perform
          dsimp only
          rw [hnote, ← h.run_eq]
          exact h.resume_eq ..

/-! ## Runs -/

/-- A caller goes on in the same way. -/
theorem Raises.goesOn_eq (h : plan.Raises plan') (c : Caller) (answer : Except Halt Value) (w : World) :
    plan'.goesOn? c answer w = plan.goesOn? c answer w := by
  unfold goesOn?
  rw [h.program]

theorem Raises.advanceAlone_ok (h : plan.Raises plan') {p : Progress} {s : State}
    (hround : plan.advanceAlone f p = .ok s) : plan'.advanceAlone f p = .ok s := by
  rcases advanceAlone_raised h f p with heq | ⟨answer, p', hlimit, -⟩
  · exact heq.trans hround
  · cases hround.symm.trans hlimit

theorem Raises.advanceAlone_error (h : plan.Raises plan') {p p' : Progress}
    (hround : plan.advanceAlone f p = .error (answer, p')) (hlimit : ¬ AtLimit answer) :
    plan'.advanceAlone f p = .error (answer, p') := by
  rcases advanceAlone_raised h f p with heq | ⟨answer', p'', hround', hlimit'⟩
  · exact heq.trans hround
  · obtain ⟨rfl, -⟩ := Prod.mk.inj (Except.error.inj (hround.symm.trans hround'))
    exact (hlimit hlimit').elim

/-- No frame goes on behind a call that failed for the limits. -/
theorem not_atLimit_of_goesOn? {c : Caller} {w : World} {g : Frame}
    (h : plan.goesOn? c answer w = some g) : ¬ AtLimit answer := by
  rintro ⟨e, rfl, -⟩
  exact (goesOn?_some h).1 e rfl

/-- A frame that does not fail for the limits runs the same way under higher ones. -/
theorem Runs.raised (hplan : plan.Raises plan') (h : plan.Runs f m events answer m')
    (hlimit : ¬ AtLimit answer) : plan'.Runs f m events answer m' := by
  induction h with
  | done hround => exact .done (hplan.advanceAlone_error hround hlimit)
  | next hround _ ih => exact .next (hplan.advanceAlone_ok hround) (ih hlimit)
  | called hround _ hon _ ihcall ih =>
    exact .called (hplan.advanceAlone_ok hround) (ihcall (not_atLimit_of_goesOn? hon))
      ((hplan.goesOn_eq ..).trans hon) (ih hlimit)
  | passed hround _ hon ihcall =>
    exact .passed (hplan.advanceAlone_ok hround) (ihcall hlimit) ((hplan.goesOn_eq ..).trans hon)

theorem Calls.raised (hplan : plan.Raises plan') (h : plan.Calls r args m events answer m')
    (hlimit : ¬ AtLimit answer) : plan'.Calls r args m events answer m' := by
  cases h with
  | refused henter =>
    rcases hplan.enter_eq r args m.active with heq | ⟨e, henter', he⟩
    · exact .refused (heq.trans henter)
    · obtain rfl := Except.error.inj (henter.symm.trans henter')
      exact (hlimit ⟨_, rfl, he⟩).elim
  | ran henter hruns =>
    rcases hplan.enter_eq r args m.active with heq | ⟨e, henter', -⟩
    · exact .ran (heq.trans henter) (hruns.raised hplan hlimit)
    · cases henter.symm.trans henter'

theorem CallsInitialized.raised (hplan : plan.Raises plan')
    (h : plan.CallsInitialized r args m events answer m') (hlimit : ¬ AtLimit answer) :
    plan'.CallsInitialized r args m events answer m' := by
  have hprogram := hplan.program
  cases h with
  | plain hnone hcall => exact .plain (hprogram ▸ hnone) (hcall.raised hplan hlimit)
  | failed hinit hcall =>
    refine .failed (hprogram ▸ hinit) (hcall.raised hplan ?_)
    rintro ⟨e, he, hlimit'⟩
    obtain rfl := Except.error.inj he
    exact hlimit ⟨e, rfl, hlimit'⟩
  | initialized hinit hfirst hcall =>
    refine .initialized (hprogram ▸ hinit) (hfirst.raised hplan ?_) (hcall.raised hplan hlimit)
    rintro ⟨e, he, -⟩
    cases he

end Plan

/-! ## Invocations -/

namespace Emulation

variable {cf : ClassFile} {config config' : Config} {em em' : Emulation} {name descriptor : String}
  {args : Run (List Value)} {cancelled : Bool} {events : List Event} {answer : Except Halt Value}
  {m' : Moment}

/-- An answer of an invocation is a fault whose cause is about the limits. -/
def FailsAtLimit (answer : Except Error Value) : Prop :=
  ∃ cls method pc reason cause, answer = .error (.fault cls method pc reason cause) ∧
    Error.IsLimit cause

/-- The second emulation runs the same class under higher limits. -/
structure Raises (em em' : Emulation) : Prop where
  program : em.program = em'.program
  config : em.config.Raises em'.config
  spent : em.spent = em'.spent
  progress : em.progress = em'.progress

theorem Raises.plan (h : em.Raises em') (cancelled : Bool) :
    (em.plan cancelled).Raises (em'.plan cancelled) :=
  ⟨h.program, h.config, rfl⟩

/-- A class can be loaded under the higher limits, and its static fields have the same first
values. -/
theorem load_raised (hconfig : config.Raises config') (h : load cf config = .ok em) :
    ∃ em', load cf config' = .ok em' ∧ em.Raises em' := by
  obtain ⟨w, w', rfl, hload, hworld⟩ := load_alike (hconfig.setting _ []) h
  obtain rfl := hworld.eq
  exact ⟨_, hload, rfl, hconfig, rfl, rfl⟩

/-- The arguments are prepared in the same way. -/
theorem Raises.prepare_eq (h : em.Raises em') (hargs : Run.Blind true args args) :
    (em.prepare args).1 = (em'.prepare args).1 ∧ em.beginning args = em'.beginning args := by
  have hσ : Setting.Alike true ⟨em.program, em.config, []⟩ ⟨em'.program, em'.config, []⟩ := by
    rw [← h.program]
    exact h.config.setting ..
  obtain ⟨hanswer, hworld⟩ := hargs _ _ em.progress.world em'.progress.world hσ
    (h.progress ▸ .refl true _)
  have hbeginning (em : Emulation) : em.beginning args =
      ⟨[], { em.progress with world := (args ⟨em.program, em.config, []⟩ em.progress.world).2 }⟩ := rfl
  rw [hbeginning, hbeginning, hworld.eq, h.progress]
  exact ⟨hanswer, rfl⟩

/-- An invocation that ends with a failure for the limits is at fault for it. -/
theorem failsAtLimit_of_atLimit (plan : Plan) (p : Progress) (h : AtLimit answer) :
    FailsAtLimit (answer.mapError (plan.fault p)) := by
  obtain ⟨e, rfl, he⟩ := h
  exact ⟨_, _, _, _, e, rfl, he⟩

theorem Invoked.raised (hem : em.Raises em') (hargs : Run.Blind true args args)
    (h : em.Invoked name descriptor args cancelled events answer m') (hlimit : ¬ AtLimit answer) :
    em'.Invoked name descriptor args cancelled events answer m' := by
  obtain ⟨hfresh, r, hr, hstatic, hcalls⟩ := h
  obtain ⟨hanswer, hbeginning⟩ := hem.prepare_eq hargs
  rw [hanswer, hbeginning] at hcalls
  exact ⟨hem.spent ▸ hfresh, r, hem.program ▸ hr, hstatic, hcalls.raised (hem.plan cancelled) hlimit⟩

/-- A class is run under two configurations of which the second has the higher limits.  If
the first run does not fail for its limits, the second has the same answer, or fails with
the same fault, and it has come equally far, with the same instructions in the same frames.
(The arguments are prepared by a computation, which must not look at the limits either.) -/
theorem invoke_raised (hconfig : config.Raises config') (hload : load cf config = .ok em)
    (hargs : Run.Blind true args args)
    (hlimit : ¬ FailsAtLimit (em.invoke name descriptor args cancelled).1) :
    ∃ em', load cf config' = .ok em' ∧
      (em'.invoke name descriptor args cancelled).1 = (em.invoke name descriptor args cancelled).1 ∧
      (em'.invoke name descriptor args cancelled).2.steps =
        (em.invoke name descriptor args cancelled).2.steps ∧
      (em'.invoke name descriptor args cancelled).2.progress =
        (em.invoke name descriptor args cancelled).2.progress ∧
      ∀ events answer m', em.Invoked name descriptor args cancelled events answer m' →
        em'.Invoked name descriptor args cancelled events answer m' := by
  obtain ⟨em', hload', hem⟩ := load_raised hconfig hload
  have hraised {events : List Event} {answer : Except Halt Value} {m' : Moment}
      (hinvoked : em.Invoked name descriptor args cancelled events answer m') :
      em'.Invoked name descriptor args cancelled events answer m' := by
    refine hinvoked.raised hem hargs fun hat => hlimit ?_
    rw [hinvoked.invoke_eq.1]
    exact failsAtLimit_of_atLimit _ _ hat
  have hends : (em'.invoke name descriptor args cancelled).1 =
        (em.invoke name descriptor args cancelled).1 ∧
      (em'.invoke name descriptor args cancelled).2.progress =
        (em.invoke name descriptor args cancelled).2.progress := by
    by_cases hruns : ∃ events answer m', em.Invoked name descriptor args cancelled events answer m'
    · obtain ⟨events, answer, m', hinvoked⟩ := hruns
      obtain ⟨hanswer, hprogress⟩ := hinvoked.invoke_eq
      obtain ⟨hanswer', hprogress'⟩ := (hraised hinvoked).invoke_eq
      have hfault : (em'.plan cancelled).fault m'.progress = (em.plan cancelled).fault m'.progress := by
        unfold Plan.fault
        rw [(hem.plan cancelled).program]
      rw [hanswer, hanswer', hfault, hprogress, hprogress']
      exact ⟨rfl, rfl⟩
    · obtain ⟨hanswer, hprogress, hprogress'⟩ := invoke_refused hem.program hem.spent hruns
      rw [hprogress, hprogress', hem.progress]
      exact ⟨hanswer, rfl⟩
  exact ⟨em', hload', hends.1, congrArg Progress.steps hends.2, hends.2, fun _ _ _ => hraised⟩

theorem not_failsAtLimit_of_failsAt {method : String} {pc : Int} {answer : Except Error Value}
    (h : failsAt method pc answer = true) : ¬ FailsAtLimit answer := by
  rintro ⟨cls, method', pc', reason, cause, rfl, hcause⟩
  cases cause with
  | thrown => exact hcause
  | _ => cases h

/-- The class `dividing` fails with an exception under limits that are just high enough: it
executes seven instructions, and one call is nested.  Higher limits do not change that. -/
theorem invoke_raised_dividing : ∃ em em',
    load dividing { maxSteps := 7, maxDepth := 2 } = .ok em ∧
      load dividing { maxSteps := 1000, maxDepth := 2000 } = .ok em' ∧
      (em'.invoke "f" "()I" (pure []) false).1 = (em.invoke "f" "()I" (pure []) false).1 ∧
      failsAt "g" 1 (em'.invoke "f" "()I" (pure []) false).1 = true := by
  have hload : load dividing { maxSteps := 7, maxDepth := 2 } =
    .ok { dividingRun with config := { maxSteps := 7, maxDepth := 2 } } := by rfl
  have hfails : failsAt "g" 1
      (({ dividingRun with config := { maxSteps := 7, maxDepth := 2 } } : Emulation).invoke "f" "()I"
        (pure []) false).1 = true := by
    decide +kernel
  have hraises := Config.raises_of_positive { maxSteps := 7, maxDepth := 2 } (by decide) (by decide)
    (show (7 : Int) ≤ 1000 by decide) (show (2 : Int) ≤ 2000 by decide)
  obtain ⟨em', hload', hanswer, -⟩ :=
    invoke_raised hraises hload (Run.blind_pure _) (not_failsAtLimit_of_failsAt hfails)
  exact ⟨_, em', hload, hload', hanswer, (congrArg (failsAt "g" 1) hanswer).trans hfails⟩

end Emulation

end Cleartext.Machine
