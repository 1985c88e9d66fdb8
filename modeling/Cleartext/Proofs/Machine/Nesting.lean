import Cleartext.Proofs.Machine.Execution
import Cleartext.Proofs.Machine.Frames

/-!
# Calls within calls

The machine keeps the frames that wait in a list.  Here a run is told call by call: a frame
runs until its method is done; a method that it calls is put on the call stack, runs, and is
taken off again, whatever its end; then the frame goes on or is done as well.

* `Plan.Runs` is this relation, which has no bound.  It records what happens (`Event`):
  every round of the machine, and every call with the moments before and behind it.
* `Runs.execute_eq`: a frame that runs to an end so does in the machine, with the callers
  that wait for it.
* `exists_runs` and `Runs.unique`: every frame runs to an end, and to one only.
-/

namespace Cleartext.Machine

/-- The interpreter between two instructions: the names on the call stack, innermost first,
and how far the run has come. -/
structure Moment where
  active : List String
  progress : Progress

/-- The moment at which a method was put on the call stack. -/
def Moment.entering (m : Moment) (r : Routine) : Moment := { m with active := r.name :: m.active }

/-- The moment at which the innermost method was taken off the call stack. -/
def Moment.leaving (m : Moment) : Moment := { m with active := m.active.tail }

/-- What happens in a run. -/
inductive Event
  /-- The machine looks at a frame. -/
  | round (f : Frame) (m : Moment)
  /-- A method was called, and it is done. -/
  | call (before : Moment) (answer : Except Halt Value) (behind : Moment)

/-- The caller behind a call that returned a value. -/
def Caller.resumed (c : Caller) (v : Value) : Frame :=
  { c.frame with pc := c.next, stack := if c.returns then v :: c.frame.stack else c.frame.stack }

/-- The method of a frame and the place that it has reached. -/
def Frame.place (f : Frame) : String × Int := (f.routine.name, f.pc)

namespace Plan

variable {plan : Plan} {f g callee : Frame} {c : Caller} {callers : List Caller} {m m' m₁ : Moment}
  {p p' : Progress} {s s' : State} {answer : Except Halt Value} {events : List Event}

/-! ## Rounds -/

/-- One round of the machine.  A frame that has not run off its code is charged for an
instruction, and the run ends when the budget is spent. -/
def advance (plan : Plan) (s : State) : Except Ending State :=
  if isOutside s.frame = false ∧ plan.config.stepLimit ≤ s.progress.steps then
    .error (.error (.failure (.stepLimit plan.config.stepLimit)),
      { s.progress with steps := s.progress.steps + 1 }.blaming s.frame)
  else plan.step s

/-- The machine goes on from a state with what is left of the budget. -/
def proceed (plan : Plan) (s : State) : Ending :=
  plan.execute (plan.config.stepLimit - s.progress.steps) s.frame s.callers s.progress

/-- A round of a frame alone. -/
def advanceAlone (plan : Plan) (f : Frame) (p : Progress) : Except Ending State :=
  plan.advance ⟨f, [], p⟩

/-- The frame of a caller that goes on behind a call: with the value of the call, or at a
handler. -/
def goesOn? (plan : Plan) (c : Caller) (answer : Except Halt Value) (w : World) : Option Frame :=
  match answer with
  | .ok v => some (c.resumed v)
  | .error (.thrown id) => c.frame.catching? plan.program id (thrownClass w id)
  | .error _ => none

/-- Where the end of a call leads to: the first caller that goes on, or the end of the run. -/
def deliver (plan : Plan) : List Caller → Ending → Except Ending State
  | [], ending => .error ending
  | c :: rest, (answer, p) =>
    match plan.goesOn? c answer p.world with
    | some f => .ok ⟨f, rest, p⟩
    | none => plan.deliver rest (answer, p)

/-! ## Runs -/

/-- A frame runs from a moment to the end of its method. -/
inductive Runs (plan : Plan) : Frame → Moment → List Event → Except Halt Value → Moment → Prop
  /-- The method returns or fails, or its exception finds no handler. -/
  | done {f : Frame} {m : Moment} {answer : Except Halt Value} {p : Progress} :
      plan.advanceAlone f m.progress = .error (answer, p) →
      Runs plan f m [.round f m] answer { m with progress := p }
  /-- The method goes on with another instruction. -/
  | next {f f' : Frame} {m m' : Moment} {p : Progress} {events : List Event}
      {answer : Except Halt Value} :
      plan.advanceAlone f m.progress = .ok ⟨f', [], p⟩ →
      Runs plan f' { m with progress := p } events answer m' →
      Runs plan f m (.round f m :: events) answer m'
  /-- A method is called, and then the frame goes on. -/
  | called {f callee f' : Frame} {c : Caller} {m m₁ m' : Moment} {p : Progress}
      {within events : List Event} {result answer : Except Halt Value} :
      plan.advanceAlone f m.progress = .ok ⟨callee, [c], p⟩ →
      Runs plan callee ({ m with progress := p }.entering callee.routine) within result m₁ →
      plan.goesOn? c result m₁.progress.world = some f' →
      Runs plan f' m₁.leaving events answer m' →
      Runs plan f m (.round f m :: within ++ .call { m with progress := p } result m₁.leaving :: events)
        answer m'
  /-- A method is called, and the frame is done with it. -/
  | passed {f callee : Frame} {c : Caller} {m m₁ : Moment} {p : Progress} {within : List Event}
      {result : Except Halt Value} :
      plan.advanceAlone f m.progress = .ok ⟨callee, [c], p⟩ →
      Runs plan callee ({ m with progress := p }.entering callee.routine) within result m₁ →
      plan.goesOn? c result m₁.progress.world = none →
      Runs plan f m (.round f m :: within ++ [.call { m with progress := p } result m₁.leaving])
        result m₁.leaving

/-! ## The machine with its callers -/

theorem deliver_thrown (plan : Plan) (callers : List Caller) (id : Nat) (p : Progress) :
    plan.deliver callers (.error (.thrown id), p) =
      match catcher? plan.program id (thrownClass p.world id) callers with
      | some (f, rest) => .ok ⟨f, rest, p⟩
      | none => .error (.error (.thrown id), p) := by
  induction callers with
  | nil => rfl
  | cons c rest ih =>
    unfold deliver catcher? goesOn?
    dsimp only
    cases c.frame.catching? plan.program id (thrownClass p.world id) with
    | some f => rfl
    | none => exact ih

theorem deliver_failure (plan : Plan) (callers : List Caller) (e : Error) (p : Progress) :
    plan.deliver callers (.error (.failure e), p) = .error (.error (.failure e), p) := by
  induction callers with
  | nil => rfl
  | cons c rest ih => exact ih

theorem deliver_collapse (plan : Plan) (callers : List Caller) (lack : Lack) (p : Progress) :
    plan.deliver callers (.error (.collapse lack), p) = .error (.error (.collapse lack), p) := by
  induction callers with
  | nil => rfl
  | cons c rest ih => exact ih

/-- The callers do not matter to an instruction, only to where its end leads to. -/
theorem resume_callers (plan : Plan) (callers : List Caller) (next : Nat)
    (answer : Except Halt Outcome) (f : Frame) (p : Progress) :
    plan.resume callers next answer f p =
      match plan.resume [] next answer f p with
      | .ok s => .ok { s with callers := s.callers ++ callers }
      | .error ending => plan.deliver callers ending := by
  unfold resume
  cases answer with
  | error h =>
    cases h with
    | thrown id =>
      dsimp only
      cases f.catching? plan.program id (thrownClass p.world id) with
      | some f => rfl
      | none =>
        dsimp only [catcher?]
        rw [deliver_thrown]
        show _ = match catcher? plan.program id (thrownClass p.world id) callers with
          | some (f, rest) => _
          | none => _
        cases catcher? plan.program id (thrownClass p.world id) callers <;> rfl
    | failure e => exact (deliver_failure plan callers e _).symm
    | collapse lack => exact (deliver_collapse plan callers lack _).symm
  | ok o =>
    cases o with
    | next pc => rfl
    | finish v => cases callers <;> rfl
    | enter r args returns =>
      dsimp only
      cases plan.enter r args f.active with
      | error e => exact (deliver_failure plan callers _ _).symm
      | ok callee => rfl

theorem step_callers (plan : Plan) (f : Frame) (callers : List Caller) (p : Progress) :
    plan.step ⟨f, callers, p⟩ =
      match plan.step ⟨f, [], p⟩ with
      | .ok s => .ok { s with callers := s.callers ++ callers }
      | .error ending => plan.deliver callers ending := by
  unfold step
  dsimp only
  split
  · exact (deliver_failure plan callers _ _).symm
  · split
    · exact (deliver_failure plan callers _ _).symm
    · cases fetch f with
      | error e => exact (deliver_failure plan callers _ _).symm
      | ok ins => exact resume_callers plan callers ..

theorem advance_callers (plan : Plan) (f : Frame) (callers : List Caller) (p : Progress) :
    plan.advance ⟨f, callers, p⟩ =
      match plan.advanceAlone f p with
      | .ok s => .ok { s with callers := s.callers ++ callers }
      | .error ending => plan.deliver callers ending := by
  unfold advanceAlone advance
  dsimp only
  split
  · exact (deliver_failure plan callers _ _).symm
  · exact step_callers plan f callers p

/-! ## One round of a frame -/

/-- Whether a round executes an instruction: the frame has one, and it is neither over the
budget nor cancelled. -/
def executes (plan : Plan) (f : Frame) (p : Progress) : Bool :=
  !isOutside f && decide (p.steps < plan.config.stepLimit) && !plan.isDue ⟨f, [], p⟩ &&
    (fetch f).toBool

theorem executes_of_fetch {ins : Instruction} (houtside : isOutside f = false)
    (hbudget : ¬ plan.config.stepLimit ≤ p.steps)
    (hdue : (plan.cancelled && (p.steps + 1) % interval = 0) = false) (hfetch : fetch f = .ok ins) :
    plan.executes f p = true := by
  unfold executes isDue
  simp [houtside, Nat.lt_of_not_le hbudget, hdue, hfetch, Except.toBool]

/-- Whether the end of a round is blamed on its frame, and where that is. -/
def blamed? (f : Frame) : Except Halt Value → Option (String × Int)
  | .ok _ | .error (.collapse _) => none
  | .error _ => some f.place

theorem blaming_blame (p : Progress) (f : Frame) :
    (p.blaming f).blame = p.blame.or (some f.place) := by
  unfold Progress.blaming
  cases p.blame <;> rfl

theorem note_steps (plan : Plan) (f : Frame) (ins : Instruction) (p : Progress) :
    (plan.note f ins p).steps = p.steps := by
  unfold note
  split <;> rfl

theorem note_blame (plan : Plan) (f : Frame) (ins : Instruction) (p : Progress) :
    (plan.note f ins p).blame = p.blame := by
  unfold note
  split <;> rfl

/-- A round fails before it comes to an instruction, or it is left to what the instruction
answers. -/
theorem advanceAlone_cases (plan : Plan) (f : Frame) (p : Progress) :
    (plan.executes f p = false ∧ ∃ e p', plan.advanceAlone f p = .error (.error (.failure e), p') ∧
      p.steps ≤ p'.steps ∧ p'.blame = p.blame.or (some f.place) ∧
      (isOutside f = false → plan.config.stepLimit ≤ p.steps →
        e = .stepLimit plan.config.stepLimit)) ∨
    (plan.executes f p = true ∧ ∃ next outcome f' q, plan.advanceAlone f p =
        plan.resume [] next outcome f' q ∧
      f'.Keeps f ∧ q.steps = p.steps + 1 ∧ q.blame = p.blame) := by
  unfold advanceAlone advance
  by_cases hspent : isOutside f = false ∧ plan.config.stepLimit ≤ p.steps
  · rw [if_pos hspent]
    refine .inl ⟨?_, _, _, rfl, Nat.le_succ _, blaming_blame _ f, fun _ _ => rfl⟩
    simp [executes, Nat.not_lt.2 hspent.2]
  · rw [if_neg hspent]
    unfold step
    cases houtside : isOutside f with
    | true =>
      exact .inl ⟨by simp [executes, houtside], _, _, rfl, Nat.le_refl _, blaming_blame _ f, nofun⟩
    | false =>
      have hbudget : p.steps < plan.config.stepLimit := by
        by_contra hle
        exact hspent ⟨houtside, Nat.le_of_not_lt hle⟩
      simp only [Bool.false_eq_true, if_false]
      cases hdue : plan.isDue ⟨f, [], p⟩ with
      | true =>
        unfold isDue at hdue
        rw [if_pos hdue]
        refine .inl ⟨by simp [executes, isDue, hdue], _, _, rfl, Nat.le_succ _, blaming_blame _ f, ?_⟩
        intro _ hlimit
        omega
      | false =>
        have hdue' := hdue
        unfold isDue at hdue'
        rw [if_neg (by simp [hdue'])]
        cases hfetch : fetch f with
        | error e =>
          refine .inl ⟨by simp [executes, hfetch, Except.toBool], _, _, rfl, Nat.le_succ _,
            blaming_blame _ f, ?_⟩
          intro _ hlimit
          omega
        | ok ins =>
          refine .inr ⟨by simp [executes, houtside, hbudget, hdue, hfetch, Except.toBool], ins.next,
            _, _, _, rfl, Step.run_stays ins _ _ _, ?_, ?_⟩
          · exact note_steps ..
          · exact note_blame ..

/-- What a round that leads on has done.  A method that it calls is on the call stack. -/
structure Advances (plan : Plan) (f : Frame) (p : Progress) (s : State) : Prop where
  executes : plan.executes f p = true
  steps : s.progress.steps = p.steps + 1
  blame : s.progress.blame = p.blame
  leads : (s.callers = [] ∧ s.frame.active = f.active) ∨
    ∃ c, s.callers = [c] ∧ c.frame.active = f.active ∧
      s.frame.active = s.frame.routine.name :: f.active ∧
      f.active.length < plan.config.depthLimit

/-- What a round that ends a method has done. -/
structure Ends (plan : Plan) (f : Frame) (p : Progress) (answer : Except Halt Value)
    (p' : Progress) : Prop where
  steps_le : p.steps ≤ p'.steps
  steps : plan.executes f p = true → p'.steps = p.steps + 1
  /-- Only a failure ends a method before it comes to an instruction. -/
  executes : (∀ e, answer ≠ .error (.failure e)) → plan.executes f p = true
  spent : isOutside f = false → plan.config.stepLimit ≤ p.steps →
    answer = .error (.failure (.stepLimit plan.config.stepLimit))
  blame : p'.blame = p.blame.or (blamed? f answer)

theorem lt_stepLimit_of_executes (h : plan.executes f p = true) :
    p.steps < plan.config.stepLimit := by
  unfold executes at h
  simp only [Bool.and_eq_true, decide_eq_true_eq] at h
  exact h.1.1.2

theorem enter_ok {r : Routine} {args : List Value} {names : List String}
    (h : plan.enter r args names = .ok callee) :
    callee.routine = r ∧ callee.active = r.name :: names ∧ names.length < plan.config.depthLimit := by
  unfold enter at h
  split at h
  · cases h
  · rename_i hdepth
    split at h
    · rename_i f henter
      obtain rfl := Except.ok.inj h
      obtain ⟨locals, -, rfl⟩ := Option.map_eq_some_iff.1 henter
      exact ⟨rfl, rfl, Nat.lt_of_not_le hdepth⟩
    · cases h

theorem advanceAlone_ok (h : plan.advanceAlone f p = .ok s) : plan.Advances f p s := by
  rcases plan.advanceAlone_cases f p with
    ⟨-, e, p', hadvance, -⟩ | ⟨hexecutes, next, outcome, f', q, hadvance, hkeeps, hsteps, hblame⟩
  · cases h.symm.trans hadvance
  · rw [hadvance] at h
    unfold resume at h
    split at h
    · cases h
    · cases h
    · split at h
      · rename_i caught hcaught
        obtain rfl := Except.ok.inj h
        obtain ⟨target, -, rfl⟩ := Option.map_eq_some_iff.1 hcaught
        exact ⟨hexecutes, hsteps, hblame, .inl ⟨rfl, hkeeps.active⟩⟩
      · cases h
    · obtain rfl := Except.ok.inj h
      exact ⟨hexecutes, hsteps, hblame, .inl ⟨rfl, hkeeps.active⟩⟩
    · cases h
    · split at h
      · cases h
      · rename_i callee henter
        obtain rfl := Except.ok.inj h
        obtain ⟨rfl, hactive, hdepth⟩ := enter_ok henter
        rw [hkeeps.active] at hactive hdepth
        exact ⟨hexecutes, hsteps, hblame, .inr ⟨_, rfl, hkeeps.active, hactive, hdepth⟩⟩

theorem advanceAlone_error (h : plan.advanceAlone f p = .error (answer, p')) :
    plan.Ends f p answer p' := by
  rcases plan.advanceAlone_cases f p with
    ⟨hexecutes, e, q, hadvance, hsteps, hblame, hspent⟩ |
    ⟨hexecutes, next, outcome, f', q, hadvance, hkeeps, hsteps, hblame⟩
  · obtain ⟨rfl, rfl⟩ := Prod.mk.inj (Except.error.inj (h.symm.trans hadvance))
    refine ⟨hsteps, fun htrue => ?_, fun hnot => absurd rfl (hnot e), fun hin hle => ?_, hblame⟩
    · rw [hexecutes] at htrue
      cases htrue
    · rw [hspent hin hle]
  · -- What is blamed is the frame that the instruction left, which is where it was.
    have hplace : f'.place = f.place := by rw [Frame.place, Frame.place, hkeeps.routine, hkeeps.pc]
    have hlt := lt_stepLimit_of_executes hexecutes
    have hend : p'.steps = q.steps ∧ p'.blame = q.blame.or (blamed? f' answer) := by
      rw [hadvance] at h
      unfold resume at h
      split at h
      · obtain ⟨rfl, rfl⟩ := Prod.mk.inj (Except.error.inj h)
        exact ⟨rfl, (Option.or_none ..).symm⟩
      · obtain ⟨rfl, rfl⟩ := Prod.mk.inj (Except.error.inj h)
        exact ⟨rfl, blaming_blame q f'⟩
      · split at h
        · cases h
        · obtain ⟨rfl, rfl⟩ := Prod.mk.inj (Except.error.inj h)
          exact ⟨rfl, blaming_blame q f'⟩
      · cases h
      · obtain ⟨rfl, rfl⟩ := Prod.mk.inj (Except.error.inj h)
        exact ⟨rfl, (Option.or_none ..).symm⟩
      · split at h
        · obtain ⟨rfl, rfl⟩ := Prod.mk.inj (Except.error.inj h)
          exact ⟨rfl, blaming_blame q f'⟩
        · cases h
    have hsame : blamed? f' answer = blamed? f answer := by
      unfold blamed?
      rw [hplace]
    refine ⟨by omega, fun _ => by omega, fun _ => hexecutes, fun _ hle => by omega, ?_⟩
    rw [hend.2, hblame, hsame]

/-! ## The bounded machine -/

/-- Callers go on from where a call ended, and never from a failure. -/
theorem deliver_ok (h : plan.deliver callers (answer, p) = .ok s) :
    s.progress = p ∧ ∀ e, answer ≠ .error (.failure e) := by
  induction callers with
  | nil => cases h
  | cons c rest ih =>
    rw [deliver] at h
    split at h
    · rename_i g hon
      obtain rfl := Except.ok.inj h
      refine ⟨rfl, ?_⟩
      rintro e rfl
      cases hon
    · exact ih h

theorem advance_steps (h : plan.advance s = .ok s') :
    s'.progress.steps = s.progress.steps + 1 := by
  obtain ⟨f, callers, p⟩ := s
  rw [advance_callers] at h
  split at h
  · rename_i s₁ hround
    obtain rfl := Except.ok.inj h
    exact (advanceAlone_ok hround).steps
  · rename_i ending hround
    obtain ⟨answer, q⟩ := ending
    obtain ⟨rfl, hanswer⟩ := deliver_ok h
    have hends := advanceAlone_error hround
    exact hends.steps (hends.executes hanswer)

/-- The machine with its budget is one round, and the machine with what is left. -/
theorem proceed_eq (plan : Plan) (s : State) : plan.proceed s =
    match plan.advance s with
    | .ok s => plan.proceed s
    | .error ending => ending := by
  unfold proceed
  by_cases hbudget : s.progress.steps < plan.config.stepLimit
  · obtain ⟨budget, hbudget'⟩ : ∃ budget, plan.config.stepLimit - s.progress.steps = budget + 1 :=
      ⟨plan.config.stepLimit - s.progress.steps - 1, by omega⟩
    have hadvance : plan.advance s = plan.step s := by
      unfold advance
      rw [if_neg (by omega)]
    rw [hbudget', execute_succ, hadvance]
    cases hstep : plan.step s with
    | error ending => rfl
    | ok s' =>
      have hsteps := advance_steps (hadvance.trans hstep)
      dsimp only
      rw [show plan.config.stepLimit - s'.progress.steps = budget by omega]
  · have hzero : plan.config.stepLimit - s.progress.steps = 0 := by omega
    rw [hzero, execute]
    unfold advance step
    cases houtside : isOutside s.frame with
    | true => simp
    | false => simp [Nat.le_of_not_lt hbudget]

/-- A frame that runs to an end does so in the machine, and its callers go on from there. -/
theorem Runs.proceed_eq (h : plan.Runs f m events answer m') (callers : List Caller) :
    plan.proceed ⟨f, callers, m.progress⟩ =
      match plan.deliver callers (answer, m'.progress) with
      | .ok s => plan.proceed s
      | .error ending => ending := by
  induction h generalizing callers with
  | done hround => rw [Plan.proceed_eq, advance_callers, hround]
  | next hround _ ih =>
    rw [Plan.proceed_eq, advance_callers, hround]
    exact ih callers
  | called hround _ hon _ ihcall ih =>
    rw [Plan.proceed_eq, advance_callers, hround]
    refine (ihcall (_ :: callers)).trans ?_
    rw [deliver, hon]
    exact ih callers
  | passed hround _ hon ihcall =>
    rw [Plan.proceed_eq, advance_callers, hround]
    refine (ihcall (_ :: callers)).trans ?_
    rw [deliver, hon]
    rfl

/-! ## Every run -/

theorem Runs.steps_le (h : plan.Runs f m events answer m') : m.progress.steps ≤ m'.progress.steps := by
  induction h with
  | done hround => exact (advanceAlone_error hround).steps_le
  | next hround _ ih =>
    have := (advanceAlone_ok hround).steps
    dsimp only at this ih
    omega
  | called hround _ _ _ ihcall ih =>
    have := (advanceAlone_ok hround).steps
    dsimp only [Moment.entering, Moment.leaving] at this ihcall ih
    omega
  | passed hround _ _ ihcall =>
    have := (advanceAlone_ok hround).steps
    dsimp only [Moment.entering, Moment.leaving] at this ihcall ⊢
    omega

/-- Every frame runs to an end: a round that leads on is charged, and the budget is spent
some time. -/
theorem exists_runs (plan : Plan) (f : Frame) (m : Moment) :
    ∃ events answer m', plan.Runs f m events answer m' := by
  induction hn : plan.config.stepLimit - m.progress.steps using Nat.strongRecOn generalizing f m with
  | ind n ih =>
    cases hround : plan.advanceAlone f m.progress with
    | error ending => exact ⟨_, _, _, .done hround⟩
    | ok s =>
      obtain ⟨f', callers, p⟩ := s
      obtain ⟨hexecutes, hsteps, -, hleads⟩ := advanceAlone_ok hround
      have hlt := lt_stepLimit_of_executes hexecutes
      dsimp only at hsteps hleads
      rcases hleads with ⟨rfl, -⟩ | ⟨c, rfl, -⟩
      · obtain ⟨events, answer, m', hruns⟩ := ih _ (by dsimp only; omega) f' { m with progress := p } rfl
        exact ⟨_, _, _, .next hround hruns⟩
      · obtain ⟨within, result, m₁, hcall⟩ := ih _ (by dsimp only [Moment.entering]; omega) f'
          ({ m with progress := p }.entering f'.routine) rfl
        have hle := hcall.steps_le
        dsimp only [Moment.entering] at hle
        cases hon : plan.goesOn? c result m₁.progress.world with
        | none => exact ⟨_, _, _, .passed hround hcall hon⟩
        | some g =>
          obtain ⟨events, answer, m', hruns⟩ := ih _ (by dsimp only [Moment.leaving]; omega) g
            m₁.leaving rfl
          exact ⟨_, _, _, .called hround hcall hon hruns⟩

/-- A frame runs to one end only. -/
theorem Runs.unique {events' : List Event} {answer' : Except Halt Value} {m'' : Moment}
    (h : plan.Runs f m events answer m') (h' : plan.Runs f m events' answer' m'') :
    events = events' ∧ answer = answer' ∧ m' = m'' := by
  induction h generalizing events' answer' m'' with
  | done hround =>
    cases h' with
    | done hround' =>
      obtain ⟨rfl, rfl⟩ := Prod.mk.inj (Except.error.inj (hround.symm.trans hround'))
      exact ⟨rfl, rfl, rfl⟩
    | next hround' | called hround' | passed hround' => cases hround.symm.trans hround'
  | next hround _ ih =>
    cases h' with
    | done hround' => cases hround.symm.trans hround'
    | next hround' hruns' =>
      cases hround.symm.trans hround'
      obtain ⟨rfl, rfl, rfl⟩ := ih hruns'
      exact ⟨rfl, rfl, rfl⟩
    | called hround' | passed hround' => cases hround.symm.trans hround'
  | called hround _ hon _ ihcall ih =>
    cases h' with
    | done hround' => cases hround.symm.trans hround'
    | next hround' => cases hround.symm.trans hround'
    | called hround' hcall' hon' hruns' =>
      cases hround.symm.trans hround'
      obtain ⟨rfl, rfl, rfl⟩ := ihcall hcall'
      cases hon.symm.trans hon'
      obtain ⟨rfl, rfl, rfl⟩ := ih hruns'
      exact ⟨rfl, rfl, rfl⟩
    | passed hround' hcall' hon' =>
      cases hround.symm.trans hround'
      obtain ⟨rfl, rfl, rfl⟩ := ihcall hcall'
      cases hon.symm.trans hon'
  | passed hround _ hon ihcall =>
    cases h' with
    | done hround' => cases hround.symm.trans hround'
    | next hround' => cases hround.symm.trans hround'
    | called hround' hcall' hon' hruns' =>
      cases hround.symm.trans hround'
      obtain ⟨rfl, rfl, rfl⟩ := ihcall hcall'
      cases hon.symm.trans hon'
    | passed hround' hcall' hon' =>
      cases hround.symm.trans hround'
      obtain ⟨rfl, rfl, rfl⟩ := ihcall hcall'
      exact ⟨rfl, rfl, rfl⟩

end Plan

end Cleartext.Machine
