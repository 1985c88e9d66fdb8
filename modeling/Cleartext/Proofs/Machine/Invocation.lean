import Cleartext.Proofs.Machine.Nesting

/-!
# Invocations

An invocation runs the class initializer, if there is one, and then a method, each of them
on an empty call stack and with one budget.  `Emulation.Invoked` tells it call by call, and
`Invoked.invoke_eq` says that `Emulation.invoke` comes to the same; one that is refused runs
nothing (`Emulation.invoked_or_refused`).
-/

namespace Cleartext.Machine

namespace Plan

variable {plan : Plan} {r init : Routine} {args : List Value} {m m' m₁ : Moment}
  {events : List Event} {answer : Except Halt Value}

/-- A method is called at a moment, and is done. -/
inductive Calls (plan : Plan) (r : Routine) (args : List Value) (m : Moment) :
    List Event → Except Halt Value → Moment → Prop
  /-- There is no frame for it. -/
  | refused {e : Error} : plan.enter r args m.active = .error e →
      Calls plan r args m [] (.error (.failure e)) m
  | ran {f : Frame} {events : List Event} {answer : Except Halt Value} {m' : Moment} :
      plan.enter r args m.active = .ok f → plan.Runs f (m.entering r) events answer m' →
      Calls plan r args m (events ++ [.call m answer m'.leaving]) answer m'.leaving

/-- The class initializer is called, and then a method. -/
inductive CallsInitialized (plan : Plan) (r : Routine) (args : List Value) (m : Moment) :
    List Event → Except Halt Value → Moment → Prop
  | plain {events : List Event} {answer : Except Halt Value} {m' : Moment} :
      plan.program.routine? "<clinit>" "()V" = none → plan.Calls r args m events answer m' →
      CallsInitialized plan r args m events answer m'
  | failed {init : Routine} {events : List Event} {h : Halt} {m' : Moment} :
      plan.program.routine? "<clinit>" "()V" = some init →
      plan.Calls init [] m events (.error h) m' →
      CallsInitialized plan r args m events (.error h) m'
  | initialized {init : Routine} {first events : List Event} {v : Value}
      {answer : Except Halt Value} {m₁ m' : Moment} :
      plan.program.routine? "<clinit>" "()V" = some init →
      plan.Calls init [] m first (.ok v) m₁ → plan.Calls r args m₁ events answer m' →
      CallsInitialized plan r args m (first ++ events) answer m'

/-- A frame keeps the call stack: a method that was called is off it again when it is done. -/
theorem Runs.active_eq {f : Frame} (h : plan.Runs f m events answer m') : m'.active = m.active := by
  induction h with
  | done => rfl
  | next _ _ ih => exact ih
  | called _ _ _ _ ihcall ih =>
    refine ih.trans ?_
    rw [Moment.leaving, ihcall]
    rfl
  | passed _ _ _ ihcall =>
    rw [Moment.leaving, ihcall]
    rfl

theorem Calls.active_eq (h : plan.Calls r args m events answer m') : m'.active = m.active := by
  cases h with
  | refused => rfl
  | ran _ hruns =>
    rw [Moment.leaving, hruns.active_eq]
    rfl

theorem CallsInitialized.active_eq (h : plan.CallsInitialized r args m events answer m') :
    m'.active = m.active := by
  cases h with
  | plain _ hcall => exact hcall.active_eq
  | failed _ hcall => exact hcall.active_eq
  | initialized _ hfirst hcall => exact hcall.active_eq.trans hfirst.active_eq

/-- Calling a method on an empty call stack is what the machine does. -/
theorem Calls.call_eq (h : plan.Calls r args m events answer m') (hm : m.active = []) :
    plan.call r args m.progress = (answer, m'.progress) := by
  unfold call
  cases h with
  | refused henter =>
    rw [hm] at henter
    rw [henter]
  | ran henter hruns =>
    rw [hm] at henter
    rw [henter]
    exact hruns.proceed_eq []

theorem CallsInitialized.callInitialized_eq (h : plan.CallsInitialized r args m events answer m')
    (hm : m.active = []) : plan.callInitialized r args m.progress = (answer, m'.progress) := by
  unfold callInitialized
  cases h with
  | plain hnone hcall =>
    rw [hnone]
    exact hcall.call_eq hm
  | failed hinit hcall =>
    rw [hinit]
    dsimp only
    rw [hcall.call_eq hm]
  | initialized hinit hfirst hcall =>
    rw [hinit]
    dsimp only
    rw [hfirst.call_eq hm]
    exact hcall.call_eq (hfirst.active_eq.trans hm)

theorem exists_calls (plan : Plan) (r : Routine) (args : List Value) (m : Moment) :
    ∃ events answer m', plan.Calls r args m events answer m' := by
  cases henter : plan.enter r args m.active with
  | error e => exact ⟨_, _, _, .refused henter⟩
  | ok f =>
    obtain ⟨events, answer, m', hruns⟩ := plan.exists_runs f (m.entering r)
    exact ⟨_, _, _, .ran henter hruns⟩

theorem exists_callsInitialized (plan : Plan) (r : Routine) (args : List Value) (m : Moment) :
    ∃ events answer m', plan.CallsInitialized r args m events answer m' := by
  cases hinit : plan.program.routine? "<clinit>" "()V" with
  | none =>
    obtain ⟨events, answer, m', hcall⟩ := plan.exists_calls r args m
    exact ⟨_, _, _, .plain hinit hcall⟩
  | some init =>
    obtain ⟨first, answer, m₁, hfirst⟩ := plan.exists_calls init [] m
    cases answer with
    | error h => exact ⟨_, _, _, .failed hinit hfirst⟩
    | ok v =>
      obtain ⟨events, answer, m', hcall⟩ := plan.exists_calls r args m₁
      exact ⟨_, _, _, .initialized hinit hfirst hcall⟩

section

variable {events' : List Event} {answer' : Except Halt Value} {m'' : Moment}

theorem Calls.unique (h : plan.Calls r args m events answer m')
    (h' : plan.Calls r args m events' answer' m'') :
    events = events' ∧ answer = answer' ∧ m' = m'' := by
  cases h with
  | refused henter =>
    cases h' with
    | refused henter' =>
      obtain rfl := Except.error.inj (henter.symm.trans henter')
      exact ⟨rfl, rfl, rfl⟩
    | ran henter' => cases henter.symm.trans henter'
  | ran henter hruns =>
    cases h' with
    | refused henter' => cases henter.symm.trans henter'
    | ran henter' hruns' =>
      obtain rfl := Except.ok.inj (henter.symm.trans henter')
      obtain ⟨rfl, rfl, rfl⟩ := hruns.unique hruns'
      exact ⟨rfl, rfl, rfl⟩

theorem CallsInitialized.unique (h : plan.CallsInitialized r args m events answer m')
    (h' : plan.CallsInitialized r args m events' answer' m'') :
    events = events' ∧ answer = answer' ∧ m' = m'' := by
  cases h with
  | plain hnone hcall =>
    cases h' with
    | plain _ hcall' => exact hcall.unique hcall'
    | failed hinit' | initialized hinit' => cases hnone.symm.trans hinit'
  | failed hinit hcall =>
    cases h' with
    | plain hnone' => cases hinit.symm.trans hnone'
    | failed hinit' hcall' =>
      obtain rfl := Option.some.inj (hinit.symm.trans hinit')
      exact hcall.unique hcall'
    | initialized hinit' hfirst' =>
      obtain rfl := Option.some.inj (hinit.symm.trans hinit')
      cases (hcall.unique hfirst').2.1
  | initialized hinit hfirst hcall =>
    cases h' with
    | plain hnone' => cases hinit.symm.trans hnone'
    | failed hinit' hcall' =>
      obtain rfl := Option.some.inj (hinit.symm.trans hinit')
      cases (hfirst.unique hcall').2.1
    | initialized hinit' hfirst' hcall' =>
      obtain rfl := Option.some.inj (hinit.symm.trans hinit')
      obtain ⟨rfl, -, rfl⟩ := hfirst.unique hfirst'
      obtain ⟨rfl, rfl, rfl⟩ := hcall.unique hcall'
      exact ⟨rfl, rfl, rfl⟩

end

end Plan

namespace Emulation

variable {em : Emulation} {name descriptor : String} {args : Run (List Value)} {cancelled : Bool}
  {events : List Event} {answer : Except Halt Value} {m' : Moment}

/-- The plan of an invocation. -/
def plan (em : Emulation) (cancelled : Bool) : Plan :=
  { program := em.program, config := em.config, cancelled }

/-- The moment at which an invocation begins, with its arguments at hand. -/
def beginning (em : Emulation) (args : Run (List Value)) : Moment :=
  ⟨[], (em.prepare args).2.progress⟩

/-- An invocation that runs a method, and what happens in it. -/
structure Invoked (em : Emulation) (name descriptor : String) (args : Run (List Value))
    (cancelled : Bool) (events : List Event) (answer : Except Halt Value) (m' : Moment) : Prop where
  fresh : em.spent = false
  run : ∃ r, em.program.routine? name descriptor = some r ∧ r.isStatic = true ∧
    (em.plan cancelled).CallsInitialized r ((em.prepare args).1.toOption.getD []) (em.beginning args)
      events answer m'

/-- An invocation that is told call by call has the answer that the machine gives. -/
theorem Invoked.invoke_eq (h : em.Invoked name descriptor args cancelled events answer m') :
    (em.invoke name descriptor args cancelled).1 =
        answer.mapError ((em.plan cancelled).fault m'.progress) ∧
      (em.invoke name descriptor args cancelled).2.progress = m'.progress := by
  obtain ⟨hfresh, r, hr, hstatic, hcalls⟩ := h
  have hrun := hcalls.callInitialized_eq rfl
  unfold invoke
  simp only [hfresh, Bool.false_eq_true, if_false]
  rw [show em.close.program.routine? name descriptor = some r from hr]
  simp only [hstatic, Bool.not_true, Bool.false_eq_true, if_false]
  dsimp only [prepare, close, plan, beginning] at hrun ⊢
  generalize args ⟨em.program, em.config, []⟩ em.progress.world = prepared at hrun ⊢
  obtain ⟨values, world⟩ := prepared
  dsimp only at hrun ⊢
  rw [hrun]
  cases answer <;> exact ⟨rfl, rfl⟩

theorem Invoked.unique {events' : List Event} {answer' : Except Halt Value} {m'' : Moment}
    (h : em.Invoked name descriptor args cancelled events answer m')
    (h' : em.Invoked name descriptor args cancelled events' answer' m'') :
    events = events' ∧ answer = answer' ∧ m' = m'' := by
  obtain ⟨-, r, hr, -, hcalls⟩ := h
  obtain ⟨-, r', hr', -, hcalls'⟩ := h'
  obtain rfl := Option.some.inj (hr.symm.trans hr')
  exact hcalls.unique hcalls'

/-- An invocation runs a method, or it is refused and nothing is run. -/
theorem invoked_or_refused (em : Emulation) (name descriptor : String) (args : Run (List Value))
    (cancelled : Bool) :
    (∃ events answer m', em.Invoked name descriptor args cancelled events answer m') ∨
      (em.invoke name descriptor args cancelled).2.progress = em.progress ∧
        ∃ e, (em.invoke name descriptor args cancelled).1 = .error e ∧
          ∀ cls method pc reason cause, e ≠ .fault cls method pc reason cause := by
  cases hfresh : em.spent with
  | true =>
    right
    unfold invoke
    rw [hfresh]
    exact ⟨rfl, _, rfl, nofun⟩
  | false =>
    cases hr : em.program.routine? name descriptor with
    | none =>
      right
      unfold invoke
      simp only [hfresh, Bool.false_eq_true, if_false]
      rw [show em.close.program.routine? name descriptor = none from hr]
      exact ⟨rfl, _, rfl, nofun⟩
    | some r =>
      cases hstatic : r.isStatic with
      | false =>
        right
        unfold invoke
        simp only [hfresh, Bool.false_eq_true, if_false]
        rw [show em.close.program.routine? name descriptor = some r from hr]
        simp only [hstatic, Bool.not_false, if_true]
        exact ⟨rfl, _, rfl, nofun⟩
      | true =>
        obtain ⟨events, answer, m', hcalls⟩ := (em.plan cancelled).exists_callsInitialized r
          ((em.prepare args).1.toOption.getD []) (em.beginning args)
        exact .inl ⟨events, answer, m', hfresh, r, hr, hstatic, hcalls⟩

end Emulation

end Cleartext.Machine
