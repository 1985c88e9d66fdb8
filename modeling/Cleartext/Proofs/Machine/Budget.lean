import Cleartext.Proofs.Machine.Invocation

/-!
# Budget and call stack

Every round of a run is charged for an instruction, so a run comes to an end, and what it
executes is bounded by what was left when it began.  Three facts are carried through a run,
call by call:

* `Runs.charges`: the instructions that are executed are within the budget.
* `Runs.depth`: the call stack is what every frame takes it for, and it is never deeper than
  the limit.
* `Runs.restored`: behind a call the call stack is what it was before.

`Runs.exhausted` says that a frame over the budget ends the run: the failure passes through
every caller, since only an exception finds a handler.  `Emulation.invoke_bounded` puts this
together for the class initializer and the method.
-/

namespace Cleartext.Machine

/-- Behind a call the call stack is what it was before. -/
def Event.Restores : Event → Prop
  | .round .. => True
  | .call before _ behind => behind.active = before.active

namespace Plan

variable {plan : Plan} {f g : Frame} {c : Caller} {r : Routine} {args : List Value}
  {m m' : Moment} {events : List Event} {answer : Except Halt Value}

/-- Whether an event is the execution of an instruction. -/
def isExecution (plan : Plan) : Event → Bool
  | .round f m => plan.executes f m.progress
  | .call .. => false

/-- The instructions that were executed. -/
def executions (plan : Plan) (events : List Event) : Nat := events.countP plan.isExecution

theorem executions_round (f : Frame) (m : Moment) (events : List Event) :
    plan.executions (.round f m :: events) =
      plan.executions events + if plan.executes f m.progress then 1 else 0 :=
  List.countP_cons

theorem executions_call (before behind : Moment) (answer : Except Halt Value) (events : List Event) :
    plan.executions (.call before answer behind :: events) = plan.executions events :=
  List.countP_cons_of_neg (by simp [isExecution])

theorem executions_append (events events' : List Event) :
    plan.executions (events ++ events') = plan.executions events + plan.executions events' :=
  List.countP_append

/-- A caller goes on behind a value or an exception, and it is the same method. -/
theorem goesOn?_some {w : World} (h : plan.goesOn? c answer w = some g) :
    (∀ e, answer ≠ .error (.failure e)) ∧ g.active = c.frame.active := by
  unfold goesOn? at h
  split at h
  · obtain rfl := Option.some.inj h
    exact ⟨nofun, rfl⟩
  · obtain ⟨target, -, rfl⟩ := Option.map_eq_some_iff.1 h
    exact ⟨nofun, rfl⟩
  · cases h

/-- What a run that began with some charges charged for. -/
structure Charges (plan : Plan) (start : Nat) (events : List Event) (answer : Except Halt Value)
    (stop : Nat) : Prop where
  charged : start + plan.executions events ≤ stop
  bounded : plan.executions events ≤ plan.config.stepLimit - start
  /-- Only a failure goes over the budget. -/
  within : (∀ e, answer ≠ .error (.failure e)) → stop ≤ plan.config.stepLimit

theorem Runs.charges (h : plan.Runs f m events answer m') :
    plan.Charges m.progress.steps events answer m'.progress.steps := by
  induction h with
  | @done f m answer p hround =>
    have hends := advanceAlone_error hround
    rcases Bool.eq_false_or_eq_true (plan.executes f m.progress) with hexecutes | hexecutes
    · have hsteps := hends.steps hexecutes
      have hlt := lt_stepLimit_of_executes hexecutes
      refine ⟨?_, ?_, fun _ => by dsimp only; omega⟩
      · rw [executions_round, if_pos hexecutes]
        dsimp only [executions, List.countP_nil]
        omega
      · rw [executions_round, if_pos hexecutes]
        dsimp only [executions, List.countP_nil]
        omega
    · have hsteps := hends.steps_le
      refine ⟨?_, ?_, fun hnot => ?_⟩
      · rw [executions_round, hexecutes]
        exact hsteps
      · rw [executions_round, hexecutes]
        exact Nat.zero_le _
      · rw [hends.executes hnot] at hexecutes
        cases hexecutes
  | next hround _ ih =>
    obtain ⟨hexecutes, hsteps, -⟩ := advanceAlone_ok hround
    have hlt := lt_stepLimit_of_executes hexecutes
    obtain ⟨hcharged, hbounded, hwithin⟩ := ih
    dsimp only at hsteps hcharged hbounded
    refine ⟨?_, ?_, hwithin⟩
    · rw [executions_round, if_pos hexecutes]
      omega
    · rw [executions_round, if_pos hexecutes]
      omega
  | called hround _ hon _ ihcall ih =>
    obtain ⟨hexecutes, hsteps, -⟩ := advanceAlone_ok hround
    obtain ⟨hcharged₁, -, hwithin₁⟩ := ihcall
    obtain ⟨hcharged, hbounded, hwithin⟩ := ih
    have hlimit := hwithin₁ (goesOn?_some hon).1
    dsimp only [Moment.entering, Moment.leaving] at hsteps hcharged₁ hcharged hbounded hlimit
    refine ⟨?_, ?_, hwithin⟩
    · rw [List.cons_append, executions_round, if_pos hexecutes, executions_append, executions_call]
      omega
    · rw [List.cons_append, executions_round, if_pos hexecutes, executions_append, executions_call]
      omega
  | passed hround _ _ ihcall =>
    obtain ⟨hexecutes, hsteps, -⟩ := advanceAlone_ok hround
    have hlt := lt_stepLimit_of_executes hexecutes
    obtain ⟨hcharged, hbounded, hwithin⟩ := ihcall
    dsimp only [Moment.entering] at hsteps hcharged hbounded
    refine ⟨?_, ?_, hwithin⟩
    · rw [List.cons_append, executions_round, if_pos hexecutes, executions_append, executions_call]
      dsimp only [executions, List.countP_nil, Moment.leaving] at hcharged ⊢
      omega
    · rw [List.cons_append, executions_round, if_pos hexecutes, executions_append, executions_call]
      dsimp only [executions, List.countP_nil] at hbounded ⊢
      omega

/-- At a round the call stack is what the frame takes it for, and it is not too deep. -/
def IsShallow (plan : Plan) : Event → Prop
  | .round f m => f.active = m.active ∧ m.active.length ≤ plan.config.depthLimit
  | .call .. => True

theorem Runs.shallow (h : plan.Runs f m events answer m') (hf : f.active = m.active)
    (hm : m.active.length ≤ plan.config.depthLimit) : ∀ event ∈ events, plan.IsShallow event := by
  induction h with
  | done => exact List.forall_mem_singleton.2 ⟨hf, hm⟩
  | next hround _ ih =>
    obtain ⟨-, -, -, ⟨-, hactive⟩ | ⟨c, hc, -⟩⟩ := advanceAlone_ok hround
    · exact List.forall_mem_cons.2 ⟨⟨hf, hm⟩, ih (hactive.trans hf) hm⟩
    · cases hc
  | called hround hcall hon _ ihcall ih =>
    obtain ⟨-, -, -, ⟨hc, -⟩ | ⟨c, hc, hcaller, hcallee, hdepth⟩⟩ := advanceAlone_ok hround
    · cases hc
    · obtain rfl := List.singleton_inj.1 hc
      rw [hf] at hcallee hdepth
      have hleaving := congrArg List.tail hcall.active_eq
      have hwithin := ihcall hcallee hdepth
      have hrest := ih ((goesOn?_some hon).2.trans (hcaller.trans (hf.trans hleaving.symm)))
        (by rw [Moment.leaving, hleaving]; exact hm)
      exact List.forall_mem_append.2 ⟨List.forall_mem_cons.2 ⟨⟨hf, hm⟩, hwithin⟩,
        List.forall_mem_cons.2 ⟨trivial, hrest⟩⟩
  | passed hround _ _ ihcall =>
    obtain ⟨-, -, -, ⟨hc, -⟩ | ⟨c, hc, hcaller, hcallee, hdepth⟩⟩ := advanceAlone_ok hround
    · cases hc
    · rw [hf] at hcallee hdepth
      exact List.forall_mem_append.2 ⟨List.forall_mem_cons.2 ⟨⟨hf, hm⟩, ihcall hcallee hdepth⟩,
        List.forall_mem_singleton.2 trivial⟩

theorem Runs.restored (h : plan.Runs f m events answer m') : ∀ event ∈ events, event.Restores := by
  induction h with
  | done => exact List.forall_mem_singleton.2 trivial
  | next _ _ ih => exact List.forall_mem_cons.2 ⟨trivial, ih⟩
  | called _ hcall _ _ ihcall ih =>
    exact List.forall_mem_append.2 ⟨List.forall_mem_cons.2 ⟨trivial, ihcall⟩,
      List.forall_mem_cons.2 ⟨congrArg List.tail hcall.active_eq, ih⟩⟩
  | passed _ hcall _ ihcall =>
    exact List.forall_mem_append.2 ⟨List.forall_mem_cons.2 ⟨trivial, ihcall⟩,
      List.forall_mem_singleton.2 (congrArg List.tail hcall.active_eq)⟩

/-- A frame over the budget that has not run off its code leaves no other answer than that the
budget is spent. -/
def Exhausts (plan : Plan) (answer : Except Halt Value) : Event → Prop
  | .round f m => isOutside f = false → plan.config.stepLimit ≤ m.progress.steps →
    answer = .error (.failure (.stepLimit plan.config.stepLimit))
  | .call .. => True

/-- A round that leads on is within the budget. -/
theorem exhausts_of_ok {p : Progress} {s : State} (h : plan.advanceAlone f p = .ok s)
    (hm : m.progress = p) : plan.Exhausts answer (.round f m) := by
  intro _ hlimit
  have hlt := lt_stepLimit_of_executes (advanceAlone_ok h).executes
  rw [hm] at hlimit
  omega

theorem Runs.exhausted (h : plan.Runs f m events answer m') :
    ∀ event ∈ events, plan.Exhausts answer event := by
  induction h with
  | done hround => exact List.forall_mem_singleton.2 (advanceAlone_error hround).spent
  | next hround _ ih => exact List.forall_mem_cons.2 ⟨exhausts_of_ok hround rfl, ih⟩
  | called hround _ hon _ ihcall ih =>
    -- The caller went on, so the call within was not over the budget.
    have hnot := (goesOn?_some hon).1
    refine List.forall_mem_append.2 ⟨List.forall_mem_cons.2 ⟨exhausts_of_ok hround rfl, ?_⟩,
      List.forall_mem_cons.2 ⟨trivial, ih⟩⟩
    intro event hevent
    have hexhausts := ihcall event hevent
    cases event with
    | round g n => exact fun hin hlimit => absurd (hexhausts hin hlimit) (hnot _)
    | call => trivial
  | passed hround _ _ ihcall =>
    exact List.forall_mem_append.2 ⟨List.forall_mem_cons.2 ⟨exhausts_of_ok hround rfl, ihcall⟩,
      List.forall_mem_singleton.2 trivial⟩

/-! ## Calls -/

/-- What holds of calls that began with some charges: they are within the budget and within
the depth, the call stack is restored, and what is over the budget ends them. -/
structure Bounded (plan : Plan) (start : Nat) (events : List Event) (answer : Except Halt Value) :
    Prop where
  executions : plan.executions events ≤ plan.config.stepLimit - start
  shallow : ∀ event ∈ events, plan.IsShallow event
  restored : ∀ event ∈ events, event.Restores
  exhausted : ∀ event ∈ events, plan.Exhausts answer event

theorem Calls.charges (h : plan.Calls r args m events answer m') :
    plan.Charges m.progress.steps events answer m'.progress.steps := by
  cases h with
  | refused => exact ⟨Nat.le_refl _, Nat.zero_le _, fun hnot => absurd rfl (hnot _)⟩
  | ran _ hruns =>
    obtain ⟨hcharged, hbounded, hwithin⟩ := hruns.charges
    dsimp only [Moment.entering] at hcharged hbounded
    refine ⟨?_, ?_, hwithin⟩
    · rw [executions_append, executions_call]
      exact hcharged
    · rw [executions_append, executions_call]
      exact hbounded

theorem Calls.bounded (h : plan.Calls r args m events answer m') :
    plan.Bounded m.progress.steps events answer := by
  refine ⟨h.charges.bounded, ?_, ?_, ?_⟩
  · cases h with
    | refused => simp
    | ran henter hruns =>
      obtain ⟨-, hactive, hdepth⟩ := enter_ok henter
      exact List.forall_mem_append.2 ⟨hruns.shallow hactive hdepth, List.forall_mem_singleton.2 trivial⟩
  · cases h with
    | refused => simp
    | ran _ hruns =>
      exact List.forall_mem_append.2 ⟨hruns.restored,
        List.forall_mem_singleton.2 (congrArg List.tail hruns.active_eq)⟩
  · cases h with
    | refused => simp
    | ran _ hruns =>
      exact List.forall_mem_append.2 ⟨hruns.exhausted, List.forall_mem_singleton.2 trivial⟩

theorem CallsInitialized.bounded (h : plan.CallsInitialized r args m events answer m') :
    plan.Bounded m.progress.steps events answer := by
  cases h with
  | plain _ hcall => exact hcall.bounded
  | failed _ hcall => exact hcall.bounded
  | initialized _ hfirst hcall =>
    -- The second call has what the first one left of the budget.
    obtain ⟨hcharged, -, hwithin⟩ := hfirst.charges
    have hlimit := hwithin nofun
    obtain ⟨-, hshallow₁, hrestored₁, hexhausted₁⟩ := hfirst.bounded
    obtain ⟨hexecutions, hshallow, hrestored, hexhausted⟩ := hcall.bounded
    refine ⟨?_, List.forall_mem_append.2 ⟨hshallow₁, hshallow⟩,
      List.forall_mem_append.2 ⟨hrestored₁, hrestored⟩,
      List.forall_mem_append.2 ⟨fun event hevent => ?_, hexhausted⟩⟩
    · rw [executions_append]
      omega
    · have hexhausts := hexhausted₁ event hevent
      cases event with
      | round g n => exact fun hin hlimit => nomatch hexhausts hin hlimit
      | call => trivial

end Plan

namespace Emulation

variable {em : Emulation} {name descriptor : String} {args : Run (List Value)} {cancelled : Bool}

/-- Every invocation comes to an end.  It is refused and nothing is run, or the class
initializer and the method run to an end that is told call by call, and there is one such
end: together they execute no more instructions than the budget has, the call stack is never
too deep and is restored behind every call, and a budget that is spent ends the run whatever
the handlers. -/
theorem invoke_bounded (em : Emulation) (name descriptor : String) (args : Run (List Value))
    (cancelled : Bool) :
    ((em.invoke name descriptor args cancelled).2.progress = em.progress ∧
      ∃ e, (em.invoke name descriptor args cancelled).1 = .error e ∧
        ∀ cls method pc reason cause, e ≠ .fault cls method pc reason cause) ∨
    ∃ events answer m', em.Invoked name descriptor args cancelled events answer m' ∧
      (∀ events' answer' m'', em.Invoked name descriptor args cancelled events' answer' m'' →
        events' = events ∧ answer' = answer ∧ m'' = m') ∧
      (em.invoke name descriptor args cancelled).1 =
        answer.mapError ((em.plan cancelled).fault m'.progress) ∧
      (em.invoke name descriptor args cancelled).2.progress = m'.progress ∧
      m'.active = [] ∧ (em.plan cancelled).Bounded em.progress.steps events answer := by
  rcases em.invoked_or_refused name descriptor args cancelled with
    ⟨events, answer, m', hinvoked⟩ | hrefused
  · obtain ⟨hanswer, hprogress⟩ := hinvoked.invoke_eq
    obtain ⟨r, -, -, hcalls⟩ := hinvoked.run
    exact .inr ⟨events, answer, m', hinvoked, fun _ _ _ h => h.unique hinvoked, hanswer, hprogress, hcalls.active_eq, hcalls.bounded⟩
  · exact .inl hrefused

end Emulation

end Cleartext.Machine
