import Cleartext.Proofs.Machine.Blame
import Cleartext.Proofs.Quiet.Steps

/-!
# Runs under two identities

A class is run under two configurations that differ in the identity only: the caller, the
size of its constant pool, and the place the code was loaded from.  As long as the first
run does not ask who runs the code (`Event.Asks`), the second goes the same way.

* `Plan.advanceAlone_alike`: a round that does not ask has the same answer in both.
* `Plan.Runs.disguised`: so has a frame, by induction on its run.
* `Emulation.invoke_disguised`: and so has an invocation.  The instructions, their frames
  and the number of steps are the same; of the worlds only the call stacks differ that
  exceptions were made on (`Event.unmarked`).
-/

namespace Cleartext.Machine

/-! ## Two identities -/

/-- Two configurations that differ at most in the identity of a run. -/
structure Config.Disguises (c c' : Config) : Prop where
  maxSteps : c.maxSteps = c'.maxSteps
  maxDepth : c.maxDepth = c'.maxDepth
  traced : c.traced = c'.traced
  charsets : c.charsets = c'.charsets

/-- Two plans that differ at most in the identity of a run. -/
structure Plan.Disguises (plan plan' : Plan) : Prop where
  program : plan.program = plan'.program
  config : plan.config.Disguises plan'.config
  cancelled : plan.cancelled = plan'.cancelled

/-- How far a run has come, without the call stacks that exceptions were made on. -/
def Progress.unmarked (p : Progress) : Progress := { p with world := p.world.seen false }

/-- A moment without the call stacks that exceptions were made on. -/
def Moment.unmarked (m : Moment) : Moment := { m with progress := m.progress.unmarked }

/-- What happens in a run, without the call stacks that exceptions were made on. -/
def Event.unmarked : Event → Event
  | .round f m => .round f m.unmarked
  | .call before answer behind => .call before.unmarked answer behind.unmarked

/-- Two runs have come equally far. -/
def Progress.Alike (p p' : Progress) : Prop := p.unmarked = p'.unmarked

/-- Two runs are at moments that look alike. -/
def Moment.Alike (m n : Moment) : Prop := m.unmarked = n.unmarked

/-- A round executes an instruction that asks who runs the code. -/
def Event.Asks (plan : Plan) : Event → Prop
  | .round f m => ∃ ins, plan.executes f m.progress = true ∧ Plan.fetch f = .ok ins ∧
      Step.AsksWho (plan.setting f) f m.progress.world ins
  | .call .. => False

namespace Config.Disguises

variable {c c' : Config}

theorem stepLimit (h : c.Disguises c') : c.stepLimit = c'.stepLimit := by
  unfold Config.stepLimit
  rw [h.maxSteps]

theorem depthLimit (h : c.Disguises c') : c.depthLimit = c'.depthLimit := by
  unfold Config.depthLimit
  rw [h.maxDepth]

end Config.Disguises

/-- What an exception says behind the name of its class. -/
def World.messageText (w : World) : Hidden → String
  | .throwable (some m) _ =>
    match w.heap[m]? with
    | some (.string units) => ": " ++ units.text
    | _ => ""
  | _ => ""

namespace World.Alike

variable {w w' : World}

theorem thrownClass_eq (h : w.Alike false w') (id : Nat) : thrownClass w id = thrownClass w' id := by
  have ho := h.object? id
  unfold thrownClass
  rcases hget : w.heap[id]? with _ | o <;> rcases hget' : w'.heap[id]? with _ | o' <;>
    simp only [hget, hget', Option.map_none, Option.map_some, reduceCtorEq, Option.some.injEq] at ho
  · rfl
  · rcases Object.cases_of_seen ho with rfl | ⟨-, cls, fields, hidden, hidden', rfl, rfl, -⟩ <;> rfl

/-- What an exception says does not depend on the call stack it was made on. -/
theorem messageText_eq (h : w.Alike false w') {hidden hidden' : Hidden}
    (hhidden : hidden.unmarked = hidden'.unmarked) : w.messageText hidden = w'.messageText hidden' := by
  cases hidden <;> cases hidden' <;>
    simp only [Hidden.unmarked, reduceCtorEq, Hidden.throwable.injEq, and_true] at hhidden
  case throwable.throwable message _ _ _ =>
    subst hhidden
    rcases message with _ | m
    · rfl
    · have ho := h.object? m
      dsimp only [World.messageText]
      rcases hget : w.heap[m]? with _ | o <;> rcases hget' : w'.heap[m]? with _ | o' <;>
        simp only [hget, hget', Option.map_none, Option.map_some, reduceCtorEq, Option.some.injEq] at ho
      · rfl
      · rcases Object.cases_of_seen ho with rfl | ⟨-, cls, fields, old, old', rfl, rfl, -⟩ <;> rfl
  all_goals rfl

theorem thrownText_eq (h : w.Alike false w') (id : Nat) : thrownText w id = thrownText w' id := by
  have ho := h.object? id
  unfold thrownText
  rcases hget : w.heap[id]? with _ | o <;> rcases hget' : w'.heap[id]? with _ | o' <;>
    simp only [hget, hget', Option.map_none, Option.map_some, reduceCtorEq, Option.some.injEq] at ho
  · rfl
  rcases Object.cases_of_seen ho with rfl | ⟨-, cls, fields, hidden, hidden', rfl, rfl, hhidden⟩
  · rcases o with _ | _ | ⟨cls, fields, hidden⟩
    · rfl
    · rfl
    · exact congrArg (externalName cls ++ ·) (h.messageText_eq rfl)
  · exact congrArg (externalName cls ++ ·) (h.messageText_eq hhidden)

end World.Alike

namespace Progress.Alike

variable {p p' : Progress}

theorem steps (h : p.Alike p') : p.steps = p'.steps :=
  (congrArg Progress.steps h : p.unmarked.steps = p'.unmarked.steps)

theorem blame (h : p.Alike p') : p.blame = p'.blame :=
  (congrArg Progress.blame h : p.unmarked.blame = p'.unmarked.blame)

theorem trace (h : p.Alike p') : p.trace = p'.trace :=
  (congrArg Progress.trace h : p.unmarked.trace = p'.unmarked.trace)

theorem world (h : p.Alike p') : p.world.Alike false p'.world :=
  (congrArg Progress.world h : p.unmarked.world = p'.unmarked.world)

theorem of_eq (hsteps : p.steps = p'.steps) (hblame : p.blame = p'.blame)
    (htrace : p.trace = p'.trace) (hworld : p.world.Alike false p'.world) : p.Alike p' := by
  unfold Alike unmarked
  rw [hsteps, hblame, htrace, show p.world.seen false = p'.world.seen false from hworld]

theorem with_world (h : p.Alike p') {w w' : World} (hw : w.Alike false w') :
    Progress.Alike { p with world := w } { p' with world := w' } :=
  of_eq h.steps h.blame h.trace hw

theorem blaming (h : p.Alike p') (f : Frame) : (p.blaming f).Alike (p'.blaming f) := by
  refine of_eq h.steps ?_ h.trace h.world
  unfold Progress.blaming
  rw [h.blame]

end Progress.Alike

namespace Moment.Alike

variable {m n : Moment}

theorem active (h : m.Alike n) : m.active = n.active :=
  (congrArg Moment.active h : m.unmarked.active = n.unmarked.active)

theorem progress (h : m.Alike n) : m.progress.Alike n.progress :=
  (congrArg Moment.progress h : m.unmarked.progress = n.unmarked.progress)

theorem of_eq (hactive : m.active = n.active) (hprogress : m.progress.Alike n.progress) :
    m.Alike n := by
  unfold Alike Moment.unmarked
  rw [hactive, show m.progress.unmarked = n.progress.unmarked from hprogress]

theorem with_progress (h : m.Alike n) {p p' : Progress} (hp : p.Alike p') :
    Moment.Alike { m with progress := p } { n with progress := p' } :=
  of_eq h.active hp

theorem entering (h : m.Alike n) (r : Routine) : (m.entering r).Alike (n.entering r) :=
  of_eq (congrArg (r.name :: ·) h.active) h.progress

theorem leaving (h : m.Alike n) : m.leaving.Alike n.leaving :=
  of_eq (congrArg List.tail h.active) h.progress

theorem round_eq (h : m.Alike n) (f : Frame) : (Event.round f m).unmarked = (Event.round f n).unmarked :=
  congrArg (Event.round f) h

theorem call_eq (h : m.Alike n) {m' n' : Moment} (h' : m'.Alike n') (answer : Except Halt Value) :
    (Event.call m answer m').unmarked = (Event.call n answer n').unmarked := by
  show Event.call m.unmarked answer m'.unmarked = Event.call n.unmarked answer n'.unmarked
  rw [show m.unmarked = n.unmarked from h, show m'.unmarked = n'.unmarked from h']

end Moment.Alike

namespace Plan

variable {plan plan' : Plan} {f : Frame} {p p' : Progress}

/-! ## A round -/

/-- A round comes to the same in both runs. -/
inductive SameRound : Except Ending State → Except Ending State → Prop
  | goes {f : Frame} {callers : List Caller} {p p' : Progress} : p.Alike p' →
      SameRound (.ok ⟨f, callers, p⟩) (.ok ⟨f, callers, p'⟩)
  | ends {answer : Except Halt Value} {p p' : Progress} : p.Alike p' →
      SameRound (.error (answer, p)) (.error (answer, p'))

theorem Disguises.enter_eq (h : plan.Disguises plan') (r : Routine) (args : List Value)
    (names : List String) : plan.enter r args names = plan'.enter r args names := by
  unfold enter tooMany
  rw [h.config.depthLimit, h.program]

theorem Disguises.setting (h : plan.Disguises plan') (f : Frame) :
    (plan.setting f).Alike false (plan'.setting f) where
  program := h.program
  active := rfl
  charsets := h.config.charsets
  caller := nofun
  poolSize := nofun
  codeSource := nofun

theorem Disguises.note (h : plan.Disguises plan') (hp : p.Alike p') (f : Frame) (ins : Instruction) :
    (plan.note f ins p).Alike (plan'.note f ins p') := by
  unfold Plan.note
  rw [h.config.traced, h.program]
  split
  · exact .of_eq hp.steps hp.blame (congrArg (_ :: ·) hp.trace) hp.world
  · exact hp

theorem resume_alike (h : plan.Disguises plan') (hp : p.Alike p') (callers : List Caller) (next : Nat)
    (answer : Except Halt Outcome) (f : Frame) :
    SameRound (plan.resume callers next answer f p) (plan'.resume callers next answer f p') := by
  unfold resume
  rcases answer with (id | e | lack) | (pc | v | ⟨r, args, returns⟩)
  · dsimp only
    rw [hp.world.thrownClass_eq id, h.program]
    split
    · exact .goes hp
    · split
      · exact .goes (hp.blaming f)
      · exact .ends (hp.blaming f)
  · exact .ends (hp.blaming f)
  · exact .ends hp
  · exact .goes hp
  · cases callers with
    | nil => exact .ends hp
    | cons c rest => exact .goes hp
  · dsimp only
    rw [h.enter_eq]
    split
    · exact .ends (hp.blaming f)
    · exact .goes hp

/-- A round that does not ask who runs the code comes to the same under both identities. -/
theorem advanceAlone_alike (h : plan.Disguises plan') (hp : p.Alike p')
    (hnever : ∀ ins, plan.executes f p = true → fetch f = .ok ins →
      ¬ Step.AsksWho (plan.setting f) f p.world ins) :
    SameRound (plan.advanceAlone f p) (plan'.advanceAlone f p') := by
  have hcharged : Progress.Alike { p with steps := p.steps + 1 } { p' with steps := p'.steps + 1 } :=
    .of_eq (congrArg (· + 1) hp.steps) hp.blame hp.trace hp.world
  unfold advanceAlone advance step
  dsimp only
  rw [← h.config.stepLimit, ← h.cancelled, ← hp.steps]
  rw [← hp.steps] at hcharged
  split
  · exact .ends (hcharged.blaming f)
  rename_i hbudget
  split
  · exact .ends (hp.blaming f)
  rename_i houtside
  replace houtside := Bool.eq_false_iff.2 houtside
  split
  · exact .ends (hcharged.blaming f)
  rename_i hdue
  split
  · exact .ends (hcharged.blaming f)
  · rename_i ins hfetch
    have hexecutes : plan.executes f p = true :=
      executes_of_fetch houtside (fun hle => hbudget ⟨houtside, hle⟩) (Bool.eq_false_iff.2 hdue) hfetch
    have hnote := h.note hcharged f ins
    have hworld : (plan.note f ins { p with steps := p.steps + 1 }).world = p.world := by
      unfold Plan.note
      split <;> rfl
    obtain ⟨hanswer, hworlds⟩ := Step.run_blind (.inr (hworld ▸ hnever ins hexecutes hfetch))
      _ _ (h.setting f) hnote.world
    unfold perform
    dsimp only
    generalize Step.run ins (plan.setting f) f (plan.note f ins _).world = e at hanswer hworlds
    generalize Step.run ins (plan'.setting f) f (plan'.note f ins _).world = e' at hanswer hworlds
    obtain ⟨⟨answer, g⟩, w⟩ := e
    obtain ⟨⟨answer', g'⟩, w'⟩ := e'
    obtain ⟨rfl, rfl⟩ := Prod.mk.inj hanswer
    exact resume_alike h (hnote.with_world hworlds) [] ins.next answer g

/-! ## Runs -/

section

variable {m m' n : Moment} {events : List Event} {answer : Except Halt Value} {r : Routine}
  {args : List Value}

theorem Disguises.goesOn_eq (h : plan.Disguises plan') (c : Caller) (answer : Except Halt Value)
    {w w' : World} (hw : w.Alike false w') : plan.goesOn? c answer w = plan'.goesOn? c answer w' := by
  unfold goesOn?
  split
  · rfl
  · rw [h.program, hw.thrownClass_eq]
  · rfl

theorem Disguises.advanceAlone_ok (h : plan.Disguises plan') (hm : m.Alike n)
    (hnever : ¬ Event.Asks plan (.round f m)) {g : Frame} {callers : List Caller}
    (hround : plan.advanceAlone f m.progress = .ok ⟨g, callers, p⟩) :
    ∃ p', plan'.advanceAlone f n.progress = .ok ⟨g, callers, p'⟩ ∧ p.Alike p' := by
  have hsame := advanceAlone_alike h hm.progress fun ins hexecutes hfetch hasks =>
    hnever ⟨ins, hexecutes, hfetch, hasks⟩
  rw [hround] at hsame
  generalize plan'.advanceAlone f n.progress = round' at hsame
  cases hsame with
  | goes hp => exact ⟨_, rfl, hp⟩

theorem Disguises.advanceAlone_error (h : plan.Disguises plan') (hm : m.Alike n)
    (hnever : ¬ Event.Asks plan (.round f m))
    (hround : plan.advanceAlone f m.progress = .error (answer, p)) :
    ∃ p', plan'.advanceAlone f n.progress = .error (answer, p') ∧ p.Alike p' := by
  have hsame := advanceAlone_alike h hm.progress fun ins hexecutes hfetch hasks =>
    hnever ⟨ins, hexecutes, hfetch, hasks⟩
  rw [hround] at hsame
  generalize plan'.advanceAlone f n.progress = round' at hsame
  cases hsame with
  | ends hp => exact ⟨_, rfl, hp⟩

/-- A frame whose run does not ask who runs the code runs the same way under another
identity. -/
theorem Runs.disguised (hplan : plan.Disguises plan') (h : plan.Runs f m events answer m')
    (hnever : ∀ e ∈ events, ¬ e.Asks plan) (hm : m.Alike n) :
    ∃ events' n', plan'.Runs f n events' answer n' ∧
      events.map Event.unmarked = events'.map Event.unmarked ∧ m'.Alike n' := by
  induction h generalizing n with
  | @done f m answer p hround =>
    obtain ⟨p', hround', hp⟩ := hplan.advanceAlone_error hm (hnever _ (by simp)) hround
    refine ⟨_, _, .done hround', ?_, hm.with_progress hp⟩
    simp [hm.round_eq]
  | @next f f' m m' p events answer hround _ ih =>
    obtain ⟨p', hround', hp⟩ := hplan.advanceAlone_ok hm (hnever _ (by simp)) hround
    obtain ⟨events', n', hruns, hevents, hm'⟩ :=
      ih (fun e he => hnever e (List.mem_cons_of_mem _ he)) (hm.with_progress hp)
    refine ⟨_, n', .next hround' hruns, ?_, hm'⟩
    simp [hm.round_eq, hevents]
  | @called f callee f' c m m₁ m' p within events result answer hround _ hon _ ihcall ih =>
    obtain ⟨p', hround', hp⟩ := hplan.advanceAlone_ok hm (hnever _ (by simp)) hround
    obtain ⟨within', n₁, hcall, hwithin, hm₁⟩ :=
      ihcall (fun e he => hnever e (by simp [he])) ((hm.with_progress hp).entering callee.routine)
    rw [hplan.goesOn_eq c result hm₁.progress.world] at hon
    obtain ⟨events', n', hruns, hevents, hm'⟩ :=
      ih (fun e he => hnever e (by simp [he])) hm₁.leaving
    refine ⟨_, n', .called hround' hcall hon hruns, ?_, hm'⟩
    simp [hm.round_eq, hwithin, hevents, (hm.with_progress hp).call_eq hm₁.leaving]
  | @passed f callee c m m₁ p within result hround _ hon ihcall =>
    obtain ⟨p', hround', hp⟩ := hplan.advanceAlone_ok hm (hnever _ (by simp)) hround
    obtain ⟨within', n₁, hcall, hwithin, hm₁⟩ :=
      ihcall (fun e he => hnever e (by simp [he])) ((hm.with_progress hp).entering callee.routine)
    rw [hplan.goesOn_eq c result hm₁.progress.world] at hon
    refine ⟨_, _, .passed hround' hcall hon, ?_, hm₁.leaving⟩
    simp [hm.round_eq, hwithin, (hm.with_progress hp).call_eq hm₁.leaving]

theorem Calls.disguised (hplan : plan.Disguises plan') (h : plan.Calls r args m events answer m')
    (hnever : ∀ e ∈ events, ¬ e.Asks plan) (hm : m.Alike n) :
    ∃ events' n', plan'.Calls r args n events' answer n' ∧
      events.map Event.unmarked = events'.map Event.unmarked ∧ m'.Alike n' := by
  cases h with
  | refused henter =>
    rw [hplan.enter_eq, hm.active] at henter
    exact ⟨_, _, .refused henter, rfl, hm⟩
  | ran henter hruns =>
    rw [hplan.enter_eq, hm.active] at henter
    obtain ⟨events', n', hruns', hevents, hm'⟩ :=
      hruns.disguised hplan (fun e he => hnever e (by simp [he])) (hm.entering r)
    refine ⟨_, _, .ran henter hruns', ?_, hm'.leaving⟩
    simp [hevents, hm.call_eq hm'.leaving]

theorem CallsInitialized.disguised (hplan : plan.Disguises plan')
    (h : plan.CallsInitialized r args m events answer m') (hnever : ∀ e ∈ events, ¬ e.Asks plan)
    (hm : m.Alike n) :
    ∃ events' n', plan'.CallsInitialized r args n events' answer n' ∧
      events.map Event.unmarked = events'.map Event.unmarked ∧ m'.Alike n' := by
  cases h with
  | plain hnone hcall =>
    rw [hplan.program] at hnone
    obtain ⟨events', n', hcall', hevents, hm'⟩ := hcall.disguised hplan hnever hm
    exact ⟨_, _, .plain hnone hcall', hevents, hm'⟩
  | failed hinit hcall =>
    rw [hplan.program] at hinit
    obtain ⟨events', n', hcall', hevents, hm'⟩ := hcall.disguised hplan hnever hm
    exact ⟨_, _, .failed hinit hcall', hevents, hm'⟩
  | initialized hinit hfirst hcall =>
    rw [hplan.program] at hinit
    obtain ⟨first', n₁, hfirst', hfirsts, hm₁⟩ :=
      hfirst.disguised hplan (fun e he => hnever e (by simp [he])) hm
    obtain ⟨events', n', hcall', hevents, hm'⟩ :=
      hcall.disguised hplan (fun e he => hnever e (by simp [he])) hm₁
    exact ⟨_, _, .initialized hinit hfirst' hcall', by simp [hfirsts, hevents], hm'⟩

theorem Disguises.fault_eq (h : plan.Disguises plan') (hp : p.Alike p') (halt : Halt) :
    plan.fault p halt = plan'.fault p' halt := by
  unfold fault
  rw [hp.blame, h.program]
  cases halt with
  | thrown id =>
    dsimp only
    rw [hp.world.thrownText_eq]
  | failure e => rfl
  | collapse lack => rfl

end

end Plan

/-! ## Invocations -/

namespace Emulation

variable {cf : ClassFile} {config config' : Config} {em em' : Emulation} {name descriptor : String}
  {args : Run (List Value)} {cancelled sight : Bool} {events : List Event} {answer : Except Halt Value}
  {m' : Moment}

/-- Two emulations of one class that differ at most in the identity of the run. -/
structure Disguises (em em' : Emulation) : Prop where
  program : em.program = em'.program
  config : em.config.Disguises em'.config
  spent : em.spent = em'.spent
  progress : em.progress.Alike em'.progress

/-- The first value of a static field has nothing to do with the configuration. -/
theorem blind_initialValue {m : Member} {value : Run Value} (h : initialValue cf m = .ok value) :
    Run.Blind sight value value := by
  unfold initialValue at h
  split at h
  · split at h
    · cases h
      exact (Run.quiet_ofLoadable _).blind
    · cases h
  · cases h
    exact Run.blind_pure _

theorem initialWorld_alike {program : Program}
    (hσ : Setting.Alike sight ⟨program, config, []⟩ ⟨program, config', []⟩) (fields : List Member)
    {w w' : World} (hw : w.Alike sight w') :
    (initialWorld program config w fields).map (World.seen sight) =
      (initialWorld program config' w' fields).map (World.seen sight) := by
  induction fields generalizing w w' with
  | nil => exact congrArg Except.ok hw
  | cons m rest ih =>
    unfold initialWorld
    split
    · cases hvalue : initialValue program.cf m with
      | error e => rfl
      | ok value =>
        obtain ⟨hanswer, hworlds⟩ := blind_initialValue hvalue _ _ _ _ hσ hw
        dsimp only [bind, Except.bind]
        generalize value ⟨program, config, []⟩ w = e at hanswer hworlds ⊢
        generalize value ⟨program, config', []⟩ w' = e' at hanswer hworlds ⊢
        obtain ⟨v, w₁⟩ := e
        obtain ⟨v', w₁'⟩ := e'
        obtain rfl : v = v' := hanswer
        exact ih (World.Alike.with_static hworlds _ _)
    · exact ih hw

/-- A class can be loaded under both configurations or under none, and the static fields
have the same first values. -/
theorem load_alike (hσ : Setting.Alike sight ⟨Program.of cf, config, []⟩ ⟨Program.of cf, config', []⟩)
    (h : load cf config = .ok em) :
    ∃ w w', em = { program := Program.of cf, config, progress := { world := w } } ∧
      load cf config' =
        .ok { program := Program.of cf, config := config', progress := { world := w' } } ∧
      w.Alike sight w' := by
  have hworlds := initialWorld_alike hσ cf.fields (.refl sight {})
  unfold load at h ⊢
  dsimp only at h ⊢
  split at h
  · cases h
  · rename_i hname
    rw [if_neg hname]
    dsimp only [bind, Except.bind, pure, Except.pure] at h ⊢
    cases hworld : initialWorld (Program.of cf) config {} cf.fields with
    | error e =>
      rw [hworld] at h
      cases h
    | ok world =>
      rw [hworld] at h hworlds
      cases hworld' : initialWorld (Program.of cf) config' {} cf.fields with
      | error e =>
        rw [hworld'] at hworlds
        cases hworlds
      | ok world' =>
        rw [hworld'] at hworlds
        exact ⟨world, world', (Except.ok.inj h).symm, rfl, Except.ok.inj hworlds⟩

/-- A class can be loaded under both identities or under none. -/
theorem load_disguised (hconfig : config.Disguises config') (h : load cf config = .ok em) :
    ∃ em', load cf config' = .ok em' ∧ em.Disguises em' := by
  have hσ : Setting.Alike false ⟨Program.of cf, config, []⟩ ⟨Program.of cf, config', []⟩ :=
    ⟨rfl, rfl, hconfig.charsets, nofun, nofun, nofun⟩
  obtain ⟨w, w', rfl, hload, hworld⟩ := load_alike hσ h
  exact ⟨_, hload, rfl, hconfig, rfl, .of_eq rfl rfl rfl hworld⟩

theorem Disguises.plan (h : em.Disguises em') (cancelled : Bool) :
    (em.plan cancelled).Disguises (em'.plan cancelled) :=
  ⟨h.program, h.config, rfl⟩

/-- The arguments are prepared in the same way. -/
theorem Disguises.prepare (h : em.Disguises em') (hargs : Run.Blind false args args) :
    (em.prepare args).1 = (em'.prepare args).1 ∧ (em.beginning args).Alike (em'.beginning args) := by
  obtain ⟨hanswer, hworlds⟩ := hargs ⟨em.program, em.config, []⟩ ⟨em'.program, em'.config, []⟩ _ _
    ⟨h.program, rfl, h.config.charsets, nofun, nofun, nofun⟩ h.progress.world
  exact ⟨hanswer, .of_eq rfl (h.progress.with_world hworlds)⟩

theorem Invoked.disguised (hem : em.Disguises em') (hargs : Run.Blind false args args)
    (h : em.Invoked name descriptor args cancelled events answer m')
    (hnever : ∀ e ∈ events, ¬ e.Asks (em.plan cancelled)) :
    ∃ events' n', em'.Invoked name descriptor args cancelled events' answer n' ∧
      events.map Event.unmarked = events'.map Event.unmarked ∧ m'.Alike n' := by
  obtain ⟨hfresh, r, hr, hstatic, hcalls⟩ := h
  obtain ⟨hanswer, hbeginning⟩ := hem.prepare hargs
  obtain ⟨events', n', hcalls', hevents, hm'⟩ := hcalls.disguised (hem.plan cancelled) hnever hbeginning
  rw [hanswer] at hcalls'
  rw [hem.program] at hr
  rw [hem.spent] at hfresh
  exact ⟨events', n', ⟨hfresh, r, hr, hstatic, hcalls'⟩, hevents, hm'⟩

/-- An invocation that is refused is refused under any configuration, for the same reason. -/
theorem invoke_refused (hprogram : em.program = em'.program) (hspent : em.spent = em'.spent)
    (h : ¬ ∃ events answer m', em.Invoked name descriptor args cancelled events answer m') :
    (em'.invoke name descriptor args cancelled).1 = (em.invoke name descriptor args cancelled).1 ∧
      (em.invoke name descriptor args cancelled).2.progress = em.progress ∧
      (em'.invoke name descriptor args cancelled).2.progress = em'.progress := by
  unfold invoke
  dsimp only
  rw [← hspent, show em'.close.program = em.close.program from hprogram.symm]
  cases hfresh : em.spent with
  | true => exact ⟨rfl, rfl, rfl⟩
  | false =>
    simp only [Bool.false_eq_true, if_false]
    cases hr : em.close.program.routine? name descriptor with
    | none => exact ⟨rfl, rfl, rfl⟩
    | some r =>
      cases hstatic : r.isStatic with
      | true =>
        obtain ⟨events, answer, m', hcalls⟩ := (em.plan cancelled).exists_callsInitialized r
          ((em.prepare args).1.toOption.getD []) (em.beginning args)
        exact (h ⟨events, answer, m', hfresh, r, hr, hstatic, hcalls⟩).elim
      | false =>
        simp only [hstatic, Bool.not_false, if_true]
        exact ⟨trivial, rfl, rfl⟩

/-- A class is run under two identities.  If the first run never asks who runs the code, the
second has the same answer or fails with the same fault, charges the same number of steps,
and executes the same instructions in the same frames.  (The arguments are prepared by a
computation, which must not ask either.) -/
theorem invoke_disguised (hconfig : config.Disguises config') (hload : load cf config = .ok em)
    (hargs : Run.Blind false args args)
    (hnever : ∀ events answer m', em.Invoked name descriptor args cancelled events answer m' →
      ∀ e ∈ events, ¬ e.Asks (em.plan cancelled)) :
    ∃ em', load cf config' = .ok em' ∧
      (em'.invoke name descriptor args cancelled).1 = (em.invoke name descriptor args cancelled).1 ∧
      (em'.invoke name descriptor args cancelled).2.steps =
        (em.invoke name descriptor args cancelled).2.steps ∧
      (em.invoke name descriptor args cancelled).2.progress.Alike
        (em'.invoke name descriptor args cancelled).2.progress ∧
      ∀ events answer m', em.Invoked name descriptor args cancelled events answer m' →
        ∃ events' n', em'.Invoked name descriptor args cancelled events' answer n' ∧
          events.map Event.unmarked = events'.map Event.unmarked ∧ m'.Alike n' := by
  obtain ⟨em', hload', hem⟩ := load_disguised hconfig hload
  refine ⟨em', hload', ?_⟩
  have hends : (em'.invoke name descriptor args cancelled).1 =
        (em.invoke name descriptor args cancelled).1 ∧
      (em.invoke name descriptor args cancelled).2.progress.Alike
        (em'.invoke name descriptor args cancelled).2.progress := by
    by_cases hruns : ∃ events answer m', em.Invoked name descriptor args cancelled events answer m'
    · obtain ⟨events, answer, m', hinvoked⟩ := hruns
      obtain ⟨events', n', hinvoked', -, hm'⟩ :=
        hinvoked.disguised hem hargs (hnever events answer m' hinvoked)
      obtain ⟨hanswer, hprogress⟩ := hinvoked.invoke_eq
      obtain ⟨hanswer', hprogress'⟩ := hinvoked'.invoke_eq
      have hfault : (em.plan cancelled).fault m'.progress = (em'.plan cancelled).fault n'.progress :=
        funext ((hem.plan cancelled).fault_eq hm'.progress)
      rw [hanswer, hanswer', hfault, hprogress, hprogress']
      exact ⟨rfl, hm'.progress⟩
    · obtain ⟨hanswer, hprogress, hprogress'⟩ := invoke_refused hem.program hem.spent hruns
      rw [hprogress, hprogress']
      exact ⟨hanswer, hem.progress⟩
  exact ⟨hends.1, hends.2.steps.symm, hends.2, fun events answer m' hinvoked =>
    hinvoked.disguised hem hargs (hnever events answer m' hinvoked)⟩

/-! ## Classes that never ask -/

/-- Whether a pool has a reference to a method with the name and the descriptor of one that
tells who runs the code. -/
def mentionsTelling (p : Pool) : Bool :=
  p.slots.toList.any fun
    | some (.member _ _ n) =>
      match p.nameAndType n with
      | .ok (name, descriptor) => Library.telling.any fun method => method.2 = name ++ descriptor
      | .error _ => false
    | _ => false

/-- A class that has no reference to such a method never asks. -/
theorem not_asks_of_mentionsTelling {plan : Plan} (h : mentionsTelling plan.program.cf.pool = false)
    (e : Event) : ¬ e.Asks plan := by
  cases e with
  | call => exact id
  | round f m =>
    rintro ⟨ins, -, -, -, ref, descriptor, args, rest, method, hcalls, cls, -, htelling⟩
    obtain ⟨c, hc, href⟩ := Except.bind_ok.1 hcalls.names
    have hslot := Pool.mem_of_get? (Pool.get_ok.1 hc)
    refine Bool.eq_false_iff.1 h (List.any_eq_true.2 ⟨some c, hslot, ?_⟩)
    cases c with
    | member kind owner n =>
      obtain ⟨owner, -, href⟩ := Except.bind_ok.1 href
      obtain ⟨names, hnames, href⟩ := Except.bind_ok.1 href
      obtain rfl := Except.ok.inj href
      dsimp only
      rw [show plan.program.cf.pool.nameAndType n = .ok names from hnames]
      exact List.any_eq_true.2 ⟨_, htelling, decide_eq_true rfl⟩
    | _ => cases href

/-- The class `dividing` is run for itself and for a caller from somewhere.  Both runs throw
exceptions, which keep the call stacks, and fail in the same way. -/
theorem invoke_disguised_dividing : ∃ em',
    load dividing { codeSource := "file:/app.jar", caller := ⟨"B", "main"⟩, poolSize := 40 } = .ok em' ∧
      (em'.invoke "f" "()I" (pure []) false).1 = (dividingRun.invoke "f" "()I" (pure []) false).1 ∧
      failsAt "g" 1 (em'.invoke "f" "()I" (pure []) false).1 = true := by
  have hload : load dividing {} = .ok dividingRun := by rfl
  have hnever := @not_asks_of_mentionsTelling (dividingRun.plan false) (by decide +kernel)
  obtain ⟨em', hload', hanswer, -⟩ := @invoke_disguised dividing {}
    { codeSource := "file:/app.jar", caller := ⟨"B", "main"⟩, poolSize := 40 } dividingRun "f" "()I"
    (pure []) false ⟨rfl, rfl, rfl, rfl⟩ hload (Run.blind_pure _) fun _ _ _ _ e _ => hnever e
  have hfails : failsAt "g" 1 (dividingRun.invoke "f" "()I" (pure []) false).1 = true := by
    decide +kernel
  exact ⟨em', hload', hanswer, (congrArg (failsAt "g" 1) hanswer).trans hfails⟩

end Emulation

end Cleartext.Machine
