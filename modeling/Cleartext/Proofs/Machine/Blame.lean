import Cleartext.Proofs.Machine.Invocation

/-!
# Where a failure is blamed

A round that ends a method with a failure, or with an exception that has no handler there, is
a place where something surfaced.  A run can have several: an exception that surfaces in one
frame may be caught by a caller, and the run goes on.  `Plan.surfaced` lists the places in the
order of the run.

* `Runs.blame_eq`: a run is blamed on the first place where anything surfaced, and that stays
  so when it is caught.
* `Runs.surfaces`: the error that ends a run surfaced in its last round.
* `Emulation.invoke_blame`: so the place that the failure of an invocation names is the one
  where its error surfaced as long as nothing surfaced before it.
-/

namespace Cleartext.Machine

/-- Whether an event is that a call is done. -/
def Event.isCall : Event → Bool
  | .round .. => false
  | .call .. => true

namespace Plan

variable {plan : Plan} {f : Frame} {r : Routine} {args : List Value} {m m' : Moment}
  {events : List Event} {answer : Except Halt Value} {halt : Halt}

/-- The place at which something surfaces with an event. -/
def surfaces? (plan : Plan) : Event → Option (String × Int)
  | .round f m =>
    match plan.advanceAlone f m.progress with
    | .ok _ => none
    | .error (answer, _) => blamed? f answer
  | .call .. => none

/-- The places where something surfaced, in the order of the run. -/
def surfaced (plan : Plan) (events : List Event) : List (String × Int) :=
  events.filterMap plan.surfaces?

theorem surfaced_append (events events' : List Event) :
    plan.surfaced (events ++ events') = plan.surfaced events ++ plan.surfaced events' :=
  List.filterMap_append

theorem surfaced_call (before behind : Moment) (answer : Except Halt Value) (events : List Event) :
    plan.surfaced (.call before answer behind :: events) = plan.surfaced events :=
  rfl

/-- Nothing surfaces with a round that leads on. -/
theorem surfaced_of_ok {s : State} (h : plan.advanceAlone f m.progress = .ok s) (events : List Event) :
    plan.surfaced (.round f m :: events) = plan.surfaced events :=
  List.filterMap_cons_none (by rw [surfaces?, h])

theorem surfaced_of_error {p : Progress} (h : plan.advanceAlone f m.progress = .error (answer, p)) :
    (plan.surfaced [.round f m]).head? = blamed? f answer := by
  have hsurfaces : plan.surfaces? (.round f m) = blamed? f answer := by rw [surfaces?, h]
  unfold surfaced
  rw [List.filterMap_cons, hsurfaces]
  cases blamed? f answer <;> rfl

/-- A run is blamed on the first place where something surfaced, unless it was blamed before. -/
theorem Runs.blame_eq (h : plan.Runs f m events answer m') :
    m'.progress.blame = m.progress.blame.or (plan.surfaced events).head? := by
  induction h with
  | done hround => rw [surfaced_of_error hround, (advanceAlone_error hround).blame]
  | next hround _ ih =>
    rw [surfaced_of_ok hround, ih, (advanceAlone_ok hround).blame]
  | called hround _ _ _ ihcall ih =>
    rw [List.cons_append, surfaced_of_ok hround, surfaced_append, surfaced_call, List.head?_append,
      ih]
    dsimp only [Moment.leaving, Moment.entering] at ihcall ⊢
    rw [ihcall, (advanceAlone_ok hround).blame, Option.or_assoc]
  | passed hround _ _ ihcall =>
    rw [List.cons_append, surfaced_of_ok hround, surfaced_append, surfaced_call, List.head?_append]
    dsimp only [Moment.leaving, Moment.entering] at ihcall ⊢
    rw [ihcall, (advanceAlone_ok hround).blame]
    exact congrArg _ (Option.or_none ..).symm

/-- An error ends a run in a frame: it surfaced in the last round, and every call after that
was done with it. -/
def SurfacesIn (plan : Plan) (halt : Halt) (f : Frame) (earlier events : List Event) : Prop :=
  ∃ m p calls, events = earlier ++ .round f m :: calls ∧ (∀ event ∈ calls, event.isCall = true) ∧
    plan.advanceAlone f m.progress = .error (.error halt, p)

theorem SurfacesIn.prepend {earlier : List Event} (h : plan.SurfacesIn halt f earlier events)
    (front : List Event) : plan.SurfacesIn halt f (front ++ earlier) (front ++ events) := by
  obtain ⟨m, p, calls, rfl, hcalls, hround⟩ := h
  exact ⟨m, p, calls, (List.append_assoc ..).symm, hcalls, hround⟩

theorem SurfacesIn.append_call {earlier : List Event} (h : plan.SurfacesIn halt f earlier events)
    (before behind : Moment) (answer : Except Halt Value) :
    plan.SurfacesIn halt f earlier (events ++ [.call before answer behind]) := by
  obtain ⟨m, p, calls, rfl, hcalls, hround⟩ := h
  refine ⟨m, p, calls ++ [.call before answer behind], by simp, ?_, hround⟩
  exact List.forall_mem_append.2 ⟨hcalls, List.forall_mem_singleton.2 rfl⟩

/-- The error that ends a run surfaced in some frame. -/
theorem Runs.surfaces (h : plan.Runs f m events answer m') (herror : answer = .error halt) :
    ∃ g earlier, plan.SurfacesIn halt g earlier events := by
  induction h with
  | @done f m answer p hround =>
    subst herror
    exact ⟨f, [], m, p, [], rfl, by simp, hround⟩
  | next _ _ ih =>
    obtain ⟨g, earlier, hsurfaces⟩ := ih herror
    exact ⟨g, _, hsurfaces.prepend [_]⟩
  | called _ _ _ _ _ ih =>
    obtain ⟨g, earlier, hsurfaces⟩ := ih herror
    exact ⟨g, _, (hsurfaces.prepend [_]).prepend _⟩
  | passed _ _ _ ihcall =>
    obtain ⟨g, earlier, hsurfaces⟩ := ihcall herror
    exact ⟨g, _, (hsurfaces.prepend [_]).append_call _ _ _⟩

/-- An error that is blamed on a frame surfaces behind all that surfaced before. -/
theorem SurfacesIn.surfaced_eq {earlier : List Event} (h : plan.SurfacesIn halt f earlier events)
    (hhalt : ∀ lack, halt ≠ .collapse lack) :
    plan.surfaced events = plan.surfaced earlier ++ [f.place] := by
  obtain ⟨m, p, calls, rfl, hcalls, hround⟩ := h
  have hnone : plan.surfaced calls = [] := by
    refine List.filterMap_eq_nil_iff.2 fun event hevent => ?_
    have hcall := hcalls event hevent
    cases event with
    | round => cases hcall
    | call => rfl
  have hplace : plan.surfaces? (.round f m) = some f.place := by
    rw [surfaces?, hround]
    cases halt with
    | collapse lack => exact absurd rfl (hhalt lack)
    | _ => rfl
  rw [surfaced_append]
  show _ ++ List.filterMap plan.surfaces? (.round f m :: calls) = _
  rw [List.filterMap_cons_some hplace]
  exact congrArg (plan.surfaced earlier ++ f.place :: ·) hnone

/-- A failure names the place that the run is blamed on. -/
theorem fault_of_blame (plan : Plan) (halt : Halt) {p : Progress} {place : String × Int}
    (h : p.blame = some place) :
    ∃ reason cause, plan.fault p halt = .fault plan.program.name place.1 place.2 reason cause := by
  unfold fault
  rw [h]
  cases halt <;> exact ⟨_, _, rfl⟩

/-! ## Calls -/

theorem Calls.blame_eq (h : plan.Calls r args m events answer m') :
    m'.progress.blame = m.progress.blame.or (plan.surfaced events).head? := by
  cases h with
  | refused => exact (Option.or_none ..).symm
  | ran _ hruns =>
    rw [surfaced_append, surfaced_call, show plan.surfaced [] = [] from rfl, List.append_nil]
    exact hruns.blame_eq

theorem CallsInitialized.blame_eq (h : plan.CallsInitialized r args m events answer m') :
    m'.progress.blame = m.progress.blame.or (plan.surfaced events).head? := by
  cases h with
  | plain _ hcall => exact hcall.blame_eq
  | failed _ hcall => exact hcall.blame_eq
  | initialized _ hfirst hcall =>
    rw [surfaced_append, List.head?_append, hcall.blame_eq, hfirst.blame_eq, Option.or_assoc]

/-- A method has no frame for its arguments, so that it cannot be called. -/
def Refuses (plan : Plan) (r : Routine) (args : List Value) (halt : Halt) (names : List String) :
    Prop :=
  ∃ e, plan.enter r args names = .error e ∧ halt = .failure e

/-- An invocation ends without a frame for what it calls: for the class initializer, so that
nothing happened at all, or for the method, behind an initializer that has returned. -/
inductive RefusesFirst (plan : Plan) (r : Routine) (args : List Value) (m : Moment) (halt : Halt) :
    List Event → Prop
  | initializer {init : Routine} : plan.program.routine? "<clinit>" "()V" = some init →
      plan.Refuses init [] halt m.active → RefusesFirst plan r args m halt []
  | plain : plan.program.routine? "<clinit>" "()V" = none →
      plan.Refuses r args halt m.active → RefusesFirst plan r args m halt []
  | method {init : Routine} {first : List Event} {v : Value} {m₁ : Moment} :
      plan.program.routine? "<clinit>" "()V" = some init →
      plan.Calls init [] m first (.ok v) m₁ → plan.Refuses r args halt m₁.active →
      RefusesFirst plan r args m halt first

theorem Calls.surfaces (h : plan.Calls r args m events (.error halt) m') :
    (plan.Refuses r args halt m.active ∧ events = []) ∨
      ∃ g earlier, plan.SurfacesIn halt g earlier events := by
  cases h with
  | refused henter => exact .inl ⟨⟨_, henter, rfl⟩, rfl⟩
  | ran _ hruns =>
    obtain ⟨g, earlier, hsurfaces⟩ := hruns.surfaces rfl
    exact .inr ⟨g, earlier, hsurfaces.append_call _ _ _⟩

theorem CallsInitialized.surfaces (h : plan.CallsInitialized r args m events (.error halt) m') :
    plan.RefusesFirst r args m halt events ∨ ∃ g earlier, plan.SurfacesIn halt g earlier events := by
  cases h with
  | plain hnone hcall =>
    obtain ⟨hrefuses, rfl⟩ | hsurfaces := hcall.surfaces
    · exact .inl (.plain hnone hrefuses)
    · exact .inr hsurfaces
  | failed hinit hcall =>
    obtain ⟨hrefuses, rfl⟩ | hsurfaces := hcall.surfaces
    · exact .inl (.initializer hinit hrefuses)
    · exact .inr hsurfaces
  | initialized hinit hfirst hcall =>
    obtain ⟨hrefuses, rfl⟩ | ⟨g, earlier, hsurfaces⟩ := hcall.surfaces
    · rw [List.append_nil]
      exact .inl (.method hinit hfirst hrefuses)
    · exact .inr ⟨g, _, hsurfaces.prepend _⟩

end Plan

namespace Emulation

variable {em : Emulation} {name descriptor : String} {args : Run (List Value)} {cancelled : Bool}
  {events : List Event} {m' : Moment} {halt : Halt}

/-- The failure of an invocation names the first place where anything surfaced.  That is the
frame in which its own error surfaced when nothing did before, or something did there; what
surfaced in another place and was caught by a caller is named all the same.  (An invocation that
ends without a frame for what it calls fails nowhere.) -/
theorem invoke_blame (h : em.Invoked name descriptor args cancelled events (.error halt) m')
    (hblame : em.progress.blame = none) (hhalt : ∀ lack, halt ≠ .collapse lack) :
    (∃ r, em.program.routine? name descriptor = some r ∧
      (em.plan cancelled).RefusesFirst r ((em.prepare args).1.toOption.getD []) (em.beginning args)
        halt events) ∨
    ∃ f earlier reason cause, (em.plan cancelled).SurfacesIn halt f earlier events ∧
      (em.invoke name descriptor args cancelled).1 = .error (.fault em.program.name
        (((em.plan cancelled).surfaced earlier).headD f.place).1
        (((em.plan cancelled).surfaced earlier).headD f.place).2 reason cause) := by
  obtain ⟨hanswer, -⟩ := h.invoke_eq
  obtain ⟨r, hr, -, hcalls⟩ := h.run
  refine hcalls.surfaces.imp (fun hrefuses => ⟨r, hr, hrefuses⟩) ?_
  rintro ⟨f, earlier, hsurfaces⟩
  have hplace : m'.progress.blame = some (((em.plan cancelled).surfaced earlier).headD f.place) := by
    have hbegin : (em.beginning args).progress.blame = none := hblame
    rw [hcalls.blame_eq, hbegin, hsurfaces.surfaced_eq hhalt]
    cases (em.plan cancelled).surfaced earlier <;> rfl
  obtain ⟨reason, cause, hfault⟩ := (em.plan cancelled).fault_of_blame halt hplace
  exact ⟨f, earlier, reason, cause, hsurfaces, hanswer.trans (congrArg Except.error hfault)⟩

end Emulation

/-! ## An exception that is caught -/

/-- Calls `g`, catches what it throws, and divides by zero. -/
def dividingBody : MethodBody :=
  ⟨2, 0, [0xb8, 0, 6, 0x03, 0xac, 0x57, 0x04, 0x03, 0x6c, 0xac], [⟨0, 3, 5, 0⟩], []⟩

/-- A class with the method `f`, which is `dividingBody`, and the method `g`, which throws. -/
def dividing : ClassFile where
  minor := 0
  major := 52
  pool := Pool.ofSlots [none, some (.utf8 [65]), some (.class_ 1), some (.utf8 [103]),
    some (.utf8 [40, 41, 86]), some (.nameAndType 3 4), some (.member .method 2 5),
    some (.utf8 [102]), some (.utf8 [40, 41, 73]), some (.utf8 [67, 111, 100, 101])]
  access := 0x21
  thisClass := 2
  superClass := 0
  interfaces := []
  fields := []
  methods := [⟨9, 7, 8, [.code 9 "Code" dividingBody]⟩,
    ⟨9, 3, 4, [.code 9 "Code" ⟨1, 0, [0x01, 0xbf], [], []⟩]⟩]
  attributes := []

/-- The class `dividing`, loaded. -/
def dividingRun : Emulation := { program := Program.of dividing, config := {} }

/-- Whether an answer is a failure for a thrown object, at an offset of a method. -/
def failsAt (method : String) (pc : Int) : Except Error Value → Bool
  | .error (.fault _ method' pc' reason .thrown) => method' = method && pc' = pc && reason ≠ ""
  | _ => false

/-- Only a thrown object leaves a reason. -/
theorem thrown_of_failsAt {plan : Plan} {p : Progress} {method : String} {pc : Int}
    {answer : Except Halt Value} (h : failsAt method pc (answer.mapError (plan.fault p)) = true) :
    ∃ id, answer = .error (.thrown id) := by
  cases answer with
  | ok v => cases h
  | error halt =>
    cases halt with
    | thrown id => exact ⟨id, rfl⟩
    | failure e =>
      simp only [Except.mapError, Plan.fault, failsAt] at h
      cases e <;> simp at h
    | collapse lack => cases h

theorem place_of_failsAt {cls reason method : String} {pc : Int} {place : String × Int} {cause : Error}
    (h : failsAt method pc (.error (.fault cls place.1 place.2 reason cause)) = true) :
    place = (method, pc) := by
  cases cause with
  | thrown =>
    simp only [failsAt, Bool.and_eq_true, decide_eq_true_eq] at h
    exact Prod.ext h.1.1 h.1.2
  | _ => cases h

/-- An invocation of `f`, which catches what `g` throws and then divides by zero, names `g`. -/
theorem Emulation.invoke_blame_caught : ∃ events halt m' f earlier reason cause,
    dividingRun.Invoked "f" "()I" (pure []) false events (.error halt) m' ∧
      (dividingRun.plan false).SurfacesIn halt f earlier events ∧
      (dividingRun.invoke "f" "()I" (pure []) false).1 = .error (.fault "A"
        (((dividingRun.plan false).surfaced earlier).headD f.place).1
        (((dividingRun.plan false).surfaced earlier).headD f.place).2 reason cause) ∧
      ((dividingRun.plan false).surfaced earlier).headD f.place = ("g", 1) := by
  have hfails : failsAt "g" 1 (dividingRun.invoke "f" "()I" (pure []) false).1 = true := by
    decide +kernel
  rcases dividingRun.invoked_or_refused "f" "()I" (pure []) false with
    ⟨events, answer, m', hinvoked⟩ | ⟨-, e, he, hrefused⟩
  · obtain ⟨id, rfl⟩ := thrown_of_failsAt (hinvoked.invoke_eq.1 ▸ hfails)
    rcases invoke_blame hinvoked rfl nofun with
      ⟨r, -, hrefuses⟩ | ⟨f, earlier, reason, cause, hsurfaces, hanswer⟩
    · obtain ⟨-, e, -, he⟩ | ⟨-, e, -, he⟩ | ⟨-, -, e, -, he⟩ := hrefuses
      all_goals cases he
    · exact ⟨events, .thrown id, m', f, earlier, reason, cause, hinvoked, hsurfaces, hanswer,
        place_of_failsAt (hanswer ▸ hfails)⟩
  · rw [he] at hfails
    cases e with
    | fault cls method pc reason cause => exact absurd rfl (hrefused cls method pc reason cause)
    | _ => cases hfails

end Cleartext.Machine
