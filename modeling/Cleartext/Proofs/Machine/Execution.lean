import Cleartext.Machine.Emulation
import Cleartext.Proofs.Code.Assembly

/-!
# The machine, one instruction at a time

`Plan.execute` runs until the outermost method returns or the run is halted.
`Plan.step` is one round of it, on a `State`: the innermost frame, the frames
that wait for it, and how far the run has come.  It leads to another state or
to the end of the run.

* `execute_succ`: running with one instruction more is one step and then
  running.
* `Passes.goesOn`: a run goes on from where instructions that complete lead to.
* `fetch_of_decodeAll`: what a frame fetches at the offset of an instruction
  of its code is that instruction.
-/

namespace Cleartext.Machine

/-- A run between two instructions. -/
structure State where
  frame : Frame
  callers : List Caller
  progress : Progress

/-- How a run ends: its answer, and how far it came. -/
abbrev Ending := Except Halt Value × Progress

namespace Plan

/-! ## Steps -/

/-- Where the answer of an instruction leads to.  `f` is the frame that the
instruction left, and `next` is the offset behind it. -/
def resume (plan : Plan) (callers : List Caller) (next : Nat) (answer : Except Halt Outcome)
    (f : Frame) (p : Progress) : Except Ending State :=
  match answer with
  | .error (.collapse lack) => .error (.error (.collapse lack), p)
  | .error (.failure e) => .error (.error (.failure e), p.blaming f)
  | .error (.thrown id) =>
    match f.catching? plan.program id (thrownClass p.world id) with
    | some f => .ok ⟨f, callers, p⟩
    | none =>
      match catcher? plan.program id (thrownClass p.world id) callers with
      | some (caught, callers) => .ok ⟨caught, callers, p.blaming f⟩
      | none => .error (.error (.thrown id), p.blaming f)
  | .ok (.next pc) => .ok ⟨{ f with pc }, callers, p⟩
  | .ok (.finish v) =>
    match callers with
    | [] => .error (.ok v, p)
    | c :: rest =>
      let stack := if c.returns then v :: c.frame.stack else c.frame.stack
      .ok ⟨{ c.frame with pc := c.next, stack }, rest, p⟩
  | .ok (.enter r args returns) =>
    match plan.enter r args f.active with
    | .error e => .error (.error (.failure e), p.blaming f)
    | .ok callee => .ok ⟨callee, ⟨f, next, returns⟩ :: callers, p⟩

/-- Runs an instruction in a state. -/
def perform (plan : Plan) (s : State) (ins : Instruction) : Except Ending State :=
  let ((answer, f), world) := Step.run ins (plan.setting s.frame) s.frame s.progress.world
  plan.resume s.callers ins.next answer f { s.progress with world }

/-- Runs the instruction that a state has reached. -/
def step (plan : Plan) (s : State) : Except Ending State :=
  if isOutside s.frame then
    .error (.error (.failure (.malformed (.outsideCode s.frame.pc))), s.progress.blaming s.frame)
  else
    let p := { s.progress with steps := s.progress.steps + 1 }
    if plan.cancelled && p.steps % interval = 0 then
      .error (.error (.failure .timeout), p.blaming s.frame)
    else match fetch s.frame with
    | .error e => .error (.error (.failure e), p.blaming s.frame)
    | .ok ins => plan.perform { s with progress := plan.note s.frame ins p } ins

/-- A run that has come to `s` goes on from `s'`, `n` instructions later. -/
def GoesOn (plan : Plan) (n : Nat) (s s' : State) : Prop :=
  ∀ budget, plan.execute (budget + n) s.frame s.callers s.progress =
    plan.execute budget s'.frame s'.callers s'.progress

variable {plan : Plan} {s s' s'' : State} {n m : Nat}

/-- Running with one instruction more is one step, and running from where it
leads to. -/
theorem execute_succ (plan : Plan) (budget : Nat) (s : State) :
    plan.execute (budget + 1) s.frame s.callers s.progress =
      match plan.step s with
      | .ok s => plan.execute budget s.frame s.callers s.progress
      | .error ending => ending := by
  obtain ⟨f, callers, p⟩ := s
  rw [execute]
  unfold step perform resume
  dsimp only
  by_cases houtside : isOutside f
  · simp only [houtside, if_true]
  · simp only [houtside, if_false, Bool.false_eq_true]
    split
    · rfl
    · cases hfetch : fetch f with
      | error e => rfl
      | ok ins =>
        dsimp only
        generalize plan.note f ins { p with steps := p.steps + 1 } = p
        obtain ⟨steps, blame, trace, world⟩ := p
        dsimp only
        generalize Step.run ins (plan.setting f) f world = answer
        obtain ⟨⟨answer, f'⟩, world'⟩ := answer
        dsimp only
        cases answer with
        | error h =>
          cases h with
          | thrown id =>
            dsimp only
            cases f'.catching? plan.program id (thrownClass world' id) with
            | some caught => rfl
            | none => cases catcher? plan.program id (thrownClass world' id) callers <;> rfl
          | _ => rfl
        | ok o =>
          cases o with
          | next pc => rfl
          | finish v => cases callers <;> rfl
          | enter r args returns =>
            dsimp only
            cases plan.enter r args f'.active <;> rfl

/-! ## Instructions that complete -/

/-- The progress with which the instruction that a frame has reached is run. -/
def charged (plan : Plan) (f : Frame) (ins : Instruction) (p : Progress) : Progress :=
  plan.note f ins { p with steps := p.steps + 1 }

@[simp] theorem charged_world (plan : Plan) (f : Frame) (ins : Instruction) (p : Progress) :
    (plan.charged f ins p).world = p.world := by
  unfold charged note
  split <;> rfl

@[simp] theorem charged_steps (plan : Plan) (f : Frame) (ins : Instruction) (p : Progress) :
    (plan.charged f ins p).steps = p.steps + 1 := by
  unfold charged note
  split <;> rfl

/-- Whether a run is cancelled at its next instruction. -/
def isDue (plan : Plan) (s : State) : Bool :=
  plan.cancelled && (s.progress.steps + 1) % interval = 0

/-- The state behind an instruction that went on at `pc`. -/
def after (plan : Plan) (s : State) (ins : Instruction) (pc : Int) (f : Frame) (w : World) : State :=
  ⟨{ f with pc }, s.callers, { plan.charged s.frame ins s.progress with world := w }⟩

/-- An instruction completes: the method goes on behind it.  It does not throw, and it
neither enters a method nor leaves this one. -/
structure Completes (plan : Plan) (s : State) (ins : Instruction) (s' : State) : Prop where
  fetched : fetch s.frame = .ok ins
  run : ∃ pc f w, Step.run ins (plan.setting s.frame) s.frame s.progress.world =
    ((.ok (.next pc), f), w)
  step : plan.step s = .ok s'

/-- Instructions complete one after another. -/
def Passes (plan : Plan) : List Instruction → State → State → Prop
  | [], s, s' => s' = s
  | ins :: rest, s, s'' => ∃ s', plan.Completes s ins s' ∧ plan.Passes rest s' s''

theorem completes_iff {ins : Instruction} :
    plan.Completes s ins s' ↔ isOutside s.frame = false ∧ plan.isDue s = false ∧
      fetch s.frame = .ok ins ∧ ∃ pc f w,
        Step.run ins (plan.setting s.frame) s.frame s.progress.world = ((.ok (.next pc), f), w) ∧
        s' = plan.after s ins pc f w := by
  have hstep : isOutside s.frame = false → plan.isDue s = false → fetch s.frame = .ok ins →
      ∀ {pc f w}, Step.run ins (plan.setting s.frame) s.frame s.progress.world =
        ((.ok (.next pc), f), w) → plan.step s = .ok (plan.after s ins pc f w) := by
    intro hinside hdue hfetch pc f w hrun
    have hworld := plan.charged_world s.frame ins s.progress
    unfold isDue at hdue
    unfold charged at hworld
    unfold step perform
    simp only [hinside, Bool.false_eq_true, if_false, hdue, hfetch, hworld, hrun]
    rfl
  constructor
  · intro h
    obtain ⟨hfetch, ⟨pc, f, w, hrun⟩, hok⟩ := h
    have hinside : isOutside s.frame = false := by
      cases houtside : isOutside s.frame with
      | false => rfl
      | true => simp [step, houtside] at hok
    have hdue : plan.isDue s = false := by
      cases hdue : plan.isDue s with
      | false => rfl
      | true =>
        unfold isDue at hdue
        simp only [step, hinside, Bool.false_eq_true, if_false, hdue, if_true, reduceCtorEq] at hok
    have hafter := hok.symm.trans (hstep hinside hdue hfetch hrun)
    exact ⟨hinside, hdue, hfetch, pc, f, w, hrun, Except.ok.inj hafter⟩
  · intro h
    obtain ⟨hinside, hdue, hfetch, pc, f, w, hrun, rfl⟩ := h
    exact ⟨hfetch, ⟨pc, f, w, hrun⟩, hstep hinside hdue hfetch hrun⟩

/-- What an instruction that completes leaves behind. -/
theorem Completes.frame {ins : Instruction} (h : plan.Completes s ins s') :
    ∃ pc f, Step.run ins (plan.setting s.frame) s.frame s.progress.world =
      ((.ok (.next pc), f), s'.progress.world) ∧ s'.frame = { f with pc } ∧
      s'.callers = s.callers ∧ s'.progress.steps = s.progress.steps + 1 := by
  obtain ⟨-, -, -, pc, f, w, hrun, rfl⟩ := completes_iff.1 h
  exact ⟨pc, f, hrun, rfl, rfl, charged_steps ..⟩

theorem Passes.goesOn {window : List Instruction} (h : plan.Passes window s s') :
    plan.GoesOn window.length s s' := by
  induction window generalizing s with
  | nil =>
    obtain rfl : s' = s := h
    exact fun _ => rfl
  | cons ins rest ih =>
    obtain ⟨s₁, hfirst, hrest⟩ := h
    intro budget
    rw [List.length_cons, ← Nat.add_assoc, execute_succ, hfirst.step]
    exact ih hrest budget

theorem passes_append {front back : List Instruction} :
    plan.Passes (front ++ back) s s'' ↔ ∃ s', plan.Passes front s s' ∧ plan.Passes back s' s'' := by
  induction front generalizing s with
  | nil => simp [Passes]
  | cons ins front ih =>
    simp only [List.cons_append, Passes, ih]
    constructor
    · rintro ⟨s₁, hfirst, s₂, hfront, hback⟩
      exact ⟨s₂, ⟨s₁, hfirst, hfront⟩, hback⟩
    · rintro ⟨s₂, ⟨s₁, hfirst, hfront⟩, hback⟩
      exact ⟨s₁, hfirst, s₂, hfront, hback⟩

/-- While two instructions pass, a run is not cancelled. -/
theorem Passes.isDue_eq_false {window : List Instruction} (h : plan.Passes window s s')
    (hlength : 2 ≤ window.length) : plan.isDue s = false ∧
      (plan.cancelled && (s.progress.steps + 1 + 1) % interval = 0) = false := by
  obtain _ | ⟨first, _ | ⟨second, rest⟩⟩ := window
  · simp at hlength
  · simp at hlength
  · obtain ⟨s₁, hfirst, s₂, hsecond, -⟩ := h
    obtain ⟨-, -, -, -, -, hsteps⟩ := hfirst.frame
    obtain ⟨-, hdue, -⟩ := completes_iff.1 hfirst
    obtain ⟨-, hdue', -⟩ := completes_iff.1 hsecond
    unfold isDue at hdue'
    rw [hsteps] at hdue'
    exact ⟨hdue, hdue'⟩

/-- Runs instructions as long as they complete. -/
def pass? (plan : Plan) : List Instruction → State → Option State
  | [], s => some s
  | ins :: rest, s =>
    if (fetch s.frame).toOption = some ins then
      match (Step.run ins (plan.setting s.frame) s.frame s.progress.world).1.1, plan.step s with
      | .ok (.next _), .ok s' => plan.pass? rest s'
      | _, _ => none
    else none

theorem passes_of_pass? {window : List Instruction} (h : plan.pass? window s = some s') :
    plan.Passes window s s' := by
  induction window generalizing s with
  | nil => exact (Option.some.inj h).symm
  | cons ins rest ih =>
    unfold pass? at h
    split at h
    · rename_i hfetch
      split at h
      · rename_i pc s₁ hrun hstep
        have hfetched : fetch s.frame = .ok ins := by
          cases hf : fetch s.frame with
          | error e => simp [hf, Except.toOption] at hfetch
          | ok ins' => simpa [hf, Except.toOption] using hfetch
        exact ⟨s₁, ⟨hfetched, ⟨pc, _, _, Prod.ext (Prod.ext hrun rfl) rfl⟩, hstep⟩, ih h⟩
      · cases h
    · cases h

/-! ## Fetching -/

theorem getElem?_decodeEverywhere (total : Nat) (code : Bytes) (offset k : Nat) :
    ((decodeEverywhere total offset code)[k]?).map Thunk.get =
      if k < code.length then
        some (Prod.fst <$> Instruction.read.run ⟨code.drop k, offset + k, total⟩)
      else none := by
  induction code generalizing offset k with
  | nil => rfl
  | cons b rest ih =>
    cases k with
    | zero => rfl
    | succ k =>
      rw [decodeEverywhere, List.getElem?_cons_succ, ih, List.length_cons, List.drop_succ_cons]
      simp only [Nat.add_lt_add_iff_right, Nat.add_assoc, Nat.add_comm 1]

/-- A frame fetches what stands in its code at the offset that it has reached. -/
theorem fetch_eq {cf : ClassFile} {m : Member} {f : Frame} {offset : Nat}
    (hroutine : Routine.of? cf m = some f.routine) (hpc : f.pc = offset)
    (hlt : offset < f.routine.body.bytecode.length) :
    fetch f = Instruction.decodeAt f.routine.body.bytecode offset := by
  obtain ⟨body, hbody, heq⟩ := Option.map_eq_some_iff.1 hroutine
  rw [← heq] at hlt
  have hthunk := getElem?_decodeEverywhere body.bytecode.length body.bytecode 0 offset
  rw [if_pos hlt, Nat.zero_add] at hthunk
  obtain ⟨ins, hins, hget⟩ := Option.map_eq_some_iff.1 hthunk
  have hdecoded : f.routine.decoded[offset]? = some ins := by
    rw [← heq]
    simpa using hins
  unfold fetch
  rw [hpc, if_neg (by omega), Int.toNat_natCast, hdecoded, ← heq]
  exact hget

/-- At the offset of an instruction of its code, a frame fetches that instruction. -/
theorem fetch_of_decodeAll {cf : ClassFile} {m : Member} {f : Frame}
    {instructions : List Instruction} {ins : Instruction}
    (hroutine : Routine.of? cf m = some f.routine)
    (hcode : Instruction.decodeAll f.routine.body.bytecode = .ok instructions)
    (hins : ins ∈ instructions) (hpc : f.pc = ins.offset) :
    isOutside f = false ∧ fetch f = .ok ins := by
  have htiles := Instruction.decodeAll_ok.1 hcode
  have hlt := htiles.consecutive.lt ins hins
  rw [Nat.zero_add] at hlt
  refine ⟨?_, ?_⟩
  · obtain ⟨body, hbody, heq⟩ := Option.map_eq_some_iff.1 hroutine
    have hlength : f.routine.length = f.routine.body.bytecode.length := by rw [← heq]
    unfold isOutside
    rw [hpc, hlength]
    simp
    omega
  · rw [fetch_eq hroutine hpc hlt]
    exact @Instruction.Tiles.decodeAt instructions [] _ htiles ins hins

end Plan

end Cleartext.Machine
