import Cleartext.Proofs.Memory.Sharing

/-!
# The slots of an operand stack

A stack keeps a long or a double as one value, but the instructions of the operand stack
count in slots, of which such a value fills two.  `Stack.slots` is the stack as they see it.

* `Stack.takeSlots_ok`: splitting off some slots divides a stack into two.
* `Stack.parts_iff`: it can be divided below `n` slots just if there are so many, and the
  boundary goes through no value.
* `Shuffle.change_spec`: what the instructions do with slots, and when.
* `shuffle_slots`: a frame goes on with the slots that the instruction makes of its stack, or
  the run is over.
-/

namespace Cleartext.Machine

/-- A slot of an operand stack.  A wide value fills two of them, the upper one first. -/
inductive Slot
  | whole (v : Value)
  | upper (v : Value)
  | lower (v : Value)
deriving DecidableEq, Repr

/-- The slots that a value fills. -/
def Value.slots (v : Value) : List Slot := if v.isWide then [.upper v, .lower v] else [.whole v]

namespace Stack

variable {n : Nat} {v : Value} {stack stack' top below rest : Stack} {misuse : Misuse}

/-- The slots of a stack, the topmost first. -/
def slots (stack : Stack) : List Slot := stack.flatMap Value.slots

@[simp] theorem slots_nil : slots [] = [] := rfl

theorem slots_cons (v : Value) (rest : Stack) : slots (v :: rest) = v.slots ++ slots rest := rfl

theorem slots_wide (h : v.isWide = true) :
    slots (v :: rest) = .upper v :: .lower v :: slots rest := by
  rw [slots_cons, Value.slots, if_pos h]
  rfl

theorem slots_narrow (h : v.isWide = false) : slots (v :: rest) = .whole v :: slots rest := by
  rw [slots_cons, Value.slots, h]
  rfl

@[simp] theorem slots_append (top below : Stack) :
    slots (top ++ below) = slots top ++ slots below :=
  List.flatMap_append

/-- A stack can be divided below its topmost `n` slots: there are so many, and the boundary
goes through no value. -/
structure Parts (stack : Stack) (n : Nat) : Prop where
  le : n ≤ stack.slots.length
  whole : ∀ v, stack.slots[n]? ≠ some (.lower v)

/-- A boundary that no value lies on divides the values of a stack. -/
theorem parts_iff : stack.Parts n ↔ ∃ top below, stack = top ++ below ∧ (slots top).length = n := by
  constructor
  · intro h
    induction stack generalizing n with
    | nil =>
      have hle := h.le
      simp at hle
      exact ⟨[], [], rfl, hle.symm⟩
    | cons v rest ih =>
      obtain ⟨hle, hwhole⟩ := h
      cases n with
      | zero => exact ⟨[], v :: rest, rfl, rfl⟩
      | succ n =>
        cases hwide : v.isWide with
        | false =>
          rw [slots_narrow hwide] at hle hwhole
          obtain ⟨top, below, rfl, hlength⟩ := ih ⟨Nat.le_of_succ_le_succ hle, hwhole⟩
          refine ⟨v :: top, below, rfl, ?_⟩
          rw [slots_narrow hwide, List.length_cons, hlength]
        | true =>
          rw [slots_wide hwide] at hle hwhole
          cases n with
          | zero => exact absurd rfl (hwhole v)
          | succ n =>
            obtain ⟨top, below, rfl, hlength⟩ :=
              ih ⟨Nat.le_of_succ_le_succ (Nat.le_of_succ_le_succ hle), hwhole⟩
            refine ⟨v :: top, below, rfl, ?_⟩
            rw [slots_wide hwide, List.length_cons, List.length_cons, hlength]
  · rintro ⟨top, below, rfl, rfl⟩
    refine ⟨by simp, fun v h => ?_⟩
    -- The slot below the boundary is the first of a value.
    rw [slots_append, List.getElem?_append_right (Nat.le_refl _), Nat.sub_self] at h
    cases below with
    | nil => cases h
    | cons u below =>
      cases hwide : u.isWide with
      | false =>
        rw [slots_narrow hwide] at h
        cases h
      | true =>
        rw [slots_wide hwide] at h
        cases h

theorem slots_eq_nil : slots stack = [] ↔ stack = [] := by
  cases stack with
  | nil => simp
  | cons v rest => cases hwide : v.isWide <;> simp [slots_wide, slots_narrow, hwide]

theorem takeSlots_append (top below : Stack) :
    takeSlots (slots top).length (top ++ below) = .ok (top, below) := by
  induction top with
  | nil => cases below <;> rfl
  | cons v top ih =>
    cases hwide : v.isWide with
    | true =>
      rw [slots_wide hwide, List.length_cons, List.length_cons, List.cons_append, takeSlots, hwide,
        if_pos rfl, ih]
      rfl
    | false =>
      rw [slots_narrow hwide, List.length_cons, List.cons_append]
      -- The last slot is split off without looking below it.
      cases hlength : (slots top).length with
      | zero =>
        obtain rfl := slots_eq_nil.1 (List.eq_nil_of_length_eq_zero hlength)
        rw [takeSlots, hwide, if_neg Bool.false_ne_true]
        rfl
      | succ n =>
        rw [takeSlots, hwide, if_neg Bool.false_ne_true, ← hlength, ih]
        rfl

/-- Splitting off slots divides a stack into two. -/
theorem takeSlots_ok :
    takeSlots n stack = .ok (top, below) ↔ stack = top ++ below ∧ (slots top).length = n := by
  constructor
  · intro h
    fun_induction takeSlots n stack generalizing top with
    | case1 stack =>
      obtain ⟨rfl, rfl⟩ := Prod.mk.inj (Except.ok.inj h)
      exact ⟨rfl, rfl⟩
    | case2 => cases h
    | case3 => cases h
    | case4 v rest hnarrow =>
      obtain ⟨rfl, rfl⟩ := Prod.mk.inj (Except.ok.inj h)
      refine ⟨rfl, ?_⟩
      rw [slots_narrow (Bool.eq_false_iff.2 hnarrow)]
      rfl
    | case5 n v rest ih =>
      cases htail : takeSlots (if v.isWide then n else n + 1) rest with
      | error m =>
        rw [htail] at h
        cases h
      | ok taken =>
        obtain ⟨tail, below'⟩ := taken
        rw [htail] at h
        obtain ⟨rfl, rfl⟩ := Prod.mk.inj (Except.ok.inj h)
        obtain ⟨rfl, hlength⟩ := ih htail
        refine ⟨rfl, ?_⟩
        cases hwide : v.isWide with
        | true => simp [slots_wide hwide, hlength, hwide]
        | false => simp [slots_narrow hwide, hlength, hwide]
  · rintro ⟨rfl, rfl⟩
    exact takeSlots_append top below

theorem parts_append {top below : Stack} :
    (top ++ below).Parts ((slots top).length + n) ↔ below.Parts n := by
  have hlength : (slots (top ++ below)).length = (slots top).length + (slots below).length := by
    simp
  have hget : (slots (top ++ below))[(slots top).length + n]? = (slots below)[n]? := by
    rw [slots_append, List.getElem?_append_right (Nat.le_add_right ..), Nat.add_sub_cancel_left]
  constructor
  · rintro ⟨hle, hwhole⟩
    rw [hget] at hwhole
    exact ⟨by omega, hwhole⟩
  · rintro ⟨hle, hwhole⟩
    refine ⟨by omega, ?_⟩
    rw [hget]
    exact hwhole

/-- Splitting off slots fails because there are too few, or else because a value is in the
way. -/
theorem takeSlots_error (h : takeSlots n stack = .error misuse) :
    ¬ stack.Parts n ∧ (misuse = .underflow ∨ misuse = .splitPair) := by
  refine ⟨fun hparts => ?_, ?_⟩
  · obtain ⟨top, below, hdivided⟩ := parts_iff.1 hparts
    cases h.symm.trans (takeSlots_ok.2 hdivided)
  · fun_induction takeSlots n stack with
    | case1 => cases h
    | case2 => exact .inl (Except.error.inj h).symm
    | case3 => exact .inr (Except.error.inj h).symm
    | case4 => cases h
    | case5 n v rest ih =>
      cases hrest : takeSlots (if v.isWide then n else n + 1) rest with
      | error m =>
        rw [hrest] at h
        exact ih (hrest.trans h)
      | ok taken =>
        rw [hrest] at h
        cases h

end Stack

/-! ## The instructions of the operand stack -/

/-- What an instruction of the operand stack does with slots: it drops the topmost ones, or it
puts a copy of them below the next ones. -/
inductive Shuffle
  | drop (count : Nat)
  | dup (copied skipped : Nat)
deriving DecidableEq, Repr

namespace Shuffle

variable {shuffle : Shuffle} {stack stack' : Stack} {misuse : Misuse}

/-- The instructions that work on slots. -/
def of? : Opcode → Option Shuffle
  | .pop => some (drop 1)
  | .pop2 => some (drop 2)
  | .dup => some (dup 1 0)
  | .dupX1 => some (dup 1 1)
  | .dupX2 => some (dup 1 2)
  | .dup2 => some (dup 2 0)
  | .dup2X1 => some (dup 2 1)
  | .dup2X2 => some (dup 2 2)
  | _ => none

/-- The boundaries at which the slots are taken apart, as the number of slots above them. -/
def boundaries : Shuffle → List Nat
  | drop count => [count]
  | dup copied skipped => [copied, copied + skipped]

/-- What becomes of the slots of a stack. -/
def applied (slots : List Slot) : Shuffle → List Slot
  | drop count => slots.drop count
  | dup copied skipped =>
    slots.take (copied + skipped) ++ slots.take copied ++ slots.drop (copied + skipped)

/-- What the machine does with the values of a stack. -/
def change : Shuffle → Stack → Except Misuse Stack
  | drop count => Stack.drop count
  | dup copied skipped => Stack.dup copied skipped

/-- A stack can be divided at every boundary. -/
def Fits (shuffle : Shuffle) (stack : Stack) : Prop := ∀ n ∈ shuffle.boundaries, stack.Parts n

theorem drop_spec (count : Nat) (stack : Stack) :
    match Stack.drop count stack with
    | .ok stack' => (drop count).Fits stack ∧ stack'.slots = (drop count).applied stack.slots
    | .error misuse => ¬ (drop count).Fits stack ∧ (misuse = .underflow ∨ misuse = .splitPair) := by
  unfold Stack.drop
  cases htake : Stack.takeSlots count stack with
  | error misuse =>
    obtain ⟨hparts, hmisuse⟩ := Stack.takeSlots_error htake
    exact ⟨fun hfits => hparts (hfits count List.mem_cons_self), hmisuse⟩
  | ok divided =>
    obtain ⟨top, below⟩ := divided
    have hdivided := Stack.takeSlots_ok.1 htake
    refine ⟨?_, ?_⟩
    · intro n hn
      obtain rfl := List.mem_singleton.1 hn
      exact Stack.parts_iff.2 ⟨top, below, hdivided⟩
    · obtain ⟨rfl, rfl⟩ := hdivided
      show Stack.slots below = _
      simp [applied]

theorem dup_spec (copied skipped : Nat) (stack : Stack) :
    match Stack.dup copied skipped stack with
    | .ok stack' =>
      (dup copied skipped).Fits stack ∧ stack'.slots = (dup copied skipped).applied stack.slots
    | .error misuse =>
      ¬ (dup copied skipped).Fits stack ∧ (misuse = .underflow ∨ misuse = .splitPair) := by
  unfold Stack.dup
  cases htop : Stack.takeSlots copied stack with
  | error misuse =>
    obtain ⟨hparts, hmisuse⟩ := Stack.takeSlots_error htop
    exact ⟨fun hfits => hparts (hfits copied (by simp [boundaries])), hmisuse⟩
  | ok divided =>
    obtain ⟨top, below⟩ := divided
    obtain ⟨rfl, rfl⟩ := Stack.takeSlots_ok.1 htop
    dsimp only [bind, Except.bind]
    cases hmiddle : Stack.takeSlots skipped below with
    | error misuse =>
      obtain ⟨hparts, hmisuse⟩ := Stack.takeSlots_error hmiddle
      refine ⟨fun hfits => hparts ?_, hmisuse⟩
      exact Stack.parts_append.1 (hfits _ (by simp [boundaries]))
    | ok divided =>
      obtain ⟨middle, rest⟩ := divided
      obtain ⟨rfl, rfl⟩ := Stack.takeSlots_ok.1 hmiddle
      refine ⟨?_, ?_⟩
      · intro n hn
        have hbelow : (middle ++ rest).Parts middle.slots.length :=
          Stack.parts_iff.2 ⟨middle, rest, rfl, rfl⟩
        rcases List.mem_pair.1 hn with rfl | rfl
        · exact Stack.parts_iff.2 ⟨top, _, rfl, rfl⟩
        · exact Stack.parts_append.2 hbelow
      · show Stack.slots (top ++ middle ++ top ++ rest) = _
        have htop : top.slots.take (top.slots.length + middle.slots.length) = top.slots :=
          List.take_of_length_le (Nat.le_add_right ..)
        simp [applied, List.take_append, List.drop_append, htop]

/-- A change of the stack succeeds just if the stack can be divided at the boundaries, and then
it does to the slots what the instruction says. -/
theorem change_spec (shuffle : Shuffle) (stack : Stack) :
    match shuffle.change stack with
    | .ok stack' => shuffle.Fits stack ∧ stack'.slots = shuffle.applied stack.slots
    | .error misuse => ¬ shuffle.Fits stack ∧ (misuse = .underflow ∨ misuse = .splitPair) := by
  cases shuffle with
  | drop count => exact drop_spec count stack
  | dup copied skipped => exact dup_spec copied skipped stack

end Shuffle

namespace Step

variable {σ : Setting} {F : Frame} {w : World} {ins : Instruction} {shuffle : Shuffle}

theorem reshape_eq (change : Stack → Except Misuse Stack) (σ : Setting) (F : Frame) (w : World) :
    reshape change σ F w =
      match change F.stack with
      | .ok stack => ((.ok (), { F with stack }), w)
      | .error misuse => ((.error (.collapse (.verification F.pc misuse)), F), w) := by
  have hframe : (getThe Frame : Step Frame) σ F w = ((.ok F, F), w) := rfl
  unfold reshape
  rw [step_bind_eq, hframe]
  dsimp only
  cases change F.stack <;> rfl

theorem run_shuffle (h : Shuffle.of? ins.op = some shuffle) :
    run ins = (do reshape shuffle.change; return .next ins.next) := by
  obtain ⟨op, operand, wide, offset⟩ := ins
  dsimp only at h
  unfold Shuffle.of? at h
  split at h
  all_goals cases h
  all_goals rfl

/-- A stack that fits goes over to one with the slots that the instruction makes of it; one that
does not fit collapses, and the frame stays as it is. -/
theorem run_slots (h : Shuffle.of? ins.op = some shuffle) (F : Frame) :
    shuffle.Fits F.stack ∧ (∃ stack, stack.slots = shuffle.applied F.stack.slots ∧
        ∀ σ w, run ins σ F w = ((.ok (.next ins.next), { F with stack }), w)) ∨
      ¬ shuffle.Fits F.stack ∧ ∃ misuse, (misuse = .underflow ∨ misuse = .splitPair) ∧
        ∀ σ w, run ins σ F w = ((.error (.collapse (.verification F.pc misuse)), F), w) := by
  have hspec := shuffle.change_spec F.stack
  have hrun (σ : Setting) (w : World) : run ins σ F w =
      match shuffle.change F.stack with
      | .ok stack => ((.ok (.next ins.next), { F with stack }), w)
      | .error misuse => ((.error (.collapse (.verification F.pc misuse)), F), w) := by
    rw [run_shuffle h, step_bind_eq, reshape_eq]
    cases shuffle.change F.stack <;> rfl
  cases hchange : shuffle.change F.stack with
  | ok stack =>
    rw [hchange] at hspec
    refine .inl ⟨hspec.1, stack, hspec.2, fun σ w => ?_⟩
    rw [hrun, hchange]
  | error misuse =>
    rw [hchange] at hspec
    refine .inr ⟨hspec.1, misuse, hspec.2, fun σ w => ?_⟩
    rw [hrun, hchange]

end Step

/-- A pair of ints is copied below a long, and a long below a pair of ints. -/
example : Stack.dup 2 2 [.int 1, .int 2, .long 3] = .ok [.int 1, .int 2, .long 3, .int 1, .int 2] ∧
    Stack.dup 2 2 [.long 3, .int 1, .int 2] = .ok [.long 3, .int 1, .int 2, .long 3] := ⟨rfl, rfl⟩

/-! ## Runs that collapse -/

namespace Plan

variable {plan : Plan} {f g : Frame} {r : Routine} {args : List Value} {m m' k : Moment}
  {events : List Event} {answer : Except Halt Value} {lack : Lack} {q : Progress}

/-- A round that collapses ends the run: nothing can catch it. -/
theorem Runs.collapse (h : plan.Runs f m events answer m') (hmem : .round g k ∈ events)
    (hround : plan.advanceAlone g k.progress = .error (.error (.collapse lack), q)) :
    answer = .error (.collapse lack) := by
  induction h with
  | done hlast =>
    cases List.mem_singleton.1 hmem
    exact (Prod.mk.inj (Except.error.inj (hlast.symm.trans hround))).1
  | next hfirst _ ih =>
    cases hmem with
    | head => cases hfirst.symm.trans hround
    | tail _ hmem => exact ih hmem
  | called hfirst _ hon _ ihcall ih =>
    rcases List.mem_append.1 hmem with hcall | hmem
    · cases hcall with
      | head => cases hfirst.symm.trans hround
      | tail _ hcall =>
        rw [ihcall hcall] at hon
        cases hon
    · cases hmem with
      | tail _ hmem => exact ih hmem
  | passed hfirst _ _ ihcall =>
    rcases List.mem_append.1 hmem with hcall | hmem
    · cases hcall with
      | head => cases hfirst.symm.trans hround
      | tail _ hcall => exact ihcall hcall
    · cases List.mem_singleton.1 hmem

theorem Calls.collapse (h : plan.Calls r args m events answer m') (hmem : .round g k ∈ events)
    (hround : plan.advanceAlone g k.progress = .error (.error (.collapse lack), q)) :
    answer = .error (.collapse lack) := by
  cases h with
  | refused => cases hmem
  | ran _ hruns =>
    rcases List.mem_append.1 hmem with hmem | hmem
    · exact hruns.collapse hmem hround
    · cases List.mem_singleton.1 hmem

theorem CallsInitialized.collapse (h : plan.CallsInitialized r args m events answer m')
    (hmem : .round g k ∈ events)
    (hround : plan.advanceAlone g k.progress = .error (.error (.collapse lack), q)) :
    answer = .error (.collapse lack) := by
  cases h with
  | plain _ hcall => exact hcall.collapse hmem hround
  | failed _ hcall => exact hcall.collapse hmem hround
  | initialized _ hfirst hcall =>
    rcases List.mem_append.1 hmem with hmem | hmem
    · cases hfirst.collapse hmem hround
    · exact hcall.collapse hmem hround

/-- A round whose instruction collapses. -/
theorem advanceAlone_collapse {p : Progress} {ins : Instruction} {w : World}
    (h : plan.executed? f p = some ins)
    (hrun : Step.run ins (plan.setting f) f p.world = ((.error (.collapse lack), g), w)) :
    ∃ q, plan.advanceAlone f p = .error (.error (.collapse lack), q) := by
  obtain ⟨hexecutes, hfetch⟩ := executed?_eq_some.1 h
  obtain ⟨ins', hfetch', hadvance⟩ := advanceAlone_perform hexecutes
  obtain rfl := Except.ok.inj (hfetch.symm.trans hfetch')
  rw [hadvance]
  unfold perform
  dsimp only
  rw [charged_world, hrun]
  exact ⟨_, rfl⟩

end Plan

namespace Emulation

variable {em : Emulation} {name descriptor : String} {args : Run (List Value)} {cancelled : Bool}
  {events : List Event} {answer : Except Halt Value} {m m' : Moment} {F : Frame}
  {ins : Instruction} {shuffle : Shuffle} {lack : Lack}

/-- The invocation fails with something that the machine cannot run. -/
def Collapses (em : Emulation) (name descriptor : String) (args : Run (List Value))
    (cancelled : Bool) (lack : Lack) : Prop :=
  ∃ method pc, (em.invoke name descriptor args cancelled).1 =
    .error (.fault em.program.name method pc "" (.unsupported lack))

theorem Invoked.collapses (h : em.Invoked name descriptor args cancelled events answer m')
    (hmem : .round F m ∈ events) {q : Progress}
    (hround : (em.plan cancelled).advanceAlone F m.progress = .error (.error (.collapse lack), q)) :
    em.Collapses name descriptor args cancelled lack := by
  have hinvoke := h.invoke_eq.1
  obtain ⟨-, r, -, -, hcalls⟩ := h
  rw [hcalls.collapse hmem hround] at hinvoke
  exact ⟨_, _, hinvoke⟩

/-- An instruction that works on slots succeeds just if there are as many as it takes and no
value lies on a boundary at which it takes them apart.  It then drops the topmost slots or puts a
copy of them below the next ones, and otherwise the invocation fails. -/
theorem shuffle_slots (h : Shuffle.of? ins.op = some shuffle) (F : Frame) :
    shuffle.Fits F.stack ∧ (∃ stack, stack.slots = shuffle.applied F.stack.slots ∧
        ∀ σ w, Step.run ins σ F w = ((.ok (.next ins.next), { F with stack }), w)) ∨
      ¬ shuffle.Fits F.stack ∧ ∃ misuse, (misuse = .underflow ∨ misuse = .splitPair) ∧
        (∀ σ w, Step.run ins σ F w = ((.error (.collapse (.verification F.pc misuse)), F), w)) ∧
        ∀ (em : Emulation) name descriptor args cancelled events answer m' m,
          em.Invoked name descriptor args cancelled events answer m' →
          .round F m ∈ events → (em.plan cancelled).executed? F m.progress = some ins →
          em.Collapses name descriptor args cancelled (.verification F.pc misuse) := by
  rcases Step.run_slots h F with hok | ⟨hfits, misuse, hmisuse, hrun⟩
  · exact .inl hok
  · refine .inr ⟨hfits, misuse, hmisuse, hrun, ?_⟩
    intro em name descriptor args cancelled events answer m' m hinvoked hmem hexecuted
    obtain ⟨q, hround⟩ := Plan.advanceAlone_collapse hexecuted (hrun _ _)
    exact hinvoked.collapses hmem hround

end Emulation

/-! ## A long that is split -/

/-- The code of a method that copies one slot of a long. -/
def splittingBody : MethodBody := ⟨2, 0, [0x09, 0x59, 0xb1], [], []⟩

/-- A class with the method `f`, which copies one slot of a long. -/
def splitting : ClassFile where
  minor := 0
  major := 52
  pool := Pool.ofSlots [none, some (.utf8 [65]), some (.class_ 1), some (.utf8 [102]),
    some (.utf8 [40, 41, 86]), some (.utf8 [67, 111, 100, 101])]
  access := 0x21
  thisClass := 2
  superClass := 0
  interfaces := []
  fields := []
  methods := [⟨9, 3, 4, [.code 5 "Code" splittingBody]⟩]
  attributes := []

/-- The class `splitting`, loaded. -/
def splittingRun : Emulation := { program := Program.of splitting, config := {} }

/-- The method `f` at an offset. -/
def splittingFrame (pc : Int) (stack : Stack) : Frame where
  routine := ⟨"f", "()V", true, splittingBody, 3,
    (decodeEverywhere 3 0 splittingBody.bytecode).toArray⟩
  locals := #[.null]
  stack := stack
  pc := pc
  active := ["f"]

/-- In an invocation of `f`, the instruction that copies a slot is reached with a long on the
stack. -/
theorem exists_splitting_round : ∃ events answer m m',
    splittingRun.Invoked "f" "()V" (pure []) false events answer m' ∧
      .round (splittingFrame 1 [.long 0]) m ∈ events ∧
      (splittingRun.plan false).executed? (splittingFrame 1 [.long 0]) m.progress =
        some ⟨.dup, .none, false, 1⟩ := by
  have first : (splittingRun.plan false).advanceAlone (splittingFrame 0 []) {} =
      .ok ⟨splittingFrame 1 [.long 0], [], { steps := 1 }⟩ := rfl
  have last : (splittingRun.plan false).advanceAlone (splittingFrame 1 [.long 0]) { steps := 1 } =
      .error (.error (.collapse (.verification 1 .splitPair)), { steps := 2 }) := rfl
  have hcall : (splittingRun.plan false).Calls (splittingFrame 0 []).routine [] ⟨[], {}⟩ _ _ _ :=
    .ran rfl (.next first (.done last))
  refine ⟨_, _, ⟨["f"], { steps := 1 }⟩, _, ⟨rfl, _, rfl, rfl, .plain rfl hcall⟩, ?_, rfl⟩
  exact List.mem_append_left _ (List.mem_cons_of_mem _ List.mem_cons_self)

theorem Emulation.shuffle_slots_splitting : Shuffle.of? .dup = some (.dup 1 0) ∧
    ¬ (Shuffle.dup 1 0).Fits [.long 0] ∧
      splittingRun.Collapses "f" "()V" (pure []) false (.verification 1 .splitPair) := by
  have hop : Shuffle.of? (Instruction.op ⟨.dup, .none, false, 1⟩) = some (.dup 1 0) := rfl
  obtain ⟨events, answer, m, m', hinvoked, hmem, hexecuted⟩ := exists_splitting_round
  rcases shuffle_slots hop (splittingFrame 1 [.long 0]) with
    ⟨hfits, -⟩ | ⟨hfits, misuse, -, hrun, hcollapses⟩
  · have hparts := hfits 1 (by simp [Shuffle.boundaries])
    exact absurd rfl (hparts.whole (.long 0))
  · have hsplit : Step.run ⟨.dup, .none, false, 1⟩ ((splittingRun.plan false).setting
        (splittingFrame 1 [.long 0])) (splittingFrame 1 [.long 0]) {} =
          ((.error (.collapse (.verification 1 .splitPair)), splittingFrame 1 [.long 0]), {}) := rfl
    cases (hrun _ _).symm.trans hsplit
    exact ⟨rfl, hfits, hcollapses _ _ _ _ _ _ _ _ _ hinvoked hmem hexecuted⟩

end Cleartext.Machine
