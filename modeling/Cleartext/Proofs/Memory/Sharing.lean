import Cleartext.Proofs.Memory.Requests
import Cleartext.Proofs.Text.Utf16

/-!
# Shared strings

Two requests for the shared string of some units may have one answer or two.  The table of
shared strings goes by their text, in which unpaired surrogates all read alike.  So a request
for other units of the same text takes the place of a string, which is not shared from then
on.

* `World.Requests.lookup_iff`: which requests leave a string its place in the table.
* `Plan.Linked.requests`: the rounds of a run ask for strings, one after another.
* `Emulation.shared_eq_iff`: when two requests in an invocation have the same answer.
-/

namespace Cleartext.Machine

/-! ## The table of shared strings -/

namespace World

variable {id : Nat} {w w' : World} {u v : Units} {us : List Units}

theorem shared?_iff :
    w.shared? u = some id ↔
      w.interned.lookup u.text = some id ∧ w.heap[id]? = some (.string u) := by
  constructor
  · intro h
    refine ⟨?_, shared?_eq_some h⟩
    obtain ⟨id', hlookup, hfound⟩ := Option.bind_eq_some_iff.1 h
    split at hfound
    · obtain ⟨-, heq⟩ := Option.ite_none_right_eq_some.1 hfound
      rwa [← Option.some.inj heq]
    · cases hfound
  · rintro ⟨hlookup, hstring⟩
    refine Option.bind_eq_some_iff.2 ⟨id, hlookup, ?_⟩
    rw [hstring]
    exact if_pos rfl

/-- The string that a request is answered with, and its place in the table. -/
theorem withShared_sharing (w : World) (u : Units) :
    (w.withShared u).shared? u = some (w.sharing u) := by
  rw [shared?_iff]
  unfold withShared sharing
  cases hshared : w.shared? u with
  | some id => exact shared?_iff.1 hshared
  | none =>
    refine ⟨?_, ?_⟩
    · dsimp only
      rw [lookup_cons, if_pos rfl]
      rfl
    · simp

theorem withShared_string (hid : w.heap[id]? = some (.string u)) :
    (w.withShared v).heap[id]? = some (.string u) := by
  unfold withShared
  cases w.shared? v with
  | some _ => exact hid
  | none => exact getElem?_push hid

/-- A request for a text leaves the strings of other texts where they are in the table. -/
theorem withShared_lookup {text : String} (h : text ≠ v.text) :
    (w.withShared v).interned.lookup text = w.interned.lookup text := by
  unfold withShared
  cases w.shared? v with
  | some _ => rfl
  | none =>
    dsimp only
    rw [lookup_cons, if_neg h, lookup_filter h]

/-- A request is answered with a string that is there if it is for its units, and the string
has its place in the table. -/
theorem sharing_eq_iff (hid : w.heap[id]? = some (.string u)) :
    w.sharing v = id ↔ u = v ∧ w.interned.lookup v.text = some id := by
  unfold sharing
  cases hshared : w.shared? v with
  | some id' =>
    obtain ⟨hlookup, hstring⟩ := shared?_iff.1 hshared
    rw [Option.getD_some, hlookup]
    constructor
    · rintro rfl
      rw [hid] at hstring
      cases hstring
      exact ⟨rfl, rfl⟩
    · rintro ⟨-, heq⟩
      exact Option.some.inj heq
  | none =>
    have hlt : id < w.heap.size := (Array.getElem?_eq_some_iff.1 hid).1
    rw [Option.getD_none]
    constructor
    · intro heq
      exact absurd heq (Nat.ne_of_gt hlt)
    · rintro ⟨rfl, hlookup⟩
      cases hshared.symm.trans (shared?_iff.2 ⟨hlookup, hid⟩)

/-- A request leaves a string its place in the table, unless it is for other units of the same
text. -/
theorem withShared_lookup_iff (hid : w.heap[id]? = some (.string u)) :
    (w.withShared v).interned.lookup u.text = some id ↔
      w.interned.lookup u.text = some id ∧ (v.text = u.text → v = u) := by
  by_cases htext : v.text = u.text
  · -- The place is that of the answer now, which is the string or another one.
    have hplace := (shared?_iff.1 (w.withShared_sharing v)).1
    rw [htext] at hplace
    rw [hplace, Option.some.injEq, sharing_eq_iff hid, htext]
    simp only [forall_const, eq_comm, and_comm]
  · rw [withShared_lookup (Ne.symm htext)]
    simp only [htext, false_imp_iff, and_true]

namespace Requests

theorem string (h : w.Requests id us w') (hid : w.heap[id]? = some (.string u)) :
    w'.heap[id]? = some (.string u) := by
  induction h with
  | keep h => exact h.string u hid
  | ask h _ ih => exact ih (withShared_string (h.string u hid))

/-- Requests leave a string its place in the table, if none is for other units of the same
text.  Once it is lost, the place is lost for good. -/
theorem lookup_iff (h : w.Requests id us w') (hid : w.heap[id]? = some (.string u)) :
    w'.interned.lookup u.text = some id ↔
      w.interned.lookup u.text = some id ∧ ∀ v ∈ us, v.text = u.text → v = u := by
  induction h with
  | keep h =>
    rw [h.interned]
    simp
  | ask h _ ih =>
    have hid' := h.string u hid
    rw [ih (withShared_string hid'), withShared_lookup_iff hid', h.interned, List.forall_mem_cons,
      and_assoc]

/-- The answers to two requests are the same if both are for the same units, and no request
between them is for other units of the same text. -/
theorem sharing_eq_iff {u₁ u₂ : Units}
    (h : (w.withShared u₁).Requests (w.sharing u₁) us w') :
    w.sharing u₁ = w'.sharing u₂ ↔ u₁ = u₂ ∧ ∀ v ∈ us, v.text = u₁.text → v = u₁ := by
  -- The first answer is in its place at once, so what counts is whether it is there still.
  obtain ⟨hplace, hstring⟩ := shared?_iff.1 (w.withShared_sharing u₁)
  rw [eq_comm, World.sharing_eq_iff (h.string hstring)]
  refine and_congr_right fun heq => ?_
  rw [← heq, h.lookup_iff hstring]
  exact and_iff_right hplace

end Requests

end World

/-! ## Requests in a run -/

namespace Plan

variable {plan : Plan} {id : Nat} {f : Frame} {p : Progress} {u : Units} {w w' : World}
  {events : List Event}

/-- The units of the string that a round asks for. -/
def asks? (plan : Plan) (f : Frame) (p : Progress) : Option Units := do
  Step.asks? (plan.setting f) (← plan.executed? f p) f.stack p.world

/-- The string that a round calls a constructor on. -/
def fills? (plan : Plan) (f : Frame) (p : Progress) : Option Nat := do
  Step.fills? (plan.setting f) (← plan.executed? f p) f.stack p.world

/-- The strings that a round asks for, in order. -/
def requested (plan : Plan) (f : Frame) (p : Progress) : List Units :=
  match plan.executed? f p with
  | some ins => Step.requests (plan.setting f) ins f p.world
  | none => []

/-- The strings that the rounds of a run ask for, in order. -/
def requests (plan : Plan) (events : List Event) : List Units :=
  events.flatMap fun
    | .round f m => plan.requested f m.progress
    | .call .. => []

/-- A round that asks for a string goes on with it on the stack, and the table of shared strings
knows it. -/
theorem advanceAlone_asks (h : plan.asks? f p = some u) :
    plan.Pushes f p (.ref (p.world.sharing u)) ∧
      (reached (plan.advanceAlone f p)).world = p.world.withShared u := by
  obtain ⟨ins, hexecuted, hasks⟩ := Option.bind_eq_some_iff.1 h
  obtain ⟨hexecutes, hfetch⟩ := executed?_eq_some.1 hexecuted
  obtain ⟨rest, hrun⟩ := Step.run_asks hasks
  rw [Pushes, advanceAlone_next hexecutes hfetch hrun]
  exact ⟨⟨_, rest, _, rfl⟩, rfl⟩

/-- A round asks for its strings, and changes none that it does not fill. -/
theorem advanceAlone_requests (hfill : plan.fills? f p ≠ some id) :
    p.world.Requests id (plan.requested f p) (reached (plan.advanceAlone f p)).world := by
  unfold requested
  refine advanceAlone_world (Q := p.world.Requests id _) (fun hnone => ?_) fun ins hexecuted => ?_
  · rw [hnone]
    exact .keep (.refl id _)
  · rw [hexecuted]
    refine Step.run_requests fun hfills => hfill ?_
    rw [fills?, hexecuted]
    exact hfills

/-- Rounds that follow each other ask for their strings one after another. -/
theorem Linked.requests (h : plan.Linked w events w')
    (hfill : ∀ f m, .round f m ∈ events → plan.fills? f m.progress ≠ some id) :
    w.Requests id (plan.requests events) w' := by
  induction h with
  | nil => exact .keep (.refl id _)
  | @round f m events w' _ ih =>
    exact (advanceAlone_requests (hfill f m List.mem_cons_self)).append
      (ih fun g n hmem => hfill g n (List.mem_cons_of_mem _ hmem))
  | call _ ih => exact ih fun g n hmem => hfill g n (List.mem_cons_of_mem _ hmem)

end Plan

namespace Emulation

variable {em : Emulation} {name descriptor : String} {args : Run (List Value)} {cancelled : Bool}
  {before between after : List Event} {answer : Except Halt Value} {m₁ m₂ m' : Moment}
  {f₁ f₂ : Frame} {u₁ u₂ : Units}

/-- What is asked for between two rounds of an invocation, the first of which asks for a string
itself. -/
theorem Invoked.requests
    (h : em.Invoked name descriptor args cancelled
      (before ++ .round f₁ m₁ :: (between ++ .round f₂ m₂ :: after)) answer m')
    (h₁ : (em.plan cancelled).asks? f₁ m₁.progress = some u₁) {id : Nat}
    (hfill : ∀ f m, .round f m ∈ between → (em.plan cancelled).fills? f m.progress ≠ some id) :
    (m₁.progress.world.withShared u₁).Requests id ((em.plan cancelled).requests between)
      m₂.progress.world := by
  obtain ⟨-, r, -, -, hcalls⟩ := h
  have hlinked := hcalls.linked.split_round.2.split_round.1
  rw [(Plan.advanceAlone_asks h₁).2] at hlinked
  exact hlinked.requests hfill

/-- Strings whose text has no U+FFFD, and so no unpaired surrogate, are one through all of an
invocation. -/
theorem shared_of_text
    (h : em.Invoked name descriptor args cancelled
      (before ++ .round f₁ m₁ :: (between ++ .round f₂ m₂ :: after)) answer m')
    (htext : Units.replacement ∉ u₁.text.toList)
    (h₁ : (em.plan cancelled).asks? f₁ m₁.progress = some u₁)
    (h₂ : (em.plan cancelled).asks? f₂ m₂.progress = some u₁) :
    ∃ id, (em.plan cancelled).Pushes f₁ m₁.progress (.ref id) ∧
      ((∀ f m, .round f m ∈ between → (em.plan cancelled).fills? f m.progress ≠ some id) →
        (em.plan cancelled).Pushes f₂ m₂.progress (.ref id)) := by
  refine ⟨_, (Plan.advanceAlone_asks h₁).1, fun hfill => ?_⟩
  rw [(h.requests h₁ hfill).sharing_eq_iff.2 ⟨rfl, fun v _ hv => Units.text_inj htext hv⟩]
  exact (Plan.advanceAlone_asks h₂).1

/-- Two rounds of an invocation that ask for strings, by loads of constants or calls of
`intern`, go on with one string or with two.  It is one just if their units are the same and,
in between, no other units of the same text were asked for.

This is about a string as it was given out, and not about one that a constructor is called on
once more. -/
theorem shared_eq_iff
    (h : em.Invoked name descriptor args cancelled
      (before ++ .round f₁ m₁ :: (between ++ .round f₂ m₂ :: after)) answer m')
    (h₁ : (em.plan cancelled).asks? f₁ m₁.progress = some u₁)
    (h₂ : (em.plan cancelled).asks? f₂ m₂.progress = some u₂) :
    ∃ id₁ id₂, (em.plan cancelled).Pushes f₁ m₁.progress (.ref id₁) ∧
      (em.plan cancelled).Pushes f₂ m₂.progress (.ref id₂) ∧
      ((∀ f m, .round f m ∈ between → (em.plan cancelled).fills? f m.progress ≠ some id₁) →
        (id₁ = id₂ ↔
          u₁ = u₂ ∧ ∀ v ∈ (em.plan cancelled).requests between, v.text = u₁.text → v = u₁)) :=
  ⟨_, _, (Plan.advanceAlone_asks h₁).1, (Plan.advanceAlone_asks h₂).1, fun hfill =>
    (h.requests h₁ hfill).sharing_eq_iff⟩

end Emulation

/-! ## A string that is displaced -/

/-- The code of a method that loads two strings and then the first again. -/
def displacingBody : MethodBody := ⟨3, 0, [0x12, 2, 0x12, 4, 0x12, 2, 0xb1], [], []⟩

/-- A class with the method `f`, which loads two strings of one unpaired surrogate each, and
then the first again. -/
def displacing : ClassFile where
  minor := 0
  major := 52
  pool := Pool.ofSlots [none, some (.utf8 [0xed, 0xa0, 0x80]), some (.string 1),
    some (.utf8 [0xed, 0xa0, 0x81]), some (.string 3), some (.utf8 [65]), some (.class_ 5),
    some (.utf8 [102]), some (.utf8 [40, 41, 86]), some (.utf8 [67, 111, 100, 101])]
  access := 0x21
  thisClass := 6
  superClass := 0
  interfaces := []
  fields := []
  methods := [⟨9, 7, 8, [.code 9 "Code" displacingBody]⟩]
  attributes := []

/-- The class `displacing`, loaded. -/
def displacingRun : Emulation := { program := Program.of displacing, config := {} }

/-- The method `f` at an offset. -/
def displacingFrame (pc : Int) (stack : Stack) : Frame where
  routine := ⟨"f", "()V", true, displacingBody, 7,
    (decodeEverywhere 7 0 displacingBody.bytecode).toArray⟩
  locals := #[.null]
  stack := stack
  pc := pc
  active := ["f"]

/-- The progress of `f` when it has loaded some strings. -/
def displacingProgress (loaded : List Units) : Progress where
  steps := loaded.length
  world := { heap := (loaded.map Object.string).toArray
             interned := loaded.reverse.head?.toList.map fun u => (u.text, loaded.length - 1) }

/-- In an invocation of `f`, the first string is loaded, and then the second, and then the first
again. -/
theorem exists_displacing_loads : ∃ before f₁ m₁ between f₂ m₂ after answer m',
    displacingRun.Invoked "f" "()V" (pure []) false
        (before ++ Event.round f₁ m₁ :: (between ++ Event.round f₂ m₂ :: after)) answer m' ∧
      (displacingRun.plan false).asks? f₁ m₁.progress = some [0xd800] ∧
      (displacingRun.plan false).requests between = [[0xd801]] ∧
      (∀ f m, .round f m ∈ between → (displacingRun.plan false).fills? f m.progress = none) ∧
      (displacingRun.plan false).asks? f₂ m₂.progress = some [0xd800] := by
  have first : (displacingRun.plan false).advanceAlone (displacingFrame 0 [])
      (displacingProgress []) =
        .ok ⟨displacingFrame 2 [.ref 0], [], displacingProgress [[0xd800]]⟩ := rfl
  have second : (displacingRun.plan false).advanceAlone (displacingFrame 2 [.ref 0])
      (displacingProgress [[0xd800]]) =
        .ok ⟨displacingFrame 4 [.ref 1, .ref 0], [], displacingProgress [[0xd800], [0xd801]]⟩ := rfl
  have third : (displacingRun.plan false).advanceAlone (displacingFrame 4 [.ref 1, .ref 0])
      (displacingProgress [[0xd800], [0xd801]]) =
        .ok ⟨displacingFrame 6 [.ref 2, .ref 1, .ref 0], [],
          displacingProgress [[0xd800], [0xd801], [0xd800]]⟩ := rfl
  have last : (displacingRun.plan false).advanceAlone (displacingFrame 6 [.ref 2, .ref 1, .ref 0])
      (displacingProgress [[0xd800], [0xd801], [0xd800]]) =
        .error (.ok .null,
          { displacingProgress [[0xd800], [0xd801], [0xd800]] with steps := 4 }) := rfl
  have hcall : (displacingRun.plan false).Calls (displacingFrame 0 []).routine []
      ⟨[], displacingProgress []⟩ _ _ _ :=
    .ran rfl (.next first (.next second (.next third (.done last))))
  refine ⟨[], _, _, [.round _ _], _, _, _, _, _, ⟨rfl, _, rfl, rfl, .plain rfl hcall⟩, rfl, rfl, ?_, rfl⟩
  intro f m hmem
  cases List.mem_singleton.1 hmem
  rfl

theorem Emulation.shared_eq_iff_displacing : ∃ before f₁ m₁ between f₂ m₂ after answer m' id₁ id₂,
    displacingRun.Invoked "f" "()V" (pure []) false
        (before ++ .round f₁ m₁ :: (between ++ .round f₂ m₂ :: after)) answer m' ∧
      (displacingRun.plan false).asks? f₁ m₁.progress = some [0xd800] ∧
      (displacingRun.plan false).asks? f₂ m₂.progress = some [0xd800] ∧
      (displacingRun.plan false).Pushes f₁ m₁.progress (.ref id₁) ∧
      (displacingRun.plan false).Pushes f₂ m₂.progress (.ref id₂) ∧ id₁ ≠ id₂ := by
  obtain ⟨before, f₁, m₁, between, f₂, m₂, after, answer, m', h, h₁, hrequests, hfill, h₂⟩ :=
    exists_displacing_loads
  obtain ⟨id₁, id₂, hpush₁, hpush₂, hiff⟩ := shared_eq_iff h h₁ h₂
  refine ⟨before, f₁, m₁, between, f₂, m₂, after, answer, m', id₁, id₂, h, h₁, h₂, hpush₁, hpush₂,
    fun heq => ?_⟩
  have hsame := ((hiff fun f m hmem => by rw [hfill f m hmem]; nofun).1 heq).2
  rw [hrequests] at hsame
  exact absurd (hsame [0xd801] (List.mem_singleton_self _) (by decide)) (by decide)

end Cleartext.Machine
