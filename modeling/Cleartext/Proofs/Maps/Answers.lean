import Cleartext.Proofs.Maps.Effects
import Cleartext.Proofs.Maps.Equality

/-!
# Maps in a run

A map that a run makes says what the run puts into it.  It finds the value that was put last for
the same key, and counts the keys that differ.  Keys are the same that match by `equals`, and
boxes that are twins; so where no twins are compared, a map agrees with `equals`.

* `World.Holds`: a map has the entries that were put.  Rounds keep this
  (`Plan.Linked.holds`).
* `World.Holds.answered`: what the methods of such a map answer.
* `Emulation.map_answers`: what they answer in an invocation, after any calls in any depth.
-/

namespace Cleartext.Machine

/-! ## Maps that hold what was put -/

/-- A map has an entry for every key that was put. -/
structure World.Holds (w : World) (id : Nat) (puts : List (Value × Value)) : Prop where
  keys : ∀ p ∈ puts, w.IsKey p.1
  entries : w.entries? id = some (Library.entered w.key puts)

namespace World.Holds

variable {w w' : World} {id i : Nat} {puts : List (Value × Value)} {k v : Value}
  {old new : List (MapKey × Value)}

theorem empty (h : w.entries? id = some []) : w.Holds id [] := ⟨by simp, h⟩

/-- The map stays as it is while the map and the keys have their cores. -/
theorem of_core (h : w.Holds id puts)
    (hmap : ∀ o, w.core? id = some o → w'.core? id = some o)
    (hkeys : ∀ p ∈ puts, ∀ i o, p.1 = .ref i → w.core? i = some o → w'.core? i = some o) :
    w'.Holds id puts := by
  have hkey (p : Value × Value) (hp : p ∈ puts) := (h.keys p hp).of_core (hkeys p hp)
  refine ⟨fun p hp => (hkey p hp).1, ?_⟩
  rw [Library.entered_congr fun p hp => (hkey p hp).2, ← h.entries]
  unfold entries?
  have hentries := h.entries
  unfold entries? at hentries
  cases hcore : w.core? id with
  | none =>
    rw [hcore] at hentries
    cases hentries
  | some o => rw [hmap o hcore]

/-- Another map is given other entries. -/
theorem withEntries (h : w.Holds id puts) (hne : i ≠ id) (hmap : w.entries? i = some old) :
    (w.withEntries i new).Holds id puts := by
  have hkey (p : Value × Value) (hp : p ∈ puts) := (h.keys p hp).withEntries hmap new
  refine ⟨fun p hp => (hkey p hp).1, ?_⟩
  rw [Library.entered_congr fun p hp => (hkey p hp).2, ← h.entries]
  unfold entries?
  rw [core?_withEntries (Ne.symm hne)]

/-- One more key is given a value. -/
theorem put (h : w.Holds id puts) (hk : w.IsKey k) :
    (w.withEntries id (Library.setEntry (w.key k) v (Library.entered w.key puts))).Holds id
      (puts ++ [(k, v)]) := by
  have hputs (p : Value × Value) (hp : p ∈ puts ++ [(k, v)]) : w.IsKey p.1 := by
    obtain hp | hp := List.mem_append.1 hp
    · exact h.keys p hp
    · obtain rfl := List.mem_singleton.1 hp
      exact hk
  have hkey (p : Value × Value) (hp : p ∈ puts ++ [(k, v)]) :=
    (hputs p hp).withEntries h.entries (Library.setEntry (w.key k) v (Library.entered w.key puts))
  obtain ⟨cls, fields, hget⟩ := entries?_eq_some.1 h.entries
  refine ⟨fun p hp => (hkey p hp).1, ?_⟩
  rw [Library.entered_congr fun p hp => (hkey p hp).2, Library.entered_concat]
  exact entries?_withEntries hget

end World.Holds

/-! ## What is answered -/

/-- An answer says what was put for keys that match. -/
def MapCall.Answered (same : Value → Value → Prop) (puts : List (Value × Value)) :
    MapCall → Value → Prop
  | put k _, v | get k, v => ∃ found, IsLatest (same · k) puts found ∧ v = found.getD .null
  | containsKey k, v => ∃ known, v = truth known ∧ (known = true ↔ ∃ p ∈ puts, same p.1 k)
  | size, v => ∃ keys : List Value, v = .int (Int32.ofNat keys.length) ∧
      keys.Sublist (puts.map (·.1)) ∧ keys.Pairwise (fun a b => ¬ same a b) ∧
        ∀ p ∈ puts, ∃ k ∈ keys, same k p.1

/-- What a call of a map compares: keys that were put with the key of the call, or with one
another. -/
def MapCall.Compares (puts : List (Value × Value)) (a b : Value) : MapCall → Prop
  | put k _ | get k | containsKey k => a ∈ puts.map (·.1) ∧ b = k
  | size => a ∈ puts.map (·.1) ∧ b ∈ puts.map (·.1)

theorem MapCall.Compares.put {call : MapCall} {puts : List (Value × Value)} {a b : Value}
    (h : call.Compares puts a b) : a ∈ puts.map (·.1) := by
  cases call <;> exact h.1

/-- Only keys that a call compares need to match alike. -/
theorem MapCall.Answered.congr {same same' : Value → Value → Prop} {puts : List (Value × Value)}
    {call : MapCall} {v : Value} (h : call.Answered same puts v)
    (hsame : ∀ a b, call.Compares puts a b → (same a b ↔ same' a b)) :
    call.Answered same' puts v := by
  have hput {p : Value × Value} (hp : p ∈ puts) : p.1 ∈ puts.map (·.1) := List.mem_map_of_mem hp
  cases call with
  | put k _ | get k =>
    obtain ⟨found, hlatest, hv⟩ := h
    exact ⟨found, hlatest.congr fun p hp => hsame p.1 k ⟨hput hp, rfl⟩, hv⟩
  | containsKey k =>
    obtain ⟨known, hv, hknown⟩ := h
    refine ⟨known, hv, hknown.trans ⟨?_, ?_⟩⟩
    · exact fun ⟨p, hp, hmatch⟩ => ⟨p, hp, (hsame p.1 k ⟨hput hp, rfl⟩).1 hmatch⟩
    · exact fun ⟨p, hp, hmatch⟩ => ⟨p, hp, (hsame p.1 k ⟨hput hp, rfl⟩).2 hmatch⟩
  | size =>
    obtain ⟨keys, hv, hsub, hdiffer, hcover⟩ := h
    refine ⟨keys, hv, hsub, hdiffer.imp_of_mem fun ha hb hne hmatch => ?_, fun p hp => ?_⟩
    · exact hne ((hsame _ _ ⟨hsub.subset ha, hsub.subset hb⟩).2 hmatch)
    · obtain ⟨k, hk, hmatch⟩ := hcover p hp
      exact ⟨k, hk, (hsame _ _ ⟨hsub.subset hk, hput hp⟩).1 hmatch⟩

/-- A map answers what was put for the same key. -/
theorem World.Holds.answered {w : World} {id : Nat} {puts : List (Value × Value)} {call : MapCall}
    (h : w.Holds id puts) (hkey : ∀ k, call.key? = some k → w.IsKey k) :
    call.Answered w.SameKey puts (call.answer w (Library.entered w.key puts)) := by
  have hputs (p : Value × Value) (hp : p ∈ puts) := (h.keys p hp).isReference
  have hlatest {k : Value} (hk : w.IsKey k) : IsLatest (w.SameKey · k) puts
      (Library.valueOfKey? (w.key k) (Library.entered w.key puts)) :=
    (Library.isLatest_entered hk.isReference hputs).congr fun _ _ => World.key_eq_iff
  cases call with
  | put k v => exact ⟨_, hlatest (hkey k rfl), rfl⟩
  | get k => exact ⟨_, hlatest (hkey k rfl), rfl⟩
  | containsKey k => exact ⟨_, rfl, (hlatest (hkey k rfl)).isSome_iff⟩
  | size =>
    obtain ⟨keys, hsub, hdiffer, hcover, hkeys⟩ := Library.exists_distinct hputs
    refine ⟨keys, ?_, hsub, hdiffer.imp fun hne => mt World.key_eq_iff.2 hne, fun p hp => ?_⟩
    · have hlength := congrArg List.length hkeys
      rw [List.length_map, List.length_map] at hlength
      rw [MapCall.answer, hlength]
    · obtain ⟨k, hk, heq⟩ := hcover p hp
      exact ⟨k, hk, World.key_eq_iff.1 heq⟩

/-! ## Rounds -/

namespace Plan

variable {plan : Plan} {id : Nat} {f : Frame} {p : Progress} {w w' : World} {call : MapCall}
  {events : List Event} {earlier : List (Value × Value)}

/-- The call of a method of maps that a round makes on a map. -/
def mapCall? (plan : Plan) (id : Nat) (f : Frame) (p : Progress) : Option MapCall := do
  Step.mapCall? (plan.setting f) (← plan.executed? f p) f.stack p.world id

/-- The object that a round calls a constructor of the library on. -/
def constructs? (plan : Plan) (f : Frame) (p : Progress) : Option Nat := do
  Step.constructs? (plan.setting f) (← plan.executed? f p) f.stack p.world

/-- The instance that a round makes an empty map. -/
def empties? (plan : Plan) (f : Frame) (p : Progress) : Option Nat := do
  Step.empties? (plan.setting f) (← plan.executed? f p) f.stack p.world

/-- What a round puts into a map. -/
def put? (plan : Plan) (id : Nat) (f : Frame) (p : Progress) : Option (Value × Value) :=
  match plan.mapCall? id f p with
  | some (.put k v) => some (k, v)
  | _ => none

/-- What the rounds of a run put into a map, in order. -/
def puts (plan : Plan) (id : Nat) (events : List Event) : List (Value × Value) :=
  events.filterMap fun
    | .round f m => plan.put? id f m.progress
    | .call .. => none

section

variable {ins : Instruction} (h : plan.executed? f p = some ins)
include h

theorem mapCall?_executed (id : Nat) :
    plan.mapCall? id f p = Step.mapCall? (plan.setting f) ins f.stack p.world id := by
  unfold mapCall?
  rw [h]
  rfl

theorem constructs?_executed :
    plan.constructs? f p = Step.constructs? (plan.setting f) ins f.stack p.world := by
  unfold constructs?
  rw [h]
  rfl

theorem empties?_executed :
    plan.empties? f p = Step.empties? (plan.setting f) ins f.stack p.world := by
  unfold empties?
  rw [h]
  rfl

end

theorem put?_eq_some {k v : Value} :
    plan.put? id f p = some (k, v) ↔ plan.mapCall? id f p = some (.put k v) := by
  unfold put?
  split
  · rename_i k' v' hcall
    rw [hcall]
    simp
  · rename_i hnone
    exact iff_of_false nofun fun h => hnone k v h

theorem puts_concat_round {f : Frame} {m : Moment} :
    plan.puts id (events ++ [Event.round f m]) =
      plan.puts id events ++ (plan.put? id f m.progress).toList := by
  unfold puts
  rw [List.filterMap_append, List.filterMap_cons]
  dsimp only
  cases plan.put? id f m.progress <;> rfl

/-- A round that makes an empty map. -/
theorem advanceAlone_empties (h : plan.empties? f p = some id) :
    (reached (plan.advanceAlone f p)).world.entries? id = some [] := by
  obtain ⟨ins, hexecuted, hempties⟩ := Option.bind_eq_some_iff.1 h
  refine advanceAlone_world (Q := fun w => w.entries? id = some []) (fun hnone => ?_)
    fun ins' h' => ?_
  · cases hnone.symm.trans hexecuted
  · obtain rfl := Option.some.inj (hexecuted.symm.trans h')
    exact Step.run_emptied hempties

/-- A round that calls a method of a map goes on with the answer on the stack. -/
theorem pushes_mapCall {entries : List (MapKey × Value)} (h : plan.mapCall? id f p = some call)
    (hentries : p.world.entries? id = some entries)
    (hkey : ∀ k, call.key? = some k → p.world.IsKey k) :
    plan.Pushes f p (call.answer p.world entries) ∧
      (reached (plan.advanceAlone f p)).world = call.left p.world id entries := by
  obtain ⟨ins, hexecuted, hcall⟩ := Option.bind_eq_some_iff.1 h
  obtain ⟨hexecutes, hfetch⟩ := executed?_eq_some.1 hexecuted
  obtain ⟨rest, hrun⟩ := Step.run_mapCall hcall hentries hkey
  rw [Pushes, advanceAlone_next hexecutes hfetch hrun]
  exact ⟨⟨_, rest, _, rfl⟩, rfl⟩

/-- A map holds what a round puts into it, and what it held before. -/
theorem advanceAlone_holds (h : p.world.Holds id earlier)
    (hkey : ∀ k v, plan.mapCall? id f p = some (.put k v) → p.world.IsKey k)
    (hinit : ∀ i, plan.constructs? f p = some i → i ≠ id ∧ ∀ q ∈ earlier, q.1 ≠ .ref i) :
    (reached (plan.advanceAlone f p)).world.Holds id (earlier ++ (plan.put? id f p).toList) := by
  cases hput : plan.put? id f p with
  | some put =>
    obtain ⟨k, v⟩ := put
    have hcall := put?_eq_some.1 hput
    have hk : p.world.IsKey k := hkey k v hcall
    rw [(pushes_mapCall hcall h.entries fun k' hk' => Option.some.inj hk' ▸ hk).2]
    exact h.put hk
  | none =>
    rw [Option.toList_none, List.append_nil]
    refine advanceAlone_world (Q := fun w => w.Holds id earlier) (fun _ => h) fun ins hexecuted => ?_
    obtain hretains | ⟨i, k, v, old, new, hcall, hold, hleft⟩ :=
      Step.run_effect ins (plan.setting f) f p.world
    · have hconstructs {i : Nat}
          (hi : Step.constructs? (plan.setting f) ins f.stack p.world = some i) :
          i ≠ id ∧ ∀ q ∈ earlier, q.1 ≠ .ref i :=
        hinit i ((constructs?_executed hexecuted).trans hi)
      refine h.of_core (fun o => hretains id o fun hid => (hconstructs hid).1 rfl) ?_
      exact fun q hq i o heq => hretains i o fun hi => (hconstructs hi).2 q hq heq
    · rw [hleft]
      refine h.withEntries (fun heq => ?_) hold
      subst heq
      cases hput.symm.trans (put?_eq_some.2 ((mapCall?_executed hexecuted i).trans hcall))

/-! ## Runs -/

/-- No constructor is called on a map, or on a key of it once it is put. -/
def Undisturbed (plan : Plan) (id : Nat) (events : List Event) : Prop :=
  ∀ before f m after i, events = before ++ .round f m :: after →
    plan.constructs? f m.progress = some i → i ≠ id ∧ ∀ p ∈ plan.puts id before, p.1 ≠ .ref i

/-- What is put into a map are null and objects. -/
def PutsKeys (plan : Plan) (id : Nat) (events : List Event) : Prop :=
  ∀ f m k v, .round f m ∈ events → plan.mapCall? id f m.progress = some (.put k v) →
    m.progress.world.IsKey k

/-- A map holds what the rounds of a run put into it. -/
theorem Linked.holds {before : List Event} (h : plan.Linked w events w')
    (hholds : w.Holds id (plan.puts id before)) (hkeys : plan.PutsKeys id (before ++ events))
    (hinit : plan.Undisturbed id (before ++ events)) :
    w'.Holds id (plan.puts id (before ++ events)) := by
  induction h generalizing before with
  | nil =>
    rw [List.append_nil]
    exact hholds
  | @round f m events w' _ ih =>
    rw [← List.singleton_append, ← List.append_assoc] at hkeys hinit ⊢
    refine ih ?_ hkeys hinit
    rw [puts_concat_round]
    refine advanceAlone_holds hholds (fun k v => hkeys f m k v (by simp)) fun i => ?_
    exact hinit before f m events i (by simp)
  | @call m m' answer events w w' _ ih =>
    rw [← List.singleton_append, ← List.append_assoc] at hkeys hinit ⊢
    refine ih ?_ hkeys hinit
    have hputs : plan.puts id (before ++ [.call m answer m']) = plan.puts id before := by
      simp [puts]
    rwa [hputs]

end Plan

namespace Emulation

variable {em : Emulation} {name descriptor : String} {args : Run (List Value)} {cancelled : Bool}
  {before between after : List Event} {answer : Except Halt Value} {m₀ m m' : Moment}
  {f₀ f : Frame} {id : Nat} {call : MapCall}

/-- What a map answers in an invocation that makes it, when no key that was put redefines
`equals`.  Keys are the same that match by `equals` or are twins; if the call compares no twins,
the answer is the one by `equals`. -/
theorem map_answers
    (h : em.Invoked name descriptor args cancelled
      (before ++ .round f₀ m₀ :: (between ++ .round f m :: after)) answer m')
    (hmade : (em.plan cancelled).empties? f₀ m₀.progress = some id)
    (hkeys : (em.plan cancelled).PutsKeys id between)
    (hinit : (em.plan cancelled).Undisturbed id between)
    (hcall : (em.plan cancelled).mapCall? id f m.progress = some call)
    (hkey : ∀ k, call.key? = some k → m.progress.world.IsKey k)
    (hplain : ∀ p ∈ (em.plan cancelled).puts id between,
      ¬ m.progress.world.RedefinesEquals ((em.plan cancelled).setting f) p.1) :
    ∃ v, (em.plan cancelled).Pushes f m.progress v ∧
      call.Answered (fun a b => m.progress.world.Matches ((em.plan cancelled).setting f) a b ∨
        m.progress.world.AreTwins a b) ((em.plan cancelled).puts id between) v ∧
      ((∀ a b, call.Compares ((em.plan cancelled).puts id between) a b →
          ¬ m.progress.world.AreTwins a b) →
        call.Answered (m.progress.world.Matches ((em.plan cancelled).setting f))
          ((em.plan cancelled).puts id between) v) := by
  obtain ⟨-, r, -, -, hcalls⟩ := h
  have hlinked := hcalls.linked.split_round.2.split_round.1
  have hempty := World.Holds.empty ((em.plan cancelled).advanceAlone_empties hmade)
  have hholds : m.progress.world.Holds id ((em.plan cancelled).puts id ([] ++ between)) :=
    hlinked.holds hempty hkeys hinit
  have hsame (a b : Value) (hab : call.Compares ((em.plan cancelled).puts id between) a b) :
      m.progress.world.SameKey a b ↔
        m.progress.world.Matches ((em.plan cancelled).setting f) a b ∨
          m.progress.world.AreTwins a b := by
    obtain ⟨p, hp, rfl⟩ := List.mem_map.1 hab.put
    exact World.sameKey_iff (hholds.keys p hp) (hplain p hp)
  have hanswered := (hholds.answered hkey).congr hsame
  refine ⟨_, (Plan.pushes_mapCall hcall hholds.entries hkey).1, hanswered, fun hnone => ?_⟩
  exact hanswered.congr fun a b hab => or_iff_left (hnone a b hab)

end Emulation

/-! ## Two strings of one text -/

/-- The code of a method that puts its arguments into a map, and gets the value of the first. -/
def overwritingBody : MethodBody :=
  ⟨4, 2, [0xbb, 0, 4, 0x59, 0xb7, 0, 8, 0x59, 0x2a, 0x01, 0xb6, 0, 12, 0x57, 0x59, 0x2b, 0x2a, 0xb6, 0,
    12, 0x57, 0x2a, 0xb6, 0, 16, 0xb0], [], []⟩

/-- A class with a method `f` that makes a map, puts null for its first argument and the first
argument for the second, and answers the value of the first. -/
def overwriting : ClassFile where
  minor := 0
  major := 52
  pool := Pool.ofSlots [none, some (.utf8 [65]), some (.class_ 1),
    some (.utf8 [106, 97, 118, 97, 47, 117, 116, 105, 108, 47, 72, 97, 115, 104, 77, 97, 112]),
    some (.class_ 3), some (.utf8 [60, 105, 110, 105, 116, 62]), some (.utf8 [40, 41, 86]),
    some (.nameAndType 5 6), some (.member .method 4 7), some (.utf8 [112, 117, 116]),
    some (.utf8 [40, 76, 106, 97, 118, 97, 47, 108, 97, 110, 103, 47, 79, 98, 106, 101, 99, 116, 59,
      76, 106, 97, 118, 97, 47, 108, 97, 110, 103, 47, 79, 98, 106, 101, 99, 116, 59, 41, 76, 106, 97,
      118, 97, 47, 108, 97, 110, 103, 47, 79, 98, 106, 101, 99, 116, 59]),
    some (.nameAndType 9 10), some (.member .method 4 11), some (.utf8 [103, 101, 116]),
    some (.utf8 [40, 76, 106, 97, 118, 97, 47, 108, 97, 110, 103, 47, 79, 98, 106, 101, 99, 116, 59,
      41, 76, 106, 97, 118, 97, 47, 108, 97, 110, 103, 47, 79, 98, 106, 101, 99, 116, 59]),
    some (.nameAndType 13 14), some (.member .method 4 15),
    some (.utf8 [106, 97, 118, 97, 47, 108, 97, 110, 103, 47, 79, 98, 106, 101, 99, 116]),
    some (.class_ 17), some (.utf8 [102]), some (.utf8 [67, 111, 100, 101])]
  access := 0x21
  thisClass := 2
  superClass := 18
  interfaces := []
  fields := []
  methods := [⟨9, 19, 10, [.code 20 "Code" overwritingBody]⟩]
  attributes := []

/-- The class `overwriting`, loaded. -/
def overwritingRun : Emulation := { program := Program.of overwriting, config := {} }

/-- The method `f` at an offset. -/
def overwritingFrame (pc : Int) (stack : Stack) : Frame where
  routine := ⟨"f", "(Ljava/lang/Object;Ljava/lang/Object;)Ljava/lang/Object;", true, overwritingBody,
    26, (decodeEverywhere 26 0 overwritingBody.bytecode).toArray⟩
  locals := #[.ref 0, .ref 1]
  stack := stack
  pc := pc
  active := ["f"]

/-- Two strings of the same text. -/
def twoStrings : Run (List Value) := do return [← newUnits [97], ← newUnits [97]]

/-- The progress of `f` on two strings of the same text, with the state of the map if it was
made. -/
def overwritingProgress (steps : Nat) (map : List Hidden) : Progress where
  steps := steps
  world := { heap := (Object.string [97] :: .string [97] ::
    map.map fun hidden => .instance "java/util/HashMap" none hidden).toArray }

/-- A round that calls a method that the class of the receiver declares. -/
private theorem Plan.advanceAlone_declared {plan : Plan} {f : Frame} {p : Progress}
    {ins : Instruction} (owner : String) (ref : Ref) (descriptor : Descriptor) (args : List Value)
    (rest : Stack) {method : LibraryMethod} {v : Value} {w : World}
    (hexecutes : plan.executes f p = true)
    (hfetch : fetch f = .ok ins) (hinvoke : ins.op.isWithin .invokevirtual .invokeinterface = true)
    (href : plan.program.cf.pool.ref ins.operand.index = .ok ref)
    (hparses : Descriptor.parse ref.descriptor = .ok descriptor)
    (htakes : Stack.takeValues (descriptor.params.length + if ins.op = .invokestatic then 0 else 1)
      f.stack = .ok (args, rest))
    (hreceiver : (!decide (ins.op = .invokestatic) && args.head? = some .null) = false)
    (howner : owner = if ins.op = .invokevirtual || ins.op = .invokeinterface then
      p.world.classOf (args.headD .null) else ref.owner)
    (hname : owner ≠ plan.program.name) (harray : ¬ "[".toList <+: owner.toList)
    (hclone : Library.arrayMethod? (ref.name ++ ref.descriptor) = none)
    (hmethod : Library.declared? owner ref.name ref.descriptor = some method)
    (hanswer : method args (plan.setting f) p.world = (.ok v, w)) :
    plan.advanceAlone f p = .ok (plan.after ⟨f, [], p⟩ ins ins.next
        { f with stack := if descriptor.result ≠ "V" then v :: rest else rest } w) ∧
      plan.executed? f p = some ins ∧
      Step.libraryCall? (plan.setting f) ins f.stack p.world = some (owner, ref, args) := by
  have hdeclaring : Library.declaring? plan.program.lineage owner ref = some owner := by
    obtain ⟨above, habove⟩ := Library.exists_ancestors plan.program.lineage owner
    unfold Library.declaring?
    rw [if_neg (mt String.startsWith_string_iff.1 harray), habove, List.cons_append,
      List.find?_cons_of_pos]
    rw [hmethod]
    rfl
  have hcall : Step.libraryCall? (plan.setting f) ins f.stack p.world = some (owner, ref, args) :=
    Option.ite_none_right_eq_some.2 ⟨hinvoke, Step.called?_eq_some.2 ⟨descriptor, rest, _, href,
      hparses, by simpa using htakes, hreceiver, by simpa using howner, fun heq => absurd heq hname,
      hdeclaring⟩⟩
  obtain ⟨descriptor', rest', hparses', htakes', hrun⟩ :=
    Step.run_libraryCall hcall hclone hmethod hanswer
  obtain rfl := Except.ok.inj (hparses.symm.trans hparses')
  obtain ⟨-, rfl⟩ := Prod.mk.inj (Except.ok.inj (htakes.symm.trans htakes'))
  exact ⟨advanceAlone_next hexecutes hfetch hrun, executed?_eq_some.2 ⟨hexecutes, hfetch⟩, hcall⟩

/-- The constructor of the map leaves it empty. -/
private theorem overwriting_empties :
    (overwritingRun.plan false).advanceAlone (overwritingFrame 4 [.ref 2, .ref 2])
        (overwritingProgress 2 [.none]) =
          .ok ⟨overwritingFrame 7 [.ref 2], [], overwritingProgress 3 [.table []]⟩ ∧
      (overwritingRun.plan false).empties? (overwritingFrame 4 [.ref 2, .ref 2])
        (overwritingProgress 2 [.none]) = some 2 := by
  have hfetch : Plan.fetch (overwritingFrame 4 [.ref 2, .ref 2]) =
      .ok ⟨.invokespecial, .pool16 8, false, 4⟩ := rfl
  obtain ⟨hround, hexecuted, hcall⟩ := (overwritingRun.plan false).advanceAlone_declared
    (p := overwritingProgress 2 [.none]) "java/util/HashMap"
    ⟨.method, "java/util/HashMap", "<init>", "()V"⟩ ⟨[], "V"⟩ [.ref 2] [.ref 2] rfl hfetch
    rfl rfl rfl rfl rfl rfl (by decide) (by decide) rfl rfl rfl
  exact ⟨hround.trans rfl,
    (Plan.empties?_executed hexecuted).trans (Option.bind_eq_some_iff.2 ⟨_, hcall, rfl⟩)⟩

/-- The round of `f` at an offset puts the value `v` for the string `k`, and pushes the one that was
there before. -/
structure OverwritingPuts (pc : Nat) (k v old : Value) (steps : Nat)
    (entries : List (MapKey × Value)) : Prop where
  round : (overwritingRun.plan false).advanceAlone (overwritingFrame pc [v, k, .ref 2, .ref 2])
      (overwritingProgress steps [.table entries]) =
        .ok ⟨overwritingFrame (pc + 3 : Nat) [old, .ref 2], [],
          overwritingProgress (steps + 1) [.table [(.text [97], v)]]⟩
  mapCall? : (overwritingRun.plan false).mapCall? 2 (overwritingFrame pc [v, k, .ref 2, .ref 2])
    (overwritingProgress steps [.table entries]) = some (.put k v)
  constructs? : (overwritingRun.plan false).constructs?
    (overwritingFrame pc [v, k, .ref 2, .ref 2]) (overwritingProgress steps [.table entries]) = none

private theorem overwritingPuts {pc : Nat} {k v old : Value} {steps : Nat}
    {entries : List (MapKey × Value)}
    (hexecutes : (overwritingRun.plan false).executes (overwritingFrame pc [v, k, .ref 2, .ref 2])
      (overwritingProgress steps [.table entries]) = true)
    (hfetch : Plan.fetch (overwritingFrame pc [v, k, .ref 2, .ref 2]) =
      .ok ⟨.invokevirtual, .pool16 12, false, pc⟩)
    (hanswer : Library.put [.ref 2, k, v]
      ((overwritingRun.plan false).setting (overwritingFrame pc [v, k, .ref 2, .ref 2]))
      (overwritingProgress steps [.table entries]).world =
        (.ok old, (overwritingProgress steps [.table [(.text [97], v)]]).world)) :
    OverwritingPuts pc k v old steps entries := by
  obtain ⟨hround, hexecuted, hcall⟩ := (overwritingRun.plan false).advanceAlone_declared
    (p := overwritingProgress steps [.table entries]) "java/util/HashMap"
    ⟨.method, "java/util/HashMap", "put", "(Ljava/lang/Object;Ljava/lang/Object;)Ljava/lang/Object;"⟩
    ⟨["Ljava/lang/Object;", "Ljava/lang/Object;"], "Ljava/lang/Object;"⟩ [.ref 2, k, v]
    [.ref 2] hexecutes hfetch rfl rfl rfl rfl rfl rfl (by decide) (by decide) rfl rfl hanswer
  refine ⟨hround.trans rfl, (Plan.mapCall?_executed hexecuted 2).trans
    (Option.bind_eq_some_iff.2 ⟨_, hcall, rfl⟩), (Plan.constructs?_executed hexecuted).trans ?_⟩
  rw [Step.constructs?, hcall]
  rfl

private theorem overwritingPuts_first : OverwritingPuts 10 (.ref 0) .null .null 6 [] :=
  overwritingPuts rfl rfl rfl

private theorem overwritingPuts_second :
    OverwritingPuts 17 (.ref 1) (.ref 0) .null 11 [(.text [97], .null)] :=
  overwritingPuts rfl rfl rfl

/-- The first string has the value that was put for the second. -/
private theorem overwriting_gets :
    (overwritingRun.plan false).advanceAlone (overwritingFrame 22 [.ref 0, .ref 2])
        (overwritingProgress 14 [.table [(.text [97], .ref 0)]]) =
          .ok ⟨overwritingFrame 25 [.ref 0], [],
            overwritingProgress 15 [.table [(.text [97], .ref 0)]]⟩ ∧
      (overwritingRun.plan false).mapCall? 2 (overwritingFrame 22 [.ref 0, .ref 2])
        (overwritingProgress 14 [.table [(.text [97], .ref 0)]]) = some (.get (.ref 0)) := by
  have hfetch : Plan.fetch (overwritingFrame 22 [.ref 0, .ref 2]) =
      .ok ⟨.invokevirtual, .pool16 16, false, 22⟩ := rfl
  obtain ⟨hround, hexecuted, hcall⟩ := (overwritingRun.plan false).advanceAlone_declared
    (p := overwritingProgress 14 [.table [(.text [97], .ref 0)]])
    "java/util/HashMap"
    ⟨.method, "java/util/HashMap", "get", "(Ljava/lang/Object;)Ljava/lang/Object;"⟩
    ⟨["Ljava/lang/Object;"], "Ljava/lang/Object;"⟩ [.ref 2, .ref 0] [] rfl hfetch rfl rfl rfl rfl
    rfl rfl (by decide) (by decide) rfl rfl rfl
  exact ⟨hround.trans rfl,
    (Plan.mapCall?_executed hexecuted 2).trans (Option.bind_eq_some_iff.2 ⟨_, hcall, rfl⟩)⟩

/-- A round of `f`. -/
def overwritingRound (pc : Int) (stack : Stack) (steps : Nat) (map : List Hidden) : Event :=
  .round (overwritingFrame pc stack) ⟨["f"], overwritingProgress steps map⟩

/-- The rounds of `f` between making the map and asking it. -/
def overwritingBetween : List Event :=
  [overwritingRound 7 [.ref 2] 3 [.table []],
    overwritingRound 8 [.ref 2, .ref 2] 4 [.table []],
    overwritingRound 9 [.ref 0, .ref 2, .ref 2] 5 [.table []],
    overwritingRound 10 [.null, .ref 0, .ref 2, .ref 2] 6 [.table []],
    overwritingRound 13 [.null, .ref 2] 7 [.table [(.text [97], .null)]],
    overwritingRound 14 [.ref 2] 8 [.table [(.text [97], .null)]],
    overwritingRound 15 [.ref 2, .ref 2] 9 [.table [(.text [97], .null)]],
    overwritingRound 16 [.ref 1, .ref 2, .ref 2] 10 [.table [(.text [97], .null)]],
    overwritingRound 17 [.ref 0, .ref 1, .ref 2, .ref 2] 11 [.table [(.text [97], .null)]],
    overwritingRound 20 [.null, .ref 2] 12 [.table [(.text [97], .ref 0)]],
    overwritingRound 21 [.ref 2] 13 [.table [(.text [97], .ref 0)]]]

/-- The moment at which `f` gets the value of the first string. -/
def overwritingMoment : Moment where
  active := ["f"]
  progress := overwritingProgress 14 [.table [(.text [97], .ref 0)]]

/-- The last rounds of `f`. -/
def overwritingEnd : List Event :=
  [.round (overwritingFrame 22 [.ref 0, .ref 2]) overwritingMoment,
    overwritingRound 25 [.ref 0] 15 [.table [(.text [97], .ref 0)]]]

/-- With its new map, `f` goes through these rounds. -/
private theorem overwriting_runs : ∃ answer m',
    (overwritingRun.plan false).Runs (overwritingFrame 7 [.ref 2])
      ⟨["f"], overwritingProgress 3 [.table []]⟩ (overwritingBetween ++ overwritingEnd) answer m' := by
  -- The first string is put, with null.
  have hkeep : (overwritingRun.plan false).advanceAlone (overwritingFrame 7 [.ref 2])
      (overwritingProgress 3 [.table []]) =
        .ok ⟨overwritingFrame 8 [.ref 2, .ref 2], [], overwritingProgress 4 [.table []]⟩ := rfl
  have hfirst : (overwritingRun.plan false).advanceAlone (overwritingFrame 8 [.ref 2, .ref 2])
      (overwritingProgress 4 [.table []]) =
        .ok ⟨overwritingFrame 9 [.ref 0, .ref 2, .ref 2], [], overwritingProgress 5 [.table []]⟩ := rfl
  have hnull : (overwritingRun.plan false).advanceAlone (overwritingFrame 9 [.ref 0, .ref 2, .ref 2])
      (overwritingProgress 5 [.table []]) =
        .ok ⟨overwritingFrame 10 [.null, .ref 0, .ref 2, .ref 2], [],
          overwritingProgress 6 [.table []]⟩ := rfl
  have hpop : (overwritingRun.plan false).advanceAlone (overwritingFrame 13 [.null, .ref 2])
      (overwritingProgress 7 [.table [(.text [97], .null)]]) =
        .ok ⟨overwritingFrame 14 [.ref 2], [],
          overwritingProgress 8 [.table [(.text [97], .null)]]⟩ := rfl
  -- The second string is put, with the first one.
  have hkeep' : (overwritingRun.plan false).advanceAlone (overwritingFrame 14 [.ref 2])
      (overwritingProgress 8 [.table [(.text [97], .null)]]) =
        .ok ⟨overwritingFrame 15 [.ref 2, .ref 2], [],
          overwritingProgress 9 [.table [(.text [97], .null)]]⟩ := rfl
  have hsecond : (overwritingRun.plan false).advanceAlone (overwritingFrame 15 [.ref 2, .ref 2])
      (overwritingProgress 9 [.table [(.text [97], .null)]]) =
        .ok ⟨overwritingFrame 16 [.ref 1, .ref 2, .ref 2], [],
          overwritingProgress 10 [.table [(.text [97], .null)]]⟩ := rfl
  have hvalue : (overwritingRun.plan false).advanceAlone
      (overwritingFrame 16 [.ref 1, .ref 2, .ref 2])
      (overwritingProgress 10 [.table [(.text [97], .null)]]) =
        .ok ⟨overwritingFrame 17 [.ref 0, .ref 1, .ref 2, .ref 2], [],
          overwritingProgress 11 [.table [(.text [97], .null)]]⟩ := rfl
  have hpop' : (overwritingRun.plan false).advanceAlone (overwritingFrame 20 [.null, .ref 2])
      (overwritingProgress 12 [.table [(.text [97], .ref 0)]]) =
        .ok ⟨overwritingFrame 21 [.ref 2], [],
          overwritingProgress 13 [.table [(.text [97], .ref 0)]]⟩ := rfl
  have hasked : (overwritingRun.plan false).advanceAlone (overwritingFrame 21 [.ref 2])
      (overwritingProgress 13 [.table [(.text [97], .ref 0)]]) =
        .ok ⟨overwritingFrame 22 [.ref 0, .ref 2], [],
          overwritingProgress 14 [.table [(.text [97], .ref 0)]]⟩ := rfl
  have hlast : (overwritingRun.plan false).advanceAlone (overwritingFrame 25 [.ref 0])
      (overwritingProgress 15 [.table [(.text [97], .ref 0)]]) =
        .error (.ok (.ref 0), overwritingProgress 16 [.table [(.text [97], .ref 0)]]) := rfl
  exact ⟨_, _, .next hkeep <| .next hfirst <| .next hnull <| .next overwritingPuts_first.round <|
    .next hpop <| .next hkeep' <| .next hsecond <| .next hvalue <|
    .next overwritingPuts_second.round <| .next hpop' <| .next hasked <| .next overwriting_gets.1 <|
    .done hlast⟩

/-- An invocation of `f` makes a map, puts two values, and asks for that of the first string. -/
theorem exists_overwriting_get : ∃ before f₀ m₀ after answer m',
    overwritingRun.Invoked "f" "(Ljava/lang/Object;Ljava/lang/Object;)Ljava/lang/Object;" twoStrings
        false (before ++ Event.round f₀ m₀ :: (overwritingBetween ++
          Event.round (overwritingFrame 22 [.ref 0, .ref 2]) overwritingMoment :: after)) answer m' ∧
      (overwritingRun.plan false).empties? f₀ m₀.progress = some 2 := by
  have hnew : (overwritingRun.plan false).advanceAlone (overwritingFrame 0 [])
      (overwritingProgress 0 []) =
        .ok ⟨overwritingFrame 3 [.ref 2], [], overwritingProgress 1 [.none]⟩ := rfl
  have hdup : (overwritingRun.plan false).advanceAlone (overwritingFrame 3 [.ref 2])
      (overwritingProgress 1 [.none]) =
        .ok ⟨overwritingFrame 4 [.ref 2, .ref 2], [], overwritingProgress 2 [.none]⟩ := rfl
  obtain ⟨answer, m', hruns⟩ := overwriting_runs
  have hcall : (overwritingRun.plan false).Calls (overwritingFrame 0 []).routine [.ref 0, .ref 1]
      ⟨[], overwritingProgress 0 []⟩ _ _ _ :=
    .ran rfl (.next hnew (.next hdup (.next overwriting_empties.1 hruns)))
  exact ⟨[.round _ _, .round _ _], _, _, [_, _], _, _, ⟨rfl, _, rfl, rfl, .plain rfl hcall⟩,
    overwriting_empties.2⟩

/-- Between making the map and asking it, `f` calls no constructor, and what it puts values for
are the strings. -/
private theorem overwriting_between {f : Frame} {m : Moment} (h : .round f m ∈ overwritingBetween) :
    (overwritingRun.plan false).constructs? f m.progress = none ∧
      ∀ k v, (overwritingRun.plan false).mapCall? 2 f m.progress = some (.put k v) →
        m.progress.world.IsKey k := by
  simp only [overwritingBetween, overwritingRound, List.mem_cons, Event.round.injEq,
    List.not_mem_nil, or_false] at h
  obtain ⟨rfl, rfl⟩ | ⟨rfl, rfl⟩ | ⟨rfl, rfl⟩ | ⟨rfl, rfl⟩ | ⟨rfl, rfl⟩ | ⟨rfl, rfl⟩ | ⟨rfl, rfl⟩ |
    ⟨rfl, rfl⟩ | ⟨rfl, rfl⟩ | ⟨rfl, rfl⟩ | ⟨rfl, rfl⟩ := h
  case inr.inr.inr.inl =>
    refine ⟨overwritingPuts_first.constructs?, fun k v hcall => ?_⟩
    cases overwritingPuts_first.mapCall?.symm.trans hcall
    exact ⟨.string [97], rfl, id⟩
  case inr.inr.inr.inr.inr.inr.inr.inr.inl =>
    refine ⟨overwritingPuts_second.constructs?, fun k v hcall => ?_⟩
    cases overwritingPuts_second.mapCall?.symm.trans hcall
    exact ⟨.string [97], rfl, id⟩
  all_goals exact ⟨rfl, nofun⟩

private theorem putsKeys_overwriting : (overwritingRun.plan false).PutsKeys 2 overwritingBetween :=
  fun _ _ k v hmem => (overwriting_between hmem).2 k v

private theorem undisturbed_overwriting :
    (overwritingRun.plan false).Undisturbed 2 overwritingBetween := by
  intro before f m after i hevents hconstructs
  have hmem : .round f m ∈ overwritingBetween := hevents ▸ by simp
  cases (overwriting_between hmem).1.symm.trans hconstructs

private theorem puts_overwriting : (overwritingRun.plan false).puts 2 overwritingBetween =
    [(.ref 0, .null), (.ref 1, .ref 0)] := by
  have hfirst : (overwritingRun.plan false).put? 2
      (overwritingFrame 10 [.null, .ref 0, .ref 2, .ref 2]) (overwritingProgress 6 [.table []]) =
        some (.ref 0, .null) := Plan.put?_eq_some.2 overwritingPuts_first.mapCall?
  have hsecond : (overwritingRun.plan false).put? 2
      (overwritingFrame 17 [.ref 0, .ref 1, .ref 2, .ref 2])
      (overwritingProgress 11 [.table [(.text [97], .null)]]) = some (.ref 1, .ref 0) :=
    Plan.put?_eq_some.2 overwritingPuts_second.mapCall?
  simp only [Plan.puts, overwritingBetween, overwritingRound, List.filterMap_cons, hfirst, hsecond]
  rfl

/-- By its second `put` the map has another value for the text of both strings, which are equal
by their `equals`.  That value is what it answers for the first of them. -/
theorem Emulation.map_answers_overwriting : ∃ before f₀ m₀ between f m after answer m',
    overwritingRun.Invoked "f" "(Ljava/lang/Object;Ljava/lang/Object;)Ljava/lang/Object;" twoStrings
        false (before ++ .round f₀ m₀ :: (between ++ .round f m :: after)) answer m' ∧
      (overwritingRun.plan false).empties? f₀ m₀.progress = some 2 ∧
      (overwritingRun.plan false).PutsKeys 2 between ∧
      (overwritingRun.plan false).Undisturbed 2 between ∧
      (overwritingRun.plan false).mapCall? 2 f m.progress = some (.get (.ref 0)) ∧
      (overwritingRun.plan false).Pushes f m.progress (.ref 0) ∧
      m.progress.world.Equals ((overwritingRun.plan false).setting f) (.ref 1) (.ref 0) ∧
      (MapCall.get (.ref 0)).Answered
        (m.progress.world.Matches ((overwritingRun.plan false).setting f))
        [(.ref 0, .null), (.ref 1, .ref 0)] (.ref 0) := by
  obtain ⟨before, f₀, m₀, after, answer, m', h, hmade⟩ := exists_overwriting_get
  have hkey (k : Value) (hk : (MapCall.get (.ref 0)).key? = some k) :
      overwritingMoment.progress.world.IsKey k := by
    cases hk
    exact ⟨.string [97], rfl, id⟩
  have hown (v : Value) : ¬ overwritingMoment.progress.world.IsInterpreted
      ((overwritingRun.plan false).setting (overwritingFrame 22 [.ref 0, .ref 2])) v :=
    fun hv => absurd hv.2 (by decide +kernel)
  have hplain (i : Nat) (hi : overwritingMoment.progress.world.heap[i]? = some (.string [97])) :
      ¬ overwritingMoment.progress.world.RedefinesEquals
        ((overwritingRun.plan false).setting (overwritingFrame 22 [.ref 0, .ref 2])) (.ref i) := by
    rintro (⟨-, hv⟩ | ⟨j, cls, fields, hidden, hij, hj, -⟩)
    · exact hown _ hv
    · cases hij
      cases hi.symm.trans hj
  obtain ⟨v, hpushes, -, hanswered⟩ :=
    map_answers h hmade putsKeys_overwriting undisturbed_overwriting overwriting_gets.2 hkey (by
      rw [puts_overwriting]
      exact List.forall_mem_cons.2 ⟨hplain 0 rfl, List.forall_mem_singleton.2 (hplain 1 rfl)⟩)
  rw [puts_overwriting] at hanswered
  obtain ⟨pc, rest, q, hround⟩ := hpushes
  obtain rfl : v = .ref 0 := by
    cases overwriting_gets.1.symm.trans hround
    rfl
  refine ⟨before, f₀, m₀, _, _, _, after, answer, m', h, hmade, putsKeys_overwriting,
    undisturbed_overwriting, overwriting_gets.2, ⟨_, _, _, overwriting_gets.1⟩,
    World.equals_of_string (hown _) rfl rfl, hanswered fun a b hab htwins => ?_⟩
  -- Both keys are strings, and twins are boxes.
  obtain ⟨-, i, j, o, o', box, rfl, -, hi, -, hbox, -⟩ := htwins
  obtain hi' | hi' : i = 0 ∨ i = 1 := by simpa [MapCall.Compares] using hab.put
  all_goals
    subst hi'
    cases hi
    cases hbox

end Cleartext.Machine
