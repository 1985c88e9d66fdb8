import Cleartext.Proofs.Isolation.Observing
import Cleartext.Proofs.Run.Classes

/-!
# What is pushed in place of a check

In place of the instructions that ask for something about the caller comes a push of what
they would find.  A text goes into the pool of the class, and so does a number that no
instruction holds; nothing else is added (`Pool.Widens`), so the pool names no other classes
or members than before.

* `captured_cases`: the push that is added for a query is one of the answer (`Captures`).
* `Captures.pushesShown`: the machine runs it as a push of that answer.
-/

namespace Cleartext

/-! ## Pools that widen -/

/-- What the push that replaces a check may add to a pool: texts, string constants, and
numbers that no immediate form holds. -/
def Constant.IsStock : Constant → Prop
  | .utf8 _ | .string _ => True
  | .integer v => Operand.fitsShort v = false
  | _ => False

namespace Pool

variable {p q r : Pool} {c : Constant}

/-- A pool has grown, and there is nothing but stock in what was added to it. -/
structure Widens (p q : Pool) : Prop where
  coherent : q.Coherent
  extends_ : p.Extends q
  added : ∀ {i c}, q.get? i = some c → p.get? i = some c ∨ c.IsStock

theorem Widens.refl (h : p.Coherent) : p.Widens p := ⟨h, .refl p, .inl⟩

theorem Widens.trans (h : p.Widens q) (h' : q.Widens r) : p.Widens r :=
  ⟨h'.coherent, h.extends_.trans h'.extends_, fun hi => (h'.added hi).elim h.added .inr⟩

/-- No classes were added. -/
theorem Widens.classes (h : p.Widens q) {i n : UInt16} (hi : q.get? i = some (.class_ n)) :
    p.get? i = some (.class_ n) :=
  (h.added hi).resolve_right id

/-- A class that a widened pool names was named before. -/
theorem Widens.className_eq (h : p.Widens q) (hclosed : p.Closed) (i : UInt16) :
    (q.className i).toOption = (p.className i).toOption := by
  cases hp : p.className i with
  | ok name => rw [h.extends_.className hp]
  | error e =>
    cases hq : q.className i with
    | error e' => rfl
    | ok name =>
      obtain ⟨n, hn, htext⟩ := className_ok.1 hq
      have hclass := h.classes hn
      have hsome := hclosed.isSome_of_get? hclass n (by simp [Constant.references])
      rw [h.extends_.text_eq hsome] at htext
      cases hp.symm.trans (className_ok.2 ⟨n, hclass, htext⟩)

namespace Edit

variable {α β : Type}

/-- An edit that adds nothing but stock. -/
def Stocks (e : Edit α) : Prop :=
  ∀ (p : Pool) {i c}, (p.edit e).2.get? i = some c → p.get? i = some c ∨ c.IsStock

theorem stocks_pure (a : α) : Stocks (pure a : Edit α) := fun _ _ _ => .inl

theorem stocks_bind {e : Edit α} {next : α → Edit β} (h : e.Stocks)
    (hnext : ∀ a, (next a).Stocks) : Stocks (e >>= next) := by
  intro p i c hi
  rw [edit_bind] at hi
  have he := @h p i c
  cases hrun : p.edit e with
  | mk result p' =>
    rw [hrun] at hi he
    cases result with
    | error err => exact he hi
    | ok a => exact (hnext a p' hi).elim he .inr

theorem stocks_add (hc : c.IsStock) : Stocks (add c) := by
  intro p i d hi
  rcases add_cases p c with ⟨j, -, hadd⟩ | ⟨-, -, hadd⟩ | ⟨-, -, hadd⟩
  all_goals
    replace hi : (p.add c).2.get? i = some d := hi
    rw [hadd] at hi
  · exact .inl hi
  · exact .inl hi
  · rw [get?_eq_some] at hi ⊢
    replace hi : (p.slots ++ (slotsOf c).toArray)[i.toNat]? = some (some d) := hi
    rw [Array.getElem?_append] at hi
    split at hi
    · exact .inl hi
    · rw [List.getElem?_toArray] at hi
      rw [some_mem_slotsOf.1 (List.mem_of_getElem? hi)]
      exact .inr hc

theorem stocks_stringUnits (u : Units) : Stocks (stringUnits u) :=
  stocks_bind (stocks_add True.intro) fun _ => stocks_add True.intro

theorem stocks_pushInt (v : Int32) : Stocks (pushInt v) := by
  unfold pushInt
  split
  · dsimp only
    split <;> exact stocks_pure _
  · split
    · exact stocks_pure _
    · split
      · exact stocks_pure _
      · rename_i hshort
        exact stocks_bind (stocks_add (Bool.eq_false_iff.2 hshort)) fun _ => stocks_pure _

theorem pushedInt?_of_load {ins : Instruction} {v : Int32} (hop : ins.op = .ldc ∨ ins.op = .ldcW)
    (hget : p.get? ins.operand.index = some (.integer v)) : ins.pushedInt? (some p) = some v := by
  unfold Instruction.pushedInt?
  rcases hop with hop | hop <;> simp [hop, hget]

theorem gives_pushInt (v : Int32) :
    Gives (fun _ => True) (pushInt v) fun q push => push.pushedInt? (some q) = some v := by
  unfold pushInt
  split
  · rename_i hsmall
    have hle : -1 ≤ v.toInt ∧ v.toInt ≤ 5 := by
      simpa [Int32.le_iff_toInt_le] using hsmall
    have hv : v = -1 ∨ v = 0 ∨ v = 1 ∨ v = 2 ∨ v = 3 ∨ v = 4 ∨ v = 5 := by
      simp only [← Int32.toInt_inj, Int32.reduceToInt]
      omega
    rcases hv with rfl | rfl | rfl | rfl | rfl | rfl | rfl <;>
      exact gives_pure fun _ _ => rfl
  · split
    · exact gives_pure fun _ _ => rfl
    · split
      · exact gives_pure fun _ _ => rfl
      · refine gives_bind (gives_add (c := .integer v) True.intro (by simp [Constant.references]))
          fun i => gives_pure fun q hq => ?_
        unfold Instruction.ldc
        split
        · exact pushedInt?_of_load (.inr rfl) hq.2
        · exact pushedInt?_of_load (.inl rfl) hq.2

theorem edit_adapt (p : Pool) (f : Error → Error) (e : Edit α) :
    p.edit (ExceptT.adapt f e) = ((p.edit e).1.mapError f, (p.edit e).2) := rfl

theorem edit_map (p : Pool) (f : α → β) (e : Edit α) :
    p.edit (f <$> e) = ((p.edit e).1.map f, (p.edit e).2) := by
  rw [map_eq_pure_bind, edit_bind]
  rcases p.edit e with ⟨_ | a, p'⟩ <;> rfl

/-- An edit that adds nothing but stock widens a pool. -/
theorem Gives.widens {e : Edit α} {P : Pool → α → Prop} (h : Gives (fun _ => True) e P)
    (hstocks : e.Stocks) (hp : p.Coherent) : p.Widens (p.edit e).2 := by
  obtain ⟨hcoherent, hextends, -⟩ := h p hp fun _ _ => True.intro
  exact ⟨hcoherent, hextends, fun hi => hstocks p hi⟩

end Edit

end Pool

namespace Isolation

open Machine

variable {p q : Pool} {caller : Identity} {query : Query} {push : Instruction}

/-! ## What is pushed in place of a check -/

/-- An instruction pushes what a query finds of a caller. -/
inductive Captures (p : Pool) (caller : Identity) : Query → Instruction → Prop
  | size {push : Instruction}
      (hpush : push.pushedInt? (some p) = some (Int32.ofInt caller.poolSize)) :
      Captures p caller .poolSize push
  | text {query : Query} {push : Instruction} (hquery : query ≠ .poolSize)
      (hop : push.op = .ldc ∨ push.op = .ldcW)
      (hvalue : p.value push.operand.index = .ok (.string (query.units caller))) :
      Captures p caller query push

/-- An instruction that takes the place of a check runs as it should. -/
theorem Captures.pushesShown {program : Program} (h : Captures program.cf.pool caller query push) :
    PushesShown program push query.shown (query.units caller) := by
  rintro σ f w rfl
  cases h with
  | size hpush =>
    exact ⟨_, w, (Step.run_pushedInt_ok hpush).2 ⟨rfl, rfl, rfl⟩, .refl w, Library.shows_int _ _⟩
  | text hquery hop hvalue =>
    obtain ⟨id, w', hrun, hgrown, hid⟩ := Step.run_loadString hop hvalue f w
    exact ⟨_, w', hrun, hgrown, Library.shows_string hid _⟩

theorem Captures.later (h : Captures p caller query push) (hclosed : p.Closed)
    (hextends : p.Extends q) : Captures q caller query push := by
  cases h with
  | size hpush => exact .size (Step.pushedInt?_mono hextends hpush)
  | text hquery hop hvalue =>
    exact .text hquery hop ((hextends.standsFor hclosed _).value hvalue)

theorem captured_text (hp : p.Coherent) (hquery : query ≠ .poolSize) {text : String}
    (htext : query.units caller = Units.ofText text) :
    p.Widens (p.edit (pushText text)).2 ∧ ∀ push, (p.edit (pushText text)).1 = .ok push →
      Captures (p.edit (pushText text)).2 caller query push ∧ push.Valid ∧ push.Stageable := by
  unfold pushText
  split
  · exact ⟨.refl hp, nofun⟩
  · have hgives : Pool.Edit.Gives (fun _ => True) (Pool.Edit.string text) _ :=
      Pool.Edit.gives_stringUnits (Units.ofText text)
    have hwidens := hgives.widens (Pool.Edit.stocks_stringUnits _) hp
    obtain ⟨-, -, hright⟩ := hgives p hp fun _ _ => True.intro
    rw [Pool.Edit.edit_map, Pool.Edit.edit_adapt]
    refine ⟨hwidens, fun push hpush => ?_⟩
    cases hrun : p.edit (Pool.Edit.string text) with
    | mk result p' =>
      rw [hrun] at hpush hright
      cases result with
      | error e => cases hpush
      | ok i =>
        obtain rfl := Except.ok.inj hpush
        obtain ⟨n, hstring, hn⟩ := hright i rfl p' (.refl p')
        have hvalue : p'.value i = .ok (.string (query.units caller)) := by
          rw [htext]
          exact Except.bind_ok.2 ⟨_, Pool.get_ok.2 hstring, Except.bind_ok.2 ⟨_,
            Pool.units_ok.2 ⟨_, hn, ModifiedUtf8.decode_encode _⟩, rfl⟩⟩
        obtain ⟨hop, hvalue⟩ := Run.loads_ldc hvalue
        exact ⟨.text hquery hop hvalue, Instruction.valid_ldc i, .load i⟩

/-- The push that is added to a pool for a query. -/
theorem captured_cases (caller : Identity) (hp : p.Coherent) (query : Query) :
    p.Widens (p.edit (query.captured caller)).2 ∧
      ∀ push, (p.edit (query.captured caller)).1 = .ok push →
        Captures (p.edit (query.captured caller)).2 caller query push ∧ push.Valid ∧
          push.Stageable := by
  cases query with
  | className => exact @captured_text _ _ _ hp (by decide) _ rfl
  | methodName => exact @captured_text _ _ _ hp (by decide) _ rfl
  | poolSize =>
    show p.Widens (p.edit (pushSize caller)).2 ∧ ∀ push, (p.edit (pushSize caller)).1 = .ok push →
      Captures (p.edit (pushSize caller)).2 caller .poolSize push ∧ push.Valid ∧ push.Stageable
    unfold pushSize
    split
    · exact ⟨.refl hp, nofun⟩
    · have hgives := Pool.Edit.gives_pushInt (Int32.ofInt caller.poolSize)
      obtain ⟨-, -, hright⟩ := hgives p hp fun _ _ => True.intro
      rw [Pool.Edit.edit_adapt]
      refine ⟨hgives.widens (Pool.Edit.stocks_pushInt _) hp, fun push hpush => ?_⟩
      cases hrun : p.edit (Pool.Edit.pushInt (Int32.ofInt caller.poolSize)) with
      | mk result p' =>
        rw [hrun] at hpush hright
        cases result with
        | error e => cases hpush
        | ok push' =>
          obtain rfl := Except.ok.inj hpush
          exact ⟨.size (hright push' rfl p' (.refl p')), Instruction.valid_of_pushInt hrun, .push hrun⟩

end Isolation

end Cleartext
