import Cleartext.Class.Listing
import Cleartext.Proofs.Class.Adding
import Cleartext.Proofs.Machine.Answers

/-!
# What instructions do

What the instructions that build an argument do when they complete: loads of local
variables, of elements and of constants, and calls.

* `run_load_ok`, `run_pushedInt_ok`, `run_loadElement_ok`: the value that is pushed.
* `run_loadString`: a load of a string always completes.  The string may be new on the
  heap, or an older one with the same units.
* `run_invoke_ok`: a call that goes on behind itself is one of a library method.

A world that has `Grown` has new objects, but the old ones are as they were.
-/

namespace Cleartext.Machine

/-! ## Worlds that grow -/

/-- What was on the heap before is there still, and the static fields are as they were. -/
structure World.Grown (w w' : World) : Prop where
  heap : ∀ {id : Nat} {o : Object}, w.heap[id]? = some o → w'.heap[id]? = some o
  statics : w'.statics = w.statics

namespace World

variable {w w' w'' : World}

theorem Grown.refl (w : World) : w.Grown w := ⟨fun h => h, rfl⟩

theorem Grown.trans (h : w.Grown w') (h' : w'.Grown w'') : w.Grown w'' :=
  ⟨fun hid => h'.heap (h.heap hid), h'.statics.trans h.statics⟩

theorem getElem?_push {id : Nat} {o o' : Object} (h : w.heap[id]? = some o) :
    (w.heap.push o')[id]? = some o := by
  have hlt := (Array.getElem?_eq_some_iff.1 h).1
  rw [Array.getElem?_push, if_neg (by omega), h]

/-- The same change of an object gives the same in two worlds that have grown. -/
theorem Grown.getElem?_modify {w₁ w₂ : World} (h₁ : w.Grown w₁) (h₂ : w.Grown w₂)
    (f : Object → Object) (k : Nat) {id : Nat} (hid : id < w.heap.size) :
    (w₁.heap.modify k f)[id]? = (w₂.heap.modify k f)[id]? := by
  have hold : w.heap[id]? = some w.heap[id] := Array.getElem?_eq_getElem hid
  rw [Array.getElem?_modify, Array.getElem?_modify, h₁.heap hold, h₂.heap hold]

theorem grown_push (w : World) (o : Object) : w.Grown { w with heap := w.heap.push o } :=
  ⟨getElem?_push, rfl⟩

end World

/-! ## Shared strings -/

/-- The shared string with the given units, if there is one. -/
def World.shared? (w : World) (units : Units) : Option Nat := do
  let id ← w.interned.lookup units.text
  match w.heap[id]? with
  | some (.string u) => if u = units then some id else none
  | _ => none

theorem World.shared?_eq_some {w : World} {units : Units} {id : Nat}
    (h : w.shared? units = some id) : w.heap[id]? = some (.string units) := by
  obtain ⟨id', -, h⟩ := Option.bind_eq_some_iff.1 h
  split at h
  · rename_i u hu
    obtain ⟨rfl, heq⟩ := Option.ite_none_right_eq_some.1 h
    obtain rfl := Option.some.inj heq
    exact hu
  · cases h

namespace Run

variable {σ : Setting} {w w' : World}

theorem intern_eq (σ : Setting) (w : World) (units : Units) :
    intern units σ w = match w.shared? units with
      | some id => (.ok (.ref id), w)
      | none => (.ok (.ref w.heap.size),
        { w with
          heap := w.heap.push (.string units)
          interned := (units.text, w.heap.size) :: w.interned.filter (·.1 ≠ units.text) }) := by
  have hbind {α β : Type} {x : Run α} {g : α → Run β} {a : α} (hx : x σ w = (.ok a, w)) :
      (x >>= g) σ w = g a σ w := by
    rw [bind_eq, hx]
  unfold intern
  rw [hbind (get_ok.2 ⟨rfl, rfl⟩)]
  unfold World.shared?
  cases w.interned.lookup units.text with
  | none => rfl
  | some id =>
    rw [Option.bind_eq_bind, Option.bind_some]
    dsimp only
    rw [hbind (object?_ok.2 ⟨rfl, rfl⟩)]
    rcases w.heap[id]? with _ | ⟨u⟩ | _ | _
    · rfl
    · dsimp only
      split <;> rfl
    · rfl
    · rfl

/-- A shared string has the units that were asked for. -/
theorem exists_intern (σ : Setting) (w : World) (units : Units) :
    ∃ id w', intern units σ w = (.ok (.ref id), w') ∧ w.Grown w' ∧
      w'.heap[id]? = some (.string units) := by
  rw [intern_eq]
  cases hshared : w.shared? units with
  | some id => exact ⟨id, w, rfl, .refl w, World.shared?_eq_some hshared⟩
  | none => exact ⟨_, _, rfl, ⟨World.getElem?_push, rfl⟩, by simp⟩

end Run

namespace Step

variable {ins : Instruction} {σ : Setting} {f f' : Frame} {w w' : World} {pc : Int}

/-! ## Instructions by family -/

theorem run_load {slot : UInt16}
    (h : ins.op.expand?.getD (ins.op, ins.operand.local_) = (.aload, slot)) :
    run ins = (do (do push (← load slot)); return .next ins.next) := by
  unfold run
  rw [h]
  rfl

theorem run_loadElement (h : ins.op = .aaload) :
    run ins = (do loadElement; return .next ins.next) := by
  obtain ⟨op, operand, wide, offset⟩ := ins
  obtain rfl : op = .aaload := h
  rfl

theorem run_loadConstant (h : ins.op = .ldc ∨ ins.op = .ldcW) :
    run ins = (do loadConstant ins.operand.index; return .next ins.next) := by
  obtain ⟨op, operand, wide, offset⟩ := ins
  dsimp only at h
  rcases h with rfl | rfl <;> rfl

theorem run_immediate (h : ins.op = .bipush ∨ ins.op = .sipush) :
    run ins = (do push (.int ins.operand.immediate); return .next ins.next) := by
  obtain ⟨op, operand, wide, offset⟩ := ins
  dsimp only at h
  rcases h with rfl | rfl <;> rfl

theorem run_iconst (h : Opcode.iconstM1.code ≤ ins.op.code && ins.op.code ≤ Opcode.iconst5.code) :
    run ins = (do push (.int (ins.op.code.toUInt32.toInt32 - 3)); return .next ins.next) := by
  obtain ⟨⟨code⟩, operand, wide, offset⟩ := ins
  have hcode : code = 2 ∨ code = 3 ∨ code = 4 ∨ code = 5 ∨ code = 6 ∨ code = 7 ∨ code = 8 := by
    rw [Bool.and_eq_true, decide_eq_true_eq, decide_eq_true_eq, UInt8.le_iff_toNat_le,
      UInt8.le_iff_toNat_le] at h
    simp only [← UInt8.toNat_inj, UInt8.reduceToNat] at h ⊢
    omega
  have hpush {n n' : Int32} (h : n = n') :
      (do push (.int n); return .next (Instruction.next ⟨⟨code⟩, operand, wide, offset⟩)) =
        (do push (.int n'); return .next (Instruction.next ⟨⟨code⟩, operand, wide, offset⟩) :
          Step Outcome) := by
    rw [h]
  rcases hcode with rfl | rfl | rfl | rfl | rfl | rfl | rfl
  · exact @hpush (-1) ((2 : UInt8).toUInt32.toInt32 - 3) (by decide)
  · exact @hpush 0 ((3 : UInt8).toUInt32.toInt32 - 3) (by decide)
  · exact @hpush 1 ((4 : UInt8).toUInt32.toInt32 - 3) (by decide)
  · exact @hpush 2 ((5 : UInt8).toUInt32.toInt32 - 3) (by decide)
  · exact @hpush 3 ((6 : UInt8).toUInt32.toInt32 - 3) (by decide)
  · exact @hpush 4 ((7 : UInt8).toUInt32.toInt32 - 3) (by decide)
  · exact @hpush 5 ((8 : UInt8).toUInt32.toInt32 - 3) (by decide)

theorem run_invoke (h : ins.op = .invokevirtual ∨ ins.op = .invokestatic ∨ ins.op = .invokeinterface) :
    run ins = invoke ins.operand.index (ins.op = .invokestatic)
      (ins.op = .invokevirtual || ins.op = .invokeinterface) ins.next := by
  obtain ⟨op, operand, wide, offset⟩ := ins
  dsimp only at h
  rcases h with rfl | rfl | rfl <;> rfl

/-- A step that goes on behind the instruction. -/
theorem go_ok {s : Step Unit} {next : Nat} :
    (do s; return .next next : Step Outcome) σ f w = ((.ok (.next pc), f'), w') ↔
      s σ f w = ((.ok (), f'), w') ∧ pc = next := by
  rw [bind_ok]
  constructor
  · intro h
    obtain ⟨_, _, _, hs, hnext⟩ := h
    obtain ⟨hpc, rfl, rfl⟩ := pure_ok.1 hnext
    exact ⟨hs, Outcome.next.inj hpc⟩
  · intro h
    obtain ⟨hs, rfl⟩ := h
    exact ⟨(), f', w', hs, pure_ok.2 ⟨rfl, rfl, rfl⟩⟩

/-! ## Instructions that complete -/

theorem run_load_ok {slot : UInt16}
    (h : ins.op.expand?.getD (ins.op, ins.operand.local_) = (.aload, slot)) :
    run ins σ f w = ((.ok (.next pc), f'), w') ↔
      ∃ v, f.locals[slot.toNat]? = some v ∧ f' = { f with stack := v :: f.stack } ∧ w' = w ∧
        pc = ins.next := by
  rw [run_load h, go_ok]
  simp only [bind_ok, load_ok, push_ok, and_assoc, exists_and_left, exists_eq_left]
  simp only [← and_assoc, exists_and_right]

theorem loadConstant_ok {index : UInt16} :
    loadConstant index σ f w = ((.ok (), f'), w') ↔
      ∃ v x, σ.program.cf.pool.value index = .ok v ∧ ofLoadable v σ w = (.ok x, w') ∧
        f' = { f with stack := x :: f.stack } := by
  unfold loadConstant
  simp only [bind_ok, read_ok, lookup_ok, ofRun_ok, push_ok, exists_and_left, exists_eq_left,
    and_assoc]
  constructor
  · intro h
    obtain ⟨v, hv, x, f₁, w₁, hx, rfl, rfl, rfl⟩ := h
    exact ⟨v, hv, x, hx, rfl⟩
  · intro h
    obtain ⟨v, hv, x, hx, rfl⟩ := h
    exact ⟨v, hv, x, f, w', hx, rfl, rfl, rfl⟩

/-- The push of a known number pushes it. -/
theorem run_pushedInt_ok {n : Int32} (h : ins.pushedInt? (some σ.program.cf.pool) = some n) :
    run ins σ f w = ((.ok (.next pc), f'), w') ↔
      f' = { f with stack := .int n :: f.stack } ∧ w' = w ∧ pc = ins.next := by
  unfold Instruction.pushedInt? at h
  split at h
  · rename_i hconst
    obtain rfl := Option.some.inj h
    rw [run_iconst hconst, go_ok, push_ok, and_assoc]
  · split at h
    · rename_i himmediate
      obtain rfl := Option.some.inj h
      rw [run_immediate (by simpa using himmediate), go_ok, push_ok, and_assoc]
    · split at h
      · rename_i hload
        rw [run_loadConstant (by simpa using hload), go_ok]
        split at h
        · rename_i v hv
          obtain rfl := Option.some.inj h
          have hvalue : σ.program.cf.pool.value ins.operand.index = .ok (.int v) :=
            Except.bind_ok.2 ⟨_, Pool.get_ok.2 hv, rfl⟩
          rw [loadConstant_ok]
          constructor
          · intro h
            obtain ⟨⟨v', x, hv', hx, rfl⟩, rfl⟩ := h
            obtain rfl := Except.ok.inj (hvalue.symm.trans hv')
            obtain ⟨rfl, rfl⟩ := Run.pure_ok.1 hx
            exact ⟨rfl, rfl, rfl⟩
          · intro h
            obtain ⟨rfl, rfl, rfl⟩ := h
            exact ⟨⟨_, _, hvalue, Run.pure_ok.2 ⟨rfl, rfl⟩, rfl⟩, rfl⟩
        · cases h
      · cases h

/-- A push that is known stays known when the pool grows. -/
theorem pushedInt?_mono {p q : Pool} {n : Int32} (hq : p.Extends q)
    (h : ins.pushedInt? (some p) = some n) : ins.pushedInt? (some q) = some n := by
  unfold Instruction.pushedInt? at h ⊢
  split
  · rename_i hconst
    rwa [if_pos hconst] at h
  · rename_i hconst
    rw [if_neg hconst] at h
    split
    · rename_i himmediate
      rwa [if_pos himmediate] at h
    · rename_i himmediate
      rw [if_neg himmediate] at h
      split
      · rename_i hload
        rw [if_pos hload, Option.bind_some] at h
        rw [Option.bind_some]
        cases hc : p.get? ins.operand.index with
        | none => simp [hc] at h
        | some c => rwa [hq _ _ hc, ← hc]
      · rename_i hload
        simp [hload] at h

/-- A push that is known in a pool that has grown was known before, if it can be run. -/
theorem pushedInt?_of_extends {q : Pool} {n : Int32} (hq : σ.program.cf.pool.Extends q)
    (h : ins.pushedInt? (some q) = some n)
    (hrun : run ins σ f w = ((.ok (.next pc), f'), w')) :
    ins.pushedInt? (some σ.program.cf.pool) = some n := by
  unfold Instruction.pushedInt? at h ⊢
  split at h
  · rename_i hconst
    rwa [if_pos hconst]
  · rename_i hconst
    rw [if_neg hconst]
    split at h
    · rename_i himmediate
      rwa [if_pos himmediate]
    · rename_i himmediate
      rw [if_neg himmediate]
      split at h
      · rename_i hload
        rw [if_pos hload]
        rw [run_loadConstant (by simpa using hload), go_ok, loadConstant_ok] at hrun
        obtain ⟨⟨v, x, hvalue, -⟩, -⟩ := hrun
        obtain ⟨c, hc, -⟩ := Except.bind_ok.1 hvalue
        have hc := Pool.get_ok.1 hc
        rw [Option.bind_some, hq _ _ hc] at h
        rwa [Option.bind_some, hc]
      · cases h

/-- The elements of an array are those that stand on the heap. -/
theorem element_ok {v x : Value} {i : Int32} {id : Nat}
    (h : element v i σ w = (.ok (id, x), w')) :
    v = .ref id ∧ ¬ i < 0 ∧ w' = w ∧ ∃ component elements,
      w.heap[id]? = some (.array component elements) ∧ elements[i.toInt.toNat]? = some x := by
  unfold element at h
  cases v with
  | null => exact (Run.throwNew_ok.1 h).elim
  | ref id' =>
    obtain ⟨o, w₁, ho, hfound⟩ := Run.bind_ok.1 h
    obtain ⟨ho, rfl⟩ := Run.object?_ok.1 ho
    rcases o with _ | _ | ⟨component, elements⟩ | _
    case some.array =>
      dsimp only at hfound
      cases hx : (if i < 0 then none else elements[i.toInt.toNat]?) with
      | some x' =>
        rw [hx] at hfound
        obtain ⟨heq, rfl⟩ := Run.pure_ok.1 hfound
        obtain ⟨rfl, rfl⟩ := Prod.mk.inj heq
        obtain ⟨hi, hx⟩ := Option.ite_none_left_eq_some.1 hx
        exact ⟨rfl, hi, rfl, component, elements, ho.symm, hx⟩
      | none =>
        rw [hx] at hfound
        exact (Run.throwNew_ok.1 hfound).elim
    all_goals
      obtain ⟨_, _, -, hlack⟩ := Run.bind_ok.1 hfound
      exact (Run.unsupported_ok.1 hlack).elim
  | _ =>
    obtain ⟨_, _, -, h⟩ := Run.bind_ok.1 h
    exact (Run.unsupported_ok.1 h).elim

theorem run_loadElement_ok (hop : ins.op = .aaload)
    (h : run ins σ f w = ((.ok (.next pc), f'), w')) :
    ∃ i id rest x component elements, f.stack = .int i :: .ref id :: rest ∧
      w.heap[id]? = some (.array component elements) ∧ elements[i.toInt.toNat]? = some x ∧
      f' = { f with stack := x :: rest } ∧ w' = w ∧ pc = ins.next := by
  rw [run_loadElement hop, go_ok] at h
  obtain ⟨h, rfl⟩ := h
  unfold loadElement at h
  obtain ⟨i, _, _, hi, hpopped⟩ := bind_ok.1 h
  obtain ⟨stack, hstack, rfl, rfl⟩ := popInt_ok.1 hi
  obtain ⟨v, _, _, hv, helement⟩ := bind_ok.1 hpopped
  obtain ⟨rest, hrest, rfl, rfl⟩ := popRef_ok hv
  obtain ⟨⟨id, x⟩, w₁, hx, hpush⟩ := ofRun_bind_ok.1 helement
  obtain ⟨rfl, -, rfl, component, elements, harray, hget⟩ := element_ok hx
  obtain ⟨rfl, rfl⟩ := push_ok.1 hpush
  dsimp only at hrest
  exact ⟨i, id, rest, x, component, elements, by rw [hstack, hrest], harray, hget, rfl, rfl, rfl⟩

/-- The load of a string pushes a string with its units. -/
theorem run_loadString {units : Units} (hop : ins.op = .ldc ∨ ins.op = .ldcW)
    (hvalue : σ.program.cf.pool.value ins.operand.index = .ok (.string units)) (f : Frame)
    (w : World) :
    ∃ id w', run ins σ f w = ((.ok (.next ins.next), { f with stack := .ref id :: f.stack }), w') ∧
      w.Grown w' ∧ w'.heap[id]? = some (.string units) := by
  obtain ⟨id, w', hid, hgrown, hstring⟩ := Run.exists_intern σ w units
  refine ⟨id, w', ?_, hgrown, hstring⟩
  rw [run_loadConstant hop, go_ok, loadConstant_ok]
  exact ⟨⟨_, _, hvalue, hid, rfl⟩, rfl⟩

/-- A call that goes on behind itself was one of the library. -/
theorem run_invoke_ok
    (hop : ins.op = .invokevirtual ∨ ins.op = .invokestatic ∨ ins.op = .invokeinterface) :
    run ins σ f w = ((.ok (.next pc), f'), w') ↔
      ∃ ref descriptor args rest method v,
        CallsLibrary σ w f.stack ins.operand.index (ins.op = .invokestatic)
          (ins.op = .invokevirtual || ins.op = .invokeinterface) ref descriptor args rest method ∧
        method args σ w = (.ok v, w') ∧ pc = ins.next ∧
        f' = { f with stack := if descriptor.result ≠ "V" then v :: rest else rest } := by
  rw [run_invoke hop, invoke_ok]

end Step

end Cleartext.Machine
