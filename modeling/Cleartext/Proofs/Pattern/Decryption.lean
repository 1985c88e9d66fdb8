import Cleartext.Pattern.Decryption
import Cleartext.Proofs.Pattern.Operands

/-!
# Finding decryption calls

A call site is a load of a string, followed by a call of a routine that decrypts,
with nothing that leads between the two (`IsCallSite`).  Code is searched with two
templates, one for each way to load a string.  `callAt?` is what both come to at two
instructions in a row, without steps, demands and bindings:

* `firstMatch_decryptCalls`: the templates match where `callAt?` finds a call site,
  and the match holds its two instructions.
* `callAt?_eq_some` and `callAt?_eq_none`: what is found is a call site, and where
  nothing is found there is none.
* `exists_isCallSite`: what a scan finds are call sites.
* `WellKinded.callAt?_eq`: the answer stays the same while the pool grows.

The last one needs operands of the right kinds.  An index at which nothing stands may
be given to a constant that is added later, and looking up a reference where there is
no member comes to no answer at all.
-/

namespace Cleartext.Pattern

variable {p q : Pool} {barriers : List Int} {load call ins : Instruction}
  {rest instructions : List Instruction}

/-- An instruction loads a string. -/
def Loads (p : Pool) (ins : Instruction) (units : Units) : Prop :=
  (ins.op = .ldc ∨ ins.op = .ldcW) ∧ p.value ins.operand.index = .ok (.string units)

/-- An instruction calls a routine that decrypts. -/
def Calls (p : Pool) (ins : Instruction) (owner name : String) : Prop :=
  ins.op = .invokestatic ∧ ∃ kind,
    p.ref ins.operand.index = .ok { kind, owner, name, descriptor := decryptDescriptor }

/-! ## One look at the code -/

/-- The match of a call. -/
def found (template : Template) (load call : Instruction) (units : Units) (r : Ref) : Match :=
  { template
    bindings := [("literal", ⟨load.operand.index, .constant (.string units)⟩),
      ("class", ⟨call.operand.index, .text r.owner⟩),
      ("method", ⟨call.operand.index, .text r.name⟩)]
    instructions := [load, call] }

/-- The string that is loaded and the routine that it is handed to, if two instructions in
a row are a call site. -/
def callAt? (p : Pool) (barriers : List Int) (load call : Instruction) :
    Except Error (Option (Units × Ref)) :=
  if load.op = .ldc ∨ load.op = .ldcW then
    match p.value load.operand.index with
    | .ok (.string units) =>
      if (call.offset : Int) ∉ barriers ∧ call.op = .invokestatic then
        match p.ref call.operand.index with
        | .ok r => .ok (if r.descriptor = decryptDescriptor then some (units, r) else none)
        | .error .collapsed => .error .collapsed
        | .error _ => .ok none
      else .ok none
    | _ => .ok none
  else .ok none

/-- The operand of a load or of a call is looked up in the pool. -/
theorem resolve_exactly {op : Opcode} (hop : ins.op = op)
    (hops : op = .ldc ∨ op = .ldcW ∨ op = .invokestatic) :
    Family.resolve p ins (.exactly op) =
      (do
        return (← orNothing (poolMeaning p op ins.operand.index)).map (ins.operand.index, ·)) := by
  obtain ⟨op', operand, wide, offset⟩ := ins
  obtain rfl : op' = op := hop
  rcases hops with rfl | rfl | rfl <;> rfl

/-- A load is checked for a string. -/
theorem check_load {op : Opcode} (hop : op = .ldc ∨ op = .ldcW) :
    Step.check p load [] { family := .exactly op, demand := .bind "literal" true } =
      .ok (if load.op = op then
        match p.value load.operand.index with
        | .ok (.string units) => some [("literal", ⟨load.operand.index, .constant (.string units)⟩)]
        | _ => none
      else none) := by
  by_cases heq : load.op = op
  · have hmeaning : poolMeaning p op load.operand.index =
        (do return .constant (← p.value load.operand.index)) := by
      rcases hop with rfl | rfl <;> rfl
    have hcollapsed := value_ne_collapsed p load.operand.index
    rw [if_pos heq]
    unfold Step.check
    rw [resolve_exactly heq (by tauto), hmeaning]
    simp only [Family.accepts, heq, decide_true, Bool.not_true, Bool.false_eq_true, if_false,
      Demand.isAny]
    cases hv : p.value load.operand.index with
    | error e =>
      cases e with
      | collapsed => exact absurd hv hcollapsed
      | _ => rfl
    | ok v => cases v <;> rfl
  · rw [if_neg heq]
    unfold Step.check
    rw [if_pos]
    simp [Family.accepts, heq]

theorem agrees_text (s t : String) : (Meaning.text s).agrees (.text t) = decide (t = s) := by
  simp [Meaning.agrees, Meaning.number?, eq_comm]

/-- A call is checked for the descriptor of a routine that decrypts. -/
theorem check_call (b : Binding) :
    Step.check p call [("literal", b)]
        { family := .exactly .invokestatic
          demand := .ref (.bind "class" false) (.bind "method" false) (.text decryptDescriptor) } =
      if call.op = .invokestatic then
        match p.ref call.operand.index with
        | .ok r => .ok (if r.descriptor = decryptDescriptor then
            some [("literal", b), ("class", ⟨call.operand.index, .text r.owner⟩),
              ("method", ⟨call.operand.index, .text r.name⟩)]
          else none)
        | .error .collapsed => .error .collapsed
        | .error _ => .ok none
      else .ok none := by
  by_cases heq : call.op = .invokestatic
  · have hmeaning : poolMeaning p .invokestatic call.operand.index =
        (do return .ref (← p.ref call.operand.index)) := rfl
    rw [if_pos heq]
    unfold Step.check
    rw [resolve_exactly heq (by tauto), hmeaning]
    simp only [Family.accepts, heq, decide_true, Bool.not_true, Bool.false_eq_true, if_false,
      Demand.isAny]
    cases hr : p.ref call.operand.index with
    | error e => cases e <;> rfl
    | ok r =>
      have hdemand : Demand.check call.operand.index (.ref r) [("literal", b)]
          (.ref (.bind "class" false) (.bind "method" false) (.text decryptDescriptor)) =
          if r.descriptor = decryptDescriptor then
            some [("literal", b), ("class", ⟨call.operand.index, .text r.owner⟩),
              ("method", ⟨call.operand.index, .text r.name⟩)]
          else none := by
        simp [Demand.check, Demand.text, Demand.exactly, List.lookup_cons, agrees_text]
      exact congrArg Except.ok hdemand
  · rw [if_neg heq]
    unfold Step.check
    rw [if_pos]
    simp [Family.accepts, heq]

theorem matchAt_decryptCall {op : Opcode} (hop : op = .ldc ∨ op = .ldcW) (name : String) :
    (decryptCall name op).matchAt p barriers (load :: call :: rest) =
      if load.op = op then
        (callAt? p barriers load call).map
          (Option.map fun (units, r) => found (decryptCall name op) load call units r)
      else .ok none := by
  unfold Template.matchAt
  simp only [decryptCall, List.length_cons, List.length_nil]
  rw [if_neg (by omega), check_load hop]
  by_cases heq : load.op = op
  · rw [if_pos heq, if_pos heq, callAt?, if_pos (heq ▸ hop)]
    cases hv : p.value load.operand.index with
    | error e => rfl
    | ok v =>
      cases v with
      | string units =>
        dsimp only [bind, Except.bind]
        unfold checkSteps
        by_cases hbarrier : (call.offset : Int) ∈ barriers
        · rw [if_pos hbarrier, if_neg (by simp [hbarrier])]
          rfl
        · rw [if_neg hbarrier, check_call]
          by_cases hcall : call.op = .invokestatic
          · rw [if_pos hcall, if_pos ⟨hbarrier, hcall⟩]
            cases hr : p.ref call.operand.index with
            | error e => cases e <;> rfl
            | ok r =>
              dsimp only
              by_cases hdescriptor : r.descriptor = decryptDescriptor
              · rw [if_pos hdescriptor, if_pos hdescriptor]
                rfl
              · rw [if_neg hdescriptor, if_neg hdescriptor]
                rfl
          · rw [if_neg hcall, if_neg (by simp [hcall])]
            rfl
      | _ => rfl
  · rw [if_neg heq, if_neg heq]
    rfl

/-- The template of a call whose string is loaded by `op`. -/
def templateOf (op : Opcode) : Template :=
  if op = .ldc then decryptCall "decrypt-ldc" .ldc else decryptCall "decrypt-ldc_w" .ldcW

/-- The two templates exclude each other: which of them can match is up to the load. -/
theorem firstMatch_decryptCalls :
    firstMatch p barriers (load :: call :: rest) decryptCalls =
      (callAt? p barriers load call).map
        (Option.map fun (units, r) => found (templateOf load.op) load call units r) := by
  unfold decryptCalls
  simp only [firstMatch, matchAt_decryptCall (.inl rfl), matchAt_decryptCall (.inr rfl)]
  by_cases hldc : load.op = .ldc
  · rw [if_pos hldc, if_neg (by rw [hldc]; decide), templateOf, if_pos hldc]
    rcases callAt? p barriers load call with _ | _ | _ <;> rfl
  · rw [if_neg hldc, templateOf, if_neg hldc]
    by_cases hldcW : load.op = .ldcW
    · rw [if_pos hldcW]
      rcases callAt? p barriers load call with _ | _ | _ <;> rfl
    · rw [if_neg hldcW, callAt?, if_neg (not_or.2 ⟨hldc, hldcW⟩)]
      rfl

/-! ## Call sites -/

/-- A call site: a string is loaded, and nothing else leads to the routine that it
is handed to. -/
structure IsCallSite (p : Pool) (barriers : List Int) (load call : Instruction) (units : Units)
    (owner name : String) : Prop where
  loads : Loads p load units
  calls : Calls p call owner name
  guarded : (call.offset : Int) ∉ barriers

theorem callAt?_eq_some {units : Units} {r : Ref}
    (h : callAt? p barriers load call = .ok (some (units, r))) :
    IsCallSite p barriers load call units r.owner r.name := by
  unfold callAt? at h
  split at h
  · rename_i hop
    split at h
    · rename_i units' hvalue
      split at h
      · rename_i hcall
        split at h
        · rename_i r' href
          replace h := Except.ok.inj h
          split at h
          · rename_i hdescriptor
            obtain ⟨rfl, rfl⟩ := Prod.mk.inj (Option.some.inj h)
            exact ⟨⟨hop, hvalue⟩, ⟨hcall.2, r'.kind, by rw [href, ← hdescriptor]⟩, hcall.1⟩
          · cases h
        · cases h
        · cases h
      · cases h
    · cases h
  · cases h

theorem callAt?_eq_none (h : callAt? p barriers load call = .ok none) {units : Units}
    {owner name : String} : ¬ IsCallSite p barriers load call units owner name := by
  intro hsite
  obtain ⟨⟨hop, hvalue⟩, ⟨hcall, kind, href⟩, hguarded⟩ := hsite
  unfold callAt? at h
  rw [if_pos hop, hvalue] at h
  simp only [if_pos (⟨hguarded, hcall⟩ : (call.offset : Int) ∉ barriers ∧ _), href] at h
  simp at h

/-! ## A pool that grows -/

/-- The operands of a load and of the call behind it are of the kinds that a call
site asks for: the load names an entry, and if that is a string, the call names a
member. -/
def WellKinded (p : Pool) (barriers : List Int) (load call : Instruction) : Prop :=
  load.op = .ldc ∨ load.op = .ldcW → call.op = .invokestatic → (call.offset : Int) ∉ barriers →
    (p.get? load.operand.index).isSome ∧
      ∀ units, p.value load.operand.index = .ok (.string units) →
        ∃ kind owner nameAndType,
          p.get? call.operand.index = some (.member kind owner nameAndType)

/-- Where no call site can be, the pool does not matter. -/
theorem callAt?_of_not (h : ¬ ((load.op = .ldc ∨ load.op = .ldcW) ∧ call.op = .invokestatic ∧
    (call.offset : Int) ∉ barriers)) : callAt? p barriers load call = .ok none := by
  unfold callAt?
  split
  · rename_i hop
    split
    · rw [if_neg fun hcall => h ⟨hop, hcall.2, hcall.1⟩]
    · rfl
  · rfl

/-- A look at operands of the right kinds comes to the same answer in every later
pool. -/
theorem WellKinded.callAt?_eq (h : WellKinded p barriers load call) (hclosed : p.Closed)
    (hextends : p.Extends q) : callAt? q barriers load call = callAt? p barriers load call ∧
      ∃ answer, callAt? p barriers load call = .ok answer := by
  by_cases hops : (load.op = .ldc ∨ load.op = .ldcW) ∧ call.op = .invokestatic ∧
      (call.offset : Int) ∉ barriers
  · obtain ⟨hop, hcall, hguarded⟩ := hops
    obtain ⟨hload, hmember⟩ := h hop hcall hguarded
    unfold callAt?
    rw [if_pos hop, if_pos hop, hextends.value_eq hclosed hload]
    cases hvalue : p.value load.operand.index with
    | error e => exact ⟨rfl, none, rfl⟩
    | ok v =>
      cases v with
      | string units =>
        obtain ⟨kind, o, n, hget⟩ := hmember units hvalue
        have hcollapsed := ref_ne_collapsed hget
        dsimp only
        rw [if_pos ⟨hguarded, hcall⟩, if_pos ⟨hguarded, hcall⟩,
          hextends.ref_eq hclosed (by rw [hget]; rfl)]
        cases href : p.ref call.operand.index with
        | ok r => exact ⟨rfl, _, rfl⟩
        | error e =>
          cases e with
          | collapsed => exact absurd href hcollapsed
          | _ => exact ⟨rfl, none, rfl⟩
      | _ => exact ⟨rfl, none, rfl⟩
  · rw [callAt?_of_not hops, callAt?_of_not hops]
    exact ⟨rfl, none, rfl⟩

/-! ## The next call site -/

theorem next?_singleton : next? p barriers decryptCalls [ins] = .ok none := by
  rfl

/-- Behind a call site the search goes on with what follows the call, and elsewhere
with the next instruction. -/
theorem next?_cons_cons :
    next? p barriers decryptCalls (load :: call :: rest) =
      match callAt? p barriers load call with
      | .error e => .error e
      | .ok (some (units, r)) => .ok (some (found (templateOf load.op) load call units r, rest))
      | .ok none => next? p barriers decryptCalls (call :: rest) := by
  conv_lhs => unfold next?
  rw [firstMatch_decryptCalls]
  rcases callAt? p barriers load call with _ | _ | _ <;> rfl

/-! ## All call sites -/

theorem next?_eq_some {m : Match} {after : List Instruction}
    (h : next? p barriers decryptCalls instructions = .ok (some (m, after))) :
    ∃ load call units owner name, IsCallSite p barriers load call units owner name ∧
      m.instructions = [load, call] := by
  induction instructions with
  | nil => cases h
  | cons load rest ih =>
    cases rest with
    | nil =>
      rw [next?_singleton] at h
      cases h
    | cons call rest =>
      rw [next?_cons_cons] at h
      split at h
      · cases h
      · rename_i units r hcall
        obtain ⟨rfl, -⟩ := Prod.mk.inj (Option.some.inj (Except.ok.inj h))
        exact ⟨load, call, units, r.owner, r.name, callAt?_eq_some hcall, rfl⟩
      · exact ih h

/-- What a scan finds are call sites. -/
theorem exists_isCallSite {m : Match}
    (h : .ok m ∈ scan p barriers decryptCalls instructions) :
    ∃ load call units owner name, IsCallSite p barriers load call units owner name ∧
      m.instructions = [load, call] := by
  suffices hfrom : ∀ fuel instructions, .ok m ∈ scanFrom p barriers decryptCalls fuel instructions →
      ∃ load call units owner name, IsCallSite p barriers load call units owner name ∧
        m.instructions = [load, call] from hfrom _ _ h
  intro fuel
  induction fuel with
  | zero => exact fun _ h => absurd h (by simp [scanFrom])
  | succ fuel ih =>
    intro instructions h
    unfold scanFrom at h
    split at h
    · simp at h
    · simp at h
    · rename_i m' after hnext
      rcases List.mem_cons.1 h with hm | hlater
      · obtain rfl := Except.ok.inj hm
        exact next?_eq_some hnext
      · exact ih after hlater

end Cleartext.Pattern
