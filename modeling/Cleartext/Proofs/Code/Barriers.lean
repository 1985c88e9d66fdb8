import Cleartext.Pattern.Scan
import Cleartext.Proofs.Code.Placement

/-!
# What leads to a place of edited code

A place of some code is led to by a jump, or by a row of the exception table.  Edits that
leave the jumps alone leave them leading where they led.  A row goes when its range is empty
behind the edits, that is, when nothing is left of what it protects.

`Edit.StillLeads` leaves out such rows.  What still leads to an instruction leads to what it
has become (`Edit.Rewritten.leads`).
-/

namespace Cleartext

theorem exists_getElem?_of_forall₂ {α β : Type} {R : α → β → Prop} {items : List α}
    {answers : List β} (h : List.Forall₂ R items answers) {i : Nat} {a : α}
    (ha : items[i]? = some a) : ∃ b, answers[i]? = some b ∧ R a b := by
  have hi := forall₂_getElem? h i
  rw [ha] at hi
  cases hb : answers[i]? with
  | none =>
    rw [hb] at hi
    cases hi
  | some b =>
    rw [hb] at hi
    cases hi with
    | some hab => exact ⟨b, rfl, hab⟩

/-- Only jumps have distances. -/
theorem Operand.distances_of_index? {s : Shape} {o : Operand s} {i : UInt16}
    (h : o.index? = some i) : o.distances = [] := by
  cases o with
  | branch16 | branch32 | table | lookup => cases h
  | _ => rfl

theorem Operand.distances_of_shape {s : Shape} (o : Operand s)
    (h : s ∉ [Shape.branch16, .branch32, .table, .lookup]) : o.distances = [] := by
  cases o with
  | branch16 | branch32 | table | lookup => exact absurd (by simp) h
  | _ => rfl

/-- The opcodes in front of the jumps do not jump. -/
theorem Instruction.distances_of_code_le {ins : Instruction} (h : ins.op.code ≤ Opcode.dcmpg.code) :
    ins.operand.distances = [] := by
  have hshapes : ∀ n ≤ Opcode.dcmpg.code.toNat, (⟨UInt8.ofNat n⟩ : Opcode).shape ∉
      [Shape.branch16, .branch32, .table, .lookup] := by
    decide +kernel
  have hshape := hshapes ins.op.code.toNat (UInt8.le_iff_toNat_le.1 h)
  rw [UInt8.ofNat_toNat] at hshape
  exact ins.operand.distances_of_shape hshape

/-! ## Places in a plan -/

namespace Edit

variable {edits : List Edit} {old new : List Instruction} {oldLength newLength : Nat}

/-- What is not deleted is kept or replaced. -/
theorem planned_ne_nil {ins : Instruction} (h : ∀ edit ∈ edits, edit ≠ .delete ins.offset) :
    planned edits ins ≠ [] := by
  have hsurvives : ∀ kept : Instruction, (survivor edits ins.offset (some kept)).isSome := by
    induction edits with
    | nil => exact fun _ => rfl
    | cons edit edits ih =>
      rw [List.forall_mem_cons] at h
      intro kept
      unfold survivor
      rw [List.foldl_cons]
      cases edit with
      | replace o new =>
        by_cases ho : o = ins.offset
        · simp only [if_pos ho]
          exact ih h.2 new
        · simp only [if_neg ho]
          exact ih h.2 kept
      | delete o =>
        have ho : ¬ o = ins.offset := fun ho => h.1 (by rw [ho])
        simp only [if_neg ho]
        exact ih h.2 kept
      | insert => exact ih h.2 kept
  obtain ⟨kept, hkept⟩ := Option.isSome_iff_exists.1 (hsurvives ins)
  rw [planned, hkept]
  simp

/-- Where nothing is inserted, an instruction becomes one at most. -/
theorem length_planned_le (h : ∀ edit ∈ edits, (∃ o new, edit = .replace o new) ∨
    ∃ o, edit = .delete o) (ins : Instruction) : (planned edits ins).length ≤ 1 := by
  have hinserted : inserted edits ins.offset = [] := by
    refine List.flatMap_eq_nil_iff.2 fun edit hedit => ?_
    obtain ⟨o, new, rfl⟩ | ⟨o, rfl⟩ := h edit hedit
    · rfl
    · rfl
  rw [planned, hinserted, List.nil_append]
  exact Option.length_toList_le

theorem plan_cons (edits : List Edit) (ins : Instruction) (rest : List Instruction) :
    plan edits (ins :: rest) =
      (planned edits ins).map (fun new => (ins.offset, new)) ++ plan edits rest := rfl

theorem ahead_succ (edits : List Edit) (ins : Instruction) (rest : List Instruction) (m : Nat) :
    ahead edits (ins :: rest) (m + 1) = (planned edits ins).length + ahead edits rest m := by
  simp [ahead]

/-- Where nothing is inserted, an instruction of the plan is the first in its place. -/
theorem exists_ahead (hsingle : ∀ ins ∈ old, (planned edits ins).length ≤ 1) {k : Nat}
    {entry : Nat × Instruction} (h : (plan edits old)[k]? = some entry) :
    ∃ m ins, old[m]? = some ins ∧ ins.offset = entry.1 ∧ ahead edits old m = k := by
  induction old generalizing k with
  | nil => cases h
  | cons ins rest ih =>
    rw [List.forall_mem_cons] at hsingle
    rw [plan_cons] at h
    by_cases hk : k < (planned edits ins).length
    · obtain rfl : k = 0 := by omega
      rw [List.getElem?_append_left (by simpa using hk), List.getElem?_map] at h
      obtain ⟨new, -, rfl⟩ := Option.map_eq_some_iff.1 h
      exact ⟨0, ins, rfl, rfl, rfl⟩
    · rw [List.getElem?_append_right (by simpa using hk), List.length_map] at h
      obtain ⟨m, other, hother, hoffset, hahead⟩ := ih hsingle.2 h
      refine ⟨m + 1, other, hother, hoffset, ?_⟩
      rw [ahead_succ, hahead]
      omega

/-- Instructions are told apart by where they start. -/
theorem index_unique (hold : Consecutive 0 old oldLength) {m n : Nat} {ins other : Instruction}
    (hm : old[m]? = some ins) (hn : old[n]? = some other) (hoffset : ins.offset = other.offset) :
    m = n := by
  have hmLength := (List.getElem?_eq_some_iff.1 hm).1
  have hnLength := (List.getElem?_eq_some_iff.1 hn).1
  rw [← @placeAt_of_getElem? old oldLength m ins hm,
    ← @placeAt_of_getElem? old oldLength n other hn] at hoffset
  rcases Nat.lt_trichotomy m n with hlt | rfl | hlt
  · exact absurd hoffset (hold.placeAt_lt hmLength hlt).ne
  · rfl
  · exact absurd hoffset.symm (hold.placeAt_lt hnLength hlt).ne

theorem Lands.getElem? (hold : Consecutive 0 old oldLength) {m : Nat} {ins : Instruction} {t' : Int}
    (hm : old[m]? = some ins) (h : Lands edits old new ins.offset t') :
    ∃ ins', new[ahead edits old m]? = some ins' ∧ (ins'.offset : Int) = t' := by
  obtain ⟨n, other, ins', hn, hoffset, hins', ht'⟩ := h
  obtain rfl := index_unique hold hm hn (by omega)
  exact ⟨ins', hins', ht'⟩

/-- A row keeps its range when something in it is kept. -/
theorem Follows.lt_of_planned (hlength : new.length = ahead edits old old.length)
    (hold : Consecutive 0 old oldLength) (hnew : Consecutive 0 new newLength)
    {start start' stop stop' : Int} (hstart : Follows edits old new oldLength newLength start start')
    (hstop : Follows edits old new oldLength newLength stop stop') {ins : Instruction}
    (hins : ins ∈ old) (hfrom : start ≤ ins.offset) (hto : (ins.offset : Int) < stop)
    (hplanned : planned edits ins ≠ []) : start' < stop' := by
  obtain ⟨a, -, rfl, rfl⟩ := hstart.place hlength
  obtain ⟨b, hb, rfl, rfl⟩ := hstop.place hlength
  obtain ⟨m, hm⟩ := List.getElem?_of_mem hins
  have hmLength := (List.getElem?_eq_some_iff.1 hm).1
  have hplace := @placeAt_of_getElem? old oldLength m ins hm
  have ham : a ≤ m := by
    by_contra hlt
    have hplaces := hold.placeAt_lt hmLength (Nat.lt_of_not_le hlt)
    omega
  have hmb : m + 1 ≤ b := by
    by_contra hlt
    have hplaces := hold.placeAt_le (Nat.le_of_lt_succ (Nat.lt_of_not_le hlt))
    omega
  have hstep : ahead edits old m < ahead edits old (m + 1) := by
    have hpos := List.length_pos_iff.2 hplanned
    unfold ahead
    rw [List.take_add_one, hm]
    simp only [Option.toList_some, List.flatMap_append, List.length_append,
      List.flatMap_singleton]
    omega
  have haheads : ahead edits old a < ahead edits old b :=
    ((ahead_mono edits old ham).trans_lt hstep).trans_le (ahead_mono edits old hmb)
  have hinside : ahead edits old a < new.length := by
    rw [hlength]
    exact haheads.trans_le (ahead_mono edits old hb)
  exact_mod_cast hnew.placeAt_lt hinside haheads

/-! ## What still leads to a place -/

/-- Something leads to a place of some code and goes on doing so behind some edits: a jump,
or a row of the exception table that protects an instruction of which something is left. -/
def StillLeads (edits : List Edit) (body : MethodBody) (old : List Instruction) (place : Nat) :
    Prop :=
  (∃ ins ∈ old, (place : Int) ∈ ins.targets) ∨
    ∃ row ∈ body.handlers, row.target.toNat = place ∧
      ∃ ins ∈ old, row.start.toNat ≤ ins.offset ∧ ins.offset < row.stop.toNat ∧
        planned edits ins ≠ []

/-- A row that protects something of which something is left is kept. -/
theorem Rows.exists_row (hlength : new.length = ahead edits old old.length)
    (hold : Consecutive 0 old oldLength) (hnew : Consecutive 0 new newLength)
    {rows rows' : List Handler} (hrows : Rows edits old new oldLength newLength rows rows')
    {row : Handler} (hrow : row ∈ rows) {ins : Instruction} (hins : ins ∈ old)
    (hfrom : row.start.toNat ≤ ins.offset) (hto : ins.offset < row.stop.toNat)
    (hplanned : planned edits ins ≠ []) :
    ∃ row' ∈ rows', Lands edits old new row.target.toNat row'.target.toNat := by
  induction hrows with
  | nil => cases hrow
  | keep _ _ htarget _ _ _ ih =>
    rcases List.mem_cons.1 hrow with rfl | hrow
    · exact ⟨_, List.mem_cons_self, htarget⟩
    · obtain ⟨row', hrow', hlands⟩ := ih hrow
      exact ⟨row', List.mem_cons_of_mem _ hrow', hlands⟩
  | drop hstart hstop _ hrange _ ih =>
    rcases List.mem_cons.1 hrow with rfl | hrow
    · have hlt := hstart.lt_of_planned hlength hold hnew hstop hins (by omega) (by omega) hplanned
      omega
    · exact ih hrow

end Edit

theorem mem_barriersOf {body : MethodBody} {code : List Instruction} {place : Int} :
    place ∈ Pattern.barriersOf body code ↔
      (∃ ins ∈ code, place ∈ ins.targets) ∨
        ∃ row ∈ body.handlers, (row.target.toNat : Int) = place := by
  simp [Pattern.barriersOf]

namespace Edit

variable {edits : List Edit} {body body' : MethodBody} {old new : List Instruction}

/-- What still leads to an instruction leads to what it has become. -/
theorem Rewritten.leads (h : Rewritten edits old body new body')
    (hold : Consecutive 0 old body.bytecode.length)
    (hjumps : ∀ ins ∈ old, ins.operand.distances ≠ [] → planned edits ins = [ins])
    {m : Nat} {ins ins' : Instruction} (hm : old[m]? = some ins)
    (hins' : new[ahead edits old m]? = some ins') (hleads : StillLeads edits body old ins.offset) :
    (ins'.offset : Int) ∈ Pattern.barriersOf body' new := by
  have hnew := (Instruction.decodeAll_ok.1 h.decoded).consecutive
  rw [Nat.zero_add] at hnew
  have hlength : new.length = ahead edits old old.length := by
    rw [← length_plan, ← @List.length_map _ _ new Instruction.unplaced, h.instructions,
      List.length_map]
  have hlanding {t' : Int} (hlands : Lands edits old new ins.offset t') :
      (ins'.offset : Int) = t' := by
    obtain ⟨other, hother, ht'⟩ := hlands.getElem? hold hm
    obtain rfl := Option.some.inj (hins'.symm.trans hother)
    exact ht'
  rw [Cleartext.mem_barriersOf]
  rcases hleads with ⟨jump, hjump, htarget⟩ | ⟨row, hrow, htarget, kept, hkept, hfrom, hto, hplanned⟩
  · obtain ⟨d, hd, hplace⟩ := List.mem_map.1 htarget
    have hentry : (jump.offset, jump) ∈ plan edits old := by
      refine List.mem_flatMap.2 ⟨jump, hjump, ?_⟩
      rw [hjumps jump hjump (List.ne_nil_of_mem hd)]
      exact List.mem_singleton_self _
    obtain ⟨k, hk⟩ := List.getElem?_of_mem hentry
    obtain ⟨jump', hjump', hdistances⟩ := exists_getElem?_of_forall₂ h.jumps hk
    obtain ⟨j, hj⟩ := List.getElem?_of_mem hd
    obtain ⟨d', hd', hlands⟩ := exists_getElem?_of_forall₂ hdistances hj
    refine .inl ⟨jump', List.mem_of_getElem? hjump',
      List.mem_map.2 ⟨d', List.mem_of_getElem? hd', ?_⟩⟩
    simp only at hlands
    rw [hplace] at hlands
    exact (hlanding hlands).symm
  · obtain ⟨row', hrow', hlands⟩ :=
      h.handlers.exists_row hlength hold hnew hrow hkept hfrom hto hplanned
    rw [htarget] at hlands
    exact .inr ⟨row', hrow', (hlanding hlands).symm⟩

/-- Where nothing is inserted, every instruction of the new code is one of the plan, and
something leads to it where something still leads to its place in the old code. -/
theorem Rewritten.leads_of_plan (h : Rewritten edits old body new body')
    (hold : Consecutive 0 old body.bytecode.length)
    (hsingle : ∀ ins ∈ old, (planned edits ins).length ≤ 1)
    (hjumps : ∀ ins ∈ old, ins.operand.distances ≠ [] → planned edits ins = [ins]) :
    List.Forall₂ (fun entry ins' => ins'.unplaced = entry.2.lengthened.unplaced ∧
        (StillLeads edits body old entry.1 → (ins'.offset : Int) ∈ Pattern.barriersOf body' new))
      (plan edits old) new := by
  have hlength : (plan edits old).length = new.length := by
    simpa using (congrArg List.length h.instructions).symm
  refine List.forall₂_iff_get.2 ⟨hlength, fun k hk hk' => ⟨?_, fun hleads => ?_⟩⟩
  · have hget := congrArg (·[k]?) h.instructions
    simpa [hk, hk'] using hget
  · have hentry := List.getElem?_eq_getElem hk
    obtain ⟨m, ins, hm, hoffset, rfl⟩ := exists_ahead hsingle hentry
    rw [List.get_eq_getElem, ← hoffset] at hleads
    exact h.leads hold hjumps hm (List.getElem?_eq_getElem hk') hleads

end Edit

end Cleartext
