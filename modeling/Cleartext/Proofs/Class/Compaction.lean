import Cleartext.Proofs.Class.Meaning

/-!
# Compacting a pool

Shrinking marks what the class refers to, finds the key of every marked entry,
and keeps the first entry of every key.  This file says what the three steps
give.

* `mark_ok`: what is marked is closed under references.  The fuel is enough,
  because every entry puts its references on the list once.
* `key_ok`: the key of an entry is the key of its meaning, unless a cycle was
  met.  The depth is enough, because the entries on the way are distinct.
* `compact_ok`: a marked entry goes to a kept one of the same meaning.

Together they give `sameMeaning_compacted`: with the references of the kept
entries moved, every marked index means the same as before.
-/

namespace Cleartext

/-! ## Marking -/

/-- The entry at an index is marked. -/
def Marked (live : Array Bool) (i : UInt16) : Prop := live.getD i.toNat false = true

/-- The number of entries that are not marked. -/
def unmarked (live : Array Bool) : Nat := live.toList.count false

theorem marked_iff {live : Array Bool} {i : UInt16} :
    Marked live i ↔ live[i.toNat]? = some true := by
  unfold Marked
  rw [Array.getD_eq_getD_getElem?]
  cases live[i.toNat]? <;> simp

theorem marked_set {live : Array Bool} {i j : UInt16} (hi : i.toNat < live.size) :
    Marked (live.setIfInBounds i.toNat true) j ↔ j = i ∨ Marked live j := by
  rw [marked_iff, marked_iff, Array.getElem?_setIfInBounds]
  by_cases h : i.toNat = j.toNat
  · have hij : j = i := UInt16.toNat_inj.1 h.symm
    rw [if_pos h, if_pos hi]
    simp [hij]
  · have hij : j ≠ i := fun heq => h (by rw [heq])
    rw [if_neg h]
    simp [hij]

theorem unmarked_set {live : Array Bool} {i : Nat} (hi : live[i]? = some false) :
    unmarked (live.setIfInBounds i true) + 1 = unmarked live := by
  obtain ⟨hlt, hget⟩ := Array.getElem?_eq_some_iff.1 hi
  have hpos : 0 < live.toList.count false := by
    rw [List.count_pos_iff, Array.mem_toList_iff]
    exact Array.mem_of_getElem? hi
  unfold unmarked
  rw [Array.toList_setIfInBounds, List.count_set (by simpa using hlt), Array.getElem_toList, hget]
  show live.toList.count false - 1 + 0 + 1 = live.toList.count false
  omega

namespace Pool

variable {p : Pool}

theorem get_ok {i : UInt16} {c : Constant} : p.get i = .ok c ↔ p.get? i = some c := by
  unfold get
  cases p.get? i <;> simp

theorem lt_count_of_get? {i : UInt16} {c : Constant} (h : p.get? i = some c) :
    i.toNat < p.count := by
  rw [get?_eq_some] at h
  exact (Array.getElem?_eq_some_iff.1 h).1

/-- Marked indices have entries, and what these refer to is marked or still on
the list. -/
structure ClosedUpTo (p : Pool) (pending : List UInt16) (live : Array Bool) : Prop where
  size : live.size = p.count
  closed : ∀ i, Marked live i →
    ∃ c, p.get? i = some c ∧ ∀ r ∈ c.references, Marked live r ∨ r ∈ pending

/-- The entry at an index that is marked, when nothing is on the list. -/
theorem ClosedUpTo.entry {live : Array Bool} (h : p.ClosedUpTo [] live) {i : UInt16}
    (hi : Marked live i) : ∃ c, p.get? i = some c ∧ ∀ r ∈ c.references, Marked live r := by
  obtain ⟨c, hc, hrefs⟩ := h.closed i hi
  exact ⟨c, hc, fun r hr => (hrefs r hr).resolve_right (by simp)⟩

theorem length_references_le (c : Constant) : c.references.length ≤ 2 := by
  cases c <;> simp [Constant.references]

/-- An index that is marked need not be on the list. -/
theorem ClosedUpTo.skip {i : UInt16} {pending : List UInt16} {live : Array Bool}
    (h : p.ClosedUpTo (i :: pending) live) (hmarked : Marked live i) :
    p.ClosedUpTo pending live := by
  refine ⟨h.size, fun j hj => ?_⟩
  obtain ⟨d, hd, hrefs⟩ := h.closed j hj
  refine ⟨d, hd, fun r hr => ?_⟩
  rcases hrefs r hr with hr | hr
  · exact .inl hr
  · rcases List.mem_cons.1 hr with rfl | hr
    · exact .inl hmarked
    · exact .inr hr

/-- An index on the list can be marked when its references go on the list. -/
theorem ClosedUpTo.mark {i : UInt16} {c : Constant} {pending : List UInt16} {live : Array Bool}
    (h : p.ClosedUpTo (i :: pending) live) (hc : p.get? i = some c) :
    p.ClosedUpTo (c.references ++ pending) (live.setIfInBounds i.toNat true) := by
  have hlt : i.toNat < live.size := by rw [h.size]; exact lt_count_of_get? hc
  refine ⟨by rw [Array.size_setIfInBounds, h.size], fun j hj => ?_⟩
  rcases (marked_set hlt).1 hj with rfl | hj
  · exact ⟨c, hc, fun r hr => .inr (List.mem_append_left _ hr)⟩
  · obtain ⟨d, hd, hrefs⟩ := h.closed j hj
    refine ⟨d, hd, fun r hr => ?_⟩
    rcases hrefs r hr with hr | hr
    · exact .inl ((marked_set hlt).2 (.inr hr))
    · rcases List.mem_cons.1 hr with rfl | hr
      · exact .inl ((marked_set hlt).2 (.inl rfl))
      · exact .inr (List.mem_append_right _ hr)

private theorem markAux_ok : ∀ (fuel : Nat) (pending : List UInt16) (live live' : Array Bool),
    p.ClosedUpTo pending live → pending.length + 2 * unmarked live ≤ fuel →
    p.markAux fuel pending live = .ok live' →
    p.ClosedUpTo [] live' ∧ (∀ i, Marked live i → Marked live' i) ∧
      ∀ i ∈ pending, Marked live' i := by
  intro fuel
  induction fuel with
  | zero =>
    intro pending live live' hclosed hfuel h
    cases pending with
    | nil =>
      obtain rfl := Except.ok.inj h
      exact ⟨hclosed, fun _ hi => hi, by simp⟩
    | cons i pending => exact absurd hfuel (by simp)
  | succ fuel ih =>
    intro pending live live' hclosed hfuel h
    cases pending with
    | nil =>
      obtain rfl := Except.ok.inj h
      exact ⟨hclosed, fun _ hi => hi, by simp⟩
    | cons i pending =>
      rw [List.length_cons] at hfuel
      unfold markAux at h
      split at h
      · cases h
      · rename_i c hc
        rw [get_ok] at hc
        have hlt : i.toNat < live.size := by rw [hclosed.size]; exact lt_count_of_get? hc
        by_cases hmarked : Marked live i
        · -- The entry is marked already, and nothing is added.
          rw [if_pos (show live.getD i.toNat false = true from hmarked)] at h
          obtain ⟨hdone, hmono, hpending⟩ :=
            ih pending live live' (hclosed.skip hmarked) (by omega) h
          exact ⟨hdone, hmono, List.forall_mem_cons.2 ⟨hmono _ hmarked, hpending⟩⟩
        · -- The entry is marked now, and its references go on the list.
          rw [if_neg (show ¬ live.getD i.toNat false = true from hmarked)] at h
          have hfalse : live[i.toNat]? = some false := by
            rw [marked_iff, Array.getElem?_eq_getElem hlt] at hmarked
            rw [Array.getElem?_eq_getElem hlt]
            simpa using hmarked
          have hcount := unmarked_set hfalse
          have hrefs := length_references_le c
          obtain ⟨hdone, hmono, hpending⟩ := ih _ _ live' (hclosed.mark hc)
            (by rw [List.length_append]; omega) h
          refine ⟨hdone, fun j hj => hmono j ((marked_set hlt).2 (.inr hj)),
            List.forall_mem_cons.2 ⟨hmono _ ((marked_set hlt).2 (.inl rfl)), fun j hj => ?_⟩⟩
          exact hpending j (List.mem_append_right _ hj)

/-- Marking an index keeps what is marked closed under references. -/
theorem mark_ok {i x : UInt16} {live live' : Array Bool} (hclosed : p.ClosedUpTo [] live)
    (h : (p.mark i).run live = .ok (x, live')) :
    x = i ∧ p.ClosedUpTo [] live' ∧ (∀ j, Marked live j → Marked live' j) ∧ Marked live' i := by
  replace h : (do return (i, ← p.markAux (2 * p.count + 2) [i] live) :
      Except Error (UInt16 × Array Bool)) = .ok (x, live') := h
  obtain ⟨live'', hmark, h⟩ := Except.bind_ok.1 h
  obtain ⟨rfl, rfl⟩ := Prod.mk.inj (Except.pure_ok.1 h)
  have hpending : p.ClosedUpTo [i] live :=
    ⟨hclosed.size, fun j hj => by
      obtain ⟨c, hc, hrefs⟩ := hclosed.closed j hj
      exact ⟨c, hc, fun r hr => .inl ((hrefs r hr).resolve_right (by simp))⟩⟩
  have hle : unmarked live ≤ p.count := by
    rw [← hclosed.size]
    exact List.count_le_length
  obtain ⟨hdone, hmono, hmarked⟩ := markAux_ok _ [i] live live'' hpending
    (by rw [List.length_singleton]; omega) hmark
  exact ⟨rfl, hdone, hmono, hmarked i (by simp)⟩

end Pool

/-! ## Keys -/

/-- Whether the key of the entry is being found. -/
def KeyState.isActive : KeyState → Bool
  | active => true
  | _ => false

namespace Keys

/-- Which entries are active. -/
def active (s : Keys) : List Bool := s.states.toList.map KeyState.isActive

/-- The state with another key state at an index. -/
def put (s : Keys) (i : UInt16) (state : KeyState) : Keys :=
  { s with states := s.states.setIfInBounds i.toNat state }

theorem active_put (s : Keys) (i : UInt16) (state : KeyState) :
    (s.put i state).active = s.active.set i.toNat state.isActive := by
  unfold active put
  rw [Array.toList_setIfInBounds, List.map_set]

theorem length_active (s : Keys) : s.active.length = s.states.size := by
  simp [active]

/-- The keys that are found are those of meanings. -/
structure Right (p : Pool) (s : Keys) : Prop where
  size : s.states.size = p.count
  done : ∀ (i : UInt16) key, s.states[i.toNat]? = some (.done key) →
    ∃ m, p.Means i m ∧ m.key = key

theorem Right.put_active {p : Pool} {s : Keys} (h : s.Right p) (i : UInt16) :
    (s.put i .active).Right p := by
  refine ⟨by simp [put, h.size], fun j key hj => ?_⟩
  unfold put at hj
  rw [Array.getElem?_setIfInBounds] at hj
  split at hj
  · split at hj <;> simp at hj
  · exact h.done j key hj

theorem Right.put_done {p : Pool} {s : Keys} (h : s.Right p) {i : UInt16} {m : Meaning}
    (hm : p.Means i m) : (s.put i (.done m.key)).Right p := by
  refine ⟨by simp [put, h.size], fun j key hj => ?_⟩
  unfold put at hj
  rw [Array.getElem?_setIfInBounds] at hj
  split at hj
  · rename_i hij
    obtain rfl : i = j := UInt16.toNat_inj.1 hij
    split at hj
    · exact ⟨m, hm, by simpa using hj⟩
    · simp at hj
  · exact h.done j key hj

end Keys

namespace Pool

variable {p : Pool}

/-- The framed keys of the entries that an entry refers to. -/
def keyParts (p : Pool) (depth : Nat) (refs : List UInt16) : StateM Keys (List Bytes) :=
  refs.mapM fun r => return framedKey (← p.key depth r)

theorem keyParts_cons (depth : Nat) (r : UInt16) (refs : List UInt16) (s : Keys) :
    (p.keyParts depth (r :: refs)).run s =
      let first := (p.key depth r).run s
      let rest := (p.keyParts depth refs).run first.2
      (framedKey first.1 :: rest.1, rest.2) := by
  unfold keyParts
  rw [List.mapM_cons]
  rfl

theorem key_succ (depth : Nat) (i : UInt16) (s : Keys) :
    (p.key (depth + 1) i).run s =
      match s.states.getD i.toNat .active with
      | .active => ([], { s with cycle := some i })
      | .done key => (key, s)
      | .unseen =>
        match p.get? i with
        | none => ([], s.put i .active)
        | some c =>
          let parts := (p.keyParts depth c.references).run (s.put i .active)
          let key := c.keyHead ++ parts.1.flatten
          (key, parts.2.put i (.done key)) := by
  have hget (f : Keys → StateM Keys Bytes) : (getThe Keys >>= f).run s = (f s).run s := rfl
  rw [key, hget]
  cases s.states.getD i.toNat .active with
  | active => rfl
  | done key => rfl
  | unseen => cases p.get? i <;> rfl

/-- A cycle that was met is not forgotten. -/
theorem cycle_eq_none_of_key (depth : Nat) :
    (∀ i s, ((p.key depth i).run s).2.cycle = none → s.cycle = none) ∧
      ∀ refs s, ((p.keyParts depth refs).run s).2.cycle = none → s.cycle = none := by
  have hparts (depth : Nat)
      (hkey : ∀ i s, ((p.key depth i).run s).2.cycle = none → s.cycle = none) :
      ∀ refs s, ((p.keyParts depth refs).run s).2.cycle = none → s.cycle = none := by
    intro refs
    induction refs with
    | nil => exact fun s h => h
    | cons r refs ih =>
      intro s h
      rw [keyParts_cons] at h
      exact hkey r s (ih _ h)
  induction depth with
  | zero => exact ⟨fun i s h => h, hparts 0 fun i s h => h⟩
  | succ depth ih =>
    have hkey : ∀ i s, ((p.key (depth + 1) i).run s).2.cycle = none → s.cycle = none := by
      intro i s h
      rw [key_succ] at h
      split at h
      · exact absurd h (by simp)
      · exact h
      · split at h
        · exact h
        · exact ih.2 _ (s.put i .active) h
    exact ⟨hkey, hparts (depth + 1) hkey⟩

/-- What finding keys gives, when no cycle was met: the answer is right, and the
entries that are active stay so. -/
def Finds (p : Pool) (s s' : Keys) : Prop :=
  s'.Right p ∧ s'.active = s.active

private theorem getD_unseen {s : Keys} {i : UInt16}
    (h : s.states.getD i.toNat .active = .unseen) :
    i.toNat < s.states.size ∧ s.active[i.toNat]? = some false := by
  rw [Array.getD_eq_getD_getElem?] at h
  cases hget : s.states[i.toNat]? with
  | none => exact absurd h (by simp [hget])
  | some state =>
    obtain rfl : state = .unseen := by simpa [hget] using h
    refine ⟨(Array.getElem?_eq_some_iff.1 hget).1, ?_⟩
    simp [Keys.active, hget, KeyState.isActive]

private theorem getD_done {s : Keys} {i : UInt16} {key : Bytes}
    (h : s.states.getD i.toNat .active = .done key) :
    s.states[i.toNat]? = some (.done key) := by
  rw [Array.getD_eq_getD_getElem?] at h
  cases hget : s.states[i.toNat]? with
  | none => exact absurd h (by simp [hget])
  | some state => simpa [hget] using h

private theorem set_eq_self {flags : List Bool} {i : Nat} {b : Bool} (h : flags[i]? = some b) :
    flags.set i b = flags := by
  obtain ⟨hlt, rfl⟩ := List.getElem?_eq_some_iff.1 h
  exact List.set_getElem_self hlt

private theorem count_set_true {flags : List Bool} {i : Nat} (h : flags[i]? = some false) :
    (flags.set i true).count true = flags.count true + 1 := by
  obtain ⟨hlt, hget⟩ := List.getElem?_eq_some_iff.1 h
  rw [List.count_set hlt, hget]
  rfl

private theorem keyParts_ok {depth : Nat} {live : UInt16 → Prop}
    (hkey : ∀ i s, s.Right p → p.count < depth + s.active.count true → live i →
      ((p.key depth i).run s).2.cycle = none →
      ∃ m, p.Means i m ∧ ((p.key depth i).run s).1 = m.key ∧
        p.Finds s ((p.key depth i).run s).2) :
    ∀ refs s, s.Right p → p.count < depth + s.active.count true → (∀ r ∈ refs, live r) →
      ((p.keyParts depth refs).run s).2.cycle = none →
      ∃ parts, List.Forall₂ p.Means refs parts ∧
        ((p.keyParts depth refs).run s).1 = parts.map (fun m => framedKey m.key) ∧
        p.Finds s ((p.keyParts depth refs).run s).2 := by
  intro refs
  induction refs with
  | nil =>
    intro s hright _ _ _
    exact ⟨[], .nil, rfl, hright, rfl⟩
  | cons r refs ih =>
    intro s hright hroom hlive hcycle
    rw [keyParts_cons] at hcycle ⊢
    rw [List.forall_mem_cons] at hlive
    have hfirst := (cycle_eq_none_of_key depth).2 refs _ hcycle
    obtain ⟨m, hm, hkeyEq, hright', hactive⟩ := hkey r s hright hroom hlive.1 hfirst
    obtain ⟨parts, hparts, hkeys, hright'', hactive'⟩ := ih _ hright'
      (by rw [hactive]; exact hroom) hlive.2 hcycle
    refine ⟨m :: parts, .cons hm hparts, ?_, hright'', hactive'.trans hactive⟩
    simp only [List.map_cons, hkeyEq, hkeys]

/-- The key of an entry is the key of its meaning, unless a cycle was met.
The induction is on the depth; the entries that are active take up what the
depth has lost. -/
theorem key_ok {live : UInt16 → Prop}
    (hlive : ∀ i, live i → ∃ c, p.get? i = some c ∧ ∀ r ∈ c.references, live r) :
    ∀ depth i s, s.Right p → p.count < depth + s.active.count true → live i →
      ((p.key depth i).run s).2.cycle = none →
      ∃ m, p.Means i m ∧ ((p.key depth i).run s).1 = m.key ∧
        p.Finds s ((p.key depth i).run s).2 := by
  intro depth
  induction depth with
  | zero =>
    intro i s hright hroom
    have hle : s.active.count true ≤ s.active.length := List.count_le_length
    rw [s.length_active, hright.size] at hle
    omega
  | succ depth ih =>
    intro i s hright hroom hi hcycle
    obtain ⟨c, hc, hrefs⟩ := hlive i hi
    rw [key_succ] at hcycle ⊢
    cases hstate : s.states.getD i.toNat .active with
    | active => exact absurd hcycle (by simp [hstate])
    | done key =>
      obtain ⟨m, hm, hkey⟩ := hright.done i key (getD_done hstate)
      exact ⟨m, hm, hkey.symm, hright, rfl⟩
    | unseen =>
      obtain ⟨hlt, hfalse⟩ := getD_unseen hstate
      simp only [hstate, hc] at hcycle ⊢
      have hcount : (s.put i .active).active.count true = s.active.count true + 1 := by
        rw [s.active_put]
        exact count_set_true hfalse
      obtain ⟨parts, hparts, hkeys, hright', hactive⟩ := keyParts_ok ih c.references
        (s.put i .active) (hright.put_active i) (by omega) hrefs hcycle
      have hm : p.Means i (.node c.bare parts) := means_iff.2 ⟨c, parts, hc, rfl, hparts⟩
      have hkey : c.keyHead ++ ((p.keyParts depth c.references).run
          (s.put i .active)).1.flatten = (Meaning.node c.bare parts).key := by
        rw [hkeys, Meaning.key, Constant.keyHead_bare, Meaning.keys_eq, List.flatMap_map,
          List.flatMap_def]
      refine ⟨_, hm, hkey, ?_, ?_⟩
      · rw [hkey]
        exact hright'.put_done hm
      · rw [Keys.active_put, hactive, Keys.active_put, List.set_set]
        exact set_eq_self hfalse

end Pool

/-! ## Keeping the first entry of every meaning -/

namespace Pool

/-- The representation of a pool: slot zero is empty, the slots behind it are
laid out, and every index fits two bytes. -/
def WellFormed (p : Pool) : Prop :=
  ∃ slots, p.slots.toList = none :: slots ∧ Laid slots ∧ p.count < 65536

theorem Laid.proper {slots : List (Option Constant)} (h : Laid slots) :
    ∀ c, some c ∈ slots → c.Proper := by
  induction h with
  | nil => simp
  | narrow hproper _ _ ih | wide hproper _ _ ih =>
    intro d hd
    simp only [List.mem_cons, Option.some.injEq, reduceCtorEq, false_or] at hd
    rcases hd with rfl | hd
    · exact hproper
    · exact ih d hd

theorem WellFormed.proper {p : Pool} (h : p.WellFormed) : p.Proper := by
  obtain ⟨slots, hslots, hlaid, -⟩ := h
  intro c hc
  rw [hslots, List.mem_cons] at hc
  exact hlaid.proper c (hc.resolve_left (by simp))

theorem Laid.append {slots more : List (Option Constant)} (h : Laid slots)
    (hmore : Laid more) : Laid (slots ++ more) := by
  induction h with
  | nil => exact hmore
  | narrow hproper hwidth _ ih => exact .narrow hproper hwidth ih
  | wide hproper hwidth _ ih => exact .wide hproper hwidth ih

/-- The slots of one entry. -/
def slotsOf (c : Constant) : List (Option Constant) :=
  if c.width = 2 then [some c, none] else [some c]

theorem laid_slotsOf {c : Constant} (h : c.Proper) : Laid (slotsOf c) := by
  unfold slotsOf Constant.width
  cases hwide : c.tag.isWide with
  | true => exact .wide h hwide .nil
  | false => exact .narrow h hwide .nil

theorem length_slotsOf (c : Constant) : (slotsOf c).length = c.width := by
  unfold slotsOf Constant.width
  cases c.tag.isWide <;> rfl

theorem some_mem_slotsOf {c d : Constant} : some d ∈ slotsOf c ↔ d = c := by
  unfold slotsOf
  split <;> simp

/-- An entry that is appended stands behind the others. -/
theorem getElem?_append_slotsOf (slots : Array (Option Constant)) (c : Constant) :
    (slots ++ (slotsOf c).toArray)[slots.size]? = some (some c) := by
  rw [Array.getElem?_append_right (Nat.le_refl _), Nat.sub_self]
  unfold slotsOf
  split <;> rfl

theorem some_mem_append_slotsOf {slots : Array (Option Constant)} {c d : Constant} :
    some d ∈ (slots ++ (slotsOf c).toArray).toList ↔ some d ∈ slots.toList ∨ d = c := by
  rw [Array.toList_append, List.mem_append, some_mem_slotsOf]

/-- The entries of slots, the first of which has the index `k`. -/
def entriesFrom (k : Nat) (slots : List (Option Constant)) : List (UInt16 × Constant) :=
  (slots.zipIdx k).filterMap fun (slot, i) => slot.map fun c => (i.toUInt16, c)

theorem entriesFrom_none (k : Nat) (rest : List (Option Constant)) :
    entriesFrom k (none :: rest) = entriesFrom (k + 1) rest := by
  simp [entriesFrom, List.zipIdx_cons]

theorem entriesFrom_some (k : Nat) (c : Constant) (rest : List (Option Constant)) :
    entriesFrom k (some c :: rest) = (k.toUInt16, c) :: entriesFrom (k + 1) rest := by
  simp [entriesFrom, List.zipIdx_cons]

end Pool

namespace Compaction

variable {p : Pool} {live : Array Bool}

/-- The slot `n` holds an entry of `p` with the meaning `m`. -/
def Holds (p : Pool) (slots : Array (Option Constant)) (n : UInt16) (m : Meaning) : Prop :=
  ∃ c l, slots[n.toNat]? = some (some c) ∧ p.get? l = some c ∧ p.Means l m

/-- What holds when the entries in front of the index `k` have been placed. -/
structure Sound (p : Pool) (live : Array Bool) (k : Nat) (s : Compaction) : Prop where
  keys : s.keys.Right p
  idle : s.keys.active.count true = 0
  cycle : s.keys.cycle = none
  size : s.indices.size = p.count
  laid : ∃ rest, s.slots.toList = none :: rest ∧ Pool.Laid rest
  room : s.slots.size ≤ k
  kept : ∀ c, some c ∈ s.slots.toList → ∃ j, Marked live j ∧ p.get? j = some c
  placed : ∀ j, Marked live j → j.toNat < k →
    ∃ m, p.Means j m ∧ Holds p s.slots (s.indices.getD j.toNat 0) m
  first : ∀ key n, s.first[key]? = some n → ∃ m, m.key = key ∧ Holds p s.slots n m

/-- Nothing has to be done for indices without marked entries. -/
theorem Sound.advance {k k' : Nat} {s : Compaction} (h : s.Sound p live k) (hle : k ≤ k')
    (hnone : ∀ j, Marked live j → k ≤ j.toNat → k' ≤ j.toNat) : s.Sound p live k' :=
  { h with
    room := h.room.trans hle
    placed := fun j hj hlt => h.placed j hj (by
      by_contra hge
      have := hnone j hj (by omega)
      omega) }

theorem Holds.append {slots : Array (Option Constant)} {n : UInt16} {m : Meaning}
    (h : Holds p slots n m) (more : List (Option Constant)) :
    Holds p (slots ++ more.toArray) n m := by
  obtain ⟨c, l, hslot, hl, hm⟩ := h
  refine ⟨c, l, ?_, hl, hm⟩
  rw [Array.getElem?_append_left (Array.getElem?_eq_some_iff.1 hslot).1, hslot]

/-- The slots of a kept entry are appended. -/
theorem pushed_eq (slots : Array (Option Constant)) (c : Constant) :
    (if c.width = 2 then (slots.push (some c)).push none else slots.push (some c)) =
      slots ++ (Pool.slotsOf c).toArray := by
  unfold Pool.slotsOf
  by_cases h : c.width = 2
  · rw [if_pos h, if_pos h, Array.push_eq_append, Array.push_eq_append, Array.append_assoc]
    rfl
  · rw [if_neg h, if_neg h, Array.push_eq_append]

/-- What a placed entry leaves: it was merged with one of the same key, or it is
kept as the first of its key. -/
theorem place_ok {s s' : Compaction} {i : UInt16} {c : Constant} :
    s.place p i c = .ok s' ↔
      let found := (p.key (p.count + 1) i).run s.keys
      found.2.cycle = none ∧
        ((∃ n, s.first[found.1]? = some n ∧
            s' = { s with keys := found.2, indices := s.indices.setIfInBounds i.toNat n }) ∨
          (s.first[found.1]? = none ∧
            s' = { keys := found.2
                   indices := s.indices.setIfInBounds i.toNat s.slots.size.toUInt16
                   first := s.first.insert found.1 s.slots.size.toUInt16
                   slots := s.slots ++ (Pool.slotsOf c).toArray })) := by
  unfold place
  obtain ⟨key, keys⟩ := (p.key (p.count + 1) i).run s.keys
  simp only [pushed_eq]
  cases keys.cycle with
  | some j => simp
  | none => cases s.first[key]? <;> simp [eq_comm]

theorem getD_setIfInBounds {indices : Array UInt16} {i : UInt16} (hi : i.toNat < indices.size)
    (n j : UInt16) : (indices.setIfInBounds i.toNat n).getD j.toNat 0 =
      if j = i then n else indices.getD j.toNat 0 := by
  rw [Array.getD_eq_getD_getElem?, Array.getElem?_setIfInBounds]
  by_cases hij : j = i
  · rw [if_pos hij, if_pos (by rw [hij]), if_pos hi]
    rfl
  · rw [if_neg hij, if_neg (fun heq => hij (UInt16.toNat_inj.1 heq.symm)),
      Array.getD_eq_getD_getElem?]

/-! ### One step -/

section

variable {k k' : Nat} {s : Compaction} {i : UInt16} {c : Constant} {m : Meaning} {keys : Keys}
  (h : s.Sound p live k) (hi : i.toNat = k) (hc : p.get? i = some c) (hm : p.Means i m)
  (hnone : ∀ j, Marked live j → k < j.toNat → k' ≤ j.toNat)

include h hi hc hm hnone

/-- When the entries in front of `k` have their places and the entry at `k` gets
one, those in front of `k'` have theirs. -/
theorem Sound.placed_set {n : UInt16} {slots : Array (Option Constant)}
    (hslots : ∀ n m, Holds p s.slots n m → Holds p slots n m) (hholds : Holds p slots n m) :
    ∀ j, Marked live j → j.toNat < k' → ∃ m, p.Means j m ∧
      Holds p slots ((s.indices.setIfInBounds i.toNat n).getD j.toNat 0) m := by
  intro j hj hjk
  rw [getD_setIfInBounds (by rw [h.size]; exact Pool.lt_count_of_get? hc)]
  by_cases hji : j = i
  · subst hji
    rw [if_pos rfl]
    exact ⟨m, hm, hholds⟩
  · have hlt : j.toNat < k := by
      have hne : j.toNat ≠ k := fun heq => hji (UInt16.toNat_inj.1 (heq.trans hi.symm))
      by_contra hge
      have hle := hnone j hj (by omega)
      omega
    rw [if_neg hji]
    obtain ⟨m', hm', hj'⟩ := h.placed j hj hlt
    exact ⟨m', hm', hslots _ _ hj'⟩

/-- An entry whose key a kept entry has is merged with it: equal keys are keys of
equal meanings. -/
theorem Sound.merge {n : UInt16} (hp : p.WellFormed) (hle : k ≤ k') (hright : keys.Right p)
    (hidle : keys.active.count true = 0) (hcycle : keys.cycle = none)
    (hfirst : s.first[m.key]? = some n) :
    Sound p live k' { s with keys := keys, indices := s.indices.setIfInBounds i.toNat n } := by
  obtain ⟨m', hkey, hholds⟩ := h.first _ n hfirst
  have hsame : m' = m := by
    obtain ⟨d, l, -, -, hl⟩ := hholds
    exact Pool.key_injective hp.proper hl hm hkey
  rw [hsame] at hholds
  refine ⟨hright, hidle, hcycle, by simp [h.size], h.laid, h.room.trans hle, h.kept, ?_, h.first⟩
  exact h.placed_set hi hc hm hnone (fun _ _ hn => hn) hholds

/-- The first entry of a key is kept and goes behind the others. -/
theorem Sound.keep (hp : p.WellFormed) (hmarked : Marked live i) (hwidth : k + c.width ≤ k')
    (hright : keys.Right p) (hidle : keys.active.count true = 0) (hcycle : keys.cycle = none) :
    Sound p live k'
      { keys := keys
        indices := s.indices.setIfInBounds i.toNat s.slots.size.toUInt16
        first := s.first.insert m.key s.slots.size.toUInt16
        slots := s.slots ++ (Pool.slotsOf c).toArray } := by
  have hsize : s.slots.size.toUInt16.toNat = s.slots.size := by
    have hroom := h.room
    have hlt := i.toNat_lt
    exact UInt16.toNat_ofNat_of_lt' (by show s.slots.size < 65536; omega)
  have hholds : Holds p (s.slots ++ (Pool.slotsOf c).toArray) s.slots.size.toUInt16 m := by
    refine ⟨c, i, ?_, hc, hm⟩
    rw [hsize]
    exact Pool.getElem?_append_slotsOf s.slots c
  obtain ⟨rest, hrest, hlaid⟩ := h.laid
  have hproper : c.Proper := hp.proper c (Pool.mem_of_get? hc)
  refine ⟨hright, hidle, hcycle, by simp [h.size],
    ⟨rest ++ Pool.slotsOf c, by simp [hrest], hlaid.append (Pool.laid_slotsOf hproper)⟩, ?_, ?_,
    h.placed_set hi hc hm hnone (fun _ _ hn => hn.append _) hholds, ?_⟩
  · have hroom := h.room
    simp only [Array.size_append, List.size_toArray, Pool.length_slotsOf]
    omega
  · intro d hd
    rcases Pool.some_mem_append_slotsOf.1 hd with hd | rfl
    · exact h.kept d hd
    · exact ⟨i, hmarked, hc⟩
  · intro key n hget
    replace hget : (s.first.insert m.key s.slots.size.toUInt16)[key]? = some n := hget
    rw [Std.HashMap.getElem?_insert] at hget
    by_cases heq : m.key = key
    · rw [if_pos (by simpa using heq)] at hget
      obtain rfl := Option.some.inj hget
      exact ⟨m, heq, hholds⟩
    · rw [if_neg (by simpa using heq)] at hget
      obtain ⟨m', hm', hn'⟩ := h.first key n hget
      exact ⟨m', hm', hn'.append _⟩

omit hm

/-- The entry at `k` is placed. -/
theorem Sound.place {s' : Compaction} (hp : p.WellFormed) (hlive : p.ClosedUpTo [] live)
    (hmarked : Marked live i) (hwidth : k + c.width ≤ k') (hplace : s.place p i c = .ok s') :
    s'.Sound p live k' := by
  obtain ⟨hcycle, hcases⟩ := place_ok.1 hplace
  obtain ⟨m, hm, hkey, hright, hactive⟩ := Pool.key_ok (fun _ => hlive.entry) (p.count + 1) i
    s.keys h.keys (by rw [h.idle]; omega) hmarked hcycle
  have hidle := hactive ▸ h.idle
  rw [hkey] at hcases
  rcases hcases with ⟨n, hfirst, rfl⟩ | ⟨-, rfl⟩
  · exact h.merge hi hc hm hnone hp (by omega) hright hidle hcycle hfirst
  · exact h.keep hi hc hm hnone hp hmarked hwidth hright hidle hcycle

end

/-- The slots from `k` on, by their place among them. -/
theorem getElem?_slots_of_drop {slots : List (Option Constant)} {k : Nat}
    (hdrop : p.slots.toList.drop k = slots) (n : Nat) : p.slots[k + n]? = slots[n]? := by
  rw [← hdrop, List.getElem?_drop, Array.getElem?_toList]

/-! ### The whole run -/

/-- What holds of a first step and is kept by the rest holds of both, and either may
fail in the same way. -/
theorem match_bind {x : Except Error Compaction} {f : Compaction → Except Error Compaction}
    {P Q : Compaction → Prop} {E : Error → Prop}
    (hx : match x with | .ok s => P s | .error e => E e)
    (hf : ∀ s, P s → match f s with | .ok s' => Q s' | .error e => E e) :
    match x >>= f with | .ok s' => Q s' | .error e => E e := by
  cases x with
  | ok s => exact hf s hx
  | error e => exact hx

/-- The compaction before the first entry. -/
def start (p : Pool) : Compaction :=
  { keys := ⟨Array.replicate p.count .unseen, none⟩, indices := Array.replicate p.count 0,
    first := {}, slots := #[none] }

section Run

variable {P : Nat → Compaction → Prop} (hp : p.WellFormed) (hlive : p.ClosedUpTo [] live)
  (hskip : ∀ i c s, p.get? i = some c → ¬ Marked live i →
    (∀ j, Marked live j → i.toNat < j.toNat → i.toNat + c.width ≤ j.toNat) →
    P i.toNat s → P (i.toNat + c.width) s)
  (hplace : ∀ i c s s', p.get? i = some c → Marked live i →
    (∀ j, Marked live j → i.toNat < j.toNat → i.toNat + c.width ≤ j.toNat) →
    s.place p i c = .ok s' → P i.toNat s → P (i.toNat + c.width) s')

include hp hlive hskip hplace

/-- What every step keeps holds behind the last of some slots when it holds at the
first of them.  A step fails only where it holds.  The induction follows the layout,
so that an entry of two slots is one step. -/
theorem foldlM_cases {slots : List (Option Constant)} (hlaid : Pool.Laid slots) :
    ∀ (k : Nat) (s : Compaction), p.slots.toList.drop k = slots →
      k + slots.length = p.count → P k s →
      match (Pool.entriesFrom k slots).foldlM (fun s (i, c) =>
        if live.getD i.toNat false then s.place p i c else .ok s) s with
      | .ok s' => P p.count s'
      | .error e => ∃ i c s', p.get? i = some c ∧ Marked live i ∧ P i.toNat s' ∧
          s'.place p i c = .error e := by
  have hstep {k : Nat} {c : Constant} {rest : List (Option Constant)} {s : Compaction}
      (hdrop : p.slots.toList.drop k = some c :: rest) (hk : k < p.count)
      (hnone : ∀ j, Marked live j → k < j.toNat → k + c.width ≤ j.toNat) (hs : P k s) :
      match (if live.getD k.toUInt16.toNat false then s.place p k.toUInt16 c else .ok s) with
      | .ok s' => P (k + c.width) s'
      | .error e => ∃ i c s', p.get? i = some c ∧ Marked live i ∧ P i.toNat s' ∧
          s'.place p i c = .error e := by
    have htoNat : k.toUInt16.toNat = k := by
      obtain ⟨-, -, -, hcount⟩ := hp
      exact UInt16.toNat_ofNat_of_lt' (by show k < 65536; omega)
    have hget : p.get? k.toUInt16 = some c := by
      rw [Pool.get?_eq_some, htoNat]
      simpa using getElem?_slots_of_drop hdrop 0
    by_cases hmarked : Marked live k.toUInt16
    · rw [if_pos (show live.getD _ false = true from hmarked)]
      cases hresult : s.place p k.toUInt16 c with
      | ok s' =>
        have hs' := hplace k.toUInt16 c s s' hget hmarked (by rwa [htoNat]) hresult
        rw [htoNat] at hs'
        exact hs' hs
      | error e => exact ⟨_, c, s, hget, hmarked, by rwa [htoNat], hresult⟩
    · rw [if_neg (show ¬ live.getD _ false = true from hmarked)]
      have hs' := hskip k.toUInt16 c s hget hmarked (by rwa [htoNat])
      rw [htoNat] at hs'
      exact hs' hs
  induction hlaid with
  | nil =>
    intro k s _ hk hs
    rwa [show k = p.count from hk] at hs
  | @narrow c rest hproper hwidth hrest ih =>
    intro k s hdrop hk hs
    have hone : c.width = 1 := by rw [Constant.width, hwidth]; rfl
    rw [List.length_cons] at hk
    rw [Pool.entriesFrom_some, List.foldlM_cons]
    refine match_bind (hstep hdrop (by omega) (fun j _ hlt => by omega) hs) fun s₁ hs₁ => ?_
    refine ih (k + 1) s₁ ?_ (by omega) (hone ▸ hs₁)
    rw [← List.drop_drop, hdrop, List.drop_succ_cons, List.drop_zero]
  | @wide c rest hproper hwidth hrest ih =>
    intro k s hdrop hk hs
    have htwo : c.width = 2 := by rw [Constant.width, hwidth]; rfl
    rw [List.length_cons, List.length_cons] at hk
    rw [Pool.entriesFrom_some, Pool.entriesFrom_none, List.foldlM_cons]
    have hnone : ∀ j, Marked live j → k < j.toNat → k + c.width ≤ j.toNat := by
      -- The slot behind the entry is empty, so it is not marked.
      intro j hj hlt
      by_contra hge
      obtain ⟨d, hd, -⟩ := hlive.closed j hj
      rw [Pool.get?_eq_some, show j.toNat = k + 1 by omega,
        getElem?_slots_of_drop hdrop 1] at hd
      simp at hd
    refine match_bind (hstep hdrop (by omega) hnone hs) fun s₁ hs₁ => ?_
    refine ih (k + 2) s₁ ?_ (by omega) (htwo ▸ hs₁)
    rw [← List.drop_drop, hdrop, List.drop_succ_cons, List.drop_succ_cons, List.drop_zero]

/-- What every step keeps holds of a compaction that succeeds, and one that fails does
so at a step before which it holds. -/
theorem compact_cases (hstart : P 1 (start p)) :
    match p.compact live with
    | .ok plan => P p.count plan
    | .error e => ∃ i c s, p.get? i = some c ∧ Marked live i ∧ P i.toNat s ∧
        s.place p i c = .error e := by
  obtain ⟨slots, hslots, hlaid, hcount⟩ := id hp
  have hentries : p.entries = Pool.entriesFrom 1 slots := by
    rw [← Pool.entriesFrom_none, ← hslots]
    rfl
  unfold Pool.compact
  rw [hentries]
  refine foldlM_cases hp hlive hskip hplace hlaid 1 _ ?_ ?_ hstart
  · rw [hslots]
    rfl
  · rw [Pool.count_eq hslots, Nat.add_comm]

end Run

/-- Nothing is placed at the start. -/
theorem sound_start (hp : p.WellFormed) (hlive : p.ClosedUpTo [] live) :
    (start p).Sound p live 1 := by
  obtain ⟨slots, hslots, -, -⟩ := hp
  have hzero : p.slots[0]? = some none := by
    rw [← Array.getElem?_toList, hslots]
    rfl
  refine ⟨⟨by simp [start], ?_⟩, ?_, rfl, by simp [start], ⟨[], rfl, .nil⟩, Nat.le_refl _, ?_, ?_,
    ?_⟩
  · intro i key hi
    replace hi : (Array.replicate p.count KeyState.unseen)[i.toNat]? = some (.done key) := hi
    rw [Array.getElem?_replicate] at hi
    split at hi <;> simp at hi
  · simp [start, Keys.active, KeyState.isActive, List.count_replicate]
  · intro c hc
    simp [start] at hc
  · intro j hj hlt
    obtain ⟨c, hc, -⟩ := hlive.closed j hj
    rw [Pool.get?_eq_some, show j.toNat = 0 by omega, hzero] at hc
    simp at hc
  · intro key n hn
    exact absurd hn (by simp [start])

/-- Compacting a pool keeps `Sound` in front of every entry. -/
theorem compact_sound (hp : p.WellFormed) (hlive : p.ClosedUpTo [] live) :
    match p.compact live with
    | .ok plan => plan.Sound p live p.count
    | .error e => ∃ i c, ∃ s : Compaction, p.get? i = some c ∧ Marked live i ∧
        s.Sound p live i.toNat ∧ s.place p i c = .error e := by
  refine compact_cases (P := fun k s => s.Sound p live k) hp hlive ?_ ?_ (sound_start hp hlive)
  · intro i c s _ hmarked hnone hs
    refine hs.advance (Nat.le_add_right _ _) fun j hj hle => hnone j hj ?_
    have hne : j.toNat ≠ i.toNat := fun heq => hmarked (UInt16.toNat_inj.1 heq ▸ hj)
    omega
  · intro i c s s' hc hmarked hnone hresult hs
    exact hs.place rfl hc hnone hp hlive hmarked (Nat.le_refl _) hresult

/-- Compacting a pool places every marked entry. -/
theorem compact_ok {plan : Compaction} (hp : p.WellFormed) (hlive : p.ClosedUpTo [] live)
    (h : p.compact live = .ok plan) : plan.Sound p live p.count := by
  have hsound := compact_sound hp hlive
  rwa [h] at hsound

/-- The keys that are found for marked entries one after another. -/
def keysFrom (p : Pool) (live : Array Bool) (entries : List (UInt16 × Constant)) (keys : Keys) :
    Keys :=
  entries.foldl (fun keys (i, _) =>
    if live.getD i.toNat false then ((p.key (p.count + 1) i).run keys).2 else keys) keys

theorem cycle_eq_none_of_keysFrom {entries : List (UInt16 × Constant)} {keys : Keys}
    (h : (keysFrom p live entries keys).cycle = none) : keys.cycle = none := by
  induction entries generalizing keys with
  | nil => exact h
  | cons entry entries ih =>
    have hfirst := ih h
    simp only at hfirst
    split at hfirst
    · exact (Pool.cycle_eq_none_of_key _).1 _ _ hfirst
    · exact hfirst

/-- Placing entries fails only where a cycle is met. -/
theorem exists_foldlM {entries : List (UInt16 × Constant)} (s : Compaction)
    (h : (keysFrom p live entries s.keys).cycle = none) :
    ∃ s', entries.foldlM (fun s (i, c) =>
      if live.getD i.toNat false then s.place p i c else .ok s) s = .ok s' := by
  induction entries generalizing s with
  | nil => exact ⟨s, rfl⟩
  | cons entry entries ih =>
    obtain ⟨i, c⟩ := entry
    have hstep : ∃ s₁, (if live.getD i.toNat false then s.place p i c else .ok s) = .ok s₁ ∧
        s₁.keys = if live.getD i.toNat false then ((p.key (p.count + 1) i).run s.keys).2
          else s.keys := by
      have hcycle := @cycle_eq_none_of_keysFrom p live entries _ h
      simp only at hcycle
      by_cases hlive : live.getD i.toNat false = true
      · rw [if_pos hlive] at hcycle ⊢
        rw [if_pos hlive]
        cases hfirst : s.first[((p.key (p.count + 1) i).run s.keys).1]? with
        | some n => exact ⟨_, place_ok.2 ⟨hcycle, .inl ⟨n, hfirst, rfl⟩⟩, rfl⟩
        | none => exact ⟨_, place_ok.2 ⟨hcycle, .inr ⟨hfirst, rfl⟩⟩, rfl⟩
      · rw [if_neg hlive, if_neg hlive]
        exact ⟨s, rfl, rfl⟩
    obtain ⟨s₁, hs₁, hkeys⟩ := hstep
    obtain ⟨s', hs'⟩ := ih s₁ (by rw [hkeys]; exact h)
    refine ⟨s', ?_⟩
    rw [List.foldlM_cons]
    exact Except.bind_ok.2 ⟨s₁, hs₁, hs'⟩

/-- Compacting fails only where a cycle is met. -/
theorem exists_compact
    (h : (keysFrom p live p.entries ⟨Array.replicate p.count .unseen, none⟩).cycle = none) :
    ∃ plan, p.compact live = .ok plan :=
  exists_foldlM _ h

end Compaction

/-! ## The new pool -/

theorem Constant.references_mapReferences (f : UInt16 → UInt16) (c : Constant) :
    (c.mapReferences f).references = c.references.map f := by
  cases c <;> rfl

theorem Constant.bare_mapReferences (f : UInt16 → UInt16) (c : Constant) :
    (c.mapReferences f).bare = c.bare := by
  cases c <;> rfl

theorem Constant.tag_mapReferences (f : UInt16 → UInt16) (c : Constant) :
    (c.mapReferences f).tag = c.tag := by
  cases c <;> rfl

theorem Constant.Proper.mapReferences {c : Constant} (h : c.Proper) (f : UInt16 → UInt16) :
    (c.mapReferences f).Proper := by
  cases c <;> exact h

theorem Pool.Laid.mapReferences {slots : List (Option Constant)} (h : Laid slots)
    (f : UInt16 → UInt16) : Laid (slots.map fun slot => slot.map (·.mapReferences f)) := by
  induction h with
  | nil => exact .nil
  | narrow hproper hwidth _ ih =>
    exact .narrow (hproper.mapReferences f) (by rw [Constant.tag_mapReferences]; exact hwidth) ih
  | wide hproper hwidth _ ih =>
    exact .wide (hproper.mapReferences f) (by rw [Constant.tag_mapReferences]; exact hwidth) ih

/-- Induction over meanings: what holds of a meaning when it holds of the parts. -/
theorem Meaning.induction {P : Meaning → Prop}
    (h : ∀ own parts, (∀ m ∈ parts, P m) → P (.node own parts)) : ∀ m, P m
  | .node own parts => h own parts fun m hm => by
    have := List.sizeOf_lt_of_mem hm
    exact Meaning.induction h m

namespace Compaction

variable {p : Pool} {live : Array Bool} {plan : Compaction}

/-- What an index of the old pool becomes. -/
def move (plan : Compaction) (i : UInt16) : UInt16 := plan.indices.getD i.toNat 0

/-- The new pool: the kept entries with their references moved. -/
def pool (plan : Compaction) : Pool :=
  Pool.ofSlots (plan.slots.toList.map fun slot => slot.map (·.mapReferences plan.move))

theorem toList_pool (plan : Compaction) : plan.pool.slots.toList =
    plan.slots.toList.map fun slot => slot.map (·.mapReferences plan.move) := rfl

theorem get?_pool {n : UInt16} {c : Constant} (h : plan.slots[n.toNat]? = some (some c)) :
    plan.pool.get? n = some (c.mapReferences plan.move) := by
  rw [Pool.get?_eq_some, ← Array.getElem?_toList, toList_pool, List.getElem?_map,
    Array.getElem?_toList, h]
  rfl

/-- A marked index means in the new pool what it meant in the old one. -/
theorem Sound.means_move (h : plan.Sound p live p.count) (hlive : p.ClosedUpTo [] live)
    (m : Meaning) : ∀ i, Marked live i → p.Means i m → plan.pool.Means (plan.move i) m := by
  induction m using Meaning.induction with
  | h own parts ih =>
    intro i hi hm
    obtain ⟨c, hc, -⟩ := hlive.closed i hi
    obtain ⟨m', hm', d, l, hslot, hd, hl⟩ := h.placed i hi (Pool.lt_count_of_get? hc)
    obtain rfl := hm.unique hm'
    obtain ⟨d', parts', hd', hnode, hparts⟩ := Pool.means_iff.1 hl
    obtain rfl : d = d' := Option.some.inj (hd.symm.trans hd')
    obtain ⟨rfl, rfl⟩ := Meaning.node.inj hnode
    -- The entry was kept because a marked index held it, so its references are marked.
    obtain ⟨j, hj, hjd⟩ := h.kept d (by
      rw [Array.mem_toList_iff]
      exact Array.mem_of_getElem? hslot)
    obtain ⟨d', hd', hrefs⟩ := hlive.closed j hj
    obtain rfl : d = d' := Option.some.inj (hjd.symm.trans hd')
    refine Pool.means_iff.2 ⟨d.mapReferences plan.move, parts, get?_pool hslot, ?_, ?_⟩
    · rw [Constant.bare_mapReferences]
    · rw [Constant.references_mapReferences, List.forall₂_map_left_iff]
      have hmarked : ∀ r ∈ d.references, Marked live r :=
        fun r hr => (hrefs r hr).resolve_right (by simp)
      rw [List.forall₂_iff_zip] at hparts ⊢
      refine ⟨hparts.1, fun {r part} hzip => ?_⟩
      obtain ⟨hr, hpart⟩ := List.of_mem_zip hzip
      exact ih part hpart r (hmarked r hr) (hparts.2 hzip)

/-- A marked index is moved to one of the same meaning, which is not zero. -/
theorem Sound.sameMeaning_move (h : plan.Sound p live p.count) (hlive : p.ClosedUpTo [] live)
    {i : UInt16} (hi : Marked live i) :
    p.SameMeaning plan.pool i (plan.move i) ∧ plan.move i ≠ 0 := by
  obtain ⟨c, hc, -⟩ := hlive.closed i hi
  obtain ⟨m, hm, -⟩ := h.placed i hi (Pool.lt_count_of_get? hc)
  have hmove := h.means_move hlive m i hi hm
  refine ⟨⟨m, hm, hmove⟩, fun hzero => ?_⟩
  obtain ⟨d, -, hd, -⟩ := Pool.means_iff.1 hmove
  obtain ⟨rest, hrest, -⟩ := h.laid
  rw [hzero, Pool.get?_eq_some, ← Array.getElem?_toList, toList_pool, hrest] at hd
  exact absurd hd (by simp)

theorem Sound.wellFormed_pool (h : plan.Sound p live p.count) (hp : p.WellFormed) :
    plan.pool.WellFormed := by
  obtain ⟨-, -, -, hcount⟩ := hp
  obtain ⟨rest, hrest, hlaid⟩ := h.laid
  refine ⟨rest.map fun slot => slot.map (·.mapReferences plan.move), ?_, hlaid.mapReferences _, ?_⟩
  · rw [toList_pool, hrest]
    rfl
  · have hsize : plan.pool.count = plan.slots.size := by
      rw [Pool.count, ← Array.length_toList, toList_pool, List.length_map, Array.length_toList]
    have := h.room
    omega

theorem Sound.closed_pool (h : plan.Sound p live p.count) (hlive : p.ClosedUpTo [] live) :
    plan.pool.Closed := by
  intro c hc r hr
  rw [toList_pool, List.mem_map] at hc
  obtain ⟨slot, hslot, hc⟩ := hc
  cases slot with
  | none => exact absurd hc (by simp)
  | some d =>
    obtain rfl : d.mapReferences plan.move = c := by simpa using hc
    obtain ⟨j, hj, hjd⟩ := h.kept d hslot
    obtain ⟨d', hd', hrefs⟩ := hlive.closed j hj
    obtain rfl : d = d' := Option.some.inj (hjd.symm.trans hd')
    rw [Constant.references_mapReferences, List.mem_map] at hr
    obtain ⟨q, hq, rfl⟩ := hr
    obtain ⟨⟨m, -, hm⟩, -⟩ := h.sameMeaning_move hlive ((hrefs q hq).resolve_right (by simp))
    obtain ⟨e, -, he, -⟩ := Pool.means_iff.1 hm
    rw [he]
    rfl

end Compaction

end Cleartext
