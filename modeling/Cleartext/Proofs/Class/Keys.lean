import Cleartext.Proofs.Class.Marking

/-!
# When a class can be shrunk

`Pool.Keyed` is finding a key without a bound on the depth: it ends on every pool,
also where references run in circles, and the depth that `Pool.key` works with is
never used up (`keyed_key`).

No cycle is met at an entry that has a meaning (`key_cycle_eq_none`), because a
meaning is larger than its parts.  So a pool can be compacted if and only if every
live entry has a meaning (`Compaction.exists_compact_iff`), and a class can be shrunk
if and only if it is walkable and every index in it has a meaning
(`ClassFile.exists_shrink_iff`).
-/

namespace Cleartext

/-! ## Finding a key ends -/

namespace Pool

mutual

/-- Finding the key of an entry, however deep its references go: from some key states
to the key and the key states afterwards. -/
inductive Keyed (p : Pool) : UInt16 → Keys → Bytes → Keys → Prop
  | circle {i : UInt16} {s : Keys} (h : s.states.getD i.toNat .active = .active) :
      Keyed p i s [] { s with cycle := some i }
  | known {i : UInt16} {s : Keys} {key : Bytes}
      (h : s.states.getD i.toNat .active = .done key) : Keyed p i s key s
  | vacant {i : UInt16} {s : Keys} (h : s.states.getD i.toNat .active = .unseen)
      (hc : p.get? i = none) : Keyed p i s [] (s.put i .active)
  | entry {i : UInt16} {s s' : Keys} {c : Constant} {parts : List Bytes}
      (h : s.states.getD i.toNat .active = .unseen) (hc : p.get? i = some c)
      (hparts : KeyedAll p c.references (s.put i .active) parts s') :
      Keyed p i s (c.keyHead ++ parts.flatten) (s'.put i (.done (c.keyHead ++ parts.flatten)))

/-- Finding the framed keys of entries one after another. -/
inductive KeyedAll (p : Pool) : List UInt16 → Keys → List Bytes → Keys → Prop
  | nil {s : Keys} : KeyedAll p [] s [] s
  | cons {r : UInt16} {refs : List UInt16} {s s₁ s₂ : Keys} {key : Bytes} {parts : List Bytes}
      (hfirst : Keyed p r s key s₁) (hrest : KeyedAll p refs s₁ parts s₂) :
      KeyedAll p (r :: refs) s (framedKey key :: parts) s₂

end

variable {p : Pool}

/-- The entries of which the key is being found do not become fewer. -/
def Keeps (s s' : Keys) : Prop :=
  s'.states.size = s.states.size ∧ s.active.count true ≤ s'.active.count true

theorem Keeps.trans {s s₁ s₂ : Keys} (h : Keeps s s₁) (h' : Keeps s₁ s₂) : Keeps s s₂ :=
  ⟨h'.1.trans h.1, h.2.trans h'.2⟩

theorem size_put (s : Keys) (i : UInt16) (state : KeyState) :
    (s.put i state).states.size = s.states.size :=
  Array.size_setIfInBounds

/-- A state that is replaced was at most one active entry. -/
theorem count_active_le_put (s : Keys) (i : UInt16) (state : KeyState) :
    s.active.count true ≤ (s.put i state).active.count true + 1 := by
  rw [Keys.active_put]
  by_cases hi : i.toNat < s.active.length
  · rw [List.count_set hi]
    split <;> omega
  · rw [List.set_eq_of_length_le (by omega)]
    omega

/-- Finding the key of an entry makes it active. -/
theorem count_active_put {s : Keys} {i : UInt16}
    (h : s.states.getD i.toNat .active = .unseen) :
    (s.put i .active).active.count true = s.active.count true + 1 := by
  rw [Array.getD_eq_getD_getElem?] at h
  cases hget : s.states[i.toNat]? with
  | none => exact absurd h (by simp [hget])
  | some state =>
    obtain rfl : state = .unseen := by simpa [hget] using h
    have hfalse : s.active[i.toNat]? = some false := by
      simp [Keys.active, hget, KeyState.isActive]
    obtain ⟨hlt, hget⟩ := List.getElem?_eq_some_iff.1 hfalse
    rw [Keys.active_put, List.count_set hlt, hget]
    rfl

private theorem keyed_keyParts {depth : Nat}
    (hkey : ∀ i s, s.states.size = p.count → p.count < depth + s.active.count true →
      p.Keyed i s ((p.key depth i).run s).1 ((p.key depth i).run s).2 ∧
        Keeps s ((p.key depth i).run s).2) (refs : List UInt16) :
    ∀ s, s.states.size = p.count → p.count < depth + s.active.count true →
      p.KeyedAll refs s ((p.keyParts depth refs).run s).1 ((p.keyParts depth refs).run s).2 ∧
        Keeps s ((p.keyParts depth refs).run s).2 := by
  induction refs with
  | nil => exact fun s _ _ => ⟨.nil, rfl, Nat.le_refl _⟩
  | cons r refs ih =>
    intro s hsize hroom
    obtain ⟨hfirst, hkeeps⟩ := hkey r s hsize hroom
    obtain ⟨hrest, hkeeps'⟩ := ih _ (hkeeps.1.trans hsize) (by have := hkeeps.2; omega)
    rw [keyParts_cons]
    exact ⟨.cons hfirst hrest, hkeeps.trans hkeeps'⟩

/-- Finding a key with a bound on the depth gives what finding it without one does,
once the depth and the active entries together are more than the entries of the pool. -/
theorem keyed_key (depth : Nat) : ∀ i s, s.states.size = p.count →
    p.count < depth + s.active.count true →
    p.Keyed i s ((p.key depth i).run s).1 ((p.key depth i).run s).2 ∧
      Keeps s ((p.key depth i).run s).2 := by
  induction depth with
  | zero =>
    intro i s hsize hroom
    have hle : s.active.count true ≤ s.active.length := List.count_le_length
    rw [s.length_active, hsize] at hle
    omega
  | succ depth ih =>
    intro i s hsize hroom
    rw [key_succ]
    cases hstate : s.states.getD i.toNat .active with
    | active => exact ⟨.circle hstate, rfl, Nat.le_refl _⟩
    | done key => exact ⟨.known hstate, rfl, Nat.le_refl _⟩
    | unseen =>
      have hcount := count_active_put hstate
      cases hc : p.get? i with
      | none => exact ⟨.vacant hstate hc, size_put _ _ _, by simp only; omega⟩
      | some c =>
        obtain ⟨hparts, hsize', hle⟩ := keyed_keyParts ih c.references (s.put i .active)
          ((size_put _ _ _).trans hsize) (by omega)
        refine ⟨.entry hstate hc hparts, ?_, ?_⟩
        · exact (size_put _ _ _).trans (hsize'.trans (size_put _ _ _))
        · refine Nat.le_of_succ_le_succ ?_
          calc s.active.count true + 1 = (s.put i .active).active.count true := hcount.symm
            _ ≤ ((p.keyParts depth c.references).run (s.put i .active)).2.active.count true := hle
            _ ≤ _ := count_active_le_put _ _ _

/-! ## Meanings and cycles -/

/-- What is reached from indices that have meanings has one. -/
theorem Reaches.exists_means {roots : List UInt16} {j : UInt16} (h : p.Reaches roots j)
    (hroots : ∀ i ∈ roots, ∃ m, p.Means i m) : ∃ m, p.Means j m := by
  induction h with
  | root hi => exact hroots _ hi
  | step _ hc hr ih =>
    obtain ⟨m, hm⟩ := ih
    obtain ⟨d, parts, hd, -, hparts⟩ := means_iff.1 hm
    obtain rfl := Option.some.inj (hd.symm.trans hc)
    obtain ⟨part, -, hpart⟩ :=
      exists_mem_of_forall₂ (P := flip p.Means) (List.Forall₂.flip hparts) hr
    exact ⟨part, hpart⟩

/-- An index that has a meaning has an entry, and what that refers to has one too. -/
theorem exists_get?_of_means {i : UInt16} (h : ∃ m, p.Means i m) :
    ∃ c, p.get? i = some c ∧ ∀ r ∈ c.references, ∃ m, p.Means r m := by
  obtain ⟨m, hm⟩ := id h
  obtain ⟨c, -, hc, -⟩ := means_iff.1 hm
  exact ⟨c, hc, fun r hr =>
    (Reaches.step (.root (List.mem_singleton_self i)) hc hr).exists_means (by simpa using h)⟩

/-- The entry of which the meaning is `m` comes before all that are active: it is part
of what each of them means. -/
def Inner (p : Pool) (s : Keys) (m : Meaning) : Prop :=
  ∀ j : UInt16, s.active[j.toNat]? = some true → ∀ m', p.Means j m' → sizeOf m < sizeOf m'

private theorem keyParts_cycle_eq_none {depth : Nat}
    (hkey : ∀ i s m, s.Right p → p.count < depth + s.active.count true → s.cycle = none →
      p.Means i m → p.Inner s m → ((p.key depth i).run s).2.cycle = none)
    {refs : List UInt16} {parts : List Meaning} (hparts : List.Forall₂ p.Means refs parts) :
    ∀ s, s.Right p → p.count < depth + s.active.count true → s.cycle = none →
      (∀ part ∈ parts, p.Inner s part) → ((p.keyParts depth refs).run s).2.cycle = none := by
  induction hparts with
  | nil => exact fun s _ _ hcycle _ => hcycle
  | @cons r part refs parts hr _ ih =>
    intro s hright hroom hcycle hinner
    rw [List.forall_mem_cons] at hinner
    have hfirst := hkey r s part hright hroom hcycle hr hinner.1
    obtain ⟨-, -, -, hright', hactive⟩ := key_ok
      (fun i (hi : ∃ m, p.Means i m) => exists_get?_of_means hi) depth r s hright hroom ⟨part, hr⟩
      hfirst
    rw [keyParts_cons]
    refine ih _ hright' (by rw [hactive]; exact hroom) hfirst fun other hother j hj => ?_
    exact hinner.2 other hother j (by rwa [hactive] at hj)

/-- No cycle is met at an entry that has a meaning. -/
theorem key_cycle_eq_none (depth : Nat) : ∀ i s m, s.Right p →
    p.count < depth + s.active.count true → s.cycle = none → p.Means i m → p.Inner s m →
    ((p.key depth i).run s).2.cycle = none := by
  induction depth with
  | zero => exact fun i s m _ _ hcycle _ _ => hcycle
  | succ depth ih =>
    intro i s m hright hroom hcycle hm hinner
    obtain ⟨c, parts, hc, rfl, hparts⟩ := means_iff.1 hm
    have hlt : i.toNat < s.states.size := by rw [hright.size]; exact lt_count_of_get? hc
    rw [key_succ]
    cases hstate : s.states.getD i.toNat .active with
    | active =>
      -- The entry would be part of itself.
      have hactive : s.active[i.toNat]? = some true := by
        rw [Array.getD_eq_getD_getElem?, Array.getElem?_eq_getElem hlt] at hstate
        simp only [Option.getD_some] at hstate
        simp [Keys.active, hlt, hstate, KeyState.isActive]
      exact absurd (hinner i hactive _ hm) (Nat.lt_irrefl _)
    | done key => exact hcycle
    | unseen =>
      simp only [hc]
      have hcount := count_active_put hstate
      refine keyParts_cycle_eq_none ih hparts (s.put i .active) (hright.put_active i) (by omega)
        hcycle fun part hpart j hj m' hm' => ?_
      have hpartLt : sizeOf part < sizeOf (Meaning.node c.bare parts) := by
        have := List.sizeOf_lt_of_mem hpart
        simp only [Meaning.node.sizeOf_spec]
        omega
      rw [Keys.active_put, List.getElem?_set] at hj
      split at hj
      · rename_i hij
        obtain rfl : i = j := UInt16.toNat_inj.1 hij
        rwa [← hm.unique hm']
      · exact hpartLt.trans (hinner j hj m' hm')

end Pool

/-! ## Compacting -/

namespace Compaction

variable {p : Pool} {live : Array Bool}

theorem exists_cycle_of_place {s : Compaction} {i : UInt16} {c : Constant} {e : Error}
    (h : s.place p i c = .error e) : ((p.key (p.count + 1) i).run s.keys).2.cycle ≠ none := by
  intro hcycle
  cases hfirst : s.first[((p.key (p.count + 1) i).run s.keys).1]? with
  | some n => cases h.symm.trans (place_ok.2 ⟨hcycle, .inl ⟨n, hfirst, rfl⟩⟩)
  | none => cases h.symm.trans (place_ok.2 ⟨hcycle, .inr ⟨hfirst, rfl⟩⟩)

/-- Compacting succeeds if and only if every live entry has a meaning. -/
theorem exists_compact_iff (hp : p.WellFormed) (hlive : p.ClosedUpTo [] live) :
    (∃ plan, p.compact live = .ok plan) ↔ ∀ i, Marked live i → ∃ m, p.Means i m := by
  constructor
  · rintro ⟨plan, hplan⟩ i hi
    obtain ⟨c, hc, -⟩ := hlive.closed i hi
    obtain ⟨m, hm, -⟩ := (compact_ok hp hlive hplan).placed i hi (Pool.lt_count_of_get? hc)
    exact ⟨m, hm⟩
  · intro hmeans
    have hcases := compact_sound hp hlive
    cases hplan : p.compact live with
    | ok plan => exact ⟨plan, rfl⟩
    | error e =>
      rw [hplan] at hcases
      obtain ⟨i, c, s, -, hi, hs, hplace⟩ := hcases
      obtain ⟨m, hm⟩ := hmeans i hi
      refine absurd ?_ (exists_cycle_of_place hplace)
      refine Pool.key_cycle_eq_none _ i s.keys m hs.keys (by rw [hs.idle]; omega) hs.cycle hm ?_
      intro j hj
      have hpos := List.count_pos_iff.2 (List.mem_of_getElem? hj)
      rw [hs.idle] at hpos
      omega

end Compaction

end Cleartext
