import Cleartext.Proofs.Class.References
import Cleartext.Proofs.Class.Shrinking

/-!
# What marking marks

`Pool.Marks` is marking without a bound on the number of steps: whatever the
references of a pool are, also when they run in circles or lead nowhere, it ends,
and the bound that `Pool.mark` works with is never met (`marks_markAux`).

An entry is marked if and only if it can be reached from the references of the class
(`ClassFile.marked_iff_reaches`), and marking succeeds if and only if the class is
walkable and every index that can be reached has an entry (`ClassFile.liveEntries_iff`).
-/

namespace Cleartext

namespace Pool

/-- An index can be reached from some indices by following references. -/
inductive Reaches (p : Pool) (roots : List UInt16) : UInt16 → Prop
  | root {i : UInt16} (h : i ∈ roots) : Reaches p roots i
  | step {i r : UInt16} {c : Constant} (h : Reaches p roots i) (hc : p.get? i = some c)
      (hr : r ∈ c.references) : Reaches p roots r

/-- Marking what `pending` reaches, one index after another, as long as there is
one. -/
inductive Marks (p : Pool) : List UInt16 → Array Bool → Except Error (Array Bool) → Prop
  | done {live : Array Bool} : Marks p [] live (.ok live)
  | dangling {i : UInt16} {pending : List UInt16} {live : Array Bool} {e : Error}
      (h : p.get i = .error e) : Marks p (i :: pending) live (.error (.malformedBy .constant e))
  | old {i : UInt16} {pending : List UInt16} {live : Array Bool} {c : Constant}
      {result : Except Error (Array Bool)} (h : p.get i = .ok c) (hmarked : Marked live i)
      (hrest : Marks p pending live result) : Marks p (i :: pending) live result
  | new {i : UInt16} {pending : List UInt16} {live : Array Bool} {c : Constant}
      {result : Except Error (Array Bool)} (h : p.get i = .ok c) (hmarked : ¬ Marked live i)
      (hrest : Marks p (c.references ++ pending) (live.setIfInBounds i.toNat true) result) :
      Marks p (i :: pending) live result

variable {p : Pool} {roots more pending : List UInt16} {live : Array Bool} {i j : UInt16}

/-! ## Reaching -/

theorem Reaches.mono (h : p.Reaches roots j) (hsub : ∀ i ∈ roots, p.Reaches more i) :
    p.Reaches more j := by
  induction h with
  | root hi => exact hsub _ hi
  | step _ hc hr ih => exact .step ih hc hr

theorem reaches_append : p.Reaches (roots ++ more) j ↔ p.Reaches roots j ∨ p.Reaches more j := by
  constructor
  · intro h
    induction h with
    | root hi => exact (List.mem_append.1 hi).imp .root .root
    | step _ hc hr ih => exact ih.imp (.step · hc hr) (.step · hc hr)
  · rintro (h | h)
    · exact h.mono fun i hi => .root (List.mem_append_left _ hi)
    · exact h.mono fun i hi => .root (List.mem_append_right _ hi)

theorem not_reaches_nil : ¬ p.Reaches [] j := by
  intro h
  induction h with
  | root hi => cases hi
  | step _ _ _ ih => exact ih

/-- What an entry refers to is reached from it. -/
theorem reaches_references {c : Constant} (hc : p.get? i = some c)
    (h : p.Reaches c.references j) : p.Reaches [i] j :=
  h.mono fun _ hr => .step (.root (List.mem_singleton_self i)) hc hr

/-- What is marked, and what that reaches, when nothing is pending. -/
theorem ClosedUpTo.reaches (h : p.ClosedUpTo [] live) (hroots : ∀ i ∈ roots, Marked live i)
    (hj : p.Reaches roots j) : Marked live j := by
  induction hj with
  | root hi => exact hroots _ hi
  | step _ hc hr ih =>
    obtain ⟨d, hd, hrefs⟩ := h.closed _ ih
    obtain rfl := Option.some.inj (hd.symm.trans hc)
    exact (hrefs _ hr).resolve_right (List.not_mem_nil)

/-! ## Marking ends -/

theorem isMarked_false (hsize : live.size = p.count) (hi : i.toNat < p.count)
    (h : ¬ Marked live i) : live[i.toNat]? = some false := by
  rw [← hsize] at hi
  rw [marked_iff, Array.getElem?_eq_getElem hi] at h
  rw [Array.getElem?_eq_getElem hi]
  simpa using h

/-- Marking without a bound gives what marking with a bound does, once the bound is
as large as `pending` and twice the number of entries that are not marked. -/
theorem marks_markAux : ∀ (fuel : Nat) (pending : List UInt16) (live : Array Bool),
    live.size = p.count → pending.length + 2 * unmarked live ≤ fuel →
    p.Marks pending live (p.markAux fuel pending live) := by
  intro fuel
  induction fuel with
  | zero =>
    intro pending live _ hfuel
    cases pending with
    | nil => exact .done
    | cons i pending => exact absurd hfuel (by simp)
  | succ fuel ih =>
    intro pending live hsize hfuel
    cases pending with
    | nil => exact .done
    | cons i pending =>
      rw [List.length_cons] at hfuel
      rw [markAux]
      split
      · exact .dangling ‹_›
      · rename_i c hc
        by_cases hmarked : Marked live i
        · rw [if_pos (show live.getD i.toNat false = true from hmarked)]
          exact .old hc hmarked (ih pending live hsize (by omega))
        · rw [if_neg (show ¬ live.getD i.toNat false = true from hmarked)]
          have hcount := unmarked_set
            (isMarked_false hsize (lt_count_of_get? (get_ok.1 hc)) hmarked)
          have hrefs := length_references_le c
          refine .new hc hmarked (ih _ _ ?_ ?_)
          · rw [Array.size_setIfInBounds, hsize]
          · rw [List.length_append]
            omega

/-- Marking an index gives what marking without a bound does. -/
theorem marks_mark (hsize : live.size = p.count) :
    ∃ result, p.Marks [i] live result ∧
      (p.mark i).run live = result.map fun live' => (i, live') := by
  refine ⟨p.markAux (2 * p.count + 2) [i] live, marks_markAux _ _ _ hsize ?_, ?_⟩
  · have hle : unmarked live ≤ live.size := List.count_le_length
    rw [List.length_singleton]
    omega
  · show (do return (i, ← p.markAux (2 * p.count + 2) [i] live) :
      Except Error (UInt16 × Array Bool)) = _
    cases p.markAux (2 * p.count + 2) [i] live <;> rfl

/-- Marking answers an index with itself. -/
theorem eq_of_mark (i : UInt16) (live : Array Bool) (x : UInt16) (live' : Array Bool)
    (h : (p.mark i).run live = .ok (x, live')) : x = i := by
  obtain ⟨answer, -, heq⟩ := Except.bind_ok.1
    (show (do return (i, ← p.markAux (2 * p.count + 2) [i] live) :
      Except Error (UInt16 × Array Bool)) = .ok (x, live') from h)
  exact (Prod.mk.inj (Except.pure_ok.1 heq)).1.symm

theorem Marks.unique {first second : Except Error (Array Bool)} (h : p.Marks pending live first)
    (h' : p.Marks pending live second) : first = second := by
  induction h with
  | done => cases h'; rfl
  | dangling hget =>
    cases h' with
    | dangling hget' => rw [Except.error.inj (hget.symm.trans hget')]
    | old hget' | new hget' => cases hget.symm.trans hget'
  | old hget hmarked _ ih =>
    cases h' with
    | dangling hget' => cases hget.symm.trans hget'
    | old _ _ hrest => exact ih hrest
    | new _ hmarked' => exact absurd hmarked hmarked'
  | new hget hmarked _ ih =>
    cases h' with
    | dangling hget' => cases hget.symm.trans hget'
    | old _ hmarked' => exact absurd hmarked' hmarked
    | new hget' _ hrest =>
      obtain rfl := Except.ok.inj (hget.symm.trans hget')
      exact ih hrest

/-! ## What is marked -/

/-- Only what is reached is marked. -/
theorem Marks.reaches {result : Except Error (Array Bool)} (h : p.Marks pending live result)
    (hsize : live.size = p.count) : ∀ live', result = .ok live' → ∀ j, Marked live' j →
      Marked live j ∨ p.Reaches pending j := by
  induction h with
  | done =>
    intro live' heq j hj
    obtain rfl := Except.ok.inj heq
    exact .inl hj
  | dangling => exact fun live' heq => nomatch heq
  | @old i pending live c result hget hmarked _ ih =>
    intro live' heq j hj
    exact (ih hsize live' heq j hj).imp_right
      (·.mono fun i hi => .root (List.mem_cons_of_mem _ hi))
  | @new i pending live c result hget hmarked _ ih =>
    intro live' heq j hj
    have hc := get_ok.1 hget
    have hlt : i.toNat < live.size := hsize ▸ lt_count_of_get? hc
    rcases ih (by rw [Array.size_setIfInBounds, hsize]) live' heq j hj with hj | hj
    · rcases (marked_set hlt).1 hj with rfl | hj
      · exact .inr (.root List.mem_cons_self)
      · exact .inl hj
    · refine .inr ?_
      rcases reaches_append.1 hj with hj | hj
      · exact (reaches_references hc hj).mono fun _ hi => .root (by simp_all)
      · exact hj.mono fun _ hi => .root (List.mem_cons_of_mem _ hi)

/-- Marking fails only at an index without an entry. -/
theorem Marks.exists_ok {result : Except Error (Array Bool)} (h : p.Marks pending live result)
    (hentries : ∀ j, p.Reaches pending j → ∃ c, p.get? j = some c) :
    ∃ live', result = .ok live' := by
  induction h with
  | @done live => exact ⟨live, rfl⟩
  | @dangling i pending live e hget =>
    obtain ⟨c, hc⟩ := hentries i (.root List.mem_cons_self)
    cases (get_ok.2 hc).symm.trans hget
  | old _ _ _ ih =>
    exact ih fun j hj => hentries j (hj.mono fun _ hi => .root (List.mem_cons_of_mem _ hi))
  | @new i pending live c result hget _ _ ih =>
    refine ih fun j hj => hentries j ?_
    rcases reaches_append.1 hj with hj | hj
    · exact (reaches_references (get_ok.1 hget) hj).mono fun _ hi => .root (by simp_all)
    · exact hj.mono fun _ hi => .root (List.mem_cons_of_mem _ hi)

/-- Marking an index marks what it reaches, and nothing else. -/
theorem marked_mark_iff {x : UInt16} {live' : Array Bool} (hclosed : p.ClosedUpTo [] live)
    (h : (p.mark i).run live = .ok (x, live')) (j : UInt16) :
    Marked live' j ↔ Marked live j ∨ p.Reaches [i] j := by
  obtain ⟨rfl, hclosed', hmono, hmarked⟩ := mark_ok hclosed h
  constructor
  · obtain ⟨result, hmarks, hrun⟩ := marks_mark (i := x) hclosed.size
    rw [hrun] at h
    obtain ⟨live'', rfl, heq⟩ := Except.map_ok.1 h
    obtain ⟨-, rfl⟩ := Prod.mk.inj heq
    exact hmarks.reaches hclosed.size _ rfl j
  · rintro (hj | hj)
    · exact hmono j hj
    · exact hclosed'.reaches (by simpa using hmarked) hj

/-- Marking some indices one after another marks what they reach, and nothing else. -/
theorem mapM_mark_ok {xs : List UInt16} {live' : Array Bool} (hclosed : p.ClosedUpTo [] live)
    (h : (roots.mapM p.mark).run live = .ok (xs, live')) :
    p.ClosedUpTo [] live' ∧ ∀ j, Marked live' j ↔ Marked live j ∨ p.Reaches roots j := by
  induction roots generalizing live xs with
  | nil =>
    obtain ⟨-, rfl⟩ := Prod.mk.inj (Except.ok.inj h)
    exact ⟨hclosed, fun j => ⟨.inl, (·.resolve_right not_reaches_nil)⟩⟩
  | cons i roots ih =>
    rw [List.mapM_cons, StateT.run_bind] at h
    obtain ⟨⟨x, live₁⟩, hfirst, h⟩ := Except.bind_ok.1 h
    rw [StateT.run_bind] at h
    obtain ⟨⟨ys, live₂⟩, hrest, h⟩ := Except.bind_ok.1 h
    obtain ⟨-, rfl⟩ := Prod.mk.inj (Except.ok.inj h)
    obtain ⟨-, hclosed₁, -, -⟩ := mark_ok hclosed hfirst
    obtain ⟨hclosed₂, hmarked⟩ := ih hclosed₁ hrest
    refine ⟨hclosed₂, fun j => ?_⟩
    rw [hmarked, marked_mark_iff hclosed hfirst, or_assoc, ← reaches_append,
      List.singleton_append]

/-- Marking some indices succeeds when all that they reach have entries. -/
theorem exists_mapM_mark (hclosed : p.ClosedUpTo [] live)
    (hentries : ∀ j, p.Reaches roots j → ∃ c, p.get? j = some c) :
    ∃ xs live', (roots.mapM p.mark).run live = .ok (xs, live') := by
  induction roots generalizing live with
  | nil => exact ⟨[], live, rfl⟩
  | cons i roots ih =>
    have hfirst : ∃ live₁, (p.mark i).run live = .ok (i, live₁) := by
      obtain ⟨result, hmarks, hrun⟩ := marks_mark (i := i) hclosed.size
      obtain ⟨live₁, rfl⟩ := hmarks.exists_ok fun j hj =>
        hentries j (hj.mono fun _ hi => .root (by simp_all))
      exact ⟨live₁, hrun⟩
    obtain ⟨live₁, hfirst⟩ := hfirst
    obtain ⟨-, hclosed₁, -, -⟩ := mark_ok hclosed hfirst
    obtain ⟨xs, live₂, hrest⟩ := ih hclosed₁ fun j hj =>
      hentries j (hj.mono fun _ hi => .root (List.mem_cons_of_mem _ hi))
    refine ⟨i :: xs, live₂, ?_⟩
    rw [List.mapM_cons, StateT.run_bind]
    refine Except.bind_ok.2 ⟨_, hfirst, ?_⟩
    rw [StateT.run_bind]
    exact Except.bind_ok.2 ⟨_, hrest, rfl⟩

end Pool

namespace ClassFile

variable {cf : ClassFile} {live : Array Bool}

/-- Marking goes through the references of the class. -/
theorem liveEntries_eq_ok : cf.liveEntries = .ok live ↔
    cf.Walkable ∧ ∃ xs, (cf.references.mapM cf.pool.mark).run
      (Array.replicate cf.pool.count false) = .ok (xs, live) := by
  have hsame : ∀ i live x live', (cf.pool.mark i).run live = .ok (x, live') → x ≤ i :=
    fun i live x live' h => UInt16.le_of_eq (Pool.eq_of_mark i live x live' h)
  rw [← visits_changeReferences hsame cf _ _]
  unfold liveEntries
  rw [Except.map_ok]
  exact ⟨fun ⟨(same, _), hrun, heq⟩ => ⟨same, heq ▸ hrun⟩, fun ⟨same, hrun⟩ => ⟨_, hrun, rfl⟩⟩

/-- An entry is live if and only if the class refers to it, directly or through
others. -/
theorem marked_iff_reaches (h : cf.liveEntries = .ok live) (j : UInt16) :
    Marked live j ↔ cf.pool.Reaches cf.references j := by
  obtain ⟨-, xs, hrun⟩ := liveEntries_eq_ok.1 h
  rw [(Pool.mapM_mark_ok (closed_start cf.pool) hrun).2]
  refine ⟨(·.resolve_left fun hj => ?_), .inr⟩
  rw [marked_iff, Array.getElem?_replicate] at hj
  split at hj <;> simp at hj

/-- Finding the live entries fails only when a part of the class cannot be gone
through, or an index that is reached has no entry. -/
theorem liveEntries_iff : (∃ live, cf.liveEntries = .ok live) ↔
    cf.Walkable ∧ ∀ j, cf.pool.Reaches cf.references j → ∃ c, cf.pool.get? j = some c := by
  constructor
  · rintro ⟨live, h⟩
    refine ⟨(liveEntries_eq_ok.1 h).1, fun j hj => ?_⟩
    obtain ⟨c, hc, -⟩ := (liveEntries_ok h).1.closed j ((marked_iff_reaches h j).2 hj)
    exact ⟨c, hc⟩
  · rintro ⟨hwalk, hentries⟩
    obtain ⟨xs, live, hrun⟩ := Pool.exists_mapM_mark (closed_start cf.pool) hentries
    exact ⟨live, liveEntries_eq_ok.2 ⟨hwalk, xs, hrun⟩⟩

end ClassFile

end Cleartext
