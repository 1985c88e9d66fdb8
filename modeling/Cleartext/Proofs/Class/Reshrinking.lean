import Cleartext.Proofs.Class.Minimal
import Cleartext.Proofs.Class.Rereading
import Cleartext.Proofs.Class.Session

/-!
# A shrunk class has the smallest pool

After shrinking, every entry of the pool is reached from the class, no two entries
mean the same, and the entries stand in their old order.  So there is nothing left to
shrink: a second time, everything is marked, no entry is merged with another, and every
index is moved to itself (`ClassFile.shrink_minimal`).
-/

namespace Cleartext

theorem Constant.mapReferences_eq_self {f : UInt16 → UInt16} (c : Constant)
    (h : ∀ r ∈ c.references, f r = r) : c.mapReferences f = c := by
  cases c <;> simp_all [Constant.references, Constant.mapReferences]

/-- What stands in a slot is found by an index. -/
theorem Pool.WellFormed.exists_get? {p : Pool} (h : p.WellFormed) {c : Constant}
    (hc : some c ∈ p.slots.toList) : ∃ i, p.get? i = some c := by
  obtain ⟨-, -, -, hcount⟩ := h
  obtain ⟨n, hlt, hn⟩ := List.getElem_of_mem hc
  rw [Array.length_toList] at hlt
  refine ⟨n.toUInt16, ?_⟩
  have hcount : p.slots.size < 65536 := hcount
  rw [Pool.get?_eq_some, UInt16.toNat_ofNat_of_lt' (by show n < 65536; omega),
    Array.getElem?_eq_getElem hlt]
  exact congrArg some hn

namespace ClassFile

/-- Every entry of the pool is reached from the references that the class holds outside
it, and has a meaning that no other entry has. -/
structure Minimal (cf : ClassFile) : Prop where
  reached : ∀ n c, cf.pool.get? n = some c → cf.pool.Reaches cf.references n
  meaningful : ∀ n c, cf.pool.get? n = some c → ∃ m, cf.pool.Means n m
  distinct : ∀ x y m, cf.pool.Means x m → cf.pool.Means y m → x = y

variable {cf cf' : ClassFile}

/-- The references of a shrunk class, in which every name is what it was. -/
theorem sameNames_shrink {live : Array Bool} {plan : Compaction} (hp : cf.pool.WellFormed)
    (hlive : cf.pool.ClosedUpTo [] live) (hplan : cf.pool.compact live = .ok plan) :
    Layout.SameNames cf.pool plan.pool fun i x => Marked live i ∧ x = plan.move i := by
  have hsound := Compaction.compact_ok hp hlive hplan
  refine ⟨?_, ?_, fun name hzero => ?_⟩
  · rintro i _ ⟨hi, rfl⟩
    exact (hsound.sameMeaning_move hlive hi).2
  · rintro i _ name ⟨hi, rfl⟩ hname
    exact (hsound.sameMeaning_move hlive hi).1.text hname
  · obtain ⟨raw, -, hraw, -⟩ := Pool.text_ok.1 hzero
    rw [hp.get?_zero] at hraw
    cases hraw

/-- A class that can be gone through and has a minimal pool is left as it is. -/
theorem shrink_eq_self (hp : cf.pool.WellFormed)
    (hbuilt : cf.pool = Pool.ofSlots cf.pool.slots.toList) (hwalk : cf.Walkable)
    (hmeans : ∀ i ∈ cf.references, ∃ m, cf.pool.Means i m) (hminimal : cf.Minimal) :
    cf.shrink = .ok cf := by
  obtain ⟨cf', h⟩ := (exists_shrink_iff hp).2 ⟨hwalk, hmeans⟩
  obtain ⟨live, plan, hlive, hplan, hpool, hmoved⟩ := shrink_steps h
  obtain ⟨hclosed, -⟩ := liveEntries_ok hlive
  obtain ⟨hslots, hmove⟩ := Compaction.slots_of_distinct hp hclosed
    (fun i c hc => (marked_iff_reaches hlive i).2 (hminimal.reached i c hc)) hminimal.distinct
    hplan
  have hsame : cf' = { cf with pool := cf'.pool } := by
    refine hmoved.eq_of_same ?_
    rintro i _ ⟨hi, rfl⟩
    exact hmove i hi
  have hkept : plan.pool = cf.pool := by
    rw [hbuilt]
    unfold Compaction.pool
    rw [hslots]
    congr 1
    refine (List.map_congr_left fun slot hslot => ?_).trans (List.map_id _)
    cases slot with
    | none => rfl
    | some c =>
      obtain ⟨i, hc⟩ := hp.exists_get? hslot
      obtain ⟨d, hd, hrefs⟩ := hclosed.entry
        ((marked_iff_reaches hlive i).2 (hminimal.reached i c hc))
      obtain rfl := Option.some.inj (hd.symm.trans hc)
      exact congrArg some (d.mapReferences_eq_self fun r hr => hmove r (hrefs r hr))
  rw [h, hsame, hpool, hkept]

/-- Shrinking leaves the smallest pool: every entry is reached and no two mean the same.
The entries are entries of the old pool in their order, each with its references moved,
there are no more slots than before, and a class that is shrunk again stays as it is. -/
theorem shrink_minimal (hp : cf.pool.WellFormed) (h : cf.shrink = .ok cf') :
    cf'.Minimal ∧
    (∃ (move : UInt16 → UInt16) (kept : List (UInt16 × Constant)),
      (∀ i, cf.pool.Reaches cf.references i → cf.pool.SameMeaning cf'.pool i (move i)) ∧
      kept.Sublist cf.pool.entries ∧
      cf'.pool.entries = kept.map fun e => (move e.1, e.2.mapReferences move)) ∧
    cf'.pool.count ≤ cf.pool.count ∧ cf'.shrink = .ok cf' := by
  obtain ⟨live, plan, hlive, hplan, hpool, hmoved⟩ := shrink_steps h
  obtain ⟨hclosed, -⟩ := liveEntries_ok hlive
  have hminimal := Compaction.minimal_of_compact hp hclosed hplan
  have hmarked := marked_iff_reaches hlive
  obtain ⟨hwalk, hrefs⟩ := hmoved.references
    (by rw [hpool]; exact sameNames_shrink hp hclosed hplan)
  have hreferences : cf'.references = cf.references.map plan.move := by
    rw [← List.forall₂_eq_eq_eq, List.forall₂_map_right_iff]
    exact hrefs.flip.imp fun _ _ h => h.2
  have hsmallest : cf'.Minimal := by
    refine ⟨fun n c hn => ?_, fun n c hn => ?_, fun x y m hx hy => ?_⟩
    · rw [hpool] at hn ⊢
      rw [hreferences]
      exact hminimal.reaches_pool hp hclosed hmarked hn
    · rw [hpool] at hn ⊢
      obtain ⟨-, m, -, -, -, hm⟩ := hminimal.exists_means_pool hp hclosed hn
      exact ⟨m, hm⟩
    · rw [hpool] at hx hy
      exact hminimal.eq_of_means_pool hp hclosed hx hy
  refine ⟨hsmallest, ?_, ?_, ?_⟩
  · obtain ⟨kept, hkept, hentries⟩ := hminimal.entries_pool
    obtain ⟨-, -, -, hcount⟩ := id hp
    refine ⟨plan.move, kept, fun i hi => ?_, ?_, by rw [hpool, hentries]⟩
    · rw [hpool]
      exact (hminimal.sound.sameMeaning_move hclosed ((hmarked i).2 hi)).1
    · exact Pool.sublist_entries hcount hkept.ordered fun e he => (hkept.placed e he).2.2
  · rw [hpool]
    exact hminimal.count_pool_le
  · refine shrink_eq_self (shrink_pool hp h).1 ?_ hwalk (fun i hi => ?_) hsmallest
    · rw [hpool]
      rfl
    · rw [hreferences, List.mem_map] at hi
      obtain ⟨j, hj, rfl⟩ := hi
      obtain ⟨⟨m, -, hm⟩, -⟩ :=
        hminimal.sound.sameMeaning_move hclosed ((hmarked j).2 (.root hj))
      exact ⟨m, hpool ▸ hm⟩

theorem shrink_minimal_duplicates : ∃ cf', duplicates.shrink = .ok cf' ∧ cf'.Minimal ∧
    cf'.pool.count ≤ duplicates.pool.count ∧ cf'.shrink = .ok cf' := by
  obtain ⟨cf', h⟩ := exists_shrink_duplicates
  obtain ⟨hminimal, -, hcount, hagain⟩ := shrink_minimal duplicates_wellFormed h
  exact ⟨cf', h, hminimal, hcount, hagain⟩

end ClassFile

end Cleartext
