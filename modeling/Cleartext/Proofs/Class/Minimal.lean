import Mathlib.Data.List.Sort
import Cleartext.Proofs.Class.Keys

/-!
# The compacted pool is minimal

What compacting does besides keeping meanings: an index never grows, two live entries
of one meaning get one index, and the entries that are kept stand in their order
(`Compaction.Minimal`).  From this:

* every entry of the new pool is reached (`Compaction.reaches_pool`),
* no two of them mean the same (`Compaction.eq_of_means_pool`),
* a pool of which this holds already is compacted to itself
  (`Compaction.slots_of_distinct`).

An index that is moved is not zero and has not grown, so moving the references of a
class cannot fail once its live entries are known and compacted
(`ClassFile.exists_shrink_iff`).
-/

namespace Cleartext

namespace Pool

variable {p : Pool}

/-! ## The entries of a pool -/

theorem mem_entriesFrom {k : Nat} {slots : List (Option Constant)} {i : UInt16} {c : Constant} :
    (i, c) ∈ entriesFrom k slots ↔ ∃ n, slots[n]? = some (some c) ∧ i = (k + n).toUInt16 := by
  unfold entriesFrom
  simp only [List.mem_filterMap, Prod.exists, List.mk_mem_zipIdx_iff_le_and_getElem?_sub,
    Option.map_eq_some_iff, Prod.mk.injEq]
  constructor
  · rintro ⟨slot, n, ⟨hle, hslot⟩, d, rfl, rfl, rfl⟩
    exact ⟨n - k, hslot, by rw [Nat.add_sub_cancel' hle]⟩
  · rintro ⟨n, hslot, rfl⟩
    exact ⟨some c, k + n, ⟨Nat.le_add_right _ _, by rwa [Nat.add_sub_cancel_left]⟩, c, rfl, rfl, rfl⟩

theorem mem_entries (hcount : p.count < 65536) {i : UInt16} {c : Constant} :
    (i, c) ∈ p.entries ↔ p.get? i = some c := by
  show (i, c) ∈ entriesFrom 0 p.slots.toList ↔ _
  rw [mem_entriesFrom, get?_eq_some]
  constructor
  · rintro ⟨n, hslot, rfl⟩
    rw [Array.getElem?_toList] at hslot
    have hlt : n < p.count := (Array.getElem?_eq_some_iff.1 hslot).1
    rw [Nat.zero_add, UInt16.toNat_ofNat_of_lt' (by show n < 65536; omega), hslot]
  · intro hslot
    exact ⟨i.toNat, by rwa [Array.getElem?_toList], by simp⟩

theorem pairwise_entriesFrom {k : Nat} {slots : List (Option Constant)}
    (hroom : k + slots.length ≤ 65536) :
    (entriesFrom k slots).Pairwise fun earlier later => earlier.1 < later.1 := by
  induction slots generalizing k with
  | nil => exact .nil
  | cons slot rest ih =>
    rw [List.length_cons] at hroom
    cases slot with
    | none =>
      rw [entriesFrom_none]
      exact ih (by omega)
    | some c =>
      rw [entriesFrom_some]
      refine .cons (fun e he => ?_) (ih (by omega))
      obtain ⟨n, hslot, heq⟩ := mem_entriesFrom.1 (show (e.1, e.2) ∈ _ from he)
      have hlt : n < rest.length := (List.getElem?_eq_some_iff.1 hslot).1
      rw [heq, UInt16.lt_iff_toNat_lt, UInt16.toNat_ofNat_of_lt' (by show k < 65536; omega),
        UInt16.toNat_ofNat_of_lt' (by show k + 1 + n < 65536; omega)]
      omega

/-- Entries in the order of their indices, all of them from a pool, are some of its
entries in their order. -/
theorem sublist_entries (hcount : p.count < 65536) {kept : List (UInt16 × Constant)}
    (hordered : kept.Pairwise fun earlier later => earlier.1 < later.1)
    (hentries : ∀ e ∈ kept, p.get? e.1 = some e.2) : kept.Sublist p.entries := by
  have : Std.Antisymm fun earlier later : UInt16 × Constant => earlier.1 < later.1 :=
    ⟨fun _ _ h h' => absurd h (UInt16.lt_asymm h')⟩
  have hnodup : kept.Nodup := by
    refine List.nodup_iff_pairwise_ne.2 (hordered.imp ?_)
    rintro e _ h rfl
    exact UInt16.lt_irrefl _ h
  refine List.sublist_of_subperm_of_pairwise (List.subperm_of_subset hnodup fun e he => ?_)
    hordered (pairwise_entriesFrom ?_)
  · exact (mem_entries hcount).2 (hentries e he)
  · show 0 + p.slots.toList.length ≤ 65536
    have : p.slots.toList.length = p.count := Array.length_toList
    omega

/-- The slots of a laid-out entry stand where the entry does. -/
theorem Laid.take_add_width {slots : List (Option Constant)} (h : Laid slots) {n : Nat}
    {c : Constant} (hc : slots[n]? = some (some c)) :
    slots.take (n + c.width) = slots.take n ++ slotsOf c := by
  induction h generalizing n with
  | nil => cases hc
  | @narrow d rest _ hwidth _ ih =>
    cases n with
    | zero =>
      obtain rfl : d = c := by simpa using hc
      simp [slotsOf, Constant.width, hwidth]
    | succ n =>
      rw [Nat.add_right_comm, List.take_succ_cons, List.take_succ_cons, ih (by simpa using hc),
        List.cons_append]
  | @wide d rest _ hwidth _ ih =>
    cases n with
    | zero =>
      obtain rfl : d = c := by simpa using hc
      simp [slotsOf, Constant.width, hwidth]
    | succ n =>
      cases n with
      | zero => exact absurd hc (by simp)
      | succ n =>
        rw [show n + 1 + 1 + c.width = n + c.width + 2 by omega, List.take_succ_cons,
          List.take_succ_cons, List.take_succ_cons, List.take_succ_cons, ih (by simpa using hc)]
        rfl

/-- The slots in front of an entry and its own are those in front of what follows. -/
theorem WellFormed.take_add_width (hp : p.WellFormed) {i : UInt16} {c : Constant}
    (hc : p.get? i = some c) :
    p.slots.toList.take (i.toNat + c.width) = p.slots.toList.take i.toNat ++ slotsOf c := by
  obtain ⟨slots, hslots, hlaid, -⟩ := hp
  rw [get?_eq_some, ← Array.getElem?_toList, hslots] at hc
  rw [hslots]
  cases hi : i.toNat with
  | zero =>
    rw [hi] at hc
    cases hc
  | succ n =>
    rw [hi] at hc
    rw [Nat.add_right_comm, List.take_succ_cons, List.take_succ_cons,
      hlaid.take_add_width (by simpa using hc), List.cons_append]

theorem entriesFrom_append (k : Nat) (slots more : List (Option Constant)) :
    entriesFrom k (slots ++ more) = entriesFrom k slots ++ entriesFrom (k + slots.length) more := by
  unfold entriesFrom
  rw [List.zipIdx_append, List.filterMap_append]

theorem entriesFrom_slotsOf (k : Nat) (c : Constant) :
    entriesFrom k (slotsOf c) = [(k.toUInt16, c)] := by
  unfold slotsOf
  split
  · rw [entriesFrom_some, entriesFrom_none]
    rfl
  · rw [entriesFrom_some]
    rfl

end Pool

namespace Compaction

variable {p : Pool} {live : Array Bool} {plan : Compaction}

/-! ## What the steps keep -/

/-- The entries that are kept, with their old indices, when those in front of the index
`k` have been placed. -/
structure Keeps (p : Pool) (live : Array Bool) (k : Nat) (s : Compaction)
    (kept : List (UInt16 × Constant)) : Prop where
  slots : Pool.entriesFrom 0 s.slots.toList = kept.map fun e => (s.indices.getD e.1.toNat 0, e.2)
  ordered : kept.Pairwise fun earlier later => earlier.1 < later.1
  placed : ∀ e ∈ kept, Marked live e.1 ∧ e.1.toNat < k ∧ p.get? e.1 = some e.2

/-- What holds of the new indices when the entries in front of the index `k` have been
placed. -/
structure Minimal (p : Pool) (live : Array Bool) (k : Nat) (s : Compaction) : Prop where
  sound : s.Sound p live k
  below : ∀ j : UInt16, s.indices.getD j.toNat 0 ≤ j
  agreed : ∀ j, Marked live j → j.toNat < k →
    ∃ m, p.Means j m ∧ s.first[m.key]? = some (s.indices.getD j.toNat 0)
  kept : ∃ kept, Keeps p live k s kept

section

variable {s : Compaction} {kept : List (UInt16 × Constant)} {i n : UInt16} {c : Constant}

/-- Entries with indices in front of `i` keep their new indices when `i` gets one. -/
private theorem Keeps.map_set (h : Keeps p live i.toNat s kept) (hi : i.toNat < s.indices.size)
    (n : UInt16) :
    kept.map (fun e => ((s.indices.setIfInBounds i.toNat n).getD e.1.toNat 0, e.2)) =
      kept.map fun e => (s.indices.getD e.1.toNat 0, e.2) := by
  refine List.map_congr_left fun e he => ?_
  have hlt := (h.placed e he).2.1
  have hne : e.1 ≠ i := fun heq => by
    rw [heq] at hlt
    omega
  simp only [getD_setIfInBounds hi, if_neg hne]

/-- An entry that is merged is not kept. -/
private theorem Keeps.merge (h : Keeps p live i.toNat s kept) (hi : i.toNat < s.indices.size)
    (keys : Keys) : Keeps p live (i.toNat + c.width)
      { s with keys, indices := s.indices.setIfInBounds i.toNat n } kept := by
  refine ⟨h.slots.trans (h.map_set hi n).symm, h.ordered, fun e he => ?_⟩
  obtain ⟨hmarked, hlt, hget⟩ := h.placed e he
  exact ⟨hmarked, by omega, hget⟩

/-- An entry that goes behind the others is kept behind them. -/
private theorem Keeps.keep (h : Keeps p live i.toNat s kept) (hi : i.toNat < s.indices.size)
    (hc : p.get? i = some c) (hmarked : Marked live i) (keys : Keys)
    (first : Std.HashMap Bytes UInt16) :
    Keeps p live (i.toNat + c.width)
      { keys, first
        indices := s.indices.setIfInBounds i.toNat s.slots.size.toUInt16
        slots := s.slots ++ (Pool.slotsOf c).toArray } (kept ++ [(i, c)]) := by
  refine ⟨?_, ?_, fun e he => ?_⟩
  · rw [List.map_append, h.map_set hi, Array.toList_append, Pool.entriesFrom_append,
      Pool.entriesFrom_slotsOf, h.slots, Array.length_toList, Nat.zero_add]
    simp [getD_setIfInBounds hi]
  · refine List.pairwise_append.2 ⟨h.ordered, List.pairwise_singleton _ _, ?_⟩
    rintro e he _ hlast
    obtain rfl := List.mem_singleton.1 hlast
    exact UInt16.lt_iff_toNat_lt.2 (h.placed e he).2.1
  · have hwidth : 0 < c.width := by
      unfold Constant.width
      split <;> omega
    rcases List.mem_append.1 he with he | he
    · obtain ⟨he, hlt, hget⟩ := h.placed e he
      exact ⟨he, by omega, hget⟩
    · obtain rfl := List.mem_singleton.1 he
      exact ⟨hmarked, by simp only; omega, hc⟩

/-- No index has grown when `i` gets one that is not greater. -/
private theorem below_set (hi : i.toNat < s.indices.size) (hn : n ≤ i)
    (h : ∀ j : UInt16, s.indices.getD j.toNat 0 ≤ j) (j : UInt16) :
    (s.indices.setIfInBounds i.toNat n).getD j.toNat 0 ≤ j := by
  rw [getD_setIfInBounds hi]
  split
  · rename_i hji
    rwa [hji]
  · exact h j

/-- The first entries of the keys are where the new indices say, that of `i` among them. -/
private theorem agreed_set {first : Std.HashMap Bytes UInt16} {m : Meaning}
    (hi : i.toNat < s.indices.size) (hm : p.Means i m) (hfirst : first[m.key]? = some n)
    (hnone : ∀ j, Marked live j → i.toNat < j.toNat → i.toNat + c.width ≤ j.toNat)
    (h : ∀ j, Marked live j → j.toNat < i.toNat →
      ∃ m, p.Means j m ∧ first[m.key]? = some (s.indices.getD j.toNat 0)) :
    ∀ j, Marked live j → j.toNat < i.toNat + c.width → ∃ m, p.Means j m ∧
      first[m.key]? = some ((s.indices.setIfInBounds i.toNat n).getD j.toNat 0) := by
  intro j hj hlt
  rw [getD_setIfInBounds hi]
  by_cases hji : j = i
  · rw [if_pos hji]
    exact ⟨m, hji ▸ hm, hfirst⟩
  · have hne : j.toNat ≠ i.toNat := fun heq => hji (UInt16.toNat_inj.1 heq)
    have hbehind : j.toNat < i.toNat := by
      by_contra hge
      have := hnone j hj (by omega)
      omega
    rw [if_neg hji]
    exact h j hj hbehind

end

/-- The entry at an index is placed. -/
theorem Minimal.place {s s' : Compaction} {i : UInt16} {c : Constant}
    (h : s.Minimal p live i.toNat) (hp : p.WellFormed) (hlive : p.ClosedUpTo [] live)
    (hc : p.get? i = some c) (hmarked : Marked live i)
    (hnone : ∀ j, Marked live j → i.toNat < j.toNat → i.toNat + c.width ≤ j.toNat)
    (hplace : s.place p i c = .ok s') : s'.Minimal p live (i.toNat + c.width) := by
  have hsound := h.sound.place rfl hc hnone hp hlive hmarked (Nat.le_refl _) hplace
  have hsize : i.toNat < s.indices.size := by
    rw [h.sound.size]
    exact Pool.lt_count_of_get? hc
  obtain ⟨kept, hkept⟩ := h.kept
  obtain ⟨hcycle, hcases⟩ := place_ok.1 hplace
  obtain ⟨m, hm, hkey, -, -⟩ := Pool.key_ok (fun j hj => hlive.entry hj) (p.count + 1) i s.keys
    h.sound.keys (by rw [h.sound.idle]; omega) hmarked hcycle
  rw [hkey] at hcases
  have hroom := h.sound.room
  rcases hcases with ⟨n, hfirst, rfl⟩ | ⟨hfirst, rfl⟩
  · -- The entry is merged with one that is kept already.
    obtain ⟨-, -, d, -, hslot, -, -⟩ := h.sound.first _ n hfirst
    have hn : n.toNat < s.slots.size := (Array.getElem?_eq_some_iff.1 hslot).1
    have hle : n ≤ i := UInt16.le_iff_toNat_le.2 (by omega)
    exact ⟨hsound, below_set hsize hle h.below, agreed_set hsize hm hfirst hnone h.agreed, kept,
      hkept.merge hsize _⟩
  · -- The entry is kept.
    have hn : s.slots.size.toUInt16.toNat = s.slots.size := by
      have := i.toNat_lt
      exact UInt16.toNat_ofNat_of_lt' (by show s.slots.size < 65536; omega)
    have hle : s.slots.size.toUInt16 ≤ i := UInt16.le_iff_toNat_le.2 (by omega)
    have hself : (s.first.insert m.key s.slots.size.toUInt16)[m.key]? =
        some s.slots.size.toUInt16 := Std.HashMap.getElem?_insert_self
    have hagreed := agreed_set hsize hm hself hnone fun j hj hlt => by
      obtain ⟨m', hm', hj'⟩ := h.agreed j hj hlt
      have hne : m.key ≠ m'.key := fun heq => by
        rw [heq, hj'] at hfirst
        cases hfirst
      exact ⟨m', hm', by rw [Std.HashMap.getElem?_insert, if_neg (by simpa using hne), hj']⟩
    exact ⟨hsound, below_set hsize hle h.below, hagreed, kept ++ [(i, c)],
      hkept.keep hsize hc hmarked _ _⟩

/-- Nothing is kept at the start. -/
theorem minimal_start (hp : p.WellFormed) (hlive : p.ClosedUpTo [] live) :
    (start p).Minimal p live 1 := by
  have hsound := sound_start hp hlive
  have hzero (j : UInt16) : (start p).indices.getD j.toNat 0 = 0 := by
    show (Array.replicate p.count (0 : UInt16)).getD j.toNat 0 = 0
    rw [Array.getD_eq_getD_getElem?, Array.getElem?_replicate]
    split <;> rfl
  refine ⟨hsound, fun j => ?_, fun j hj hlt => ?_, [], rfl, .nil, by simp⟩
  · rw [hzero]
    exact UInt16.le_iff_toNat_le.2 (Nat.zero_le _)
  · -- Slot zero is empty.
    obtain ⟨m, -, c, l, hslot, -⟩ := hsound.placed j hj hlt
    rw [hzero] at hslot
    simp [start] at hslot

/-- Compacting keeps `Minimal` in front of every entry. -/
theorem minimal_of_compact (hp : p.WellFormed) (hlive : p.ClosedUpTo [] live)
    (h : p.compact live = .ok plan) : plan.Minimal p live p.count := by
  have hcases := compact_cases (P := fun k s => s.Minimal p live k) hp hlive ?_ ?_
    (minimal_start hp hlive)
  · rwa [h] at hcases
  · intro i c s _ hmarked hnone hs
    have hbehind {j : UInt16} (hj : Marked live j) (hle : i.toNat ≤ j.toNat) :
        i.toNat + c.width ≤ j.toNat := by
      have hne : j.toNat ≠ i.toNat := fun heq => hmarked (UInt16.toNat_inj.1 heq ▸ hj)
      exact hnone j hj (by omega)
    obtain ⟨kept, hkept⟩ := hs.kept
    refine ⟨hs.sound.advance (Nat.le_add_right _ _) fun j hj => hbehind hj, hs.below,
      fun j hj hlt => hs.agreed j hj ?_, kept, hkept.slots, hkept.ordered, fun e he => ?_⟩
    · by_contra hge
      have := hbehind hj (by omega)
      omega
    · obtain ⟨he, hlt, hget⟩ := hkept.placed e he
      exact ⟨he, by omega, hget⟩
  · intro i c s s' hc hmarked hnone hplace hs
    exact hs.place hp hlive hc hmarked hnone hplace

/-! ## The new pool -/

/-- No index grows. -/
theorem Minimal.move_le (h : plan.Minimal p live p.count) (i : UInt16) : plan.move i ≤ i :=
  h.below i

/-- The pool does not grow. -/
theorem Minimal.count_pool_le (h : plan.Minimal p live p.count) : plan.pool.count ≤ p.count := by
  have hcount : plan.pool.count = plan.slots.size := by
    rw [Pool.count, ← Array.length_toList, toList_pool, List.length_map, Array.length_toList]
  rw [hcount]
  exact h.sound.room

section

variable (hp : p.WellFormed) (hlive : p.ClosedUpTo [] live) (h : plan.Minimal p live p.count)

include hlive h

/-- Marked indices of one meaning become one index. -/
theorem Minimal.move_eq {i j : UInt16} {m : Meaning} (hi : Marked live i) (hj : Marked live j)
    (him : p.Means i m) (hjm : p.Means j m) : plan.move i = plan.move j := by
  have hfirst {i : UInt16} (hi : Marked live i) (him : p.Means i m) :
      plan.first[m.key]? = some (plan.move i) := by
    obtain ⟨c, hc, -⟩ := hlive.entry hi
    obtain ⟨m', hm', hfirst⟩ := h.agreed i hi (Pool.lt_count_of_get? hc)
    rwa [hm'.unique him] at hfirst
  exact Option.some.inj ((hfirst hi him).symm.trans (hfirst hj hjm))

omit hlive in
/-- The entries of the new pool are entries that are kept, in their order, with their
references moved. -/
theorem Minimal.entries_pool : ∃ kept, Keeps p live p.count plan kept ∧
    plan.pool.entries = kept.map fun e => (plan.move e.1, e.2.mapReferences plan.move) := by
  obtain ⟨kept, hkept⟩ := h.kept
  have hmap (k : Nat) (slots : List (Option Constant)) (f : UInt16 → UInt16) :
      Pool.entriesFrom k (slots.map fun slot => slot.map (·.mapReferences f)) =
        (Pool.entriesFrom k slots).map fun e => (e.1, e.2.mapReferences f) := by
    induction slots generalizing k with
    | nil => rfl
    | cons slot rest ih =>
      cases slot with
      | none =>
        rw [List.map_cons, Option.map_none, Pool.entriesFrom_none, Pool.entriesFrom_none, ih]
      | some c =>
        rw [List.map_cons, Option.map_some, Pool.entriesFrom_some, Pool.entriesFrom_some, ih,
          List.map_cons]
  refine ⟨kept, hkept, ?_⟩
  show Pool.entriesFrom 0 plan.pool.slots.toList = _
  rw [toList_pool, hmap, hkept.slots, List.map_map]
  rfl

include hp

omit hlive in
/-- An entry of the new pool is a marked one with its references moved. -/
theorem Minimal.exists_kept {n : UInt16} {c' : Constant} (hn : plan.pool.get? n = some c') :
    ∃ j c, Marked live j ∧ p.get? j = some c ∧ c' = c.mapReferences plan.move ∧
      plan.move j = n := by
  obtain ⟨kept, hkept, hentries⟩ := h.entries_pool
  have hcount : plan.pool.count < 65536 := by
    obtain ⟨-, -, -, hcount⟩ := h.sound.wellFormed_pool hp
    exact hcount
  rw [← Pool.mem_entries hcount, hentries, List.mem_map] at hn
  obtain ⟨e, he, heq⟩ := hn
  obtain ⟨hmove, hc'⟩ := Prod.mk.inj heq
  obtain ⟨hmarked, -, hget⟩ := hkept.placed e he
  exact ⟨e.1, e.2, hmarked, hget, hc'.symm, hmove⟩

omit hp in
/-- What a marked index reaches is reached from where it is moved to. -/
theorem Minimal.reaches_move {roots : List UInt16} (hroots : ∀ i ∈ roots, Marked live i)
    {j : UInt16} (hj : p.Reaches roots j) :
    plan.pool.Reaches (roots.map plan.move) (plan.move j) := by
  induction hj with
  | root hi => exact .root (List.mem_map_of_mem hi)
  | @step i r c hi hc hr ih =>
    -- The entry at the new index may be another one of the same meaning, but what it
    -- refers to means the same and was moved to the same index.
    have hmarked := hlive.reaches hroots hi
    obtain ⟨m, hm, d, l, hslot, hl, hlm⟩ := h.sound.placed i hmarked (Pool.lt_count_of_get? hc)
    obtain ⟨c', parts, hc', rfl, hparts⟩ := Pool.means_iff.1 hm
    obtain rfl := Option.some.inj (hc.symm.trans hc')
    obtain ⟨d', parts', hd', hnode, hparts'⟩ := Pool.means_iff.1 hlm
    obtain rfl := Option.some.inj (hl.symm.trans hd')
    obtain ⟨-, rfl⟩ := Meaning.node.inj hnode
    obtain ⟨part, hpart, hrpart⟩ :=
      exists_mem_of_forall₂ (P := flip p.Means) (List.Forall₂.flip hparts) hr
    obtain ⟨r', hr', hrpart'⟩ := exists_mem_of_forall₂ hparts' hpart
    obtain ⟨k, hk, hkd⟩ := h.sound.kept d (by
      rw [Array.mem_toList_iff]
      exact Array.mem_of_getElem? hslot)
    have hmarked' : Marked live r' := by
      obtain ⟨d', hd', hrefs⟩ := hlive.entry hk
      obtain rfl := Option.some.inj (hkd.symm.trans hd')
      exact hrefs r' hr'
    have hmarkedr : Marked live r := by
      obtain ⟨c', hc', hrefs⟩ := hlive.entry hmarked
      obtain rfl := Option.some.inj (hc.symm.trans hc')
      exact hrefs r hr
    rw [h.move_eq hlive hmarkedr hmarked' hrpart hrpart']
    refine .step ih (get?_pool hslot) ?_
    rw [Constant.references_mapReferences]
    exact List.mem_map_of_mem hr'

/-- Every entry of the new pool is reached. -/
theorem Minimal.reaches_pool {roots : List UInt16}
    (hroots : ∀ j, Marked live j ↔ p.Reaches roots j) {n : UInt16} {c : Constant}
    (hn : plan.pool.get? n = some c) : plan.pool.Reaches (roots.map plan.move) n := by
  obtain ⟨j, -, hj, -, -, rfl⟩ := h.exists_kept hp hn
  exact h.reaches_move hlive (fun i hi => (hroots i).2 (.root hi)) ((hroots j).1 hj)

/-- Every entry of the new pool has a meaning: the one of the marked entries that
become it. -/
theorem Minimal.exists_means_pool {n : UInt16} {c : Constant} (hn : plan.pool.get? n = some c) :
    ∃ j m, Marked live j ∧ plan.move j = n ∧ p.Means j m ∧ plan.pool.Means n m := by
  obtain ⟨j, -, hj, -, -, rfl⟩ := h.exists_kept hp hn
  obtain ⟨⟨m, hm, hm'⟩, -⟩ := h.sound.sameMeaning_move hlive hj
  exact ⟨j, m, hj, rfl, hm, hm'⟩

/-- No two entries of the new pool mean the same. -/
theorem Minimal.eq_of_means_pool {x y : UInt16} {m : Meaning} (hx : plan.pool.Means x m)
    (hy : plan.pool.Means y m) : x = y := by
  have hold {x : UInt16} (hx : plan.pool.Means x m) :
      ∃ j, Marked live j ∧ plan.move j = x ∧ p.Means j m := by
    obtain ⟨c, -, hc, -⟩ := Pool.means_iff.1 hx
    obtain ⟨j, m', hj, hmove, hm', hxm'⟩ := h.exists_means_pool hp hlive hc
    exact ⟨j, hj, hmove, hx.unique hxm' ▸ hm'⟩
  obtain ⟨i, hi, rfl, him⟩ := hold hx
  obtain ⟨j, hj, rfl, hjm⟩ := hold hy
  exact h.move_eq hlive hi hj him hjm

end

/-! ## Compacting a minimal pool -/

/-- A pool in which everything is marked and no two entries mean the same is compacted
to itself. -/
theorem slots_of_distinct (hp : p.WellFormed) (hlive : p.ClosedUpTo [] live)
    (hall : ∀ i c, p.get? i = some c → Marked live i)
    (hdistinct : ∀ i j m, p.Means i m → p.Means j m → i = j) (h : p.compact live = .ok plan) :
    plan.slots = p.slots ∧ ∀ i, Marked live i → plan.move i = i := by
  have hcases := compact_cases (P := fun k s => s.Sound p live k ∧
    s.slots.toList = p.slots.toList.take k ∧
    ∀ j, Marked live j → j.toNat < k → s.indices.getD j.toNat 0 = j) hp hlive ?_ ?_ ?_
  · rw [h] at hcases
    obtain ⟨-, hslots, hmove⟩ := hcases
    refine ⟨?_, fun i hi => ?_⟩
    · rw [← Array.toList_inj, hslots]
      exact List.take_of_length_le (Nat.le_of_eq Array.length_toList)
    · obtain ⟨c, hc, -⟩ := hlive.entry hi
      exact hmove i hi (Pool.lt_count_of_get? hc)
  · intro i c s hc hmarked
    exact absurd (hall i c hc) hmarked
  · rintro i c s s' hc hmarked hnone hplace ⟨hsound, hslots, hmove⟩
    have hsound' := hsound.place rfl hc hnone hp hlive hmarked (Nat.le_refl _) hplace
    have hlt := Pool.lt_count_of_get? hc
    have hsize : s.slots.size = i.toNat := by
      have hle : i.toNat ≤ p.slots.toList.length := by
        rw [Array.length_toList]
        exact Nat.le_of_lt hlt
      rw [← Array.length_toList, hslots, List.length_take, Nat.min_eq_left hle]
    obtain ⟨hcycle, hcases⟩ := place_ok.1 hplace
    obtain ⟨m, hm, hkey, -, -⟩ := Pool.key_ok (fun j hj => hlive.entry hj) (p.count + 1) i s.keys
      hsound.keys (by rw [hsound.idle]; omega) hmarked hcycle
    rw [hkey] at hcases
    rcases hcases with ⟨n, hfirst, rfl⟩ | ⟨-, rfl⟩
    · -- The entry that is kept already would mean the same.
      obtain ⟨m', hkey', d, l, hslot, hl, hlm⟩ := hsound.first _ n hfirst
      obtain rfl := Pool.key_injective hp.proper hlm hm hkey'
      have hn : n.toNat < i.toNat := hsize ▸ (Array.getElem?_eq_some_iff.1 hslot).1
      have hnd : p.get? n = some d := by
        rw [Pool.get?_eq_some, ← Array.getElem?_toList]
        rw [← Array.getElem?_toList, hslots, List.getElem?_take_of_lt hn] at hslot
        exact hslot
      have hnm : p.Means n m' := by
        obtain ⟨d', parts, hd', rfl, hparts⟩ := Pool.means_iff.1 hlm
        obtain rfl := Option.some.inj (hl.symm.trans hd')
        exact Pool.means_iff.2 ⟨d, parts, hnd, rfl, hparts⟩
      rw [hdistinct n i m' hnm hm] at hn
      exact absurd hn (Nat.lt_irrefl _)
    · refine ⟨hsound', ?_, fun j hj hjlt => ?_⟩
      · rw [Array.toList_append, hslots, hp.take_add_width hc]
      · simp only [getD_setIfInBounds (show i.toNat < s.indices.size by rwa [hsound.size])]
        split
        · rename_i hji
          rw [hsize, hji]
          exact UInt16.ofNat_toNat
        · rename_i hji
          refine hmove j hj ?_
          have hne : j.toNat ≠ i.toNat := fun heq => hji (UInt16.toNat_inj.1 heq)
          by_contra hge
          have := hnone j hj (by omega)
          omega
  · refine ⟨sound_start hp hlive, ?_, fun j hj hlt => ?_⟩
    · obtain ⟨slots, hslots, -, -⟩ := hp
      rw [hslots]
      rfl
    · obtain ⟨m, -, hfirst⟩ := (minimal_start hp hlive).agreed j hj hlt
      exact absurd hfirst (by simp [start])

end Compaction

/-! ## Moving cannot fail -/

namespace ClassFile

variable {cf : ClassFile}

/-- Once the live entries are known and compacted, the class can be shrunk. -/
theorem exists_shrink {live : Array Bool} {plan : Compaction} (hp : cf.pool.WellFormed)
    (hlive : cf.liveEntries = .ok live) (hplan : cf.pool.compact live = .ok plan) :
    ∃ moved, (cf.changeReferences fun i => (return plan.move i : Layout.Change Unit UInt16)).run ()
      = .ok (moved, ()) ∧ cf.shrink = .ok { moved with pool := plan.pool } := by
  have hminimal := Compaction.minimal_of_compact hp (liveEntries_ok hlive).1 hplan
  have hnever : ∀ (i : UInt16) (s : Unit) (x : UInt16) (s' : Unit),
      (return plan.move i : Layout.Change Unit UInt16).run s = .ok (x, s') → x ≤ i := by
    intro i s x s' hrun
    obtain ⟨rfl, -⟩ := Prod.mk.inj (Except.ok.inj hrun)
    exact hminimal.move_le i
  have hmapM (refs : List UInt16) : ∃ xs, (refs.mapM fun i =>
      (return plan.move i : Layout.Change Unit UInt16)).run () = .ok (xs, ()) := by
    induction refs with
    | nil => exact ⟨[], rfl⟩
    | cons i refs ih =>
      obtain ⟨xs, hxs⟩ := ih
      refine ⟨plan.move i :: xs, ?_⟩
      rw [List.mapM_cons, StateT.run_bind]
      refine Except.bind_ok.2 ⟨_, rfl, ?_⟩
      rw [StateT.run_bind]
      exact Except.bind_ok.2 ⟨_, hxs, rfl⟩
  obtain ⟨moved, hmoved⟩ := (visits_changeReferences hnever cf () ()).2
    ⟨(liveEntries_eq_ok.1 hlive).1, hmapM _⟩
  refine ⟨moved, hmoved, ?_⟩
  unfold shrink
  exact Except.bind_ok.2 ⟨live, hlive, Except.bind_ok.2 ⟨plan, hplan,
    Except.bind_ok.2 ⟨(moved, ()), hmoved, rfl⟩⟩⟩

/-- A class can be shrunk if and only if its references can be found and each of them
has a meaning. -/
theorem exists_shrink_iff (hp : cf.pool.WellFormed) : (∃ cf', cf.shrink = .ok cf') ↔
    cf.Walkable ∧ ∀ i ∈ cf.references, ∃ m, cf.pool.Means i m := by
  constructor
  · rintro ⟨cf', h⟩
    unfold shrink at h
    obtain ⟨live, hlive, h⟩ := Except.bind_ok.1 h
    obtain ⟨plan, hplan, -⟩ := Except.bind_ok.1 h
    have hmeans := (Compaction.exists_compact_iff hp (liveEntries_ok hlive).1).1 ⟨plan, hplan⟩
    exact ⟨(liveEntries_eq_ok.1 hlive).1,
      fun i hi => hmeans i ((marked_iff_reaches hlive i).2 (.root hi))⟩
  · rintro ⟨hwalk, hmeans⟩
    obtain ⟨live, hlive⟩ := liveEntries_iff.2 ⟨hwalk, fun j hj => by
      obtain ⟨c, hc, -⟩ := Pool.exists_get?_of_means (hj.exists_means hmeans)
      exact ⟨c, hc⟩⟩
    obtain ⟨plan, hplan⟩ := (Compaction.exists_compact_iff hp (liveEntries_ok hlive).1).2
      fun i hi => ((marked_iff_reaches hlive i).1 hi).exists_means hmeans
    obtain ⟨moved, -, h⟩ := exists_shrink hp hlive hplan
    exact ⟨_, h⟩

end ClassFile

end Cleartext
