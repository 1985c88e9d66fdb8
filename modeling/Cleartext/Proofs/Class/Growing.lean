import Cleartext.Proofs.Class.Adding

/-!
# Pools that grow

What is in a pool is not added again, and what is added goes behind what is there.

* `WellFormed.gaps`: which slots of a pool hold nothing.
* `Indexed`: a pool is laid out in slots, and its index gives the first place of every
  entry.  `Grows` is what adding does to such a pool: entries stay, and no entry equal to
  another one comes in.
* `Edit.Files` says of an edit that it keeps both, and that it answers the same ever
  after.  `files_bind` carries this from the single constants to the edits that are made of
  them.
-/

namespace Cleartext

/-- A long or a double takes two slots, and no other constant does. -/
theorem Constant.Proper.isWide_iff {c : Constant} (h : c.Proper) :
    c.tag.isWide = true ↔ (∃ v, c = .long v) ∨ ∃ bits, c = .double bits := by
  cases c with
  | member kind => rcases h with rfl | rfl | rfl <;> simp [tag, Tag.isWide]
  | _ => simp [tag, Tag.isWide]

namespace Pool

variable {p q : Pool} {c d : Constant} {i j : UInt16}

/-! ## Empty slots -/

/-- Slot zero and the slots behind longs and doubles are empty, and no other slot is. -/
def Gaps (p : Pool) : Prop :=
  ∀ i : UInt16, i.toNat < p.count → (p.get? i = none ↔
    i = 0 ∨ (∃ v, p.get? (i - 1) = some (.long v)) ∨ ∃ bits, p.get? (i - 1) = some (.double bits))

/-- Among slots that are laid out, an empty one stands behind an entry that takes two. -/
theorem Laid.getElem?_eq_none {slots : List (Option Constant)} (h : Laid slots) (k : Nat) :
    slots[k]? = some none ↔
      ∃ m c, k = m + 1 ∧ slots[m]? = some (some c) ∧ c.tag.isWide = true := by
  induction h generalizing k with
  | nil => simp
  | @narrow c rest hproper hwidth hrest ih =>
    cases k with
    | zero => simp
    | succ k =>
      rw [List.getElem?_cons_succ, ih]
      cases k with
      | zero => simp [hwidth]
      | succ k => simp
  | @wide c rest hproper hwidth hrest ih =>
    match k with
    | 0 => simp
    | 1 => simp [hwidth]
    | k + 2 =>
      rw [List.getElem?_cons_succ, List.getElem?_cons_succ, ih]
      cases k with
      | zero => simp
      | succ k => simp

theorem WellFormed.gaps (h : p.WellFormed) : p.Gaps := by
  have hproper := h.proper
  obtain ⟨slots, hslots, hlaid, hcount⟩ := h
  intro i hi
  have hget (j : UInt16) : p.get? j = ((none :: slots)[j.toNat]?).join := by
    rw [get?, ← Array.getElem?_toList, hslots]
  have hwide (j : UInt16) : ((∃ v, p.get? j = some (.long v)) ∨ ∃ bits, p.get? j = some (.double bits)) ↔
      ∃ c, p.get? j = some c ∧ c.tag.isWide = true := by
    constructor
    · rintro (⟨v, hv⟩ | ⟨bits, hbits⟩)
      · exact ⟨_, hv, rfl⟩
      · exact ⟨_, hbits, rfl⟩
    · intro hc
      obtain ⟨c, hc, hwide⟩ := hc
      rw [(hproper c (mem_of_get? hc)).isWide_iff] at hwide
      rcases hwide with hwide | hwide
      all_goals
        obtain ⟨v, rfl⟩ := hwide
      · exact .inl ⟨v, hc⟩
      · exact .inr ⟨v, hc⟩
  rw [hwide, hget i]
  rw [count_eq hslots] at hi
  rcases Nat.eq_zero_or_pos i.toNat with hzero | hpos
  · obtain rfl : i = 0 := UInt16.toNat_inj.1 (hzero.trans rfl)
    simp
  · have hne : i ≠ 0 := fun h => by simp [h] at hpos
    have hle : (1 : UInt16) ≤ i := UInt16.le_iff_toNat_le.2 hpos
    have hprev : (i - 1).toNat = i.toNat - 1 := UInt16.toNat_sub_of_le _ _ hle
    obtain ⟨k, hk⟩ : ∃ k, i.toNat = k + 1 := ⟨i.toNat - 1, by omega⟩
    rw [hk] at hi
    rw [hget (i - 1), hprev, hk, List.getElem?_cons_succ, Nat.add_sub_cancel]
    have hslot : slots[k]? = some slots[k] := List.getElem?_eq_getElem (by omega)
    have hempty : (slots[k]?).join = none ↔ slots[k]? = some none := by
      rw [hslot, Option.join_some, Option.some.injEq]
    rw [hempty, hlaid.getElem?_eq_none]
    simp only [hne, false_or]
    cases k with
    | zero => simp
    | succ k => simp [Option.join_eq_some_iff]

/-- An index of a pool names the same in a pool that extends it, an empty slot included. -/
theorem Extends.get?_eq_of_lt (h : p.Extends q) (hp : p.WellFormed) (hq : q.WellFormed)
    (hi : i.toNat < p.count) : q.get? i = p.get? i := by
  cases hc : p.get? i with
  | some c => exact h i c hc
  | none =>
    by_cases hlt : i.toNat < q.count
    · refine (hq.gaps i hlt).2 ?_
      obtain hzero | ⟨v, hv⟩ | ⟨bits, hbits⟩ := (hp.gaps i hi).1 hc
      · exact .inl hzero
      · exact .inr (.inl ⟨v, h _ _ hv⟩)
      · exact .inr (.inr ⟨bits, h _ _ hbits⟩)
    · rw [get?, Array.getElem?_eq_none (Nat.le_of_not_lt hlt)]
      rfl

/-! ## First places -/

/-- The first index of an entry. -/
structure FirstAt (p : Pool) (c : Constant) (i : UInt16) : Prop where
  found : p.get? i = some c
  first : ∀ j, p.get? j = some c → i ≤ j

theorem FirstAt.unique (h : p.FirstAt c i) (h' : p.FirstAt c j) : i = j :=
  UInt16.le_antisymm (h.first j h'.found) (h'.first i h.found)

theorem exists_firstAt (h : p.get? i = some c) : ∃ j, p.FirstAt c j := by
  induction hn : i.toNat using Nat.strongRecOn generalizing i with
  | ind n ih =>
    by_cases hfirst : ∀ j, p.get? j = some c → i ≤ j
    · exact ⟨i, h, hfirst⟩
    · push Not at hfirst
      obtain ⟨j, hj, hlt⟩ := hfirst
      rw [UInt16.not_le, UInt16.lt_iff_toNat_lt, hn] at hlt
      exact ih j.toNat hlt hj rfl

/-- A pool whose slots are laid out and whose index gives the first place of every entry. -/
structure Indexed (p : Pool) : Prop where
  wellFormed : p.WellFormed
  index : ∀ c i, p.index[c]? = some i ↔ p.FirstAt c i

/-- The index that is made of slots is right. -/
theorem indexed_ofSlots {slots : List (Option Constant)} (h : (ofSlots slots).WellFormed) :
    (ofSlots slots).Indexed := by
  refine ⟨h, fun c i => ?_⟩
  obtain ⟨-, -, -, hcount⟩ := h
  have hget (j : UInt16) (d : Constant) : (ofSlots slots).get? j = some d ↔
      slots[j.toNat]? = some (some d) := by
    rw [get?_eq_some, ← Array.getElem?_toList]
    rfl
  have hfirst {j : UInt16} (hj : (ofSlots slots).index[c]? = some j) :
      (ofSlots slots).FirstAt c j := by
    rw [getElem?_index_ofSlots] at hj
    obtain ⟨k, hk, rfl⟩ := Option.map_eq_some_iff.1 hj
    obtain ⟨hlt, hslot, hbefore⟩ := List.findIdx?_eq_some_iff_getElem.1 hk
    have htoNat : k.toUInt16.toNat = k := UInt16.toNat_ofNat_of_lt' (Nat.lt_trans hlt hcount)
    refine ⟨?_, fun m hm => ?_⟩
    · rw [hget, htoNat, List.getElem?_eq_getElem hlt, of_decide_eq_true hslot]
    · rw [hget] at hm
      obtain ⟨hmlt, hm⟩ := List.getElem?_eq_some_iff.1 hm
      rw [UInt16.le_iff_toNat_le, htoNat]
      by_contra hlt'
      exact hbefore m.toNat (Nat.lt_of_not_le hlt') (decide_eq_true hm)
  constructor
  · exact hfirst
  · intro hi
    have hmem : some c ∈ slots := List.mem_of_getElem? ((hget i c).1 hi.found)
    obtain ⟨k, hk⟩ : ∃ k, slots.findIdx? (· = some c) = some k :=
      Option.isSome_iff_exists.1 (List.findIdx?_isSome.trans (List.any_eq_true.2 ⟨_, hmem, by simp⟩))
    have hindex : (ofSlots slots).index[c]? = some k.toUInt16 := by
      rw [getElem?_index_ofSlots, hk]
      rfl
    rw [hindex, (hfirst hindex).unique hi]

theorem indexed_empty : empty.Indexed :=
  indexed_ofSlots ⟨[], rfl, .nil, by decide⟩

theorem indexed_read {cursor cursor' : Cursor} (h : Pool.read.run cursor = .ok (p, cursor')) :
    p.Indexed := by
  obtain ⟨hslots, ⟨slots, hlist, hcount, hlaid, -⟩, -⟩ := read_ok.1 h
  rw [hslots] at hlist hcount ⊢
  exact indexed_ofSlots ⟨slots, hlist, hlaid, hcount⟩

/-! ## Pools that grow -/

/-- What adding does to a pool: entries stay where they are and are found there, and equal
entries at two indices were there before. -/
structure Grows (p q : Pool) : Prop where
  kept : p.Extends q
  index : ∀ (c : Constant) (i : UInt16), p.index[c]? = some i → q.index[c]? = some i
  distinct : ∀ i j c, q.get? i = some c → q.get? j = some c → i ≠ j →
    p.get? i = some c ∧ p.get? j = some c

theorem Grows.refl (p : Pool) : p.Grows p :=
  ⟨Extends.refl p, fun _ _ h => h, fun _ _ _ hi hj _ => ⟨hi, hj⟩⟩

theorem Grows.trans {r : Pool} (h : p.Grows q) (h' : q.Grows r) : p.Grows r := by
  refine ⟨h.kept.trans h'.kept, fun c i hi => h'.index c i (h.index c i hi), ?_⟩
  intro i j c hi hj hne
  obtain ⟨hi, hj⟩ := h'.distinct i j c hi hj hne
  exact h.distinct i j c hi hj hne

/-- The entries of a pool to which a constant was appended. -/
theorem get?_append_iff (hroom : p.count + c.width ≤ 65535) :
    (p.append c).get? j = some d ↔ p.get? j = some d ∨ d = c ∧ j = p.count.toUInt16 := by
  have hpos : 0 < c.width := by
    unfold Constant.width
    split <;> decide
  have hcount : p.count.toUInt16.toNat = p.count :=
    UInt16.toNat_ofNat_of_lt' (by show p.count < 65536; omega)
  constructor
  · intro h
    rw [get?_eq_some] at h
    replace h : (p.slots ++ (slotsOf c).toArray)[j.toNat]? = some (some d) := h
    by_cases hlt : j.toNat < p.slots.size
    · rw [Array.getElem?_append_left hlt] at h
      exact .inl (get?_eq_some.2 h)
    · rw [Array.getElem?_append_right (Nat.le_of_not_lt hlt), List.getElem?_toArray] at h
      have hslot : j.toNat - p.slots.size = 0 ∧ d = c := by
        unfold slotsOf at h
        split at h
        · match hk : j.toNat - p.slots.size with
          | 0 => simpa [hk, eq_comm] using h
          | 1 | k + 2 => simp [hk] at h
        · match hk : j.toNat - p.slots.size with
          | 0 => simpa [hk, eq_comm] using h
          | k + 1 => simp [hk] at h
      refine .inr ⟨hslot.2, UInt16.toNat_inj.1 ?_⟩
      rw [hcount, count]
      omega
  · rintro (h | ⟨rfl, rfl⟩)
    · exact extends_append p c j d h
    · exact get?_append (by omega)

theorem count_append (p : Pool) (c : Constant) : (p.append c).count = p.count + c.width := by
  show (p.slots ++ (slotsOf c).toArray).size = p.slots.size + c.width
  rw [Array.size_append, ← length_slotsOf]
  rfl

/-- A constant that is not in the index is not in the pool. -/
theorem Indexed.get?_ne (h : p.Indexed) (hc : p.index[c]? = none) (i : UInt16) :
    p.get? i ≠ some c := by
  intro hi
  obtain ⟨j, hj⟩ := exists_firstAt hi
  rw [(h.index c j).2 hj] at hc
  cases hc

theorem Indexed.append (h : p.Indexed) (hproper : c.Proper) (hc : p.index[c]? = none)
    (hroom : p.count + c.width ≤ 65535) : (p.append c).Indexed := by
  have hne := h.get?_ne hc
  obtain ⟨slots, hslots, hlaid, -⟩ := h.wellFormed
  refine ⟨⟨slots ++ slotsOf c, ?_, hlaid.append (laid_slotsOf hproper), ?_⟩, fun d i => ?_⟩
  · show (p.slots ++ (slotsOf c).toArray).toList = _
    simp [hslots]
  · rw [count_append]
    omega
  · have hindex : (p.append c).index[d]? =
        if c = d then some p.count.toUInt16 else p.index[d]? := by
      show (p.index.insert c p.count.toUInt16)[d]? = _
      rw [Std.HashMap.getElem?_insert]
      simp
    rw [hindex]
    by_cases hd : c = d
    · -- The constant stands at its new place only.
      subst hd
      rw [if_pos rfl, Option.some.injEq]
      constructor
      · rintro rfl
        refine ⟨(get?_append_iff hroom).2 (.inr ⟨rfl, rfl⟩), fun j hj => ?_⟩
        rcases (get?_append_iff hroom).1 hj with hj | ⟨-, rfl⟩
        · exact absurd hj (hne j)
        · exact UInt16.le_refl _
      · intro hi
        rcases (get?_append_iff hroom).1 hi.found with hi | ⟨-, rfl⟩
        · exact absurd hi (hne i)
        · rfl
    · -- Every other constant stands where it stood.
      have hget (j : UInt16) : (p.append c).get? j = some d ↔ p.get? j = some d := by
        rw [get?_append_iff hroom, or_iff_left fun h => hd h.1.symm]
      rw [if_neg hd, h.index d i]
      constructor
      · intro hi
        exact ⟨(hget i).2 hi.found, fun j hj => hi.first j ((hget j).1 hj)⟩
      · intro hi
        exact ⟨(hget i).1 hi.found, fun j hj => hi.first j ((hget j).2 hj)⟩

theorem Indexed.grows_append (h : p.Indexed) (hc : p.index[c]? = none)
    (hroom : p.count + c.width ≤ 65535) : p.Grows (p.append c) := by
  have hne := h.get?_ne hc
  refine ⟨extends_append p c, fun d i hi => ?_, fun i j d hi hj hij => ?_⟩
  · show (p.index.insert c p.count.toUInt16)[d]? = some i
    rw [Std.HashMap.getElem?_insert, if_neg, hi]
    intro heq
    rw [eq_of_beq heq, hi] at hc
    cases hc
  · rcases (get?_append_iff hroom).1 hi with hi | ⟨hd, rfl⟩
    · rcases (get?_append_iff hroom).1 hj with hj | ⟨hd, -⟩
      · exact ⟨hi, hj⟩
      · exact absurd (hd ▸ hi) (hne i)
    · rcases (get?_append_iff hroom).1 hj with hj | ⟨-, rfl⟩
      · exact absurd (hd ▸ hj) (hne j)
      · exact absurd rfl hij

/-! ## Edits -/

namespace Edit

variable {α β : Type}

/-- An edit adds constants: it refuses only because the pool is full, and what it answers
is right, and its answer again, in every pool that grows from the one that it leaves. -/
def Files (e : Edit α) (Right : Pool → α → Prop) : Prop :=
  ∀ p : Pool, p.Indexed → (p.edit e).2.Indexed ∧ p.Grows (p.edit e).2 ∧
    (∀ err, (p.edit e).1 = .error err → err = .poolFull) ∧
    ∀ a, (p.edit e).1 = .ok a → ∀ q : Pool, (p.edit e).2.Grows q →
      Right q a ∧ q.edit e = (.ok a, q)

/-- Adding a constant finds it, refuses it, or appends it. -/
theorem files_add {c : Constant} (hproper : c.Proper) :
    Files (add c) fun q i => q.get? i = some c := by
  have hfound {q : Pool} {i : UInt16} (hi : q.index[c]? = some i) : q.edit (add c) = (.ok i, q) := by
    show q.add c = _
    rcases add_cases q c with ⟨j, hj, hadd⟩ | ⟨hnone, -⟩ | ⟨hnone, -⟩
    · obtain rfl := Option.some.inj (hi.symm.trans hj)
      exact hadd
    · cases hi.symm.trans hnone
    · cases hi.symm.trans hnone
  intro p hp
  rcases add_cases p c with ⟨i, hi, -⟩ | ⟨-, -, hadd⟩ | ⟨hnone, hroom, hadd⟩
  · rw [hfound hi]
    refine ⟨hp, .refl p, nofun, fun a ha q hq => ?_⟩
    obtain rfl := Except.ok.inj ha
    exact ⟨hq.kept i c ((hp.index c i).1 hi).found, hfound (hq.index c i hi)⟩
  · rw [show p.edit (add c) = p.add c from rfl, hadd]
    refine ⟨hp, .refl p, fun err herr => (Except.error.inj herr).symm, fun a ha => by cases ha⟩
  · rw [show p.edit (add c) = p.add c from rfl, hadd]
    refine ⟨hp.append hproper hnone hroom, hp.grows_append hnone hroom, nofun,
      fun a ha q hq => ?_⟩
    obtain rfl := Except.ok.inj ha
    have hindex : (p.append c).index[c]? = some p.count.toUInt16 := Std.HashMap.getElem?_insert_self
    exact ⟨hq.kept _ c (get?_append (by omega)), hfound (hq.index _ _ hindex)⟩

theorem files_bind {e : Edit α} {next : α → Edit β} {P : Pool → α → Prop} {Q : α → Pool → β → Prop}
    (h : Files e P) (hnext : ∀ a, Files (next a) (Q a)) :
    Files (e >>= next) fun q b => ∃ a, P q a ∧ Q a q b := by
  intro p hp
  obtain ⟨hp', hgrows, hfull, hright⟩ := h p hp
  rw [edit_bind]
  cases hrun : p.edit e with
  | mk result p' =>
    rw [hrun] at hp' hgrows hfull hright
    cases result with
    | error err =>
      refine ⟨hp', hgrows, fun err' herr' => ?_, nofun⟩
      obtain rfl := Except.error.inj herr'
      exact hfull err rfl
    | ok a =>
      obtain ⟨hp'', hgrows', hfull', hright'⟩ := hnext a p' hp'
      refine ⟨hp'', hgrows.trans hgrows', hfull', fun b hb q hq => ?_⟩
      obtain ⟨hP, hagain⟩ := hright a rfl q (hgrows'.trans hq)
      obtain ⟨hQ, hagain'⟩ := hright' b hb q hq
      refine ⟨⟨a, hP, hQ⟩, ?_⟩
      rw [edit_bind, hagain]
      exact hagain'

theorem files_text (s : String) : Files (text s) fun q i =>
    q.get? i = some (.utf8 (ModifiedUtf8.encode (Units.ofText s))) :=
  files_add True.intro

theorem files_class (name : String) : Files (class_ name) fun q i =>
    ∃ n, q.get? n = some (.utf8 (ModifiedUtf8.encode (Units.ofText name))) ∧
      q.get? i = some (.class_ n) :=
  files_bind (files_text name) fun _ => files_add True.intro

theorem files_stringUnits (u : Units) : Files (stringUnits u) fun q i =>
    ∃ n, q.get? n = some (.utf8 (ModifiedUtf8.encode u)) ∧ q.get? i = some (.string n) :=
  files_bind (files_add True.intro) fun _ => files_add True.intro

theorem files_nameAndType (name descriptor : String) : Files (nameAndType name descriptor) fun q i =>
    ∃ n, q.get? n = some (.utf8 (ModifiedUtf8.encode (Units.ofText name))) ∧
      ∃ d, q.get? d = some (.utf8 (ModifiedUtf8.encode (Units.ofText descriptor))) ∧
        q.get? i = some (.nameAndType n d) :=
  files_bind (files_text name) fun _ => files_bind (files_text descriptor) fun _ =>
    files_add True.intro

theorem files_ref {kind : Tag} (hkind : kind = .field ∨ kind = .method ∨ kind = .interfaceMethod)
    (owner name descriptor : String) : Files (ref kind owner name descriptor) fun q i =>
    ∃ o, (∃ n, q.get? n = some (.utf8 (ModifiedUtf8.encode (Units.ofText owner))) ∧
        q.get? o = some (.class_ n)) ∧
      ∃ t, (∃ n, q.get? n = some (.utf8 (ModifiedUtf8.encode (Units.ofText name))) ∧
          ∃ d, q.get? d = some (.utf8 (ModifiedUtf8.encode (Units.ofText descriptor))) ∧
            q.get? t = some (.nameAndType n d)) ∧
        q.get? i = some (.member kind o t) :=
  files_bind (files_class owner) fun _ => files_bind (files_nameAndType name descriptor) fun _ =>
    files_add hkind

end Edit

end Pool

end Cleartext
