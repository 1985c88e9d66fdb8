import Mathlib.Order.WellFounded
import Mathlib.Data.Fintype.Order
import Cleartext.Proofs.Class.Adding
import Cleartext.Proofs.Class.Keys

/-!
# Equal keys

Two constants are compared by their keys, in two ways.  Shrinking renders what an entry refers
to by the keys of those entries; adding renders it by their indices.  Neither confuses two
constants.

* `Pool.exists_means_iff`: the entries that have a meaning are those from which no circle of
  references is reached.
* `Pool.Finding.key_eq`: whatever keys were found before, the key that is found for such an
  entry is the key of its meaning.
* `Constant.indexKey_inj`: the keys with indices are equal just for equal constants.
* `Pool.keys_eq_iff`: both, for a pool that was read.
-/

namespace Cleartext

/-! ## Entries that reach no circle -/

namespace Pool

variable {p : Pool} {i j k : UInt16} {m : Meaning} {s s' : Keys}

/-- Following one or more references from the entry at an index leads to another one. -/
def LeadsTo (p : Pool) (i j : UInt16) : Prop := ∃ c, p.get? i = some c ∧ p.Reaches c.references j

/-- No reference leads back to where it comes from, neither at an index nor at what can be
reached from there. -/
def Acyclic (p : Pool) (i : UInt16) : Prop := ∀ j, p.Reaches [i] j → ¬ p.LeadsTo j j

theorem LeadsTo.trans (h : p.LeadsTo i j) (h' : p.LeadsTo j k) : p.LeadsTo i k := by
  obtain ⟨c, hc, hj⟩ := h
  obtain ⟨d, hd, hk⟩ := h'
  exact ⟨c, hc, hk.mono fun r hr => .step hj hd hr⟩

theorem LeadsTo.of_mem {c : Constant} {r : UInt16} (hc : p.get? i = some c)
    (hr : r ∈ c.references) : p.LeadsTo i r := ⟨c, hc, .root hr⟩

/-- An entry from which no circle is reached has a meaning. -/
theorem exists_means (hp : p.Closed) (hi : (p.get? i).isSome) (h : p.Acyclic i) :
    ∃ m, p.Means i m := by
  -- Below an index that is reached stands what it leads to, and nothing stands below itself.
  let below (a b : { j // p.Reaches [i] j }) : Prop := p.LeadsTo b.1 a.1
  have : IsTrans { j // p.Reaches [i] j } below := ⟨fun a b c hab hbc => hbc.trans hab⟩
  have : Std.Irrefl below := ⟨fun a => h a.1 a.2⟩
  have : Finite UInt16 := Finite.of_injective UInt16.toFin fun a b => UInt16.toFin_inj.1
  have hfounded : WellFounded below := Finite.wellFounded_of_trans_of_irrefl below
  have hall : ∀ a : { j // p.Reaches [i] j }, (p.get? a.1).isSome → ∃ m, p.Means a.1 m := by
    intro a
    induction a using hfounded.induction with
    | h a ih =>
      intro ha
      obtain ⟨c, hc⟩ := Option.isSome_iff_exists.1 ha
      have hparts : ∀ r ∈ c.references, ∃ m, p.Means r m := fun r hr =>
        ih ⟨r, .step a.2 hc hr⟩ (.of_mem hc hr) (hp c (mem_of_get? hc) r hr)
      have : Nonempty Meaning := ⟨.node default []⟩
      choose! part hpart using hparts
      refine ⟨_, means_iff.2 ⟨c, c.references.map part, hc, rfl, ?_⟩⟩
      exact List.forall₂_map_right_iff.2 (List.forall₂_same.2 hpart)
  exact hall ⟨i, .root (List.mem_singleton_self i)⟩ hi

/-- What an entry leads to is a part of what it means. -/
theorem LeadsTo.sizeOf_lt {n : Meaning} (h : p.LeadsTo i j) (hm : p.Means i m) (hn : p.Means j n) :
    sizeOf n < sizeOf m := by
  have hparts {k : UInt16} {m' : Meaning} {c : Constant} (hc : p.get? k = some c)
      (hm' : p.Means k m') {r : UInt16} (hr : r ∈ c.references) :
      ∃ part, p.Means r part ∧ sizeOf part < sizeOf m' := by
    obtain ⟨d, parts, hd, rfl, hparts⟩ := means_iff.1 hm'
    obtain rfl := Option.some.inj (hd.symm.trans hc)
    obtain ⟨part, hpart, hmeans⟩ :=
      exists_mem_of_forall₂ (P := flip p.Means) (List.Forall₂.flip hparts) hr
    have hlt := List.sizeOf_lt_of_mem hpart
    exact ⟨part, hmeans, by simp only [Meaning.node.sizeOf_spec]; omega⟩
  obtain ⟨c, hc, hj⟩ := h
  induction hj generalizing n with
  | root hr =>
    obtain ⟨part, hpart, hlt⟩ := hparts hc hm hr
    rwa [← hpart.unique hn]
  | @step k r d hk hd hr ih =>
    obtain ⟨m', hm'⟩ := (reaches_references hc hk).exists_means fun _ hi => by
      obtain rfl := List.mem_singleton.1 hi
      exact ⟨m, hm⟩
    obtain ⟨part, hpart, hlt⟩ := hparts hd hm' hr
    rw [← hpart.unique hn]
    exact hlt.trans (ih hm')

/-- The entries that have a meaning are those from which no circle is reached. -/
theorem exists_means_iff (hp : p.Closed) (hi : (p.get? i).isSome) :
    (∃ m, p.Means i m) ↔ p.Acyclic i := by
  constructor
  · rintro ⟨m, hm⟩ j hj hloop
    obtain ⟨n, hn⟩ := hj.exists_means fun k hk => by
      obtain rfl := List.mem_singleton.1 hk
      exact ⟨m, hm⟩
    exact Nat.lt_irrefl _ (hloop.sizeOf_lt hn hn)
  · exact exists_means hp hi

/-! ## The keys of shrinking -/

/-- The key that is found for an entry when some keys are known, and the keys that are known
then. -/
def found (p : Pool) (i : UInt16) (s : Keys) : Bytes × Keys := (p.key (p.count + 1) i).run s

/-- The states that come about when the keys of entries are found one after another, as long as
no circle is met. -/
inductive Finding (p : Pool) : Keys → Prop
  | start : Finding p ⟨Array.replicate p.count .unseen, none⟩
  | next {s : Keys} {i : UInt16} : Finding p s → (p.get? i).isSome → (p.found i s).2.cycle = none →
      Finding p (p.found i s).2

theorem Finding.cycle (h : p.Finding s) : s.cycle = none := by
  cases h with
  | start => rfl
  | next _ _ hcycle => exact hcycle

theorem Closed.entry (hp : p.Closed) (i : UInt16) (hi : (p.get? i).isSome) :
    ∃ c, p.get? i = some c ∧ ∀ r ∈ c.references, (p.get? r).isSome := by
  obtain ⟨c, hc⟩ := Option.isSome_iff_exists.1 hi
  exact ⟨c, hc, hp c (mem_of_get? hc)⟩

/-- The keys that are known are right, and none is being found. -/
theorem Finding.right (hp : p.Closed) (h : p.Finding s) :
    s.Right p ∧ s.active.count true = 0 := by
  induction h with
  | start =>
    refine ⟨⟨Array.size_replicate, fun i key hi => ?_⟩, ?_⟩
    · rw [Array.getElem?_replicate] at hi
      split at hi <;> simp at hi
    · simp [Keys.active, KeyState.isActive, List.count_replicate]
  | @next s i _ hi hcycle ih =>
    obtain ⟨hright, hidle⟩ := ih
    obtain ⟨m, -, -, hright', hactive⟩ :=
      key_ok hp.entry (p.count + 1) i s hright (by omega) hi hcycle
    exact ⟨hright', by rw [found, hactive, hidle]⟩

/-- Whatever keys are known, the key that is found for an entry is that of its meaning, and no
circle is met. -/
theorem Finding.found_eq (hp : p.Closed) (h : p.Finding s) (hi : (p.get? i).isSome)
    (hm : p.Means i m) : (p.found i s).1 = m.key ∧ (p.found i s).2.cycle = none := by
  obtain ⟨hright, hidle⟩ := h.right hp
  have hinner : p.Inner s m := by
    intro j hj
    have hpos := List.count_pos_iff.2 (List.mem_of_getElem? hj)
    omega
  have hcycle := key_cycle_eq_none (p.count + 1) i s m hright (by omega) h.cycle hm hinner
  obtain ⟨m', hm', hkey, -⟩ := key_ok hp.entry (p.count + 1) i s hright (by omega) hi hcycle
  rw [hm.unique hm']
  exact ⟨hkey, hcycle⟩

end Pool

/-- Compacting finds keys one after another, and so it does where it fails. -/
theorem Compaction.compact_finding {p : Pool} {live : Array Bool} (hp : p.WellFormed)
    (hlive : p.ClosedUpTo [] live) :
    match p.compact live with
    | .ok plan => p.Finding plan.keys
    | .error e => ∃ (i : UInt16) (c : Constant) (s : Compaction),
        p.get? i = some c ∧ p.Finding s.keys ∧ s.place p i c = .error e := by
  have hplace : ∀ i c (s s' : Compaction), p.get? i = some c → s.place p i c = .ok s' →
      p.Finding s.keys → p.Finding s'.keys := by
    intro i c s s' hc hplace hs
    obtain ⟨hcycle, hcases⟩ := place_ok.1 hplace
    have hnext := hs.next (Option.isSome_iff_exists.2 ⟨c, hc⟩) hcycle
    rcases hcases with ⟨_, -, rfl⟩ | ⟨-, rfl⟩
    · exact hnext
    · exact hnext
  let P (_ : Nat) (s : Compaction) : Prop := p.Finding s.keys
  have hcases := @compact_cases p live P hp hlive
    (fun _ _ _ _ _ _ hs => hs) (fun i c s s' hc _ _ h hs => hplace i c s s' hc h hs) .start
  cases hcompact : p.compact live with
  | ok plan =>
    rw [hcompact] at hcases
    exact hcases
  | error e =>
    rw [hcompact] at hcases
    obtain ⟨i, c, s, hc, -, hs, herror⟩ := hcases
    exact ⟨i, c, s, hc, hs, herror⟩

/-! ## The keys of adding -/

/-- An index as a part of a key. -/
def referenceKey (i : UInt16) : Bytes := 35 :: (decimalBytes i.toNat ++ [59])

/-- The key of a constant with what it refers to given by index. -/
def Constant.indexKey (c : Constant) : Bytes := c.keyHead ++ c.references.flatMap referenceKey

theorem referenceKey_append_inj {a b : UInt16} {s t : Bytes}
    (h : referenceKey a ++ s = referenceKey b ++ t) : a = b ∧ s = t := by
  have hmark (n : Int) : 59 ∉ decimalBytes n := not_mem_decimalBytes (by decide) (by decide) n
  unfold referenceKey at h
  rw [List.cons_append, List.cons_append, List.append_assoc, List.append_assoc] at h
  obtain ⟨hnumber, hrest⟩ :=
    Bytes.append_mark_inj (hmark _) (hmark _) (List.cons.inj h).2
  exact ⟨UInt16.toNat_inj.1 (Int.ofNat.inj (decimalBytes_injective hnumber)), hrest⟩

theorem splits_referenceKey : Splits referenceKey where
  append_inj := referenceKey_append_inj
  number_inj {m n a b} h := by
    have hhash (n : Int) : 35 ∉ decimalBytes n := not_mem_decimalBytes (by decide) (by decide) n
    have hnumber := (Bytes.append_mark_inj (hhash _) (hhash _) h).1
    have hm : m = n := Int.ofNat.inj (decimalBytes_injective hnumber)
    rw [hnumber] at h
    have hkey := List.append_cancel_left h
    exact ⟨hm, (referenceKey_append_inj (congrArg (· ++ []) hkey)).1⟩

namespace Constant

/-- A constant is its own data and its references. -/
theorem eq_of_bare {c d : Constant} (hbare : c.bare = d.bare)
    (hrefs : c.references = d.references) : c = d := by
  cases c <;> cases d <;> simp_all [bare, mapReferences, references]

/-- The key with indices belongs to one constant only. -/
theorem indexKey_inj {c d : Constant} (hc : c.Proper) (hd : d.Proper) :
    c.indexKey = d.indexKey ↔ c = d := by
  constructor
  · intro h
    unfold indexKey at h
    rw [keyHead_eq hc, keyHead_eq hd, List.cons_append, List.cons_append] at h
    obtain ⟨hcode, hrest⟩ := List.cons.inj h
    obtain ⟨hbare, hrefs⟩ :=
      ownKey_append_inj splits_referenceKey hc hd (congrArg Tag.mk hcode) rfl rfl hrest
    exact eq_of_bare hbare hrefs
  · rintro rfl
    rfl

end Constant

namespace Pool

variable {p : Pool} {c c' : Cursor}

/-- The index of the first entry with a key. -/
def firstWith? (p : Pool) (key : Bytes) : Option UInt16 :=
  (p.slots.toList.findIdx? fun slot => slot.map Constant.indexKey = some key).map Nat.toUInt16

/-- A constant is found by its key. -/
theorem getElem?_index_eq {slots : List (Option Constant)} (hp : (ofSlots slots).Proper)
    {a : Constant} (ha : a.Proper) :
    (ofSlots slots).index[a]? = (ofSlots slots).firstWith? a.indexKey := by
  rw [getElem?_index_ofSlots]
  show _ = Option.map _ (slots.findIdx? _)
  congr 1
  replace hp : ∀ b, some b ∈ slots → b.Proper := hp
  induction slots with
  | nil => rfl
  | cons slot rest ih =>
    have hsame : decide (slot = some a) =
        decide (slot.map Constant.indexKey = some a.indexKey) := by
      cases slot with
      | none => rfl
      | some b => simp [Constant.indexKey_inj (hp b List.mem_cons_self) ha]
    rw [List.findIdx?_cons, List.findIdx?_cons, hsame,
      ih fun b hb => hp b (List.mem_cons_of_mem _ hb)]

/-- In a pool that was read, two entries from which no circle is reached have equal keys just
if they mean the same.  Two constants have equal keys with indices just if they are equal, and
a constant is found in the pool by such a key. -/
theorem keys_eq_iff (hread : Pool.read.run c = .ok (p, c')) :
    (∀ i j s t, (p.get? i).isSome → (p.get? j).isSome → p.Acyclic i → p.Acyclic j →
        p.Finding s → p.Finding t →
        (p.found i s).2.cycle = none ∧ (p.found j t).2.cycle = none ∧
        ∃ m n, p.Means i m ∧ p.Means j n ∧ ((p.found i s).1 = (p.found j t).1 ↔ m = n)) ∧
      (∀ a b : Constant, a.Proper → b.Proper → (a.indexKey = b.indexKey ↔ a = b)) ∧
      p.Proper ∧ ∀ a : Constant, a.Proper → p.index[a]? = p.firstWith? a.indexKey := by
  obtain ⟨heq, ⟨slots, hslots, hlt, hlaid, -, hclosed⟩, -⟩ := read_ok.1 hread
  have hproper : p.Proper := WellFormed.proper ⟨slots, hslots, hlaid, hlt⟩
  refine ⟨?_, fun a b => Constant.indexKey_inj, hproper, fun a ha => ?_⟩
  · intro i j s t hi hj hci hcj hs ht
    obtain ⟨m, hm⟩ := exists_means hclosed hi hci
    obtain ⟨n, hn⟩ := exists_means hclosed hj hcj
    obtain ⟨hkey, hcycle⟩ := hs.found_eq hclosed hi hm
    obtain ⟨hkey', hcycle'⟩ := ht.found_eq hclosed hj hn
    refine ⟨hcycle, hcycle', m, n, hm, hn, ?_⟩
    rw [hkey, hkey']
    exact ⟨key_injective hproper hm hn, congrArg Meaning.key⟩
  · rw [heq] at hproper ⊢
    exact getElem?_index_eq hproper ha

/-- The bytes of a pool with two equal texts, each of which is the descriptor of a method type. -/
def twinTypes : Bytes := [0, 5, 1, 0, 1, 97, 1, 0, 1, 97, 16, 0, 1, 16, 0, 2]

theorem keys_eq_iff_twinTypes : ∃ p c', Pool.read.run (.start twinTypes) = .ok (p, c') ∧
    ∃ s, p.Finding s ∧ (p.found 3 s).1 = (p.found 4 s).1 ∧ (p.found 1 s).1 ≠ (p.found 3 s).1 := by
  obtain ⟨c', hread⟩ : ∃ c', Pool.read.run (.start twinTypes) = .ok (ofSlots [none,
      some (.utf8 [97]), some (.utf8 [97]), some (.methodType 1), some (.methodType 2)], c') :=
    ⟨_, rfl⟩
  refine ⟨_, c', hread, _, .start, ?_⟩
  generalize hp : ofSlots [none, some (.utf8 [97]), some (.utf8 [97]), some (.methodType 1),
    some (.methodType 2)] = p at hread ⊢
  have hclosed : p.Closed := by
    obtain ⟨-, ⟨-, -, -, -, -, hclosed⟩, -⟩ := read_ok.1 hread
    exact hclosed
  have htext : p.Means 1 (.node (.utf8 [97]) []) := ⟨1, by subst hp; rfl⟩
  have htype : p.Means 3 (.node (.methodType 0) [.node (.utf8 [97]) []]) := ⟨2, by subst hp; rfl⟩
  have htwin : p.Means 4 (.node (.methodType 0) [.node (.utf8 [97]) []]) := ⟨2, by subst hp; rfl⟩
  have hsome {i : UInt16} {m : Meaning} (hm : p.Means i m) : (p.get? i).isSome ∧ p.Acyclic i := by
    obtain ⟨c, -, hc, -⟩ := means_iff.1 hm
    have hi : (p.get? i).isSome := Option.isSome_iff_exists.2 ⟨c, hc⟩
    exact ⟨hi, (exists_means_iff hclosed hi).1 ⟨_, hm⟩⟩
  have hkeys {i j : UInt16} {m n : Meaning} (hm : p.Means i m) (hn : p.Means j n) :
      (p.found i ⟨Array.replicate p.count .unseen, none⟩).1 =
        (p.found j ⟨Array.replicate p.count .unseen, none⟩).1 ↔ m = n := by
    obtain ⟨-, -, m', n', hm', hn', hiff⟩ := (keys_eq_iff hread).1 i j _ _ (hsome hm).1 (hsome hn).1
      (hsome hm).2 (hsome hn).2 .start .start
    rwa [hm.unique hm', hn.unique hn']
  refine ⟨(hkeys htype htwin).2 rfl, fun heq => ?_⟩
  cases (hkeys htext htype).1 heq

end Pool

end Cleartext
