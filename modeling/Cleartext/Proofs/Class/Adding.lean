import Cleartext.Proofs.Class.Compaction
import Cleartext.Proofs.Code.Commit
import Cleartext.Proofs.Text.ModifiedUtf8

/-!
# Adding to a pool

A pool is `Coherent` when it is well formed, no entry refers to a missing one,
and the index finds entries that are there.  Adding a constant keeps this, and
it keeps every entry in its place (`Extends`); so do the edits that are made of
it, also when they fail half-way.

`Pool.Edit.Gives` states this for an edit, together with what its answer means
in the pool and in every later one.
-/

namespace Cleartext

namespace Pool

variable {p q : Pool} {c : Constant} {i : UInt16}

/-! ## Entries that stay -/

/-- Every entry of `p` stands in `q` at the same index. -/
def Extends (p q : Pool) : Prop := ∀ i c, p.get? i = some c → q.get? i = some c

theorem Extends.refl (p : Pool) : p.Extends p := fun _ _ h => h

theorem Extends.trans {r : Pool} (h : p.Extends q) (h' : q.Extends r) : p.Extends r :=
  fun i c hi => h' i c (h i c hi)

theorem Extends.isSome (h : p.Extends q) (hi : (p.get? i).isSome) : (q.get? i).isSome := by
  obtain ⟨c, hc⟩ := Option.isSome_iff_exists.1 hi
  rw [h i c hc]
  rfl

theorem units_ok {u : Units} : p.units i = .ok u ↔
    ∃ raw, p.get? i = some (.utf8 raw) ∧ ModifiedUtf8.decode raw = .ok u := by
  unfold units
  simp only [Except.bind_ok, get_ok]
  constructor
  · intro h
    obtain ⟨c, hc, hu⟩ := h
    cases c with
    | utf8 raw => exact ⟨raw, hc, hu⟩
    | _ => exact absurd hu (by simp [wrongKind])
  · intro h
    obtain ⟨raw, hraw, hu⟩ := h
    exact ⟨_, hraw, hu⟩

theorem text_ok {s : String} : p.text i = .ok s ↔
    ∃ raw units, p.get? i = some (.utf8 raw) ∧ ModifiedUtf8.decode raw = .ok units ∧
      units.text = s := by
  unfold text
  simp only [Except.map_ok, units_ok]
  constructor
  · intro h
    obtain ⟨units, ⟨raw, hraw, hunits⟩, hs⟩ := h
    exact ⟨raw, units, hraw, hunits, hs⟩
  · intro h
    obtain ⟨raw, units, hraw, hunits, hs⟩ := h
    exact ⟨units, ⟨raw, hraw, hunits⟩, hs⟩

theorem className_ok {s : String} : p.className i = .ok s ↔
    ∃ n, p.get? i = some (.class_ n) ∧ p.text n = .ok s := by
  unfold className
  simp only [Except.bind_ok, get_ok]
  constructor
  · intro h
    obtain ⟨c, hc, htext⟩ := h
    cases c with
    | class_ n => exact ⟨n, hc, htext⟩
    | _ => exact absurd htext (by simp [wrongKind])
  · intro h
    obtain ⟨n, hn, htext⟩ := h
    exact ⟨_, hn, htext⟩

theorem Extends.text {s : String} (h : p.Extends q) (htext : p.text i = .ok s) :
    q.text i = .ok s := by
  obtain ⟨raw, units, hraw, hunits, hs⟩ := text_ok.1 htext
  exact text_ok.2 ⟨raw, units, h i _ hraw, hunits, hs⟩

theorem Extends.className {s : String} (h : p.Extends q) (hname : p.className i = .ok s) :
    q.className i = .ok s := by
  obtain ⟨n, hn, htext⟩ := className_ok.1 hname
  exact className_ok.2 ⟨n, h i _ hn, h.text htext⟩

theorem Extends.nameAndType {names : String × String} (h : p.Extends q)
    (hnames : p.nameAndType i = .ok names) : q.nameAndType i = .ok names := by
  obtain ⟨c, hc, hread⟩ := Except.bind_ok.1 hnames
  cases c with
  | nameAndType name descriptor =>
    obtain ⟨s, hs, hread⟩ := Except.bind_ok.1 hread
    obtain ⟨t, ht, hread⟩ := Except.bind_ok.1 hread
    exact Except.bind_ok.2 ⟨_, get_ok.2 (h i _ (get_ok.1 hc)), Except.bind_ok.2 ⟨s, h.text hs,
      Except.bind_ok.2 ⟨t, h.text ht, hread⟩⟩⟩
  | _ => cases hread

theorem Extends.ref {r : Ref} (h : p.Extends q) (hr : p.ref i = .ok r) : q.ref i = .ok r := by
  obtain ⟨c, hc, hread⟩ := Except.bind_ok.1 hr
  cases c with
  | member kind owner nameAndType =>
    obtain ⟨s, hs, hread⟩ := Except.bind_ok.1 hread
    obtain ⟨names, hnames, hread⟩ := Except.bind_ok.1 hread
    exact Except.bind_ok.2 ⟨_, get_ok.2 (h i _ (get_ok.1 hc)), Except.bind_ok.2 ⟨s, h.className hs,
      Except.bind_ok.2 ⟨names, h.nameAndType hnames, hread⟩⟩⟩
  | _ => cases hread

/-! ## Coherent pools -/

/-- A pool as reading, adding and shrinking leave it. -/
structure Coherent (p : Pool) : Prop where
  wellFormed : p.WellFormed
  closed : p.Closed
  indexed : ∀ c i, p.index[c]? = some i → p.get? i = some c

/-- The index of slots gives the place of a constant that stands there first. -/
theorem getElem?_indexFrom (c : Constant) (slots : List (Option Constant)) :
    ∀ (index : Std.HashMap Constant UInt16) (start : Nat),
      (indexFrom index start slots)[c]? =
        index[c]?.or ((slots.findIdx? (· = some c)).map fun k => (start + k).toUInt16) := by
  induction slots with
  | nil =>
    intro index start
    simp [indexFrom]
  | cons slot rest ih =>
    intro index start
    have hshift : (fun k => (start + 1 + k).toUInt16) =
        (fun k => (start + k).toUInt16) ∘ (· + 1) := by
      funext k
      rw [Function.comp_apply, Nat.add_assoc, Nat.add_comm 1]
    cases slot with
    | none => rw [indexFrom, ih, List.findIdx?_cons, if_neg (by simp), Option.map_map, hshift]
    | some d =>
      rw [indexFrom, ih, Std.HashMap.getElem?_insertIfNew]
      by_cases hd : d = c
      · subst hd
        have hfind : (some d :: rest).findIdx? (· = some d) = some 0 := by
          simp [List.findIdx?_cons]
        rw [hfind]
        by_cases hmem : d ∈ index <;> simp [hmem]
      · rw [if_neg (by simp [hd]), List.findIdx?_cons, if_neg (by simpa using hd), Option.map_map,
          hshift]

theorem getElem?_index_ofSlots (c : Constant) (slots : List (Option Constant)) :
    (ofSlots slots).index[c]? = (slots.findIdx? (· = some c)).map Nat.toUInt16 := by
  show (indexFrom {} 0 slots)[c]? = _
  rw [getElem?_indexFrom, Std.HashMap.getElem?_empty, Option.none_or]
  simp only [Nat.zero_add]

/-- An entry that stands in a pool is not added again. -/
theorem add_ofSlots {c : Constant} {slots : List (Option Constant)} {i : UInt16}
    (h : (slots.findIdx? (· = some c)).map Nat.toUInt16 = some i) :
    (ofSlots slots).add c = (.ok i, ofSlots slots) := by
  rw [← getElem?_index_ofSlots] at h
  rw [add, h]

/-- The index of a pool that is made of its slots is right. -/
theorem coherent_ofSlots {slots : List (Option Constant)} (h : (ofSlots slots).WellFormed)
    (hclosed : (ofSlots slots).Closed) : (ofSlots slots).Coherent := by
  refine ⟨h, hclosed, fun c i hi => ?_⟩
  obtain ⟨-, -, -, hcount⟩ := h
  rw [getElem?_index_ofSlots] at hi
  obtain ⟨k, hk, rfl⟩ := Option.map_eq_some_iff.1 hi
  obtain ⟨hk, hslot, -⟩ := List.findIdx?_eq_some_iff_getElem.1 hk
  have hlt : k < (ofSlots slots).count := by
    rw [count, ← Array.length_toList]
    exact hk
  have htoNat : k.toUInt16.toNat = k := UInt16.toNat_ofNat_of_lt' (by show k < 65536; omega)
  rw [get?_eq_some, htoNat, ← Array.getElem?_toList]
  show slots[k]? = some (some c)
  exact List.getElem?_eq_some_iff.2 ⟨hk, of_decide_eq_true hslot⟩

/-! ## Adding a constant -/

/-- The pool with a constant behind its entries. -/
def append (p : Pool) (c : Constant) : Pool :=
  ⟨p.slots ++ (slotsOf c).toArray, p.index.insert c p.count.toUInt16⟩

theorem extends_append (p : Pool) (c : Constant) : p.Extends (p.append c) := by
  intro j d hj
  rw [get?_eq_some] at hj ⊢
  show (p.slots ++ (slotsOf c).toArray)[j.toNat]? = _
  rw [Array.getElem?_append_left (Array.getElem?_eq_some_iff.1 hj).1, hj]

theorem get?_append (h : p.count < 65536) : (p.append c).get? p.count.toUInt16 = some c := by
  have htoNat : p.count.toUInt16.toNat = p.count := UInt16.toNat_ofNat_of_lt' h
  rw [get?_eq_some, htoNat]
  exact getElem?_append_slotsOf p.slots c

/-- A constant whose references are there can be appended while there is room. -/
theorem Coherent.append (h : p.Coherent) (hproper : c.Proper)
    (hrefs : ∀ r ∈ c.references, (p.get? r).isSome) (hroom : p.count + c.width ≤ 65535) :
    (p.append c).Coherent := by
  obtain ⟨slots, hslots, hlaid, -⟩ := h.wellFormed
  refine ⟨⟨slots ++ slotsOf c, ?_, hlaid.append (laid_slotsOf hproper), ?_⟩, ?_, ?_⟩
  · show (p.slots ++ (slotsOf c).toArray).toList = _
    simp [hslots]
  · have hcount : (p.append c).count = p.count + c.width := by
      show (p.slots ++ (slotsOf c).toArray).size = p.slots.size + c.width
      rw [Array.size_append, ← length_slotsOf]
      rfl
    omega
  · intro d hd r hr
    refine (extends_append p c).isSome ?_
    rcases some_mem_append_slotsOf.1 hd with hd | rfl
    · exact h.closed d hd r hr
    · exact hrefs r hr
  · intro d j hj
    replace hj : (p.index.insert c p.count.toUInt16)[d]? = some j := hj
    rw [Std.HashMap.getElem?_insert] at hj
    by_cases heq : c = d
    · rw [if_pos (by simpa using heq)] at hj
      obtain rfl := Option.some.inj hj
      rw [← heq]
      exact get?_append (by omega)
    · rw [if_neg (by simpa using heq)] at hj
      exact extends_append p c j d (h.indexed d j hj)

/-- What adding does: it finds the constant, refuses it, or appends it. -/
theorem add_cases (p : Pool) (c : Constant) :
    (∃ i, p.index[c]? = some i ∧ p.add c = (.ok i, p)) ∨
    (p.index[c]? = none ∧ 65535 < p.count + c.width ∧ p.add c = (.error .poolFull, p)) ∨
    (p.index[c]? = none ∧ p.count + c.width ≤ 65535 ∧
      p.add c = (.ok p.count.toUInt16, p.append c)) := by
  unfold add
  cases hindex : p.index[c]? with
  | some i => exact .inl ⟨i, rfl, rfl⟩
  | none =>
    by_cases hfull : 65535 < p.slots.size + c.width
    · exact .inr (.inl ⟨rfl, hfull, by simp only [if_pos hfull]⟩)
    · refine .inr (.inr ⟨rfl, Nat.not_lt.1 hfull, ?_⟩)
      simp only [if_neg hfull]
      rw [Compaction.pushed_eq]
      rfl

/-- Adding a constant whose references are there keeps a pool coherent and its
entries in their places, and gives the index of the constant. -/
theorem Coherent.add (h : p.Coherent) (hproper : c.Proper)
    (hrefs : ∀ r ∈ c.references, (p.get? r).isSome) :
    (p.add c).2.Coherent ∧ p.Extends (p.add c).2 ∧
      ∀ i, (p.add c).1 = .ok i → (p.add c).2.get? i = some c := by
  rcases add_cases p c with ⟨i, hindex, hadd⟩ | ⟨-, -, hadd⟩ | ⟨-, hroom, hadd⟩
  · rw [hadd]
    refine ⟨h, Extends.refl p, fun j hj => ?_⟩
    obtain rfl := Except.ok.inj hj
    exact h.indexed c i hindex
  · rw [hadd]
    exact ⟨h, Extends.refl p, fun j hj => absurd hj (by simp)⟩
  · rw [hadd]
    refine ⟨h.append hproper hrefs hroom, extends_append p c, fun j hj => ?_⟩
    obtain rfl := Except.ok.inj hj
    exact get?_append (by omega)

/-- A pool that is not full takes every constant. -/
theorem exists_add_of_room (h : p.count + c.width ≤ 65535) : ∃ i, (p.add c).1 = .ok i := by
  rcases add_cases p c with ⟨i, -, hadd⟩ | ⟨-, hfull, -⟩ | ⟨-, -, hadd⟩
  · exact ⟨i, by rw [hadd]⟩
  · omega
  · exact ⟨_, by rw [hadd]⟩

/-! ## Edits -/

namespace Edit

variable {α β : Type} {Given : Pool → Prop}

/-- An edit of a pool from which on `Given` holds: it keeps the pool coherent and
the entries in their places, and its answer is right from then on. -/
def Gives (Given : Pool → Prop) (e : Edit α) (Right : Pool → α → Prop) : Prop :=
  ∀ p : Pool, p.Coherent → (∀ q, p.Extends q → Given q) →
    (p.edit e).2.Coherent ∧ p.Extends (p.edit e).2 ∧
      ∀ a, (p.edit e).1 = .ok a → ∀ q, (p.edit e).2.Extends q → Right q a

theorem gives_pure {a : α} {P : Pool → α → Prop} (h : ∀ q, Given q → P q a) :
    Gives Given (pure a) P := by
  intro p hp hgiven
  refine ⟨hp, Extends.refl p, fun b hb q hq => ?_⟩
  obtain rfl := Except.ok.inj (show Except.ok a = Except.ok b from hb)
  exact h q (hgiven q hq)

theorem gives_bind {e : Edit α} {next : α → Edit β} {P : Pool → α → Prop}
    {Q : Pool → β → Prop} (h : Gives Given e P)
    (hnext : ∀ a, Gives (fun q => Given q ∧ P q a) (next a) Q) : Gives Given (e >>= next) Q := by
  intro p hp hgiven
  obtain ⟨hp', hextends, hright⟩ := h p hp hgiven
  rw [edit_bind]
  cases hrun : p.edit e with
  | mk result p' =>
    rw [hrun] at hp' hextends hright
    cases result with
    | error err => exact ⟨hp', hextends, fun b hb => absurd hb (by simp)⟩
    | ok a =>
      obtain ⟨hp'', hextends', hright'⟩ := hnext a p' hp' fun q hq =>
        ⟨hgiven q (hextends.trans hq), hright a rfl q hq⟩
      exact ⟨hp'', hextends.trans hextends', hright'⟩

theorem gives_add {c : Constant} (hproper : c.Proper)
    (hrefs : ∀ q, Given q → ∀ r ∈ c.references, (q.get? r).isSome) :
    Gives Given (add c) fun q i => q.get? i = some c := by
  intro p hp hgiven
  obtain ⟨hp', hextends, hfound⟩ := hp.add hproper (hrefs p (hgiven p (Extends.refl p)))
  exact ⟨hp', hextends, fun i hi q hq => hq i c (hfound i hi)⟩

theorem gives_units (u : Units) :
    Gives Given (units u) fun q i => q.get? i = some (.utf8 (ModifiedUtf8.encode u)) :=
  gives_add True.intro (by simp [Constant.references])

theorem gives_text (s : String) :
    Gives Given (text s) fun q i =>
      q.get? i = some (.utf8 (ModifiedUtf8.encode (Units.ofText s))) :=
  gives_units _

theorem gives_mono {e : Edit α} {P Q : Pool → α → Prop} (h : Gives Given e P)
    (himp : ∀ q a, Given q → P q a → Q q a) : Gives Given e Q := by
  intro p hp hgiven
  obtain ⟨hp', hextends, hright⟩ := h p hp hgiven
  exact ⟨hp', hextends, fun a ha q hq =>
    himp q a (hgiven q (hextends.trans hq)) (hright a ha q hq)⟩

theorem gives_class (name : String) :
    Gives Given (class_ name) fun q i => ∃ n, q.get? i = some (.class_ n) ∧
      q.get? n = some (.utf8 (ModifiedUtf8.encode (Units.ofText name))) := by
  refine gives_bind (gives_text name) fun n => ?_
  refine gives_mono (gives_add True.intro fun q hq => ?_) fun q i hq hi => ⟨n, hi, hq.2⟩
  simp [Constant.references, hq.2]

theorem gives_stringUnits (u : Units) :
    Gives Given (stringUnits u) fun q i => ∃ n, q.get? i = some (.string n) ∧
      q.get? n = some (.utf8 (ModifiedUtf8.encode u)) := by
  refine gives_bind (gives_units u) fun n => ?_
  refine gives_mono (gives_add True.intro fun q hq => ?_) fun q i hq hi => ⟨n, hi, hq.2⟩
  simp [Constant.references, hq.2]

theorem gives_nameAndType (name descriptor : String) :
    Gives Given (nameAndType name descriptor) fun q i => (q.get? i).isSome := by
  refine gives_bind (gives_text name) fun n => gives_bind (gives_text descriptor) fun d => ?_
  refine gives_mono (gives_add True.intro fun q hq => ?_) fun q i _ hi => by rw [hi]; rfl
  simp [Constant.references, hq.1.2, hq.2]

theorem gives_ref {kind : Tag} (hkind : kind = .field ∨ kind = .method ∨ kind = .interfaceMethod)
    (owner name descriptor : String) :
    Gives Given (ref kind owner name descriptor) fun q i => (q.get? i).isSome := by
  refine gives_bind (gives_class owner) fun o =>
    gives_bind (gives_nameAndType name descriptor) fun n => ?_
  refine gives_mono (gives_add hkind fun q hq => ?_) fun q i _ hi => by rw [hi]; rfl
  obtain ⟨⟨-, m, hclass, -⟩, hname⟩ := hq
  simp [Constant.references, hclass, hname]

end Edit

/-- The text that was added is found. -/
theorem text_of_get? {s : String}
    (h : p.get? i = some (.utf8 (ModifiedUtf8.encode (Units.ofText s)))) :
    p.text i = .ok (Units.ofText s).text :=
  text_ok.2 ⟨_, _, h, ModifiedUtf8.decode_encode _, rfl⟩

/-- A string that is added to a pool that is not full has its text there, whatever
the length of the text. -/
theorem Coherent.exists_text_of_room (h : p.Coherent) (u : Units) (hroom : p.count < 65535) :
    ∃ i, (p.edit (Edit.stringUnits u)).2.get? i = some (.utf8 (ModifiedUtf8.encode u)) := by
  obtain ⟨hq, -, hfound⟩ := h.add (c := .utf8 (ModifiedUtf8.encode u)) True.intro
    (by simp [Constant.references])
  obtain ⟨i, hi⟩ := exists_add_of_room (p := p) (c := .utf8 (ModifiedUtf8.encode u))
    (by show p.count + 1 ≤ 65535; omega)
  have htext := hfound i hi
  refine ⟨i, ?_⟩
  rw [show Edit.stringUnits u = Edit.units u >>= fun i => Edit.add (.string i) from rfl, edit_bind,
    show p.edit (Edit.units u) = p.add (.utf8 (ModifiedUtf8.encode u)) from rfl]
  cases hadd : p.add (.utf8 (ModifiedUtf8.encode u)) with
  | mk result q =>
    rw [hadd] at hq hi htext
    obtain rfl : result = .ok i := hi
    obtain ⟨-, hextends, -⟩ := hq.add (c := .string i) True.intro
      (by simp [Constant.references, htext])
    exact hextends i _ htext

end Pool

end Cleartext
