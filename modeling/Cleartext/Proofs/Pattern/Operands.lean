import Cleartext.Pattern.Scan
import Cleartext.Proofs.Class.Session

/-!
# What pool operands stand for

`Pattern.poolMeaning` says what the pool operand of an instruction stands for.
Two things happen to a pool while a class is rewritten: constants are added, and
in the end the pool is shrunk.  An entry that is there stands for the same in a
later pool (`Extends.poolMeaning_eq`), and an index that is moved to one of the
same meaning stands for the same there (`SameMeaning.standsFor`).

`Pool.StandsFor p q i x` is what both have in common: whatever `i` stands for in
`p`, `x` stands for in `q`.
-/

namespace Cleartext

theorem Constant.bare_of_leaf {c : Constant} (h : c.references = []) : c.bare = c := by
  cases c with
  | utf8 | integer | float | long | double => rfl
  | _ => cases h

namespace Pool

open Pattern (poolMeaning)

variable {p q : Pool} {i x : UInt16}

/-- Whatever the index `i` stands for in `p`, the index `x` stands for in `q`. -/
def StandsFor (p q : Pool) (i x : UInt16) : Prop :=
  ∀ op v, poolMeaning p op i = .ok v → poolMeaning q op x = .ok v

theorem StandsFor.refl (p : Pool) (i : UInt16) : p.StandsFor p i i := fun _ _ h => h

theorem StandsFor.trans {r : Pool} {y : UInt16} (h : p.StandsFor q i x)
    (h' : q.StandsFor r x y) : p.StandsFor r i y :=
  fun op v hv => h' op v (h op v hv)

theorem StandsFor.value (h : p.StandsFor q i x) {v : Loadable} (hv : p.value i = .ok v) :
    q.value x = .ok v := by
  have hmeaning : poolMeaning p .ldc i = .ok (.constant v) := Except.bind_ok.2 ⟨v, hv, rfl⟩
  obtain ⟨v', hv', heq⟩ := Except.bind_ok.1 (h .ldc _ hmeaning)
  obtain rfl := Pattern.Meaning.constant.inj (Except.ok.inj heq)
  exact hv'

theorem StandsFor.ref (h : p.StandsFor q i x) {r : Ref} (hr : p.ref i = .ok r) :
    q.ref x = .ok r := by
  have hmeaning : poolMeaning p .invokestatic i = .ok (.ref r) := Except.bind_ok.2 ⟨r, hr, rfl⟩
  obtain ⟨r', hr', heq⟩ := Except.bind_ok.1 (h .invokestatic _ hmeaning)
  obtain rfl := Pattern.Meaning.ref.inj (Except.ok.inj heq)
  exact hr'

/-- Only an entry stands for something. -/
theorem isSome_of_poolMeaning {op : Opcode} {v : Pattern.Meaning}
    (h : poolMeaning p op i = .ok v) : (p.get? i).isSome := by
  cases hc : p.get? i with
  | some c => rfl
  | none =>
    have hget : p.get i = .error (.badIndex (.absent i p.count)) := by
      unfold get
      rw [hc]
    unfold poolMeaning Pool.value Pool.className Pool.ref at h
    rw [hget] at h
    split at h <;> cases h

/-! ## Later pools -/

theorem Closed.isSome_of_get? (h : p.Closed) {c : Constant} (hc : p.get? i = some c) :
    ∀ r ∈ c.references, (p.get? r).isSome :=
  h c (mem_of_get? hc)

section

variable (h : p.Extends q)

include h

theorem Extends.get_eq (hi : (p.get? i).isSome) : q.get i = p.get i := by
  obtain ⟨c, hc⟩ := Option.isSome_iff_exists.1 hi
  rw [get_ok.2 hc, get_ok.2 (h i c hc)]

theorem Extends.units_eq (hi : (p.get? i).isSome) : q.units i = p.units i := by
  unfold Pool.units
  rw [h.get_eq hi]

theorem Extends.text_eq (hi : (p.get? i).isSome) : q.text i = p.text i := by
  unfold Pool.text
  rw [h.units_eq hi]

variable (hclosed : p.Closed)

include hclosed

theorem Extends.className_eq (hi : (p.get? i).isSome) : q.className i = p.className i := by
  obtain ⟨c, hc⟩ := Option.isSome_iff_exists.1 hi
  have hrefs := hclosed.isSome_of_get? hc
  unfold Pool.className
  rw [h.get_eq hi, get_ok.2 hc]
  cases c with
  | class_ n => exact h.text_eq (hrefs n (by simp [Constant.references]))
  | _ => rfl

theorem Extends.nameAndType_eq (hi : (p.get? i).isSome) :
    q.nameAndType i = p.nameAndType i := by
  obtain ⟨c, hc⟩ := Option.isSome_iff_exists.1 hi
  have hrefs := hclosed.isSome_of_get? hc
  unfold Pool.nameAndType
  rw [h.get_eq hi, get_ok.2 hc]
  cases c with
  | nameAndType n d =>
    have hn := h.text_eq (hrefs n (by simp [Constant.references]))
    have hd := h.text_eq (hrefs d (by simp [Constant.references]))
    dsimp only [bind, Except.bind]
    rw [hn, hd]
  | _ => rfl

theorem Extends.ref_eq (hi : (p.get? i).isSome) : q.ref i = p.ref i := by
  obtain ⟨c, hc⟩ := Option.isSome_iff_exists.1 hi
  have hrefs := hclosed.isSome_of_get? hc
  unfold Pool.ref
  rw [h.get_eq hi, get_ok.2 hc]
  cases c with
  | member kind o n =>
    have ho := h.className_eq hclosed (hrefs o (by simp [Constant.references]))
    have hn := h.nameAndType_eq hclosed (hrefs n (by simp [Constant.references]))
    dsimp only [bind, Except.bind]
    rw [ho, hn]
  | _ => rfl

theorem Extends.value_eq (hi : (p.get? i).isSome) : q.value i = p.value i := by
  obtain ⟨c, hc⟩ := Option.isSome_iff_exists.1 hi
  have hrefs := hclosed.isSome_of_get? hc
  unfold Pool.value
  rw [h.get_eq hi, get_ok.2 hc]
  cases c with
  | string n =>
    have hn := h.units_eq (hrefs n (by simp [Constant.references]))
    dsimp only [bind, Except.bind]
    rw [hn]
  | class_ n =>
    have hn := h.text_eq (hrefs n (by simp [Constant.references]))
    dsimp only [bind, Except.bind]
    rw [hn]
  | _ => rfl

/-- An entry that is there stands for the same in a later pool. -/
theorem Extends.poolMeaning_eq (op : Opcode) (hi : (p.get? i).isSome) :
    poolMeaning q op i = poolMeaning p op i := by
  obtain ⟨c, hc⟩ := Option.isSome_iff_exists.1 hi
  have hrefs := hclosed.isSome_of_get? hc
  unfold poolMeaning
  rw [h.value_eq hclosed hi, h.className_eq hclosed hi, h.ref_eq hclosed hi, h.get_eq hi,
    get_ok.2 hc]
  cases c with
  | dynamic b n | invokeDynamic b n =>
    have hn := h.nameAndType_eq hclosed (hrefs n (by simp [Constant.references]))
    dsimp only [bind, Except.bind]
    rw [hn]
  | _ => rfl

/-- What stands in a pool stands for the same in a later one. -/
theorem Extends.standsFor (i : UInt16) : p.StandsFor q i i := by
  intro op v hv
  rwa [h.poolMeaning_eq hclosed op (isSome_of_poolMeaning hv)]

end

/-! ## Indices of the same meaning -/

/-- An index of the same meaning names an entry of the same kind, which holds the
same and refers to entries of the same meaning. -/
theorem SameMeaning.entry (h : p.SameMeaning q i x) {c : Constant} (hc : p.get? i = some c) :
    ∃ d, q.get? x = some d ∧ d.bare = c.bare ∧
      List.Forall₂ (p.SameMeaning q) c.references d.references := by
  obtain ⟨m, hm, hm'⟩ := h
  obtain ⟨c', parts, hc', rfl, hparts⟩ := means_iff.1 hm
  obtain ⟨d, parts', hd, hnode, hparts'⟩ := means_iff.1 hm'
  obtain rfl : c = c' := Option.some.inj (hc.symm.trans hc')
  obtain ⟨hbare, rfl⟩ := Meaning.node.inj hnode
  exact ⟨d, hd, hbare.symm, forall₂_comp hparts hparts'.flip fun _ m _ hr hs => ⟨m, hr, hs⟩⟩

/-- An entry that refers to nothing means the same only as an equal entry. -/
theorem SameMeaning.leaf (h : p.SameMeaning q i x) {c : Constant} (hc : p.get? i = some c)
    (hleaf : c.references = []) : q.get? x = some c := by
  obtain ⟨d, hd, hbare, hparts⟩ := h.entry hc
  rw [hleaf, List.forall₂_nil_left_iff] at hparts
  rw [hd, ← Constant.bare_of_leaf hleaf, ← hbare, Constant.bare_of_leaf hparts]

theorem SameMeaning.string (h : p.SameMeaning q i x) {n : UInt16}
    (hc : p.get? i = some (.string n)) :
    ∃ n', q.get? x = some (.string n') ∧ p.SameMeaning q n n' := by
  obtain ⟨d, hd, hbare, hparts⟩ := h.entry hc
  cases d with
  | string n' => exact ⟨n', hd, (List.forall₂_cons.1 hparts).1⟩
  | _ => exact absurd hbare (by simp [Constant.bare, Constant.mapReferences])

theorem SameMeaning.units (h : p.SameMeaning q i x) {u : Units} (hu : p.units i = .ok u) :
    q.units x = .ok u := by
  obtain ⟨raw, hraw, hu⟩ := units_ok.1 hu
  exact units_ok.2 ⟨raw, h.leaf hraw rfl, hu⟩

theorem SameMeaning.value (h : p.SameMeaning q i x) {v : Loadable} (hv : p.value i = .ok v) :
    q.value x = .ok v := by
  obtain ⟨c, hc, hv⟩ := Except.bind_ok.1 hv
  rw [get_ok] at hc
  cases c with
  | integer | float | long | double =>
    exact Except.bind_ok.2 ⟨_, get_ok.2 (h.leaf hc rfl), hv⟩
  | string n =>
    obtain ⟨n', hn', hsame⟩ := h.string hc
    obtain ⟨u, hu, hv⟩ := Except.bind_ok.1 hv
    exact Except.bind_ok.2 ⟨_, get_ok.2 hn', Except.bind_ok.2 ⟨u, hsame.units hu, hv⟩⟩
  | class_ n =>
    obtain ⟨n', hn', hsame⟩ := h.class_ hc
    obtain ⟨s, hs, hv⟩ := Except.bind_ok.1 hv
    exact Except.bind_ok.2 ⟨_, get_ok.2 hn', Except.bind_ok.2 ⟨s, hsame.text hs, hv⟩⟩
  | _ => cases hv

theorem SameMeaning.nameAndType (h : p.SameMeaning q i x) {names : String × String}
    (hn : p.nameAndType i = .ok names) : q.nameAndType x = .ok names := by
  obtain ⟨c, hc, hn⟩ := Except.bind_ok.1 hn
  rw [get_ok] at hc
  obtain ⟨d, hd, hbare, hparts⟩ := h.entry hc
  cases c with
  | nameAndType n t =>
    obtain ⟨s, hs, hn⟩ := Except.bind_ok.1 hn
    obtain ⟨s', hs', hn⟩ := Except.bind_ok.1 hn
    cases d with
    | nameAndType n' t' =>
      obtain ⟨hname, hrest⟩ := List.forall₂_cons.1 hparts
      have hdescriptor := (List.forall₂_cons.1 hrest).1
      exact Except.bind_ok.2 ⟨_, get_ok.2 hd, Except.bind_ok.2 ⟨s, hname.text hs,
        Except.bind_ok.2 ⟨s', hdescriptor.text hs', hn⟩⟩⟩
    | _ => exact absurd hbare (by simp [Constant.bare, Constant.mapReferences])
  | _ => cases hn

theorem SameMeaning.ref (h : p.SameMeaning q i x) {r : Ref} (hr : p.ref i = .ok r) :
    q.ref x = .ok r := by
  obtain ⟨c, hc, hr⟩ := Except.bind_ok.1 hr
  rw [get_ok] at hc
  obtain ⟨d, hd, hbare, hparts⟩ := h.entry hc
  cases c with
  | member kind o n =>
    obtain ⟨owner, howner, hr⟩ := Except.bind_ok.1 hr
    obtain ⟨names, hnames, hr⟩ := Except.bind_ok.1 hr
    cases d with
    | member kind' o' n' =>
      obtain ⟨hsame, hrest⟩ := List.forall₂_cons.1 hparts
      have hsame' := (List.forall₂_cons.1 hrest).1
      obtain rfl : kind' = kind := (Constant.member.inj hbare).1
      exact Except.bind_ok.2 ⟨_, get_ok.2 hd, Except.bind_ok.2 ⟨owner, hsame.className howner,
        Except.bind_ok.2 ⟨names, hsame'.nameAndType hnames, hr⟩⟩⟩
    | _ => exact absurd hbare (by simp [Constant.bare, Constant.mapReferences])
  | _ => cases hr

/-- What an index stands for, an index of the same meaning stands for. -/
theorem SameMeaning.standsFor (h : p.SameMeaning q i x) : p.StandsFor q i x := by
  intro op v hv
  unfold poolMeaning at hv ⊢
  split at hv
  case h_1 | h_2 | h_3 =>
    obtain ⟨c, hc, hv⟩ := Except.bind_ok.1 hv
    exact Except.bind_ok.2 ⟨c, h.value hc, hv⟩
  case h_9 =>
    obtain ⟨c, hc, hv⟩ := Except.bind_ok.1 hv
    obtain ⟨d, hd, hbare, hparts⟩ := h.entry (get_ok.1 hc)
    cases c with
    | dynamic b n =>
      obtain ⟨names, hnames, hv⟩ := Except.bind_ok.1 hv
      cases d with
      | dynamic b' n' =>
        have hsame := (List.forall₂_cons.1 hparts).1
        exact Except.bind_ok.2 ⟨_, get_ok.2 hd,
          Except.bind_ok.2 ⟨names, hsame.nameAndType hnames, hv⟩⟩
      | _ => exact absurd hbare (by simp [Constant.bare, Constant.mapReferences])
    | invokeDynamic b n =>
      obtain ⟨names, hnames, hv⟩ := Except.bind_ok.1 hv
      cases d with
      | invokeDynamic b' n' =>
        have hsame := (List.forall₂_cons.1 hparts).1
        exact Except.bind_ok.2 ⟨_, get_ok.2 hd,
          Except.bind_ok.2 ⟨names, hsame.nameAndType hnames, hv⟩⟩
      | _ => exact absurd hbare (by simp [Constant.bare, Constant.mapReferences])
    | _ => cases hv
  case h_10 =>
    obtain ⟨r, hr, hv⟩ := Except.bind_ok.1 hv
    exact Except.bind_ok.2 ⟨r, h.ref hr, hv⟩
  all_goals
    obtain ⟨s, hs, hv⟩ := Except.bind_ok.1 hv
    exact Except.bind_ok.2 ⟨s, h.className hs, hv⟩

end Pool

namespace Pattern

variable {p : Pool}

/-! ## Lookups that come to an answer

Looking up a reference where another entry stands is the only lookup that comes to none. -/

theorem bind_ne_collapsed {α β : Type} {a : Except Error α} {f : α → Except Error β}
    (ha : a ≠ .error .collapsed) (hf : ∀ x, f x ≠ .error .collapsed) :
    (a >>= f) ≠ .error .collapsed := by
  cases a with
  | error e => exact fun h => ha (congrArg Except.error (Except.error.inj h))
  | ok x => exact hf x

theorem pure_ne_collapsed {α : Type} (a : α) : (pure a : Except Error α) ≠ .error .collapsed := nofun

theorem decodeFrom_ne_collapsed (pos : Nat) (bytes : Bytes) :
    ModifiedUtf8.decodeFrom pos bytes ≠ .error .collapsed := by
  fun_induction ModifiedUtf8.decodeFrom pos bytes with
  | case2 | case3 | case6 => exact bind_ne_collapsed ‹_› fun _ h => by cases h
  | _ =>
    intro h
    cases h

theorem get_ne_collapsed (p : Pool) (i : UInt16) : p.get i ≠ .error .collapsed := by
  unfold Pool.get
  split <;> nofun

theorem units_ne_collapsed (p : Pool) (i : UInt16) : p.units i ≠ .error .collapsed := by
  refine bind_ne_collapsed (get_ne_collapsed p i) fun c => ?_
  cases c with
  | utf8 raw => exact decodeFrom_ne_collapsed 0 raw
  | _ => nofun

theorem text_ne_collapsed (p : Pool) (i : UInt16) : p.text i ≠ .error .collapsed :=
  bind_ne_collapsed (units_ne_collapsed p i) fun _ => nofun

/-- Looking up a value always comes to an answer. -/
theorem value_ne_collapsed (p : Pool) (i : UInt16) : p.value i ≠ .error .collapsed := by
  refine bind_ne_collapsed (get_ne_collapsed p i) fun c => ?_
  cases c with
  | string n => exact bind_ne_collapsed (units_ne_collapsed p n) fun _ => nofun
  | class_ n => exact bind_ne_collapsed (text_ne_collapsed p n) fun _ => nofun
  | _ => nofun

theorem className_ne_collapsed (p : Pool) (i : UInt16) : p.className i ≠ .error .collapsed := by
  refine bind_ne_collapsed (get_ne_collapsed p i) fun c => ?_
  cases c with
  | class_ name => exact text_ne_collapsed p name
  | _ => nofun

theorem nameAndType_ne_collapsed (p : Pool) (i : UInt16) : p.nameAndType i ≠ .error .collapsed := by
  refine bind_ne_collapsed (get_ne_collapsed p i) fun c => ?_
  cases c with
  | nameAndType name descriptor =>
    exact bind_ne_collapsed (text_ne_collapsed p name) fun _ =>
      bind_ne_collapsed (text_ne_collapsed p descriptor) fun _ => nofun
  | _ => nofun

/-- Looking up a reference at a member comes to an answer. -/
theorem ref_ne_collapsed {i o n : UInt16} {kind : Tag} (h : p.get? i = some (.member kind o n)) :
    p.ref i ≠ .error .collapsed := by
  unfold Pool.ref
  rw [Pool.get_ok.2 h]
  show (p.className o >>= _) ≠ _
  exact bind_ne_collapsed (className_ne_collapsed p o) fun _ =>
    bind_ne_collapsed (nameAndType_ne_collapsed p n) fun _ => nofun

end Pattern

end Cleartext
