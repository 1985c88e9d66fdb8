import Cleartext.Machine.Library.Maps
import Cleartext.Proofs.Memory.Sparing
import Cleartext.Proofs.Text.ModifiedUtf8
import Mathlib.Data.List.Induction

/-!
# The keys and the entries of maps

A map keeps strings by their encoding and boxes by their content, and other objects by themselves.
It starts empty, and every `put` gives a key a value.  Keys that are references are the same just
if they are equal, so what the entries say is what was put.

* `isLatest_entered`: a key has the value that was put for it last.
* `exists_distinct`: there are as many entries as keys that differ.
* `World.key_eq_iff`: which values are the same key.
* `Library.mapKey_eq`: the key that a method of maps takes a value for.
* `World.IsKey.of_core`: the key stays the same while the core of the object does.
-/

namespace Cleartext.Machine

/-! ## The entries of a map -/

/-- A key that stands for null or for an object. -/
def MapKey.IsReference : MapKey → Prop
  | .value .null | .value (.ref _) => True
  | .value _ => False
  | _ => True

/-- The value that was put last for keys of a kind, if any was. -/
def IsLatest (P : Value → Prop) (puts : List (Value × Value)) : Option Value → Prop
  | some v => ∃ before k after, puts = before ++ (k, v) :: after ∧ P k ∧ ∀ p ∈ after, ¬ P p.1
  | none => ∀ p ∈ puts, ¬ P p.1

section

variable {P Q : Value → Prop} {puts : List (Value × Value)} {k v : Value} {found : Option Value}

theorem isLatest_concat (h : P k) : IsLatest P (puts ++ [(k, v)]) (some v) :=
  ⟨puts, k, [], rfl, h, by simp⟩

theorem IsLatest.concat (h : IsLatest P puts found) (hk : ¬ P k) :
    IsLatest P (puts ++ [(k, v)]) found := by
  cases found with
  | some u =>
    obtain ⟨before, k', after, rfl, hk', hafter⟩ := h
    refine ⟨before, k', after ++ [(k, v)], by simp, hk', ?_⟩
    rintro p hp
    obtain hp | hp := List.mem_append.1 hp
    · exact hafter p hp
    · obtain rfl := List.mem_singleton.1 hp
      exact hk
  | none =>
    rintro p hp
    obtain hp | hp := List.mem_append.1 hp
    · exact h p hp
    · obtain rfl := List.mem_singleton.1 hp
      exact hk

theorem IsLatest.congr (h : IsLatest P puts found) (hPQ : ∀ p ∈ puts, P p.1 ↔ Q p.1) :
    IsLatest Q puts found := by
  cases found with
  | some v =>
    obtain ⟨before, k, after, rfl, hk, hafter⟩ := h
    exact ⟨before, k, after, rfl, (hPQ (k, v) (by simp)).1 hk,
      fun p hp hq => hafter p hp ((hPQ p (by simp [hp])).2 hq)⟩
  | none => exact fun p hp hq => h p hp ((hPQ p hp).2 hq)

theorem IsLatest.isSome_iff (h : IsLatest P puts found) : found.isSome ↔ ∃ p ∈ puts, P p.1 := by
  cases found with
  | some v =>
    obtain ⟨before, k, after, rfl, hk, -⟩ := h
    exact iff_of_true rfl ⟨(k, v), by simp, hk⟩
  | none => exact iff_of_false (by simp) fun ⟨p, hp, hP⟩ => h p hp hP

end

namespace Library

variable {key key' : MapKey} {v : Value} {entries : List (MapKey × Value)}

/-! ## One entry -/

theorem same_eq (h : key.IsReference) (key' : MapKey) : key'.same key = decide (key' = key) := by
  rcases key with _ | _ | v
  · cases key' <;> rfl
  · cases key' <;> rfl
  · rcases key' with _ | _ | v'
    · rfl
    · rfl
    · cases v with
      | null | ref => cases v' <;> simp [MapKey.same, Value.same]
      | _ => exact h.elim

theorem valueOfKey?_cons (h : key.IsReference) (k : MapKey) (v : Value) :
    valueOfKey? key ((k, v) :: entries) = if k = key then some v else valueOfKey? key entries := by
  unfold valueOfKey?
  simp only [List.find?_cons, same_eq h]
  by_cases hk : k = key <;> simp [hk]

theorem valueOfKey?_setEntry (h : key.IsReference) (h' : key'.IsReference) :
    valueOfKey? key (setEntry key' v entries) =
      if key' = key then some v else valueOfKey? key entries := by
  induction entries with
  | nil => exact valueOfKey?_cons h key' v
  | cons e entries ih =>
    obtain ⟨k, old⟩ := e
    rw [setEntry, same_eq h', valueOfKey?_cons h]
    by_cases hk : k = key'
    · subst hk
      rw [if_pos (by simp), valueOfKey?_cons h]
      by_cases hkey : k = key <;> simp [hkey]
    · rw [if_neg (by simpa using hk), valueOfKey?_cons h, ih]
      by_cases hkey : k = key
      · rw [if_pos hkey, if_pos hkey, if_neg fun heq => hk (hkey.trans heq.symm)]
      · rw [if_neg hkey, if_neg hkey]

theorem keys_setEntry (h : key.IsReference) :
    (setEntry key v entries).map (·.1) =
      if key ∈ entries.map (·.1) then entries.map (·.1) else entries.map (·.1) ++ [key] := by
  induction entries with
  | nil => rfl
  | cons e entries ih =>
    obtain ⟨k, old⟩ := e
    rw [setEntry, same_eq h]
    by_cases hk : k = key
    · subst hk
      simp
    · rw [if_neg (by simpa using hk), List.map_cons, ih]
      simp only [List.map_cons, List.mem_cons, Ne.symm hk, false_or]
      split <;> rfl

/-! ## What was put -/

section

variable {key : Value → MapKey} {puts : List (Value × Value)} {k : Value}

/-- The entries of a map in which keys were given values, one after another. -/
def entered (key : Value → MapKey) (puts : List (Value × Value)) : List (MapKey × Value) :=
  puts.foldl (fun entries p => setEntry (key p.1) p.2 entries) []

theorem entered_concat (key : Value → MapKey) (puts : List (Value × Value)) (p : Value × Value) :
    entered key (puts ++ [p]) = setEntry (key p.1) p.2 (entered key puts) := by
  rw [entered, List.foldl_append]
  rfl

theorem entered_congr {key' : Value → MapKey} (h : ∀ p ∈ puts, key p.1 = key' p.1) :
    entered key puts = entered key' puts := by
  induction puts using List.reverseRecOn with
  | nil => rfl
  | append_singleton puts p ih =>
    rw [entered_concat, entered_concat, h p (by simp), ih fun q hq => h q (by simp [hq])]

/-- A key has the value that was put for it last. -/
theorem isLatest_entered (h : (key k).IsReference) (hputs : ∀ p ∈ puts, (key p.1).IsReference) :
    IsLatest (fun k' => key k' = key k) puts (valueOfKey? (key k) (entered key puts)) := by
  induction puts using List.reverseRecOn with
  | nil => exact fun p hp => absurd hp List.not_mem_nil
  | append_singleton puts p ih =>
    rw [entered_concat, valueOfKey?_setEntry h (hputs p (by simp))]
    by_cases hp : key p.1 = key k
    · rw [if_pos hp]
      exact isLatest_concat hp
    · rw [if_neg hp]
      exact (ih fun q hq => hputs q (by simp [hq])).concat hp

/-- There are as many entries as keys that differ. -/
theorem exists_distinct (hputs : ∀ p ∈ puts, (key p.1).IsReference) :
    ∃ keys : List Value, keys.Sublist (puts.map (·.1)) ∧ keys.Pairwise (fun a b => key a ≠ key b) ∧
      (∀ p ∈ puts, ∃ k ∈ keys, key k = key p.1) ∧
      (entered key puts).map (·.1) = keys.map key := by
  induction puts using List.reverseRecOn with
  | nil => exact ⟨[], .slnil, .nil, by simp, rfl⟩
  | append_singleton puts p ih =>
    obtain ⟨keys, hsub, hdiffer, hcover, hkeys⟩ := ih fun q hq => hputs q (by simp [hq])
    rw [List.map_append, entered_concat, keys_setEntry (hputs p (by simp)), hkeys]
    by_cases hp : key p.1 ∈ keys.map key
    · -- The key is there, and gets another value.
      refine ⟨keys, hsub.trans (List.sublist_append_left _ _), hdiffer, fun q hq => ?_, if_pos hp⟩
      obtain hq | hq := List.mem_append.1 hq
      · exact hcover q hq
      · obtain rfl := List.mem_singleton.1 hq
        exact List.mem_map.1 hp
    · refine ⟨keys ++ [p.1], hsub.append (List.Sublist.refl _), ?_, fun q hq => ?_, ?_⟩
      · refine List.pairwise_append.2 ⟨hdiffer, List.pairwise_singleton _ _, fun a ha b hb heq => ?_⟩
        obtain rfl := List.mem_singleton.1 hb
        exact hp (List.mem_map.2 ⟨a, ha, heq⟩)
      · obtain hq | hq := List.mem_append.1 hq
        · obtain ⟨k, hk, heq⟩ := hcover q hq
          exact ⟨k, List.mem_append_left _ hk, heq⟩
        · obtain rfl := List.mem_singleton.1 hq
          exact ⟨q.1, by simp, rfl⟩
      · rw [if_neg hp, List.map_append]
        rfl

end

end Library

/-! ## The keys of a map -/

/-- The content of a box. -/
def Hidden.content? : Hidden → Option Value
  | .boxed content => some content
  | .none => some .null
  | _ => Option.none

/-- The object is an instance of a class of boxed values. -/
def Object.IsBox : Object → Prop
  | .instance cls _ _ => cls ∈ ["java/lang/Integer", "java/lang/Long", "java/lang/Character"]
  | _ => False

/-- The class and the content of a box. -/
def Object.boxed? : Object → Option (String × Value)
  | .instance cls _ hidden =>
    if cls ∈ ["java/lang/Integer", "java/lang/Long", "java/lang/Character"] then
      hidden.content?.map (cls, ·)
    else none
  | _ => none

/-- The object is a box that was made a map, which no map takes for a key. -/
def Object.IsMapInBox : Object → Prop
  | .instance cls fields (.table entries) => (Object.instance cls fields (.table entries)).IsBox
  | _ => False

/-- The key that an object stands for, given its number. -/
def Object.key (id : Nat) (o : Object) : MapKey :=
  match o.boxed? with
  | some (cls, content) => .boxed cls content
  | none =>
    match o with
    | .string units => .text (ModifiedUtf8.encode units)
    | _ => .value (.ref id)

theorem Hidden.content?_core (hidden : Hidden) : hidden.core.content? = hidden.content? := by
  cases hidden <;> rfl

namespace Object

variable {o : Object} {id : Nat}

theorem boxed?_core (o : Object) : o.core.boxed? = o.boxed? := by
  cases o with
  | «instance» cls fields hidden =>
    simp only [core, boxed?, hidden.content?_core]
  | _ => rfl

/-- A map has no content of a box. -/
theorem boxed?_table {cls : String} {fields : Option (List (String × Value))}
    {entries : List (MapKey × Value)} :
    (Object.instance cls fields (.table entries)).boxed? = none :=
  ite_self none

theorem isMapInBox_core (o : Object) : o.core.IsMapInBox ↔ o.IsMapInBox := by
  rcases o with _ | _ | ⟨cls, fields, hidden⟩
  · rfl
  · rfl
  · cases hidden <;> rfl

theorem key_core (id : Nat) (o : Object) : o.core.key id = o.key id := by
  unfold key
  rw [boxed?_core]
  cases o <;> rfl

theorem key_eq_text {bytes : Bytes} :
    o.key id = .text bytes ↔ ∃ units, o = .string units ∧ ModifiedUtf8.encode units = bytes := by
  unfold key
  cases o with
  | string units' => simp [boxed?]
  | _ => split <;> simp

theorem key_eq_boxed {cls : String} {content : Value} :
    o.key id = .boxed cls content ↔ o.boxed? = some (cls, content) := by
  unfold key
  split
  · simp_all
  · cases o <;> simp_all

theorem key_eq_value {v : Value} (h : o.key id = .value v) : v = .ref id := by
  unfold key at h
  split at h
  · cases h
  · split at h
    · cases h
    · exact (MapKey.value.inj h).symm

end Object

/-! ## Keys in a world -/

namespace World

variable {w w' : World} {a b v : Value} {id : Nat}

/-- The key that a value stands for. -/
def key (w : World) : Value → MapKey
  | .ref id => ((w.heap[id]?).map (Object.key id)).getD (.value (.ref id))
  | v => .value v

/-- Null, or an object that a map takes for a key. -/
def IsKey (w : World) : Value → Prop
  | .null => True
  | .ref id => ∃ o, w.heap[id]? = some o ∧ ¬ o.IsMapInBox
  | _ => False

/-- Two values are the same key: they are one reference, strings of the same units, or boxes of
one class with the same content. -/
inductive SameKey (w : World) : Value → Value → Prop
  | same (v : Value) : SameKey w v v
  | strings {i j : Nat} {units : Units} : w.heap[i]? = some (.string units) →
      w.heap[j]? = some (.string units) → SameKey w (.ref i) (.ref j)
  | boxes {i j : Nat} {o o' : Object} {box : String × Value} : w.heap[i]? = some o →
      w.heap[j]? = some o' → o.boxed? = some box → o'.boxed? = some box →
      SameKey w (.ref i) (.ref j)

theorem key_ref (w : World) (id : Nat) :
    w.key (.ref id) = ((w.heap[id]?).map (Object.key id)).getD (.value (.ref id)) :=
  rfl

theorem key_eq_text {bytes : Bytes} :
    w.key v = .text bytes ↔ ∃ id units, v = .ref id ∧ w.heap[id]? = some (.string units) ∧
      ModifiedUtf8.encode units = bytes := by
  cases v with
  | ref id =>
    rw [key_ref]
    cases hid : w.heap[id]? with
    | none => simp [hid]
    | some o => simp [hid, Object.key_eq_text]
  | _ => simp [key]

theorem key_eq_boxed {cls : String} {content : Value} :
    w.key v = .boxed cls content ↔
      ∃ id o, v = .ref id ∧ w.heap[id]? = some o ∧ o.boxed? = some (cls, content) := by
  cases v with
  | ref id =>
    rw [key_ref]
    cases hid : w.heap[id]? with
    | none => simp [hid]
    | some o => simp [hid, Object.key_eq_boxed]
  | _ => simp [key]

theorem key_eq_value (h : w.key a = .value v) : v = a := by
  cases a with
  | ref id =>
    rw [key_ref] at h
    cases hid : w.heap[id]? with
    | none =>
      rw [hid] at h
      exact (MapKey.value.inj h).symm
    | some o =>
      rw [hid] at h
      exact Object.key_eq_value h
  | _ => exact (MapKey.value.inj h).symm

/-- Values stand for one key if they are the same key. -/
theorem key_eq_iff : w.key a = w.key b ↔ w.SameKey a b := by
  constructor
  · intro h
    cases ha : w.key a with
    | text bytes =>
      obtain ⟨i, units, rfl, hi, hencode⟩ := key_eq_text.1 ha
      obtain ⟨j, units', rfl, hj, hencode'⟩ := key_eq_text.1 (h.symm.trans ha)
      obtain rfl := ModifiedUtf8.encode_injective (hencode.trans hencode'.symm)
      exact .strings hi hj
    | boxed cls content =>
      obtain ⟨i, o, rfl, hi, ho⟩ := key_eq_boxed.1 ha
      obtain ⟨j, o', rfl, hj, ho'⟩ := key_eq_boxed.1 (h.symm.trans ha)
      exact .boxes hi hj ho ho'
    | value v =>
      obtain rfl := key_eq_value ha
      obtain rfl := key_eq_value (h.symm.trans ha)
      exact .same _
  · intro h
    cases h with
    | same => rfl
    | strings hi hj =>
      exact (key_eq_text.2 ⟨_, _, rfl, hi, rfl⟩).trans (key_eq_text.2 ⟨_, _, rfl, hj, rfl⟩).symm
    | boxes hi hj ho ho' =>
      exact (key_eq_boxed.2 ⟨_, _, rfl, hi, ho⟩).trans (key_eq_boxed.2 ⟨_, _, rfl, hj, ho'⟩).symm

theorem IsKey.isReference (h : w.IsKey v) : (w.key v).IsReference := by
  cases hkey : w.key v with
  | value u =>
    obtain rfl := key_eq_value hkey
    cases u with
    | null | ref => trivial
    | _ => exact h.elim
  | _ => trivial

/-- An object stays the key that it is while its core is the same. -/
theorem IsKey.of_core (h : w.IsKey v)
    (hcore : ∀ id o, v = .ref id → w.core? id = some o → w'.core? id = some o) :
    w'.IsKey v ∧ w'.key v = w.key v := by
  cases v with
  | null => exact ⟨trivial, rfl⟩
  | ref id =>
    obtain ⟨o, ho, hbox⟩ := h
    obtain ⟨o', ho', heq⟩ := Option.map_eq_some_iff.1 (hcore id o.core rfl (by rw [core?, ho]; rfl))
    refine ⟨⟨o', ho', ?_⟩, ?_⟩
    · rwa [← o'.isMapInBox_core, heq, o.isMapInBox_core]
    · simp only [key, ho, ho', Option.map_some, Option.getD_some]
      rw [← o'.key_core, heq, o.key_core]
  | _ => exact h.elim

end World

/-- The key that a method of maps takes a value for. -/
theorem Library.mapKey_eq {w : World} {v : Value} (h : w.IsKey v) (σ : Setting) :
    mapKey v σ w = (.ok (w.key v), w) := by
  cases v with
  | null => rfl
  | ref id =>
    obtain ⟨o, ho, hbox⟩ := h
    unfold mapKey deref?
    refine Run.bind_ok.2 ⟨some o, w, Run.object?_ok.2 ⟨ho.symm, rfl⟩, ?_⟩
    have hkey : w.key (.ref id) = o.key id := by
      simp only [World.key, ho, Option.map_some, Option.getD_some]
    rw [hkey]
    rcases o with units | ⟨component, elements⟩ | ⟨cls, fields, hidden⟩
    · rfl
    · rfl
    · dsimp only
      by_cases hcls : cls ∈ ["java/lang/Integer", "java/lang/Long", "java/lang/Character"]
      · rw [if_pos hcls]
        cases hidden with
        | table entries => exact absurd hcls hbox
        | _ => simp only [Object.key, Object.boxed?, hcls, if_true]; rfl
      · rw [if_neg hcls]
        simp only [Object.key, Object.boxed?, hcls, if_false]
        rfl
  | _ => exact h.elim

end Cleartext.Machine
