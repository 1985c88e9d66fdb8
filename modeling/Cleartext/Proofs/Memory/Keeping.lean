import Cleartext.Proofs.Memory.Sparing

/-!
# Computations that keep a string

The table of shared strings changes where a string is asked for, and a string changes where a
constructor fills it.  Every other computation leaves both alone (`Run.Keeping`): it spares all
objects, or changes the state of an instance.
-/

namespace Cleartext.Machine

/-- A world in which the shared strings are the same, and a string has its units still. -/
structure World.Keeps (id : Nat) (w w' : World) : Prop where
  interned : w'.interned = w.interned
  string : ∀ units, w.heap[id]? = some (.string units) → w'.heap[id]? = some (.string units)

namespace World

variable {id : Nat} {w w' w'' : World}

theorem Keeps.refl (id : Nat) (w : World) : w.Keeps id w := ⟨rfl, fun _ h => h⟩

theorem Keeps.trans (h : w.Keeps id w') (h' : w'.Keeps id w'') : w.Keeps id w'' :=
  ⟨h'.interned.trans h.interned, fun units hid => h'.string units (h.string units hid)⟩

/-- A world in which all objects were spared but one, which is not the string. -/
theorem Spares.keeps {but : Option Value} (h : w.Spares but w') (hbut : but ≠ some (.ref id)) :
    w.Keeps id w' :=
  ⟨h.interned, fun _ hid => core?_string.1 (h.core id _ hbut (core?_string.2 hid))⟩

end World

namespace Run

variable {id : Nat} {α β : Type} {r : Run α} {k : α → Run β} {σ : Setting} {w : World}

/-- A computation keeps the shared strings and the units of a string. -/
def Keeping (id : Nat) (r : Run α) : Prop :=
  ∀ (σ : Setting) (w : World), w.Keeps id (r σ w).2

theorem keeps_bind (h : w.Keeps id (r σ w).2)
    (hk : ∀ a w₁, r σ w = (.ok a, w₁) → w₁.Keeps id (k a σ w₁).2) :
    w.Keeps id ((r >>= k) σ w).2 :=
  world_bind .trans h hk

@[grind ←] theorem keeping_bind (h : Keeping id r) (hk : ∀ a, Keeping id (k a)) :
    Keeping id (r >>= k) :=
  fun σ w => keeps_bind (h σ w) fun a w₁ _ => hk a σ w₁

@[grind ←] theorem keeping_of_sparing (h : Sparing none r) : Keeping id r := fun σ w =>
  (h σ w).keeps nofun

/-- The state of an instance is changed, which is no string. -/
@[grind ←] theorem keeping_setHidden (i : Nat) (hidden : Hidden) : Keeping id (setHidden i hidden) := by
  refine fun σ w => ⟨rfl, fun units h => ?_⟩
  show (w.heap.modify i _)[id]? = _
  rw [Array.getElem?_modify]
  split
  · rw [h]
    rfl
  · exact h

end Run

namespace Library

open Cleartext.Machine.Run

variable {id : Nat} {args : List Value}

/-- A method that was looked for keeps a string, if there is one. -/
def Keeps (id : Nat) (found : Option LibraryMethod) (args : List Value) : Prop :=
  ∀ method, found = some method → Run.Keeping id (method args)

theorem keeps_none : Keeps id none args := nofun

theorem keeps_some {method : LibraryMethod} (h : Keeping id (method args)) :
    Keeps id (some method) args := fun _ hmethod => Option.some.inj hmethod ▸ h

theorem keeps_of_spares {found : Option LibraryMethod} (h : Spares none found args) :
    Keeps id found args := fun method hmethod => keeping_of_sparing (h method hmethod)

/-! ## Constructors -/

theorem keeping_initBuilder : Keeping id (initBuilder args) := by
  have hfill (units : Units) : Keeping id (do
      setHidden (← selfInstance args) (.builder units)
      return nothing) := by
    grind
  rcases args with _ | ⟨self, _ | ⟨content, rest⟩⟩
  · exact keeping_bind (keeping_of_sparing (sparing_pure _)) hfill
  · exact keeping_bind (keeping_of_sparing (sparing_pure _)) hfill
  · cases content with
    | int => exact keeping_bind (keeping_of_sparing (sparing_pure _)) hfill
    | null => exact keeping_bind (keeping_of_sparing sparing_throwNull) hfill
    | _ => exact keeping_bind (keeping_of_sparing (sparing_unitsOf _ _)) hfill

theorem keeps_builderMethod (cls name descriptor : String) :
    Keeps id (builderMethod? cls name descriptor) args := by
  by_cases hname : name = "<init>"
  · unfold builderMethod? newBuilder?
    rw [if_pos hname]
    split
    case h_5 => exact keeps_none
    all_goals exact keeps_some keeping_initBuilder
  · exact keeps_of_spares (spares_builderMethod_of_ne hname)

/-- Another string is filled. -/
theorem keeps_newString (hreceiver : args[0]? ≠ some (.ref id)) (descriptor : String) :
    Keeps id (newString? descriptor) args := fun method hmethod σ w =>
  (spares_newString rfl method hmethod σ w).keeps hreceiver

/-- A method of strings keeps one that it does not fill, if it asks for no shared string. -/
theorem keeps_stringMethod {name descriptor : String}
    (hintern : name ++ descriptor ≠ "intern()Ljava/lang/String;")
    (hinit : name = "<init>" → args[0]? ≠ some (.ref id)) :
    Keeps id (stringMethod? name descriptor) args := by
  by_cases hname : name = "<init>"
  · unfold stringMethod?
    rw [if_pos hname]
    exact keeps_newString (hinit hname) descriptor
  · exact keeps_of_spares (spares_stringMethod_of_ne hname hintern)

theorem keeps_mapMethod (signature : String) : Keeps id (mapMethod? signature) args := by
  have hput : Keeping id (put args) := by
    refine keeping_bind (by grind) fun self => keeping_bind (by grind) fun entries =>
      keeping_bind (by grind) fun v => keeping_bind (by grind) fun key =>
      keeping_bind (by grind) fun v => ?_
    split <;> grind
  unfold mapMethod? initMap
  split
  case h_7 => exact keeps_none
  case h_4 => exact keeps_some hput
  all_goals exact keeps_some (by grind)

theorem keeps_throwableMethod (signature : String) : Keeps id (throwableMethod? signature) args := by
  have hinit (message : Option Nat) : Keeping id (do
      setHidden (← selfInstance args) (.throwable message (← callStack))
      return nothing) := by
    grind
  unfold throwableMethod?
  split
  case h_2 =>
    refine keeps_some (keeping_bind (by grind) fun v => ?_)
    split
    · refine keeping_bind (by grind) fun o => ?_
      split <;> exact keeping_bind (by grind) hinit
    · exact keeping_bind (by grind) hinit
  case h_6 => exact keeps_none
  all_goals exact keeps_some (by grind)

/-! ## All methods -/

/-- A method fills a new string. -/
def IsFill (cls name : String) : Prop := cls = "java/lang/String" ∧ name = "<init>"

instance (cls name : String) : Decidable (IsFill cls name) := inferInstanceAs (Decidable (_ ∧ _))

theorem keeps_declared {owner name descriptor : String} (hintern : ¬ IsIntern owner name descriptor)
    (hfill : IsFill owner name → args[0]? ≠ some (.ref id)) :
    Keeps id (declared? owner name descriptor) args := by
  unfold declared?
  dsimp only
  split
  · exact keeps_of_spares (spares_objectMethod _)
  · exact keeps_stringMethod (fun h => hintern ⟨rfl, h⟩) fun h => hfill ⟨rfl, h⟩
  · exact keeps_builderMethod _ _ _
  · exact keeps_builderMethod _ _ _
  · exact keeps_of_spares (spares_integerMethod _)
  · exact keeps_of_spares (spares_longMethod _)
  · exact keeps_of_spares (spares_characterMethod _)
  · exact keeps_of_spares (spares_mathMethod _)
  · exact keeps_of_spares (spares_systemMethod _)
  · exact keeps_of_spares (spares_threadMethod _)
  · exact keeps_throwableMethod _
  · exact keeps_of_spares (spares_stackElementMethod _)
  · exact keeps_of_spares (spares_classMethod _)
  · exact keeps_of_spares (spares_protectionDomainMethod _)
  · exact keeps_of_spares (spares_codeSourceMethod _)
  · exact keeps_of_spares (spares_urlMethod _)
  · exact keeps_mapMethod _
  · exact keeps_of_spares (spares_poolMethod _ _)

/-- The method that asks for a shared string. -/
theorem IsIntern.declared? {cls name descriptor : String} (h : IsIntern cls name descriptor) :
    Library.declared? cls name descriptor = some (fun args => do intern (← selfUnits args)) := by
  obtain ⟨rfl, hsignature⟩ := h
  have hname {name' : String} (hne : ¬ name'.toList <+: "intern()Ljava/lang/String;".toList) :
      name ≠ name' := by
    rintro rfl
    rw [← hsignature, String.toList_append] at hne
    exact hne (List.prefix_append _ _)
  show stringMethod? name descriptor = _
  unfold stringMethod?
  rw [if_neg (hname (by decide)), if_neg (hname (by decide)), hsignature]
  rfl

theorem IsIntern.arrayMethod? {cls name descriptor : String} (h : IsIntern cls name descriptor) :
    Library.arrayMethod? (name ++ descriptor) = none := by
  rw [h.2]
  rfl

/-- The descriptor in a signature, of which only one end opens a list of parameters. -/
theorem descriptor_eq {name text signature expected : String} {descriptor : Descriptor}
    (hparses : Descriptor.parse text = .ok descriptor) (h : name ++ text = signature)
    (hall : ∀ t ∈ signature.toList.tails, t.head? = some '(' → t = expected.toList) :
    text = expected := by
  have hopens : text.toList.head? = some '(' := by
    unfold Descriptor.parse at hparses
    split at hparses
    · rename_i heq
      rw [heq]
      rfl
    · cases hparses
  have hsuffix : text.toList ∈ signature.toList.tails := by
    rw [List.mem_tails, ← h, String.toList_append]
    exact List.suffix_append _ _
  exact String.toList_inj.1 (hall _ hsuffix hopens)

/-- A descriptor that makes a name the signature of `intern` has no parameters, and a string as
its result. -/
theorem IsIntern.descriptor_eq {cls name text : String} {descriptor : Descriptor}
    (h : IsIntern cls name text) (hparses : Descriptor.parse text = .ok descriptor) :
    descriptor = ⟨[], "Ljava/lang/String;"⟩ := by
  obtain rfl : text = "()Ljava/lang/String;" := Library.descriptor_eq hparses h.2 (by decide)
  exact Except.ok.inj (hparses.symm.trans (by rfl))

end Library

end Cleartext.Machine
