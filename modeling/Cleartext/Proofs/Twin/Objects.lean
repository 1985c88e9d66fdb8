import Cleartext.Proofs.Twin.Frames

/-!
# Arrays, objects and call sites in both runs

What makes and tests objects, and what takes indices of the pool.  The class of the smaller
run has another pool: `Pool.Stands` says that two indices stand for the same.
-/

namespace Cleartext.Machine.Step

variable {f : Numbering} {p p' : Program} {α : Type} {A : Numbering → α → α → Prop}
  {v v' : Value}

/-! ## Arrays -/

/-- Elements of arrays that are one: the number of the array, and the element. -/
def ElementLike (f : Numbering) (x x' : Nat × Value) : Prop := f.Links x.1 x'.1 ∧ x.2.Like f x'.2

theorem element_twin (hv : v.Like f v') (i : Int32) :
    Still (ElementLike f) f (element v i) (element v' i) := by
  have hother {v v' : Value} (hv : v.Like f v') : Still (ElementLike f) f
      (do unsupported (.arrayAccess (← kindName v))) (do unsupported (.arrayAccess (← kindName v'))) :=
    (kindName_twin hv).bind_eq fun _ => .unsupported
  cases hv with
  | null => exact throwNull_twin
  | ref hij =>
    refine found_twin hij fun _ _ ho => ?_
    cases ho with
    | @array component elements elements' h =>
      have hfound : Option.Rel (Value.Like f) (if i < 0 then none else elements[i.toInt.toNat]?)
          (if i < 0 then none else elements'[i.toInt.toNat]?) := by
        split
        · exact .none
        · simpa using forall₂_getElem? h i.toInt.toNat
      have hsize : elements.size = elements'.size := by simpa using h.length_eq
      dsimp only
      rw [hsize]
      generalize (if i < 0 then none else elements[i.toInt.toNat]?) = x at hfound ⊢
      generalize (if i < 0 then none else elements'[i.toInt.toNat]?) = x' at hfound ⊢
      cases hfound with
      | none => exact throwNew_twin _ _
      | some hx => exact .done ⟨hij, hx⟩
    | _ => exact hother (.ref hij)
  | int n => exact hother (.int n)
  | long n => exact hother (.long n)
  | float bits => exact hother (.float bits)
  | double bits => exact hother (.double bits)
  | address h => exact hother (.address h)

theorem loadElement_twin : StepStill p p' Eq f loadElement loadElement :=
  popInt_twin.bind_eq fun i => popRef_twin.bind fun _ _ hv =>
    StepStill.bind (.ofRun (element_twin hv i)) fun _ _ hx => push_twin hx.2

theorem narrow_like (component : String) (hv : v.Like f v') :
    (narrow component v).Like f (narrow component v') := by
  cases hv with
  | int n =>
    unfold narrow
    dsimp only
    split <;> exact .int _
  | null => exact .null
  | long n => exact .long n
  | float bits => exact .float bits
  | double bits => exact .double bits
  | ref h => exact .ref h
  | address h => exact .address h

theorem storeElement_twin : StepStill p p' Eq f storeElement storeElement := by
  refine pop_twin.bind fun v v' hv => popInt_twin.bind_eq fun i => popRef_twin.bind fun _ _ ha =>
    StepStill.bind (.ofRun (element_twin ha i)) fun x x' hx => ?_
  refine .ofRun (update_twin hx.1 fun o o' ho => ?_)
  cases ho with
  | array component h => exact .array component (values_set h _ (narrow_like component hv))
  | string units => exact .string units
  | «instance» cls hfields hhidden => exact .instance cls hfields hhidden

theorem zero_like (type : String) : (Value.zero type).Like f (Value.zero type) := by
  unfold Value.zero
  split <;> constructor

theorem newArray_twin (component : String) (n : Nat) :
    Twin Value.Like f (newArray component n) (newArray component n) := by
  refine new_twin (.array component ?_)
  rw [Array.toList_replicate, List.forall₂_same]
  intro v hv
  rw [List.eq_of_mem_replicate hv]
  exact zero_like component

/-- Both runs check the same on a frame, and halt in the same way when it fails. -/
theorem check_twin {c : Prop} [Decidable c] {r : Run PUnit}
    (hr : ∀ {B : Numbering → PUnit → PUnit → Prop}, Twin B f r r) {k k' : PUnit → Step α}
    (hk : ¬ c → StepTwin p p' A f (k ⟨⟩) (k' ⟨⟩)) :
    StepTwin p p' A f (if c then liftM r >>= k else k ⟨⟩) (if c then liftM r >>= k' else k' ⟨⟩) := by
  split
  · exact (StepTwin.ofRun (@hr fun _ _ _ => False)).bind fun _ _ _ _ h => h.elim
  · exact hk ‹_›

/-- Both runs take the same of two ways, and go on. -/
theorem either_twin {β : Type} {B : Numbering → β → β → Prop} {c : Prop} [Decidable c]
    {s s' t t' : Step α} {k k' : α → Step β} (hs : c → StepTwin p p' A f s s')
    (ht : ¬ c → StepTwin p p' A f t t')
    (hk : ∀ g a a', f.Extends g → A g a a' → StepTwin p p' B g (k a) (k' a')) :
    StepTwin p p' B f (if c then s >>= k else t >>= k) (if c then s' >>= k' else t' >>= k') := by
  split
  · exact (hs ‹_›).bind hk
  · exact (ht ‹_›).bind hk

theorem newPrimitiveArray_twin (code : UInt8) :
    StepTwin p p' (fun _ _ _ => True) f (newPrimitiveArray code) (newPrimitiveArray code) := by
  refine popInt_twin.bind_eq fun n => check_twin (throwNew_twin _ _) fun _ => ?_
  split
  · exact push_answer (.ofRun (newArray_twin _ _))
  · exact .misuse

theorem newNested_twin (counts : List Nat) (type : List Char) :
    Twin Value.Like f (newNested counts type) (newNested counts type) := by
  induction counts generalizing f type with
  | nil => cases type <;> exact .collapse
  | cons n counts ih =>
    cases type with
    | nil => cases counts <;> exact .collapse
    | cons c component =>
      cases counts with
      | nil => exact newArray_twin _ n
      | cons m counts =>
        exact (Library.mapM_values (fun _ _ => ih component) _).bind fun _ _ _ _ hvs =>
          new_twin (.array _ hvs)

theorem dimensions_twin {vs vs' : List Value} (h : List.Forall₂ (Value.Like f) vs vs') :
    StepStill p p' Eq f (dimensions vs) (dimensions vs') := by
  have hmisuse {v v' : Value} (hv : v.Like f v') : StepStill p p' Eq f
      (do misuse (.dimension (← kindName v)) : Step (List Nat))
      (do misuse (.dimension (← kindName v'))) :=
    StepStill.bind_eq (.ofRun (kindName_twin hv)) fun _ => .misuse
  induction h with
  | nil => exact .done rfl
  | @cons v v' vs vs' hv _ ih =>
    cases hv with
    | int n =>
      unfold dimensions
      exact check_twin (throwNew_twin _ _) fun _ => ih.bind_eq fun _ => .done rfl
    | null => exact hmisuse .null
    | long n => exact hmisuse (.long n)
    | float bits => exact hmisuse (.float bits)
    | double bits => exact hmisuse (.double bits)
    | ref h => exact hmisuse (.ref h)
    | address h => exact hmisuse (.address h)

theorem lengthOf_twin {v v' : Value} (hv : v.Like f v') : StepStill p p' Eq f
    (do
      match ← deref? v with
      | some (.array _ elements) => push (.int (Int32.ofNat elements.size))
      | _ => misuse (.lengthOf (← kindName v)))
    (do
      match ← deref? v' with
      | some (.array _ elements) => push (.int (Int32.ofNat elements.size))
      | _ => misuse (.lengthOf (← kindName v'))) := by
  have hmisuse : StepStill p p' Eq f (do misuse (.lengthOf (← kindName v)) : Step Unit)
      (do misuse (.lengthOf (← kindName v'))) :=
    StepStill.bind_eq (.ofRun (kindName_twin hv)) fun _ => .misuse
  refine StepStill.bind (.ofRun (deref?_twin hv)) fun _ _ ho => ?_
  cases ho with
  | none => exact hmisuse
  | some ho =>
    cases ho with
    | @array component elements elements' h =>
      have hsize : elements.size = elements'.size := by simpa using h.length_eq
      dsimp only
      rw [hsize]
      exact push_twin (.int _)
    | _ => exact hmisuse

theorem arrayLength_twin : StepStill p p' Eq f arrayLength arrayLength := by
  refine popRef_twin.bind fun _ _ hv => ?_
  cases hv with
  | null => exact .ofRun throwNull_twin
  | int n => exact lengthOf_twin (.int n)
  | long n => exact lengthOf_twin (.long n)
  | float bits => exact lengthOf_twin (.float bits)
  | double bits => exact lengthOf_twin (.double bits)
  | ref h => exact lengthOf_twin (.ref h)
  | address h => exact lengthOf_twin (.address h)

/-! ## Objects -/

theorem newInstance_twin (cls : String) :
    Twin Value.Like f (newInstance cls) (newInstance cls) := by
  refine read_twin.bind fun σ σ' hσ => ?_
  dsimp only
  rw [hσ.name]
  split
  · exact new_twin (.instance cls (.some hσ.fields) .none)
  · split
    · exact new_twin (.string [])
    · split
      · exact newHidden_twin cls .none
      · exact .unsupported

theorem throwObject_twin : StepStill p p' Eq f throwObject throwObject := by
  have hmisuse {v v' : Value} (hv : v.Like f v') : StepStill p p' Eq f
      (do misuse (.throwOf (← kindName v)) : Step Unit) (do misuse (.throwOf (← kindName v'))) :=
    StepStill.bind_eq (.ofRun (kindName_twin hv)) fun _ => .misuse
  refine popRef_twin.bind fun _ _ hv => ?_
  cases hv with
  | null => exact .ofRun throwNull_twin
  | @ref i j hij =>
    refine StepStill.bind (.ofRun (object?_twin hij)) fun _ _ ho => ?_
    cases ho with
    | none => exact hmisuse (.ref hij)
    | some ho =>
      cases ho with
      | «instance» cls hfields hhidden =>
        refine StepStill.bind_eq (.ofRun (instanceOf_twin (.ref hij) _)) fun answer => ?_
        cases answer with
        | true =>
          exact fun _ _ _ _ _ _ _ hF hw => .thrown (.refl f) hw hF (.refl _) (.refl _) hij
        | false => exact .misuse
      | _ => exact hmisuse (.ref hij)
  | int n => exact hmisuse (.int n)
  | long n => exact hmisuse (.long n)
  | float bits => exact hmisuse (.float bits)
  | double bits => exact hmisuse (.double bits)
  | address h => exact hmisuse (.address h)

/-- A test whether a value is an instance of a class, which null is answered for. -/
theorem test_twin (hv : v.Like f v') (onNull : Bool) (cls : String) {k k' : Bool → Step α}
    (hk : ∀ answer, StepTwin p p' A f (k answer) (k' answer)) :
    StepTwin p p' A f (if v = .null then Pure.pure onNull >>= k else liftM (instanceOf v cls) >>= k)
      (if v' = .null then Pure.pure onNull >>= k' else liftM (instanceOf v' cls) >>= k') := by
  refine .of_nodup fun hf => ?_
  simp only [hv.eq_iff hf .null]
  split
  · exact hk onNull
  · exact StepStill.bind_eq (.ofRun (instanceOf_twin hv cls)) hk

theorem useMonitor_twin : StepStill p p' Eq f useMonitor useMonitor := by
  refine .of_nodup fun hf => popRef_twin.bind fun _ _ hv => ?_
  simp only [hv.eq_iff hf .null]
  split
  · exact .ofRun throwNull_twin
  · exact .done trivial

end Cleartext.Machine.Step
