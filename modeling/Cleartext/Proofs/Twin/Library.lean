import Cleartext.Proofs.Twin.Worlds

/-!
# The library in both runs
-/

namespace Cleartext.Machine

variable {f : Numbering} {α : Type} {A : Numbering → α → α → Prop} {args args' : List Value}
  {v v' : Value}

/-! ## Arguments -/

theorem arg_twin (h : List.Forall₂ (Value.Like f) args args') (i : Nat) :
    Still (Value.Like f) f (arg args i) (arg args' i) := by
  unfold arg
  have hi := forall₂_getElem? h i
  generalize args[i]? = a at hi ⊢
  generalize args'[i]? = a' at hi ⊢
  cases hi with
  | none => exact .collapse
  | some hv => exact .done hv

theorem intArg_twin (h : List.Forall₂ (Value.Like f) args args') (i : Nat) :
    Still Eq f (intArg args i) (intArg args' i) :=
  (arg_twin h i).bind fun _ _ hv => by cases hv <;> exact .done rfl

theorem longArg_twin (h : List.Forall₂ (Value.Like f) args args') (i : Nat) :
    Still Eq f (longArg args i) (longArg args' i) :=
  (arg_twin h i).bind fun _ _ hv => by cases hv <;> exact .done rfl

theorem selfUnits_twin (h : List.Forall₂ (Value.Like f) args args') :
    Still Eq f (selfUnits args) (selfUnits args') := by
  refine (arg_twin h 0).bind fun _ _ hv => (deref?_twin hv).bind fun _ _ ho => ?_
  cases ho with
  | none => exact .collapse
  | some ho =>
    cases ho with
    | string units => exact .done rfl
    | _ => exact .collapse

theorem selfInstance_twin (h : List.Forall₂ (Value.Like f) args args') :
    Still f.Links f (selfInstance args) (selfInstance args') := by
  refine (arg_twin h 0).bind fun _ _ hv => ?_
  cases hv with
  | ref hij =>
    refine found_twin hij fun _ _ ho => ?_
    cases ho with
    | «instance» => exact .done hij
    | _ => exact .collapse
  | _ => exact .collapse

theorem asString_twin (hv : v.Like f v') :
    Still (fun a a' => f.Links a.1 a'.1 ∧ a.2 = a'.2) f (asString v) (asString v') := by
  have hother (hv : v.Like f v') : Still (fun a a' => f.Links a.1 a'.1 ∧ a.2 = a'.2) f
      (do unsupported (.expectedString (← className v)) : Run (Nat × Units))
      (do unsupported (.expectedString (← className v'))) :=
    (className_twin hv).bind_eq fun _ => .unsupported
  cases hv with
  | null => exact throwNull_twin
  | ref hij =>
    refine found_twin hij fun _ _ ho => ?_
    cases ho with
    | string units => exact .done ⟨hij, rfl⟩
    | _ => exact hother (.ref hij)
  | int | long | float | double => exact hother (by constructor)
  | address h => exact hother (.address h)

/-- Arrays that are one: their numbers, their component types and their elements. -/
def ArraysLike (f : Numbering) (a a' : Nat × String × Array Value) : Prop :=
  f.Links a.1 a'.1 ∧ a.2.1 = a'.2.1 ∧
    List.Forall₂ (Value.Like f) a.2.2.toList a'.2.2.toList

theorem asArray_twin (hv : v.Like f v') : Still (ArraysLike f) f (asArray v) (asArray v') := by
  have hother (hv : v.Like f v') : Still (ArraysLike f) f
      (do unsupported (.expectedArray (← className v)) : Run (Nat × String × Array Value))
      (do unsupported (.expectedArray (← className v'))) :=
    (className_twin hv).bind_eq fun _ => .unsupported
  cases hv with
  | null => exact throwNull_twin
  | ref hij =>
    refine found_twin hij fun _ _ ho => ?_
    cases ho with
    | array component h => exact .done ⟨hij, rfl, h⟩
    | _ => exact hother (.ref hij)
  | int | long | float | double => exact hother (by constructor)
  | address h => exact hother (.address h)

/-- Hidden state that both runs pick, or neither does. -/
theorem picked_twin {β : Type} {R : β → β → Prop} (cls : String) {a a' : Option β} :
    Option.Rel R a a' → Still R f
      (match a with
        | some a => return a
        | none => unsupported (.notInitialized (externalName cls)))
      (match a' with
        | some a => return a
        | none => unsupported (.notInitialized (externalName cls))) := by
  rintro (ha | _)
  · exact .done ha
  · exact .unsupported

theorem asHidden_twin {β : Type} {R : β → β → Prop} (hv : v.Like f v') {pick : Hidden → Option β}
    (hpick : ∀ x x', x.Like f x' → Option.Rel R (pick x) (pick x')) :
    Still R f (asHidden v pick) (asHidden v' pick) := by
  have hother (hv : v.Like f v') : Still R f
      (do unsupported (.noNativeState (← className v)) : Run β)
      (do unsupported (.noNativeState (← className v'))) :=
    (className_twin hv).bind_eq fun _ => .unsupported
  cases hv with
  | null => exact throwNull_twin
  | ref hij =>
    refine found_twin hij fun _ _ ho => ?_
    cases ho with
    | @«instance» cls fields fields' hidden hidden' hfields hhidden =>
      exact picked_twin cls (hpick _ _ hhidden)
    | _ => exact hother (.ref hij)
  | int | long | float | double => exact hother (by constructor)
  | address h => exact hother (.address h)

theorem hiddenText_twin (hv : v.Like f v') : Still Eq f (hiddenText v) (hiddenText v') :=
  asHidden_twin hv fun _ _ hx => by cases hx <;> constructor; rfl

theorem elementUnits_eq {elements elements' : Array Value}
    (h : List.Forall₂ (Value.Like f) elements.toList elements'.toList) :
    elementUnits elements = elementUnits elements' := by
  unfold elementUnits
  generalize elements.toList = l at h ⊢
  generalize elements'.toList = l' at h ⊢
  induction h with
  | nil => rfl
  | cons hv _ ih =>
    rw [List.map_cons, List.map_cons, ih]
    cases hv <;> rfl

theorem elementBytes_eq {elements elements' : Array Value}
    (h : List.Forall₂ (Value.Like f) elements.toList elements'.toList) :
    elementBytes elements = elementBytes elements' := by
  unfold elementBytes
  generalize elements.toList = l at h ⊢
  generalize elements'.toList = l' at h ⊢
  induction h with
  | nil => rfl
  | cons hv _ ih =>
    rw [List.map_cons, List.map_cons, ih]
    cases hv <;> rfl

/-! ## Texts -/

theorem values_ints {β : Type} (l : List β) (toInt : β → Int32) :
    List.Forall₂ (Value.Like f) (l.map fun u => Value.int (toInt u)).toArray.toList
      (l.map fun u => Value.int (toInt u)).toArray.toList := by
  rw [List.toList_toArray, List.forall₂_map_left_iff, List.forall₂_map_right_iff]
  exact List.forall₂_same.2 fun x _ => .int _

theorem newChars_twin (units : Units) : Twin Value.Like f (newChars units) (newChars units) :=
  new_twin (.array "C" (values_ints units _))

theorem newBytes_twin (bytes : Bytes) : Twin Value.Like f (newBytes bytes) (newBytes bytes) :=
  new_twin (.array "B" (values_ints bytes _))

theorem hashedName_twin (name : String) (hv : v.Like f v') :
    Still Eq f (hashedName name v) (hashedName name v') :=
  (identityHash_twin hv).bind_eq fun _ => .done rfl

theorem plainUnits_twin (hv : v.Like f v') (type : String) :
    Still Eq f (plainUnits v type) (plainUnits v' type) := by
  cases hv with
  | ref hij => exact (kindName_twin (.ref hij)).bind_eq fun _ => .unsupported
  | address h => exact (kindName_twin (.address h)).bind_eq fun _ => .unsupported
  | _ => exact .done rfl

theorem unitsOf_twin (hv : v.Like f v') (type : String) :
    Still Eq f (unitsOf v type) (unitsOf v' type) := by
  refine (deref?_twin hv).bind fun _ _ ho => ?_
  cases ho with
  | none => exact plainUnits_twin hv type
  | some ho =>
    cases ho with
    | string units => exact .done rfl
    | array component h => exact hashedName_twin _ hv
    | @«instance» cls fields fields' hidden hidden' hfields hhidden =>
      cases hhidden with
      | builder units => exact .done rfl
      | throwable hm trace =>
        cases hm with
        | none => exact .done rfl
        | some hij => exact (stringText_twin hij).bind_eq fun _ => .done rfl
      | none | text | frame | boxed | table =>
        dsimp only
        split
        all_goals first
          | exact .done rfl
          | exact .collapse
          | exact .unsupported
          | exact hashedName_twin _ hv
          | exact plainUnits_twin (by assumption) _

namespace Library

/-- A library method does the same in both runs. -/
def MethodTwin (m : LibraryMethod) : Prop :=
  ∀ ⦃f : Numbering⦄ ⦃args args' : List Value⦄, List.Forall₂ (Value.Like f) args args' →
    Twin Value.Like f (m args) (m args')

/-- Every method of a table does the same in both runs. -/
def TableTwin (t : Option LibraryMethod) : Prop := ∀ m, t = some m → MethodTwin m

theorem tableTwin_some {m : LibraryMethod} (h : MethodTwin m) : TableTwin (some m) :=
  fun _ hm => Option.some.inj hm ▸ h

theorem tableTwin_none : TableTwin none := nofun

/-! ## Objects and the system -/

theorem forall₂_extract {R : Value → Value → Prop} {xs ys : Array Value}
    (h : List.Forall₂ R xs.toList ys.toList) (start stop : Nat) :
    List.Forall₂ R (xs.extract start stop).toList (ys.extract start stop).toList := by
  rw [Array.toList_extract, Array.toList_extract, List.extract_eq_take_drop,
    List.extract_eq_take_drop]
  exact List.forall₂_take _ (List.forall₂_drop _ h)

theorem arrayCopy_twin : MethodTwin arrayCopy := by
  intro f args args' h
  refine (arg_twin h 0).bind fun _ _ hv => (asArray_twin hv).bind fun a a' ha => ?_
  obtain ⟨_, _, source⟩ := a
  obtain ⟨_, _, source'⟩ := a'
  obtain ⟨-, -, hsource⟩ := ha
  refine (arg_twin h 2).bind fun _ _ hv => (asArray_twin hv).bind fun b b' hb => ?_
  obtain ⟨id, component, target⟩ := b
  obtain ⟨id', component', target'⟩ := b'
  obtain ⟨hid, hcomponent, htarget⟩ := hb
  obtain rfl : component = component' := hcomponent
  dsimp only at hid hsource htarget ⊢
  have hsizes : source.size = source'.size ∧ target.size = target'.size :=
    ⟨by simpa using hsource.length_eq, by simpa using htarget.length_eq⟩
  rw [hsizes.1, hsizes.2]
  refine (intArg_twin h 1).bind_eq fun start => (intArg_twin h 3).bind_eq fun position =>
    (intArg_twin h 4).bind_eq fun length => ?_
  have hcopy : Twin Value.Like f
      (do update id (fun _ => .array component (target.extract 0 position.toInt.toNat ++
            source.extract start.toInt.toNat (start.toInt + length.toInt).toNat ++
            target.extract (position.toInt + length.toInt).toNat target'.size)); return nothing)
      (do update id' (fun _ => .array component (target'.extract 0 position.toInt.toNat ++
            source'.extract start.toInt.toNat (start.toInt + length.toInt).toNat ++
            target'.extract (position.toInt + length.toInt).toNat target'.size)); return nothing) := by
    refine (update_twin hid fun o o' _ => .array component ?_).bind_eq fun _ => .pure .null
    simp only [Array.toList_append]
    exact List.rel_append (List.rel_append (forall₂_extract htarget _ _)
      (forall₂_extract hsource _ _)) (forall₂_extract htarget _ _)
  exact check_twin _ _ hcopy

theorem cloneArray_twin : MethodTwin cloneArray := by
  intro f args args' h
  refine (arg_twin h 0).bind fun _ _ hv => (deref?_twin hv).bind fun _ _ ho => ?_
  cases ho with
  | none => exact .collapse
  | some ho =>
    cases ho with
    | array component h => exact new_twin (.array component h)
    | _ => exact .collapse

theorem arrayMethod?_twin (signature : String) : TableTwin (arrayMethod? signature) := by
  unfold arrayMethod?
  split
  · exact tableTwin_some cloneArray_twin
  · exact tableTwin_none

theorem objectMethod?_twin (signature : String) : TableTwin (objectMethod? signature) := by
  unfold objectMethod?
  split
  · exact tableTwin_some fun _ _ _ h => .pure .null
  · exact tableTwin_some fun _ _ _ h => (arg_twin h 0).bind fun _ _ hv =>
      (identityHash_twin hv).bind_eq fun n => .pure (.int n)
  · refine tableTwin_some fun f _ _ h => .of_nodup fun hf => (arg_twin h 0).bind fun _ _ hu =>
      (arg_twin h 1).bind fun _ _ hv => ?_
    rw [hu.same_eq hf hv]
    exact .pure (.int _)
  · exact tableTwin_some fun _ _ _ h => (arg_twin h 0).bind fun _ _ hv =>
      (runtimeClass_twin hv).bind_eq fun cls => mirror_twin cls
  · exact tableTwin_some fun _ _ _ h => (arg_twin h 0).bind fun _ _ hv =>
      (unitsOf_twin hv "").bind_eq fun units => newUnits_twin units
  · exact tableTwin_none

theorem systemMethod?_twin (signature : String) : TableTwin (systemMethod? signature) := by
  unfold systemMethod?
  split
  · exact tableTwin_some arrayCopy_twin
  · refine tableTwin_some fun _ _ _ h => (arg_twin h 0).bind fun v v' hv => ?_
    have hother : Twin Value.Like _ (do return .int (← identityHash v))
        (do return .int (← identityHash v')) :=
      (identityHash_twin hv).bind_eq fun n => .pure (.int n)
    cases hv with
    | null => exact .pure (.int 0)
    | _ => exact hother
  · exact tableTwin_none

/-! ## Maps -/

/-- Entries of maps that are alike. -/
def EntryLike (f : Numbering) (e e' : MapKey × Value) : Prop := e.1.Like f e'.1 ∧ e.2.Like f e'.2

theorem mapKey_twin (hv : v.Like f v') : Still (MapKey.Like f) f (mapKey v) (mapKey v') := by
  refine (deref?_twin hv).bind fun _ _ ho => ?_
  cases ho with
  | none => exact .done (.value hv)
  | some ho =>
    cases ho with
    | string => exact .done (.text _)
    | array => exact .done (.value hv)
    | @«instance» cls fields fields' hidden hidden' hfields hhidden =>
      dsimp only
      split
      · cases hhidden with
        | boxed hcontent => exact .done (.boxed cls hcontent)
        | none => exact .done (.boxed cls .null)
        | table => exact .collapse
        | _ => exact .done (.value hv)
      · exact .done (.value hv)

theorem mapEntries_twin (hv : v.Like f v') :
    Still (List.Forall₂ (EntryLike f)) f (mapEntries v) (mapEntries v') := by
  refine asHidden_twin hv fun x x' hx => ?_
  cases hx with
  | table h => exact .some h
  | _ => exact .none

theorem same_eq_of_like {k k' l l' : MapKey} (hk : k.Like f k') (hf : f.ids.Nodup)
    (hl : l.Like f l') : k.same l = k'.same l' := by
  cases hk with
  | text bytes => cases hl <;> rfl
  | boxed cls hv =>
    cases hl with
    | boxed cls' hv' =>
      have hiff := hv.eq_iff hf hv'
      simp [MapKey.same, hiff]
    | _ => rfl
  | value hv =>
    cases hl with
    | value hv' => exact hv.same_eq hf hv'
    | _ => rfl

theorem valueOfKey?_like {k k' : MapKey} {entries entries' : List (MapKey × Value)}
    (hk : k.Like f k') (hf : f.ids.Nodup) (h : List.Forall₂ (EntryLike f) entries entries') :
    Option.Rel (Value.Like f) (valueOfKey? k entries) (valueOfKey? k' entries') := by
  unfold valueOfKey?
  induction h with
  | nil => exact .none
  | @cons e e' rest rest' he _ ih =>
    obtain ⟨l, u⟩ := e
    obtain ⟨l', u'⟩ := e'
    rw [List.find?_cons, List.find?_cons]
    dsimp only at he ih ⊢
    rw [same_eq_of_like he.1 hf hk]
    cases l'.same k' with
    | true => exact .some he.2
    | false => exact ih

theorem setEntry_like {k k' : MapKey} {entries entries' : List (MapKey × Value)}
    (hk : k.Like f k') (hf : f.ids.Nodup) (hv : v.Like f v')
    (h : List.Forall₂ (EntryLike f) entries entries') :
    List.Forall₂ (EntryLike f) (setEntry k v entries) (setEntry k' v' entries') := by
  induction h with
  | nil => exact .cons ⟨hk, hv⟩ .nil
  | @cons e e' rest rest' he hrest ih =>
    obtain ⟨l, old⟩ := e
    obtain ⟨l', old'⟩ := e'
    unfold setEntry
    rw [same_eq_of_like he.1 hf hk]
    split
    · exact .cons ⟨he.1, hv⟩ hrest
    · exact .cons he ih

theorem getD_like {o o' : Option Value} (h : Option.Rel (Value.Like f) o o') :
    (o.getD .null).Like f (o'.getD .null) := by
  cases h with
  | none => exact .null
  | some hv => exact hv

theorem isSome_of_rel {β : Type} {R : β → β → Prop} {o o' : Option β} (h : Option.Rel R o o') :
    o.isSome = o'.isSome := by
  cases h <;> rfl

theorem put_twin : MethodTwin put := by
  intro f args args' h
  refine .of_nodup fun hf => (arg_twin h 0).bind fun self self' hself =>
    (mapEntries_twin hself).bind fun _ _ hentries => (arg_twin h 1).bind fun _ _ hu =>
    (mapKey_twin hu).bind fun _ _ hk => (arg_twin h 2).bind fun _ _ hv => ?_
  cases hself with
  | ref hij =>
    exact (setHidden_twin hij (.table (setEntry_like hk hf hv hentries))).bind_eq fun _ =>
      .pure (getD_like (valueOfKey?_like hk hf hentries))
  | _ => exact Still.bind_eq .collapse fun _ => .pure (getD_like (valueOfKey?_like hk hf hentries))

theorem mapMethod?_twin (signature : String) : TableTwin (mapMethod? signature) := by
  have hinit : MethodTwin initMap := fun _ _ _ h =>
    (selfInstance_twin h).bind fun _ _ hij => (setHidden_twin hij (.table .nil)).bind_eq fun _ =>
      .pure .null
  unfold mapMethod?
  split
  · exact tableTwin_some hinit
  · exact tableTwin_some hinit
  · exact tableTwin_some fun _ _ _ h => .of_nodup fun hf => (arg_twin h 0).bind fun _ _ hv =>
      (mapEntries_twin hv).bind fun _ _ hentries => (arg_twin h 1).bind fun _ _ hu =>
      (mapKey_twin hu).bind fun _ _ hk => .pure (getD_like (valueOfKey?_like hk hf hentries))
  · exact tableTwin_some put_twin
  · refine tableTwin_some fun _ _ _ h => .of_nodup fun hf => (arg_twin h 0).bind fun _ _ hv =>
      (mapEntries_twin hv).bind fun _ _ hentries => (arg_twin h 1).bind fun _ _ hu =>
      (mapKey_twin hu).bind fun _ _ hk => ?_
    rw [isSome_of_rel (valueOfKey?_like hk hf hentries)]
    exact .pure (.int _)
  · refine tableTwin_some fun _ _ _ h => (arg_twin h 0).bind fun _ _ hv =>
      (mapEntries_twin hv).bind fun _ _ hentries => ?_
    rw [hentries.length_eq]
    exact .pure (.int _)
  · exact tableTwin_none

end Library

end Cleartext.Machine
