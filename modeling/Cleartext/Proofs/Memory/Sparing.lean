import Cleartext.Proofs.Quiet.Library
import Mathlib.Data.List.Infix

/-!
# Computations that spare the objects

Of an object the core stays: the units of a string, the number in a box, the entries of a map,
the class of an instance.  A computation may fill builders and change elements and fields, and
leaves the cores and the table of shared strings alone (`Run.Sparing`).  This goes through
`>>=`, from the primitive computations to the methods of the library.  The exceptions are
constructors, `put` and `intern`, on the object that they are called on.
-/

namespace Cleartext.Machine

/-! ## Cores -/

/-- The state of a library object without what its methods change. -/
def Hidden.core : Hidden → Hidden
  | .builder _ => .builder []
  | .throwable _ _ => .throwable Option.none []
  | hidden => hidden

/-- An object without its elements and fields, and without what methods change in it. -/
def Object.core : Object → Object
  | .string units => .string units
  | .array component _ => .array component #[]
  | .instance cls _ hidden => .instance cls none hidden.core

/-- The core of the object with the given number. -/
def World.core? (w : World) (id : Nat) : Option Object := w.heap[id]?.map Object.core

/-- A world in which the shared strings are the same, and the cores of all objects but one. -/
structure World.Spares (but : Option Value) (w w' : World) : Prop where
  interned : w'.interned = w.interned
  core : ∀ id o, but ≠ some (.ref id) → w.core? id = some o → w'.core? id = some o

namespace World

variable {id : Nat} {but : Option Value} {w w' w'' : World}

theorem core?_string {units : Units} :
    w.core? id = some (.string units) ↔ w.heap[id]? = some (.string units) := by
  unfold core?
  rcases w.heap[id]? with _ | _ | _ | _ <;> simp [Object.core]

theorem Spares.refl (but : Option Value) (w : World) : w.Spares but w := ⟨rfl, fun _ _ _ h => h⟩

theorem Spares.trans (h : w.Spares but w') (h' : w'.Spares but w'') : w.Spares but w'' :=
  ⟨h'.interned.trans h.interned, fun id o hid ho => h'.core id o hid (h.core id o hid ho)⟩

theorem Spares.weaken (h : w.Spares none w') : w.Spares but w' :=
  ⟨h.interned, fun id o _ => h.core id o nofun⟩

theorem core?_push {o o' : Object} (h : w.core? id = some o) :
    core? { w with heap := w.heap.push o' } id = some o := by
  obtain ⟨found, hfound, rfl⟩ := Option.map_eq_some_iff.1 h
  exact Option.map_eq_some_iff.2 ⟨found, getElem?_push hfound, rfl⟩

theorem spares_push (but : Option Value) (w : World) (o : Object) :
    w.Spares but { w with heap := w.heap.push o } :=
  ⟨rfl, fun _ _ _ => core?_push⟩

end World

namespace Run

variable {but : Option Value} {α β : Type} {r : Run α} {k : α → Run β} {σ : Setting} {w : World}

/-- A computation leaves the shared strings and the cores of all objects alone. -/
def Sparing (but : Option Value) (r : Run α) : Prop :=
  ∀ (σ : Setting) (w : World), w.Spares but (r σ w).2

theorem spares_bind (h : w.Spares but (r σ w).2)
    (hk : ∀ a w₁, r σ w = (.ok a, w₁) → w₁.Spares but (k a σ w₁).2) :
    w.Spares but ((r >>= k) σ w).2 :=
  world_bind .trans h hk

@[grind ←] theorem sparing_bind (h : Sparing but r) (hk : ∀ a, Sparing but (k a)) : Sparing but (r >>= k) :=
  fun σ w => spares_bind (h σ w) fun a w₁ _ => hk a σ w₁

theorem sparing_of_same (h : ∀ σ w, (r σ w).2 = w) : Sparing but r := fun σ w => by
  rw [h]
  exact .refl _ _

@[grind ←] theorem sparing_pure (a : α) : Sparing but (pure a : Run α) := sparing_of_same fun _ _ => rfl

@[grind ←] theorem sparing_throw (h : Halt) : Sparing but (throw h : Run α) :=
  sparing_of_same fun _ _ => rfl

@[grind ←] theorem sparing_read : Sparing but (read : Run Setting) := sparing_of_same fun _ _ => rfl

@[grind ←] theorem sparing_world : Sparing but (getThe World : Run World) :=
  sparing_of_same fun _ _ => rfl

@[grind ←] theorem sparing_unsupported (lack : Lack) : Sparing but (unsupported lack : Run α) :=
  sparing_throw _

@[grind ←] theorem sparing_collapse : Sparing but (collapse : Run α) := sparing_throw _

@[grind ←] theorem sparing_lift (answer : Except Error α) : Sparing but (Machine.lift answer) := by
  unfold Machine.lift
  split <;> grind

@[grind ←] theorem sparing_map {f : α → β} (h : Sparing but r) : Sparing but (f <$> r) :=
  sparing_bind h fun _ => sparing_pure _

@[grind ←] theorem sparing_alloc (o : Object) : Sparing but (alloc o) := fun _ w => w.spares_push _ o

@[grind ←] theorem sparing_new (o : Object) : Sparing but (new o) := by
  unfold new
  grind

/-- A change of what is no object and no shared string. -/
theorem sparing_modify {f : World → World} (hheap : ∀ w, (f w).heap = w.heap)
    (hinterned : ∀ w, (f w).interned = w.interned) : Sparing but (modify f : Run Unit) := fun _ w =>
  ⟨hinterned w, fun i _ _ h => (congrArg (·[i]?.map Object.core) (hheap w)).trans h⟩

/-- An object is changed that is the one that may, or has the same core behind it. -/
theorem spares_update {i : Nat} {f : Object → Object}
    (hf : but ≠ some (.ref i) → ∀ o, w.heap[i]? = some o → (f o).core = o.core) :
    w.Spares but (update i f σ w).2 := by
  refine ⟨rfl, fun j o hbut h => ?_⟩
  show ((w.heap.modify i f)[j]?).map Object.core = some o
  rw [Array.getElem?_modify]
  split
  · rename_i hij
    subst hij
    obtain ⟨o', ho', rfl⟩ := Option.map_eq_some_iff.1 h
    rw [ho', Option.map_some, Option.map_some, hf hbut o' ho']
  · exact h

theorem sparing_update (i : Nat) {f : Object → Object} (hf : ∀ o, (f o).core = o.core) :
    Sparing but (update i f) := fun _ _ => spares_update fun _ o _ => hf o

/-- The state of an instance is changed to one with the same core. -/
theorem spares_setHidden {i : Nat} {hidden : Hidden}
    (h : ∀ cls fields old, w.heap[i]? = some (.instance cls fields old) → hidden.core = old.core) :
    w.Spares but (setHidden i hidden σ w).2 := by
  refine spares_update fun _ o ho => ?_
  rcases o with _ | _ | ⟨cls, fields, old⟩
  · rfl
  · rfl
  · exact congrArg (Object.instance cls none) (h cls fields old ho)

/-- The state of the instance is changed that may be. -/
@[grind ←] theorem sparing_setHidden {i : Nat} (h : but = some (.ref i)) (hidden : Hidden) :
    Sparing but (setHidden i hidden) := fun _ _ => spares_update fun hbut => absurd h hbut

@[grind ←] theorem sparing_object (i : Nat) : Sparing but (object? i) := sparing_of_same fun _ _ => rfl

@[grind ←] theorem sparing_deref (v : Value) : Sparing but (deref? v) := by
  unfold deref?
  split <;> grind

@[grind ←] theorem sparing_mapM {γ : Type} {f : γ → Run β} (hf : ∀ c, Sparing but (f c))
    (items : List γ) : Sparing but (items.mapM f) := by
  induction items with
  | nil => exact sparing_pure []
  | cons c rest ih =>
    rw [List.mapM_cons]
    exact sparing_bind (hf c) fun _ => sparing_bind ih fun _ => sparing_pure _

/-! ## Exceptions -/

@[grind ←] theorem sparing_callStack : Sparing but callStack := by
  unfold callStack
  grind

@[grind ←] theorem sparing_stringText (i : Nat) : Sparing but (stringText i) := by
  unfold stringText
  grind

@[grind ←] theorem sparing_throwNew (cls message : String) :
    Sparing but (throwNew cls message : Run α) := by
  unfold throwNew
  grind

@[grind ←] theorem sparing_throwNull : Sparing but (throwNull : Run α) := sparing_throwNew _ _

/-! ## Classes and kinds -/

@[grind ←] theorem sparing_runtimeClass (v : Value) : Sparing but (runtimeClass v) := by
  unfold runtimeClass
  grind

@[grind ←] theorem sparing_className (v : Value) : Sparing but (className v) := by
  unfold className
  grind

@[grind ←] theorem sparing_kindName (v : Value) : Sparing but (kindName v) := by
  unfold kindName
  grind

@[grind ←] theorem sparing_arrayInstanceOf (component cls : String) :
    Sparing but (arrayInstanceOf component cls) := by
  unfold arrayInstanceOf
  repeat' split
  all_goals grind

@[grind ←] theorem sparing_instanceOf (v : Value) (cls : String) : Sparing but (instanceOf v cls) := by
  unfold instanceOf
  grind

/-! ## Shared objects -/

@[grind ←] theorem sparing_mirror (cls : String) : Sparing but (mirror cls) := by
  unfold mirror
  refine sparing_bind sparing_world fun w => ?_
  split
  · grind
  · exact sparing_bind (sparing_alloc _) fun id =>
      sparing_bind (sparing_modify (fun _ => rfl) fun _ => rfl) fun _ => sparing_pure _

@[grind ←] theorem sparing_identityHash (v : Value) : Sparing but (identityHash v) := by
  unfold identityHash
  refine sparing_bind sparing_world fun w => ?_
  dsimp only
  split
  · grind
  · exact sparing_bind (sparing_modify (fun _ => rfl) fun _ => rfl) fun _ => sparing_pure _

/-! ## New objects -/

@[grind ←] theorem sparing_newUnits (units : Units) : Sparing but (newUnits units) := sparing_new _

@[grind ←] theorem sparing_newText (text : String) : Sparing but (newText text) := sparing_new _

@[grind ←] theorem sparing_newHidden (cls : String) (hidden : Hidden) :
    Sparing but (newHidden cls hidden) :=
  sparing_new _

@[grind ←] theorem sparing_newChars (units : Units) : Sparing but (newChars units) := sparing_new _

@[grind ←] theorem sparing_newBytes (bytes : Bytes) : Sparing but (newBytes bytes) := sparing_new _

/-! ## Arguments -/

@[grind ←] theorem sparing_arg (args : List Value) (i : Nat) : Sparing but (arg args i) := by
  unfold arg
  split <;> grind

@[grind ←] theorem sparing_intArg (args : List Value) (i : Nat) : Sparing but (intArg args i) := by
  unfold intArg
  grind

@[grind ←] theorem sparing_longArg (args : List Value) (i : Nat) : Sparing but (longArg args i) := by
  unfold longArg
  grind

@[grind ←] theorem sparing_selfUnits (args : List Value) : Sparing but (selfUnits args) := by
  unfold selfUnits
  grind

@[grind ←] theorem sparing_selfInstance (args : List Value) : Sparing but (selfInstance args) := by
  unfold selfInstance
  grind

@[grind ←] theorem sparing_asString (v : Value) : Sparing but (asString v) := by
  unfold asString
  grind

@[grind ←] theorem sparing_asArray (v : Value) : Sparing but (asArray v) := by
  unfold asArray
  grind

@[grind ←] theorem sparing_asHidden (v : Value) (pick : Hidden → Option α) :
    Sparing but (asHidden v pick) := by
  unfold asHidden
  grind

@[grind ←] theorem sparing_hiddenText (v : Value) : Sparing but (hiddenText v) := sparing_asHidden v _

/-! ## The texts of values -/

@[grind ←] theorem sparing_hashedName (name : String) (v : Value) :
    Sparing but (hashedName name v) := by
  unfold hashedName
  grind

@[grind ←] theorem sparing_plainUnits (v : Value) (type : String) :
    Sparing but (plainUnits v type) := by
  unfold plainUnits
  grind

@[grind ←] theorem sparing_unitsOf (v : Value) (type : String) : Sparing but (unitsOf v type) := by
  refine sparing_bind (sparing_deref v) fun o => ?_
  dsimp only
  repeat' split
  all_goals grind

end Run

namespace Library

open Cleartext.Machine.Run

variable {but : Option Value} {args : List Value}

/-- A method that was looked for spares the objects, if there is one. -/
def Spares (but : Option Value) (found : Option LibraryMethod) (args : List Value) : Prop :=
  ∀ method, found = some method → Run.Sparing but (method args)

theorem spares_none : Spares but none args := nofun

theorem spares_some {method : LibraryMethod} (h : Sparing but (method args)) :
    Spares but (some method) args := fun _ hmethod => Option.some.inj hmethod ▸ h

/-- A method is a constructor. -/
def IsInit (name descriptor : String) : Prop := "<init>(".toList <+: (name ++ descriptor).toList

instance (name descriptor : String) : Decidable (IsInit name descriptor) :=
  inferInstanceAs (Decidable (_ <+: _))

/-- A method gives a key of a map a value. -/
def IsPut (cls name descriptor : String) : Prop :=
  cls = "java/util/HashMap" ∧
    name ++ descriptor = "put(Ljava/lang/Object;Ljava/lang/Object;)Ljava/lang/Object;"

instance (cls name descriptor : String) : Decidable (IsPut cls name descriptor) :=
  inferInstanceAs (Decidable (_ ∧ _))

theorem selfInstance_ok {σ : Setting} {w w' : World} {i : Nat}
    (h : selfInstance args σ w = (.ok i, w')) : args[0]? = some (.ref i) ∧ w' = w := by
  obtain ⟨v, w₁, hv, hself⟩ := bind_ok.1 h
  obtain ⟨hfirst, rfl⟩ := arg_ok.1 hv
  cases v with
  | ref id =>
    obtain ⟨o, w₂, ho, hpick⟩ := bind_ok.1 hself
    obtain ⟨-, rfl⟩ := object?_ok.1 ho
    rcases o with _ | _ | _ | ⟨cls, fields, hidden⟩
    case some.instance =>
      obtain ⟨rfl, rfl⟩ := pure_ok.1 hpick
      exact ⟨hfirst, rfl⟩
    all_goals cases throw_ok.1 hpick
  | _ => cases throw_ok.1 hself

/-- What follows the number of the receiver may change the receiver. -/
@[grind ←] theorem sparing_selfInstance_bind {β : Type} {k : Nat → Run β}
    (hk : ∀ i, args[0]? = some (.ref i) → Sparing but (k i)) :
    Sparing but (selfInstance args >>= k) := fun σ w =>
  spares_bind (sparing_selfInstance args σ w) fun i w₁ hself => hk i (selfInstance_ok hself).1 σ w₁

/-! ## Builders -/

@[grind ←] theorem sparing_builderUnits (v : Value) : Sparing but (builderUnits v) :=
  sparing_asHidden v _

/-- A builder has other units, and stays a builder. -/
@[grind ←] theorem sparing_changeBuilder {change : Units → Run Units}
    (h : ∀ units, Sparing none (change units)) : Sparing but (changeBuilder args change) := by
  intro σ w
  refine spares_bind (sparing_arg _ _ _ _) fun self w₁ _ => ?_
  refine spares_bind (sparing_builderUnits _ _ _) fun units w₂ hself => ?_
  obtain ⟨i, cls, fields, hidden, rfl, hi, hpick, rfl⟩ := asHidden_ok.1 hself
  refine spares_bind (h _ _ _).weaken fun units' w₃ hchange => ?_
  refine spares_bind (spares_setHidden fun cls' fields' old hold => ?_) fun _ _ _ => .refl _ _
  -- The change leaves a builder a builder.
  have hcore := (h units σ w₂).core i (.instance cls none hidden.core) nofun
    (Option.map_eq_some_iff.2 ⟨_, hi, rfl⟩)
  rw [hchange] at hcore
  obtain ⟨o, ho, heq⟩ := Option.map_eq_some_iff.1 hcore
  obtain rfl := Option.some.inj (hold.symm.trans ho)
  cases hidden with
  | builder => exact (Object.instance.inj heq).2.2.symm
  | _ => cases hpick

@[grind ←] theorem sparing_checkPosition (units : Units) (i : Int32) (atEnd : Bool) :
    Sparing but (checkPosition units i atEnd) := by
  unfold checkPosition
  grind

@[grind ←] theorem sparing_unitArg (i : Nat) : Sparing but (unitArg args i) := by
  unfold unitArg
  grind

theorem sparing_initBuilder (hself : but = args[0]?) : Sparing but (initBuilder args) := by
  have hfill (units : Units) : Sparing but (do
      setHidden (← selfInstance args) (.builder units)
      return nothing) := by
    grind
  rcases args with _ | ⟨self, _ | ⟨content, rest⟩⟩
  · exact sparing_bind (sparing_pure _) hfill
  · exact sparing_bind (sparing_pure _) hfill
  · cases content with
    | int => exact sparing_bind (sparing_pure _) hfill
    | null => exact sparing_bind sparing_throwNull hfill
    | _ => exact sparing_bind (sparing_unitsOf _ _) hfill

theorem spares_builderMethod_of_ne {cls name descriptor : String} (hname : name ≠ "<init>") :
    Spares but (builderMethod? cls name descriptor) args := by
  have happend (type : String) : Sparing but (append type args) := by
    unfold append
    grind
  have hchars : Sparing but (appendChars args) := by
    unfold appendChars
    grind
  unfold builderMethod? append? chainedBuilderMethod? plainBuilderMethod? builderCharAt setLength
    mutateBuilder
  rw [if_neg hname]
  repeat' split
  all_goals first | exact spares_none | exact spares_some (by grind)

theorem spares_builderMethod {cls name descriptor : String}
    (hself : IsInit name descriptor → but = args[0]?) :
    Spares but (builderMethod? cls name descriptor) args := by
  by_cases hname : name = "<init>"
  · subst hname
    unfold builderMethod? newBuilder?
    rw [if_pos rfl]
    split
    case h_5 => exact spares_none
    all_goals exact spares_some (sparing_initBuilder (hself (by decide)))
  · exact spares_builderMethod_of_ne hname

/-! ## Strings -/

@[grind ←] theorem sparing_substring (units : Units) (start stop : Int32) :
    Sparing but (substring units start stop) := by
  unfold substring
  grind

@[grind ←] theorem sparing_charset (name : Option Units) : Sparing but (charset name) := by
  unfold charset
  grind

@[grind ←] theorem sparing_encodeString (units : Units) (name : Option Units) :
    Sparing but (encodeString units name) := by
  unfold encodeString
  grind

@[grind ←] theorem sparing_decodeBytes (bytes : Bytes) (name : Option Units) :
    Sparing but (decodeBytes bytes name) := by
  unfold decodeBytes
  grind

@[grind ←] theorem sparing_rangeUnits (elements : Array Value) (start length : Int32) :
    Sparing but (rangeUnits elements start length) := by
  unfold rangeUnits
  grind

theorem sparing_arg_bind {β : Type} {i : Nat} {k : Value → Run β}
    (hk : ∀ v, args[i]? = some v → Sparing but (k v)) : Sparing but (arg args i >>= k) := by
  intro σ w
  refine spares_bind (sparing_arg args i σ w) fun v w₁ hv => ?_
  exact hk v (arg_ok.1 hv).1 σ w₁

/-- The string is filled that may be. -/
theorem sparing_fill {v : Value} (hv : but = some v) (units : Units) : Sparing but (fill v units) := by
  intro σ w
  refine spares_bind (sparing_asString v σ w) fun found w₁ hfound => ?_
  obtain ⟨i, old⟩ := found
  obtain ⟨rfl, -, rfl⟩ := asString_ok hfound
  exact spares_bind (spares_update fun hbut => absurd hv hbut) fun _ _ _ => .refl _ _

theorem spares_newString {descriptor : String} (hself : but = args[0]?) :
    Spares but (newString? descriptor) args := by
  have hfill (v : Value) (hv : args[0]? = some v) (units : Units) : Sparing but (fill v units) :=
    sparing_fill (hself.trans hv) units
  unfold newString?
  split
  case h_7 => exact spares_none
  all_goals exact spares_some (by grind [sparing_arg_bind])

theorem spares_textOf (descriptor : String) : Spares but (textOf? descriptor) args := by
  unfold textOf? valueOf
  split
  case h_7 => exact spares_none
  all_goals exact spares_some (by grind)

theorem spares_plainStringMethod {signature : String} (h : signature ≠ "intern()Ljava/lang/String;") :
    Spares but (plainStringMethod? signature) args := by
  unfold plainStringMethod? charAt indexOfUnit indexOfString concat stringEquals replaceUnit
  split
  case h_9 => exact absurd rfl h
  case h_17 => exact spares_none
  all_goals exact spares_some (by grind)

/-- A method of strings that is no constructor spares all objects. -/
theorem spares_stringMethod_of_ne {name descriptor : String} (hname : name ≠ "<init>")
    (hintern : name ++ descriptor ≠ "intern()Ljava/lang/String;") :
    Spares but (stringMethod? name descriptor) args := by
  unfold stringMethod?
  rw [if_neg hname]
  split
  · exact spares_textOf descriptor
  · exact spares_plainStringMethod hintern

theorem spares_stringMethod {name descriptor : String}
    (hintern : name ++ descriptor ≠ "intern()Ljava/lang/String;")
    (hself : IsInit name descriptor → but = args[0]?) :
    Spares but (stringMethod? name descriptor) args := by
  by_cases hname : name = "<init>"
  · subst hname
    unfold stringMethod?
    rw [if_pos rfl]
    by_cases hinit : IsInit "<init>" descriptor
    · exact spares_newString (hself hinit)
    · -- Without a list of parameters it is no constructor.
      unfold newString?
      split
      case h_7 => exact spares_none
      all_goals exact absurd (by decide) hinit
  · exact spares_stringMethod_of_ne hname hintern

/-! ## Objects and the system -/

theorem spares_objectMethod (signature : String) : Spares but (objectMethod? signature) args := by
  unfold objectMethod?
  split
  case h_6 => exact spares_none
  all_goals exact spares_some (by grind)

theorem spares_arrayMethod (signature : String) : Spares but (arrayMethod? signature) args := by
  unfold arrayMethod? cloneArray
  split
  · exact spares_some (by grind)
  · exact spares_none

/-- Elements are copied into an array, which stays an array. -/
theorem sparing_arrayCopy : Sparing but (arrayCopy args) := by
  intro σ w
  refine spares_bind (sparing_arg _ _ _ _) fun _ _ _ => spares_bind (sparing_asArray _ _ _) fun _ _ _ =>
    spares_bind (sparing_arg _ _ _ _) fun _ _ _ => spares_bind (sparing_asArray _ _ _)
    fun target w₁ htarget => ?_
  obtain ⟨i, component, elements⟩ := target
  obtain ⟨harray, rfl⟩ := asArray_ok htarget
  refine spares_bind (sparing_intArg _ _ _ _) fun _ _ h₁ => spares_bind (sparing_intArg _ _ _ _)
    fun _ _ h₂ => spares_bind (sparing_intArg _ _ _ _) fun _ _ h₃ => ?_
  obtain rfl := intArg_ok h₁
  obtain rfl := intArg_ok h₂
  obtain rfl := intArg_ok h₃
  dsimp only
  split
  · exact spares_bind (sparing_throwNew _ _ _ _) fun _ _ h => (throwNew_ok.1 h).elim
  · refine spares_bind (spares_update fun _ o ho => ?_) fun _ _ _ => .refl _ _
    obtain rfl := Option.some.inj (harray.symm.trans ho)
    rfl

theorem spares_systemMethod (signature : String) : Spares but (systemMethod? signature) args := by
  unfold systemMethod?
  split
  · exact spares_some sparing_arrayCopy
  · exact spares_some (by grind)
  · exact spares_none

/-! ## Numbers and characters -/

@[grind ←] theorem sparing_parseInt (v : Value) (base : Int32) : Sparing but (parseInt v base) := by
  unfold parseInt throwFormat
  grind

@[grind ←] theorem sparing_boxedInt (v : Value) : Sparing but (boxedInt v) := sparing_asHidden v _

@[grind ←] theorem sparing_boxedLong (v : Value) : Sparing but (boxedLong v) := sparing_asHidden v _

theorem spares_integerMethod (signature : String) : Spares but (integerMethod? signature) args := by
  unfold integerMethod?
  split
  case h_8 => exact spares_none
  all_goals exact spares_some (by grind)

theorem spares_longMethod (signature : String) : Spares but (longMethod? signature) args := by
  unfold longMethod?
  split
  case h_4 => exact spares_none
  all_goals exact spares_some (by grind)

theorem spares_characterMethod (signature : String) : Spares but (characterMethod? signature) args := by
  unfold characterMethod?
  split
  case h_4 => exact spares_none
  all_goals exact spares_some (by grind)

theorem spares_mathMethod (signature : String) : Spares but (mathMethod? signature) args := by
  unfold mathMethod?
  split
  case h_5 => exact spares_none
  all_goals exact spares_some (by grind)

/-! ## Maps -/

@[grind ←] theorem sparing_mapKey (v : Value) : Sparing but (mapKey v) := by
  unfold mapKey
  grind

@[grind ←] theorem sparing_mapEntries (v : Value) : Sparing but (mapEntries v) := sparing_asHidden v _

theorem sparing_put (hself : but = args[0]?) : Sparing but (put args) := by
  unfold put
  refine sparing_arg_bind fun self hfirst => sparing_bind (sparing_mapEntries _) fun entries =>
    sparing_bind (sparing_arg _ _) fun v => sparing_bind (sparing_mapKey v) fun key =>
    sparing_bind (sparing_arg _ _) fun v => ?_
  split <;> grind

theorem spares_mapMethod {name descriptor : String}
    (hself : IsInit name descriptor ∨ IsPut "java/util/HashMap" name descriptor → but = args[0]?) :
    Spares but (mapMethod? (name ++ descriptor)) args := by
  have hinit (h : IsInit name descriptor) : Sparing but (initMap args) := by
    have hbut := hself (.inl h)
    unfold initMap
    grind
  generalize hsignature : name ++ descriptor = signature
  unfold IsInit at hinit
  rw [hsignature] at hinit
  unfold mapMethod?
  split
  case h_1 | h_2 => exact spares_some (hinit (by decide))
  case h_4 => exact spares_some (sparing_put (hself (.inr ⟨rfl, hsignature⟩)))
  case h_7 => exact spares_none
  all_goals exact spares_some (by grind)

/-! ## Who runs the code -/

@[grind ←] theorem sparing_newStackTrace (frames : List StackFrame) :
    Sparing but (newStackTrace frames) :=
  sparing_bind (sparing_mapM (fun _ => sparing_newHidden _ _) frames) fun _ => sparing_new _

theorem spares_threadMethod (signature : String) : Spares but (threadMethod? signature) args := by
  unfold threadMethod?
  split
  · refine spares_some (sparing_bind sparing_world fun w => ?_)
    split
    · grind
    · exact sparing_bind (sparing_alloc _) fun _ =>
        sparing_bind (sparing_modify (fun _ => rfl) fun _ => rfl) fun _ => sparing_pure _
  · exact spares_some (by grind)
  · exact spares_none

@[grind ←] theorem sparing_throwableState (v : Value) : Sparing but (throwableState v) :=
  sparing_asHidden v _

/-- The call stack of an exception is another one, and it stays an exception. -/
theorem sparing_fillInStackTrace : Sparing but (do
    let self ← arg args 0
    let (message, _) ← throwableState self
    setHidden (← selfInstance args) (.throwable message (← callStack))
    return self) := by
  intro σ w
  refine spares_bind (sparing_arg _ _ _ _) fun self w₁ hfirst => ?_
  refine spares_bind (sparing_throwableState _ _ _) fun state w₂ hstate => ?_
  obtain ⟨i, cls, fields, hidden, rfl, hi, hpick, rfl⟩ := asHidden_ok.1 hstate
  refine spares_bind (sparing_selfInstance _ _ _) fun j w₃ hself => ?_
  obtain ⟨hj, rfl⟩ := selfInstance_ok hself
  refine spares_bind (sparing_callStack _ _) fun trace w₄ htrace => ?_
  obtain rfl : w₃ = w₄ := congrArg Prod.snd htrace
  refine spares_bind (spares_setHidden fun cls' fields' old hold => ?_) fun _ _ _ => .refl _ _
  cases (arg_ok.1 hfirst).1.symm.trans hj
  cases hi.symm.trans hold
  cases hidden with
  | throwable => rfl
  | _ => cases hpick

theorem spares_throwableMethod {name descriptor : String}
    (hself : IsInit name descriptor → but = args[0]?) :
    Spares but (throwableMethod? (name ++ descriptor)) args := by
  have hinit (h : IsInit name descriptor) (message : Option Nat) : Sparing but (do
      setHidden (← selfInstance args) (.throwable message (← callStack))
      return nothing) := by
    have hbut := hself h
    grind
  unfold IsInit at hinit
  generalize name ++ descriptor = signature at hinit
  unfold throwableMethod?
  split
  case h_1 => exact spares_some (hinit (by decide) _)
  case h_2 =>
    refine spares_some (sparing_bind (sparing_arg _ _) fun v => ?_)
    split
    · refine sparing_bind (sparing_object _) fun o => ?_
      split <;> exact sparing_bind (sparing_pure _) (hinit (by decide))
    · exact sparing_bind (sparing_pure _) (hinit (by decide))
  case h_5 => exact spares_some sparing_fillInStackTrace
  case h_6 => exact spares_none
  all_goals exact spares_some (by grind)

@[grind ←] theorem sparing_stackFrame (v : Value) : Sparing but (stackFrame v) := sparing_asHidden v _

theorem spares_stackElementMethod (signature : String) :
    Spares but (stackElementMethod? signature) args := by
  unfold stackElementMethod?
  split
  case h_5 => exact spares_none
  all_goals exact spares_some (by grind)

/-! ## Classes and where they come from -/

theorem spares_classMethod (signature : String) : Spares but (classMethod? signature) args := by
  unfold classMethod?
  split
  case h_6 => exact spares_none
  all_goals exact spares_some (by grind)

theorem spares_protectionDomainMethod (signature : String) :
    Spares but (protectionDomainMethod? signature) args := by
  unfold protectionDomainMethod?
  split
  · exact spares_some (by grind)
  · exact spares_none

theorem spares_codeSourceMethod (signature : String) :
    Spares but (codeSourceMethod? signature) args := by
  unfold codeSourceMethod?
  split
  · exact spares_some (by grind)
  · exact spares_none

theorem spares_urlMethod (signature : String) : Spares but (urlMethod? signature) args := by
  unfold urlMethod? locationPart
  split
  case h_6 => exact spares_none
  all_goals exact spares_some (by grind)

theorem spares_poolMethod (owner signature : String) : Spares but (poolMethod? owner signature) args := by
  intro method hmethod
  obtain ⟨p, -, hin⟩ := List.exists_of_findSome?_eq_some hmethod
  revert hin
  unfold poolMethodIn? poolSize
  dsimp only
  repeat' split
  all_goals first | exact spares_none method | exact spares_some (by grind) method

/-! ## All methods -/

/-- A method asks for a shared string. -/
def IsIntern (cls name descriptor : String) : Prop :=
  cls = "java/lang/String" ∧ name ++ descriptor = "intern()Ljava/lang/String;"

instance (cls name descriptor : String) : Decidable (IsIntern cls name descriptor) :=
  inferInstanceAs (Decidable (_ ∧ _))

/-- A method may change what it is called on: it is a constructor, or gives a key of a map a
value. -/
def IsChange (cls name descriptor : String) : Prop :=
  IsInit name descriptor ∨ IsPut cls name descriptor

instance (cls name descriptor : String) : Decidable (IsChange cls name descriptor) :=
  inferInstanceAs (Decidable (_ ∨ _))

theorem spares_declared {owner name descriptor : String} (hintern : ¬ IsIntern owner name descriptor)
    (hself : IsChange owner name descriptor → but = args[0]?) :
    Spares but (declared? owner name descriptor) args := by
  unfold declared?
  dsimp only
  split
  · exact spares_objectMethod _
  · exact spares_stringMethod (fun h => hintern ⟨rfl, h⟩) fun h => hself (.inl h)
  · exact spares_builderMethod fun h => hself (.inl h)
  · exact spares_builderMethod fun h => hself (.inl h)
  · exact spares_integerMethod _
  · exact spares_longMethod _
  · exact spares_characterMethod _
  · exact spares_mathMethod _
  · exact spares_systemMethod _
  · exact spares_threadMethod _
  · exact spares_throwableMethod fun h => hself (.inl h)
  · exact spares_stackElementMethod _
  · exact spares_classMethod _
  · exact spares_protectionDomainMethod _
  · exact spares_codeSourceMethod _
  · exact spares_urlMethod _
  · exact spares_mapMethod hself
  · exact spares_poolMethod _ _

/-- A method that was looked for is one of arrays, or the one that a class declares. -/
theorem method?_cases {lineage : Lineage} {owner : String} {ref : Ref} {method : LibraryMethod}
    (h : method? lineage owner ref = some method) :
    arrayMethod? (ref.name ++ ref.descriptor) = some method ∨
      ∃ cls, declaring? lineage owner ref = some cls ∧
        declared? cls ref.name ref.descriptor = some method := by
  rw [method?_eq, Option.or_eq_some_iff] at h
  obtain hclone | ⟨-, hmethod⟩ := h
  · exact .inl (Option.ite_none_right_eq_some.1 hclone).2
  · exact .inr (Option.bind_eq_some_iff.1 hmethod)

end Library

end Cleartext.Machine
