import Cleartext.Machine.Library
import Cleartext.Proofs.Machine.Inquiries
import Cleartext.Proofs.Quiet.Values

/-!
# The library at rest

No method of the library stores to a field.  Of who runs the code, four methods tell
(`Library.tells`), and every other method is quiet to runs with different identities.
With sight, all of them are.
-/

namespace Cleartext.Machine

namespace Library

open Machine.Run

variable {sight : Bool} {args : List Value}

/-- A method that was looked for is quiet, if there is one. -/
def Silent (sight : Bool) (found : Option LibraryMethod) : Prop :=
  ∀ method, found = some method → ∀ args, Quiet sight (method args)

theorem silent_none : Silent sight none := nofun

theorem silent_some {method : LibraryMethod} (h : ∀ args, Quiet sight (method args)) :
    Silent sight (some method) := fun _ hmethod => Option.some.inj hmethod ▸ h

/-! ## Builders -/

@[grind ←] theorem quiet_builderUnits (v : Value) : Quiet sight (builderUnits v) :=
  quiet_asHidden v fun _ hidden => by cases hidden <;> rfl

@[grind ←] theorem quiet_setBuilder (v : Value) (units : Units) : Quiet sight (setBuilder v units) := by
  unfold setBuilder
  split <;> grind

@[grind ←] theorem quiet_changeBuilder {change : Units → Run Units}
    (h : ∀ units, Quiet sight (change units)) : Quiet sight (changeBuilder args change) := by
  unfold changeBuilder
  grind

@[grind ←] theorem quiet_mutateBuilder {change : Units → Run Units}
    (h : ∀ units, Quiet sight (change units)) : Quiet sight (mutateBuilder args change) := by
  unfold mutateBuilder
  grind

@[grind ←] theorem quiet_checkPosition (units : Units) (i : Int32) (atEnd : Bool) :
    Quiet sight (checkPosition units i atEnd) := by
  unfold checkPosition
  grind

@[grind ←] theorem quiet_unitArg (i : Nat) : Quiet sight (unitArg args i) := by
  unfold unitArg
  grind

theorem silent_newBuilder (descriptor : String) : Silent sight (newBuilder? descriptor) := by
  have hfill (args : List Value) (units : Units) : Quiet sight (do
      setHidden (← selfInstance args) (.builder units)
      return nothing) := by
    grind
  have hinit (args : List Value) : Quiet sight (initBuilder args) := by
    rcases args with _ | ⟨self, _ | ⟨content, rest⟩⟩
    · exact quiet_bind (quiet_pure _) (hfill _)
    · exact quiet_bind (quiet_pure _) (hfill _)
    · cases content with
      | int => exact quiet_bind (quiet_pure _) (hfill _)
      | null => exact quiet_bind quiet_throwNull (hfill _)
      | _ => exact quiet_bind (quiet_unitsOf _ _) (hfill _)
  unfold newBuilder?
  split
  · exact silent_some hinit
  · exact silent_some hinit
  · exact silent_some hinit
  · exact silent_some hinit
  · exact silent_none

theorem silent_append (params : String) : Silent sight (append? params) := by
  have happend (type : String) (args : List Value) : Quiet sight (append type args) := by
    unfold append
    grind
  have hchars (args : List Value) : Quiet sight (appendChars args) := by
    unfold appendChars
    grind
  unfold append?
  split
  case h_10 => exact silent_some hchars
  case h_11 => exact silent_none
  all_goals exact silent_some (happend _)

theorem silent_plainBuilderMethod (signature : String) :
    Silent sight (plainBuilderMethod? signature) := by
  unfold plainBuilderMethod? builderCharAt setLength
  split
  case h_6 => exact silent_none
  all_goals exact silent_some fun args => by grind

theorem silent_chainedBuilderMethod (signature : String) :
    Silent sight (chainedBuilderMethod? signature) := by
  unfold chainedBuilderMethod?
  split
  case h_4 => exact silent_none
  all_goals exact silent_some fun args => by grind

theorem silent_builderMethod (cls name descriptor : String) :
    Silent sight (builderMethod? cls name descriptor) := by
  unfold builderMethod?
  split
  · exact silent_newBuilder descriptor
  · split
    · split
      · exact silent_append _
      · exact silent_chainedBuilderMethod _
    · exact silent_plainBuilderMethod _

/-! ## Strings -/

@[grind ←] theorem quiet_substring (units : Units) (start stop : Int32) :
    Quiet sight (substring units start stop) := by
  unfold substring
  grind

@[grind ←] theorem quiet_charset (name : Option Units) : Quiet sight (charset name) := by
  unfold charset
  refine quiet_read_bind (fun σ => by grind) fun σ σ' hσ => ?_
  rw [hσ.charsets]

@[grind ←] theorem quiet_encodeString (units : Units) (name : Option Units) :
    Quiet sight (encodeString units name) := by
  unfold encodeString
  grind

@[grind ←] theorem quiet_decodeBytes (bytes : Bytes) (name : Option Units) :
    Quiet sight (decodeBytes bytes name) := by
  unfold decodeBytes
  grind

@[grind ←] theorem quiet_rangeUnits (elements : Array Value) (start length : Int32) :
    Quiet sight (rangeUnits elements start length) := by
  unfold rangeUnits
  grind

/-- A string is filled in the place of another one. -/
@[grind ←] theorem quiet_fill (v : Value) (units : Units) : Quiet sight (fill v units) where
  blind := blind_bind (quiet_asString v).blind fun _ =>
    blind_bind (blind_update _ fun _ _ _ => rfl) fun _ => blind_pure _
  orderly := by
    intro σ w
    have hstring := Quiet.orderly (show Quiet sight (asString v) from quiet_asString v)
    refine evolves_bind hstring fun found w₁ hfound => ?_
    obtain ⟨id, old⟩ := found
    obtain ⟨-, hid, rfl⟩ := asString_ok hfound
    refine evolves_update (σ := σ) (f := fun _ => .string units) id fun o ho => ?_
    obtain rfl := Option.some.inj (hid.symm.trans ho)
    rfl

theorem silent_newString (descriptor : String) : Silent sight (newString? descriptor) := by
  unfold newString?
  split
  case h_7 => exact silent_none
  all_goals exact silent_some fun args => by grind

theorem silent_textOf (descriptor : String) : Silent sight (textOf? descriptor) := by
  unfold textOf? valueOf
  split
  case h_7 => exact silent_none
  all_goals exact silent_some fun args => by grind

@[grind ←] theorem quiet_stringEquals : Quiet sight (stringEquals args) := by
  unfold stringEquals
  refine quiet_bind (quiet_arg args 1) fun v => quiet_deref_bind v (fun o => ?_) fun _ o => by
    rcases o with _ | _ | _ | _ <;> rfl
  split <;> grind

@[grind ←] theorem quiet_replaceUnit : Quiet sight (replaceUnit args) := by
  unfold replaceUnit
  refine quiet_bind (quiet_selfUnits args) fun units => quiet_bind (quiet_mapM (fun u => ?_) units)
    fun _ => quiet_newUnits _
  grind

theorem silent_plainStringMethod (signature : String) :
    Silent sight (plainStringMethod? signature) := by
  unfold plainStringMethod? charAt indexOfUnit indexOfString concat
  split
  case h_17 => exact silent_none
  all_goals exact silent_some fun args => by grind

theorem silent_stringMethod (name descriptor : String) :
    Silent sight (stringMethod? name descriptor) := by
  unfold stringMethod?
  split
  · exact silent_newString descriptor
  · split
    · exact silent_textOf descriptor
    · exact silent_plainStringMethod _

/-! ## Objects and the system -/

theorem asArray_ok {σ : Setting} {w w' : World} {v : Value} {id : Nat} {component : String}
    {elements : Array Value} (h : asArray v σ w = (.ok (id, component, elements), w')) :
    w.heap[id]? = some (.array component elements) ∧ w' = w := by
  unfold asArray at h
  cases v with
  | null => exact (throwNew_ok.1 h).elim
  | ref i =>
    obtain ⟨o, w₁, ho, h⟩ := bind_ok.1 h
    obtain ⟨ho, rfl⟩ := object?_ok.1 ho
    rcases o with _ | _ | ⟨component', elements'⟩ | _
    case some.array =>
      obtain ⟨heq, rfl⟩ := pure_ok.1 h
      cases heq
      exact ⟨ho.symm, rfl⟩
    all_goals simp [bind_ok, unsupported_ok] at h
  | _ => simp [bind_ok, unsupported_ok] at h

theorem intArg_ok {σ : Setting} {w w' : World} {i : Nat} {n : Int32}
    (h : intArg args i σ w = (.ok n, w')) : w' = w := by
  obtain ⟨v, w₁, hv, hint⟩ := bind_ok.1 h
  obtain ⟨-, rfl⟩ := arg_ok.1 hv
  cases v <;> exact (pure_ok.1 hint).2

/-- Elements are copied into an array that stays what it is. -/
@[grind ←] theorem quiet_arrayCopy : Quiet sight (arrayCopy args) where
  blind := by
    have harg (i : Nat) : Blind sight (arg args i) (arg args i) := (quiet_arg args i).blind
    have hint (i : Nat) : Blind sight (intArg args i) (intArg args i) := (quiet_intArg args i).blind
    have harray (v : Value) : Blind sight (asArray v) (asArray v) := (quiet_asArray v).blind
    refine blind_bind (harg 0) fun _ => blind_bind (harray _) fun _ => blind_bind (harg 2) fun _ =>
      blind_bind (harray _) fun _ => blind_bind (hint 1) fun _ => blind_bind (hint 3) fun _ =>
      blind_bind (hint 4) fun _ => ?_
    extract_lets start position length moved elements copy
    have hcopy (u : Unit) : Blind sight (copy u) (copy u) :=
      blind_bind (blind_update _ fun _ _ _ => rfl) fun _ => blind_pure _
    split
    · exact blind_bind (quiet_throwNew _ _).blind hcopy
    · exact hcopy ()
  orderly := by
    intro σ w
    have harg (i : Nat) := Quiet.orderly (show Quiet sight (arg args i) from quiet_arg args i)
    have hint (i : Nat) := Quiet.orderly (show Quiet sight (intArg args i) from quiet_intArg args i)
    have harray (v : Value) := Quiet.orderly (show Quiet sight (asArray v) from quiet_asArray v)
    refine evolves_bind (harg 0) fun _ _ _ => evolves_bind (harray _) fun _ _ _ =>
      evolves_bind (harg 2) fun _ _ _ => evolves_bind (harray _) fun target w₁ htarget => ?_
    obtain ⟨id, component, elements⟩ := target
    obtain ⟨hid, rfl⟩ := asArray_ok htarget
    refine evolves_bind (hint 1) fun _ _ h₁ => evolves_bind (hint 3) fun _ _ h₂ =>
      evolves_bind (hint 4) fun _ _ h₃ => ?_
    obtain rfl := intArg_ok h₁
    obtain rfl := intArg_ok h₂
    obtain rfl := intArg_ok h₃
    dsimp only
    split
    · exact evolves_bind (Quiet.orderly (show Quiet sight _ from quiet_throwNew _ _)) fun _ _ h =>
        (throwNew_ok.1 h).elim
    · refine evolves_update (σ := σ) (f := fun _ => .array component _) id fun o ho => ?_
      obtain rfl := Option.some.inj (hid.symm.trans ho)
      rfl

theorem silent_arrayMethod (signature : String) : Silent sight (arrayMethod? signature) := by
  unfold arrayMethod?
  split
  · refine silent_some fun args => quiet_bind (quiet_arg args 0) fun v => quiet_deref_bind v
      (fun o => ?_) fun _ o => by rcases o with _ | _ | _ | _ <;> rfl
    split
    · exact quiet_new (by simp)
    · grind
  · exact silent_none

theorem silent_objectMethod (signature : String) : Silent sight (objectMethod? signature) := by
  unfold objectMethod?
  split
  case h_6 => exact silent_none
  all_goals exact silent_some fun args => by grind

theorem silent_systemMethod (signature : String) : Silent sight (systemMethod? signature) := by
  unfold systemMethod?
  split
  · exact silent_some fun args => quiet_arrayCopy
  · exact silent_some fun args => by grind
  · exact silent_none

/-! ## Numbers and characters -/

@[grind ←] theorem quiet_parseInt (v : Value) (base : Int32) : Quiet sight (parseInt v base) := by
  unfold parseInt throwFormat
  refine quiet_deref_bind v (fun o => ?_) fun _ o => by rcases o with _ | _ | _ | _ <;> rfl
  split <;> grind

@[grind ←] theorem quiet_boxedInt (v : Value) : Quiet sight (boxedInt v) :=
  quiet_asHidden v fun _ hidden => by cases hidden <;> rfl

@[grind ←] theorem quiet_boxedLong (v : Value) : Quiet sight (boxedLong v) :=
  quiet_asHidden v fun _ hidden => by cases hidden <;> rfl

theorem silent_integerMethod (signature : String) : Silent sight (integerMethod? signature) := by
  unfold integerMethod?
  split
  case h_8 => exact silent_none
  all_goals exact silent_some fun args => by grind

theorem silent_longMethod (signature : String) : Silent sight (longMethod? signature) := by
  unfold longMethod?
  split
  case h_4 => exact silent_none
  all_goals exact silent_some fun args => by grind

theorem silent_characterMethod (signature : String) : Silent sight (characterMethod? signature) := by
  unfold characterMethod?
  split
  case h_4 => exact silent_none
  all_goals exact silent_some fun args => by grind

theorem silent_mathMethod (signature : String) : Silent sight (mathMethod? signature) := by
  unfold mathMethod?
  split
  case h_5 => exact silent_none
  all_goals exact silent_some fun args => by grind

/-! ## Maps -/

@[grind ←] theorem quiet_mapKey (v : Value) : Quiet sight (mapKey v) := by
  refine quiet_deref_bind v (fun o => ?_) fun _ o => ?_
  · split
    · grind
    · split
      · split <;> grind
      · grind
    · grind
  · rcases o with _ | _ | _ | ⟨cls, fields, _ | _ | _ | _ | _ | _ | _⟩ <;> rfl

@[grind ←] theorem quiet_mapEntries (v : Value) : Quiet sight (mapEntries v) :=
  quiet_asHidden v fun _ hidden => by cases hidden <;> rfl

@[grind ←] theorem quiet_put : Quiet sight (put args) := by
  unfold put
  refine quiet_bind (quiet_arg args 0) fun self => quiet_bind (quiet_mapEntries self) fun entries =>
    quiet_bind (quiet_arg args 1) fun v => quiet_bind (quiet_mapKey v) fun key =>
    quiet_bind (quiet_arg args 2) fun v => ?_
  split <;> grind

theorem silent_mapMethod (signature : String) : Silent sight (mapMethod? signature) := by
  unfold mapMethod? initMap
  split
  case h_7 => exact silent_none
  all_goals exact silent_some fun args => by grind

/-! ## Who runs the code -/

/-- The methods that tell who runs the code: the call stack of the thread or of an exception,
the place that the code was loaded from, and the size of the caller's constant pool. -/
def telling : List (String × String) := [
    ("java/lang/Thread", "getStackTrace()[Ljava/lang/StackTraceElement;"),
    ("java/lang/Throwable", "getStackTrace()[Ljava/lang/StackTraceElement;"),
    ("java/security/ProtectionDomain", "getCodeSource()Ljava/security/CodeSource;"),
    ("sun/reflect/ConstantPool", "getSize()I"),
    ("jdk/internal/reflect/ConstantPool", "getSize()I")]

@[grind ←] theorem quiet_newStackTrace (frames : List StackFrame) :
    Quiet sight (newStackTrace frames) :=
  quiet_bind (quiet_mapM (fun _ => quiet_newHidden _ _) frames) fun _ => quiet_new (by simp)

theorem silent_threadMethod {signature : String}
    (h : sight = true ∨ ("java/lang/Thread", signature) ∉ telling) :
    Silent sight (threadMethod? signature) := by
  unfold threadMethod?
  split
  · refine silent_some fun args => quiet_world_bind (fun w => ?_) fun _ => rfl
    split
    · grind
    · exact quiet_bind (quiet_alloc (by simp)) fun id =>
        quiet_bind (quiet_modify (fun _ => rfl) (fun _ => rfl) fun _ => rfl) fun _ => quiet_pure _
  · have hsight : sight = true := h.resolve_right (by decide)
    refine silent_some fun args => quiet_callStack_bind
      (fun _ => Quiet.orderly (show Quiet sight _ from quiet_newStackTrace _))
      fun trace trace' htrace => ?_
    rw [htrace hsight]
    exact (quiet_newStackTrace _).blind
  · exact silent_none

/-- The message of an exception may decide what follows, and with sight its call stack. -/
theorem quiet_throwableState_bind (v : Value) {β : Type}
    {k : Option Nat × List StackFrame → Run β} (hk : ∀ state, Quiet sight (k state))
    (hmessage : sight = false → ∀ message trace trace', k (message, trace) = k (message, trace')) :
    Quiet sight (throwableState v >>= k) := by
  refine quiet_asHidden_bind v hk fun hsight hidden => ?_
  cases hidden with
  | throwable message trace => exact congrArg some (hmessage hsight message [] trace)
  | _ => rfl

/-- An exception gets the call stack that it is made on. -/
theorem quiet_setThrowable (id : Nat) (message : Option Nat) {k : Unit → Run Value}
    (hk : ∀ u, Quiet sight (k u)) :
    Quiet sight (do
      let trace ← callStack
      setHidden id (.throwable message trace)
      k ()) :=
  quiet_callStack_bind
    (fun _ => orderly_bind (orderly_setHidden _ _) fun _ => (hk ()).orderly)
    fun _ _ htrace => blind_bind (blind_setHidden fun _ _ => seen_throwable htrace)
      fun _ => (hk ()).blind

theorem silent_throwableMethod {signature : String}
    (h : sight = true ∨ ("java/lang/Throwable", signature) ∉ telling) :
    Silent sight (throwableMethod? signature) := by
  unfold throwableMethod?
  split
  · exact silent_some fun args => quiet_bind (quiet_selfInstance args) fun id =>
      quiet_setThrowable id none fun _ => quiet_pure _
  · refine silent_some fun args => quiet_bind (quiet_arg args 1) fun v => ?_
    have hinit (message : Option Nat) : Quiet sight (do
        setHidden (← selfInstance args) (.throwable message (← callStack))
        return nothing) :=
      quiet_bind (quiet_selfInstance args) fun id => quiet_setThrowable id message fun _ => quiet_pure _
    split
    · refine quiet_object_bind _ (fun o => ?_) fun _ o => by rcases o with _ | _ | _ | _ <;> rfl
      split
      · exact quiet_bind (quiet_pure _) hinit
      · exact quiet_bind (quiet_pure _) hinit
    · exact quiet_bind (quiet_pure _) hinit
  · exact silent_some fun args => quiet_bind (quiet_arg args 0) fun v =>
      quiet_throwableState_bind v (fun _ => by grind) fun _ _ _ _ => rfl
  · have hsight : sight = true := h.resolve_right (by decide)
    exact silent_some fun args => quiet_bind (quiet_arg args 0) fun v =>
      quiet_throwableState_bind v (fun _ => quiet_newStackTrace _) fun hblind => by
        rw [hsight] at hblind
        cases hblind
  · exact silent_some fun args => quiet_bind (quiet_arg args 0) fun self =>
      quiet_throwableState_bind self
        (fun state => quiet_bind (quiet_selfInstance args) fun id =>
          quiet_setThrowable id state.1 fun _ => quiet_pure _)
        fun _ _ _ _ => rfl
  · exact silent_none

@[grind ←] theorem quiet_stackFrame (v : Value) : Quiet sight (stackFrame v) :=
  quiet_asHidden v fun _ hidden => by cases hidden <;> rfl

theorem silent_stackElementMethod (signature : String) :
    Silent sight (stackElementMethod? signature) := by
  unfold stackElementMethod?
  split
  case h_5 => exact silent_none
  all_goals exact silent_some fun args => by grind

/-! ## Classes and where they come from -/

theorem silent_classMethod (signature : String) : Silent sight (classMethod? signature) := by
  unfold classMethod?
  split
  case h_6 => exact silent_none
  all_goals exact silent_some fun args => by grind

theorem silent_protectionDomainMethod {signature : String}
    (h : sight = true ∨ ("java/security/ProtectionDomain", signature) ∉ telling) :
    Silent sight (protectionDomainMethod? signature) := by
  unfold protectionDomainMethod?
  split
  · have hsight : sight = true := h.resolve_right (by decide)
    exact silent_some fun args => quiet_read_bind (fun σ => by grind) fun σ σ' hσ => by
      rw [hσ.codeSource hsight]
  · exact silent_none

theorem silent_codeSourceMethod (signature : String) : Silent sight (codeSourceMethod? signature) := by
  unfold codeSourceMethod?
  split
  · exact silent_some fun args => by grind
  · exact silent_none

theorem silent_urlMethod (signature : String) : Silent sight (urlMethod? signature) := by
  unfold urlMethod? locationPart
  split
  case h_6 => exact silent_none
  all_goals exact silent_some fun args => by grind

/-! ## The caller's constant pool -/

theorem quiet_poolSize (hsight : sight = true) (args : List Value) : Quiet sight (poolSize args) :=
  quiet_bind (quiet_arg args 0) fun v => quiet_bind (quiet_hiddenText v) fun name =>
    quiet_read_bind (fun σ => by grind) fun σ σ' hσ => by
      dsimp only
      rw [hσ.caller hsight, hσ.poolSize hsight]

theorem telling_getSize : ∀ p ∈ poolPackages, (p.2 ++ "/ConstantPool", "getSize()I") ∈ telling := by
  decide

theorem silent_poolMethod {owner signature : String}
    (h : sight = true ∨ (owner, signature) ∉ telling) : Silent sight (poolMethod? owner signature) := by
  intro method hmethod
  obtain ⟨p, hp, hin⟩ := List.exists_of_findSome?_eq_some hmethod
  revert hin
  unfold poolMethodIn?
  dsimp only
  split
  · exact silent_some (fun args => quiet_newHidden _ _) method
  · split
    · exact silent_some (fun args => by grind) method
    · split
      · rename_i hsize
        simp only [Bool.and_eq_true, decide_eq_true_eq] at hsize
        have hsight : sight = true := h.resolve_right fun hnot =>
          hnot (by rw [hsize.1, hsize.2]; exact telling_getSize p hp)
        exact silent_some (quiet_poolSize hsight) method
      · exact nofun

/-! ## All methods -/

/-- A method of the library is quiet unless it tells who runs the code, and with sight
always. -/
theorem silent_declared {owner name descriptor : String}
    (h : sight = true ∨ (owner, name ++ descriptor) ∉ telling) :
    Silent sight (declared? owner name descriptor) := by
  unfold declared?
  dsimp only
  split
  · exact silent_objectMethod _
  · exact silent_stringMethod _ _
  · exact silent_builderMethod _ _ _
  · exact silent_builderMethod _ _ _
  · exact silent_integerMethod _
  · exact silent_longMethod _
  · exact silent_characterMethod _
  · exact silent_mathMethod _
  · exact silent_systemMethod _
  · exact silent_threadMethod h
  · exact silent_throwableMethod h
  · exact silent_stackElementMethod _
  · exact silent_classMethod _
  · exact silent_protectionDomainMethod h
  · exact silent_codeSourceMethod _
  · exact silent_urlMethod _
  · exact silent_mapMethod _
  · exact silent_poolMethod h

/-- The library class that declares the method that a call means, when the receiver is an
instance of `owner`. -/
def declaring? (lineage : Lineage) (owner : String) (ref : Ref) : Option String :=
  (lineage.ancestors (if owner.startsWith "[" then topClass else owner) ++
    lineage.ancestors ref.owner).find? fun cls => (declared? cls ref.name ref.descriptor).isSome

/-- A call means a method that tells who runs the code. -/
def Tells (lineage : Lineage) (owner : String) (ref : Ref) : Prop :=
  ∃ cls, declaring? lineage owner ref = some cls ∧ (cls, ref.name ++ ref.descriptor) ∈ telling

theorem findSome?_eq_find?_bind {α β : Type} (f : α → Option β) (items : List α) :
    items.findSome? f = (items.find? fun a => (f a).isSome).bind f := by
  induction items with
  | nil => rfl
  | cons a rest ih =>
    cases h : f a <;> simp [h, ih]

/-- A call means a method of arrays, or the one that a class declares. -/
theorem method?_eq (lineage : Lineage) (owner : String) (ref : Ref) :
    method? lineage owner ref =
      (if owner.startsWith "[" then arrayMethod? (ref.name ++ ref.descriptor) else none).or
        ((declaring? lineage owner ref).bind fun cls => declared? cls ref.name ref.descriptor) := by
  unfold method? declaring?
  dsimp only
  split
  · rw [← findSome?_eq_find?_bind, Option.or_eq_orElse]
  · rw [← findSome?_eq_find?_bind, Option.none_or]

theorem silent_method {lineage : Lineage} {owner : String} {ref : Ref}
    (h : sight = true ∨ ¬ Tells lineage owner ref) : Silent sight (method? lineage owner ref) := by
  intro method hmethod
  rw [method?_eq, Option.or_eq_some_iff] at hmethod
  obtain hclone | ⟨-, hmethod⟩ := hmethod
  · exact silent_arrayMethod _ method (Option.ite_none_right_eq_some.1 hclone).2
  · obtain ⟨cls, hcls, hdeclared⟩ := Option.bind_eq_some_iff.1 hmethod
    refine silent_declared ?_ method hdeclared
    exact h.imp_right fun htells hmem => htells ⟨cls, hcls, hmem⟩

end Library

end Cleartext.Machine
