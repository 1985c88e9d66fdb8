import Cleartext.Proofs.Maps.Keys
import Cleartext.Proofs.Memory.Requests

/-!
# Keys that are equal

Maps compare their keys by themselves, and do not call `equals`.  For objects whose class has no
method `equals` of its own it comes to the same, except for boxes: two boxes of one class with the
same content are one key, and by the `equals` of every object they are not equal.

* `World.invoke_equals`: what a call of `equals` answers.
* `World.sameKey_iff`: two values are the same key just if they match by `equals`, or are twins.
* `World.AreTwins.not_matches`: twins do not match.
-/

namespace Cleartext.Machine

namespace Library

/-- The method `equals` of every object. -/
def equalsRef : Ref := ⟨.method, topClass, "equals", "(Ljava/lang/Object;)Z"⟩

theorem poolMethod?_equals (cls : String) : poolMethod? cls "equals(Ljava/lang/Object;)Z" = none := by
  have hget {s t : String} (hs : s.toList.head? = some 'g') :
      "equals(Ljava/lang/Object;)Z" ≠ s ++ t := by
    intro h
    have hhead := congrArg (·.toList.head?) h
    simp only [String.toList_append, List.head?_append, hs, Option.some_or] at hhead
    exact absurd hhead (by decide)
  refine List.findSome?_eq_none_iff.2 fun p _ => ?_
  unfold poolMethodIn?
  simp only [String.append_assoc, hget (s := "getJavaLangAccess()L") (by decide),
    hget (s := "getConstantPool(Ljava/lang/Class;)L") (by decide), decide_false, Bool.and_false]
  simp

/-- Only `Object` and `String` have a method `equals`. -/
theorem declared?_equals {cls : String} (hobject : cls ≠ topClass)
    (hstring : cls ≠ "java/lang/String") : declared? cls "equals" "(Ljava/lang/Object;)Z" = none := by
  unfold declared?
  dsimp only
  split
  case h_1 => exact absurd rfl hobject
  case h_2 => exact absurd rfl hstring
  case h_18 => exact poolMethod?_equals _
  all_goals rfl

variable {lineage : Lineage} {owner : String} {method : LibraryMethod}

theorem method?_equals (lineage : Lineage) (owner : String) :
    method? lineage owner equalsRef = (declaring? lineage owner equalsRef).bind fun cls =>
      declared? cls "equals" "(Ljava/lang/Object;)Z" := by
  rw [method?_eq]
  split <;> rfl

theorem exists_ancestors (lineage : Lineage) (cls : String) :
    ∃ rest, lineage.ancestors cls = cls :: rest := by
  have hclimb (fuel : Nat) (at' : String) (found : List String) :
      ∃ rest, lineage.climb fuel at' found = found ++ rest := by
    induction fuel generalizing at' found with
    | zero => exact ⟨[], (List.append_nil _).symm⟩
    | succ fuel ih =>
      unfold Lineage.climb
      split
      · exact ⟨[], (List.append_nil _).symm⟩
      · split
        · exact ⟨[], (List.append_nil _).symm⟩
        · rename_i parent _ _
          obtain ⟨rest, hrest⟩ := ih parent (found ++ [parent])
          exact ⟨parent :: rest, by rw [hrest, List.append_assoc]; rfl⟩
  exact hclimb _ _ _

theorem declaring?_string (lineage : Lineage) :
    declaring? lineage "java/lang/String" equalsRef = some "java/lang/String" := by
  obtain ⟨rest, hrest⟩ := exists_ancestors lineage "java/lang/String"
  have harray : ¬ "java/lang/String".startsWith "[" := by
    rw [String.startsWith_string_iff]
    decide
  unfold declaring?
  rw [if_neg harray, hrest]
  rfl

theorem declaring?_array (lineage : Lineage) (component : String) :
    declaring? lineage ("[" ++ component) equalsRef = some topClass := by
  obtain ⟨rest, hrest⟩ := exists_ancestors lineage topClass
  have harray : ("[" ++ component).startsWith "[" := by
    rw [String.startsWith_string_iff, String.toList_append]
    exact List.prefix_append _ _
  unfold declaring?
  rw [if_pos harray, hrest]
  rfl

end Library

open Library

namespace World

variable {σ : Setting} {w : World} {a b : Value}

/-! ## Calls of `equals` -/

/-- The interpreted class has a method `equals`, and a value is called with it. -/
def IsInterpreted (σ : Setting) (w : World) (v : Value) : Prop :=
  w.classOf v = σ.program.name ∧
    (σ.program.routine? equalsRef.name equalsRef.descriptor).isSome = true

/-- A value is equal to another by its method `equals`, which is one of the library. -/
def Equals (σ : Setting) (w : World) (a b : Value) : Prop :=
  a ≠ .null ∧ ¬ w.IsInterpreted σ a ∧
    ∃ method, method? σ.program.lineage (w.classOf a) equalsRef = some method ∧
      method [a, b] σ w = (.ok (truth true), w)

/-- A value is an instance of a class that has, or inherits, an `equals` other than that of every
object. -/
def RedefinesEquals (σ : Setting) (w : World) (v : Value) : Prop :=
  v ≠ .null ∧ w.IsInterpreted σ v ∨ ∃ id cls fields hidden, v = .ref id ∧
    w.heap[id]? = some (.instance cls fields hidden) ∧
      declaring? σ.program.lineage cls equalsRef ≠ some topClass

/-- A call of `equals` goes on with true on the stack if the values are equal. -/
theorem invoke_equals {index : UInt16} {next : Int} {F : Frame} {rest : Stack}
    (href : σ.program.cf.pool.ref index = .ok equalsRef) (hstack : F.stack = b :: a :: rest) :
    Step.invoke index false true next σ F w =
        ((.ok (.next next), { F with stack := truth true :: rest }), w) ↔ w.Equals σ a b := by
  have hparse : Descriptor.parse equalsRef.descriptor = .ok ⟨["Ljava/lang/Object;"], "Z"⟩ := by
    rfl
  have htakes : Stack.takeValues 2 F.stack = .ok ([a, b], rest) := by
    rw [hstack]
    rfl
  rw [Step.invoke_ok]
  constructor
  · rintro ⟨ref, descriptor, args, below, method, v,
      ⟨hnames, hdescriptor, hargs, hreceiver, owner, rfl, hway, hmethod⟩, hv, -, hframe⟩
    obtain rfl := Except.ok.inj (href.symm.trans hnames)
    obtain rfl := Except.ok.inj (hparse.symm.trans hdescriptor)
    obtain ⟨rfl, rfl⟩ := Prod.mk.inj (Except.ok.inj (htakes.symm.trans hargs))
    obtain rfl : truth true = v := (List.cons.inj (congrArg Frame.stack hframe)).1
    refine ⟨fun hnull => ?_, fun hown => ?_, method, hmethod, hv⟩
    · subst hnull
      cases hreceiver
    · exact absurd hown.2 (by rw [hway hown.1]; nofun)
  · rintro ⟨hnull, hown, method, hmethod, hv⟩
    refine ⟨equalsRef, _, [a, b], rest, method, truth true,
      ⟨href, hparse, htakes, by simpa using hnull, _, rfl, fun hname => ?_, hmethod⟩, hv, rfl, rfl⟩
    refine Option.eq_none_iff_forall_ne_some.2 fun r hr => hown ⟨hname, ?_⟩
    rw [hr]
    rfl

/-! ## Equal keys -/

theorem truth_eq_true {holds : Bool} : truth holds = truth true ↔ holds = true := by
  cases holds <;> decide

theorem deref?_eq_some {o : Object} {w' : World} :
    deref? a σ w = (.ok (some o), w') ↔ ∃ id, a = .ref id ∧ w.heap[id]? = some o ∧ w' = w := by
  cases a with
  | ref id => exact Run.object?_ok.trans (by simp [eq_comm])
  | _ => exact Run.pure_ok.trans (by simp)

/-- Only strings of the same units are equal as strings. -/
theorem stringEquals_ok :
    stringEquals [a, b] σ w = (.ok (truth true), w) ↔ ∃ i j units, a = .ref i ∧ b = .ref j ∧
      w.heap[i]? = some (.string units) ∧ w.heap[j]? = some (.string units) := by
  unfold stringEquals
  constructor
  · intro h
    obtain ⟨v, w₁, hsecond, hrest⟩ := Run.bind_ok.1 h
    obtain ⟨heq, rfl⟩ := arg_ok.1 hsecond
    obtain rfl : b = v := Option.some.inj heq
    obtain ⟨o, w₂, hderef, hrest⟩ := Run.bind_ok.1 hrest
    split at hrest
    · rename_i other
      obtain ⟨j, rfl, hj, rfl⟩ := deref?_eq_some.1 hderef
      obtain ⟨units, w₃, hunits, hanswer⟩ := Run.bind_ok.1 hrest
      obtain ⟨i, rest, hargs, hi, rfl⟩ := Run.selfUnits_ok.1 hunits
      obtain rfl : units = other :=
        of_decide_eq_true (truth_eq_true.1 (Run.pure_ok.1 hanswer).1.symm)
      exact ⟨i, j, units, (List.cons.inj hargs).1, rfl, hi, hj⟩
    · exact absurd (Run.pure_ok.1 hrest).1 (by decide)
  · rintro ⟨i, j, units, rfl, rfl, hi, hj⟩
    refine Run.bind_ok.2 ⟨.ref j, w, arg_ok.2 ⟨rfl, rfl⟩, Run.bind_ok.2 ⟨_, w,
      deref?_eq_some.2 ⟨j, rfl, hj, rfl⟩, Run.bind_ok.2 ⟨units, w, ?_, Run.pure_ok.2 ⟨?_, rfl⟩⟩⟩⟩
    · exact Run.selfUnits_ok.2 ⟨i, _, rfl, hi, rfl⟩
    · rw [decide_eq_true rfl]

/-- By the method of every object, a reference is equal to itself only. -/
theorem objectEquals_ok (ha : w.IsKey a) :
    (do return truth ((← arg [a, b] 0).same (← arg [a, b] 1)) : Run Value) σ w =
        (.ok (truth true), w) ↔ a = b := by
  have hsame : a.same b = decide (a = b) := by
    cases a with
    | null | ref => cases b <;> rfl
    | _ => exact ha.elim
  show (pure (truth (a.same b)) : Run Value) σ w = _ ↔ _
  rw [Run.pure_ok, eq_comm, and_iff_left rfl, truth_eq_true, hsame, decide_eq_true_iff]

/-- Values that are equal by their method `equals` are the same key. -/
theorem Equals.sameKey (h : w.Equals σ a b) (ha : w.IsKey a) : w.SameKey a b := by
  obtain ⟨-, -, method, hmethod, hanswer⟩ := h
  rw [method?_equals] at hmethod
  obtain ⟨cls, -, hdeclared⟩ := Option.bind_eq_some_iff.1 hmethod
  by_cases hobject : cls = topClass
  · subst hobject
    obtain rfl := Option.some.inj hdeclared
    obtain rfl := (objectEquals_ok ha).1 hanswer
    exact .same _
  by_cases hstring : cls = "java/lang/String"
  · subst hstring
    obtain rfl := Option.some.inj hdeclared
    obtain ⟨i, j, units, rfl, rfl, hi, hj⟩ := stringEquals_ok.1 hanswer
    exact .strings hi hj
  · cases (declared?_equals hobject hstring).symm.trans hdeclared

theorem equals_of_string {i j : Nat} {units : Units} (hown : ¬ w.IsInterpreted σ (.ref i))
    (hi : w.heap[i]? = some (.string units)) (hj : w.heap[j]? = some (.string units)) :
    w.Equals σ (.ref i) (.ref j) := by
  have hclass : w.classOf (.ref i) = "java/lang/String" := by simp only [classOf, hi]
  refine ⟨by simp, hown, stringEquals, ?_, stringEquals_ok.2 ⟨i, j, units, rfl, rfl, hi, hj⟩⟩
  rw [hclass, method?_equals, declaring?_string]
  rfl

theorem equals_self (ha : w.IsKey a) (hnull : a ≠ .null) (hown : ¬ w.IsInterpreted σ a)
    (hobject : declaring? σ.program.lineage (w.classOf a) equalsRef = some topClass) :
    w.Equals σ a a := by
  have hmethod : method? σ.program.lineage (w.classOf a) equalsRef =
      some fun args => do return truth ((← arg args 0).same (← arg args 1)) := by
    rw [method?_equals, hobject]
    rfl
  exact ⟨hnull, hown, _, hmethod, (objectEquals_ok ha).2 rfl⟩

/-- Null matches null, and a reference matches those that it is equal to by its `equals`. -/
def Matches (σ : Setting) (w : World) (a b : Value) : Prop :=
  (a = .null ∧ b = .null) ∨ w.Equals σ a b

/-- Two references lead to different boxes of one class with the same content. -/
def AreTwins (w : World) (a b : Value) : Prop :=
  a ≠ b ∧ ∃ i j o o' box, a = .ref i ∧ b = .ref j ∧ w.heap[i]? = some o ∧ w.heap[j]? = some o' ∧
    o.boxed? = some box ∧ o'.boxed? = some box

/-- An instance of a class with the `equals` of every object has this method. -/
theorem declaring?_of_not_redefines {i : Nat} {o : Object} (ho : w.heap[i]? = some o)
    (hstring : ∀ units, o ≠ .string units) (h : ¬ w.RedefinesEquals σ (.ref i)) :
    declaring? σ.program.lineage (w.classOf (.ref i)) equalsRef = some topClass := by
  rcases o with units | ⟨component, elements⟩ | ⟨cls, fields, hidden⟩
  · exact absurd rfl (hstring units)
  · simp only [classOf, ho, declaring?_array]
  · rw [classOf_instance ho]
    by_contra hne
    exact h (.inr ⟨i, cls, fields, hidden, rfl, ho, hne⟩)

/-- A reference matches itself. -/
theorem matches_self (ha : w.IsKey a) (h : ¬ w.RedefinesEquals σ a) : w.Matches σ a a := by
  cases a with
  | null => exact .inl ⟨rfl, rfl⟩
  | ref i =>
    have hown : ¬ w.IsInterpreted σ (.ref i) := fun hown => h (.inl ⟨nofun, hown⟩)
    obtain ⟨o, ho, -⟩ := id ha
    by_cases hstring : ∃ units, o = .string units
    · obtain ⟨units, rfl⟩ := hstring
      exact .inr (equals_of_string hown ho ho)
    · exact .inr (equals_self ha nofun hown
        (declaring?_of_not_redefines ho (fun units heq => hstring ⟨units, heq⟩) h))
  | _ => exact ha.elim

/-- Two values are the same key if they match, or are twins. -/
theorem sameKey_iff (ha : w.IsKey a) (h : ¬ w.RedefinesEquals σ a) :
    w.SameKey a b ↔ w.Matches σ a b ∨ w.AreTwins a b := by
  constructor
  · intro hsame
    cases hsame with
    | same => exact .inl (matches_self ha h)
    | strings hi hj => exact .inl (.inr (equals_of_string (fun hown => h (.inl ⟨nofun, hown⟩)) hi hj))
    | @boxes i j o o' box hi hj ho ho' =>
      by_cases heq : i = j
      · subst heq
        exact .inl (matches_self ha h)
      · exact .inr ⟨fun hab => heq (Value.ref.inj hab), i, j, o, o', box, rfl, rfl, hi, hj, ho, ho'⟩
  · rintro ((⟨rfl, rfl⟩ | hequals) | ⟨-, i, j, o, o', box, rfl, rfl, hi, hj, ho, ho'⟩)
    · exact .same _
    · exact hequals.sameKey ha
    · exact .boxes hi hj ho ho'

/-- Twins do not match: by the `equals` of every object, a box is equal to itself only. -/
theorem AreTwins.not_matches (htwins : w.AreTwins a b) (ha : w.IsKey a)
    (h : ¬ w.RedefinesEquals σ a) : ¬ w.Matches σ a b := by
  obtain ⟨hne, i, j, o, o', box, rfl, rfl, hi, -, ho, -⟩ := htwins
  rintro (⟨hnull, -⟩ | ⟨-, -, method, hmethod, hanswer⟩)
  · cases hnull
  have hstring (units : Units) : o ≠ .string units := by
    rintro rfl
    cases ho
  rw [method?_equals, declaring?_of_not_redefines hi hstring h] at hmethod
  obtain rfl := Option.some.inj hmethod
  exact hne ((objectEquals_ok ha).1 hanswer)

end World

end Cleartext.Machine
