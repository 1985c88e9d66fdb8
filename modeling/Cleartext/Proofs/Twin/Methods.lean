import Cleartext.Proofs.Twin.Texts

/-!
# Which library method is called, and what it does in both runs

The methods of numbers, and those that show the identity of a run: call stacks, classes,
the place the code was loaded from and the size of the caller's pool are what the
configuration says, which both runs share.

A call means the same library method in both runs, and every library method does the same
(`method?_twin`).
-/

namespace Cleartext.Machine.Library

variable {f : Numbering} {args args' : List Value} {v v' : Value}

/-! ## Numbers -/

theorem throwFormat_twin {α : Type} {A : Numbering → α → α → Prop} (message : String) :
    Twin A f (throwFormat message : Run α) (throwFormat message) :=
  throwNew_twin _ _

theorem parseInt_twin (hv : v.Like f v') (base : Int32) :
    Twin Value.Like f (parseInt v base) (parseInt v' base) := by
  refine (deref?_twin hv).bind fun _ _ ho => ?_
  cases ho with
  | none => exact throwFormat_twin _
  | some ho =>
    cases ho with
    | string units =>
      refine check_twin _ _ ?_
      split
      · exact .pure (.int _)
      · exact throwFormat_twin _
    | _ => exact throwFormat_twin _

theorem boxedInt_twin (hv : v.Like f v') : Twin Value.Like f (boxedInt v) (boxedInt v') := by
  refine Still.grow (asHidden_twin hv fun x x' hx => ?_) fun _ _ hn => hn
  cases hx with
  | boxed hcontent =>
    cases hcontent with
    | int n => exact .some (.int n)
    | _ => exact .none
  | _ => exact .none

theorem boxedLong_twin (hv : v.Like f v') : Twin Value.Like f (boxedLong v) (boxedLong v') := by
  refine Still.grow (asHidden_twin hv fun x x' hx => ?_) fun _ _ hn => hn
  cases hx with
  | boxed hcontent =>
    cases hcontent with
    | long n => exact .some (.long n)
    | _ => exact .none
  | _ => exact .none

theorem integerMethod?_twin (signature : String) : TableTwin (integerMethod? signature) := by
  unfold integerMethod?
  split
  · exact tableTwin_some fun _ _ _ h => (intArg_twin h 0).bind_eq fun n =>
      newHidden_twin _ (.boxed (.int n))
  · exact tableTwin_some fun _ _ _ h => (arg_twin h 0).bind fun _ _ hv => boxedInt_twin hv
  · exact tableTwin_some fun _ _ _ h => (arg_twin h 0).bind fun _ _ hv => parseInt_twin hv 10
  · exact tableTwin_some fun _ _ _ h => (arg_twin h 0).bind fun _ _ hv =>
      (intArg_twin h 1).bind_eq fun base => parseInt_twin hv base
  · exact tableTwin_some fun _ _ _ h => (intArg_twin h 0).bind_eq fun _ => newText_twin _
  · exact tableTwin_some fun _ _ _ h => (intArg_twin h 1).bind_eq fun _ =>
      (intArg_twin h 0).bind_eq fun _ => newText_twin _
  · exact tableTwin_some fun _ _ _ h => (intArg_twin h 0).bind_eq fun _ => newText_twin _
  · exact tableTwin_none

theorem longMethod?_twin (signature : String) : TableTwin (longMethod? signature) := by
  unfold longMethod?
  split
  · exact tableTwin_some fun _ _ _ h => (longArg_twin h 0).bind_eq fun n =>
      newHidden_twin _ (.boxed (.long n))
  · exact tableTwin_some fun _ _ _ h => (arg_twin h 0).bind fun _ _ hv => boxedLong_twin hv
  · exact tableTwin_some fun _ _ _ h => (longArg_twin h 0).bind_eq fun _ => newText_twin _
  · exact tableTwin_none

theorem characterMethod?_twin (signature : String) : TableTwin (characterMethod? signature) := by
  unfold characterMethod?
  split
  · exact tableTwin_some fun _ _ _ h => (intArg_twin h 0).bind_eq fun n =>
      newHidden_twin _ (.boxed (.int n))
  · exact tableTwin_some fun _ _ _ h => (arg_twin h 0).bind fun _ _ hv => boxedInt_twin hv
  · exact tableTwin_some fun _ _ _ h => (intArg_twin h 0).bind_eq fun _ => .pure (.int _)
  · exact tableTwin_none

theorem mathMethod?_twin (signature : String) : TableTwin (mathMethod? signature) := by
  unfold mathMethod?
  split
  · exact tableTwin_some fun _ _ _ h => (intArg_twin h 0).bind_eq fun _ => .pure (.int _)
  · exact tableTwin_some fun _ _ _ h => (longArg_twin h 0).bind_eq fun _ => .pure (.long _)
  · exact tableTwin_some fun _ _ _ h => (intArg_twin h 0).bind_eq fun _ =>
      (intArg_twin h 1).bind_eq fun _ => .pure (.int _)
  · exact tableTwin_some fun _ _ _ h => (intArg_twin h 0).bind_eq fun _ =>
      (intArg_twin h 1).bind_eq fun _ => .pure (.int _)
  · exact tableTwin_none

/-! ## Call stacks -/

/-- Values that are made one after another. -/
theorem mapM_values {α : Type} {k k' : α → Run Value}
    (hk : ∀ g a, Twin Value.Like g (k a) (k' a)) (l : List α) :
    Twin (fun g => List.Forall₂ (Value.Like g)) f (l.mapM k) (l.mapM k') := by
  induction l generalizing f with
  | nil => exact .pure .nil
  | cons a l ih =>
    rw [List.mapM_cons, List.mapM_cons]
    exact (hk f a).bind fun g v v' _ hv => ih.bind fun g' vs vs' hgrown hvs =>
      .pure (.cons (hv.mono hgrown) hvs)

theorem newStackTrace_twin (frames : List StackFrame) :
    Twin Value.Like f (newStackTrace frames) (newStackTrace frames) :=
  (mapM_values (fun _ x => newHidden_twin _ (.frame x)) frames).bind fun _ _ _ _ hvs =>
    new_twin (.array _ hvs)

theorem threadMethod?_twin (signature : String) : TableTwin (threadMethod? signature) := by
  unfold threadMethod?
  split
  · refine tableTwin_some fun _ _ _ h => get_twin.bind fun w w' hw => ?_
    have hthread := hw.thread
    generalize w.thread = thread at hthread ⊢
    generalize w'.thread = thread' at hthread ⊢
    cases hthread with
    | some hij => exact .pure (.ref hij)
    | none =>
      refine (alloc_twin (.instance _ .none .none)).bind fun g i j _ hij => ?_
      have hset : Still Eq g (modify fun w => { w with thread := some i } : Run Unit)
          (modify fun w => { w with thread := some j }) :=
        modify_twin fun _ _ hw => { hw with thread := .some hij }
      exact hset.bind_eq fun _ => .pure (.ref hij)
  · exact tableTwin_some fun _ _ _ h => callStack_twin.bind_eq fun _ => newStackTrace_twin _
  · exact tableTwin_none

/-- Messages and call stacks of exceptions that are alike. -/
def ThrowablesLike (f : Numbering) (x x' : Option Nat × List StackFrame) : Prop :=
  Option.Rel f.Links x.1 x'.1 ∧ x.2 = x'.2

theorem throwableState_twin (hv : v.Like f v') :
    Still (ThrowablesLike f) f (throwableState v) (throwableState v') := by
  refine asHidden_twin hv fun x x' hx => ?_
  cases hx with
  | throwable hm trace => exact .some ⟨hm, rfl⟩
  | _ => exact .none

/-- The receiver becomes an exception that was made on the call stack. -/
theorem setThrowable_twin (h : List.Forall₂ (Value.Like f) args args') {m m' : Option Nat}
    (hm : Option.Rel f.Links m m') {answer answer' : Value} (hanswer : answer.Like f answer') :
    Twin Value.Like f
      (do setHidden (← selfInstance args) (.throwable m (← callStack)); return answer)
      (do setHidden (← selfInstance args') (.throwable m' (← callStack)); return answer') :=
  (selfInstance_twin h).bind fun _ _ hij => callStack_twin.bind_eq fun trace =>
    (setHidden_twin hij (.throwable hm trace)).bind_eq fun _ => .pure hanswer

theorem throwableMethod?_twin (signature : String) : TableTwin (throwableMethod? signature) := by
  unfold throwableMethod?
  split
  · exact tableTwin_some fun _ _ _ h => setThrowable_twin h .none .null
  · refine tableTwin_some fun _ _ _ h => (arg_twin h 1).bind fun _ _ hv => ?_
    cases hv with
    | ref hij =>
      refine found_twin hij fun _ _ ho => ?_
      cases ho with
      | string units => exact setThrowable_twin h (.some hij) .null
      | _ => exact setThrowable_twin h .none .null
    | _ => exact setThrowable_twin h .none .null
  · refine tableTwin_some fun _ _ _ h => (arg_twin h 0).bind fun _ _ hv =>
      (throwableState_twin hv).bind fun x x' hx => ?_
    obtain ⟨m, trace⟩ := x
    obtain ⟨m', trace'⟩ := x'
    obtain ⟨hm, -⟩ := hx
    cases hm with
    | none => exact .pure .null
    | some hij => exact .pure (.ref hij)
  · refine tableTwin_some fun _ _ _ h => (arg_twin h 0).bind fun _ _ hv =>
      (throwableState_twin hv).bind fun x x' hx => ?_
    rw [hx.2]
    exact newStackTrace_twin _
  · refine tableTwin_some fun _ _ _ h => (arg_twin h 0).bind fun _ _ hself =>
      (throwableState_twin hself).bind fun x x' hx => ?_
    obtain ⟨m, trace⟩ := x
    obtain ⟨m', trace'⟩ := x'
    exact setThrowable_twin h hx.1 hself
  · exact tableTwin_none

theorem stackFrame_twin (hv : v.Like f v') : Still Eq f (stackFrame v) (stackFrame v') := by
  refine asHidden_twin hv fun x x' hx => ?_
  cases hx with
  | frame x => exact .some rfl
  | _ => exact .none

theorem stackElementMethod?_twin (signature : String) :
    TableTwin (stackElementMethod? signature) := by
  unfold stackElementMethod?
  split
  · exact tableTwin_some fun _ _ _ h => (arg_twin h 0).bind fun _ _ hv =>
      (stackFrame_twin hv).bind_eq fun _ => newText_twin _
  · exact tableTwin_some fun _ _ _ h => (arg_twin h 0).bind fun _ _ hv =>
      (stackFrame_twin hv).bind_eq fun _ => newText_twin _
  · exact tableTwin_some fun _ _ _ _ => .pure (.int _)
  · exact tableTwin_some fun _ _ _ _ => .pure .null
  · exact tableTwin_none

/-! ## Classes and where they come from -/

theorem classMethod?_twin (signature : String) : TableTwin (classMethod? signature) := by
  unfold classMethod?
  split
  · refine tableTwin_some fun _ _ _ h => (arg_twin h 0).bind fun _ _ hv =>
      (asString_twin hv).bind fun a a' ha => ?_
    obtain ⟨_, name⟩ := a
    obtain ⟨_, name'⟩ := a'
    obtain rfl : name = name' := ha.2
    exact mirror_twin _
  · exact tableTwin_some fun _ _ _ h => (arg_twin h 0).bind fun _ _ hv =>
      (hiddenText_twin hv).bind_eq fun _ => newText_twin _
  · exact tableTwin_some fun _ _ _ h => (arg_twin h 0).bind fun _ _ hv =>
      (hiddenText_twin hv).bind_eq fun _ => newText_twin _
  · exact tableTwin_some fun _ _ _ _ => .pure (.int _)
  · exact tableTwin_some fun _ _ _ h => (arg_twin h 0).bind fun _ _ hv =>
      (hiddenText_twin hv).bind_eq fun _ => newHidden_twin _ (.text _)
  · exact tableTwin_none

theorem protectionDomainMethod?_twin (signature : String) :
    TableTwin (protectionDomainMethod? signature) := by
  unfold protectionDomainMethod?
  split
  · refine tableTwin_some fun _ _ _ _ => read_twin.bind fun σ σ' hσ => ?_
    rw [hσ.config]
    dsimp only
    split
    · exact .pure .null
    · exact newHidden_twin _ (.text _)
  · exact tableTwin_none

theorem codeSourceMethod?_twin (signature : String) : TableTwin (codeSourceMethod? signature) := by
  unfold codeSourceMethod?
  split
  · exact tableTwin_some fun _ _ _ h => (arg_twin h 0).bind fun _ _ hv =>
      (hiddenText_twin hv).bind_eq fun _ => newHidden_twin _ (.text _)
  · exact tableTwin_none

theorem locationPart_twin (part : Text.Url → String) : MethodTwin (locationPart part) := by
  refine fun _ _ _ h => (arg_twin h 0).bind fun _ _ hv => (hiddenText_twin hv).bind_eq fun _ => ?_
  split
  · exact newText_twin _
  · exact .unsupported

theorem urlMethod?_twin (signature : String) : TableTwin (urlMethod? signature) := by
  have hpart (part : Text.Url → String) : TableTwin (some (locationPart part)) :=
    tableTwin_some (locationPart_twin part)
  unfold urlMethod?
  split
  · exact hpart _
  · exact hpart _
  · exact hpart _
  · exact hpart _
  · exact hpart _
  · exact tableTwin_none

/-! ## The caller's constant pool -/

theorem poolSize_twin : MethodTwin poolSize := by
  refine fun _ _ _ h => (arg_twin h 0).bind fun _ _ hv => (hiddenText_twin hv).bind_eq fun name =>
    read_twin.bind fun σ σ' hσ => ?_
  rw [hσ.config]
  dsimp only
  split
  · exact Still.bind_eq .unsupported fun _ => .pure (.int _)
  · exact .pure (.int _)

theorem poolMethodIn?_twin (access reflect owner signature : String) :
    TableTwin (poolMethodIn? access reflect owner signature) := by
  unfold poolMethodIn?
  dsimp only
  split
  · exact tableTwin_some fun _ _ _ _ => newHidden_twin _ .none
  · split
    · exact tableTwin_some fun _ _ _ h => (arg_twin h 1).bind fun _ _ hv =>
        (hiddenText_twin hv).bind_eq fun _ => newHidden_twin _ (.text _)
    · split
      · exact tableTwin_some poolSize_twin
      · exact tableTwin_none

theorem poolMethod?_twin (owner signature : String) : TableTwin (poolMethod? owner signature) := by
  intro m hm
  obtain ⟨⟨access, reflect⟩, -, hfound⟩ := List.exists_of_findSome?_eq_some hm
  exact poolMethodIn?_twin access reflect owner signature m hfound

/-! ## All methods -/

theorem declared?_twin (owner name descriptor : String) :
    TableTwin (declared? owner name descriptor) := by
  unfold declared?
  dsimp only
  split
  · exact objectMethod?_twin _
  · exact stringMethod?_twin _ _
  · exact builderMethod?_twin _ _ _
  · exact builderMethod?_twin _ _ _
  · exact integerMethod?_twin _
  · exact longMethod?_twin _
  · exact characterMethod?_twin _
  · exact mathMethod?_twin _
  · exact systemMethod?_twin _
  · exact threadMethod?_twin _
  · exact throwableMethod?_twin _
  · exact stackElementMethod?_twin _
  · exact classMethod?_twin _
  · exact protectionDomainMethod?_twin _
  · exact codeSourceMethod?_twin _
  · exact urlMethod?_twin _
  · exact mapMethod?_twin _
  · exact poolMethod?_twin _ _

/-- A library method that a call means does the same in both runs. -/
theorem method?_twin (lineage : Lineage) (owner : String) (ref : Ref) :
    TableTwin (method? lineage owner ref) := by
  have hinherited (classes : List String) :
      TableTwin (classes.findSome? fun cls => declared? cls ref.name ref.descriptor) := by
    intro m hm
    obtain ⟨cls, -, hfound⟩ := List.exists_of_findSome?_eq_some hm
    exact declared?_twin cls ref.name ref.descriptor m hfound
  unfold method?
  dsimp only
  split
  · intro m hm
    cases harray : arrayMethod? (ref.name ++ ref.descriptor) with
    | none =>
      rw [harray, Option.orElse_none] at hm
      exact hinherited _ m hm
    | some m' =>
      rw [harray, Option.orElse_some] at hm
      exact arrayMethod?_twin _ m (harray.trans hm)
  · exact hinherited _

end Cleartext.Machine.Library
