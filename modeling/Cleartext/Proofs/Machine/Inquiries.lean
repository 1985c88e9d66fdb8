import Cleartext.Proofs.Machine.Families

/-!
# What a routine can ask about its caller

A routine learns about its caller from a handful of library methods.  `Inquiry` lists
them, each with its descriptor and what it does.

* `method?_inquiry`: a call of a method with one of their names, on whatever it is
  called, finds one of them.

The names are told apart from all other names of library methods by their first
characters; no name in the list starts with another one.
-/

namespace Cleartext.Machine.Library

/-! ## The methods -/

/-- The methods that tell something about the caller, and the one that puts it into a
builder. -/
inductive Inquiry : String → String → LibraryMethod → Prop
  | className : Inquiry "getClassName" "()Ljava/lang/String;"
      fun args => do newText (externalName (← stackFrame (← arg args 0)).cls)
  | methodName : Inquiry "getMethodName" "()Ljava/lang/String;"
      fun args => do newText (← stackFrame (← arg args 0)).method
  | forName : Inquiry "forName" "(Ljava/lang/String;)Ljava/lang/Class;" fun args => do
      let (_, name) ← asString (← arg args 0)
      mirror (internalName name.text)
  | access {p : String × String} (hp : p ∈ poolPackages) :
      Inquiry "getJavaLangAccess" ("()L" ++ p.1 ++ "/JavaLangAccess;")
        fun _ => newHidden (p.1 ++ "/JavaLangAccess") .none
  | pool {p : String × String} (hp : p ∈ poolPackages) :
      Inquiry "getConstantPool" ("(Ljava/lang/Class;)L" ++ p.2 ++ "/ConstantPool;")
        fun args => do newHidden (p.2 ++ "/ConstantPool") (.text (← hiddenText (← arg args 1)))
  | size : Inquiry "getSize" "()I" poolSize
  | append {descriptor builder params : String} {m : LibraryMethod}
      (hparams : parameters? descriptor ("L" ++ builder ++ ";") = some params)
      (hbuilder : builder ∈ ["java/lang/StringBuilder", "java/lang/StringBuffer"])
      (hm : append? params = some m) : Inquiry "append" descriptor m

/-- The names of these methods. -/
def inquiries : List String :=
  ["getClassName", "getMethodName", "forName", "getJavaLangAccess", "getConstantPool", "getSize",
    "append"]

/-- The characters of the names. -/
def inquiryChars : List (List Char) :=
  [['g', 'e', 't', 'C', 'l', 'a', 's', 's', 'N', 'a', 'm', 'e'],
    ['g', 'e', 't', 'M', 'e', 't', 'h', 'o', 'd', 'N', 'a', 'm', 'e'],
    ['f', 'o', 'r', 'N', 'a', 'm', 'e'],
    ['g', 'e', 't', 'J', 'a', 'v', 'a', 'L', 'a', 'n', 'g', 'A', 'c', 'c', 'e', 's', 's'],
    ['g', 'e', 't', 'C', 'o', 'n', 's', 't', 'a', 'n', 't', 'P', 'o', 'o', 'l'],
    ['g', 'e', 't', 'S', 'i', 'z', 'e'],
    ['a', 'p', 'p', 'e', 'n', 'd']]

/-! ## Telling names apart -/

variable {cls name descriptor : String} {m : LibraryMethod}

theorem toList_inquiry (h : name ∈ inquiries) : name.toList ∈ inquiryChars := by
  have hmap : inquiries.map String.toList = inquiryChars := by
    simp only [inquiries, inquiryChars, List.map_cons, List.map_nil]
    rfl
  rw [← hmap]
  exact List.mem_map_of_mem h

/-- A text whose characters do not start with those of a name does not start with a name. -/
theorem inquiry_ne {t : String} {chars : List Char} (hname : name ∈ inquiries)
    (hall : (inquiryChars.all fun start => !start.isPrefixOf chars) = true) :
    name ++ t ≠ String.ofList chars := by
  intro heq
  have hchars := congrArg String.toList heq
  rw [String.toList_append, String.toList_ofList] at hchars
  have hstart := List.all_eq_true.1 hall _ (toList_inquiry hname)
  have hbegins : name.toList.isPrefixOf chars = true := by
    rw [← hchars, List.isPrefixOf_iff_prefix]
    exact List.prefix_append _ _
  simp [hbegins] at hstart

/-- What starts with two names starts with one. -/
theorem inquiry_inj {name' descriptor' : String} (hname : name ∈ inquiries)
    (hname' : name' ∈ inquiries) (h : name ++ descriptor = name' ++ descriptor') :
    name = name' ∧ descriptor = descriptor' := by
  have hchars := congrArg String.toList h
  rw [String.toList_append, String.toList_append] at hchars
  have hdistinct : ∀ a ∈ inquiryChars, ∀ b ∈ inquiryChars, a.isPrefixOf b = true → a = b := by
    decide
  have hsame : name.toList = name'.toList := by
    rcases List.append_eq_append_iff.1 hchars with ⟨rest, hrest, -⟩ | ⟨rest, hrest, -⟩
    · refine hdistinct _ (toList_inquiry hname) _ (toList_inquiry hname') ?_
      rw [hrest]
      simp
    · refine (hdistinct _ (toList_inquiry hname') _ (toList_inquiry hname) ?_).symm
      rw [hrest]
      simp
  rw [hsame] at hchars
  exact ⟨String.toList_inj.1 hsame, String.toList_inj.1 (List.append_cancel_left hchars)⟩

/-! ## What a call finds -/

theorem poolMethod?_inquiry (hname : name ∈ inquiries)
    (h : poolMethod? cls (name ++ descriptor) = some m) : Inquiry name descriptor m := by
  obtain ⟨p, hp, hin⟩ := List.exists_of_findSome?_eq_some h
  unfold poolMethodIn? at hin
  simp only [Bool.and_eq_true, decide_eq_true_eq] at hin
  split at hin
  · rename_i hs
    have hsignature : name ++ descriptor =
        "getJavaLangAccess" ++ ("()L" ++ p.1 ++ "/JavaLangAccess;") := by
      rw [hs.2]
      simp [← String.toList_inj]
    obtain ⟨rfl, rfl⟩ := inquiry_inj hname (by decide) hsignature
    obtain rfl := Option.some.inj hin
    exact .access hp
  · split at hin
    · rename_i hs
      have hsignature : name ++ descriptor =
          "getConstantPool" ++ ("(Ljava/lang/Class;)L" ++ p.2 ++ "/ConstantPool;") := by
        rw [hs.2]
        simp [← String.toList_inj]
      obtain ⟨rfl, rfl⟩ := inquiry_inj hname (by decide) hsignature
      obtain rfl := Option.some.inj hin
      exact .pool hp
    · split at hin
      · rename_i hs
        obtain ⟨rfl, rfl⟩ := @inquiry_inj _ _ "getSize" "()I" hname (by decide) hs.2
        obtain rfl := Option.some.inj hin
        exact .size
      · cases hin

theorem stackElementMethod?_inquiry (hname : name ∈ inquiries)
    (h : stackElementMethod? (name ++ descriptor) = some m) : Inquiry name descriptor m := by
  unfold stackElementMethod? at h
  split at h
  · rename_i hs
    obtain ⟨rfl, rfl⟩ := @inquiry_inj _ _ "getClassName" "()Ljava/lang/String;" hname (by decide) hs
    obtain rfl := Option.some.inj h
    exact .className
  · rename_i hs
    obtain ⟨rfl, rfl⟩ := @inquiry_inj _ _ "getMethodName" "()Ljava/lang/String;" hname (by decide) hs
    obtain rfl := Option.some.inj h
    exact .methodName
  · rename_i hs
    exact absurd hs (inquiry_ne hname (by decide))
  · rename_i hs
    exact absurd hs (inquiry_ne hname (by decide))
  · cases h

theorem classMethod?_inquiry (hname : name ∈ inquiries)
    (h : classMethod? (name ++ descriptor) = some m) : Inquiry name descriptor m := by
  unfold classMethod? at h
  split at h
  case h_1 =>
    rename_i hs
    obtain ⟨rfl, rfl⟩ := @inquiry_inj _ _ "forName" "(Ljava/lang/String;)Ljava/lang/Class;" hname
      (by decide) hs
    obtain rfl := Option.some.inj h
    exact .forName
  case h_6 => cases h
  all_goals
    rename_i hs
    exact absurd hs (inquiry_ne hname (by decide))

theorem builderMethod?_inquiry (hname : name ∈ inquiries)
    (hcls : cls ∈ ["java/lang/StringBuilder", "java/lang/StringBuffer"])
    (h : builderMethod? cls name descriptor = some m) : Inquiry name descriptor m := by
  have hinit : ¬ name = "<init>" := by
    rintro rfl
    exact absurd hname (by decide)
  unfold builderMethod? at h
  rw [if_neg hinit] at h
  split at h
  · rename_i params hparams
    split at h
    · rename_i happend
      obtain rfl := happend
      exact .append hparams hcls h
    · rw [String.append_assoc, String.append_assoc] at h
      unfold chainedBuilderMethod? at h
      split at h
      case h_4 => cases h
      all_goals
        rename_i hs
        exact absurd hs (inquiry_ne hname (by decide))
  · unfold plainBuilderMethod? at h
    split at h
    case h_6 => cases h
    all_goals
      rename_i hs
      exact absurd hs (inquiry_ne hname (by decide))

/-- A class that declares a method of one of the names declares one of the list. -/
theorem declared?_inquiry (hname : name ∈ inquiries) (h : declared? cls name descriptor = some m) :
    Inquiry name descriptor m := by
  unfold declared? at h
  split at h
  case h_3 | h_4 => exact builderMethod?_inquiry hname (by decide) h
  case h_12 => exact stackElementMethod?_inquiry hname h
  case h_13 => exact classMethod?_inquiry hname h
  case h_18 => exact poolMethod?_inquiry hname h
  all_goals
    exfalso
    dsimp only at h
  case h_2 =>
    have hinit : ¬ name = "<init>" := by
      rintro rfl
      exact absurd hname (by decide)
    have hvalue : ¬ name = "valueOf" := by
      rintro rfl
      exact absurd hname (by decide)
    unfold stringMethod? at h
    rw [if_neg hinit, if_neg hvalue] at h
    unfold plainStringMethod? at h
    split at h
    case h_17 => cases h
    all_goals
      rename_i hs
      exact inquiry_ne hname (by decide) hs
  -- What is left are tables of signatures, none of which starts with such a name.
  all_goals
    first
      | unfold objectMethod? at h
      | unfold integerMethod? at h
      | unfold longMethod? at h
      | unfold characterMethod? at h
      | unfold mathMethod? at h
      | unfold systemMethod? at h
      | unfold threadMethod? at h
      | unfold throwableMethod? at h
      | unfold protectionDomainMethod? at h
      | unfold codeSourceMethod? at h
      | unfold urlMethod? at h
      | unfold mapMethod? at h
    split at h
  all_goals
    first
      | rename_i hs
        exact inquiry_ne hname (by decide) hs
      | cases h

/-- A call of a method of one of the names finds one of the list. -/
theorem method?_inquiry {lineage : Lineage} {owner : String} {ref : Ref}
    (hname : ref.name ∈ inquiries) (h : method? lineage owner ref = some m) :
    Inquiry ref.name ref.descriptor m := by
  have hdeclared : ∀ owner, ((lineage.ancestors owner ++ lineage.ancestors ref.owner).findSome? fun
      cls => declared? cls ref.name ref.descriptor) = some m →
      Inquiry ref.name ref.descriptor m := by
    intro owner h
    obtain ⟨cls, -, hcls⟩ := List.exists_of_findSome?_eq_some h
    exact declared?_inquiry hname hcls
  have harray : arrayMethod? (ref.name ++ ref.descriptor) = none := by
    unfold arrayMethod?
    split
    · rename_i hs
      exact absurd hs (inquiry_ne hname (by decide))
    · rfl
  unfold method? at h
  dsimp only at h
  split at h
  · rw [harray] at h
    exact hdeclared _ h
  · exact hdeclared _ h

/-! ## What the methods answer -/

section Answers

variable {σ : Setting} {w w' : World} {v x : Value} {args : List Value}

theorem arg_ok {i : Nat} : arg args i σ w = (.ok v, w') ↔ args[i]? = some v ∧ w' = w := by
  unfold arg
  cases args[i]? with
  | none => simp [Run.collapse_ok]
  | some v' => simp [Run.pure_ok, @eq_comm _ v']

theorem asHidden_ok {α : Type} {pick : Hidden → Option α} {a : α} :
    asHidden v pick σ w = (.ok a, w') ↔ ∃ id cls fields hidden, v = .ref id ∧
      w.heap[id]? = some (.instance cls fields hidden) ∧ pick hidden = some a ∧ w' = w := by
  unfold asHidden
  constructor
  · intro h
    cases v with
    | null => exact (Run.throwNew_ok.1 h).elim
    | ref id =>
      obtain ⟨o, w₁, ho, h⟩ := Run.bind_ok.1 h
      obtain ⟨ho, rfl⟩ := Run.object?_ok.1 ho
      rcases o with _ | _ | _ | ⟨cls, fields, hidden⟩
      case some.instance =>
        dsimp only at h
        cases hpick : pick hidden with
        | none => simp [Run.unsupported_ok, hpick] at h
        | some a' =>
          rw [hpick] at h
          obtain ⟨rfl, rfl⟩ := Run.pure_ok.1 h
          exact ⟨id, cls, fields, hidden, rfl, ho.symm, hpick, rfl⟩
      all_goals simp [Run.bind_ok, Run.unsupported_ok] at h
    | _ => simp [Run.bind_ok, Run.unsupported_ok] at h
  · intro h
    obtain ⟨id, cls, fields, hidden, rfl, hid, hpick, rfl⟩ := h
    refine Run.bind_ok.2 ⟨_, _, Run.object?_ok.2 ⟨rfl, rfl⟩, ?_⟩
    rw [hid]
    dsimp only
    rw [hpick]
    exact Run.pure_ok.2 ⟨rfl, rfl⟩

theorem asString_ok {id : Nat} {units : Units} (h : asString v σ w = (.ok (id, units), w')) :
    v = .ref id ∧ w.heap[id]? = some (.string units) ∧ w' = w := by
  unfold asString at h
  cases v with
  | null => exact (Run.throwNew_ok.1 h).elim
  | ref id =>
    obtain ⟨o, w₁, ho, h⟩ := Run.bind_ok.1 h
    obtain ⟨ho, rfl⟩ := Run.object?_ok.1 ho
    rcases o with _ | ⟨units'⟩ | _ | _
    case some.string =>
      obtain ⟨heq, rfl⟩ := Run.pure_ok.1 h
      obtain ⟨rfl, rfl⟩ := Prod.mk.inj heq
      exact ⟨rfl, ho.symm, rfl⟩
    all_goals simp [Run.bind_ok, Run.unsupported_ok] at h
  | _ => simp [Run.bind_ok, Run.unsupported_ok] at h

theorem newText_ok {text : String} (h : newText text σ w = (.ok x, w')) :
    ∃ id, x = .ref id ∧ w.Grown w' ∧ w'.heap[id]? = some (.string (Units.ofText text)) := by
  obtain ⟨rfl, rfl⟩ := Run.new_ok.1 h
  exact ⟨_, rfl, w.grown_push _, by simp⟩

theorem grown_newHidden {cls : String} {hidden : Hidden}
    (h : newHidden cls hidden σ w = (.ok x, w')) : w.Grown w' := by
  obtain ⟨rfl, rfl⟩ := Run.new_ok.1 h
  exact w.grown_push _

theorem grown_mirror {cls : String} (h : mirror cls σ w = (.ok x, w')) : w.Grown w' := by
  unfold mirror at h
  obtain ⟨_, w₁, hget, hlookup⟩ := Run.bind_ok.1 h
  obtain ⟨rfl, rfl⟩ := Run.get_ok.1 hget
  cases hfound : w₁.mirrors.lookup cls with
  | some id =>
    rw [hfound] at hlookup
    obtain ⟨-, rfl⟩ := Run.pure_ok.1 hlookup
    exact .refl _
  | none =>
    rw [hfound] at hlookup
    obtain ⟨id, w₂, halloc, hrest⟩ := Run.bind_ok.1 hlookup
    obtain ⟨rfl, rfl⟩ := Run.alloc_ok.1 halloc
    obtain ⟨_, w₃, hmodify, hreturn⟩ := Run.bind_ok.1 hrest
    obtain ⟨-, rfl⟩ := Run.pure_ok.1 hreturn
    rw [Run.modify_ok] at hmodify
    subst hmodify
    exact ⟨World.getElem?_push, rfl⟩

/-! ### The methods of an element -/

theorem stackFrame_ok {f : StackFrame} : stackFrame v σ w = (.ok f, w') ↔
    ∃ id cls fields, v = .ref id ∧ w.heap[id]? = some (.instance cls fields (.frame f)) ∧ w' = w := by
  unfold stackFrame
  rw [asHidden_ok]
  constructor
  · intro h
    obtain ⟨id, cls, fields, hidden, rfl, hid, hpick, rfl⟩ := h
    cases hidden with
    | frame f' =>
      obtain rfl := Option.some.inj hpick
      exact ⟨id, cls, fields, rfl, hid, rfl⟩
    | _ => cases hpick
  · intro h
    obtain ⟨id, cls, fields, rfl, hid, rfl⟩ := h
    exact ⟨id, cls, fields, _, rfl, hid, rfl, rfl⟩

/-- A method of an element answers a new string about its method. -/
theorem elementText_ok {text : StackFrame → String} {id : Nat} {cls : String}
    {fields : Option (List (String × Value))} {f : StackFrame}
    (hid : w.heap[id]? = some (.instance cls fields (.frame f)))
    (h : (do newText (text (← stackFrame (← arg [.ref id] 0))) : Run Value) σ w = (.ok x, w')) :
    ∃ id', x = .ref id' ∧ w.Grown w' ∧
      w'.heap[id']? = some (.string (Units.ofText (text f))) := by
  obtain ⟨v, _, hv, hrest⟩ := Run.bind_ok.1 h
  obtain ⟨hfirst, rfl⟩ := arg_ok.1 hv
  obtain rfl : Value.ref id = v := Option.some.inj hfirst
  obtain ⟨f', _, hf, htext⟩ := Run.bind_ok.1 hrest
  obtain ⟨id', cls', fields', heq, hid', rfl⟩ := stackFrame_ok.1 hf
  obtain rfl := Value.ref.inj heq
  rw [hid] at hid'
  obtain ⟨-, -, rfl⟩ : cls = cls' ∧ fields = fields' ∧ f = f' := by simpa using hid'
  exact newText_ok htext

theorem poolSize_ok (h : poolSize args σ w = (.ok x, w')) :
    x = .int (Int32.ofInt σ.config.poolSize) ∧ w' = w := by
  unfold poolSize at h
  obtain ⟨v, _, hv, hname⟩ := Run.bind_ok.1 h
  obtain ⟨-, rfl⟩ := arg_ok.1 hv
  obtain ⟨name, _, hhidden, hread⟩ := Run.bind_ok.1 hname
  obtain ⟨-, -, -, -, -, -, -, rfl⟩ := asHidden_ok.1 hhidden
  obtain ⟨s, _, hs, hcheck⟩ := Run.bind_ok.1 hread
  obtain ⟨rfl, rfl⟩ := Run.read_ok.1 hs
  split at hcheck
  · obtain ⟨_, _, hlack, -⟩ := Run.bind_ok.1 hcheck
    exact (Run.unsupported_ok.1 hlack).elim
  · exact Run.pure_ok.1 hcheck

/-- No method of the list but `append` changes an object. -/
theorem Inquiry.grown {name descriptor : String} {m : LibraryMethod}
    (hm : Inquiry name descriptor m) (hname : name ≠ "append") (h : m args σ w = (.ok x, w')) :
    w.Grown w' := by
  cases hm with
  | className | methodName =>
    obtain ⟨v, _, hv, hrest⟩ := Run.bind_ok.1 h
    obtain ⟨-, rfl⟩ := arg_ok.1 hv
    obtain ⟨f, _, hf, htext⟩ := Run.bind_ok.1 hrest
    obtain ⟨-, -, -, -, -, rfl⟩ := stackFrame_ok.1 hf
    obtain ⟨-, -, hgrown, -⟩ := newText_ok htext
    exact hgrown
  | forName =>
    obtain ⟨v, _, hv, hrest⟩ := Run.bind_ok.1 h
    obtain ⟨-, rfl⟩ := arg_ok.1 hv
    obtain ⟨⟨id, units⟩, _, hunits, hmirror⟩ := Run.bind_ok.1 hrest
    obtain ⟨-, -, rfl⟩ := asString_ok hunits
    exact grown_mirror hmirror
  | access hp => exact grown_newHidden h
  | pool hp =>
    obtain ⟨v, _, hv, hrest⟩ := Run.bind_ok.1 h
    obtain ⟨-, rfl⟩ := arg_ok.1 hv
    obtain ⟨text, _, htext, hnew⟩ := Run.bind_ok.1 hrest
    obtain ⟨-, -, -, -, -, -, -, rfl⟩ := asHidden_ok.1 htext
    exact grown_newHidden hnew
  | size =>
    obtain ⟨-, rfl⟩ := poolSize_ok h
    exact .refl _
  | append => exact absurd rfl hname

/-! ### Builders -/

/-- A builder whose content is changed is answered, and nothing else is changed. -/
theorem changeBuilder_ok {id : Nat} {cls : String} {fields : Option (List (String × Value))}
    {units units' : Units} {change : Units → Run Units} {f : Object → Object}
    (hid : w.heap[id]? = some (.instance cls fields (.builder units)))
    (hchange : change units σ w = (.ok units', w))
    (hf : f (.instance cls fields (.builder units)) = .instance cls fields (.builder units'))
    (rest : List Value) : changeBuilder (.ref id :: rest) change σ w =
      (.ok (.ref id), { w with heap := w.heap.modify id f }) := by
  have hunits : builderUnits (.ref id) σ w = (.ok units, w) :=
    asHidden_ok.2 ⟨id, cls, fields, _, rfl, hid, rfl, rfl⟩
  have hset : setBuilder (.ref id) units' σ w =
      (.ok (), { w with heap := w.heap.modify id f }) := by
    refine Run.modify_ok.2 ?_
    congr 1
    refine Array.ext_getElem? fun i => ?_
    rw [Array.getElem?_modify, Array.getElem?_modify]
    split
    · rename_i heq
      rw [← heq, hid]
      exact congrArg some hf
    · rfl
  exact Run.bind_ok.2 ⟨_, _, arg_ok.2 ⟨rfl, rfl⟩, Run.bind_ok.2 ⟨_, _, hunits,
    Run.bind_ok.2 ⟨_, _, hchange, Run.bind_ok.2 ⟨_, _, hset, Run.pure_ok.2 ⟨rfl, rfl⟩⟩⟩⟩⟩

/-! ### Appending -/

/-- What a value shows when it is appended as a value of a type; looking at it changes
nothing. -/
def Shows (w : World) (v : Value) (type : String) (units : Units) : Prop :=
  ∀ σ, unitsOf v type σ w = (.ok units, w)

theorem shows_string {id : Nat} {units : Units} (h : w.heap[id]? = some (.string units))
    (type : String) : Shows w (.ref id) type units := by
  intro σ
  refine Run.bind_ok.2 ⟨_, _, Run.object?_ok.2 ⟨rfl, rfl⟩, ?_⟩
  rw [h]
  exact Run.pure_ok.2 ⟨rfl, rfl⟩

theorem shows_int (w : World) (n : Int32) :
    Shows w (.int n) "I" (Units.ofText (toString n.toInt)) := fun _ => rfl

/-- The object with a text put behind what it has in it. -/
def extended (text : Units) : Object → Object
  | .instance cls fields (.builder units) => .instance cls fields (.builder (units ++ text))
  | o => o

theorem append_ok {id : Nat} {cls type : String} {fields : Option (List (String × Value))}
    {units text : Units} (hid : w.heap[id]? = some (.instance cls fields (.builder units)))
    (hshows : Shows w v type text) :
    append type [.ref id, v] σ w =
      (.ok (.ref id), { w with heap := w.heap.modify id (extended text) }) := by
  have hchange : (do return units ++ (← unitsOf (← arg [.ref id, v] 1) type) : Run Units) σ w =
      (.ok (units ++ text), w) :=
    Run.bind_ok.2 ⟨_, _, arg_ok.2 ⟨rfl, rfl⟩,
      Run.bind_ok.2 ⟨_, _, hshows σ, Run.pure_ok.2 ⟨rfl, rfl⟩⟩⟩
  exact changeBuilder_ok hid hchange rfl [v]

end Answers

end Cleartext.Machine.Library
