import Cleartext.Proofs.Twin.Library

/-!
# Strings and builders in both runs
-/

namespace Cleartext.Machine.Library

variable {f : Numbering} {args args' : List Value} {v v' : Value}

/-! ## Builders -/

theorem builderUnits_twin (hv : v.Like f v') : Still Eq f (builderUnits v) (builderUnits v') := by
  refine asHidden_twin hv fun x x' hx => ?_
  cases hx with
  | builder units => exact .some rfl
  | _ => exact .none

theorem setBuilder_twin (hv : v.Like f v') (units : Units) :
    Still Eq f (setBuilder v units) (setBuilder v' units) := by
  cases hv with
  | ref hij => exact setHidden_twin hij (.builder units)
  | _ => exact .collapse

theorem changeBuilder_twin (h : List.Forall₂ (Value.Like f) args args')
    {change change' : Units → Run Units} (hchange : ∀ units, Still Eq f (change units) (change' units)) :
    Twin Value.Like f (changeBuilder args change) (changeBuilder args' change') :=
  (arg_twin h 0).bind fun _ _ hself => (builderUnits_twin hself).bind_eq fun units =>
    (hchange units).bind_eq fun changed => (setBuilder_twin hself changed).bind_eq fun _ => .pure hself

theorem mutateBuilder_twin (h : List.Forall₂ (Value.Like f) args args')
    {change change' : Units → Run Units} (hchange : ∀ units, Still Eq f (change units) (change' units)) :
    Twin Value.Like f (mutateBuilder args change) (mutateBuilder args' change') :=
  (changeBuilder_twin h hchange).bind fun _ _ _ _ _ => .pure .null

theorem checkPosition_twin (units : Units) (i : Int32) (atEnd : Bool) :
    Still Eq f (checkPosition units i atEnd) (checkPosition units i atEnd) := by
  unfold checkPosition
  refine check_twin _ _ ?_
  exact .done rfl

theorem initBuilder_twin : MethodTwin initBuilder := by
  intro f args args' h
  have hset (units : Units) : Twin Value.Like f
      (do setHidden (← selfInstance args) (.builder units); return nothing)
      (do setHidden (← selfInstance args') (.builder units); return nothing) :=
    (selfInstance_twin h).bind fun _ _ hij =>
      (setHidden_twin hij (.builder units)).bind_eq fun _ => .pure .null
  have hfilled {u u' : Value} (hu : u.Like f u') : Twin Value.Like f
      (do let units ← unitsOf u ""; setHidden (← selfInstance args) (.builder units); return nothing)
      (do let units ← unitsOf u' ""; setHidden (← selfInstance args') (.builder units); return nothing) :=
    (unitsOf_twin hu "").bind_eq hset
  unfold initBuilder
  cases h with
  | nil => exact hset []
  | cons hself hrest =>
    cases hrest with
    | nil => exact hset []
    | cons hu _ =>
      cases hu with
      | int => exact hset []
      | null => exact Still.bind_eq throwNull_twin hset
      | ref hij => exact hfilled (.ref hij)
      | long | float | double => exact hfilled (by constructor)
      | address h => exact hfilled (.address h)

theorem append_twin (type : String) : MethodTwin (append type) :=
  fun _ _ _ h => changeBuilder_twin h fun _ => (arg_twin h 1).bind fun _ _ hv =>
    (unitsOf_twin hv type).bind_eq fun _ => .done rfl

theorem appendChars_twin : MethodTwin appendChars :=
  fun _ _ _ h => changeBuilder_twin h fun units => (arg_twin h 1).bind fun _ _ hv =>
    (asArray_twin hv).bind fun a a' ha => .done (by rw [elementUnits_eq ha.2.2])

theorem builderCharAt_twin : MethodTwin builderCharAt :=
  fun _ _ _ h => (arg_twin h 0).bind fun _ _ hv => (builderUnits_twin hv).bind_eq fun units =>
    (intArg_twin h 1).bind_eq fun i => (checkPosition_twin units i false).bind_eq fun _ =>
      .pure (.int _)

theorem unitArg_twin (h : List.Forall₂ (Value.Like f) args args') (i : Nat) :
    Still Eq f (unitArg args i) (unitArg args' i) :=
  (intArg_twin h i).bind_eq fun _ => .done rfl

theorem setLength_twin : MethodTwin setLength :=
  fun _ _ _ h => mutateBuilder_twin h fun _ => (intArg_twin h 1).bind_eq fun _ =>
    check_twin _ _ (.done rfl)

theorem newBuilder?_twin (descriptor : String) : TableTwin (newBuilder? descriptor) := by
  unfold newBuilder?
  split
  all_goals first
    | exact tableTwin_some initBuilder_twin
    | exact tableTwin_none

theorem append?_twin (type : String) : TableTwin (append? type) := by
  have happend (type : String) : TableTwin (some (append type)) := tableTwin_some (append_twin type)
  unfold append?
  split
  · exact happend "C"
  · exact happend "I"
  · exact happend "J"
  · exact happend "Z"
  · exact happend "F"
  · exact happend "D"
  · exact happend ""
  · exact happend ""
  · exact happend ""
  · exact tableTwin_some appendChars_twin
  · exact tableTwin_none

theorem plainBuilderMethod?_twin (signature : String) :
    TableTwin (plainBuilderMethod? signature) := by
  unfold plainBuilderMethod?
  split
  · exact tableTwin_some fun _ _ _ h => (arg_twin h 0).bind fun _ _ hv =>
      (builderUnits_twin hv).bind_eq fun units => newUnits_twin units
  · exact tableTwin_some fun _ _ _ h => (arg_twin h 0).bind fun _ _ hv =>
      (builderUnits_twin hv).bind_eq fun units => .pure (.int _)
  · exact tableTwin_some builderCharAt_twin
  · exact tableTwin_some fun _ _ _ h => mutateBuilder_twin h fun units =>
      (intArg_twin h 1).bind_eq fun i => (checkPosition_twin units i false).bind_eq fun _ =>
      (unitArg_twin h 2).bind_eq fun _ => .done rfl
  · exact tableTwin_some setLength_twin
  · exact tableTwin_none

theorem chainedBuilderMethod?_twin (signature : String) :
    TableTwin (chainedBuilderMethod? signature) := by
  unfold chainedBuilderMethod?
  split
  · exact tableTwin_some fun _ _ _ h => changeBuilder_twin h fun units =>
      (intArg_twin h 1).bind_eq fun i => (checkPosition_twin units i false).bind_eq fun _ => .done rfl
  · exact tableTwin_some fun _ _ _ h => changeBuilder_twin h fun units =>
      (intArg_twin h 1).bind_eq fun i => (checkPosition_twin units i true).bind_eq fun _ =>
      (unitArg_twin h 2).bind_eq fun _ => .done rfl
  · exact tableTwin_some fun _ _ _ h => changeBuilder_twin h fun units => .done rfl
  · exact tableTwin_none

theorem builderMethod?_twin (cls name descriptor : String) :
    TableTwin (builderMethod? cls name descriptor) := by
  unfold builderMethod?
  split
  · exact newBuilder?_twin _
  · split
    · split
      · exact append?_twin _
      · exact chainedBuilderMethod?_twin _
    · exact plainBuilderMethod?_twin _

/-! ## Strings -/

theorem substring_twin (units : Units) (start stop : Int32) :
    Twin Value.Like f (substring units start stop) (substring units start stop) := by
  unfold substring
  exact check_twin _ _ (newUnits_twin _)

theorem charset_twin (name : Option Units) : Still Eq f (charset name) (charset name) := by
  unfold charset
  refine read_twin.bind fun σ σ' hσ => ?_
  rw [hσ.config]
  dsimp only
  split
  · exact .done rfl
  · split
    · exact .done rfl
    · exact throwNew_twin _ _

theorem encodeString_twin (units : Units) (name : Option Units) :
    Twin Value.Like f (encodeString units name) (encodeString units name) :=
  (charset_twin name).bind_eq fun charset => by
    cases charset.encode units.text with
    | ok bytes => exact newBytes_twin bytes
    | error why => exact .unsupported

theorem decodeBytes_twin (bytes : Bytes) (name : Option Units) :
    Still Eq f (decodeBytes bytes name) (decodeBytes bytes name) :=
  (charset_twin name).bind_eq fun charset => by
    cases charset.decode bytes with
    | ok text => exact .done rfl
    | error why => exact .unsupported

theorem fill_twin (hv : v.Like f v') (units : Units) :
    Twin Value.Like f (fill v units) (fill v' units) :=
  (asString_twin hv).bind fun _ _ ha =>
    (update_twin ha.1 fun _ _ _ => .string units).bind_eq fun _ => .pure .null

theorem rangeUnits_twin {elements elements' : Array Value}
    (h : List.Forall₂ (Value.Like f) elements.toList elements'.toList) (start length : Int32) :
    Still Eq f (rangeUnits elements start length) (rangeUnits elements' start length) := by
  have hsize : elements.size = elements'.size := by simpa using h.length_eq
  unfold rangeUnits
  dsimp only
  rw [hsize]
  exact check_twin _ _ (.done (elementUnits_eq (forall₂_extract h _ _)))

theorem newString?_twin (descriptor : String) : TableTwin (newString? descriptor) := by
  unfold newString?
  split
  · exact tableTwin_some fun _ _ _ h => (arg_twin h 0).bind fun _ _ hv => fill_twin hv []
  · refine tableTwin_some fun _ _ _ h => (arg_twin h 1).bind fun _ _ hu =>
      (asString_twin hu).bind fun a a' ha => (arg_twin h 0).bind fun _ _ hv => ?_
    rw [ha.2]
    exact fill_twin hv _
  · refine tableTwin_some fun _ _ _ h => (arg_twin h 1).bind fun _ _ hu =>
      (asArray_twin hu).bind fun a a' ha => (arg_twin h 0).bind fun _ _ hv => ?_
    rw [elementUnits_eq ha.2.2]
    exact fill_twin hv _
  · exact tableTwin_some fun _ _ _ h => (arg_twin h 1).bind fun _ _ hu =>
      (asArray_twin hu).bind fun a a' ha => (intArg_twin h 2).bind_eq fun start =>
      (intArg_twin h 3).bind_eq fun length => (rangeUnits_twin ha.2.2 start length).bind_eq fun units =>
      (arg_twin h 0).bind fun _ _ hv => fill_twin hv units
  · refine tableTwin_some fun _ _ _ h => (arg_twin h 1).bind fun _ _ hu =>
      (asArray_twin hu).bind fun a a' ha => (arg_twin h 0).bind fun _ _ hv => ?_
    rw [elementBytes_eq ha.2.2]
    exact (decodeBytes_twin _ none).bind_eq fun units => fill_twin hv units
  · refine tableTwin_some fun _ _ _ h => (arg_twin h 1).bind fun _ _ hu =>
      (asArray_twin hu).bind fun a a' ha => (arg_twin h 2).bind fun _ _ hn =>
      (asString_twin hn).bind fun b b' hb => (arg_twin h 0).bind fun _ _ hv => ?_
    rw [elementBytes_eq ha.2.2, hb.2]
    exact (decodeBytes_twin _ _).bind_eq fun units => fill_twin hv units
  · exact tableTwin_none

theorem valueOf_twin (type : String) : MethodTwin (valueOf type) :=
  fun _ _ _ h => (arg_twin h 0).bind fun _ _ hv => (unitsOf_twin hv type).bind_eq fun units =>
    newUnits_twin units

theorem ofChars_twin : MethodTwin (fun args => do
    let (_, _, elements) ← asArray (← arg args 0)
    newUnits (elementUnits elements)) := by
  refine fun _ _ _ h => (arg_twin h 0).bind fun _ _ hv => (asArray_twin hv).bind fun a a' ha => ?_
  dsimp only
  rw [elementUnits_eq ha.2.2]
  exact newUnits_twin _

theorem textOf?_twin (descriptor : String) : TableTwin (textOf? descriptor) := by
  unfold textOf?
  split
  case h_6 => exact tableTwin_some ofChars_twin
  case h_7 => exact tableTwin_none
  all_goals exact tableTwin_some (valueOf_twin _)

theorem stringEquals_twin : MethodTwin stringEquals := by
  refine fun _ _ _ h => (arg_twin h 1).bind fun _ _ hv => (deref?_twin hv).bind fun _ _ ho => ?_
  cases ho with
  | none => exact .pure (.int _)
  | some ho =>
    cases ho with
    | string other => exact (selfUnits_twin h).bind_eq fun units => .pure (.int _)
    | _ => exact .pure (.int _)

theorem charAt_twin : MethodTwin charAt := by
  refine fun _ _ _ h => (selfUnits_twin h).bind_eq fun units => (intArg_twin h 1).bind_eq fun i => ?_
  split
  · exact .pure (.int _)
  · exact throwNew_twin _ _

theorem positionValue_like (position : Option Nat) :
    (positionValue position).Like f (positionValue position) := by
  cases position <;> exact .int _

theorem indexOfUnit_twin : MethodTwin indexOfUnit := by
  refine fun _ _ _ h => (selfUnits_twin h).bind_eq fun units => ?_
  split
  · exact .pure (positionValue_like none)
  · exact (intArg_twin h 1).bind_eq fun wanted => .pure (positionValue_like _)

theorem indexOfString_twin : MethodTwin indexOfString :=
  fun _ _ _ h => (arg_twin h 1).bind fun _ _ hv => (asString_twin hv).bind fun _ _ ha =>
    (selfUnits_twin h).bind_eq fun _ => ha.2 ▸ .pure (positionValue_like _)

theorem concat_twin : MethodTwin concat :=
  fun _ _ _ h => (arg_twin h 1).bind fun _ _ hv => (asString_twin hv).bind fun _ _ ha =>
    (selfUnits_twin h).bind_eq fun _ => ha.2 ▸ newUnits_twin _

theorem mapM_twin {α β : Type} {k k' : α → Run β} (hk : ∀ a, Still Eq f (k a) (k' a)) (l : List α) :
    Still Eq f (l.mapM k) (l.mapM k') := by
  induction l with
  | nil => exact .done rfl
  | cons a l ih =>
    rw [List.mapM_cons, List.mapM_cons]
    exact (hk a).bind_eq fun b => ih.bind_eq fun bs => .done rfl

theorem replaceUnit_twin : MethodTwin replaceUnit := by
  refine fun _ _ _ h => (selfUnits_twin h).bind_eq fun units =>
    (mapM_twin (fun u => (intArg_twin h 1).bind_eq fun old => ?_) units).bind_eq fun changed =>
    newUnits_twin changed
  split
  · exact (intArg_twin h 2).bind_eq fun new => .done rfl
  · exact .done rfl

theorem plainStringMethod?_twin (signature : String) :
    TableTwin (plainStringMethod? signature) := by
  unfold plainStringMethod?
  split
  · exact tableTwin_some fun _ _ _ h => (selfUnits_twin h).bind_eq fun _ => .pure (.int _)
  · exact tableTwin_some fun _ _ _ h => (selfUnits_twin h).bind_eq fun _ => .pure (.int _)
  · exact tableTwin_some charAt_twin
  · exact tableTwin_some fun _ _ _ h => (selfUnits_twin h).bind_eq fun units => newChars_twin units
  · exact tableTwin_some fun _ _ _ h => (selfUnits_twin h).bind_eq fun units =>
      encodeString_twin units none
  · exact tableTwin_some fun _ _ _ h => (arg_twin h 1).bind fun _ _ hv =>
      (asString_twin hv).bind fun a a' ha => (selfUnits_twin h).bind_eq fun units =>
      ha.2 ▸ encodeString_twin units _
  · exact tableTwin_some stringEquals_twin
  · exact tableTwin_some fun _ _ _ h => (selfUnits_twin h).bind_eq fun _ => .pure (.int _)
  · exact tableTwin_some fun _ _ _ h => (selfUnits_twin h).bind_eq fun units => intern_twin units
  · exact tableTwin_some fun _ _ _ h => (arg_twin h 0).grow fun _ _ hv => hv
  · exact tableTwin_some fun _ _ _ h => (selfUnits_twin h).bind_eq fun units =>
      (intArg_twin h 1).bind_eq fun start => substring_twin units start _
  · exact tableTwin_some fun _ _ _ h => (selfUnits_twin h).bind_eq fun units =>
      (intArg_twin h 1).bind_eq fun start => (intArg_twin h 2).bind_eq fun stop =>
      substring_twin units start stop
  · exact tableTwin_some indexOfUnit_twin
  · exact tableTwin_some indexOfString_twin
  · exact tableTwin_some concat_twin
  · exact tableTwin_some replaceUnit_twin
  · exact tableTwin_none

theorem stringMethod?_twin (name descriptor : String) :
    TableTwin (stringMethod? name descriptor) := by
  unfold stringMethod?
  split
  · exact newString?_twin _
  · split
    · exact textOf?_twin _
    · exact plainStringMethod?_twin _

end Cleartext.Machine.Library
