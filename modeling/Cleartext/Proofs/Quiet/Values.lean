import Cleartext.Machine.Library.Basic
import Cleartext.Proofs.Quiet.Worlds

/-!
# Values, objects and exceptions at rest

The computations that library methods and instructions share are quiet, one lemma for
each.

Exceptions keep the call stack that they were made on.  They are where the caller gets
into a world without anybody asking, so `throwNew` is compared with two different call
stacks at hand (`quiet_callStack_bind`).
-/

namespace Cleartext.Machine

namespace Run

variable {sight : Bool} {α β : Type}

/-! ## Exceptions -/

@[grind ←] theorem quiet_stringText (id : Nat) : Quiet sight (stringText id) := by
  refine quiet_object_bind _ (fun o => ?_) fun _ o => by rcases o with _ | _ | _ | _ <;> rfl
  split <;> grind

/-- The call stack of an exception is not seen without sight. -/
theorem seen_throwable {cls : String} {fields : Option (List (String × Value))}
    {message : Option Nat} {trace trace' : List StackFrame} (h : sight = true → trace = trace') :
    (Object.instance cls fields (.throwable message trace)).seen sight =
      (Object.instance cls fields (.throwable message trace')).seen sight := by
  cases sight with
  | true => rw [h rfl]
  | false => rfl

/-- What is done with the call stack does not show it without sight. -/
theorem quiet_callStack_bind {k : List StackFrame → Run β} (horderly : ∀ trace, Orderly (k trace))
    (hblind : ∀ trace trace', (sight = true → trace = trace') → Blind sight (k trace) (k trace')) :
    Quiet sight (callStack >>= k) :=
  ⟨blind_callStack_bind hblind, orderly_bind (orderly_of_same fun _ _ => rfl) horderly⟩

@[grind ←] theorem quiet_throwNew (cls message : String) :
    Quiet sight (throwNew cls message : Run α) := by
  have horderly (message : Option Nat) (trace : List StackFrame) : Orderly
      (do throw (.thrown (← alloc (.instance cls none (.throwable message trace)))) : Run α) :=
    orderly_bind (orderly_alloc (by simp)) fun _ => orderly_of_same fun _ _ => rfl
  have hblind (message : Option Nat) {trace trace' : List StackFrame}
      (h : sight = true → trace = trace') : Blind sight
        (do throw (.thrown (← alloc (.instance cls none (.throwable message trace)))) : Run α)
        (do throw (.thrown (← alloc (.instance cls none (.throwable message trace'))))) :=
    blind_bind (blind_alloc (seen_throwable h)) fun _ => blind_throw _
  have htext : Quiet sight (some <$> alloc (.string (Units.ofText message))) :=
    quiet_bind (quiet_alloc (by simp)) fun _ => quiet_pure _
  refine quiet_callStack_bind (fun trace => ?_) fun trace trace' h => ?_
  · dsimp only
    split
    · exact orderly_bind (orderly_of_same fun _ _ => rfl) (horderly · trace)
    · exact orderly_bind htext.orderly (horderly · trace)
  · dsimp only
    split
    · exact blind_bind (blind_pure _) (hblind · h)
    · exact blind_bind htext.blind (hblind · h)

@[grind ←] theorem quiet_throwNull : Quiet sight (throwNull : Run α) := quiet_throwNew _ _

/-! ## Classes and kinds -/

@[grind ←] theorem quiet_runtimeClass (v : Value) : Quiet sight (runtimeClass v) := by
  refine quiet_deref_bind v (fun o => ?_) fun _ o => by rcases o with _ | _ | _ | _ <;> rfl
  split <;> grind

@[grind ←] theorem quiet_className (v : Value) : Quiet sight (className v) :=
  quiet_bind (quiet_runtimeClass v) fun _ => quiet_pure _

@[grind ←] theorem quiet_kindName (v : Value) : Quiet sight (kindName v) := by
  unfold kindName
  split
  case h_7 =>
    refine quiet_object_bind _ (fun o => ?_) fun _ o => by rcases o with _ | _ | _ | _ <;> rfl
    split <;> grind
  all_goals grind

@[grind ←] theorem quiet_arrayInstanceOf (component cls : String) :
    Quiet sight (arrayInstanceOf component cls) := by
  unfold arrayInstanceOf
  split
  · split
    · grind
    · split
      · grind
      · split
        · grind
        · split
          · grind
          · split
            · grind
            · split
              · exact quiet_read_bind (fun _ => quiet_pure _) fun σ σ' h => by rw [h.program]
              · grind
  · grind

@[grind ←] theorem quiet_instanceOf (v : Value) (cls : String) : Quiet sight (instanceOf v cls) := by
  refine quiet_deref_bind v (fun o => ?_) fun _ o => by rcases o with _ | _ | _ | _ <;> rfl
  split
  · grind
  · exact quiet_read_bind (fun _ => by grind) fun σ σ' h => by rw [h.program]

/-! ## Shared objects -/

@[grind ←] theorem quiet_mirror (cls : String) : Quiet sight (mirror cls) := by
  refine quiet_world_bind (fun w => ?_) fun _ => rfl
  split
  · grind
  · exact quiet_bind (quiet_alloc (by simp)) fun id =>
      quiet_bind (quiet_modify (fun _ => rfl) (fun _ => rfl) fun _ => rfl) fun _ => quiet_pure _

@[grind ←] theorem quiet_intern (units : Units) : Quiet sight (intern units) := by
  refine quiet_world_bind (fun w => ?_) fun _ => rfl
  extract_lets share
  have hshare (shared : Option Nat) : Quiet sight (share shared) := by
    dsimp only [share]
    split
    · grind
    · exact quiet_bind (quiet_alloc (by simp)) fun id =>
        quiet_bind (quiet_modify (fun _ => rfl) (fun _ => rfl) fun _ => rfl) fun _ => quiet_pure _
  split
  · exact quiet_bind (quiet_pure none) hshare
  · refine quiet_object_bind _ (fun o => ?_) fun _ o => by rcases o with _ | _ | _ | _ <;> rfl
    split
    · exact quiet_bind (quiet_pure _) hshare
    · exact quiet_bind (quiet_pure _) hshare

@[grind ←] theorem quiet_identityHash (v : Value) : Quiet sight (identityHash v) := by
  refine quiet_world_bind (fun w => ?_) fun _ => rfl
  dsimp only
  split
  · grind
  · exact quiet_bind (quiet_modify (fun _ => rfl) (fun _ => rfl) fun _ => rfl) fun _ => quiet_pure _

@[grind ←] theorem quiet_ofLoadable (l : Loadable) : Quiet sight (ofLoadable l) := by
  unfold ofLoadable
  split <;> grind

/-! ## New objects and hidden state -/

@[grind ←] theorem quiet_newUnits (units : Units) : Quiet sight (newUnits units) :=
  quiet_new (by simp)

@[grind ←] theorem quiet_newText (text : String) : Quiet sight (newText text) := quiet_newUnits _

@[grind ←] theorem quiet_newHidden (cls : String) (hidden : Hidden) :
    Quiet sight (newHidden cls hidden) :=
  quiet_new (by simp)

@[grind ←] theorem quiet_newChars (units : Units) : Quiet sight (newChars units) :=
  quiet_new (by simp)

@[grind ←] theorem quiet_newBytes (bytes : Bytes) : Quiet sight (newBytes bytes) :=
  quiet_new (by simp)

theorem orderly_setHidden (id : Nat) (hidden : Hidden) : Orderly (setHidden id hidden) :=
  orderly_update id fun o => by cases o <;> rfl

theorem blind_setHidden {id : Nat} {hidden hidden' : Hidden}
    (h : ∀ cls fields, (Object.instance cls fields hidden).seen sight =
      (Object.instance cls fields hidden').seen sight) :
    Blind sight (setHidden id hidden) (setHidden id hidden') := by
  refine blind_update id fun o o' ho => ?_
  rcases Object.cases_of_seen ho with rfl | ⟨-, cls, fields, old, old', rfl, rfl, -⟩
  · cases o with
    | «instance» cls fields old => exact h cls fields
    | _ => rfl
  · exact h cls fields

@[grind ←] theorem quiet_setHidden (id : Nat) (hidden : Hidden) : Quiet sight (setHidden id hidden) :=
  ⟨blind_setHidden fun _ _ => rfl, orderly_setHidden id hidden⟩

/-! ## Arguments -/

@[grind ←] theorem quiet_arg (args : List Value) (i : Nat) : Quiet sight (arg args i) := by
  unfold arg
  split <;> grind

@[grind ←] theorem quiet_intArg (args : List Value) (i : Nat) : Quiet sight (intArg args i) := by
  unfold intArg
  grind

@[grind ←] theorem quiet_longArg (args : List Value) (i : Nat) : Quiet sight (longArg args i) := by
  unfold longArg
  grind

@[grind ←] theorem quiet_selfUnits (args : List Value) : Quiet sight (selfUnits args) := by
  refine quiet_bind (quiet_arg args 0) fun v => quiet_deref_bind v (fun o => ?_) fun _ o => by
    rcases o with _ | _ | _ | _ <;> rfl
  split <;> grind

@[grind ←] theorem quiet_selfInstance (args : List Value) : Quiet sight (selfInstance args) := by
  refine quiet_bind (quiet_arg args 0) fun v => ?_
  split
  · refine quiet_object_bind _ (fun o => ?_) fun _ o => by rcases o with _ | _ | _ | _ <;> rfl
    split <;> grind
  · grind

@[grind ←] theorem quiet_asString (v : Value) : Quiet sight (asString v) := by
  unfold asString
  split
  · grind
  · refine quiet_object_bind _ (fun o => ?_) fun _ o => by rcases o with _ | _ | _ | _ <;> rfl
    split <;> grind
  · grind

@[grind ←] theorem quiet_asArray (v : Value) : Quiet sight (asArray v) := by
  unfold asArray
  split
  · grind
  · refine quiet_object_bind _ (fun o => ?_) fun _ o => by rcases o with _ | _ | _ | _ <;> rfl
    split <;> grind
  · grind

/-- What is picked from the hidden state may decide what follows, without sight apart from
a call stack. -/
theorem quiet_asHidden_bind (v : Value) {pick : Hidden → Option α} {k : α → Run β}
    (hk : ∀ a, Quiet sight (k a))
    (hpick : sight = false → ∀ hidden, (pick hidden.unmarked).map k = (pick hidden).map k) :
    Quiet sight (asHidden v pick >>= k) := by
  unfold asHidden
  split
  · grind
  · rw [bind_assoc]
    refine quiet_object_bind _ (fun o => ?_) fun hsight o => ?_
    · split
      · split <;> grind
      · grind
    · rcases o with _ | _ | _ | ⟨cls, fields, hidden⟩
      · rfl
      · rfl
      · rfl
      · have hsame := hpick hsight hidden
        simp only [Option.map_some, Object.unmarked]
        cases hbare : pick hidden.unmarked <;> cases hfull : pick hidden <;>
          simp only [hbare, hfull, Option.map_none, Option.map_some, reduceCtorEq,
            Option.some.injEq] at hsame
        · rfl
        · simpa using hsame
  · grind

theorem quiet_asHidden (v : Value) {pick : Hidden → Option α}
    (hpick : sight = false → ∀ hidden, pick hidden.unmarked = pick hidden) :
    Quiet sight (asHidden v pick) := by
  rw [← bind_pure (asHidden v pick)]
  exact quiet_asHidden_bind v quiet_pure fun hsight hidden => by rw [hpick hsight]

@[grind ←] theorem quiet_hiddenText (v : Value) : Quiet sight (hiddenText v) :=
  quiet_asHidden v fun _ hidden => by cases hidden <;> rfl

/-! ## The texts of values -/

@[grind ←] theorem quiet_hashedName (name : String) (v : Value) : Quiet sight (hashedName name v) :=
  quiet_bind (quiet_identityHash v) fun _ => quiet_pure _

@[grind ←] theorem quiet_plainUnits (v : Value) (type : String) : Quiet sight (plainUnits v type) := by
  unfold plainUnits
  split <;> grind

@[grind ←] theorem quiet_unitsOf (v : Value) (type : String) : Quiet sight (unitsOf v type) := by
  refine quiet_deref_bind v (fun o => ?_) fun _ o => ?_
  · split
    · grind
    · grind
    · grind
    · split
      · grind
      · split <;> grind
      · dsimp only
        split <;> grind
  · rcases o with _ | _ | _ | ⟨cls, fields, _ | _ | _ | _ | _ | _ | _⟩ <;> rfl

end Run

end Cleartext.Machine
