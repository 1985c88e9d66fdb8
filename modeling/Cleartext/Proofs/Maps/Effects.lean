import Cleartext.Proofs.Maps.Keys
import Cleartext.Proofs.Memory.Requests

/-!
# What instructions do to maps

A call of a method of a map is read off the instruction (`Step.mapCall?`), and what it answers is
read off the entries of the map.  No instruction other than a `put` changes the entries of a map,
or makes an object another key, unless it calls a constructor on it.

* `Step.run_mapCall`: a call on a map goes on with its answer on the stack.
* `Step.run_emptied`: the constructors of maps leave a map without entries.
* `Step.run_effect`: what any instruction leaves.
-/

namespace Cleartext.Machine

/-! ## The entries of a map -/

/-- An instance that was made a map with the given entries. -/
def Object.withTable (entries : List (MapKey × Value)) : Object → Object
  | .instance cls fields _ => .instance cls fields (.table entries)
  | o => o

namespace World

variable {w w' w'' : World} {id : Nat} {entries old : List (MapKey × Value)} {v : Value}

/-- The entries of the map with the given number. -/
def entries? (w : World) (id : Nat) : Option (List (MapKey × Value)) :=
  match w.core? id with
  | some (.instance _ _ (.table entries)) => some entries
  | _ => none

/-- The world in which a map has other entries. -/
def withEntries (w : World) (id : Nat) (entries : List (MapKey × Value)) : World :=
  { w with heap := w.heap.modify id (Object.withTable entries) }

theorem entries?_eq_some :
    w.entries? id = some entries ↔
      ∃ cls fields, w.heap[id]? = some (.instance cls fields (.table entries)) := by
  unfold entries? core?
  rcases w.heap[id]? with _ | _ | _ | ⟨cls, fields, hidden⟩
  case some.instance => cases hidden <;> simp [Object.core, Hidden.core]
  all_goals simp [Object.core]

theorem entries?_withEntries {cls : String} {fields : Option (List (String × Value))}
    {hidden : Hidden} (h : w.heap[id]? = some (.instance cls fields hidden)) :
    (w.withEntries id entries).entries? id = some entries := by
  refine entries?_eq_some.2 ⟨cls, fields, ?_⟩
  show (w.heap.modify id _)[id]? = _
  rw [Array.getElem?_modify, if_pos rfl, h]
  rfl

/-- The other objects are what they were. -/
theorem core?_withEntries {i : Nat} (h : i ≠ id) :
    (w.withEntries id entries).core? i = w.core? i := by
  show ((w.heap.modify id _)[i]?).map Object.core = _
  rw [Array.getElem?_modify, if_neg (Ne.symm h)]
  rfl

/-- A map is the same key whatever its entries are. -/
theorem IsKey.withEntries (h : w.IsKey v) (hmap : w.entries? id = some old)
    (entries : List (MapKey × Value)) :
    (w.withEntries id entries).IsKey v ∧ (w.withEntries id entries).key v = w.key v := by
  by_cases hv : v = .ref id
  · subst hv
    obtain ⟨o, ho, hbox⟩ := h
    obtain ⟨cls, fields, hget⟩ := entries?_eq_some.1 hmap
    obtain rfl := Option.some.inj (ho.symm.trans hget)
    have hafter :
        (w.withEntries id entries).heap[id]? = some (.instance cls fields (.table entries)) := by
      show (w.heap.modify id _)[id]? = _
      rw [Array.getElem?_modify, if_pos rfl, hget]
      rfl
    refine ⟨⟨_, hafter, hbox⟩, ?_⟩
    simp only [key, hafter, hget, Option.map_some, Option.getD_some]
    unfold Object.key
    rw [Object.boxed?_table, Object.boxed?_table]
  · refine h.of_core fun i o heq ho => ?_
    rwa [core?_withEntries fun hi => hv (by rw [heq, hi])]

/-! ## Worlds that retain the objects -/

/-- A world in which all objects have their cores still. -/
def Retains (w w' : World) : Prop := ∀ id o, w.core? id = some o → w'.core? id = some o

theorem Spares.retains (h : w.Spares none w') : w.Retains w' := fun id o => h.core id o nofun

theorem Retains.trans (h : w.Retains w') (h' : w'.Retains w'') : w.Retains w'' :=
  fun id o ho => h' id o (h id o ho)

theorem retains_withShared (w : World) (units : Units) : w.Retains (w.withShared units) := by
  intro id o ho
  unfold withShared
  cases w.shared? units with
  | some _ => exact ho
  | none => exact core?_push ho

end World

namespace Run

variable {α β : Type} {r : Run α} {k : α → Run β} {σ : Setting} {w : World}

theorem retains_bind (h : w.Retains (r σ w).2)
    (hk : ∀ a w₁, r σ w = (.ok a, w₁) → w₁.Retains (k a σ w₁).2) : w.Retains ((r >>= k) σ w).2 :=
  world_bind .trans h hk

theorem retains_ofLoadable (c : Loadable) (σ : Setting) (w : World) :
    w.Retains (ofLoadable c σ w).2 := by
  cases c with
  | string units =>
    rw [ofLoadable, intern_sharing]
    exact w.retains_withShared units
  | class_ name => exact (sparing_mirror name σ w).retains
  | _ => exact fun _ _ h => h

end Run

/-- Filling a recipe makes strings, and retains the objects. -/
theorem Step.retains_fillRecipe (pool : Pool) (σ : Setting) (recipe : Units)
    (values : List (Value × String)) (constants : List UInt16) (w : World) :
    w.Retains (fillRecipe pool recipe values constants σ w).2 := by
  induction recipe generalizing values constants w with
  | nil => exact fun _ _ h => h
  | cons u recipe ih =>
    have hrest {f : Units → Units} (values : List (Value × String)) (constants : List UInt16)
        (w : World) :
        w.Retains ((do return f (← fillRecipe pool recipe values constants) : Run Units) σ w).2 :=
      Run.retains_bind (ih values constants w) fun _ _ _ _ _ h => h
    unfold fillRecipe
    split
    · split
      · exact fun _ _ h => h
      · exact Run.retains_bind (Run.sparing_unitsOf _ _ σ w).retains fun _ w₁ _ => hrest _ _ w₁
    · split
      · split
        · exact fun _ _ h => h
        · refine Run.retains_bind (Run.sparing_lift _ σ w).retains fun c w₁ _ => ?_
          refine Run.retains_bind (Run.retains_ofLoadable c σ w₁) fun v w₂ _ => ?_
          exact Run.retains_bind (Run.sparing_unitsOf _ _ σ w₂).retains fun _ w₃ _ => hrest _ _ w₃
      · exact hrest values constants w

/-! ## The methods of maps -/

/-- A call of a method of maps, without the map. -/
inductive MapCall
  | put (k v : Value)
  | get (k : Value)
  | containsKey (k : Value)
  | size
deriving DecidableEq, Repr

namespace MapCall

def signature : MapCall → String
  | put _ _ => "put(Ljava/lang/Object;Ljava/lang/Object;)Ljava/lang/Object;"
  | get _ => "get(Ljava/lang/Object;)Ljava/lang/Object;"
  | containsKey _ => "containsKey(Ljava/lang/Object;)Z"
  | size => "size()I"

def args : MapCall → List Value
  | put k v => [k, v]
  | get k | containsKey k => [k]
  | size => []

/-- The key that a call is about. -/
def key? : MapCall → Option Value
  | put k _ | get k | containsKey k => some k
  | size => none

/-- The call of a method with a signature. -/
def read? (signature : String) (args : List Value) : Option MapCall :=
  match signature, args with
  | "put(Ljava/lang/Object;Ljava/lang/Object;)Ljava/lang/Object;", k :: v :: _ => some (put k v)
  | "get(Ljava/lang/Object;)Ljava/lang/Object;", k :: _ => some (get k)
  | "containsKey(Ljava/lang/Object;)Z", k :: _ => some (containsKey k)
  | "size()I", _ => some size
  | _, _ => none

/-- What a call answers on a map with the given entries. -/
def answer (w : World) (entries : List (MapKey × Value)) : MapCall → Value
  | put k _ | get k => (Library.valueOfKey? (w.key k) entries).getD .null
  | containsKey k => truth (Library.valueOfKey? (w.key k) entries).isSome
  | size => .int (Int32.ofNat entries.length)

/-- The world behind a call. -/
def left (w : World) (id : Nat) (entries : List (MapKey × Value)) : MapCall → World
  | put k v => w.withEntries id (Library.setEntry (w.key k) v entries)
  | _ => w

theorem read?_eq_some {signature : String} {args : List Value} {call : MapCall}
    (h : read? signature args = some call) :
    signature = call.signature ∧ ∃ rest, args = call.args ++ rest := by
  unfold read? at h
  split at h
  case h_5 => cases h
  all_goals
    obtain rfl := Option.some.inj h
    exact ⟨rfl, _, rfl⟩

/-- The methods that calls come to are not void. -/
theorem result_ne {call : MapCall} {name text : String} {descriptor : Descriptor}
    (h : name ++ text = call.signature) (hparses : Descriptor.parse text = .ok descriptor) :
    descriptor.result ≠ "V" := by
  have hresult (expected : String) {signature : String} {d : Descriptor} (h : name ++ text = signature)
      (hall : ∀ t ∈ signature.toList.tails, t.head? = some '(' → t = expected.toList)
      (hexpected : Descriptor.parse expected = .ok d) : descriptor = d := by
    obtain rfl := Library.descriptor_eq hparses h hall
    exact Except.ok.inj (hparses.symm.trans hexpected)
  cases call with
  | put k v =>
    rw [hresult "(Ljava/lang/Object;Ljava/lang/Object;)Ljava/lang/Object;" h
      (by dsimp only [signature]; decide) rfl]
    decide
  | get k =>
    rw [hresult "(Ljava/lang/Object;)Ljava/lang/Object;" h (by dsimp only [signature]; decide) rfl]
    decide
  | containsKey k =>
    rw [hresult "(Ljava/lang/Object;)Z" h (by dsimp only [signature]; decide) rfl]
    decide
  | size =>
    rw [hresult "()I" h (by dsimp only [signature]; decide) rfl]
    decide

end MapCall

namespace Library

variable {w w' : World} {σ : Setting} {id : Nat} {entries : List (MapKey × Value)} {args : List Value}

theorem mapEntries_ok {v : Value} :
    mapEntries v σ w = (.ok entries, w') ↔
      ∃ id, v = .ref id ∧ w.entries? id = some entries ∧ w' = w := by
  refine asHidden_ok.trans ?_
  simp only [World.entries?_eq_some]
  constructor
  · rintro ⟨id, cls, fields, hidden, rfl, hget, hpick, rfl⟩
    cases hidden with
    | table => exact ⟨id, rfl, ⟨cls, fields, by rw [hget, Option.some.inj hpick]⟩, rfl⟩
    | _ => cases hpick
  · rintro ⟨id, rfl, ⟨cls, fields, hget⟩, rfl⟩
    exact ⟨id, cls, fields, _, rfl, hget, rfl, rfl⟩

/-- A method of maps answers from the entries of the map. -/
theorem exists_mapMethod (σ : Setting) (call : MapCall) (rest : List Value)
    (hentries : w.entries? id = some entries) (hkey : ∀ k, call.key? = some k → w.IsKey k) :
    ∃ method, mapMethod? call.signature = some method ∧
      method (.ref id :: (call.args ++ rest)) σ w =
        (.ok (call.answer w entries), call.left w id entries) := by
  have hmap : mapEntries (.ref id) σ w = (.ok entries, w) := mapEntries_ok.2 ⟨id, rfl, hentries, rfl⟩
  cases call with
  | put k v =>
    refine ⟨_, rfl, Run.bind_ok.2 ⟨_, w, rfl, Run.bind_ok.2 ⟨_, w, hmap, Run.bind_ok.2 ⟨k, w, rfl,
      Run.bind_ok.2 ⟨_, w, mapKey_eq (hkey k rfl) σ, rfl⟩⟩⟩⟩⟩
  | get k | containsKey k =>
    exact ⟨_, rfl, Run.bind_ok.2 ⟨_, w, rfl, Run.bind_ok.2 ⟨_, w, hmap, Run.bind_ok.2 ⟨k, w, rfl,
      Run.bind_ok.2 ⟨_, w, mapKey_eq (hkey k rfl) σ, rfl⟩⟩⟩⟩⟩
  | size => exact ⟨_, rfl, Run.bind_ok.2 ⟨_, w, rfl, Run.bind_ok.2 ⟨_, w, hmap, rfl⟩⟩⟩

theorem mapKey_same {v : Value} {key : MapKey} (h : mapKey v σ w = (.ok key, w')) : w' = w := by
  unfold mapKey at h
  obtain ⟨o, w₁, hderef, hrest⟩ := Run.bind_ok.1 h
  obtain rfl : w₁ = w := by
    cases v with
    | ref id => exact (Run.object?_ok.1 hderef).2
    | _ => exact (Run.pure_ok.1 hderef).2
  repeat' split at hrest
  all_goals first | exact (Run.pure_ok.1 hrest).2 | exact (Run.collapse_ok.1 hrest).elim

/-- A `put` gives a map other entries, or retains all objects. -/
theorem put_world (args : List Value) (σ : Setting) (w : World) :
    w.Retains (put args σ w).2 ∨ ∃ i k v rest old new, args = .ref i :: k :: v :: rest ∧
      w.entries? i = some old ∧ (put args σ w).2 = w.withEntries i new := by
  by_cases hputs : ∃ i k v rest old key, args = .ref i :: k :: v :: rest ∧ w.entries? i = some old ∧
      mapKey k σ w = (.ok key, w)
  · obtain ⟨i, k, v, rest, old, key, rfl, hold, hkey⟩ := hputs
    have hput : put (.ref i :: k :: v :: rest) σ w =
        (.ok ((valueOfKey? key old).getD .null), w.withEntries i (setEntry key v old)) :=
      Run.bind_ok.2 ⟨_, w, rfl, Run.bind_ok.2 ⟨old, w, mapEntries_ok.2 ⟨i, rfl, hold, rfl⟩,
        Run.bind_ok.2 ⟨k, w, rfl, Run.bind_ok.2 ⟨key, w, hkey, rfl⟩⟩⟩⟩
    exact .inr ⟨i, k, v, rest, old, _, rfl, hold, congrArg Prod.snd hput⟩
  · left
    unfold put
    refine Run.retains_bind (Run.sparing_arg _ _ σ w).retains fun self w₁ hself => ?_
    obtain ⟨hfirst, rfl⟩ := arg_ok.1 hself
    refine Run.retains_bind (sparing_mapEntries _ σ w₁).retains fun old w₂ hentries => ?_
    obtain ⟨i, rfl, hold, rfl⟩ := mapEntries_ok.1 hentries
    refine Run.retains_bind (Run.sparing_arg _ _ σ w₂).retains fun k w₃ hk => ?_
    obtain ⟨hsecond, rfl⟩ := arg_ok.1 hk
    refine Run.retains_bind (sparing_mapKey _ σ w₃).retains fun key w₄ hkey => ?_
    obtain rfl := mapKey_same hkey
    refine Run.retains_bind (Run.sparing_arg _ _ σ w₄).retains fun v w₅ hv => ?_
    obtain ⟨hthird, rfl⟩ := arg_ok.1 hv
    rcases args with _ | ⟨a, _ | ⟨b, _ | ⟨c, rest⟩⟩⟩
    · cases hfirst
    · cases hsecond
    · cases hthird
    · obtain rfl := Option.some.inj hfirst
      obtain rfl := Option.some.inj hsecond
      exact absurd ⟨i, b, c, rest, old, key, rfl, hold, hkey⟩ hputs

end Library

/-! ## Instructions -/

namespace Step

variable {σ : Setting} {F : Frame} {w : World} {ins : Instruction} {id : Nat} {call : MapCall}
  {entries : List (MapKey × Value)}

/-- The call of a method of maps that an instruction makes on a map. -/
def mapCall? (σ : Setting) (ins : Instruction) (stack : Stack) (w : World) (id : Nat) :
    Option MapCall := do
  match ← libraryCall? σ ins stack w with
  | ("java/util/HashMap", ref, .ref i :: args) =>
    if i = id then MapCall.read? (ref.name ++ ref.descriptor) args else none
  | _ => none

/-- The object that an instruction calls a constructor of the library on. -/
def constructs? (σ : Setting) (ins : Instruction) (stack : Stack) (w : World) : Option Nat := do
  match ← libraryCall? σ ins stack w with
  | (_, ref, .ref i :: _) => if Library.IsInit ref.name ref.descriptor then some i else none
  | _ => none

/-- The instance that an instruction makes an empty map. -/
def empties? (σ : Setting) (ins : Instruction) (stack : Stack) (w : World) : Option Nat := do
  match ← libraryCall? σ ins stack w with
  | ("java/util/HashMap", ref, .ref i :: _) =>
    match w.heap[i]?, ref.name ++ ref.descriptor with
    | some (.instance _ _ _), "<init>()V" | some (.instance _ _ _), "<init>(I)V" => some i
    | _, _ => none
  | _ => none

theorem mapCall?_eq_some (h : mapCall? σ ins F.stack w id = some call) :
    ∃ ref rest, libraryCall? σ ins F.stack w =
        some ("java/util/HashMap", ref, .ref id :: (call.args ++ rest)) ∧
      ref.name ++ ref.descriptor = call.signature := by
  obtain ⟨called, hcall, h⟩ := Option.bind_eq_some_iff.1 h
  split at h
  · obtain ⟨rfl, hread⟩ := Option.ite_none_right_eq_some.1 h
    obtain ⟨hsignature, rest, rfl⟩ := MapCall.read?_eq_some hread
    exact ⟨_, rest, hcall, hsignature⟩
  · cases h

/-- A call on a map goes on with its answer on the stack. -/
theorem run_mapCall (h : mapCall? σ ins F.stack w id = some call)
    (hentries : w.entries? id = some entries) (hkey : ∀ k, call.key? = some k → w.IsKey k) :
    ∃ rest, run ins σ F w = ((.ok (.next ins.next),
      { F with stack := call.answer w entries :: rest }), call.left w id entries) := by
  obtain ⟨ref, args, hcall, hsignature⟩ := mapCall?_eq_some h
  obtain ⟨method, hmethod, hanswer⟩ := Library.exists_mapMethod σ call args hentries hkey
  have hclone : Library.arrayMethod? (ref.name ++ ref.descriptor) = none := by
    rw [hsignature]
    cases call <;> rfl
  have hdeclared : Library.declared? "java/util/HashMap" ref.name ref.descriptor = some method := by
    rw [← hmethod, ← hsignature]
    rfl
  obtain ⟨descriptor, rest, hparses, -, hrun⟩ := run_libraryCall hcall hclone hdeclared hanswer
  rw [if_pos (MapCall.result_ne hsignature hparses)] at hrun
  exact ⟨rest, hrun⟩

/-- The constructors of maps leave a map without entries. -/
theorem run_emptied (h : empties? σ ins F.stack w = some id) :
    (run ins σ F w).2.entries? id = some [] := by
  obtain ⟨called, hcall, h⟩ := Option.bind_eq_some_iff.1 h
  split at h
  · rename_i ref i args
    obtain ⟨hi, ⟨cls, fields, hidden, hget⟩, hsignature⟩ : i = id ∧
        (∃ cls fields hidden, w.heap[i]? = some (.instance cls fields hidden)) ∧
        (ref.name ++ ref.descriptor = "<init>()V" ∨ ref.name ++ ref.descriptor = "<init>(I)V") := by
      split at h
      · rename_i hget hsignature
        exact ⟨Option.some.inj h, ⟨_, _, _, hget⟩, .inl hsignature⟩
      · rename_i hget hsignature
        exact ⟨Option.some.inj h, ⟨_, _, _, hget⟩, .inr hsignature⟩
      · cases h
    subst hi
    have hself : selfInstance (.ref i :: args) σ w = (.ok i, w) := by
      refine Run.bind_ok.2 ⟨.ref i, w, rfl, ?_⟩
      exact Run.bind_ok.2 ⟨_, w, Run.object?_ok.2 ⟨hget.symm, rfl⟩, rfl⟩
    have hinit : Library.initMap (.ref i :: args) σ w = (.ok nothing, w.withEntries i []) :=
      Run.bind_ok.2 ⟨i, w, hself, rfl⟩
    have hdeclared : Library.declared? "java/util/HashMap" ref.name ref.descriptor =
        some Library.initMap := by
      show Library.mapMethod? (ref.name ++ ref.descriptor) = _
      obtain heq | heq := hsignature <;> rw [heq] <;> rfl
    have hclone : Library.arrayMethod? (ref.name ++ ref.descriptor) = none := by
      obtain heq | heq := hsignature <;> rw [heq] <;> rfl
    obtain ⟨descriptor, rest, -, -, hrun⟩ := run_libraryCall hcall hclone hdeclared hinit
    rw [hrun]
    exact World.entries?_withEntries hget
  · cases h

/-- What an instruction leaves, unless it gives a map other entries: the cores of all objects
that it calls no constructor on. -/
def RetainsOthers (σ : Setting) (ins : Instruction) (stack : Stack) (w w' : World) : Prop :=
  ∀ id o, constructs? σ ins stack w ≠ some id → w.core? id = some o → w'.core? id = some o

/-- An instruction gives a map other entries. -/
def PutsInto (σ : Setting) (ins : Instruction) (stack : Stack) (w w' : World) : Prop :=
  ∃ id k v old new, mapCall? σ ins stack w id = some (.put k v) ∧ w.entries? id = some old ∧
    w' = w.withEntries id new

theorem retainsOthers {w' : World} (h : w.Retains w') : RetainsOthers σ ins F.stack w w' :=
  fun id o _ => h id o

/-- A method of the library changes what it is a constructor of, or puts into a map. -/
theorem call_effect {ref : Ref} {descriptor : Descriptor} {args : List Value} {rest : Stack}
    {method : LibraryMethod} (hinvoke : ins.op.isWithin .invokevirtual .invokeinterface = true)
    (hcalls : CallsLibrary σ w F.stack ins.operand.index (ins.op = .invokestatic)
      (ins.op = .invokevirtual || ins.op = .invokeinterface) ref descriptor args rest method) :
    RetainsOthers σ ins F.stack w (method args σ w).2 ∨
      PutsInto σ ins F.stack w (method args σ w).2 := by
  obtain hclone | ⟨cls, hcall, hdeclared⟩ := hcalls.cases hinvoke
  · exact .inl (retainsOthers (Library.spares_arrayMethod _ method hclone σ w).retains)
  by_cases hintern : Library.IsIntern cls ref.name ref.descriptor
  · obtain rfl := Option.some.inj (hdeclared.symm.trans hintern.declared?)
    refine .inl (retainsOthers ?_)
    refine Run.retains_bind (Run.sparing_selfUnits args σ w).retains fun units w₁ _ => ?_
    rw [Run.intern_sharing]
    exact w₁.retains_withShared units
  by_cases hput : Library.IsPut cls ref.name ref.descriptor
  · obtain ⟨rfl, hsignature⟩ := hput
    obtain rfl : method = Library.put := by
      have hmap : Library.mapMethod? (ref.name ++ ref.descriptor) = some method := hdeclared
      rw [hsignature] at hmap
      exact (Option.some.inj hmap).symm
    obtain h | ⟨i, k, v, below, old, new, rfl, hold, hleft⟩ := Library.put_world args σ w
    · exact .inl (retainsOthers h)
    · refine .inr ⟨i, k, v, old, new, ?_, hold, hleft⟩
      refine Option.bind_eq_some_iff.2 ⟨_, hcall, (if_pos rfl).trans ?_⟩
      rw [hsignature]
      rfl
  · left
    intro id o hconstructs ho
    have hspares : Library.Spares (if Library.IsInit ref.name ref.descriptor then args[0]? else none)
        (Library.declared? cls ref.name ref.descriptor) args :=
      Library.spares_declared hintern fun hchange => if_pos (hchange.resolve_right hput)
    refine (hspares method hdeclared σ w).core id o (fun hself => hconstructs ?_) ho
    obtain ⟨hinit, hself⟩ := Option.ite_none_right_eq_some.1 hself
    cases args with
    | nil => cases hself
    | cons first below =>
      obtain rfl := Option.some.inj hself
      exact Option.bind_eq_some_iff.2 ⟨_, hcall, if_pos hinit⟩

/-- A concatenation makes a string, and retains the objects. -/
theorem retains_run_invokeDynamic (hdynamic : ins.op = .invokedynamic) :
    w.Retains (run ins σ F w).2 := by
  have hbind {α β : Type} {s : Step α} {k : α → Step β} {F : Frame} {w : World}
      (h : w.Retains (s σ F w).2)
      (hk : ∀ (a : α) (F₁ : Frame) (w₁ : World), w₁.Retains (k a σ F₁ w₁).2) :
      w.Retains ((s >>= k) σ F w).2 := by
    rw [step_bind_eq]
    generalize s σ F w = e at h
    obtain ⟨⟨halt | a, F₁⟩, w₁⟩ := e
    · exact h
    · exact h.trans (hk a F₁ w₁)
  rw [run_invokeDynamic hdynamic]
  refine hbind ?_ fun _ F₁ w₁ => fun _ _ h => h
  rw [invokeDynamic_eq]
  refine hbind (sparing_site _ σ F w).retains fun found F₁ w₁ => ?_
  refine hbind (s := liftM (fillRecipe _ _ _ _)) (retains_fillRecipe _ σ _ _ _ w₁)
    fun text F₂ w₂ => ?_
  refine hbind (s := liftM (newUnits text)) (Run.sparing_newUnits text σ w₂).retains
    fun v F₃ w₃ => ?_
  exact (sparing_push v σ F₃ w₃).retains

/-- An instruction changes what it calls a constructor on, or puts into a map. -/
theorem run_effect (ins : Instruction) (σ : Setting) (F : Frame) (w : World) :
    RetainsOthers σ ins F.stack w (run ins σ F w).2 ∨
      PutsInto σ ins F.stack w (run ins σ F w).2 := by
  by_cases hdynamic : ins.op = .invokedynamic
  · exact .inl (retainsOthers (retains_run_invokeDynamic hdynamic))
  · exact world_run (Q := fun w' => RetainsOthers σ ins F.stack w w' ∨ PutsInto σ ins F.stack w w')
      hdynamic (fun w' h => .inl (retainsOthers h.retains))
      (fun _ c _ => .inl (retainsOthers (Run.retains_ofLoadable c σ w)))
      fun hinvoke _ _ _ _ _ hcalls => call_effect hinvoke hcalls

end Step

end Cleartext.Machine
