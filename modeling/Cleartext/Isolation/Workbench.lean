import Cleartext.Isolation.Lift
import Cleartext.Isolation.Neutralize

/-!
# The workbench

Runs routines that decrypt: the routine's class is lifted, its caller checks
are replaced, and the result is run in a fresh emulation.  Prepared classes
are kept, in a cache of which only its laws are known (`Caching`); usually the
one that was not used for the longest time gives way first.
-/

namespace Cleartext.Isolation

/-! ## Kept classes -/

/-- What a class was prepared for: the class, the routine and its caller. -/
structure Errand where
  cls : String
  method : String
  caller : Identity
deriving DecidableEq, Repr

/-- Prepared classes by their errands, in the order in which a cache has them. -/
abbrev Cache := List (Errand × Bytes)

/-- How a cache of bounded size keeps prepared classes.  It gives out only what was put in
and not removed. -/
structure Caching where
  /-- The class prepared for an errand, and the cache after it was asked. -/
  get? : Cache → Errand → Option (Bytes × Cache)
  /-- Keeps a prepared class, and no more than a number of them. -/
  add : Cache → (capacity : Nat) → Errand → Bytes → Cache
  /-- Drops what was prepared for an errand. -/
  remove : Cache → Errand → Cache
  mem_of_get? : ∀ {c c' key data}, get? c key = some (data, c') →
    (key, data) ∈ c ∧ ∀ e ∈ c', e ∈ c
  mem_add : ∀ {c capacity key data e}, e ∈ add c capacity key data → e = (key, data) ∨ e ∈ c
  mem_remove : ∀ {c key e}, e ∈ remove c key → e ∈ c ∧ e.1 ≠ key

namespace Caching

/-- The class used last stands first, and the last one gives way. -/
def leastRecent : Caching where
  get? c key := (c.lookup key).map fun data => (data, (key, data) :: c.filter fun e => e.1 ≠ key)
  add c capacity key data := ((key, data) :: c.filter fun e => e.1 ≠ key).take capacity
  remove c key := c.filter fun e => e.1 ≠ key
  mem_of_get? {c c' key data} h := by
    obtain ⟨data', hlookup, hdata⟩ := Option.map_eq_some_iff.1 h
    obtain ⟨rfl, rfl⟩ := Prod.mk.inj hdata
    have hmem : (key, data') ∈ c := by
      obtain ⟨before, after, rfl, -⟩ := List.lookup_eq_some_iff.1 hlookup
      simp
    exact ⟨hmem, List.forall_mem_cons.2 ⟨hmem, fun e he => (List.mem_filter.1 he).1⟩⟩
  mem_add h := (List.mem_cons.1 (List.mem_of_mem_take h)).imp id fun h => (List.mem_filter.1 h).1
  mem_remove h := by simpa using h

variable (caching : Caching)

/-- Drops what was prepared for those of some errands that are about a class. -/
def forgetAmong (cls : String) : List Errand → Cache → Cache
  | [], c => c
  | key :: rest, c => forgetAmong cls rest (if key.cls = cls then caching.remove c key else c)

/-- Drops what was prepared from a class. -/
def forget (c : Cache) (cls : String) : Cache := caching.forgetAmong cls (c.map (·.1)) c

theorem mem_of_mem_forgetAmong {cls : String} {keys : List Errand} {c : Cache}
    {e : Errand × Bytes} (h : e ∈ caching.forgetAmong cls keys c) :
    e ∈ c ∧ (e.1 ∈ keys → e.1.cls ≠ cls) := by
  induction keys generalizing c with
  | nil => exact ⟨h, fun hkey => absurd hkey List.not_mem_nil⟩
  | cons key rest ih =>
    obtain ⟨hmem, hrest⟩ := ih h
    by_cases hcls : key.cls = cls
    · rw [if_pos hcls] at hmem
      obtain ⟨hmem, hne⟩ := caching.mem_remove hmem
      exact ⟨hmem, fun hkey => hrest ((List.mem_cons.1 hkey).resolve_left hne)⟩
    · rw [if_neg hcls] at hmem
      refine ⟨hmem, fun hkey => ?_⟩
      obtain rfl | hkey := List.mem_cons.1 hkey
      · exact hcls
      · exact hrest hkey

/-- What is forgotten is gone, and nothing else comes in. -/
theorem mem_of_mem_forget {c : Cache} {cls : String} {e : Errand × Bytes}
    (h : e ∈ caching.forget c cls) : e ∈ c ∧ e.1.cls ≠ cls := by
  obtain ⟨hmem, hne⟩ := caching.mem_of_mem_forgetAmong h
  exact ⟨hmem, hne (List.mem_map_of_mem hmem)⟩

end Caching

/-! ## Preparing classes -/

/-- How routines are run. -/
structure Settings where
  codeSource : String := ""
  maxSteps : Int := 0
  cacheSize : Int := 0
  /-- Caller checks stay; only the forged identity answers them. -/
  raw : Bool := false
  /-- Every executed instruction is noted. -/
  traced : Bool := false
  /-- The charsets that routines find. -/
  charsets : Text.Charsets := .standard
  /-- How prepared classes are kept. -/
  caching : Caching := .leastRecent

/-- The usual number of prepared classes that are kept. -/
def usualCacheSize : Nat := 256

/-- The number of prepared classes that are kept. -/
def Settings.capacity (s : Settings) : Nat :=
  if s.cacheSize ≤ 0 then usualCacheSize else s.cacheSize.toNat

/-- Prepares a class for an errand without looking at kept ones. -/
def prepareClass (raw : Bool) (cf : ClassFile) (method : String) (caller : Identity) :
    Reply Bytes :=
  let written (cf : ClassFile) : Reply Bytes := ⟨cf.encode.mapError .isolation, []⟩
  match lift cf method with
  | .error e => ⟨.error e, []⟩
  | .ok (lifted, notes) =>
    if raw then (written lifted).after notes
    else match neutralize lifted caller with
      | (some e, s) => ⟨.error e, notes ++ s.notes.reverse⟩
      | (none, s) =>
        let notes := notes ++ s.notes.reverse
        if s.replaced = 0 then (written s.cf).after notes
        else match shrunk s.cf with
          | .error e => ⟨.error e, notes⟩
          | .ok (cf, more) => (written cf).after (notes ++ more)

/-- A workbench with its prepared classes. -/
structure Workbench where
  settings : Settings
  cache : Cache := []

namespace Workbench

/-- The bytes of the class prepared for a routine and its caller. -/
def prepare (b : Workbench) (cf : ClassFile) (method : String) (caller : Identity) :
    Reply Bytes × Workbench :=
  let key : Errand := ⟨cf.name, method, caller⟩
  match b.settings.caching.get? b.cache key with
  | some (data, cache) => (⟨.ok data, []⟩, { b with cache })
  | none =>
    let reply := prepareClass b.settings.raw cf method caller
    match reply.answer with
    | .error _ => (reply, b)
    | .ok data =>
      (reply, { b with cache := b.settings.caching.add b.cache b.settings.capacity key data })

/-- Drops what was prepared from a class. -/
def forget (b : Workbench) (cls : String) : Workbench :=
  { b with cache := b.settings.caching.forget b.cache cls }

/-- The configuration of a run. -/
def config (b : Workbench) (caller : Identity) : Machine.Config :=
  { codeSource := b.settings.codeSource, caller := ⟨caller.cls, caller.method⟩
    poolSize := caller.poolSize, maxSteps := b.settings.maxSteps, traced := b.settings.traced
    charsets := b.settings.charsets }

/-- Runs a routine of a prepared class on a string. -/
def execute (b : Workbench) (data : Bytes) (method : String) (caller : Identity) (literal : Units)
    (cancelled : Bool) : Reply Units :=
  match ClassFile.parse data >>= fun cf => Machine.Emulation.load cf (b.config caller) with
  | .error e => ⟨.error (.isolation (.within .loading e)), []⟩
  | .ok em =>
    let (answer, em) := em.invoke method Pattern.decryptDescriptor
      (do return [← Machine.newUnits literal]) cancelled
    let trace := em.progress.trace.reverse.map Note.executed
    match answer with
    | .error e => ⟨.error e, trace⟩
    | .ok v =>
      let noString : Error := .fault em.program.name method 0 "routine did not return a string"
        (.unsupported .noString)
      let units : Except Error Units := match v with
        | .ref id =>
          match em.progress.world.heap[id]? with
          | some (.string units) => .ok units
          | _ => .error noString
        | _ => .error noString
      ⟨units, trace ++ [.returned em.program.name method em.steps]⟩

/-- Decrypts a string as if the routine was called by `caller`. -/
def decrypt (b : Workbench) (cf : ClassFile) (method : String) (caller : Identity)
    (literal : Units) (cancelled : Bool) : Reply Units × Workbench :=
  let (prepared, b) := b.prepare cf method caller
  match prepared.answer with
  | .error e => (⟨.error e, prepared.notes⟩, b)
  | .ok data => ((b.execute data method caller literal cancelled).after prepared.notes, b)

end Workbench

end Cleartext.Isolation
