import Cleartext.Proofs.Reading
import Cleartext.Proofs.Replay.Documents
import Cleartext.Proofs.Text.Utf16
import Cleartext.Proofs.Text.Utf8
import Cleartext.Run.Session

/-!
# Calls that are saved and read again

A call is saved as a document and read from it, in any format that reproduces what is written
and with any conversion of arguments.  A document that is reproduced has all fields of the call.

* `SavedCall.parse_document`: a call with strings for arguments is read as it was saved, up to
  lists of code units, which are read as lists of numbers.
* `Argument.datum_ofUnits`: every string is then the one that was saved, whether it was kept
  as a text or as its code units.
* `siteCall_replays`: so the call at a site is repeated with its string and its caller.
-/

namespace Cleartext.Replay

open Yaml (Node Value IsField IsRecord Stand Trouble)
open Machine (Datum)

/-! ## Reading without complaints -/

namespace Filling

variable {α β : Type}

/-- A step gives a value and has nothing to complain about. -/
def Gives (f : Filling α) (a : α) : Prop :=
  ∀ complaints, f.run complaints = .ok (a, complaints)

theorem Gives.pure (a : α) : Gives (pure a) a := fun _ => rfl

theorem Gives.bind {f : Filling α} {g : α → Filling β} {a : α} {b : β} (hf : Gives f a)
    (hg : Gives (g a) b) : Gives (f >>= g) b := by
  intro complaints
  rw [StateT.run_bind, hf complaints]
  exact hg complaints

theorem Gives.lift {x : Except Trouble α} {a : α} (h : x = .ok a) :
    Gives (liftM x : Filling α) a := by
  intro complaints
  rw [h]
  rfl

theorem Gives.mapM {ι : Type} {f : ι → Filling α} {xs : List ι} {as : List α}
    (h : List.Forall₂ (fun x a => Gives (f x) a) xs as) : Gives (xs.mapM f) as := by
  induction h with
  | nil => exact Gives.pure []
  | cons hx _ ih =>
    rw [List.mapM_cons]
    exact hx.bind (ih.bind (Gives.pure _))

variable {n : Node} {entries : List (String × Value)} {pairs : List (Node × Node)}
  {fs : List (String × Node)}

/-- A mapping without a key twice is distinct. -/
theorem gives_distinct {tag : String} {line : Nat} (h : Yaml.duplicates pairs = []) :
    Gives (distinct (.mapping tag pairs line)) true := by
  intro complaints
  simp only [distinct, h]
  show Except.ok (true, complaints ++ []) = Except.ok (true, complaints)
  rw [List.append_nil]

/-- The name of a field is its key. -/
theorem keyText?_scalar {name : String} (h : IsField name) {style : Yaml.ScalarStyle} {line : Nat} :
    (Node.scalar "" name style line).keyText? = .ok (some name) := by
  have hvalue : Yaml.scalarValue "" name style = .ok (.text name) := by
    simp [Yaml.scalarValue, h.plain]
  rw [Node.keyText?, hvalue]
  rfl

/-- A mapping has the given fields, each with a plain key. -/
def Plain (pairs : List (Node × Node)) (fs : List (String × Node)) : Prop :=
  List.Forall₂ (fun p f => (∃ style line, p.1 = .scalar "" f.1 style line) ∧ p.2 = f.2) pairs fs

theorem exists_plain (h : Node.showPairs pairs entries = true) :
    ∃ fs, Stand fs entries ∧ Plain pairs fs := by
  induction pairs generalizing entries with
  | nil =>
    cases entries with
    | nil => exact ⟨[], .nil, .nil⟩
    | cons e entries => simp [Node.showPairs] at h
  | cons pair pairs ih =>
    obtain ⟨k, v⟩ := pair
    cases entries with
    | nil => cases k <;> simp [Node.showPairs] at h
    | cons e entries =>
      obtain ⟨hkey, hv, hrest⟩ := Yaml.showPairs_cons.1 h
      obtain ⟨fs, hstand, hplain⟩ := ih hrest
      exact ⟨(e.1, v) :: fs, .cons ⟨rfl, hv⟩ hstand, .cons ⟨hkey, rfl⟩ hplain⟩

/-- A loop that appends every field with a plain key gives the fields. -/
theorem Plain.gives_forIn {γ : Type}
    {body : Node × Node → List (String × Node) × γ → Filling (ForInStep (List (String × Node) × γ))}
    (hbody : ∀ name style line v own merged, IsField name →
      Gives (body (.scalar "" name style line, v) (own, merged)) (.yield (own ++ [(name, v)], merged)))
    (h : Plain pairs fs) (hfield : ∀ f ∈ fs, IsField f.1) (own : List (String × Node)) (merged : γ) :
    Gives (forIn pairs (own, merged) body) (own ++ fs, merged) := by
  induction h generalizing own with
  | nil => simpa using Gives.pure _
  | @cons p f pairs fs hpair hrest ih =>
    obtain ⟨k, v⟩ := p
    obtain ⟨⟨style, line, rfl⟩, rfl⟩ := hpair
    have hrest := ih (fun f' hf' => hfield f' (List.mem_cons_of_mem _ hf')) (own ++ [f])
    rw [List.append_assoc] at hrest
    rw [List.forIn_cons]
    exact (hbody _ _ _ _ _ _ (hfield f List.mem_cons_self)).bind hrest

/-- The fields of a mapping that stands for a record. -/
theorem exists_gives_fields (h : n.shows (.map entries) = true) (hrecord : IsRecord entries)
    (depth : Nat) (use : String) :
    ∃ fs, Stand fs entries ∧ Gives (fields (depth + 1) n use) (some fs) := by
  obtain ⟨tag, pairs, line, rfl, hpairs⟩ := Yaml.shows_map h
  obtain ⟨fs, hstand, hplain⟩ := exists_plain hpairs
  have hfield : ∀ f ∈ fs, IsField f.1 := by
    intro f hf
    obtain ⟨e, he, hname, -⟩ := exists_mem_of_forall₂ hstand hf
    exact hname ▸ hrecord.field e he
  refine ⟨fs, hstand, ?_⟩
  rw [fields]
  refine (gives_distinct (Yaml.duplicates_eq_nil hpairs hrecord.nodup)).bind ?_
  refine (hplain.gives_forIn ?_ hfield [] []).bind (by simpa using Gives.pure (some fs))
  intro name style line v own merged hname
  have hmerge : (Node.scalar "" name style line).isMerge = false := by
    simp [Node.isMerge, hname.merges]
  simp only [hmerge]
  exact (Gives.lift (keyText?_scalar hname)).bind (Gives.pure _)

/-! ### Fields -/

theorem lookup_some (h : Stand fs entries) {name : String} {v : Value}
    (hv : entries.lookup name = some v) : ∃ n, fs.lookup name = some n ∧ n.shows v = true := by
  induction h with
  | nil => cases hv
  | @cons e f entries fs hfirst _ ih =>
    obtain ⟨key, n⟩ := f
    obtain ⟨rfl, hn⟩ := hfirst
    by_cases hkey : name = e.1
    · rw [hkey, List.lookup_cons_self] at hv ⊢
      cases hv
      exact ⟨n, rfl, hn⟩
    · rw [List.lookup_cons, beq_false_of_ne hkey] at hv ⊢
      exact ih hv

theorem lookup_none (h : Stand fs entries) {name : String} (hv : entries.lookup name = none) :
    fs.lookup name = none := by
  induction h with
  | nil => rfl
  | @cons e f entries fs hfirst _ ih =>
    obtain ⟨key, n⟩ := f
    obtain ⟨rfl, hn⟩ := hfirst
    by_cases hkey : name = e.1
    · rw [hkey, List.lookup_cons_self] at hv
      cases hv
    · rw [List.lookup_cons, beq_false_of_ne hkey] at hv ⊢
      exact ih hv

/-- A field is read from the node that stands for its value. -/
theorem gives_field {read : Node → Filling α} {absent a : α} {name : String} {v : Value}
    (h : Stand fs entries) (hv : entries.lookup name = some v)
    (hread : ∀ n, n.shows v = true → Gives (read n) a) : Gives (field fs name read absent) a := by
  obtain ⟨n, hn, hshows⟩ := lookup_some h hv
  simp only [field, hn]
  exact hread n hshows

/-- A field that was not written is absent. -/
theorem gives_absent {read : Node → Filling α} {absent : α} {name : String}
    (h : Stand fs entries) (hv : entries.lookup name = none) :
    Gives (field fs name read absent) absent := by
  simp only [field, lookup_none h hv]
  exact Gives.pure absent

theorem gives_text {s : String} (h : n.shows (.text s) = true) : Gives (text n) s := by
  obtain ⟨tag, raw, style, line, rfl, hvalue⟩ := Yaml.shows_text h
  exact (Gives.lift hvalue).bind (Gives.pure s)

/-- A number is read when it has 64 bits. -/
theorem gives_number {i : Int} (hi : i < 0x8000000000000000) (h : n.shows (.int i) = true) :
    Gives (number n) i := by
  obtain ⟨tag, raw, style, line, rfl, hvalue⟩ := Yaml.shows_int h
  refine (Gives.lift hvalue).bind ?_
  simp only [if_pos hi]
  exact Gives.pure i

/-- The names of fields. -/
theorem isField_of_mem {name : String} (h : name ∈ ["class", "method", "descriptor", "caller",
    "pool_size", "code_source", "args", "type", "value"]) : IsField name := by
  simp only [List.mem_cons, List.not_mem_nil, or_false] at h
  rcases h with rfl | rfl | rfl | rfl | rfl | rfl | rfl | rfl | rfl <;> exact ⟨by decide, rfl⟩

/-- The class and the method of a caller. -/
theorem gives_caller {cls method : String}
    (h : n.shows (.map [("class", .text cls), ("method", .text method)]) = true) :
    Gives (caller n) (cls, method) := by
  have hrecord : IsRecord [("class", Value.text cls), ("method", .text method)] :=
    ⟨by simp [isField_of_mem], by simp⟩
  obtain ⟨fs, hstand, hfields⟩ := exists_gives_fields h hrecord 99 "emu.StackFrame"
  refine hfields.bind ((gives_field hstand rfl fun _ => gives_text).bind ?_)
  exact (gives_field hstand rfl fun _ => gives_text).bind (Gives.pure _)

end Filling

/-! ## Arguments -/

namespace Argument

/-- A string: a text or code units. -/
inductive IsString : Argument → Prop
  | text (type s : String) : IsString ⟨type, .text s⟩
  | units (type : String) (codes : List Nat) : IsString ⟨type, .units codes⟩

/-- An argument as it is read again: code units are a list of numbers. -/
def reread (a : Argument) : Argument :=
  match a.value with
  | .units codes => { a with value := .list (codes.map fun c : Nat => .int c) }
  | _ => a

theorem value_of_shows {a : Argument} (ha : a.IsString) {n : Node} (h : n.shows a.value = true) :
    n.value = .ok a.reread.value := by
  cases ha with
  | text type s => exact Yaml.value_of_shows_text h
  | units type codes => exact Yaml.value_of_shows_units h

theorem type_reread (a : Argument) : a.reread.type = a.type := by
  unfold reread
  split <;> rfl

theorem isString_ofUnits (type : String) (units : Units) : (ofUnits type units).IsString := by
  unfold ofUnits
  split
  · exact .text type _
  · exact .units type _

end Argument

namespace Filling

variable {n : Node}

theorem gives_argument {a : Argument} (ha : a.IsString) (h : n.shows a.written = true) :
    Gives (argument n) (some a.reread) := by
  have hrecord : IsRecord [("type", Value.text a.type), ("value", a.value)] :=
    ⟨by simp [isField_of_mem], by simp⟩
  obtain ⟨fs, hstand, hfields⟩ := exists_gives_fields h hrecord 99 "emu.field"
  refine hfields.bind ((gives_field hstand rfl fun _ => gives_text).bind ?_)
  refine (gives_field hstand rfl fun _ hn => Gives.lift (a.value_of_shows ha hn)).bind ?_
  rw [← a.type_reread]
  exact Gives.pure _

theorem gives_arguments {args : List Argument} (hargs : ∀ a ∈ args, a.IsString)
    (h : n.shows (.list (args.map Argument.written)) = true) :
    Gives (arguments n) (args.map Argument.reread) := by
  obtain ⟨tag, items, line, rfl, hall⟩ := Yaml.shows_list h
  have hitems : List.Forall₂ (fun n a => Gives (argument n) a) items
      (args.map fun a => some a.reread) := by
    rw [Yaml.showAll_iff, List.forall₂_map_right_iff] at hall
    rw [List.forall₂_map_right_iff]
    clear h
    induction hall with
    | nil => exact .nil
    | cons hn _ ih =>
      obtain ⟨ha, hargs⟩ := List.forall_mem_cons.1 hargs
      exact .cons (gives_argument ha hn) (ih hargs)
  refine (Gives.mapM hitems).bind ?_
  have hsome : (args.map fun a => some a.reread).filterMap id = args.map Argument.reread := by
    rw [List.filterMap_map]
    exact congrFun List.filterMap_eq_map args
  rw [hsome]
  exact Gives.pure _

end Filling

/-! ## Calls -/

namespace SavedCall

theorem isRecord_pairs (s : SavedCall) : IsRecord s.pairs := by
  unfold pairs
  by_cases h : s.codeSource = ""
  · rw [if_pos h]
    exact ⟨by simp [Filling.isField_of_mem], by simp⟩
  · rw [if_neg h]
    exact ⟨by simp [Filling.isField_of_mem], by simp⟩

end SavedCall

/-- The fields of a saved call with strings for arguments. -/
theorem Filling.gives_savedCall {n : Node} {s : SavedCall} (hargs : ∀ a ∈ s.args, a.IsString)
    (hsize : s.poolSize < 0x8000000000000000) (h : n.shows (.map s.pairs) = true) :
    Gives (savedCall n) { s with args := s.args.map Argument.reread } := by
  obtain ⟨fs, hstand, hfields⟩ := exists_gives_fields h s.isRecord_pairs 99 "emu.State"
  have hsource : Gives (field fs "code_source" text "") s.codeSource := by
    by_cases hnone : s.codeSource = ""
    · rw [hnone]
      exact gives_absent hstand (by simp [SavedCall.pairs, hnone, List.lookup_cons])
    · exact gives_field hstand (by simp [SavedCall.pairs, hnone, List.lookup_cons])
        fun _ => gives_text
  have hlist : s.pairs.lookup "args" = some (.list (s.args.map Argument.written)) := by
    by_cases hnone : s.codeSource = "" <;> simp [SavedCall.pairs, hnone, List.lookup_cons]
  refine hfields.bind ((gives_field hstand rfl fun _ => gives_caller).bind ?_)
  refine (gives_field hstand rfl fun _ => gives_text).bind ?_
  refine (gives_field hstand rfl fun _ => gives_text).bind ?_
  refine (gives_field hstand rfl fun _ => gives_text).bind ?_
  refine (gives_field hstand rfl fun _ => gives_number hsize).bind (hsource.bind ?_)
  exact (gives_field hstand hlist fun _ => gives_arguments hargs).bind (Gives.pure _)

/-- A saved call with strings for arguments is read as it was saved. -/
theorem SavedCall.parse_document {format : Yaml.Format} (s : SavedCall)
    (hargs : ∀ a ∈ s.args, a.IsString) (hsize : s.poolSize < 0x8000000000000000)
    (h : format.Reproduces s.pairs) :
    parse (s.document format) format = .ok { s with args := s.args.map Argument.reread } := by
  obtain ⟨n, hparse, hshows⟩ := h
  rw [parse, document, hparse]
  show (Filling.savedCall n).run [] >>= _ = _
  rw [Filling.gives_savedCall hargs hsize hshows []]
  rfl

/-! ## Strings -/

/-- Code units that are written as numbers are read as they were. -/
theorem Cast.units_ints (cast : Cast) (units : Units) (i : Nat) :
    cast.units i (units.map fun u => .int u.toNat) = .ok units := by
  induction units generalizing i with
  | nil => rfl
  | cons u units ih =>
    rw [List.map_cons, Cast.units, cast.unit_int]
    dsimp only
    rw [ih]
    rfl

/-- The types under which a string is kept. -/
def IsStringType (type : String) : Prop :=
  type = "Ljava/lang/String;" ∨ type = "Ljava/lang/Object;"

/-- A string that was kept as an argument is that string again. -/
theorem Argument.datum_ofUnits (cast : Cast) {type : String} (htype : IsStringType type)
    (units : Units) : cast.datum type (ofUnits type units).reread.value = .ok (.string units) := by
  unfold ofUnits reread
  by_cases htext : Units.ofText units.text = units
  · simp only [if_pos htext]
    have hkept : cast.datum type (.text units.text) =
        (do return .string (Units.ofText (← cast.text (.text units.text)))) := by
      rcases htype with rfl | rfl <;> rfl
    rw [hkept, cast.text_text]
    exact congrArg (fun units => Except.ok (Datum.string units)) htext
  · simp only [if_neg htext, List.map_map]
    have hlist : cast.datum type (.list (units.map fun u => .int u.toNat)) =
        (do return .string (← cast.units 0 (units.map fun u => .int u.toNat))) := by
      rcases htype with rfl | rfl <;> rfl
    exact hlist.trans (by rw [cast.units_ints]; rfl)

end Cleartext.Replay

namespace Cleartext.Run

open Isolation (Identity)
open Pattern (CallSite)
open Replay (Argument Cast SavedCall)

/-- The call at a site as it is saved, with the location of the archive. -/
def savedSite (caller : Identity) (site : CallSite) (location : String) : SavedCall :=
  { siteCall caller site with codeSource := location }

/-- A call that was saved is repeated on the same string, whatever code units it has, and for
the same caller: in every format that reproduces the fields of the call, and with every
conversion that takes texts and code units as they are. -/
theorem siteCall_replays (format : Yaml.Format) (cast : Cast) (caller : Identity) (site : CallSite)
    (location : String) (hsize : caller.poolSize < 0x8000000000000000)
    (h : format.Reproduces (savedSite caller site location).pairs) :
    ∃ call, SavedCall.parse
        (Text.lossy (Bytes.ofText ((savedSite caller site location).document format))) format =
          .ok call ∧
      call.cls = site.cls ∧ call.method = site.method ∧
      call.descriptor = Pattern.decryptDescriptor ∧
      call.values cast = .ok [.string site.literal] ∧
      call.config = { codeSource := location, caller := ⟨caller.cls, caller.method⟩
                      poolSize := caller.poolSize } := by
  have hargs : ∀ a ∈ (savedSite caller site location).args, a.IsString := by
    intro a ha
    obtain rfl := List.mem_singleton.1 ha
    exact Argument.isString_ofUnits _ _
  have hparse := SavedCall.parse_document (savedSite caller site location) hargs hsize h
  rw [Text.lossy_ofText, hparse]
  refine ⟨_, rfl, rfl, rfl, rfl, ?_, rfl⟩
  have hdatum := Argument.datum_ofUnits cast (.inr rfl) site.literal
  show SavedCall.valuesFrom cast 0 [(Argument.ofUnits "Ljava/lang/Object;" site.literal).reread] = _
  rw [SavedCall.valuesFrom, Argument.type_reread]
  have htype : (Argument.ofUnits "Ljava/lang/Object;" site.literal).type = "Ljava/lang/Object;" := rfl
  rw [htype, hdatum]
  rfl

/-- A call with a string that starts and ends with half of a pair. -/
def loneHalves : CallSite :=
  { offset := 0, cls := "B", method := "d", literal := [0xd800, 0, 0xdfff]
    found := { template := ⟨"", []⟩, bindings := [], instructions := [] } }

set_option maxRecDepth 100000 in
/-- A string with lone halves of pairs is kept as code units, and comes back. -/
theorem siteCall_replays_loneHalves :
    ∃ call, SavedCall.parse
        (Text.lossy (Bytes.ofText (savedSite ⟨"A", "m", 7⟩ loneHalves "x").document)) = .ok call ∧
      call.cls = "B" ∧ call.method = "d" ∧
      call.descriptor = Pattern.decryptDescriptor ∧
      call.values = .ok [.string [0xd800, 0, 0xdfff]] ∧
      call.config = { codeSource := "x", caller := ⟨"A", "m"⟩, poolSize := 7 } :=
  siteCall_replays .standard .standard ⟨"A", "m", 7⟩ loneHalves "x" (by decide) (by decide +kernel)

end Cleartext.Run
