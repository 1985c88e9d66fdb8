import Cleartext.Run.Job
import Cleartext.Proofs.Archive.Entries
import Cleartext.Proofs.Run.Classes

/-!
# Decrypting an archive

Classes are dealt with one after another, each in its place: `Session.Treats` is what
one of them changes in a session, and `Session.decryptClasses_ok` what all of them
do.  Any property of a class before and after, with its results, goes from
`decryptClass` to a whole run that way.

The property that a run is about is `AllOrNothing`: a class was rewritten as a
whole, with every call site replaced or still there, or it is as it was read and no
result of it counts as decrypted.
-/

namespace Cleartext.Run

open Archive (Candidate Entry)

variable {σ : Type}

/-! ## Counting -/

/-- The number of results of call sites that were left. -/
def failedCount (results : List CallResult) : Nat :=
  results.countP (!·.outcome.isDecrypted)

theorem Stats.addAll_eq (s : Stats) (results : List CallResult) :
    s.addAll results = { s with
      decrypted := s.decrypted + decryptedCount results
      failed := s.failed + failedCount results
      results := s.results ++ results } := by
  unfold addAll
  induction results generalizing s with
  | nil => simp [decryptedCount, failedCount]
  | cons r rest ih =>
    rw [List.foldl_cons, ih]
    unfold add decryptedCount failedCount
    cases hr : r.outcome.isDecrypted with
    | false => simp [hr]; omega
    | true => simp [hr]; omega

theorem CallResult.withdrawn_cls (cause : String) (r : CallResult) :
    (r.withdrawn cause).cls = r.cls := by
  unfold withdrawn
  split <;> rfl

theorem CallResult.isDecrypted_withdrawn (cause : String) (r : CallResult) :
    (r.withdrawn cause).outcome.isDecrypted = false := by
  unfold withdrawn
  split
  · rfl
  · rename_i houtcome
    rw [houtcome]
    rfl

/-! ## One class -/

/-- The session goes on from `s` to `s'` by dealing with the class `c`: `c'` is put in
its place, and `results` are counted. -/
structure Session.Treats (s : Session σ) (c c' : Candidate) (results : List CallResult)
    (s' : Session σ) : Prop where
  position : c'.position = c.position
  classes : ∀ before after, s.classes = before ++ c :: after →
    (∀ k ∈ before ++ after, k.position ≠ c.position) → s'.classes = before ++ c' :: after
  stats : s'.stats = { s.stats with
    patched := s.stats.patched + c'.modified.toNat
    decrypted := s.stats.decrypted + decryptedCount results
    failed := s.stats.failed + failedCount results
    results := s.stats.results ++ results }

theorem Session.classes_replacing {s : Session σ} {before after : List Candidate} {c c' : Candidate}
    (hposition : c'.position = c.position) (hclasses : s.classes = before ++ c :: after)
    (hother : ∀ k ∈ before ++ after, k.position ≠ c.position) :
    (s.replacing c').classes = before ++ c' :: after := by
  have hkept (list : List Candidate) (hlist : ∀ k ∈ list, k.position ≠ c.position) :
      list.map (fun k => if k.position = c'.position then c' else k) = list := by
    refine (List.map_congr_left fun k hk => ?_).trans (List.map_id list)
    rw [hposition, if_neg (hlist k hk)]
    rfl
  rw [List.forall_mem_append] at hother
  show s.classes.map _ = _
  rw [hclasses, List.map_append, List.map_cons, hkept before hother.1, hkept after hother.2,
    if_pos hposition.symm]

/-- What becomes of a class that is decided on. -/
def Verdict.applied (c : Candidate) : Verdict → Candidate
  | .rewritten cf => { c with cf, modified := true }
  | _ => c

/-- The results that count for a class that is decided on. -/
def Verdict.counted (results : List CallResult) : Verdict → List CallResult
  | .abandoned cause => results.map (CallResult.withdrawn cause.message)
  | _ => results

section

variable {runner : Runner σ} {s : Session σ} {c : Candidate}

/-- Dealing with a class is doing what was decided on.  There is no answer only for
one that makes no sense. -/
theorem Session.decryptClass_cases (hc : c.modified = false) :
    ∃ verdict w, rewriteClass runner (fun name => (Archive.lookup? s.classes name).map (·.cf)) c
        s.kept = (verdict, w) ∧
      ((∃ e, verdict = .senseless e ∧ s.decryptClass runner c = .error e) ∨
        ∃ s', s.decryptClass runner c = .ok s' ∧
          s.Treats c (verdict.applied c) (verdict.counted w.results.reverse) s') := by
  generalize hanswer : rewriteClass runner _ c s.kept = answer
  obtain ⟨verdict, w⟩ := answer
  refine ⟨verdict, w, rfl, ?_⟩
  unfold decryptClass
  simp only [hanswer]
  cases verdict with
  | senseless e => exact .inl ⟨e, rfl, rfl⟩
  | untouched =>
    refine .inr ⟨_, rfl, rfl, fun before after h _ => h, ?_⟩
    simp [Verdict.applied, Verdict.counted, counting, after, Stats.addAll_eq, hc]
  | rewritten cf =>
    refine .inr ⟨_, rfl, rfl, fun before after h hother => ?_, ?_⟩
    · exact @classes_replacing σ _ before after c { c with cf, modified := true } rfl h hother
    · simp [Verdict.applied, Verdict.counted, counting, replacing, after, Stats.addAll_eq]
  | abandoned cause =>
    refine .inr ⟨_, rfl, rfl, fun before after h _ => h, ?_⟩
    simp [Verdict.applied, Verdict.counted, counting, after, Work.happened, Stats.addAll_eq, hc]

end

/-- The class `c` of an archive was rewritten as a whole, into `c'`, or it is as it was
read, and `results` say what became of its call sites. -/
structure AllOrNothing (entries : List Entry) (c c' : Candidate) (results : List CallResult) :
    Prop where
  position : c'.position = c.position
  cls : ∀ r ∈ results, r.cls = c.name
  rewritten : c'.modified = true →
    (∃ r ∈ results, r.outcome.isDecrypted = true) ∧ CarriedClass c c'.cf results
  kept : c'.modified = false →
    (∀ r ∈ results, r.outcome.isDecrypted = false) ∧
      ∃ e, entries[c.position]? = some e ∧ ClassFile.parse e.data = .ok c'.cf

section

variable {entries : List Entry} {c : Candidate}

theorem Concluded.allOrNothing {results : List CallResult} {verdict : Verdict}
    (h : Concluded c results verdict) (hread : c.ReadFrom entries)
    (hcls : ∀ r ∈ results, r.cls = c.name) :
    AllOrNothing entries c (verdict.applied c) (verdict.counted results) := by
  have hunmodified : ¬ c.modified = true := by rw [hread.unmodified]; exact Bool.false_ne_true
  have hparsed : ∃ e, entries[c.position]? = some e ∧ ClassFile.parse e.data = .ok c.cf := by
    obtain ⟨e, he, -, hdata⟩ := hread.entry
    exact ⟨e, he, hdata ▸ hread.parsed⟩
  cases verdict with
  | senseless => exact h.elim
  | untouched =>
    refine ⟨rfl, hcls, fun hmodified => absurd hmodified hunmodified, fun _ => ⟨?_, hparsed⟩⟩
    simpa [Verdict.counted] using List.countP_eq_zero.1 h
  | rewritten cf =>
    refine ⟨rfl, hcls, fun _ => ⟨?_, h.2⟩, fun hmodified => by cases hmodified⟩
    exact List.countP_pos_iff.1 h.1
  | abandoned cause =>
    refine ⟨rfl, ?_, fun hmodified => absurd hmodified hunmodified, fun _ => ⟨?_, hparsed⟩⟩
    · simpa [Verdict.counted, CallResult.withdrawn_cls] using hcls
    · simp [Verdict.counted, CallResult.isDecrypted_withdrawn]

/-- Every class with operands of the right kinds is dealt with, as a whole or not at
all. -/
theorem Session.decryptClass_allOrNothing {runner : Runner σ} (hread : c.ReadFrom entries)
    (hkinds : WellKindedClass c.cf) (s : Session σ) :
    ∃ s' c' results, s.decryptClass runner c = .ok s' ∧ s.Treats c c' results s' ∧
      AllOrNothing entries c c' results := by
  have hpool : c.cf.pool.Coherent := (ClassFile.Consistent.of_parse hread.parsed).pool
  obtain ⟨verdict, w, hanswer, hdone⟩ := @Session.decryptClass_cases σ runner s c hread.unmodified
  obtain ⟨verdict', w', results, hanswer', hresults, hcls, hconcluded⟩ :=
    @rewriteClass_cases σ runner _ c hpool hkinds s.kept
  obtain ⟨rfl, rfl⟩ := Prod.mk.inj (hanswer.symm.trans hanswer')
  rcases hdone with ⟨e, rfl, -⟩ | ⟨s', hs', htreats⟩
  · exact hconcluded.elim
  · rw [hresults, List.reverse_reverse] at htreats
    exact ⟨s', _, _, hs', htreats, hconcluded.allOrNothing hread hcls⟩

end

/-! ## All classes -/

section

variable {runner : Runner σ}

/-- Classes are dealt with when each of them is. -/
theorem Session.decryptClasses_total {todo : List Candidate}
    (h : ∀ c ∈ todo, ∀ s : Session σ, ∃ s', s.decryptClass runner c = .ok s') (s : Session σ) :
    ∃ s', s.decryptClasses runner todo = .ok s' := by
  unfold decryptClasses
  induction todo generalizing s with
  | nil => exact ⟨s, rfl⟩
  | cons c todo ih =>
    rw [List.forall_mem_cons] at h
    obtain ⟨s₁, hs₁⟩ := h.1 s
    obtain ⟨s', hs'⟩ := ih h.2 s₁
    exact ⟨s', by rw [List.foldlM_cons, hs₁]; exact hs'⟩

/-- What the classes of a run come to: each is in its place, and the results are
counted in their order. -/
structure Session.Comes (s : Session σ) (before : List Candidate)
    (treated : List (Candidate × List CallResult)) (after : List Candidate) (s' : Session σ) :
    Prop where
  classes : s'.classes = before ++ treated.map (·.1) ++ after
  positions : s'.classes.map (·.position) = s.classes.map (·.position)
  stats : s'.stats = { s.stats with
    patched := s.stats.patched + treated.countP (·.1.modified)
    decrypted := s.stats.decrypted + decryptedCount (treated.flatMap (·.2))
    failed := s.stats.failed + failedCount (treated.flatMap (·.2))
    results := s.stats.results ++ treated.flatMap (·.2) }

/-- A property of every class that is dealt with is one of all classes of a run.
Classes are told apart by their positions. -/
theorem Session.decryptClasses_ok {P : Candidate → Candidate → List CallResult → Prop}
    {todo : List Candidate}
    (hstep : ∀ c ∈ todo, ∀ s s' : Session σ, s.decryptClass runner c = .ok s' →
      ∃ c' results, s.Treats c c' results s' ∧ P c c' results)
    (before after : List Candidate) {s s' : Session σ}
    (hclasses : s.classes = before ++ todo ++ after)
    (hpositions : ((before ++ todo ++ after).map (·.position)).Nodup)
    (h : s.decryptClasses runner todo = .ok s') :
    ∃ treated, s.Comes before treated after s' ∧
      List.Forall₂ (fun c new => P c new.1 new.2) todo treated := by
  unfold decryptClasses at h
  induction todo generalizing before s with
  | nil =>
    obtain rfl := Except.pure_ok.1 h
    exact ⟨[], ⟨by simpa using hclasses, rfl, by simp [decryptedCount, failedCount]⟩, .nil⟩
  | cons c todo ih =>
    rw [List.forall_mem_cons] at hstep
    rw [List.foldlM_cons] at h
    obtain ⟨s₁, hs₁, h⟩ := Except.bind_ok.1 h
    obtain ⟨c', results, htreats, hP⟩ := hstep.1 s s₁ hs₁
    have hother : ∀ k ∈ before ++ (todo ++ after), k.position ≠ c.position := by
      simp only [List.append_assoc, List.cons_append, List.map_append, List.map_cons] at hpositions
      have hnot := (List.nodup_cons.1 (List.nodup_middle.1 hpositions)).1
      rw [← List.map_append, ← List.map_append] at hnot
      exact fun k hk hposition => hnot (hposition ▸ List.mem_map_of_mem hk)
    have hclasses₁ : s₁.classes = before ++ [c'] ++ todo ++ after := by
      simpa using htreats.classes before (todo ++ after) (by simpa using hclasses) hother
    have hpositions₁ : ((before ++ [c'] ++ todo ++ after).map (·.position)).Nodup := by
      simpa [htreats.position] using hpositions
    obtain ⟨treated, hcomes, htreated⟩ := ih hstep.2 (before ++ [c']) hclasses₁ hpositions₁ h
    refine ⟨(c', results) :: treated, ⟨by simpa using hcomes.classes, ?_, ?_⟩, .cons hP htreated⟩
    · rw [hcomes.positions, hclasses₁, hclasses]
      simp [htreats.position]
    · rw [hcomes.stats, htreats.stats]
      cases hmodified : c'.modified with
      | false => simp [hmodified, decryptedCount, failedCount, Nat.add_assoc]
      | true => simp [hmodified, decryptedCount, failedCount, Nat.add_assoc, Nat.add_comm 1]

end

/-! ## Writing -/

namespace Job

variable {entries : List Entry} {classes : List Candidate} {c : Candidate} {e : Entry} {i : Nat}

/-- No rewritten class goes into the place of the entry at a position. -/
def Kept (classes : List Candidate) (i : Nat) : Prop :=
  ∀ c ∈ classes, c.modified = true → c.position ≠ i

theorem getElem?_outputEntries_of_kept (he : entries[i]? = some e) (hkept : Kept classes i) :
    (outputEntries entries classes)[i]? = some (.ok e.copied) := by
  unfold outputEntries
  rw [List.getElem?_map, List.getElem?_zipIdx, he]
  simp only [Option.map_some, Nat.zero_add]
  cases hclass : Archive.classAt? classes i with
  | none => rfl
  | some c =>
    obtain ⟨hc, hposition⟩ := Archive.classAt?_eq_some hclass
    have hunmodified : c.modified = false := by
      rw [← Bool.not_eq_true]
      exact fun hmodified => hkept c hc hmodified hposition
    simp [hunmodified]

/-- The place of a rewritten class is taken by what it is written as, and is empty if it
cannot be written. -/
theorem getElem?_outputEntries_of_modified (hpositions : (classes.map (·.position)).Nodup)
    (hc : c ∈ classes) (hmodified : c.modified = true) (he : entries[c.position]? = some e) :
    (∃ data, c.cf.encode = .ok data ∧
        (outputEntries entries classes)[c.position]? = some (.ok { e.copied with data })) ∨
      ∃ err err', c.cf.encode = .error err ∧
        (outputEntries entries classes)[c.position]? = some (.error err') := by
  unfold outputEntries
  rw [List.getElem?_map, List.getElem?_zipIdx, he]
  simp only [Option.map_some, Nat.zero_add, Archive.classAt?_position hpositions hc, hmodified]
  cases hencode : c.cf.encode with
  | ok data => exact .inl ⟨data, rfl, rfl⟩
  | error err => exact .inr ⟨err, _, rfl, rfl⟩

/-- Every entry of the archive has one in its place, with its name, or there is a
rewritten class that cannot be written. -/
theorem forall₂_outputEntries (entries : List Entry) (classes : List Candidate) :
    List.Forall₂ (fun e output => (∃ data, output = .ok { e.copied with data }) ∨
        (∃ err, output = .error err) ∧
          ∃ c ∈ classes, c.modified = true ∧ ∃ err, c.cf.encode = .error err)
      entries (outputEntries entries classes) := by
  have hentries : entries = entries.zipIdx.map (·.1) := (List.zipIdx_map_fst 0 entries).symm
  unfold outputEntries
  conv => arg 2; rw [hentries]
  rw [List.forall₂_map_left_iff, List.forall₂_map_right_iff, List.forall₂_same]
  rintro ⟨e, i⟩ -
  simp only
  split
  · exact .inl ⟨e.data, rfl⟩
  · rename_i c hclass
    split
    · exact .inl ⟨e.data, rfl⟩
    · rename_i hmodified
      split
      · rename_i data _
        exact .inl ⟨data, rfl⟩
      · rename_i err hencode
        exact .inr ⟨⟨_, rfl⟩, c, (Archive.classAt?_eq_some hclass).1, by simpa using hmodified, err,
          hencode⟩

/-- The entries of the archive that is written can be stored as they are. -/
def Storable (outputs : List (Except Error Entry)) : Prop :=
  ∀ e, .ok e ∈ outputs → ∃ p, Archive.pack e = .ok p

/-- All entries are written when every rewritten class can be. -/
theorem written_iff (hpositions : (classes.map (·.position)).Nodup)
    (hread : ∀ c ∈ classes, ∃ e, entries[c.position]? = some e)
    (hstorable : Storable (outputEntries entries classes)) :
    (Archive.packAll (outputEntries entries classes)).2 = none ↔
      ∀ c ∈ classes, c.modified = true → ∃ data, c.cf.encode = .ok data := by
  rw [Archive.packAll_eq_none]
  constructor
  · intro hall c hc hmodified
    obtain ⟨e, he⟩ := hread c hc
    rcases getElem?_outputEntries_of_modified hpositions hc hmodified he with
      ⟨data, hencode, -⟩ | ⟨err, err', -, houtput⟩
    · exact ⟨data, hencode⟩
    · obtain ⟨e', p, he', -⟩ := hall _ (List.mem_of_getElem? houtput)
      cases he'
  · intro hencode output houtput
    cases output with
    | ok e =>
      obtain ⟨p, hp⟩ := hstorable e houtput
      exact ⟨e, p, rfl, hp⟩
    | error err =>
      obtain ⟨e, -, hplace⟩ := exists_mem_of_forall₂ (forall₂_outputEntries entries classes) houtput
      rcases hplace with ⟨data, hdata⟩ | ⟨-, c, hc, hmodified, err', herror⟩
      · cases hdata
      · obtain ⟨data, hdata⟩ := hencode c hc hmodified
        exact absurd (hdata.symm.trans herror) (by simp)

/-- When all entries are written, they have the names of those that were read, and those
that are no rewritten class have their bytes. -/
theorem written_eq (h : (Archive.packAll (outputEntries entries classes)).2 = none) :
    (Archive.packAll (outputEntries entries classes)).1.map (·.entry.name) = entries.map (·.name) ∧
      ∀ i e, entries[i]? = some e → Kept classes i →
        ∃ p, (Archive.packAll (outputEntries entries classes)).1[i]? = some p ∧
          p.entry.data = e.data := by
  constructor
  · have hnames : List.Forall₂ (fun e (p : Archive.Packed) => p.entry.name = e.name) entries
        (Archive.packAll (outputEntries entries classes)).1 := by
      refine forall₂_comp (forall₂_outputEntries entries classes) (Archive.packAll_forall₂ h) ?_
      rintro e output p hplace ⟨e', rfl, hpack⟩
      rcases hplace with ⟨data, hdata⟩ | ⟨⟨err, herror⟩, -⟩
      · obtain rfl := Except.ok.inj hdata
        exact (Archive.pack_ok hpack).1
      · cases herror
    rw [← List.forall₂_eq_eq_eq, List.forall₂_map_left_iff, List.forall₂_map_right_iff]
    exact hnames.flip
  · intro i e he hkept
    obtain ⟨p, hp, hpack⟩ := Archive.getElem?_packAll h (getElem?_outputEntries_of_kept he hkept)
    exact ⟨p, hp, (Archive.pack_ok hpack).2⟩

end Job

/-! ## A whole run -/

/-- Classes that stand at the positions of those that were read stand at entries. -/
theorem exists_entry_of_positions {entries : List Entry} {classes classes' : List Candidate}
    (hread : ∀ c ∈ classes, c.ReadFrom entries)
    (h : classes'.map (·.position) = classes.map (·.position)) :
    ∀ c' ∈ classes', ∃ e, entries[c'.position]? = some e := by
  intro c' hc'
  have hposition : c'.position ∈ classes.map (·.position) := h ▸ List.mem_map_of_mem hc'
  obtain ⟨c, hc, hposition⟩ := List.mem_map.1 hposition
  obtain ⟨e, he, -⟩ := (hread c hc).entry
  exact ⟨e, hposition ▸ he⟩

/-- A run deals with every class as a whole or not at all.  The counts are those of
its results, which are in the order of the classes.  The archive that is written has
the entries of the one that was read, with the bytes of all that are no rewritten
class, if every rewritten class can be written; if not, entries are missing. -/
theorem Session.decrypt_all_or_nothing {entries : List Entry} {classes : List Candidate}
    {notes : List Archive.LoadNote}
    (hload : Archive.loadClasses entries false = .ok (classes, notes))
    (hkinds : ∀ c ∈ classes, WellKindedClass c.cf) (runner : Runner σ) (kept : σ) :
    ∃ (s' : Session σ) (treated : List (Candidate × List CallResult)),
      Session.decrypt runner
          { classes, kept, stats := { entries := entries.length, classes := classes.length } } =
        .ok s' ∧
      List.Forall₂ (fun c new => AllOrNothing entries c new.1 new.2) classes treated ∧
      s'.classes = treated.map (·.1) ∧
      s'.stats = {
        entries := entries.length
        classes := classes.length
        patched := s'.classes.countP (·.modified)
        decrypted := s'.stats.results.countP (·.outcome.isDecrypted)
        failed := s'.stats.results.countP (!·.outcome.isDecrypted)
        results := treated.flatMap (·.2) } ∧
      let (packed, failure) := Archive.packAll (Job.outputEntries entries s'.classes)
      (Job.Storable (Job.outputEntries entries s'.classes) → (failure = none ↔
        ∀ c ∈ s'.classes, c.modified = true → ∃ data, c.cf.encode = .ok data)) ∧
      (failure = none → packed.map (·.entry.name) = entries.map (·.name) ∧
        ∀ i e, entries[i]? = some e → Job.Kept s'.classes i →
          ∃ p, packed[i]? = some p ∧ p.entry.data = e.data) := by
  obtain ⟨hread, hordered⟩ := Archive.loadClasses_ok hload
  have hpositions : (classes.map (·.position)).Nodup := hordered.imp Nat.ne_of_lt
  have hclass (c : Candidate) (hc : c ∈ classes) (s : Session σ) :=
    @Session.decryptClass_allOrNothing σ entries c runner (hread c hc) (hkinds c hc) s
  have htotal : ∀ c ∈ classes, ∀ s : Session σ, ∃ s', s.decryptClass runner c = .ok s' := by
    intro c hc s
    obtain ⟨s', -, -, hs', -⟩ := hclass c hc s
    exact ⟨s', hs'⟩
  obtain ⟨s', hs'⟩ := Session.decryptClasses_total htotal
    { classes, kept, stats := { entries := entries.length, classes := classes.length } }
  have hstep : ∀ c ∈ classes, ∀ s s' : Session σ, s.decryptClass runner c = .ok s' →
      ∃ c' results, s.Treats c c' results s' ∧ AllOrNothing entries c c' results := by
    intro c hc s s₁ hs₁
    obtain ⟨s₂, c', results, hs₂, hrest⟩ := hclass c hc s
    obtain rfl : s₂ = s₁ := Except.ok.inj (hs₂.symm.trans hs₁)
    exact ⟨c', results, hrest⟩
  obtain ⟨treated, hcomes, htreated⟩ := Session.decryptClasses_ok hstep [] [] (by simp)
    (by simpa using hpositions) hs'
  have hclasses : s'.classes = treated.map (·.1) := by simpa using hcomes.classes
  have hresults : s'.stats.results = treated.flatMap (·.2) := by rw [hcomes.stats]; rfl
  have hmoved : s'.classes.map (·.position) = classes.map (·.position) := hcomes.positions
  refine ⟨s', treated, hs', htreated, hclasses, ?_, fun hstorable => ?_, Job.written_eq⟩
  · rw [hresults, hclasses, List.countP_map]
    simpa [decryptedCount, failedCount, Function.comp_def] using hcomes.stats
  · exact Job.written_iff (hmoved ▸ hpositions) (exists_entry_of_positions hread hmoved) hstorable

/-! ## A class with a method without code -/

/-- Loads `"A"`, hands it to `A.d`, and drops the answer. -/
def calling : MethodBody := ⟨1, 0, [0x12, 8, 0xb8, 0, 7, 0x57, 0xb1], [], []⟩

/-- The load of `calling`. -/
def callingLoad : Instruction := { op := .ldc, operand := (.pool8 8 : Operand .pool8) }

/-- The call of `calling`. -/
def callingCall : Instruction :=
  { op := .invokestatic, operand := (.pool16 7 : Operand .pool16), offset := 2 }

/-- The instructions of `calling`. -/
def callingCode : List Instruction :=
  [callingLoad, callingCall, { op := .pop, operand := (.none : Operand .none), offset := 5 },
    { op := .returnVoid, operand := (.none : Operand .none), offset := 6 }]

/-- The slots of the pool of `halfEmpty`. -/
def halfEmptySlots : List (Option Constant) :=
  [none, some (.utf8 [65]), some (.class_ 1), some (.utf8 [67, 111, 100, 101]), some (.utf8 [100]),
    some (.utf8 [40, 76, 106, 97, 118, 97, 47, 108, 97, 110, 103, 47, 79, 98, 106, 101, 99, 116, 59,
      41, 76, 106, 97, 118, 97, 47, 108, 97, 110, 103, 47, 83, 116, 114, 105, 110, 103, 59]),
    some (.nameAndType 4 5), some (.member .method 2 6), some (.string 1)]

/-- The class `A`, with a method that has some code and one that has none. -/
def halfEmpty (body : MethodBody) : ClassFile where
  minor := 0
  major := 52
  pool := Pool.ofSlots halfEmptySlots
  access := 0
  thisClass := 2
  superClass := 0
  interfaces := []
  fields := []
  methods := [⟨8, 4, 5, [.code 3 "Code" body]⟩, ⟨8, 1, 5, [.code 3 "Code" ⟨1, 0, [], [], []⟩]⟩]
  attributes := [.raw 1 "A" []]

theorem readable_halfEmptySlots : (Pool.ofSlots halfEmptySlots).Readable := by
  refine ⟨_, rfl, by decide, ?_, ?_, Pool.dangling?_eq_none.1 rfl⟩
  · exact .narrow True.intro rfl <| .narrow True.intro rfl <| .narrow True.intro rfl <|
      .narrow True.intro rfl <| .narrow True.intro rfl <| .narrow True.intro rfl <|
      .narrow (.inr (.inl rfl)) rfl <| .narrow True.intro rfl .nil
  · intro c hc
    simp only [List.mem_cons, Option.some.injEq, List.not_mem_nil, or_false] at hc
    rcases hc with rfl | rfl | rfl | rfl | rfl | rfl | rfl | rfl
    all_goals simp only [Constant.Fits]
    all_goals decide

/-- A body without handlers and attributes can be read with the pool of `halfEmpty`. -/
theorem readable_bare {code : Bytes} (hcode : code.length < 65536) :
    Attribute.Readable (Pool.ofSlots halfEmptySlots) [.code 3 "Code" ⟨1, 0, code, [], []⟩] := by
  have hname : (Pool.ofSlots halfEmptySlots).text 3 = .ok "Code" := by rfl
  refine ⟨by simp, ?_⟩
  rw [Attribute.insideAll, Attribute.inside_code]
  simp only [Attribute.insideAll, List.append_nil, List.forall_mem_singleton]
  refine ⟨⟨hname, by simp [Attribute.body?, Attribute.name]⟩, ?_, ?_⟩
  · have hlength :
        (Attribute.code 3 "Code" ⟨1, 0, code, [], []⟩).content.length = code.length + 12 := by
      simp [Attribute.content, Body.head, Attribute.images, Bytes.ofU16, Bytes.ofU32]
    omega
  · simp [Attribute.body?]

/-- The class `A` can be read with any methods that can. -/
theorem parse_methods {body : MethodBody} {methods : List Member} (hlength : methods.length < 65536)
    (hmethods : ∀ m ∈ methods, Attribute.Readable (Pool.ofSlots halfEmptySlots) m.attributes) :
    ClassFile.parse ({ halfEmpty body with methods } : ClassFile).image =
      .ok { halfEmpty body with methods } := by
  have hreadable : ({ halfEmpty body with methods } : ClassFile).Readable := by
    refine ⟨readable_halfEmptySlots, by simp [halfEmpty], ⟨by simp [halfEmpty], by simp [halfEmpty]⟩,
      ⟨hlength, hmethods⟩, by simp [halfEmpty], ?_⟩
    rw [halfEmpty, Attribute.insideAll, Attribute.inside_raw]
    simp only [Attribute.insideAll, List.append_nil, List.forall_mem_singleton]
    exact ⟨⟨rfl, by decide⟩, by decide, by simp [Attribute.body?]⟩
  have hname : (halfEmpty body).pool.className 2 = .ok "A" := rfl
  exact ClassFile.parse_ok.2 ⟨rfl, hreadable, rfl, "A", hname⟩

theorem parse_halfEmpty : ClassFile.parse (halfEmpty calling).image = .ok (halfEmpty calling) := by
  refine @parse_methods calling (halfEmpty calling).methods (by decide) fun m hm => ?_
  rcases List.mem_pair.1 hm with rfl | rfl
  · exact readable_bare (by decide)
  · exact readable_bare (by decide)

/-- An archive with the class `A` and a text. -/
def halfEmptyEntries : List Entry :=
  [{ name := "A.class", data := (halfEmpty calling).image },
    { name := "note.txt", data := [104, 105] }]

/-- The class `A` of `halfEmptyEntries`. -/
def halfEmptyClass : Candidate :=
  { position := 0, entryName := "A.class", data := (halfEmpty calling).image
    cf := halfEmpty calling, poolCount := 9 }

theorem loadClasses_halfEmpty :
    Archive.loadClasses halfEmptyEntries false = .ok ([halfEmptyClass], []) := by
  have hfirst : (Archive.isClassName "A.class" &&
      Archive.mayUseDecrypt (halfEmpty calling).image) = true := by decide +kernel
  have hsecond : Archive.isClassName "note.txt" = false := by decide +kernel
  have hentries : Archive.candidateEntries halfEmptyEntries =
      [({ name := "A.class", data := (halfEmpty calling).image }, 0)] := by
    simp [Archive.candidateEntries, halfEmptyEntries, List.zipIdx_cons, hfirst, hsecond]
  have hparse : Candidate.parse 0 { name := "A.class", data := (halfEmpty calling).image } =
      .ok halfEmptyClass := by
    rw [Candidate.parse, parse_halfEmpty]
    rfl
  unfold Archive.loadClasses
  rw [hentries]
  simp only [Bool.false_and, Bool.false_eq_true, if_false]
  exact Except.bind_ok.2 ⟨[halfEmptyClass], Except.mapM_ok.2 (.cons hparse .nil), rfl⟩

theorem decodeAll_calling : Instruction.decodeAll calling.bytecode = .ok callingCode := by
  rfl

theorem wellKinded_halfEmpty : WellKindedClass (halfEmpty calling) := by
  intro m hm body hbody old hold
  rcases List.mem_pair.1 hm with rfl | rfl
  · obtain rfl : calling = body := Option.some.inj hbody
    obtain rfl := Except.ok.inj (decodeAll_calling.symm.trans hold)
    refine .cons_cons ?_ (.cons_cons ?_ (.cons_cons ?_ (.singleton _)))
    · exact fun _ _ _ => ⟨rfl, fun _ _ => ⟨.method, 2, 6, rfl⟩⟩
    · exact fun hop => absurd hop (by decide)
    · exact fun hop => absurd hop (by decide)
  · obtain rfl := Option.some.inj hbody
    obtain rfl := Except.ok.inj hold
    exact .nil

/-- Every call is answered with the string that it is handed. -/
def echo : Runner Unit where
  decrypt _ _ _ _ units := (⟨.ok units, []⟩, ())
  forget _ _ := ()

theorem Session.decrypt_all_or_nothing_half_empty :
    Archive.loadClasses halfEmptyEntries false = .ok ([halfEmptyClass], []) ∧
      (∀ c ∈ [halfEmptyClass], WellKindedClass c.cf) ∧
      ∃ (s' : Session Unit) (c' : Candidate) (results : List CallResult),
        Session.decrypt echo
            { classes := [halfEmptyClass], kept := (), stats := { entries := 2, classes := 1 } } =
          .ok s' ∧
        s'.classes = [c'] ∧ AllOrNothing halfEmptyEntries halfEmptyClass c' results ∧
        s'.stats.results = results := by
  have hkinds : ∀ c ∈ [halfEmptyClass], WellKindedClass c.cf :=
    List.forall_mem_singleton.2 wellKinded_halfEmpty
  obtain ⟨s', treated, hs', htreated, hclasses, hstats, -⟩ :=
    Session.decrypt_all_or_nothing loadClasses_halfEmpty hkinds echo ()
  obtain ⟨⟨c', results⟩, rest, hc', hrest, rfl⟩ := List.forall₂_cons_left_iff.1 htreated
  obtain rfl := List.forall₂_nil_left_iff.1 hrest
  refine ⟨loadClasses_halfEmpty, hkinds, s', c', results, hs', hclasses, hc', ?_⟩
  rw [hstats]
  simp

end Cleartext.Run
