import Cleartext.Proofs.Run.Refusing
import Cleartext.Proofs.Run.Writing

/-!
# Running again on what was written

A run leaves classes of three kinds.  One that it did not touch, or gave up, is written as
it was read, and so is a class that it never looked at because another one of its name came
first.  One that was rewritten is written anew; it is consistent (`rewriteClass_consistent`),
and so it is read back as it was written when every length in it fits its field.

`Session.Leaves` tells of the calls that a second run can come to: all call sites of the
classes that were kept, and what remains in those that were rewritten.  When no routine
answers any of them, the second run decrypts nothing and writes every entry as it was
(`Session.decrypt_again`).  One that is answered is replaced, and so running twice is not
running once where a routine takes the answer of another.
-/

namespace Cleartext.Run

open Archive (Candidate Entry)
open Isolation (Identity)
open Pattern (CallSite)

variable {σ : Type}

/-! ## Rewritten classes are consistent -/

section

variable {runner : Runner σ} {lookup : String → Option ClassFile} {caller : Identity}

theorem rewriteSite_consistent (ed : Editor) (site : CallSite) {w : Work σ}
    (hw : w.cf.Consistent) :
    (rewriteSite runner lookup caller ed site w).2.cf.Consistent := by
  have hstep := rewriteSite_steps runner lookup caller ed site w
  generalize rewriteSite runner lookup caller ed site w = answer at hstep ⊢
  have hadded {w' : Work σ} {value : Units} {answer : Except Error UInt16} {pool : Pool}
      (hedit : w.cf.pool.edit (Pool.Edit.stringUnits value) = (answer, pool))
      (hcf : w'.cf = { w.cf with pool }) : w'.cf.Consistent := by
    have hcalled := hw.called (.stringUnits value)
    rwa [PoolCall.edit, hedit, ← hcf] at hcalled
  cases hstep with
  | left reason hcf _ => rwa [hcf]
  | full hedit hcf _ | unstaged hedit _ hcf _ | replaced hedit _ hcf _ => exact hadded hedit hcf

theorem rewriteSites_consistent {barriers : List Int} {fuel : Nat}
    {instructions : List Instruction} {ed : Editor} {edits : Nat} {w : Work σ}
    (hw : w.cf.Consistent) :
    (rewriteSites runner lookup caller barriers fuel instructions ed edits w).2.cf.Consistent := by
  induction fuel generalizing instructions ed edits w with
  | zero => exact hw
  | succ fuel ih =>
    unfold rewriteSites
    split
    · exact hw
    · exact hw
    · rename_i found rest _
      have hsite := @rewriteSite_consistent σ runner lookup caller ed (CallSite.of found) w hw
      split
      · rename_i e w₁ hfailed
        rwa [hfailed] at hsite
      · rename_i ed₁ isEdited w₁ hdone
        rw [hdone] at hsite
        exact ih hsite

theorem rewriteMethod_consistent {before after : List Member} {m : Member} {body : MethodBody}
    {n : Nat} {w w' : Work σ} (hbody : m.body? = some body)
    (hmethods : w.cf.methods = before ++ m :: after) (hw : w.cf.Consistent)
    (h : rewriteMethod runner lookup caller before.length body w = (.ok n, w')) :
    w'.cf.Consistent := by
  unfold rewriteMethod at h
  split at h
  · cases h
  · rename_i ed hnew
    obtain ⟨old, hold, rfl⟩ := Editor.new_ok.1 hnew
    simp only [Editor.instructions_mk] at h
    have hsites := @rewriteSites_consistent σ runner lookup caller
      (Pattern.barriersOf body old) old.length old
      ⟨body, old.map fun ins => { original := ins }⟩ 0 w hw
    split at h
    · cases h
    · rename_i w₁ hdone
      obtain ⟨-, rfl⟩ := Prod.mk.inj h
      rwa [hdone] at hsites
    · rename_i ed₁ edits w₁ _ hdone
      rw [hdone] at hsites
      obtain ⟨hkeeps, hbody₁, -⟩ := rewriteSites_keeps hdone
      split at h
      · cases h
      · rename_i ed' hcommit
        obtain ⟨-, rfl⟩ := Prod.mk.inj h
        have hmethods₁ : w₁.cf.methods = before ++ m :: after := by
          rw [hkeeps, ← hmethods]
        have hmodify : w₁.cf.methods.modify before.length (·.setBody ed'.body) =
            before ++ m.setBody ed'.body :: after := by
          rw [hmethods₁]
          simp [List.modify_eq_take_cons_drop]
        simp only [hmodify]
        exact hsites.committed hmethods₁ (hbody₁ ▸ hbody) hcommit

end

section

variable {runner : Runner σ} {lookup : String → Option ClassFile} {c : Candidate}

theorem rewriteMethods_consistent {todo : List Member} :
    ∀ {before : List Member} {edits n : Nat} {w w' : Work σ},
    w.cf.methods = before ++ todo → w.cf.Consistent →
    rewriteMethods runner lookup c before.length todo edits w = (.ok n, w') →
    w'.cf.Consistent := by
  induction todo with
  | nil =>
    intro before edits n w w' _ hw h
    obtain ⟨-, rfl⟩ := Prod.mk.inj h
    exact hw
  | cons m todo ih =>
    intro before edits n w w' hmethods hw h
    unfold rewriteMethods at h
    have hlength (m : Member) : (before ++ [m]).length = before.length + 1 := by simp
    split at h
    · rw [← hlength m] at h
      exact ih (by simpa using hmethods) hw h
    · rename_i body hbody
      simp only at h
      split at h
      · cases h
      · rename_i more w₁ hmethod
        obtain ⟨m', hw₁, -⟩ := rewriteMethod_refits hbody hmethods hmethod
        rw [← hlength m'] at h
        exact ih (by rw [hw₁]; simp) (rewriteMethod_consistent hbody hmethods hw hmethod) h

/-- A class that was rewritten is consistent. -/
theorem rewriteClass_consistent {kept : σ} {cf : ClassFile} {w : Work σ}
    (hc : c.cf.Consistent) (h : rewriteClass runner lookup c kept = (.rewritten cf, w)) :
    cf.Consistent := by
  unfold rewriteClass at h
  split at h
  · split at h <;> cases h
  · cases h
  · rename_i w₁ _ hmethods
    have hw := @rewriteMethods_consistent σ runner lookup c c.cf.methods [] 0 _ _ w₁ rfl hc hmethods
    split at h
    · rename_i cf₁ hshrink
      obtain ⟨hcf, -⟩ := Prod.mk.inj h
      obtain rfl := Verdict.rewritten.inj hcf
      exact hw.shrunk hshrink
    · split at h
      · obtain ⟨hcf, -⟩ := Prod.mk.inj h
        obtain rfl := Verdict.rewritten.inj hcf
        exact hw
      · cases h

end

/-! ## What a run leaves -/

theorem Remains.mono {p : Pool} {body : MethodBody} {caller : Identity} {old : List Instruction}
    {results results' : List CallResult} {units : Units} {owner name : String}
    (h : Remains p body caller old results units owner name)
    (hresults : ∀ r ∈ results, r ∈ results') :
    Remains p body caller old results' units owner name := by
  cases h with
  | left hcode hsite hresult => exact .left hcode hsite (hresults _ hresult)
  | handedOn hcode hsite hresult hcalls hopen =>
    exact .handedOn hcode hsite (hresults _ hresult) hcalls hopen
  | joined hcode hloads hcalls hapart hopen => exact .joined hcode hloads hcalls hapart hopen

/-- The class `c'` is consistent, and its call sites are calls that remain of `c`, also when it
is read with another pool that has the same entries. -/
def LeftOf (c c' : Candidate) (results : List CallResult) : Prop :=
  c'.cf.Consistent ∧ ∀ q : Pool, q.Closed → q.Extends c'.cf.pool → c'.cf.pool.Extends q →
    List.Forall₂ (fun m m' => SitesAmong (RemainsIn c m results) q m') c.cf.methods c'.cf.methods

theorem LeftOf.mono {c c' : Candidate} {results results' : List CallResult}
    (h : LeftOf c c' results) (hresults : ∀ r ∈ results, r ∈ results') : LeftOf c c' results' := by
  refine ⟨h.1, fun q hclosed hfrom hto => (h.2 q hclosed hfrom hto).imp ?_⟩
  refine fun m m' hsites => hsites.imp fun units owner name hremains => ?_
  obtain ⟨body, old, hbody, hold, hremains⟩ := hremains
  exact ⟨body, old, hbody, hold, hremains.mono hresults⟩

namespace Session

variable {runner : Runner σ} {entries : List Entry}

theorem decryptClass_leaves {s s' : Session σ} {c : Candidate} (hread : c.ReadFrom entries)
    (hnamed : WellNamedClass c.cf) (h : s.decryptClass runner c = .ok s') :
    ∃ c' results, s.Treats c c' results s' ∧ c'.position = c.position ∧
      (c'.modified = true → LeftOf c c' results) := by
  have hconsistent := ClassFile.Consistent.of_parse hread.parsed
  obtain ⟨verdict, w, hanswer, ⟨e, -, hfailed⟩ | ⟨s₁, hs₁, htreats⟩⟩ :=
    @decryptClass_cases σ runner s c hread.unmodified
  · cases h.symm.trans hfailed
  · obtain rfl := Except.ok.inj (hs₁.symm.trans h)
    refine ⟨_, _, htreats, htreats.position, fun hmodified => ?_⟩
    cases verdict with
    | rewritten cf =>
      have hleft : LeftOf c (Verdict.applied c (.rewritten cf)) w.results :=
        ⟨rewriteClass_consistent hconsistent hanswer, fun q hclosed hfrom hto =>
          rewriteClass_remains hconsistent.pool hnamed hanswer hclosed hfrom hto⟩
      exact hleft.mono fun r hr => List.mem_reverse.2 hr
    | _ => exact absurd (hread.unmodified.symm.trans hmodified) (by decide)

/-- Every class that a run rewrote comes from one of the archive, and what it calls are calls
that remain. -/
theorem exists_leftOf {classes : List Candidate} {s s' : Session σ}
    (hread : ∀ c ∈ classes, c.ReadFrom entries) (hpositions : (classes.map (·.position)).Nodup)
    (hnamed : ∀ c ∈ classes, WellNamedClass c.cf) (hclasses : s.classes = classes)
    (hrun : s.decrypt runner = .ok s') :
    s'.classes.map (·.position) = classes.map (·.position) ∧
      ∀ c' ∈ s'.classes, c'.modified = true →
        ∃ c ∈ classes, c.position = c'.position ∧ LeftOf c c' s'.stats.results := by
  rw [decrypt, hclasses] at hrun
  obtain ⟨treated, hcomes, htreated⟩ := @decryptClasses_ok σ runner
    (fun c c' results => c'.position = c.position ∧ (c'.modified = true → LeftOf c c' results))
    classes (fun c hc s s' => decryptClass_leaves (hread c hc) (hnamed c hc)) [] [] s s'
    (by simpa using hclasses) (by simpa using hpositions) hrun
  refine ⟨hclasses ▸ hcomes.positions, fun c' hc' hmodified => ?_⟩
  rw [hcomes.classes, List.nil_append, List.append_nil] at hc'
  obtain ⟨new, hnew, rfl⟩ := List.mem_map.1 hc'
  obtain ⟨c, hc, hposition, hleft⟩ := exists_mem_of_forall₂ htreated hnew
  refine ⟨c, hc, hposition.symm, (hleft hmodified).mono fun r hr => ?_⟩
  rw [hcomes.stats]
  exact List.mem_append_right _ (List.mem_flatMap.2 ⟨new, hnew, hr⟩)

end Session

/-! ## Reading again -/

theorem mem_candidateEntries {entries : List Entry} {e : Entry} {i : Nat} :
    (e, i) ∈ Archive.candidateEntries entries ↔ entries[i]? = some e ∧
      (Archive.isClassName e.name && Archive.mayUseDecrypt e.data) = true := by
  unfold Archive.candidateEntries
  rw [List.mem_filter, List.mem_zipIdx_iff_getElem?]

/-- The classes of an archive can be loaded when every candidate is a class. -/
theorem exists_loadClasses_iff {entries : List Entry} :
    (∃ loaded, Archive.loadClasses entries false = .ok loaded) ↔
      ∀ item ∈ Archive.candidateEntries entries, ∃ cf, ClassFile.parse item.1.data = .ok cf := by
  have hparse (item : Entry × Nat) : (∃ c, Candidate.parse item.2 item.1 = .ok c) ↔
      ∃ cf, ClassFile.parse item.1.data = .ok cf := by
    unfold Candidate.parse
    cases ClassFile.parse item.1.data <;> simp
  unfold Archive.loadClasses
  simp only [Bool.false_and, Bool.false_eq_true, if_false, ← hparse]
  generalize Archive.candidateEntries entries = items
  constructor
  · rintro ⟨loaded, h⟩ item hitem
    obtain ⟨found, hfound, -⟩ := Except.bind_ok.1 h
    obtain ⟨c, -, hc⟩ := exists_mem_of_forall₂ (Except.mapM_ok.1 hfound).flip hitem
    exact ⟨c, hc⟩
  · intro h
    suffices hfound : ∃ found, List.Forall₂ (fun item c => Candidate.parse item.2 item.1 = .ok c)
        items found by
      obtain ⟨found, hfound⟩ := hfound
      exact ⟨_, Except.bind_ok.2 ⟨found, Except.mapM_ok.2 hfound, rfl⟩⟩
    induction items with
    | nil => exact ⟨[], .nil⟩
    | cons item items ih =>
      rw [List.forall_mem_cons] at h
      obtain ⟨c, hc⟩ := h.1
      obtain ⟨found, hfound⟩ := ih h.2
      exact ⟨c :: found, .cons hc hfound⟩

/-- Entries that are read from an archive have the names and the bytes of those that were
packed. -/
def ReadBack (packed : List Archive.Packed) (again : List Entry) : Prop :=
  List.Forall₂ (fun p e => e.name = p.entry.name ∧ e.data = p.entry.data) packed again

/-- An entry that is read again is one that was kept, or a class that was rewritten. -/
theorem Job.entry_cases {entries again : List Entry} {classes : List Candidate}
    (hpositions : (classes.map (·.position)).Nodup)
    (hwritten : (Archive.packAll (outputEntries entries classes)).2 = none)
    (hagain : ReadBack (Archive.packAll (outputEntries entries classes)).1 again)
    {i : Nat} {e' : Entry} (he' : again[i]? = some e') :
    ∃ e, entries[i]? = some e ∧ e'.name = e.name ∧
      (Kept classes i ∧ e'.data = e.data ∨
        ¬ Kept classes i ∧
          ∃ c ∈ classes, c.modified = true ∧ c.position = i ∧ c.cf.encode = .ok e'.data) := by
  have houtputs := forall₂_comp (T := fun output e => ∃ e₀ : Entry, output = .ok e₀ ∧
      e.name = e₀.name ∧ e.data = e₀.data) (Archive.packAll_forall₂ hwritten) hagain (by
    rintro output p e ⟨e₀, houtput, hpack⟩ ⟨hname, hdata⟩
    obtain ⟨hpackedName, hpackedData⟩ := Archive.pack_ok hpack
    exact ⟨e₀, houtput, hname.trans hpackedName, hdata.trans hpackedData⟩)
  obtain ⟨output, houtput, e₀, rfl, hname, hdata⟩ := exists_getElem?_of_forall₂ houtputs.flip he'
  obtain ⟨e, he, -⟩ := exists_getElem?_of_forall₂ (forall₂_outputEntries entries classes).flip houtput
  refine ⟨e, he, ?_⟩
  by_cases hkept : Kept classes i
  · obtain rfl : e.copied = e₀ :=
      Except.ok.inj (Option.some.inj ((getElem?_outputEntries_of_kept he hkept).symm.trans houtput))
    exact ⟨hname, .inl ⟨hkept, hdata⟩⟩
  · obtain ⟨c, hc, hmodified, rfl⟩ : ∃ c ∈ classes, c.modified = true ∧ c.position = i := by
      simpa [Kept] using hkept
    rcases getElem?_outputEntries_of_modified hpositions hc hmodified he with
      ⟨data, hencode, hplace⟩ | ⟨err, err', -, hplace⟩
    · obtain rfl := Except.ok.inj (Option.some.inj (hplace.symm.trans houtput))
      exact ⟨hname, .inr ⟨hkept, c, hc, hmodified, rfl, hdata ▸ hencode⟩⟩
    · cases hplace.symm.trans houtput

/-- Where no class was rewritten, every entry is written as it is. -/
theorem Job.outputEntries_of_kept {entries : List Entry} {classes : List Candidate}
    (h : ∀ c ∈ classes, c.modified = false) :
    outputEntries entries classes = entries.map fun e => .ok e.copied := by
  refine List.ext_getElem? fun i => ?_
  rw [List.getElem?_map]
  cases he : entries[i]? with
  | none =>
    unfold outputEntries
    rw [List.getElem?_map, List.getElem?_zipIdx, he]
    rfl
  | some e =>
    refine getElem?_outputEntries_of_kept he fun c hc hmodified => ?_
    exact absurd ((h c hc).symm.trans hmodified) (by decide)

/-- A rewritten class is read back as it was written. -/
theorem parse_of_encode {cf : ClassFile} {data : Bytes} (h : cf.Consistent)
    (hlimits : cf.InLimits) (hdata : cf.encode = .ok data) :
    ClassFile.parse data = .ok cf.reindexed :=
  ClassFile.parse_ok.2 ⟨rfl, ClassFile.reindexed_readable h hlimits,
    (ClassFile.encode_ok.1 hdata).2.symm, h.thisClass⟩

/-! ## Running again -/

/-- A call that a run which began with `classes` and came to `s` leaves in the method at a
position of a class, as the class is read again: any call site of a class that was kept, and
what remains in one that was rewritten. -/
inductive Session.Leaves (classes : List Candidate) (s : Session σ) (c' : Candidate) (i : Nat) :
    Units → String → String → Prop
  | kept {m : Member} {units : Units} {owner name : String}
      (hkept : Job.Kept s.classes c'.position) (hm : c'.cf.methods[i]? = some m)
      (hsite : SiteIn c' m units owner name) : Leaves classes s c' i units owner name
  | rewritten {c : Candidate} {m : Member} {units : Units} {owner name : String}
      (hrewritten : ¬ Job.Kept s.classes c'.position) (hc : c ∈ classes)
      (hposition : c.position = c'.position) (hm : c.cf.methods[i]? = some m)
      (hremains : RemainsIn c m s.stats.results units owner name) :
      Leaves classes s c' i units owner name

/-- No routine answers any call that a run leaves in a class. -/
def Session.LeavesRefused (runner : Runner σ) (I : σ → Prop) (lookup : String → Option ClassFile)
    (classes : List Candidate) (s : Session σ) (c' : Candidate) : Prop :=
  ∀ i m', c'.cf.methods[i]? = some m' → ∀ units owner name,
    s.Leaves classes c' i units owner name →
      Refuses runner I lookup c'.cf ⟨c'.name, m'.name c'.cf.pool, c'.poolCount⟩ units owner name

namespace Session

variable {runner : Runner σ} {entries again : List Entry} {classes : List Candidate} {s : Session σ}

/-- Every candidate that is read again is a class, and its call sites are calls that the run
leaves in it. -/
theorem sites_again {s₀ : Session σ} {loaded : List Candidate × List Archive.LoadNote}
    (hload : Archive.loadClasses entries false = .ok loaded) (hclasses : s₀.classes = loaded.1)
    (hnamed : ∀ item ∈ Archive.candidateEntries entries, ∀ cf,
      ClassFile.parse item.1.data = .ok cf → WellNamedClass cf)
    (hrun : s₀.decrypt runner = .ok s)
    (hlimits : ∀ c ∈ s.classes, c.modified = true → c.cf.InLimits)
    (hwritten : (Archive.packAll (Job.outputEntries entries s.classes)).2 = none)
    (hagain : ReadBack (Archive.packAll (Job.outputEntries entries s.classes)).1 again) :
    ∀ item ∈ Archive.candidateEntries again, ∃ cf, ClassFile.parse item.1.data = .ok cf ∧
      ∀ c' : Candidate, c'.cf = cf → c'.position = item.2 → ∀ i m', cf.methods[i]? = some m' →
        SitesAmong (s.Leaves loaded.1 c' i) cf.pool m' := by
  obtain ⟨classes, notes⟩ := loaded
  obtain ⟨hread, hordered⟩ := Archive.loadClasses_ok hload
  have hpositions : (classes.map (·.position)).Nodup := hordered.imp Nat.ne_of_lt
  have hnamedClass : ∀ c ∈ classes, WellNamedClass c.cf := by
    intro c hc
    obtain ⟨found, hfound, hsublist⟩ := Archive.exists_candidates hload
    obtain ⟨item, hitem, hparse⟩ := exists_mem_of_forall₂ hfound (hsublist.subset hc)
    obtain ⟨-, -, hdata, hparsed, -⟩ := Candidate.parse_ok hparse
    exact hnamed item hitem c.cf (hdata ▸ hparsed)
  obtain ⟨hmoved, hleft⟩ := exists_leftOf hread hpositions hnamedClass hclasses hrun
  rintro ⟨e', i⟩ hitem
  obtain ⟨he', hcandidate⟩ := mem_candidateEntries.1 hitem
  obtain ⟨e, he, hname, ⟨hkept, hdata⟩ | ⟨hrewritten, c₁, hc₁, hmodified, hposition, hencode⟩⟩ :=
    Job.entry_cases (hmoved ▸ hpositions) hwritten hagain he'
  · rw [hname, hdata] at hcandidate
    have hitem := mem_candidateEntries.2 ⟨he, hcandidate⟩
    obtain ⟨cf, hparse⟩ := exists_loadClasses_iff.1 ⟨_, hload⟩ _ hitem
    refine ⟨cf, by rwa [hdata], ?_⟩
    rintro c' rfl rfl j m' hm'
    have hmethod := hnamed _ hitem c'.cf hparse m' (List.mem_of_getElem? hm')
    exact hmethod.sites.imp fun units owner name hsite => .kept hkept hm' hsite
  · obtain ⟨c, hc, hposition₁, hconsistent, hsites⟩ := hleft c₁ hc₁ hmodified
    have hparse := parse_of_encode hconsistent (hlimits c₁ hc₁ hmodified) hencode
    refine ⟨_, hparse, ?_⟩
    rintro c' hcf rfl j m' hm'
    obtain ⟨m, hm, hmethod⟩ := exists_getElem?_of_forall₂
      (hsites c₁.cf.reindexed.pool (ClassFile.Consistent.of_parse hparse).pool.closed
        (fun _ _ h => h) fun _ _ h => h).flip hm'
    exact SitesAmong.imp (fun units owner name hremains =>
      .rewritten hrewritten hc (hposition₁.trans hposition) hm hremains) hmethod

/-- Running again on what a run wrote decrypts nothing, rewrites no class and writes every
entry as it is, when every class is given up or no routine answers a call that the run left
in it. -/
theorem decrypt_again {notes : List Archive.LoadNote} {kept : σ} {stats : Stats}
    (hload : Archive.loadClasses entries false = .ok (classes, notes))
    (hnamed : ∀ item ∈ Archive.candidateEntries entries, ∀ cf,
      ClassFile.parse item.1.data = .ok cf → WellNamedClass cf)
    (hrun : Session.decrypt runner { classes, kept, stats } = .ok s)
    (hlimits : ∀ c ∈ s.classes, c.modified = true → c.cf.InLimits)
    (hwritten : (Archive.packAll (Job.outputEntries entries s.classes)).2 = none)
    (hagain : ReadBack (Archive.packAll (Job.outputEntries entries s.classes)).1 again) :
    ∃ classes' notes', Archive.loadClasses again false = .ok (classes', notes') ∧
      ∀ (I : σ → Prop) (kept' : σ), I kept' →
        (∀ c' ∈ classes',
          GivenUp runner I (fun name => (Archive.lookup? classes' name).map (·.cf)) c' ∨
          s.LeavesRefused runner I (fun name => (Archive.lookup? classes' name).map (·.cf)) classes
            c') →
        ∃ s', Session.decrypt runner
            { classes := classes', kept := kept'
              stats := { entries := again.length, classes := classes'.length } } = .ok s' ∧
          s'.stats.decrypted = 0 ∧ s'.stats.patched = 0 ∧
          Job.outputEntries again s'.classes = again.map fun e => .ok e.copied := by
  have hsites := sites_again hload rfl hnamed hrun hlimits hwritten hagain
  obtain ⟨⟨classes', notes'⟩, hload'⟩ := exists_loadClasses_iff.2 fun item hitem =>
    (hsites item hitem).imp fun _ h => h.1
  refine ⟨classes', notes', hload', fun I kept' hkept' hrefused => ?_⟩
  obtain ⟨hread', -⟩ := Archive.loadClasses_ok hload'
  have hleftAlone : ∀ c' ∈ classes',
      LeftAlone runner I (fun name => (Archive.lookup? classes' name).map (·.cf)) c' := by
    intro c' hc'
    rcases hrefused c' hc' with hgiven | hrefused
    · exact hgiven.leftAlone
    · obtain ⟨found, hfound, hsublist⟩ := Archive.exists_candidates hload'
      obtain ⟨item, hitem, hparse⟩ := exists_mem_of_forall₂ hfound (hsublist.subset hc')
      obtain ⟨hposition, -, hdata, hparsed, -⟩ := Candidate.parse_ok hparse
      obtain ⟨cf, hcf, hleaves⟩ := hsites item hitem
      obtain rfl : c'.cf = cf := Except.ok.inj (hparsed.symm.trans (hdata ▸ hcf))
      refine leftAlone_of_refused fun m' hm' => ?_
      obtain ⟨i, hi⟩ := List.getElem?_of_mem hm'
      exact (hleaves c' rfl hposition i m' hi).imp (hrefused i m' hi)
  obtain ⟨s', hs', hidle⟩ := @decryptClasses_leftAlone σ runner I classes'
    { classes := classes', kept := kept'
      stats := { entries := again.length, classes := classes'.length } } hkept' hleftAlone
  refine ⟨s', hs', hidle.decrypted, hidle.patched, Job.outputEntries_of_kept fun c' hc' => ?_⟩
  rw [hidle.classes] at hc'
  exact (hread' c' hc').unmodified

end Session

/-! ## A class that is rewritten once -/

/-- The class `A` with one method. -/
def once (body : MethodBody) : ClassFile :=
  { halfEmpty body with methods := [⟨8, 4, 5, [.code 3 "Code" body]⟩] }

theorem parse_once {code : Bytes} (hcode : code.length < 65536) :
    ClassFile.parse (once ⟨1, 0, code, [], []⟩).image = .ok (once ⟨1, 0, code, [], []⟩) :=
  parse_methods (by simp) (List.forall_mem_singleton.2 (readable_bare hcode))

/-- An archive with the class `A`. -/
def onceEntries (body : MethodBody) : List Entry :=
  [{ name := "A.class", data := (once body).image }]

/-- The class `A` as it is read. -/
def onceClass : Candidate :=
  { position := 0, entryName := "A.class", data := (once calling).image, cf := once calling
    poolCount := 9 }

theorem candidateEntries_once :
    Archive.candidateEntries (onceEntries calling) =
      [({ name := "A.class", data := (once calling).image }, 0)] := by
  have hcandidate : (Archive.isClassName "A.class" &&
      Archive.mayUseDecrypt (once calling).image) = true := by decide +kernel
  simp [Archive.candidateEntries, onceEntries, List.zipIdx_cons, hcandidate]

theorem loadClasses_once : Archive.loadClasses (onceEntries calling) false = .ok ([onceClass], []) := by
  have hparse : Candidate.parse 0 { name := "A.class", data := (once calling).image } =
      .ok onceClass := by
    rw [Candidate.parse, show ClassFile.parse (once calling).image = .ok (once calling) from
      parse_once (by decide)]
    rfl
  unfold Archive.loadClasses
  rw [candidateEntries_once]
  simp only [Bool.false_and, Bool.false_eq_true, if_false]
  exact Except.bind_ok.2 ⟨[onceClass], Except.mapM_ok.2 (.cons hparse .nil), rfl⟩

theorem wellNamed_once : WellNamedClass (once calling) := by
  intro m hm body hbody code hcode ins hins
  obtain rfl := List.mem_singleton.1 hm
  obtain rfl : calling = body := Option.some.inj hbody
  obtain rfl := Except.ok.inj (decodeAll_calling.symm.trans hcode)
  simp only [callingCode, List.mem_cons, List.not_mem_nil, or_false] at hins
  rcases hins with rfl | rfl | rfl | rfl
  · exact ⟨fun _ => rfl, fun hop => absurd hop (by decide)⟩
  · exact ⟨fun _ => rfl, fun _ => ⟨.method, 2, 6, rfl⟩⟩
  · exact ⟨fun hop => absurd hop (by decide), fun hop => absurd hop (by decide)⟩
  · exact ⟨fun hop => absurd hop (by decide), fun hop => absurd hop (by decide)⟩

theorem rewriteClass_once (lookup : String → Option ClassFile) :
    ∃ w, rewriteClass echo lookup onceClass () = (.rewritten (once called), w) ∧
      ∀ r ∈ w.results, r.outcome.isDecrypted = true := by
  obtain ⟨w₁, hmethods, hw₁, hresults⟩ := @rewriteMethods_calling onceClass [] rfl lookup
    { cf := once calling, kept := () } rfl
  replace hw₁ : w₁.cf = once called := hw₁
  replace hmethods : rewriteMethods echo lookup onceClass 0 (once calling).methods 0
      { cf := once calling, kept := () } = (.ok 1, w₁) := hmethods
  obtain ⟨e, name, hshrink, hroot⟩ :
      ∃ e name, (once called).shrink = .error e ∧ e.root = .unknownAttribute name :=
    ⟨_, _, rfl, rfl⟩
  unfold rewriteClass
  rw [show onceClass.cf = once calling from rfl, hmethods]
  simp only [hw₁, hshrink, hroot]
  refine ⟨_, rfl, fun r hr => ?_⟩
  replace hr : r ∈ w₁.results := hr
  rw [hresults] at hr
  obtain rfl := List.mem_singleton.1 hr
  rfl

/-- The class is rewritten, and nothing of it fails. -/
theorem Session.decrypt_once :
    ∃ s : Session Unit, Session.decrypt echo
        { classes := [onceClass], kept := (), stats := { entries := 1, classes := 1 } } = .ok s ∧
      s.classes = [{ onceClass with cf := once called, modified := true }] ∧
      ∀ r ∈ s.stats.results, r.outcome.isDecrypted = true := by
  obtain ⟨verdict, w, hanswer, hdone⟩ := @Session.decryptClass_cases Unit echo
    { classes := [onceClass], kept := (), stats := { entries := 1, classes := 1 } } onceClass rfl
  obtain ⟨w', hrewritten, hresults⟩ := rewriteClass_once _
  obtain ⟨rfl, rfl⟩ := Prod.mk.inj (hanswer.symm.trans hrewritten)
  rcases hdone with ⟨e, he, -⟩ | ⟨s, hs, htreats⟩
  · cases he
  · refine ⟨s, Except.bind_ok.2 ⟨s, hs, rfl⟩, htreats.classes [] [] rfl (by simp), fun r hr => ?_⟩
    rw [htreats.stats] at hr
    exact hresults r (List.mem_reverse.1 hr)

theorem encode_once {code : Bytes} (hcode : 0 < code.length ∧ code.length < 65536) :
    (once ⟨1, 0, code, [], []⟩).encode = .ok (once ⟨1, 0, code, [], []⟩).image := by
  refine ClassFile.encode_ok.2 ⟨ClassFile.writable_iff_codeLengths.2 ?_, rfl⟩
  simpa [ClassFile.codeLengths_eq, once, halfEmpty, Member.codeLengths] using hcode

theorem exists_pack_once (data : Bytes) :
    ∃ p, Archive.pack (Entry.copied { name := "A.class", data }) = .ok p := by
  have hdirectory : Archive.isDirectoryName "A.class" = false := by decide +kernel
  have hextra : Archive.withoutTimes [] = [] := rfl
  simp only [Archive.pack, Entry.copied, Entry.timed, hdirectory, hextra]
  exact ⟨_, rfl⟩

/-- Nothing remains of the call in `calling` when it was answered. -/
theorem not_remains_calling {caller : Identity} {results : List CallResult} {units : Units}
    {owner name : String} (hresults : ∀ r ∈ results, r.outcome.isDecrypted = true) :
    ¬ Remains (Pool.ofSlots halfEmptySlots) calling caller callingCode results units owner name := by
  intro h
  cases h with
  | left _ _ hresult => exact absurd (hresults _ hresult) Bool.false_ne_true
  | @handedOn load call next _ _ _ _ _ _ hcode _ _ hcalls _ =>
    -- Two instructions come before this one, and so it is not the call.
    have hnext : next.op = .pop ∨ next.op = .returnVoid := by
      simp only [callingCode, List.infix_cons_iff, List.cons_prefix_cons, List.infix_nil,
        List.nil_prefix, List.prefix_nil, reduceCtorEq, and_false, or_false, and_true] at hcode
      rcases hcode with ⟨-, -, rfl⟩ | ⟨-, -, rfl⟩
      · exact .inl rfl
      · exact .inr rfl
    rcases hnext with hnext | hnext <;> exact absurd (hnext.symm.trans hcalls.1) (by decide)
  | joined _ _ _ hapart _ => cases hapart

theorem Session.decrypt_again_once :
    ∃ s : Session Unit,
      Archive.loadClasses (onceEntries calling) false = .ok ([onceClass], []) ∧
      Session.decrypt echo
          { classes := [onceClass], kept := (), stats := { entries := 1, classes := 1 } } = .ok s ∧
      (Archive.packAll (Job.outputEntries (onceEntries calling) s.classes)).2 = none ∧
      ReadBack (Archive.packAll (Job.outputEntries (onceEntries calling) s.classes)).1
        (onceEntries called) ∧
      ∃ classes' notes' s',
        Archive.loadClasses (onceEntries called) false = .ok (classes', notes') ∧
        Session.decrypt echo
            { classes := classes', kept := ()
              stats := { entries := 1, classes := classes'.length } } = .ok s' ∧
        s'.stats.decrypted = 0 ∧ s'.stats.patched = 0 ∧
        Job.outputEntries (onceEntries called) s'.classes =
          (onceEntries called).map fun e => .ok e.copied := by
  obtain ⟨s, hrun, hclasses, hresults⟩ := Session.decrypt_once
  have houtput : Job.outputEntries (onceEntries calling) s.classes =
      [.ok (Entry.copied { name := "A.class", data := (once called).image })] := by
    have hencode : (once called).encode = .ok (once called).image := encode_once (by decide)
    rw [hclasses]
    simp [Job.outputEntries, onceEntries, Archive.classAt?, onceClass, hencode, Entry.copied]
  obtain ⟨p, hp⟩ := exists_pack_once (once called).image
  have hpacked : Archive.packAll (Job.outputEntries (onceEntries calling) s.classes) = ([p], none) := by
    rw [houtput, Archive.packAll, hp]
    rfl
  have hwritten : (Archive.packAll (Job.outputEntries (onceEntries calling) s.classes)).2 = none := by
    rw [hpacked]
  have hagain : ReadBack (Archive.packAll (Job.outputEntries (onceEntries calling) s.classes)).1
      (onceEntries called) := by
    rw [hpacked]
    exact .cons ⟨(Archive.pack_ok hp).1.symm, (Archive.pack_ok hp).2.symm⟩ .nil
  have hnamed : ∀ item ∈ Archive.candidateEntries (onceEntries calling), ∀ cf,
      ClassFile.parse item.1.data = .ok cf → WellNamedClass cf := by
    rw [candidateEntries_once]
    intro item hitem cf hcf
    obtain rfl := List.mem_singleton.1 hitem
    obtain rfl : once calling = cf := Except.ok.inj ((parse_once (by decide)).symm.trans hcf)
    exact wellNamed_once
  have hlimits : ∀ c ∈ s.classes, c.modified = true → c.cf.InLimits := by
    rw [hclasses]
    intro c hc _
    obtain rfl := List.mem_singleton.1 hc
    obtain ⟨-, hreadable, -⟩ := ClassFile.parse_ok.1 (@parse_once called.bytecode (by decide))
    exact hreadable.inLimits
  obtain ⟨classes', notes', hload', hagainst⟩ :=
    Session.decrypt_again loadClasses_once hnamed hrun hlimits hwritten hagain
  obtain ⟨s', hrun', hidle⟩ := hagainst (fun _ => True) () True.intro fun c' hc' => by
    -- The class was rewritten, and the call in it was answered.
    refine .inr fun i m' _ units owner name hleaves => ?_
    obtain ⟨e, he, -⟩ := ((Archive.loadClasses_ok hload').1 c' hc').entry
    have hposition : c'.position = 0 := by
      simpa [onceEntries] using (List.getElem?_eq_some_iff.1 he).1
    cases hleaves with
    | kept hkept _ _ =>
      rw [Job.Kept, hclasses] at hkept
      exact absurd hposition.symm (hkept _ (List.mem_singleton_self _) rfl)
    | rewritten _ hc _ hm hremains =>
      obtain rfl := List.mem_singleton.1 hc
      obtain ⟨body, old, hbody, hold, hremains⟩ := hremains
      obtain rfl := List.mem_singleton.1 (List.mem_of_getElem? hm)
      obtain rfl : calling = body := Option.some.inj hbody
      obtain rfl := Except.ok.inj (decodeAll_calling.symm.trans hold)
      exact absurd hremains (not_remains_calling hresults)
  exact ⟨s, loadClasses_once, hrun, hwritten, hagain, classes', notes', s', hload', hrun', hidle⟩

end Cleartext.Run
