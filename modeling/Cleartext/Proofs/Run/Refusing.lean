import Cleartext.Proofs.Run.Remaining
import Cleartext.Proofs.Run.Session

/-!
# Runs without an answer

When no routine answers any call of a class, no edit is staged, and the class stays as it
was read.  Routines may be run for that, and what is kept of them may change: `I` says what
it may be (`Refuses`).  `Work.Idles` is what a class comes to then, from one call site
through a method to the whole class.  A class can also be given up, which leaves it as well;
`LeftAlone` covers both, and goes from a class to all of them
(`Session.decryptClasses_leftAlone`).
-/

namespace Cleartext.Run

open Archive (Candidate)
open Isolation (Identity Note)
open Pattern (CallSite IsCallSite)

variable {σ : Type}

/-! ## Calls -/

@[simp] theorem Work.noting_kept (w : Work σ) (notes : List Note) :
    (w.noting notes).kept = w.kept := by
  unfold noting
  induction notes generalizing w with
  | nil => rfl
  | cons note notes ih => exact ih _

/-- The class that a routine is looked for in. -/
def routineClass? (lookup : String → Option ClassFile) (cf : ClassFile) (caller : Identity)
    (owner : String) : Option ClassFile :=
  if owner = caller.cls then some cf else lookup owner

/-- No routine answers a call, whatever is kept of routines, as long as `I` holds of it; and
`I` goes on to hold. -/
def Refuses (runner : Runner σ) (I : σ → Prop) (lookup : String → Option ClassFile)
    (cf : ClassFile) (caller : Identity) (units : Units) (owner name : String) : Prop :=
  ∀ kept, I kept → ∀ routine, routineClass? lookup cf caller owner = some routine →
    (∃ e, (runner.decrypt kept routine name caller units).1.answer = .error e) ∧
      I (runner.decrypt kept routine name caller units).2

/-- Nothing of a class was decrypted on the way from `w` to `w'`. -/
structure Work.Idles (I : σ → Prop) (w w' : Work σ) : Prop where
  cf : w'.cf = w.cf
  kept : I w'.kept
  results : ∃ more, w'.results = more ++ w.results ∧ decryptedCount more = 0

theorem Work.Idles.refl {I : σ → Prop} {w : Work σ} (hw : I w.kept) : w.Idles I w :=
  ⟨rfl, hw, [], rfl, rfl⟩

theorem Work.Idles.trans {I : σ → Prop} {w w' w'' : Work σ} (h : w.Idles I w')
    (h' : w'.Idles I w'') : w.Idles I w'' := by
  obtain ⟨more, hmore, hcount⟩ := h.results
  obtain ⟨more', hmore', hcount'⟩ := h'.results
  refine ⟨h'.cf.trans h.cf, h'.kept, more' ++ more, ?_, ?_⟩
  · rw [hmore', hmore, List.append_assoc]
  · rw [decryptedCount_append, hcount, hcount']

section

variable {runner : Runner σ} {I : σ → Prop} {lookup : String → Option ClassFile}
  {caller : Identity} {barriers : List Int}

theorem Work.idles_left {w w' : Work σ} (hcf : w'.cf = w.cf) (hresults : w'.results = w.results)
    (hkept : I w'.kept) (site : CallSite) (e : Error) : w.Idles I (w'.left caller site e) := by
  refine ⟨hcf, hkept, [siteResult caller site (.failed e.message)], ?_, rfl⟩
  show siteResult caller site (.failed e.message) :: w'.results = _
  rw [hresults]
  rfl

/-- A call that is refused is left. -/
theorem rewriteSite_refused (ed : Editor) (site : CallSite) (w : Work σ) (hw : I w.kept)
    (h : Refuses runner I lookup w.cf caller site.literal site.cls site.method) :
    ∃ w', rewriteSite runner lookup caller ed site w = (.ok (ed, false), w') ∧ w.Idles I w' := by
  unfold rewriteSite
  cases howner : routineClass? lookup w.cf caller site.cls with
  | none =>
    rw [routineClass?] at howner
    simp only [howner]
    exact ⟨_, rfl, Work.idles_left rfl rfl hw site _⟩
  | some owner =>
    obtain ⟨⟨e, hanswer⟩, hkept⟩ := h w.kept hw owner howner
    rw [routineClass?] at howner
    rcases hreply : runner.decrypt w.kept owner site.method caller site.literal with ⟨reply, kept⟩
    rw [hreply] at hanswer hkept
    simp only [howner, hreply]
    rw [hanswer]
    exact ⟨_, rfl, Work.idles_left (by simp) (by simp) (by simpa using hkept) site e⟩

/-! ## Methods -/

/-- Where all calls are refused, nothing is staged. -/
theorem rewriteSites_refused {cf : ClassFile} (instructions : List Instruction) :
    ∀ (fuel : Nat) (ed : Editor) (edits : Nat) (w : Work σ), instructions.length ≤ fuel →
    w.cf = cf → I w.kept →
    instructions.IsChain (Sighted (Refuses runner I lookup cf caller) cf.pool barriers) →
    ∃ w', rewriteSites runner lookup caller barriers fuel instructions ed edits w =
      (.ok (ed, edits), w') ∧ w.Idles I w' := by
  induction instructions using List.twoStepInduction with
  | nil =>
    intro fuel ed edits w _ _ hw _
    exact ⟨w, rewriteSites_nil fuel ed edits w, .refl hw⟩
  | singleton ins =>
    intro fuel ed edits w hfuel _ hw _
    obtain ⟨fuel, rfl⟩ := Nat.exists_eq_succ_of_ne_zero (Nat.pos_iff_ne_zero.1 hfuel)
    rw [rewriteSites_passed Pattern.next?_singleton, rewriteSites_nil]
    exact ⟨w, rfl, .refl hw⟩
  | cons_cons load call rest ihRest ihNext =>
    intro fuel ed edits w hfuel hcf hw hchain
    obtain ⟨fuel, rfl⟩ := Nat.exists_eq_succ_of_ne_zero
      (Nat.pos_iff_ne_zero.1 (Nat.lt_of_lt_of_le (by simp) hfuel))
    rw [List.length_cons, List.length_cons] at hfuel
    obtain ⟨⟨⟨answer, hanswer⟩, hrefused⟩, hchain⟩ := List.isChain_cons_cons.1 hchain
    have hnext := @Pattern.next?_cons_cons cf.pool barriers load call rest
    rw [hanswer, ← hcf] at hnext
    cases answer with
    | none =>
      rw [rewriteSites_passed hnext]
      exact ihNext call _ ed edits w (by simp; omega) hcf hw hchain
    | some found =>
      obtain ⟨units, r⟩ := found
      have hsite := Pattern.callAt?_eq_some hanswer
      have hrest : rest.IsChain (Sighted (Refuses runner I lookup cf caller) cf.pool barriers) :=
        hchain.tail
      unfold rewriteSites
      simp only [hnext]
      obtain ⟨w₁, hleft, hidle⟩ := @rewriteSite_refused σ runner I lookup caller ed
        (CallSite.of (Pattern.found (Pattern.templateOf load.op) load call units r)) w hw
        (hcf ▸ hrefused units r.owner r.name hsite)
      obtain ⟨w', hdone, hidle'⟩ :=
        ihRest fuel ed edits w₁ (by omega) (hidle.cf.trans hcf) hidle.kept hrest
      rw [hleft]
      exact ⟨w', hdone, hidle.trans hidle'⟩

/-- A method all of whose calls are refused is left, or its code cannot be taken apart. -/
theorem rewriteMethod_refused {cf : ClassFile} {m : Member} {body : MethodBody}
    (hbody : m.body? = some body) (position : Nat) {w : Work σ} (hcf : w.cf = cf) (hw : I w.kept)
    (h : SitesAmong (Refuses runner I lookup cf caller) cf.pool m) :
    ∃ w', w.Idles I w' ∧ (rewriteMethod runner lookup caller position body w = (.ok 0, w') ∨
      ∃ e, rewriteMethod runner lookup caller position body w = (.error e, w') ∧
        (layoutOffset? e).isSome) := by
  unfold rewriteMethod
  cases hnew : Editor.new body with
  | error e => exact ⟨w, .refl hw, .inr ⟨_, rfl, rfl⟩⟩
  | ok ed =>
    obtain ⟨code, hcode, rfl⟩ := Editor.new_ok.1 hnew
    simp only [Editor.instructions_mk]
    obtain ⟨w', hdone, hidle⟩ := @rewriteSites_refused σ runner I lookup caller
      (Pattern.barriersOf body code) cf code code.length
      ⟨body, code.map fun ins => { original := ins }⟩ 0 w le_rfl hcf hw (h body hbody code hcode)
    rw [hdone]
    exact ⟨w', hidle, .inl rfl⟩

/-! ## Classes -/

variable {c : Candidate}

/-- The calls in a method of a class are all refused. -/
def RefusesAll (runner : Runner σ) (I : σ → Prop) (lookup : String → Option ClassFile)
    (c : Candidate) (m : Member) : Prop :=
  SitesAmong (Refuses runner I lookup c.cf ⟨c.name, m.name c.cf.pool, c.poolCount⟩) c.cf.pool m

theorem rewriteMethods_refused {todo : List Member} :
    ∀ (position edits : Nat) (w : Work σ), w.cf = c.cf → I w.kept →
    (∀ m ∈ todo, RefusesAll runner I lookup c m) →
    ∃ w', w.Idles I w' ∧ (rewriteMethods runner lookup c position todo edits w = (.ok edits, w') ∨
      ∃ method e, rewriteMethods runner lookup c position todo edits w = (.error (method, e), w') ∧
        (layoutOffset? e).isSome) := by
  induction todo with
  | nil => exact fun position edits w _ hw _ => ⟨w, .refl hw, .inl rfl⟩
  | cons m todo ih =>
    intro position edits w hcf hw hrefused
    rw [List.forall_mem_cons] at hrefused
    unfold rewriteMethods
    cases hbody : m.body? with
    | none => exact ih _ _ w hcf hw hrefused.2
    | some body =>
      simp only
      obtain ⟨w₁, hidle, hmethod⟩ := rewriteMethod_refused hbody position hcf hw hrefused.1
      rcases hmethod with hmethod | ⟨e, hmethod, hlayout⟩
      · obtain ⟨w', hidle', hdone⟩ :=
          ih (position + 1) edits w₁ (hidle.cf.trans hcf) hidle.kept hrefused.2
        rw [hmethod]
        exact ⟨w', hidle.trans hidle', hdone⟩
      · rw [hmethod]
        exact ⟨w₁, hidle, .inr ⟨_, e, rfl, hlayout⟩⟩

/-- A class is given up, whatever is kept of routines. -/
def GivenUp (runner : Runner σ) (I : σ → Prop) (lookup : String → Option ClassFile)
    (c : Candidate) : Prop :=
  ∀ kept, I kept → ∃ cause w, rewriteClass runner lookup c kept = (.abandoned cause, w) ∧ I w.kept

/-- A class stays as it was read: nothing in it is decrypted, or it is given up. -/
def LeftAlone (runner : Runner σ) (I : σ → Prop) (lookup : String → Option ClassFile)
    (c : Candidate) : Prop :=
  ∀ kept, I kept → ∃ verdict w, rewriteClass runner lookup c kept = (verdict, w) ∧ I w.kept ∧
    (verdict = .untouched ∧ decryptedCount w.results = 0 ∨ ∃ cause, verdict = .abandoned cause)

theorem GivenUp.leftAlone (h : GivenUp runner I lookup c) : LeftAlone runner I lookup c := by
  intro kept hkept
  obtain ⟨cause, w, hanswer, hw⟩ := h kept hkept
  exact ⟨_, w, hanswer, hw, .inr ⟨cause, rfl⟩⟩

/-- A class all of whose calls are refused is left alone. -/
theorem leftAlone_of_refused (h : ∀ m ∈ c.cf.methods, RefusesAll runner I lookup c m) :
    LeftAlone runner I lookup c := by
  intro kept hkept
  obtain ⟨w, hidle, hdone⟩ := rewriteMethods_refused 0 0 { cf := c.cf, kept } rfl hkept h
  obtain ⟨more, hmore, hcount⟩ := hidle.results
  rw [List.append_nil] at hmore
  unfold rewriteClass
  rcases hdone with hdone | ⟨method, e, hfailed, hlayout⟩
  · rw [hdone]
    exact ⟨_, w, rfl, hidle.kept, .inl ⟨rfl, hmore ▸ hcount⟩⟩
  · obtain ⟨offset, hoffset⟩ := Option.isSome_iff_exists.1 hlayout
    rw [hfailed]
    simp only [hoffset]
    exact ⟨_, _, rfl, hidle.kept, .inr ⟨e, rfl⟩⟩

/-! ## All classes -/

/-- The session `s'` has the classes of `s` as they were, and nothing more was decrypted. -/
structure Session.Idles (I : σ → Prop) (s s' : Session σ) : Prop where
  classes : s'.classes = s.classes
  kept : I s'.kept
  decrypted : s'.stats.decrypted = s.stats.decrypted
  patched : s'.stats.patched = s.stats.patched

theorem decryptedCount_reverse (results : List CallResult) :
    decryptedCount results.reverse = decryptedCount results :=
  List.countP_reverse

theorem decryptedCount_withdrawn (cause : String) (results : List CallResult) :
    decryptedCount (results.map (CallResult.withdrawn cause)) = 0 := by
  simp [decryptedCount, CallResult.isDecrypted_withdrawn]

/-- Dealing with a class that is left alone changes no class. -/
theorem Session.decryptClass_leftAlone {s : Session σ} (hs : I s.kept)
    (h : LeftAlone runner I (fun name => (Archive.lookup? s.classes name).map (·.cf)) c) :
    ∃ s', s.decryptClass runner c = .ok s' ∧ s.Idles I s' := by
  obtain ⟨verdict, w, hanswer, hkept, hverdict⟩ := h s.kept hs
  unfold decryptClass
  simp only [hanswer]
  rcases hverdict with ⟨rfl, hcount⟩ | ⟨cause, rfl⟩
  · refine ⟨_, rfl, rfl, hkept, ?_, ?_⟩
    · simp [counting, after, Stats.addAll_eq, decryptedCount_reverse, hcount]
    · simp [counting, after, Stats.addAll_eq]
  · refine ⟨_, rfl, rfl, hkept, ?_, ?_⟩
    · simp [counting, after, Stats.addAll_eq, decryptedCount_reverse, decryptedCount_withdrawn]
    · simp [counting, after, Stats.addAll_eq]

/-- Where all classes are left alone, a run decrypts nothing and changes no class. -/
theorem Session.decryptClasses_leftAlone {todo : List Candidate} {s : Session σ} (hs : I s.kept)
    (h : ∀ c ∈ todo,
      LeftAlone runner I (fun name => (Archive.lookup? s.classes name).map (·.cf)) c) :
    ∃ s', s.decryptClasses runner todo = .ok s' ∧ s.Idles I s' := by
  unfold decryptClasses
  induction todo generalizing s with
  | nil => exact ⟨s, rfl, rfl, hs, rfl, rfl⟩
  | cons c todo ih =>
    rw [List.forall_mem_cons] at h
    obtain ⟨s₁, hs₁, hidle⟩ := decryptClass_leftAlone hs h.1
    obtain ⟨s', hs', hidle'⟩ := ih hidle.kept (hidle.classes ▸ h.2)
    refine ⟨s', by rw [List.foldlM_cons, hs₁]; exact hs', ?_⟩
    exact ⟨hidle'.classes.trans hidle.classes, hidle'.kept, hidle'.decrypted.trans hidle.decrypted,
      hidle'.patched.trans hidle.patched⟩

end

end Cleartext.Run
