import Cleartext.Proofs.Run.Refusing

/-!
# What routines are asked

A run asks routines for the strings of its call sites, and hands what is kept of them from
one request to the next.  A runner that writes down its requests (`Runner.recording`) runs
like the one it is made from, since nothing looks at what is kept but the runner
(`rewriteClass_recording`).  So what it has written down is what the run asks, and
`Session.requests` is all that is asked while classes are decrypted.

What holds of a class and of what is kept, and goes on to hold, holds of a class that was
rewritten (`Stable.rewriteClass`): when a routine is asked, when a string is added to the
class, and when a body is put into one of its methods.
-/

namespace Cleartext.Run

open Archive (Candidate)
open Isolation (Identity Note Reply)
open Pattern (CallSite)

variable {σ τ : Type}

/-! ## What goes on to hold -/

/-- Something holds of a class that is being rewritten, and of what is kept of routines, and
goes on to hold at every step.  Callers are methods of the class `cls`. -/
structure Stable (runner : Runner σ) (lookup : String → Option ClassFile) (cls : String)
    (J : ClassFile → σ → Prop) : Prop where
  asked : ∀ {cf kept routine}, J cf kept → ∀ (caller : Identity) (owner name : String)
    (units : Units), caller.cls = cls → routineClass? lookup cf caller owner = some routine →
    J cf (runner.decrypt kept routine name caller units).2
  added : ∀ {cf kept}, J cf kept → ∀ units : Units,
    J { cf with pool := (cf.pool.edit (Pool.Edit.stringUnits units)).2 } kept
  laid : ∀ {cf kept}, J cf kept → ∀ (position : Nat) (body : MethodBody),
    J { cf with methods := cf.methods.modify position (·.setBody body) } kept

namespace Stable

variable {runner : Runner σ} {lookup : String → Option ClassFile} {J : ClassFile → σ → Prop}

section

variable {caller : Identity} (h : Stable runner lookup caller.cls J)

include h

theorem rewriteSite (ed : Editor) (site : CallSite) {w : Work σ} (hw : J w.cf w.kept) :
    J (rewriteSite runner lookup caller ed site w).2.cf
      (rewriteSite runner lookup caller ed site w).2.kept := by
  unfold Run.rewriteSite
  cases howner : routineClass? lookup w.cf caller site.cls with
  | none =>
    rw [routineClass?] at howner
    simp only [howner]
    exact hw
  | some owner =>
    have hasked := h.asked hw caller site.cls site.method site.literal rfl howner
    rw [routineClass?] at howner
    rcases hreply : runner.decrypt w.kept owner site.method caller site.literal with ⟨reply, kept⟩
    rw [hreply] at hasked
    simp only [howner, hreply]
    split
    · simpa [Work.left, Work.happened, Work.blamed, Work.concluded] using hasked
    · rename_i value _
      have hadded := h.added hasked value
      rw [Work.noting_cf]
      split
      · rename_i hedit
        rw [hedit] at hadded
        simpa using hadded
      · rename_i hedit
        rw [hedit] at hadded
        split
        · simpa using hadded
        · simpa [Work.happened, Work.concluded] using hadded

theorem rewriteSites {barriers : List Int} {fuel : Nat} {instructions : List Instruction}
    {ed : Editor} {edits : Nat} {w : Work σ} (hw : J w.cf w.kept) :
    J (rewriteSites runner lookup caller barriers fuel instructions ed edits w).2.cf
      (rewriteSites runner lookup caller barriers fuel instructions ed edits w).2.kept := by
  induction fuel generalizing instructions ed edits w with
  | zero => exact hw
  | succ fuel ih =>
    unfold Run.rewriteSites
    split
    · exact hw
    · exact hw
    · rename_i found rest _
      have hsite := h.rewriteSite ed (CallSite.of found) hw
      split
      · rename_i e w₁ hfailed
        rwa [hfailed] at hsite
      · rename_i ed₁ isEdited w₁ hdone
        rw [hdone] at hsite
        exact ih hsite

theorem rewriteMethod (position : Nat) (body : MethodBody) {w : Work σ} (hw : J w.cf w.kept) :
    J (rewriteMethod runner lookup caller position body w).2.cf
      (rewriteMethod runner lookup caller position body w).2.kept := by
  unfold Run.rewriteMethod
  split
  · exact hw
  · rename_i ed _
    have hsites := @rewriteSites σ runner lookup J caller h
      (Pattern.barriersOf body ed.instructions) ed.instructions.length ed.instructions ed 0 w hw
    dsimp only
    split
    · rename_i hfailed
      rwa [hfailed] at hsites
    · rename_i hdone
      rwa [hdone] at hsites
    · rename_i hdone
      rw [hdone] at hsites
      split
      · exact hsites
      · exact h.laid hsites position _

end

variable {c : Candidate} (h : Stable runner lookup c.name J)

include h

theorem rewriteMethods {todo : List Member} (position edits : Nat) {w : Work σ}
    (hw : J w.cf w.kept) :
    J (rewriteMethods runner lookup c position todo edits w).2.cf
      (rewriteMethods runner lookup c position todo edits w).2.kept := by
  induction todo generalizing position edits w with
  | nil => exact hw
  | cons m todo ih =>
    unfold Run.rewriteMethods
    split
    · exact ih _ _ hw
    · rename_i body _
      have hmethod := @Stable.rewriteMethod σ runner lookup J
        ⟨c.name, m.name c.cf.pool, c.poolCount⟩ h position body w hw
      dsimp only
      split
      · rename_i hfailed
        rwa [hfailed] at hmethod
      · rename_i hdone
        rw [hdone] at hmethod
        exact ih _ _ hmethod

/-- What holds of a class and of what is kept in the beginning holds when the class is
decided on. -/
theorem rewriteClass {kept : σ} (hw : J c.cf kept) :
    ∃ cf, J cf (rewriteClass runner lookup c kept).2.kept := by
  have hmethods := @rewriteMethods σ runner lookup J c h c.cf.methods 0 0 { cf := c.cf, kept } hw
  unfold Run.rewriteClass
  split
  · rename_i hfailed
    rw [hfailed] at hmethods
    split <;> exact ⟨_, hmethods⟩
  · rename_i hdone
    rw [hdone] at hmethods
    exact ⟨_, hmethods⟩
  · rename_i hdone
    rw [hdone] at hmethods
    split
    · exact ⟨_, hmethods⟩
    · split <;> exact ⟨_, hmethods⟩

end Stable

/-! ## Runners that keep more -/

/-- A runner runs like another one, and keeps more: what the other one keeps is `f` of it. -/
structure Follows (f : τ → σ) (runner' : Runner τ) (runner : Runner σ) : Prop where
  decrypt : ∀ kept routine name caller units,
    runner.decrypt (f kept) routine name caller units =
      ((runner'.decrypt kept routine name caller units).1,
        f (runner'.decrypt kept routine name caller units).2)

/-- A class that is being rewritten, with less of what is kept. -/
def Work.keeping (f : τ → σ) (w : Work τ) : Work σ :=
  { cf := w.cf, kept := f w.kept, results := w.results, failures := w.failures, events := w.events }

theorem Work.keeping_noting (f : τ → σ) (w : Work τ) (notes : List Note) :
    (w.keeping f).noting notes = (w.noting notes).keeping f := by
  induction notes generalizing w with
  | nil => rfl
  | cons note notes ih => exact ih (w.happened (.log (noteLine note)))

namespace Follows

variable {f : τ → σ} {runner' : Runner τ} {runner : Runner σ} (h : Follows f runner' runner)
  (lookup : String → Option ClassFile)

include h

theorem rewriteSite (caller : Identity) (ed : Editor) (site : CallSite) (w : Work τ) :
    rewriteSite runner lookup caller ed site (w.keeping f) =
      ((rewriteSite runner' lookup caller ed site w).1,
        (rewriteSite runner' lookup caller ed site w).2.keeping f) := by
  unfold Run.rewriteSite
  cases howner : routineClass? lookup w.cf caller site.cls with
  | none =>
    rw [routineClass?] at howner
    have howner' : (if site.cls = caller.cls then some (w.keeping f).cf else lookup site.cls) =
        none := howner
    simp only [howner, howner']
    rfl
  | some owner =>
    rw [routineClass?] at howner
    have howner' : (if site.cls = caller.cls then some (w.keeping f).cf else lookup site.cls) =
        some owner := howner
    have hdecrypt := h.decrypt w.kept owner site.method caller site.literal
    rcases hreply : runner'.decrypt w.kept owner site.method caller site.literal with ⟨reply, kept⟩
    rw [hreply] at hdecrypt
    have hnoting : ({ w.keeping f with kept := f kept } : Work σ).noting reply.notes =
        (({ w with kept } : Work τ).noting reply.notes).keeping f :=
      Work.keeping_noting f { w with kept } reply.notes
    simp only [howner, howner', show (w.keeping f).kept = f w.kept from rfl, hdecrypt, hreply,
      hnoting]
    generalize ({ w with kept } : Work τ).noting reply.notes = w₁
    cases reply.answer with
    | error e => rfl
    | ok value =>
      simp only [show (w₁.keeping f).cf = w₁.cf from rfl]
      rcases w₁.cf.pool.edit (Pool.Edit.stringUnits value) with ⟨_ | index, pool⟩
      · rfl
      · dsimp only
        cases stageValue ed site index <;> rfl

theorem rewriteSites (caller : Identity) (barriers : List Int) (fuel : Nat)
    (instructions : List Instruction) (ed : Editor) (edits : Nat) (w : Work τ) :
    rewriteSites runner lookup caller barriers fuel instructions ed edits (w.keeping f) =
      ((rewriteSites runner' lookup caller barriers fuel instructions ed edits w).1,
        (rewriteSites runner' lookup caller barriers fuel instructions ed edits w).2.keeping f) := by
  induction fuel generalizing instructions ed edits w with
  | zero => rfl
  | succ fuel ih =>
    unfold Run.rewriteSites
    simp only [show (w.keeping f).cf = w.cf from rfl]
    rcases Pattern.next? w.cf.pool barriers Pattern.decryptCalls instructions with
      e | _ | ⟨found, rest⟩
    · rfl
    · rfl
    · dsimp only
      rw [h.rewriteSite lookup]
      rcases Run.rewriteSite runner' lookup caller ed (CallSite.of found) w with ⟨e | ⟨ed₁, edited⟩, w₁⟩
      · rfl
      · exact ih rest ed₁ _ w₁

theorem rewriteMethod (caller : Identity) (position : Nat) (body : MethodBody) (w : Work τ) :
    rewriteMethod runner lookup caller position body (w.keeping f) =
      ((rewriteMethod runner' lookup caller position body w).1,
        (rewriteMethod runner' lookup caller position body w).2.keeping f) := by
  unfold Run.rewriteMethod
  cases Editor.new body with
  | error e => rfl
  | ok ed =>
    dsimp only
    rw [h.rewriteSites lookup]
    rcases Run.rewriteSites runner' lookup caller (Pattern.barriersOf body ed.instructions)
      ed.instructions.length ed.instructions ed 0 w with ⟨e | ⟨ed₁, _ | edits⟩, w₁⟩
    · rfl
    · rfl
    · simp only [show (w₁.keeping f).cf = w₁.cf from rfl]
      cases ed₁.commit w₁.cf.pool <;> rfl

theorem rewriteMethods (c : Candidate) (todo : List Member) (position edits : Nat) (w : Work τ) :
    rewriteMethods runner lookup c position todo edits (w.keeping f) =
      ((rewriteMethods runner' lookup c position todo edits w).1,
        (rewriteMethods runner' lookup c position todo edits w).2.keeping f) := by
  induction todo generalizing position edits w with
  | nil => rfl
  | cons m todo ih =>
    unfold Run.rewriteMethods
    cases m.body? with
    | none => exact ih _ _ w
    | some body =>
      dsimp only
      rw [h.rewriteMethod lookup]
      rcases Run.rewriteMethod runner' lookup ⟨c.name, m.name c.cf.pool, c.poolCount⟩ position body w
        with ⟨e | more, w₁⟩
      · rfl
      · exact ih _ _ w₁

/-- A class becomes the same, and what is kept then is what the runner keeps that keeps
more. -/
theorem rewriteClass (c : Candidate) (kept : τ) :
    rewriteClass runner lookup c (f kept) =
      ((rewriteClass runner' lookup c kept).1, (rewriteClass runner' lookup c kept).2.keeping f) := by
  have hmethods := h.rewriteMethods lookup c c.cf.methods 0 0 { cf := c.cf, kept }
  unfold Run.rewriteClass
  rw [show ({ cf := c.cf, kept := f kept } : Work σ) = Work.keeping f { cf := c.cf, kept } from rfl,
    hmethods]
  rcases Run.rewriteMethods runner' lookup c 0 c.cf.methods 0 { cf := c.cf, kept } with
    ⟨⟨method, e⟩ | _ | edits, w₁⟩
  · dsimp only
    cases layoutOffset? e <;> rfl
  · rfl
  · simp only [show (w₁.keeping f).cf = w₁.cf from rfl]
    cases w₁.cf.shrink with
    | ok cf => rfl
    | error e =>
      dsimp only
      cases e.root <;> rfl

end Follows

/-! ## Writing requests down -/

/-- A request to a routine: what was kept of routines at that moment, the class of the routine
as it stood, the routine, the caller, and the string. -/
structure Request (σ : Type) where
  kept : σ
  owner : ClassFile
  method : String
  caller : Identity
  literal : Units

/-- A runner that writes down what it is asked, the first request first. -/
def Runner.recording (runner : Runner σ) : Runner (σ × List (Request σ)) where
  decrypt := fun (kept, asked) owner method caller literal =>
    let (reply, kept') := runner.decrypt kept owner method caller literal
    (reply, kept', asked ++ [⟨kept, owner, method, caller, literal⟩])
  forget := fun (kept, asked) cls => (runner.forget kept cls, asked)

theorem follows_recording (runner : Runner σ) : Follows Prod.fst runner.recording runner :=
  ⟨fun _ _ _ _ _ => rfl⟩

/-- Writing requests down changes neither what becomes of a class nor what is kept. -/
theorem rewriteClass_recording (runner : Runner σ) (lookup : String → Option ClassFile)
    (c : Candidate) (kept : σ) (asked : List (Request σ)) :
    rewriteClass runner lookup c kept =
      ((rewriteClass runner.recording lookup c (kept, asked)).1,
        (rewriteClass runner.recording lookup c (kept, asked)).2.keeping Prod.fst) :=
  (follows_recording runner).rewriteClass lookup c (kept, asked)

/-- A call site whose routine can be looked for is written down once. -/
theorem rewriteSite_recording {runner : Runner σ} {lookup : String → Option ClassFile}
    {caller : Identity} {site : CallSite} {w : Work (σ × List (Request σ))} {routine : ClassFile}
    (hroutine : routineClass? lookup w.cf caller site.cls = some routine) (ed : Editor) :
    (rewriteSite runner.recording lookup caller ed site w).2.kept.2 =
      w.kept.2 ++ [⟨w.kept.1, routine, site.method, caller, site.literal⟩] := by
  rw [routineClass?] at hroutine
  unfold rewriteSite
  simp only [hroutine]
  split
  · simp [Work.left, Work.happened, Work.blamed, Work.concluded, Runner.recording]
  · split
    · simp [Runner.recording]
    · split <;> simp [Work.happened, Work.concluded, Runner.recording]

/-- Nothing is asked behind the call sites of a method. -/
theorem rewriteMethod_kept (runner : Runner σ) (lookup : String → Option ClassFile)
    (caller : Identity) (position : Nat) {body : MethodBody} {ed : Editor} (w : Work σ)
    (hnew : Editor.new body = .ok ed) :
    (rewriteMethod runner lookup caller position body w).2.kept =
      (rewriteSites runner lookup caller (Pattern.barriersOf body ed.instructions)
        ed.instructions.length ed.instructions ed 0 w).2.kept := by
  unfold rewriteMethod
  simp only [hnew]
  split
  · rename_i hfailed
    rw [hfailed]
  · rename_i hdone
    rw [hdone]
  · rename_i hdone
    rw [hdone]
    split <;> rfl

/-- Nothing is asked behind the methods of a class. -/
theorem rewriteClass_kept (runner : Runner σ) (lookup : String → Option ClassFile) (c : Candidate)
    (kept : σ) :
    (rewriteClass runner lookup c kept).2.kept =
      (rewriteMethods runner lookup c 0 c.cf.methods 0 { cf := c.cf, kept }).2.kept := by
  unfold rewriteClass
  split
  · rename_i hfailed
    rw [hfailed]
    split <;> rfl
  · rename_i hdone
    rw [hdone]
  · rename_i hdone
    rw [hdone]
    split
    · rfl
    · split <;> rfl

/-- What is asked while a class is rewritten. -/
def requestsOf (runner : Runner σ) (lookup : String → Option ClassFile) (c : Candidate)
    (kept : σ) : List (Request σ) :=
  (rewriteClass runner.recording lookup c (kept, [])).2.kept.2

/-- What is asked while classes are decrypted one after another, up to one that makes no
sense. -/
def Session.requests (runner : Runner σ) : Session σ → List Candidate → List (Request σ)
  | _, [] => []
  | s, c :: rest =>
    requestsOf runner (fun name => (Archive.lookup? s.classes name).map (·.cf)) c s.kept ++
      match s.decryptClass runner c with
      | .ok s' => s'.requests runner rest
      | .error _ => []

/-- What is kept behind a class is what its rewriting left, or what is left of it when the
class is forgotten. -/
theorem Session.decryptClass_kept {runner : Runner σ} {s s' : Session σ} {c : Candidate}
    (h : s.decryptClass runner c = .ok s') :
    let w := (rewriteClass runner (fun name => (Archive.lookup? s.classes name).map (·.cf)) c
      s.kept).2
    s'.kept = w.kept ∨ s'.kept = runner.forget w.kept c.name := by
  unfold decryptClass at h
  dsimp only at h ⊢
  split at h
  · cases h
  · rename_i hanswer
    obtain rfl := Except.ok.inj h
    rw [hanswer]
    exact .inl rfl
  · rename_i hanswer
    obtain rfl := Except.ok.inj h
    rw [hanswer]
    exact .inr rfl
  · rename_i hanswer
    obtain rfl := Except.ok.inj h
    rw [hanswer]
    exact .inl rfl

end Cleartext.Run
