import Cleartext.Proofs.Isolation.Neutralizing
import Cleartext.Proofs.Run.Recording
import Cleartext.Proofs.Run.Repeating

/-!
# Prepared classes that are kept

A workbench keeps the classes that it has prepared, in any cache that gives out only what was
put in (`Caching`).  It knows them by their errands: the class, the routine and the caller.  What it runs for a request is the class as it is prepared
anew, or one that is kept for the errand (`Workbench.prepare_cases`).

A caller belongs to a class that is rewritten once, so what is kept for its errands was
prepared while this class was rewritten (`Kept`).  Other classes do not change meanwhile.
This one does: methods that are overloaded are one caller, and between their requests a
routine of the class itself can be rewritten.

* `requests_coherent`: what is run for a request to a routine of another class, or of a class
  that is as it was at all earlier requests for the errand, is what preparing this class anew
  gives.  For every request it is what preparing the class gives now, or gave at one of these.
-/

namespace Cleartext

namespace Isolation

/-! ## One workbench -/

namespace Workbench

/-- What preparing a class comes to: the bytes that are kept for the errand, or those that
preparing the class anew gives, which are kept then. -/
theorem prepare_cases (b : Workbench) (cf : ClassFile) (method : String) (caller : Identity) :
    (b.prepare cf method caller).2.settings = b.settings ∧
      ((∃ data, (⟨cf.name, method, caller⟩, data) ∈ b.cache ∧
          (b.prepare cf method caller).1.answer = .ok data ∧
          ∀ e ∈ (b.prepare cf method caller).2.cache, e ∈ b.cache) ∨
        (b.prepare cf method caller).1.answer =
            (prepareClass b.settings.raw cf method caller).answer ∧
          ∀ e ∈ (b.prepare cf method caller).2.cache, e ∈ b.cache ∨
            e.1 = ⟨cf.name, method, caller⟩ ∧
              (prepareClass b.settings.raw cf method caller).answer = .ok e.2) := by
  unfold prepare
  dsimp only
  cases hget : b.settings.caching.get? b.cache ⟨cf.name, method, caller⟩ with
  | some found =>
    obtain ⟨data, cache⟩ := found
    obtain ⟨hmem, hcache⟩ := b.settings.caching.mem_of_get? hget
    exact ⟨rfl, .inl ⟨data, hmem, rfl, hcache⟩⟩
  | none =>
    dsimp only
    cases hanswer : (prepareClass b.settings.raw cf method caller).answer with
    | error e => exact ⟨rfl, .inr ⟨hanswer, fun _ he => .inl he⟩⟩
    | ok data =>
      refine ⟨rfl, .inr ⟨hanswer, fun e he => ?_⟩⟩
      rcases b.settings.caching.mem_add he with rfl | he
      · exact .inr ⟨rfl, rfl⟩
      · exact .inl he

/-- What is prepared is run, and what preparing keeps is kept. -/
theorem decrypt_eq (b : Workbench) (cf : ClassFile) (method : String) (caller : Identity)
    (literal : Units) (cancelled : Bool) :
    (b.decrypt cf method caller literal cancelled).2 = (b.prepare cf method caller).2 ∧
      (b.decrypt cf method caller literal cancelled).1.answer =
        (b.prepare cf method caller).1.answer >>= fun data =>
          ((b.prepare cf method caller).2.execute data method caller literal cancelled).answer := by
  unfold decrypt
  rcases b.prepare cf method caller with ⟨⟨e | data, notes⟩, b'⟩
  · exact ⟨rfl, rfl⟩
  · exact ⟨rfl, rfl⟩

end Workbench

end Isolation

namespace Run

open Archive (Candidate)
open Isolation (Identity Errand Workbench prepareClass)

/-! ## Requests to a workbench -/

namespace Request

/-- The errand of a request. -/
def errand (r : Request Workbench) : Errand := ⟨r.owner.name, r.method, r.caller⟩

/-- The class that is run for a request, or why none is. -/
def executed (r : Request Workbench) : Except Error Bytes :=
  (r.kept.prepare r.owner r.method r.caller).1.answer

/-- What preparing the class of a request gives when nothing is kept. -/
def fresh (r : Request Workbench) : Except Error Bytes :=
  (prepareClass r.kept.settings.raw r.owner r.method r.caller).answer

theorem fresh_congr {r r' : Request Workbench} (howner : r'.owner = r.owner)
    (herrand : r'.errand = r.errand) (hsettings : r'.kept.settings = r.kept.settings) :
    r'.fresh = r.fresh := by
  obtain ⟨-, hmethod, hcaller⟩ := Errand.mk.inj herrand
  rw [fresh, fresh, howner, hsettings, hmethod, hcaller]

/-- What is run for a request, behind earlier ones: what preparing the class anew gives, or
gave at one of these for the same errand; and the former when the routine is one of another
class than the caller. -/
structure Coherent (before : List (Request Workbench)) (r : Request Workbench) : Prop where
  foreign : r.owner.name ≠ r.caller.cls → r.executed = r.fresh
  earlier : ∃ r' ∈ before ++ [r], r'.errand = r.errand ∧
    r'.kept.settings = r.kept.settings ∧ r.executed = r'.fresh

theorem Coherent.behind {before : List (Request Workbench)} {r : Request Workbench}
    (h : Coherent before r) (more : List (Request Workbench)) : Coherent (more ++ before) r := by
  obtain ⟨r', hr', hearlier⟩ := h.earlier
  exact ⟨h.foreign, r', by rw [List.append_assoc]; exact List.mem_append_right _ hr', hearlier⟩

/-- A class that is as it was at the earlier requests for an errand is run as it is prepared
anew. -/
theorem Coherent.unchanged {before : List (Request Workbench)} {r : Request Workbench}
    (h : Coherent before r) (hsame : ∀ r' ∈ before, r'.errand = r.errand → r'.owner = r.owner) :
    r.executed = r.fresh := by
  obtain ⟨r', hr', herrand, hsettings, hexecuted⟩ := h.earlier
  have howner : r'.owner = r.owner := by
    rcases List.mem_append.1 hr' with hr' | hr'
    · exact hsame r' hr' herrand
    · rw [List.mem_singleton.1 hr']
  exact hexecuted.trans (fresh_congr howner herrand hsettings)

/-- All of some requests are coherent behind those before. -/
def AllCoherent (requests : List (Request Workbench)) : Prop :=
  ∀ before r after, requests = before ++ r :: after → Coherent before r

theorem AllCoherent.append {requests more : List (Request Workbench)} (h : AllCoherent requests)
    (hmore : AllCoherent more) : AllCoherent (requests ++ more) := by
  intro before r after heq
  rcases List.append_eq_append_iff.1 heq with ⟨between, rfl, hbetween⟩ | ⟨between, hbetween, hrest⟩
  · exact (hmore between r after hbetween).behind requests
  · cases between with
    | nil =>
      rw [List.append_nil] at hbetween
      rw [← hbetween, ← List.append_nil requests]
      exact (hmore [] r after hrest.symm).behind requests
    | cons r' between =>
      obtain ⟨rfl, -⟩ := List.cons.inj hrest
      exact h before r between hbetween

theorem AllCoherent.concat {requests : List (Request Workbench)} {r : Request Workbench}
    (h : AllCoherent requests) (hr : Coherent requests r) : AllCoherent (requests ++ [r]) := by
  intro before r' after heq
  rcases List.eq_nil_or_concat after with rfl | ⟨after, last, rfl⟩
  · obtain ⟨rfl, hlast⟩ := List.append_inj' heq rfl
    rw [← List.singleton_inj.1 hlast]
    exact hr
  · rw [List.concat_eq_append, ← List.cons_append, ← List.append_assoc] at heq
    exact h before r' after (List.append_inj' heq rfl).1

end Request

/-! ## One class -/

section

variable {settings : Isolation.Settings} {done : List String} {c : Candidate}
  {lookup : String → Option ClassFile}

/-- What holds while the class `c` is rewritten, behind classes with the names `done`.  The
class has only grown.  What is kept was prepared for a caller of one of the classes before, or
at a request that was made since, whose routine is one of this class, or of another one as it
still stands. -/
structure Kept (settings : Isolation.Settings) (done : List String) (c : Candidate)
    (lookup : String → Option ClassFile) (cf : ClassFile)
    (kept : Workbench × List (Request Workbench)) : Prop where
  grown : cf = { c.cf with pool := cf.pool, methods := cf.methods }
  widens : c.cf.pool.Widens cf.pool
  configured : kept.1.settings = settings
  cached : ∀ e ∈ kept.1.cache, e.1.caller.cls ∈ done ∨
    ∃ r ∈ kept.2, r.errand = e.1 ∧ r.fresh = .ok e.2
  made : ∀ r ∈ kept.2, r.caller.cls = c.name ∧ r.kept.settings = settings ∧
    (r.owner.name = c.name ∨ lookup r.owner.name = some r.owner)
  coherent : Request.AllCoherent kept.2

theorem Kept.name_eq {cf : ClassFile} {kept : Workbench × List (Request Workbench)}
    (h : Kept settings done c lookup cf kept) (hclosed : c.cf.pool.Closed) : cf.name = c.name :=
  (Isolation.name_of_widens h.grown h.widens hclosed).1

/-- A request keeps what holds. -/
theorem Kept.asked (hclosed : c.cf.pool.Closed) (hdone : c.name ∉ done)
    (hlookup : ∀ name cf, lookup name = some cf → cf.name = name) {cf routine : ClassFile}
    {kept : Workbench × List (Request Workbench)} (h : Kept settings done c lookup cf kept)
    {caller : Identity} {owner name : String} {units : Units} (hcaller : caller.cls = c.name)
    (hroutine : routineClass? lookup cf caller owner = some routine) :
    Kept settings done c lookup cf
      (Runner.workbench.recording.decrypt kept routine name caller units).2 := by
  obtain ⟨b, asked⟩ := kept
  let r : Request Workbench := ⟨b, routine, name, caller, units⟩
  show Kept settings done c lookup cf ((b.decrypt routine name caller units false).2, asked ++ [r])
  rw [(b.decrypt_eq routine name caller units false).1]
  obtain ⟨hsettings, hprepared⟩ := b.prepare_cases routine name caller
  have howner : routine.name = c.name ∨ lookup routine.name = some routine := by
    unfold routineClass? at hroutine
    split at hroutine
    · obtain rfl := Option.some.inj hroutine
      exact .inl (h.name_eq hclosed)
    · rw [hlookup owner routine hroutine]
      exact .inr hroutine
  have hmade : ∀ r' ∈ asked ++ [r], r'.caller.cls = c.name ∧ r'.kept.settings = settings ∧
      (r'.owner.name = c.name ∨ lookup r'.owner.name = some r'.owner) :=
    List.forall_mem_append.2 ⟨h.made, List.forall_mem_singleton.2 ⟨hcaller, h.configured, howner⟩⟩
  have hkept : ∀ e ∈ b.cache, e.1.caller.cls ∈ done ∨
      ∃ r' ∈ asked ++ [r], r'.errand = e.1 ∧ r'.fresh = .ok e.2 := fun e he =>
    (h.cached e he).imp id fun ⟨r', hr', hprepared⟩ => ⟨r', List.mem_append_left _ hr', hprepared⟩
  rcases hprepared with ⟨data, hmem, hanswer, hcache⟩ | ⟨hanswer, hcache⟩
  · obtain hcls | ⟨r', hr', herrand, hfresh⟩ := h.cached _ hmem
    · exact absurd (hcaller ▸ hcls) hdone
    obtain ⟨-, hconfigured', howner'⟩ := h.made r' hr'
    have hsettings' : r'.kept.settings = r.kept.settings := hconfigured'.trans h.configured.symm
    refine ⟨h.grown, h.widens, hsettings.trans h.configured, fun e he => hkept e (hcache e he),
      hmade, h.coherent.concat ⟨fun hforeign => ?_, r', List.mem_append_left _ hr', herrand,
        hsettings', hanswer.trans hfresh.symm⟩⟩
    -- Both routines are found under one name, so they are of one class.
    have hname : r'.owner.name = routine.name := congrArg Errand.cls herrand
    have hne : routine.name ≠ c.name := fun hsame => hforeign (hsame.trans hcaller.symm)
    have hfound := howner.resolve_left hne
    have hfound' := howner'.resolve_left (hname ▸ hne)
    rw [hname] at hfound'
    have hsame : r'.owner = r.owner := Option.some.inj (hfound'.symm.trans hfound)
    exact hanswer.trans (hfresh.symm.trans (Request.fresh_congr hsame herrand hsettings'))
  · refine ⟨h.grown, h.widens, hsettings.trans h.configured, fun e he => ?_, hmade,
      h.coherent.concat ⟨fun _ => hanswer, r, by simp, rfl, rfl, hanswer⟩⟩
    rcases hcache e he with he | ⟨hkey, hfresh⟩
    · exact hkept e he
    · exact .inr ⟨r, by simp, hkey.symm, hfresh⟩

/-- What holds of the class and of what is kept goes on to hold. -/
theorem stable_kept (hclosed : c.cf.pool.Closed) (hdone : c.name ∉ done)
    (hlookup : ∀ name cf, lookup name = some cf → cf.name = name) :
    Stable Runner.workbench.recording lookup c.name (Kept settings done c lookup) where
  asked h _ _ _ _ hcaller hroutine := h.asked hclosed hdone hlookup hcaller hroutine
  added h units := by
    have hgives : Pool.Edit.Gives (fun _ => True) (Pool.Edit.stringUnits units) _ :=
      Pool.Edit.gives_stringUnits units
    have hadded := hgives.widens (Pool.Edit.stocks_stringUnits units) h.widens.coherent
    exact { h with grown := by rw [h.grown], widens := h.widens.trans hadded }
  laid h position body := { h with grown := by rw [h.grown] }

/-- What is asked while a class is rewritten is coherent, and what is kept then was prepared
for its callers, or is what was kept before. -/
theorem kept_rewriteClass (hconsistent : c.cf.Consistent) (hdone : c.name ∉ done)
    (hlookup : ∀ name cf, lookup name = some cf → cf.name = name) {b : Workbench}
    (hsettings : b.settings = settings) (hcached : ∀ e ∈ b.cache, e.1.caller.cls ∈ done) :
    Request.AllCoherent (requestsOf Runner.workbench lookup c b) ∧
      (rewriteClass Runner.workbench lookup c b).2.kept.settings = settings ∧
      ∀ e ∈ (rewriteClass Runner.workbench lookup c b).2.kept.cache,
        e.1.caller.cls ∈ c.name :: done := by
  have hstart : Kept settings done c lookup c.cf (b, []) :=
    ⟨rfl, .refl hconsistent.pool, hsettings, fun e he => .inl (hcached e he), by simp,
      fun before r after heq => absurd heq (by simp)⟩
  obtain ⟨cf, hkept⟩ := (stable_kept hconsistent.pool.closed hdone hlookup).rewriteClass hstart
  rw [rewriteClass_recording Runner.workbench lookup c b []]
  refine ⟨hkept.coherent, hkept.configured, fun e he => ?_⟩
  rcases hkept.cached e he with hcls | ⟨r, hr, herrand, -⟩
  · exact List.mem_cons_of_mem _ hcls
  · have hcaller : e.1.caller = r.caller := by rw [← herrand]; rfl
    rw [hcaller, (hkept.made r hr).1]
    exact List.mem_cons_self

end

/-! ## All classes -/

/-- What is asked while classes with names of their own are decrypted is coherent, when what
is kept was prepared for callers of other classes. -/
theorem Session.allCoherent_requests {todo : List Candidate} {s : Session Workbench}
    {done : List String} (hcached : ∀ e ∈ s.kept.cache, e.1.caller.cls ∈ done)
    (hconsistent : ∀ c ∈ todo, c.cf.Consistent) (hnames : (todo.map (·.name)).Nodup)
    (hdone : ∀ c ∈ todo, c.name ∉ done) :
    Request.AllCoherent (s.requests Runner.workbench todo) := by
  induction todo generalizing s done with
  | nil => exact fun before r after heq => absurd heq (by simp [requests])
  | cons c rest ih =>
    rw [List.forall_mem_cons] at hconsistent hdone
    rw [List.map_cons, List.nodup_cons] at hnames
    have hlookup (name : String) (cf : ClassFile)
        (h : (Archive.lookup? s.classes name).map (·.cf) = some cf) : cf.name = name := by
      obtain ⟨k, hk, rfl⟩ := Option.map_eq_some_iff.1 h
      exact (Archive.lookup?_eq_some hk).2
    obtain ⟨hcoherent, -, hkept⟩ :=
      kept_rewriteClass hconsistent.1 hdone.1 hlookup (b := s.kept) rfl hcached
    rw [requests]
    refine hcoherent.append ?_
    cases hclass : s.decryptClass Runner.workbench c with
    | error e => exact fun before r after heq => absurd heq (by simp)
    | ok s' =>
      have hcached' : ∀ e ∈ s'.kept.cache, e.1.caller.cls ∈ c.name :: done := by
        rcases decryptClass_kept hclass with hkept' | hkept' <;> rw [hkept']
        · exact hkept
        · exact fun e he => hkept e (Isolation.Caching.mem_of_mem_forget _ he).1
      refine ih hcached' hconsistent.2 hnames.2 fun k hk hname => ?_
      rcases List.mem_cons.1 hname with hname | hname
      · exact hnames.1 (hname ▸ List.mem_map_of_mem hk)
      · exact hdone.2 k hk hname

/-- In a run over the classes of an archive, with nothing kept in the beginning and however
much can be kept, what is run for a request to a routine of another class is what preparing
this class anew gives, as it stands at that moment.  So it is for a routine of the caller's own
class, when this class was the same at all earlier requests for that routine and that caller.
For any request it is what preparing the class gives then, or gave at one of these.

The class of the caller can have changed in between: methods with one name are one caller, and
the routine can be rewritten after the first of them and before the next one. -/
theorem requests_coherent {entries : List Archive.Entry} {classes : List Candidate}
    {notes : List Archive.LoadNote}
    (hload : Archive.loadClasses entries false = .ok (classes, notes))
    (settings : Isolation.Settings) (stats : Stats) :
    ∀ before r after, Session.requests Runner.workbench
        { classes, kept := { settings }, stats } classes = before ++ r :: after →
      (r.owner.name ≠ r.caller.cls → r.executed = r.fresh) ∧
        ((∀ r' ∈ before, r'.errand = r.errand → r'.owner = r.owner) → r.executed = r.fresh) ∧
        ∃ r' ∈ before ++ [r], r'.errand = r.errand ∧ r.executed = r'.fresh := by
  intro before r after heq
  have hread := (Archive.loadClasses_ok hload).1
  have hall := @Session.allCoherent_requests classes { classes, kept := { settings }, stats } []
    (by simp) (fun c hc => ClassFile.Consistent.of_parse (hread c hc).parsed)
    (Archive.nodup_names hload) (by simp)
  have hcoherent := hall before r after heq
  obtain ⟨r', hr', herrand, -, hexecuted⟩ := hcoherent.earlier
  exact ⟨hcoherent.foreign, hcoherent.unchanged, r', hr', herrand, hexecuted⟩

theorem rewriteMethod_calling_recording {σ : Type} (runner : Runner σ)
    (lookup : String → Option ClassFile) (w : Work (σ × List (Request σ)))
    (hpool : w.cf.pool = Pool.ofSlots halfEmptySlots) :
    (rewriteMethod runner.recording lookup ⟨"A", "d", 9⟩ 0 calling w).2.kept.2 =
      w.kept.2 ++ [⟨w.kept.1, w.cf, "d", ⟨"A", "d", 9⟩, [65]⟩] := by
  have hnew : Editor.new calling = .ok callingEditor :=
    Editor.new_ok.2 ⟨_, decodeAll_calling, rfl⟩
  have hnext : Pattern.next? w.cf.pool [] Pattern.decryptCalls callingCode =
      .ok (some (callingMatch, callingCode.drop 2)) := by
    rw [hpool]
    rfl
  have hdone (p : Pool) : Pattern.next? p [] Pattern.decryptCalls (callingCode.drop 2) =
      .ok none := rfl
  have hsite := @rewriteSite_recording σ runner lookup ⟨"A", "d", 9⟩
    (Pattern.CallSite.of callingMatch) w w.cf rfl callingEditor
  rw [rewriteMethod_kept _ _ _ _ _ hnew, show callingEditor.instructions = callingCode from rfl,
    show Pattern.barriersOf calling callingCode = [] from rfl,
    show callingCode.length = 4 from rfl, rewriteSites, hnext]
  dsimp only
  split
  · rename_i hfailed
    rwa [hfailed] at hsite
  · rename_i hanswered
    rw [hanswered] at hsite
    rwa [rewriteSites, hdone]

/-- The class `A` asks for its own routine once. -/
theorem requestsOf_once {σ : Type} (runner : Runner σ) (lookup : String → Option ClassFile)
    (kept : σ) :
    requestsOf runner lookup onceClass kept =
      [⟨kept, once calling, "d", ⟨"A", "d", 9⟩, [65]⟩] := by
  have hmethod := rewriteMethod_calling_recording runner lookup
    { cf := once calling, kept := (kept, []) } rfl
  rw [requestsOf, rewriteClass_kept, show onceClass.cf = once calling from rfl,
    show (once calling).methods = [⟨8, 4, 5, [.code 3 "Code" calling]⟩] from rfl, rewriteMethods]
  simp only [show Member.body? ⟨8, 4, 5, [.code 3 "Code" calling]⟩ = some calling from rfl,
    show (⟨onceClass.name, Member.name ⟨8, 4, 5, [.code 3 "Code" calling]⟩ onceClass.cf.pool,
      onceClass.poolCount⟩ : Identity) = ⟨"A", "d", 9⟩ from rfl]
  split
  · rename_i hfailed
    rwa [hfailed] at hmethod
  · rename_i hdone
    rwa [hdone] at hmethod

/-- The request of the class `A` to a workbench that keeps nothing. -/
def onceRequest : Request Workbench :=
  ⟨{ settings := {} }, once calling, "d", ⟨"A", "d", 9⟩, [65]⟩

/-- The class `A` alone asks for its own routine once, which is prepared then. -/
theorem requests_coherent_once :
    Archive.loadClasses (onceEntries calling) false = .ok ([onceClass], []) ∧
      Session.requests Runner.workbench
        { classes := [onceClass], kept := { settings := {} }, stats := {} } [onceClass] =
        [onceRequest] ∧
      onceRequest.executed = onceRequest.fresh := by
  have hrequests : Session.requests Runner.workbench
      { classes := [onceClass], kept := { settings := {} }, stats := {} } [onceClass] =
      [onceRequest] := by
    rw [Session.requests, requestsOf_once]
    split
    · rw [Session.requests, List.append_nil, onceRequest]
    · rw [List.append_nil, onceRequest]
  have hcoherent := requests_coherent loadClasses_once {} {} [] onceRequest []
  rw [hrequests] at hcoherent
  obtain ⟨-, hunchanged, -⟩ := hcoherent rfl
  exact ⟨loadClasses_once, hrequests, hunchanged (by simp)⟩

end Run

end Cleartext
