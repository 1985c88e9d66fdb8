import Cleartext.Proofs.Class.Compaction
import Cleartext.Proofs.Class.Renumbering

/-!
# Shrinking keeps what a class means

`ClassFile.shrink` goes over the references of the class twice: once to mark
what they reach, and once to move them to the new pool.  The first pass says
that every reference is marked, the second that it is moved, and a marked index
that is moved keeps its meaning.  So every reference outside the pool means what
it meant, and nothing else changes (`shrink_renumbers`).

The pool has to be well formed: slot zero is empty, and so is the slot behind
every entry of two slots, no other slot is, and member entries are fields,
methods or interface methods.
-/

namespace Cleartext

namespace ClassFile

variable {cf cf' : ClassFile}

/-- The states of marking: what is marked is closed, and stays marked. -/
def marking (p : Pool) : Regime (Array Bool) where
  Inv := p.ClosedUpTo []
  Le live live' := ∀ i, Marked live i → Marked live' i
  refl _ _ h := h
  trans _ _ _ h h' i hi := h' i (h i hi)

/-- A change without a state. -/
def stateless : Regime Unit where
  Inv _ := True
  Le _ _ := True
  refl _ := True.intro
  trans _ _ _ _ _ := True.intro

/-- No index is marked at the start. -/
theorem closed_start (p : Pool) : p.ClosedUpTo [] (Array.replicate p.count false) := by
  refine ⟨Array.size_replicate, fun i hi => ?_⟩
  rw [marked_iff, Array.getElem?_replicate] at hi
  split at hi <;> simp at hi

/-- Everything that a class refers to is live, and so is what that refers to. -/
theorem liveEntries_ok {live : Array Bool} (h : cf.liveEntries = .ok live) :
    cf.pool.ClosedUpTo [] live ∧ ∃ same, cf.Renumbered (fun i _ => Marked live i) same := by
  have hmark : ∀ i, Gives (marking cf.pool) (cf.pool.mark i) fun live _ => Marked live i := by
    intro i live x live' hclosed hrun
    obtain ⟨-, hclosed', hmono, hmarked⟩ := Pool.mark_ok hclosed hrun
    exact ⟨hclosed', hmono, fun later hlater => hlater i hmarked⟩
  obtain ⟨⟨same, live'⟩, hrun, rfl⟩ := Except.map_ok.1 h
  obtain ⟨hclosed, -, hright⟩ := gives_changeReferences hmark cf _ same live' (closed_start cf.pool) hrun
  exact ⟨hclosed, same, hright live' fun _ hi => hi⟩

/-- The steps of shrinking: finding the live entries, compacting them, and moving the
references. -/
theorem shrink_steps (h : cf.shrink = .ok cf') :
    ∃ live plan, cf.liveEntries = .ok live ∧ cf.pool.compact live = .ok plan ∧
      cf'.pool = plan.pool ∧
      cf.Renumbered (fun i x => Marked live i ∧ x = plan.move i) cf' := by
  unfold shrink at h
  obtain ⟨live, hlive, h⟩ := Except.bind_ok.1 h
  obtain ⟨plan, hplan, h⟩ := Except.bind_ok.1 h
  obtain ⟨⟨moved, state⟩, hmoved, h⟩ := Except.bind_ok.1 h
  obtain rfl := Except.pure_ok.1 h
  obtain ⟨-, same, hsame⟩ := liveEntries_ok hlive
  have hmove : ∀ i, Gives stateless (return plan.move i : Layout.Change Unit UInt16)
      fun _ x => x = plan.move i := fun i => Gives.pure fun _ => rfl
  obtain ⟨-, -, hright⟩ := gives_changeReferences hmove cf () moved state True.intro hmoved
  have hboth : cf.Renumbered (fun i x => Marked live i ∧ x = plan.move i) moved :=
    ClassFile.Renumbered.both (fun _ _ _ hmarked hx => ⟨hmarked, hx⟩) hsame (hright () True.intro)
  exact ⟨live, plan, hlive, hplan, rfl, hboth.minor, hboth.major, hboth.access, hboth.thisClass,
    hboth.superClass, hboth.interfaces, hboth.fields, hboth.methods, hboth.attributes⟩

/-- What shrinking is made of. -/
theorem shrink_ok (h : cf.shrink = .ok cf') :
    ∃ live plan, cf.pool.ClosedUpTo [] live ∧ cf.pool.compact live = .ok plan ∧
      cf'.pool = plan.pool ∧
      cf.Renumbered (fun i x => Marked live i ∧ x = plan.move i) cf' := by
  obtain ⟨live, plan, hlive, hplan, hpool, hmoved⟩ := shrink_steps h
  exact ⟨live, plan, (liveEntries_ok hlive).1, hplan, hpool, hmoved⟩

/-- The pool of a shrunk class is well formed and closed. -/
theorem shrink_pool (hp : cf.pool.WellFormed) (h : cf.shrink = .ok cf') :
    cf'.pool.WellFormed ∧ cf'.pool.Closed := by
  obtain ⟨live, plan, hlive, hplan, hpool, -⟩ := shrink_ok h
  have hsound := Compaction.compact_ok hp hlive hplan
  rw [hpool]
  exact ⟨hsound.wellFormed_pool hp, hsound.closed_pool hlive⟩

/-- Shrinking moves references, each to an index of the same meaning. -/
theorem shrink_moves (hp : cf.pool.WellFormed) (h : cf.shrink = .ok cf') :
    ∃ R, (∀ i x, R i x → cf.pool.SameMeaning cf'.pool i x) ∧ cf.Renumbered R cf' := by
  obtain ⟨live, plan, hlive, hplan, hpool, hmoved⟩ := shrink_ok h
  have hsound := Compaction.compact_ok hp hlive hplan
  refine ⟨_, ?_, hmoved⟩
  rintro i x ⟨hmarked, rfl⟩
  rw [hpool]
  exact (hsound.sameMeaning_move hlive hmarked).1

/-- Shrinking keeps the meaning of every reference outside the pool, and nothing
but these references changes there. -/
theorem shrink_renumbers (hp : cf.pool.WellFormed) (h : cf.shrink = .ok cf') :
    cf.Renumbered (cf.pool.SameMeaning cf'.pool) cf' := by
  obtain ⟨R, hR, hmoved⟩ := shrink_moves hp h
  exact hmoved.both (fun i _ x _ => hR i x) hmoved

/-- A class in which two entries are the same class by different names, a
number stands twice, and a text is not used. -/
def duplicates : ClassFile where
  minor := 0
  major := 52
  pool := Pool.ofSlots [none, some (.utf8 [65]), some (.class_ 1), some (.utf8 [66]),
    some (.utf8 [65]), some (.class_ 4), some (.utf8 (Bytes.ofText "Code")), some (.long 7), none,
    some (.long 7), none, some (.utf8 (Bytes.ofText "ConstantValue"))]
  access := 0
  thisClass := 2
  superClass := 5
  interfaces := []
  fields := [⟨0, 1, 4, [.raw 11 "ConstantValue" [0, 9]]⟩]
  methods := [⟨0, 1, 4, [.code 6 "Code"
    ⟨2, 0, [0x14, 0, 7, 0x14, 0, 9, 0xb1], [⟨0, 6, 6, 5⟩], []⟩]⟩]
  attributes := []

theorem duplicates_wellFormed : duplicates.pool.WellFormed := by
  refine ⟨_, rfl, ?_, by decide⟩
  exact .narrow True.intro rfl <| .narrow True.intro rfl <| .narrow True.intro rfl <|
    .narrow True.intro rfl <| .narrow True.intro rfl <| .narrow True.intro rfl <|
    .wide True.intro rfl <| .wide True.intro rfl <| .narrow True.intro rfl .nil

theorem exists_shrink_duplicates : ∃ cf', duplicates.shrink = .ok cf' := by
  obtain ⟨live, hlive, hcycle⟩ : ∃ live, duplicates.liveEntries = .ok live ∧
      (Compaction.keysFrom duplicates.pool live duplicates.pool.entries
        ⟨Array.replicate duplicates.pool.count .unseen, none⟩).cycle = none :=
    ⟨_, rfl, by decide +kernel⟩
  obtain ⟨plan, hplan⟩ := Compaction.exists_compact hcycle
  obtain ⟨moved, hmoved⟩ : ∃ moved, (duplicates.changeReferences fun i =>
      (return plan.move i : Layout.Change Unit UInt16)).run () = .ok (moved, ()) := ⟨_, rfl⟩
  refine ⟨{ moved with pool := plan.pool }, ?_⟩
  unfold shrink
  exact Except.bind_ok.2 ⟨live, hlive, Except.bind_ok.2 ⟨plan, hplan,
    Except.bind_ok.2 ⟨(moved, ()), hmoved, rfl⟩⟩⟩

theorem shrink_renumbers_duplicates :
    duplicates.pool.WellFormed ∧ ∃ cf', duplicates.shrink = .ok cf' ∧
      duplicates.Renumbered (duplicates.pool.SameMeaning cf'.pool) cf' := by
  obtain ⟨cf', h⟩ := exists_shrink_duplicates
  exact ⟨duplicates_wellFormed, cf', h, shrink_renumbers duplicates_wellFormed h⟩

end ClassFile

end Cleartext
