import Cleartext.Archive.Candidate
import Cleartext.Archive.Write
import Cleartext.Proofs.Reading
import Mathlib.Data.List.Nodup

/-!
# Reading and writing entries

Candidates are read from the entries of an archive in order, each from an entry of
its own (`loadClasses_ok`).

Entries are written up to the first one that cannot be.  `packAll_eq_none` says when
all are written, and `length_packAll_le` that what is behind a missing entry is lost.
-/

namespace Cleartext.Archive

variable {entries : List Entry}

/-! ## Candidates -/

/-- A class as it was read from its entry. -/
structure Candidate.ReadFrom (entries : List Entry) (c : Candidate) : Prop where
  entry : ∃ e, entries[c.position]? = some e ∧ c.entryName = e.name ∧ c.data = e.data
  parsed : ClassFile.parse c.data = .ok c.cf
  poolCount : c.poolCount = c.cf.pool.count
  unmodified : c.modified = false

theorem Candidate.parse_ok {position : Nat} {e : Entry} {c : Candidate}
    (h : Candidate.parse position e = .ok c) :
    c.position = position ∧ c.entryName = e.name ∧ c.data = e.data ∧
      ClassFile.parse c.data = .ok c.cf ∧ c.poolCount = c.cf.pool.count ∧ c.modified = false := by
  unfold Candidate.parse at h
  split at h
  · rename_i cf hparse
    obtain rfl := Except.ok.inj h
    exact ⟨rfl, rfl, rfl, hparse, rfl, rfl⟩
  · cases h

theorem positions_eq {items : List (Entry × Nat)} {found : List Candidate}
    (h : List.Forall₂ (fun item c => Candidate.parse item.2 item.1 = .ok c) items found) :
    found.map (·.position) = items.map (·.2) := by
  induction h with
  | nil => rfl
  | cons hparse _ ih => rw [List.map_cons, List.map_cons, ih, (Candidate.parse_ok hparse).1]

/-- The classes that are kept stand behind those kept before, in their order. -/
theorem keepFirst_eq (kept todo : List Candidate) :
    ∃ chosen, (keepFirst kept todo).1 = kept.reverse ++ chosen ∧ chosen.Sublist todo := by
  induction todo generalizing kept with
  | nil => exact ⟨[], by simp [keepFirst], List.Sublist.refl _⟩
  | cons c rest ih =>
    unfold keepFirst
    split
    · obtain ⟨chosen, hchosen, hsublist⟩ := ih (c :: kept)
      exact ⟨c :: chosen, by rw [hchosen]; simp, hsublist.cons_cons c⟩
    · obtain ⟨chosen, hchosen, hsublist⟩ := ih kept
      exact ⟨chosen, hchosen, hsublist.cons c⟩

/-- No two classes that are kept have one name. -/
theorem nodup_keepFirst {kept : List Candidate} (h : (kept.map (·.name)).Nodup)
    (todo : List Candidate) : ((keepFirst kept todo).1.map (·.name)).Nodup := by
  induction todo generalizing kept with
  | nil =>
    rw [keepFirst, List.map_reverse, List.nodup_reverse]
    exact h
  | cons c rest ih =>
    unfold keepFirst
    split
    · rename_i hnone
      refine ih (List.nodup_cons.2 ⟨fun hmem => ?_, h⟩)
      obtain ⟨k, hk, hname⟩ := List.mem_map.1 hmem
      exact absurd (beq_iff_eq.2 hname) (List.find?_eq_none.1 hnone k hk)
    · exact ih h

/-- The classes of an archive are among its candidates, in their order. -/
theorem exists_candidates {classes : List Candidate} {notes : List LoadNote}
    (h : loadClasses entries false = .ok (classes, notes)) :
    ∃ found, List.Forall₂ (fun item c => Candidate.parse item.2 item.1 = .ok c)
      (candidateEntries entries) found ∧ classes.Sublist found := by
  unfold loadClasses at h
  simp only [Bool.false_and, Bool.false_eq_true, if_false] at h
  obtain ⟨found, hfound, h⟩ := Except.bind_ok.1 h
  obtain ⟨chosen, hchosen, hsublist⟩ := keepFirst_eq [] found
  obtain rfl : chosen = classes := by
    have hpair := Except.pure_ok.1 h
    rw [show classes = (keepFirst [] found).1 by rw [hpair], hchosen]
    rfl
  exact ⟨found, Except.mapM_ok.1 hfound, hsublist⟩

/-- Candidates are read from entries of their own, in the order of the archive. -/
theorem loadClasses_ok {classes : List Candidate} {notes : List LoadNote}
    (h : loadClasses entries false = .ok (classes, notes)) :
    (∀ c ∈ classes, c.ReadFrom entries) ∧ (classes.map (·.position)).Pairwise (· < ·) := by
  obtain ⟨found, hread, hsublist⟩ := exists_candidates h
  constructor
  · intro c hc
    obtain ⟨⟨e, i⟩, he, hparse⟩ := exists_mem_of_forall₂ hread (hsublist.subset hc)
    obtain ⟨hposition, hname, hdata, hrest⟩ := Candidate.parse_ok hparse
    refine ⟨⟨e, ?_, hname, hdata⟩, hrest.1, hrest.2.1, hrest.2.2⟩
    rw [hposition]
    exact List.mem_zipIdx_iff_getElem?.1 (List.mem_of_mem_filter he)
  · -- The positions of candidates are those of their entries, which count up.
    have hpositions := positions_eq hread
    have hordered : ((candidateEntries entries).map (·.2)).Pairwise (· < ·) := by
      refine List.Pairwise.sublist ((List.filter_sublist).map _) ?_
      rw [List.zipIdx_map_snd]
      exact List.pairwise_lt_range' 1
    rw [← hpositions] at hordered
    exact hordered.sublist (hsublist.map _)

theorem nodup_names {classes : List Candidate} {notes : List LoadNote}
    (h : loadClasses entries false = .ok (classes, notes)) : (classes.map (·.name)).Nodup := by
  unfold loadClasses at h
  simp only [Bool.false_and, Bool.false_eq_true, if_false] at h
  obtain ⟨found, -, h⟩ := Except.bind_ok.1 h
  rw [show classes = (keepFirst [] found).1 by rw [Except.pure_ok.1 h]]
  exact @nodup_keepFirst [] List.nodup_nil found

section

variable {classes : List Candidate} {c : Candidate}

theorem lookup?_eq_some {name : String} (h : lookup? classes name = some c) :
    c ∈ classes ∧ c.name = name :=
  ⟨List.mem_of_find?_eq_some h, by simpa using List.find?_some h⟩

/-- A class is found at its position when no other class is there. -/
theorem classAt?_position (hpositions : (classes.map (·.position)).Nodup) (hc : c ∈ classes) :
    classAt? classes c.position = some c := by
  obtain ⟨before, after, rfl⟩ := List.append_of_mem hc
  rw [List.map_append, List.map_cons, List.nodup_middle, List.nodup_cons,
    ← List.map_append] at hpositions
  have hbefore : before.find? (fun k => k.position == c.position) = none := by
    rw [List.find?_eq_none]
    intro k hk hposition
    refine hpositions.1 ?_
    rw [← beq_iff_eq.1 hposition]
    exact List.mem_map_of_mem (List.mem_append_left _ hk)
  unfold classAt?
  rw [List.find?_append, hbefore]
  simp

theorem classAt?_eq_some {i : Nat} (h : classAt? classes i = some c) :
    c ∈ classes ∧ c.position = i :=
  ⟨List.mem_of_find?_eq_some h, by simpa using List.find?_some h⟩

end

/-! ## Writing -/

theorem pack_ok {e : Entry} {p : Packed} (h : pack e = .ok p) :
    p.entry.name = e.name ∧ p.entry.data = e.data := by
  have htimed : e.timed.name = e.name ∧ e.timed.data = e.data := by
    unfold Entry.timed
    split <;> exact ⟨rfl, rfl⟩
  unfold pack at h
  simp only at h
  generalize hkept : (if isDirectoryName e.timed.name = true then
    { e.timed with method := plainMethod } else e.timed) = kept at h
  have hkept : kept.name = e.name ∧ kept.data = e.data := by
    rw [← hkept]
    split <;> exact htimed
  split at h
  · cases h
  split at h
  · cases h
  split at h
  · cases h
  split at h
  · cases h
  obtain rfl := Except.pure_ok.1 h
  exact hkept

theorem packAll_eq_none {outputs : List (Except Error Entry)} :
    (packAll outputs).2 = none ↔ ∀ output ∈ outputs, ∃ e p, output = .ok e ∧ pack e = .ok p := by
  induction outputs with
  | nil => simp [packAll]
  | cons output rest ih =>
    rw [List.forall_mem_cons, ← ih]
    cases output with
    | error err => simp [packAll]
    | ok e =>
      cases hpack : pack e with
      | error err => simp [packAll, hpack]
      | ok p => simp [packAll, hpack]

/-- When all entries are written, each is as it was packed. -/
theorem packAll_forall₂ {outputs : List (Except Error Entry)} (h : (packAll outputs).2 = none) :
    List.Forall₂ (fun output p => ∃ e, output = .ok e ∧ pack e = .ok p) outputs
      (packAll outputs).1 := by
  induction outputs with
  | nil => exact .nil
  | cons output rest ih =>
    rw [packAll_eq_none, List.forall_mem_cons] at h
    obtain ⟨⟨e, p, rfl, hpack⟩, hrest⟩ := h
    simp only [packAll, hpack]
    exact .cons ⟨e, rfl, hpack⟩ (ih (packAll_eq_none.2 hrest))

/-- When all entries are written, each is where it stands among them. -/
theorem getElem?_packAll {outputs : List (Except Error Entry)} {i : Nat} {e : Entry}
    (h : (packAll outputs).2 = none) (he : outputs[i]? = some (.ok e)) :
    ∃ p, (packAll outputs).1[i]? = some p ∧ pack e = .ok p := by
  have hpacked := packAll_forall₂ h
  generalize (packAll outputs).1 = packed at hpacked ⊢
  clear h
  induction hpacked generalizing i with
  | nil => cases he
  | @cons output p outputs packed hp _ ih =>
    cases i with
    | zero =>
      obtain ⟨e', rfl, hpack⟩ := hp
      obtain rfl : e' = e := Except.ok.inj (Option.some.inj he)
      exact ⟨p, rfl, hpack⟩
    | succ i => exact ih he

theorem length_remnant_le (e : Entry) : (remnant e).length ≤ 1 := by
  unfold remnant
  split
  · exact Option.length_toList_le
  · exact Nat.zero_le 1

/-- Nothing is written from a missing entry on. -/
theorem length_packAll_le {outputs : List (Except Error Entry)} {i : Nat} {err : Error}
    (h : outputs[i]? = some (.error err)) :
    (packAll outputs).1.length ≤ i ∧ (packAll outputs).2 ≠ none := by
  constructor
  · induction outputs generalizing i with
    | nil => cases h
    | cons output rest ih =>
      cases output with
      | error _ => exact Nat.zero_le _
      | ok e =>
        cases i with
        | zero => cases h
        | succ i =>
          have hrest := ih h
          cases hpack : pack e with
          | error _ =>
            have hremnant := length_remnant_le e
            simp only [packAll, hpack]
            omega
          | ok p =>
            simp only [packAll, hpack, List.length_cons]
            omega
  · intro hnone
    obtain ⟨e, p, he, -⟩ := packAll_eq_none.1 hnone _ (List.mem_of_getElem? h)
    cases he

end Cleartext.Archive
