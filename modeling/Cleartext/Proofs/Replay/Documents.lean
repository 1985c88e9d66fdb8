import Mathlib.Data.List.Forall2
import Cleartext.Yaml.Value
import Cleartext.Yaml.Writer

/-!
# Documents that are read as they were written

A format is only asked to reproduce what is written in it: the tree that a document is read to
stands for what was written, as far as that is made of texts, whole numbers, lists and maps
(`Yaml.Format.Reproduces`).

* `Yaml.value_of_shows_text` and its like: as data, such a node is what was written.
* `Yaml.duplicates_eq_nil`: and no key of a mapping stands in it twice.
-/

namespace Cleartext

/-! ## What a tree stands for -/

namespace Yaml

mutual

/-- Whether a node stands for data, as far as it is made of texts, whole numbers, lists and
maps.  The keys of a map are plain. -/
def Node.shows : Node → Value → Bool
  | .scalar tag text style _, .text s =>
    match scalarValue tag text style with
    | .ok (.text t) => t == s
    | _ => false
  | .scalar tag text style _, .int n =>
    match scalarValue tag text style with
    | .ok (.int m) => m == n
    | _ => false
  | .sequence _ items _, .list vs => Node.showAll items vs
  | .sequence _ items _, .units codes => Node.showAll items (codes.map fun c : Nat => .int c)
  | .mapping _ pairs _, .map entries => Node.showPairs pairs entries
  | _, _ => false

/-- Whether nodes stand for data, one by one. -/
def Node.showAll : List Node → List Value → Bool
  | [], [] => true
  | n :: nodes, v :: vs => n.shows v && Node.showAll nodes vs
  | _, _ => false

/-- Whether pairs have given names and stand for data, one by one. -/
def Node.showPairs : List (Node × Node) → List (String × Value) → Bool
  | [], [] => true
  | (.scalar tag text _ _, n) :: pairs, (name, v) :: entries =>
    tag == "" && text == name && n.shows v && Node.showPairs pairs entries
  | _, _ => false

end

/-- A format reads the document of a map as a tree that stands for this map. -/
def Format.Reproduces (format : Format) (entries : List (String × Value)) : Prop :=
  ∃ n, format.parse (format.document entries) = .ok (some n) ∧ n.shows (.map entries) = true

instance (format : Format) (entries : List (String × Value)) :
    Decidable (format.Reproduces entries) :=
  decidable_of_iff
    (∃ n ∈ (format.parse (format.document entries)).toOption.join, n.shows (.map entries) = true) <| by
      unfold Format.Reproduces
      rcases format.parse (format.document entries) with trouble | _ | n <;> simp [Except.toOption]

variable {n : Node} {entries : List (String × Value)} {pairs : List (Node × Node)} {s : String}

/-- A node that stands for a text is a scalar. -/
theorem shows_text (h : n.shows (.text s) = true) :
    ∃ tag text style line, n = .scalar tag text style line ∧
      scalarValue tag text style = .ok (.text s) := by
  cases n with
  | scalar tag text style line =>
    refine ⟨tag, text, style, line, rfl, ?_⟩
    simp only [Node.shows] at h
    split at h
    · rename_i t hvalue
      rw [hvalue, eq_of_beq h]
    · cases h
  | _ => simp [Node.shows] at h

/-- A node that stands for a whole number is a scalar. -/
theorem shows_int {i : Int} (h : n.shows (.int i) = true) :
    ∃ tag text style line, n = .scalar tag text style line ∧
      scalarValue tag text style = .ok (.int i) := by
  cases n with
  | scalar tag text style line =>
    refine ⟨tag, text, style, line, rfl, ?_⟩
    simp only [Node.shows] at h
    split at h
    · rename_i m hvalue
      rw [hvalue, eq_of_beq h]
    · cases h
  | _ => simp [Node.shows] at h

theorem shows_map (h : n.shows (.map entries) = true) :
    ∃ tag pairs line, n = .mapping tag pairs line ∧ Node.showPairs pairs entries = true := by
  cases n with
  | mapping tag pairs line =>
    simp only [Node.shows] at h
    exact ⟨tag, pairs, line, rfl, h⟩
  | _ => simp [Node.shows] at h

theorem shows_list {vs : List Value} (h : n.shows (.list vs) = true) :
    ∃ tag items line, n = .sequence tag items line ∧ Node.showAll items vs = true := by
  cases n with
  | sequence tag items line =>
    simp only [Node.shows] at h
    exact ⟨tag, items, line, rfl, h⟩
  | _ => simp [Node.shows] at h

theorem showAll_iff {nodes : List Node} {vs : List Value} :
    Node.showAll nodes vs = true ↔ List.Forall₂ (fun n v => n.shows v = true) nodes vs := by
  induction nodes generalizing vs with
  | nil =>
    cases vs with
    | nil => simp [Node.showAll]
    | cons v vs => exact iff_of_false (by simp [Node.showAll]) nofun
  | cons n nodes ih =>
    cases vs with
    | nil => exact iff_of_false (by simp [Node.showAll]) nofun
    | cons v vs => simp [Node.showAll, ih]

/-- A node that stands for a text is this text as data. -/
theorem value_of_shows_text (h : n.shows (.text s) = true) : n.value = .ok (.text s) := by
  obtain ⟨tag, text, style, line, rfl, hvalue⟩ := shows_text h
  rw [Node.value]
  exact hvalue

/-- A node that stands for a whole number is this number as data. -/
theorem value_of_shows_int {i : Int} (h : n.shows (.int i) = true) : n.value = .ok (.int i) := by
  obtain ⟨tag, text, style, line, rfl, hvalue⟩ := shows_int h
  rw [Node.value]
  exact hvalue

/-- A node that stands for code units is a list of numbers as data. -/
theorem value_of_shows_units {codes : List Nat} (h : n.shows (.units codes) = true) :
    n.value = .ok (.list (codes.map fun c : Nat => .int c)) := by
  cases n with
  | sequence tag items line =>
    simp only [Node.shows, showAll_iff] at h
    have hvalues : Node.values items = .ok (codes.map fun c : Nat => .int c) := by
      induction codes generalizing items with
      | nil =>
        cases h
        rfl
      | cons c codes ih =>
        obtain _ | ⟨hn, hrest⟩ := h
        rw [Node.values, value_of_shows_int hn, ih _ hrest]
        rfl
    rw [Node.value, hvalues]
    rfl
  | _ => simp [Node.shows] at h

/-! ## Keys -/

/-- A name that reads as a text and does not merge. -/
structure IsField (name : String) : Prop where
  merges : name ≠ "<<"
  plain : plainValue name = .text name

/-- The names of a map are fields, each of them once. -/
structure IsRecord (entries : List (String × Value)) : Prop where
  field : ∀ e ∈ entries, IsField e.1
  nodup : (entries.map (·.1)).Nodup

/-- The pairs of a mapping that stands for a map, by name. -/
def Stand (fs : List (String × Node)) (entries : List (String × Value)) : Prop :=
  List.Forall₂ (fun e f => f.1 = e.1 ∧ f.2.shows e.2 = true) entries fs

theorem showPairs_cons {k v : Node} {e : String × Value} :
    Node.showPairs ((k, v) :: pairs) (e :: entries) = true ↔
      (∃ style line, k = .scalar "" e.1 style line) ∧ v.shows e.2 = true ∧
        Node.showPairs pairs entries = true := by
  cases k with
  | scalar tag text style line =>
    simp only [Node.showPairs, Bool.and_eq_true, beq_iff_eq, and_assoc]
    constructor
    · rintro ⟨rfl, rfl, hv, hrest⟩
      exact ⟨⟨style, line, rfl⟩, hv, hrest⟩
    · rintro ⟨⟨style', line', heq⟩, hv, hrest⟩
      cases heq
      exact ⟨rfl, rfl, hv, hrest⟩
  | _ => simp [Node.showPairs]

/-- A key of a mapping that stands for a map is the name of an entry. -/
theorem exists_keyForm_eq (h : Node.showPairs pairs entries = true) {pair : Node × Node}
    (hmem : pair ∈ pairs) : ∃ e ∈ entries, pair.1.keyForm = (0, e.1) := by
  induction pairs generalizing entries with
  | nil => cases hmem
  | cons first pairs ih =>
    cases entries with
    | nil =>
      obtain ⟨k, v⟩ := first
      cases k <;> simp [Node.showPairs] at h
    | cons e entries =>
      obtain ⟨⟨style, line, hk⟩, -, hrest⟩ := showPairs_cons.1 h
      rcases List.mem_cons.1 hmem with rfl | hmem
      · exact ⟨e, List.mem_cons_self, by rw [hk]; rfl⟩
      · obtain ⟨e', he', heq⟩ := ih hrest hmem
        exact ⟨e', List.mem_cons_of_mem _ he', heq⟩

/-- A mapping that stands for a map has no key twice. -/
theorem duplicates_eq_nil (h : Node.showPairs pairs entries = true)
    (hnodup : (entries.map (·.1)).Nodup) : duplicates pairs = [] := by
  induction pairs generalizing entries with
  | nil => rfl
  | cons pair pairs ih =>
    obtain ⟨k, v⟩ := pair
    cases entries with
    | nil => cases k <;> simp [Node.showPairs] at h
    | cons e entries =>
      obtain ⟨⟨style, line, rfl⟩, -, hrest⟩ := showPairs_cons.1 h
      obtain ⟨hnot, hnodup⟩ := List.nodup_cons.1 hnodup
      rw [duplicates, ih hrest hnodup, List.append_nil, List.filterMap_eq_nil_iff]
      intro other hother
      obtain ⟨e', hmem, hform⟩ := exists_keyForm_eq hrest hother
      refine if_neg fun heq => hnot ?_
      rw [hform] at heq
      exact List.mem_map.2 ⟨e', hmem, congrArg (·.2) heq⟩

end Yaml

end Cleartext
