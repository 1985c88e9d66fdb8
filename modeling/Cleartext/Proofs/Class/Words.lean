import Cleartext.Proofs.Class.Renumbering

/-!
# Attribute bodies that are made of words

The bodies of `ConstantValue` and `BootstrapMethods` are words of two bytes each, some of
them references and the others numbers.  A visit of such a body that succeeds reads words of
a certain form (`Visit.Words`) and lists the references that are not zero.  So changing the
references of the body changes the words that are references, and no other
(`words_renumbered`).
-/

namespace Cleartext.Layout

variable {R : UInt16 → UInt16 → Prop}

/-! ## Words -/

/-- A word of two bytes. -/
inductive Word
  | ref (i : UInt16)
  | number (n : UInt16)

namespace Word

def value : Word → UInt16
  | ref i => i
  | number n => n

/-- The bytes of words one after another. -/
def bytes (words : List Word) : Bytes := words.flatMap fun w => Bytes.ofU16 w.value

@[simp] theorem bytes_cons (w : Word) (words : List Word) :
    bytes (w :: words) = Bytes.ofU16 w.value ++ bytes words := rfl

@[simp] theorem bytes_append (words more : List Word) :
    bytes (words ++ more) = bytes words ++ bytes more := List.flatMap_append

theorem length_bytes (words : List Word) : (bytes words).length = 2 * words.length := by
  induction words with
  | nil => rfl
  | cons w words ih =>
    rw [bytes_cons, List.length_append, ih, Bytes.ofU16_length, List.length_cons]
    omega

/-- The references that are not zero in words that stand from `offset` on. -/
def sites (nested : Bool) : Nat → List Word → List Site
  | _, [] => []
  | offset, ref i :: rest =>
    if i = 0 then sites nested (offset + 2) rest
    else ⟨.reference, offset, nested⟩ :: sites nested (offset + 2) rest
  | offset, number _ :: rest => sites nested (offset + 2) rest

theorem sites_append (nested : Bool) (offset : Nat) (words more : List Word) :
    sites nested offset (words ++ more) =
      sites nested offset words ++ sites nested (offset + (bytes words).length) more := by
  rw [length_bytes]
  fun_induction sites nested offset words with
  | case1 => rfl
  | case2 offset rest ih =>
    rw [List.cons_append, sites, if_pos rfl, ih, List.length_cons]
    congr 2
    omega
  | case3 offset i rest hi ih =>
    rw [List.cons_append, sites, if_neg hi, ih, List.length_cons, List.cons_append]
    congr 3
    omega
  | case4 offset n rest ih =>
    rw [List.cons_append, sites, ih, List.length_cons]
    congr 2
    omega

/-- A word with its reference changed, if it is one. -/
inductive Renumbered (R : UInt16 → UInt16 → Prop) : Word → Word → Prop
  | ref {i x : UInt16} (h : IndexRenumbered R i x) : Renumbered R (ref i) (ref x)
  | number {n : UInt16} : Renumbered R (number n) (number n)

end Word

/-! ## Visits that read words -/

namespace Visit

/-- A visit that succeeds reads words that are as `P` says, and lists the references among
them. -/
def Words (v : Visit Unit) (P : List Word → Prop) : Prop :=
  ∀ s s', exec v s = (.ok (), s') → ∃ words, P words ∧
    s.cursor.Reads (Word.bytes words) s'.cursor ∧ s'.nested = s.nested ∧
      s'.sites = (Word.sites s.nested s.cursor.offset words).reverse ++ s.sites

variable {v w : Visit Unit} {P Q : List Word → Prop}

theorem Words.imp (h : Words v P) (hPQ : ∀ words, P words → Q words) : Words v Q := by
  intro s s' hrun
  obtain ⟨words, hwords, hrest⟩ := h s s' hrun
  exact ⟨words, hPQ words hwords, hrest⟩

theorem words_pure : Words (pure ()) fun words => words = [] := by
  intro s s' h
  obtain ⟨-, rfl⟩ := Prod.mk.inj (show (Except.ok (), s) = (Except.ok (), s') from h)
  exact ⟨[], rfl, Cursor.reads_nil.2 rfl, rfl, rfl⟩

theorem words_seq (hv : Words v P) (hw : Words w Q) :
    Words (do v; w) fun words => ∃ first rest, P first ∧ Q rest ∧ words = first ++ rest := by
  intro s s'' h
  obtain ⟨_, s', hfirst, hrest⟩ := exec_bind_ok.1 h
  obtain ⟨first, hP, hreads, hnested, hsites⟩ := hv s s' hfirst
  obtain ⟨rest, hQ, hreads', hnested', hsites'⟩ := hw s' s'' hrest
  refine ⟨first ++ rest, ⟨first, rest, hP, hQ, rfl⟩, ?_, hnested'.trans hnested, ?_⟩
  · rw [Word.bytes_append]
    exact Cursor.reads_append.2 ⟨_, hreads, hreads'⟩
  · rw [hsites', hsites, hnested, hreads.offset, Word.sites_append, List.reverse_append,
      List.append_assoc]

/-- A number, and what is visited after it. -/
theorem words_u16 {next : UInt16 → Visit Unit} {Q : UInt16 → List Word → Prop}
    (h : ∀ n, Words (next n) (Q n)) :
    Words (u16 >>= next) fun words => ∃ n rest, Q n rest ∧ words = .number n :: rest := by
  intro s s'' hrun
  obtain ⟨n, s', hfirst, hrest⟩ := exec_bind_ok.1 hrun
  obtain ⟨c, hreads, rfl⟩ := exec_u16_ok hfirst
  obtain ⟨rest, hQ, hreads', hnested, hsites⟩ := h n _ s'' hrest
  refine ⟨.number n :: rest, ⟨n, rest, hQ, rfl⟩, ?_, hnested, ?_⟩
  · exact Cursor.reads_append.2 ⟨c, hreads, hreads'⟩
  · rw [hsites]
    show (Word.sites s.nested c.offset rest).reverse ++ s.sites = _
    rw [hreads.offset]
    rfl

theorem words_reference :
    Words (do let _ ← reference) fun words => ∃ i, words = [.ref i] := by
  intro s s' hrun
  obtain ⟨i, s₁, h, hpure⟩ := exec_bind_ok.1 hrun
  obtain ⟨-, rfl⟩ := Prod.mk.inj (show (Except.ok (), s₁) = (Except.ok (), s') from hpure)
  replace h : exec (do
      let i ← u16
      if i ≠ 0 then site .reference s.cursor.offset
      return i) s = (.ok i, s₁) := h
  obtain ⟨j, s₂, hread, h⟩ := exec_bind_ok.1 h
  obtain ⟨c, hreads, rfl⟩ := exec_u16_ok hread
  refine ⟨[.ref j], ⟨j, rfl⟩, ?_⟩
  by_cases hj : j = 0
  · rw [if_neg (not_not.2 hj)] at h
    obtain ⟨-, rfl⟩ := Prod.mk.inj (show (Except.ok j, _) = (Except.ok i, s₁) from h)
    refine ⟨hreads, rfl, ?_⟩
    rw [Word.sites, if_pos hj]
    rfl
  · rw [if_pos hj] at h
    obtain ⟨-, rfl⟩ := Prod.mk.inj (show (Except.ok j, _) = (Except.ok i, s₁) from h)
    refine ⟨hreads, rfl, ?_⟩
    rw [Word.sites, if_neg hj]
    rfl

theorem words_times (h : Words v P) (n : Nat) :
    Words (times n v) fun words => ∃ parts : List (List Word), parts.length = n ∧
      (∀ part ∈ parts, P part) ∧ words = parts.flatten := by
  induction n with
  | zero => exact words_pure.imp fun words hwords => ⟨[], rfl, List.forall_mem_nil _, hwords⟩
  | succ n ih =>
    refine (words_seq h ih).imp fun words hwords => ?_
    obtain ⟨first, _, hfirst, ⟨parts, hlength, hparts, rfl⟩, rfl⟩ := hwords
    exact ⟨first :: parts, congrArg Nat.succ hlength, List.forall_mem_cons.2 ⟨hfirst, hparts⟩, rfl⟩

theorem words_references (n : Nat) :
    Words (references n) fun words => ∃ is : List UInt16, is.length = n ∧ words = is.map .ref := by
  refine (words_times words_reference n).imp fun words hwords => ?_
  obtain ⟨parts, rfl, hparts, rfl⟩ := hwords
  induction parts with
  | nil => exact ⟨[], rfl, rfl⟩
  | cons part parts ih =>
    obtain ⟨⟨i, rfl⟩, hrest⟩ := List.forall_mem_cons.1 hparts
    obtain ⟨is, hlength, hwords⟩ := ih hrest
    exact ⟨i :: is, congrArg Nat.succ hlength, congrArg (Word.ref i :: ·) hwords⟩

end Visit

/-! ## The two layouts -/

/-- The words of a bootstrap method: its handle, and its arguments behind their number. -/
def bootstrapWords (b : UInt16 × List UInt16) : List Word :=
  .ref b.1 :: .number b.2.length.toUInt16 :: b.2.map .ref

/-- The words of a table of bootstrap methods. -/
def tableWords (table : List (UInt16 × List UInt16)) : List Word :=
  .number table.length.toUInt16 :: table.flatMap bootstrapWords

/-- A table of bootstrap methods of which every number fits into a word. -/
def Fits (table : List (UInt16 × List UInt16)) : Prop :=
  table.length < 65536 ∧ ∀ b ∈ table, b.2.length < 65536

theorem words_constantValue (pool : Pool) (depth : Nat) :
    Visit.Words (Visit.bodyOf pool (depth + 1) "ConstantValue") fun words =>
      ∃ i, words = [.ref i] := by
  refine (Visit.words_references 1).imp fun words hwords => ?_
  obtain ⟨is, hlength, rfl⟩ := hwords
  obtain ⟨i, rfl⟩ := List.length_eq_one_iff.1 hlength
  exact ⟨i, rfl⟩

theorem words_bootstrapMethods (pool : Pool) (depth : Nat) :
    Visit.Words (Visit.bodyOf pool (depth + 1) "BootstrapMethods") fun words =>
      ∃ table, Fits table ∧ words = tableWords table := by
  have hone : Visit.Words (do Visit.references 1; Visit.countedReferences) fun words =>
      ∃ b : UInt16 × List UInt16, b.2.length < 65536 ∧ words = bootstrapWords b := by
    refine (Visit.words_seq (Visit.words_references 1)
      (Visit.words_u16 fun n => Visit.words_references n.toNat)).imp fun words hwords => ?_
    obtain ⟨_, _, ⟨is, hlength, rfl⟩, ⟨n, _, ⟨args, hargs, rfl⟩, rfl⟩, rfl⟩ := hwords
    obtain ⟨i, rfl⟩ := List.length_eq_one_iff.1 hlength
    have hn : args.length.toUInt16 = n := by
      rw [hargs]
      exact UInt16.ofNat_toNat
    refine ⟨(i, args), hargs ▸ n.toNat_lt, ?_⟩
    unfold bootstrapWords
    rw [hn]
    rfl
  refine (Visit.words_u16 fun n => Visit.words_times hone n.toNat).imp fun words hwords => ?_
  obtain ⟨n, _, ⟨parts, hlength, hparts, rfl⟩, rfl⟩ := hwords
  obtain ⟨table, htable, hfits⟩ : ∃ table : List (UInt16 × List UInt16),
      parts = table.map bootstrapWords ∧ ∀ b ∈ table, b.2.length < 65536 := by
    clear hlength
    induction parts with
    | nil => exact ⟨[], rfl, List.forall_mem_nil _⟩
    | cons part parts ih =>
      obtain ⟨⟨b, hb, rfl⟩, hrest⟩ := List.forall_mem_cons.1 hparts
      obtain ⟨table, rfl, hfits⟩ := ih hrest
      exact ⟨b :: table, rfl, List.forall_mem_cons.2 ⟨hb, hfits⟩⟩
  rw [htable, List.length_map] at hlength
  have hn : table.length.toUInt16 = n := by
    rw [hlength]
    exact UInt16.ofNat_toNat
  refine ⟨table, ⟨hlength ▸ n.toNat_lt, hfits⟩, ?_⟩
  unfold tableWords
  rw [hn, htable]
  rfl

/-- A body that is visited to its end is made of the words that are read. -/
theorem words_of_visit {pool : Pool} {name : String} {info : Bytes} {P : List Word → Prop}
    (hwords : ∀ depth, Visit.Words (Visit.bodyOf pool (depth + 1) name) P)
    (h : (visit pool name info).failure = none) :
    ∃ words, P words ∧ info = Word.bytes words ∧
      (visit pool name info).sites = Word.sites false 0 words := by
  obtain ⟨s, hexec, hleft⟩ := failure_eq_none.1 h
  obtain ⟨words, hP, hreads, -, hsites⟩ := hwords _ _ _ hexec
  have hlength := hreads.length_rest
  have hoffset : s.cursor.offset = (Word.bytes words).length := by
    rw [hreads.offset]
    exact Nat.zero_add _
  have htotal : s.cursor.total = info.length := hreads.total
  have hrest : s.cursor.rest = [] := by
    have hinfo : info.length = (Word.bytes words).length + s.cursor.rest.length := by
      rw [← List.length_append]
      exact congrArg List.length hreads.rest
    unfold Cursor.left at hleft
    exact List.length_eq_zero_iff.1 (by omega)
  refine ⟨words, hP, ?_, ?_⟩
  · have hinfo : info = Word.bytes words ++ s.cursor.rest := hreads.rest
    rw [hinfo, hrest, List.append_nil]
  · rw [sites_visit, hexec]
    show s.sites.reverse = _
    rw [hsites, show (opened info).sites = [] from rfl, List.append_nil, List.reverse_reverse]
    rfl

/-! ## Changing the references -/

namespace Word

theorem le_position {nested : Bool} {offset : Nat} {words : List Word} {pos : Nat}
    (h : pos ∈ referencePositions (sites nested offset words)) : offset ≤ pos := by
  fun_induction sites nested offset words with
  | case1 => cases h
  | case2 offset rest ih | case4 offset n rest ih => exact (Nat.le_add_right _ _).trans (ih h)
  | case3 offset i rest hi ih =>
    rcases List.mem_cons.1 h with rfl | h
    · exact le_rfl
    · exact (Nat.le_add_right _ _).trans (ih h)

end Word

/-- Words that stand from `offset` to the end of a body become words. -/
theorem drop_renumbered {positions : List Nat} {info info' : Bytes}
    (h : Bytes.Renumbered R positions info info') (words : List Word) (offset : Nat)
    (hdrop : info.drop offset = Word.bytes words)
    (hlisted : ∀ pos ∈ referencePositions (Word.sites false offset words), pos ∈ positions)
    (hbehind : ∀ pos ∈ positions,
      pos + 2 ≤ offset ∨ pos ∈ referencePositions (Word.sites false offset words)) :
    ∃ words', info'.drop offset = Word.bytes words' ∧
      List.Forall₂ (Word.Renumbered R) words words' := by
  induction words generalizing offset with
  | nil =>
    have hle : info.length ≤ offset := List.drop_eq_nil_iff.1 hdrop
    exact ⟨[], List.drop_eq_nil_of_le (h.length.trans_le hle), .nil⟩
  | cons w rest ih =>
    have hlength : offset + 2 ≤ info.length := by
      have hlength := congrArg List.length hdrop
      rw [List.length_drop, Word.length_bytes, List.length_cons] at hlength
      omega
    have hword : info.u16At offset = w.value := by
      unfold Bytes.u16At
      rw [hdrop]
      exact Bytes.toU16_ofU16 w.value
    have hrest : info.drop (offset + 2) = Word.bytes rest := by
      rw [← List.drop_drop, hdrop]
      rfl
    have hstays (hnone : ∀ pos ∈ positions, pos + 2 ≤ offset ∨ offset + 2 ≤ pos) :
        info'.u16At offset = w.value := by
      rw [← hword]
      exact Bytes.u16At_congr (h.others _ fun pos hpos => by have := hnone pos hpos; omega)
        (h.others _ fun pos hpos => by have := hnone pos hpos; omega)
    have hsplit := @Bytes.drop_eq_ofU16 info' offset (by rw [h.length]; exact hlength)
    cases w with
    | number n =>
      have hnone : ∀ pos ∈ positions, pos + 2 ≤ offset ∨ offset + 2 ≤ pos :=
        fun pos hpos => (hbehind pos hpos).imp_right Word.le_position
      obtain ⟨rest', hrest', hwords⟩ := ih _ hrest hlisted
        fun pos hpos => (hbehind pos hpos).imp_left (by omega)
      exact ⟨.number n :: rest', by rw [hsplit, hrest', hstays hnone]; rfl, .cons .number hwords⟩
    | ref i =>
      rw [Word.sites] at hlisted hbehind
      by_cases hi : i = 0
      · rw [if_pos hi] at hlisted hbehind
        have hnone : ∀ pos ∈ positions, pos + 2 ≤ offset ∨ offset + 2 ≤ pos :=
          fun pos hpos => (hbehind pos hpos).imp_right Word.le_position
        obtain ⟨rest', hrest', hwords⟩ := ih _ hrest hlisted
          fun pos hpos => (hbehind pos hpos).imp_left (by omega)
        refine ⟨.ref i :: rest', by rw [hsplit, hrest', hstays hnone]; rfl, .cons (.ref ?_) hwords⟩
        exact .inl ⟨hi, hi⟩
      · rw [if_neg hi] at hlisted hbehind
        obtain ⟨hhere, hlater⟩ := List.forall_mem_cons.1 hlisted
        obtain ⟨rest', hrest', hwords⟩ := ih _ hrest hlater fun pos hpos => by
          rcases hbehind pos hpos with hle | hmem
          · exact .inl (by omega)
          · rcases List.mem_cons.1 hmem with rfl | hmem
            · exact .inl le_rfl
            · exact .inr hmem
        have hx := h.references offset hhere
        rw [hword] at hx
        exact ⟨.ref (info'.u16At offset) :: rest', by rw [hsplit, hrest']; rfl,
          .cons (.ref (.inr ⟨hi, hx⟩)) hwords⟩

/-- A body that is made of words becomes words when its references are changed. -/
theorem words_renumbered {pool : Pool} {name : String} {info info' : Bytes}
    {P : List Word → Prop} (hwords : ∀ depth, Visit.Words (Visit.bodyOf pool (depth + 1) name) P)
    (h : Renumbered R pool name info info') :
    ∃ words words', P words ∧ info = Word.bytes words ∧ info' = Word.bytes words' ∧
      List.Forall₂ (Word.Renumbered R) words words' := by
  obtain ⟨words, hP, rfl, hsites⟩ := words_of_visit hwords h.visited
  have hpatched := h.patched
  rw [hsites] at hpatched
  obtain ⟨words', hinfo', hrenumbered⟩ :=
    drop_renumbered hpatched words 0 rfl (fun _ hpos => hpos) fun _ hpos => .inr hpos
  exact ⟨words, words', hP, rfl, hinfo', hrenumbered⟩

/-- A bootstrap method with its references changed. -/
def BootstrapRenumbered (R : UInt16 → UInt16 → Prop) (b b' : UInt16 × List UInt16) : Prop :=
  IndexRenumbered R b.1 b'.1 ∧ List.Forall₂ (IndexRenumbered R) b.2 b'.2

theorem Fits.renumbered {table table' : List (UInt16 × List UInt16)} (h : Fits table)
    (htable : List.Forall₂ (BootstrapRenumbered R) table table') : Fits table' := by
  refine ⟨htable.length_eq ▸ h.1, fun b' hb' => ?_⟩
  obtain ⟨b, hb, -, hargs⟩ := exists_mem_of_forall₂ htable hb'
  exact hargs.length_eq ▸ h.2 b hb

theorem forall₂_refs {is : List UInt16} {words : List Word}
    (h : List.Forall₂ (Word.Renumbered R) (is.map .ref) words) :
    ∃ xs, words = xs.map .ref ∧ List.Forall₂ (IndexRenumbered R) is xs := by
  induction is generalizing words with
  | nil =>
    cases h
    exact ⟨[], rfl, .nil⟩
  | cons i is ih =>
    cases h with
    | cons hi hrest =>
      cases hi with
      | @ref _ x hi =>
        obtain ⟨xs, rfl, hxs⟩ := ih hrest
        exact ⟨x :: xs, rfl, .cons hi hxs⟩

theorem bootstrapWords_renumbered {b : UInt16 × List UInt16} {words : List Word}
    (h : List.Forall₂ (Word.Renumbered R) (bootstrapWords b) words) :
    ∃ b', words = bootstrapWords b' ∧ BootstrapRenumbered R b b' := by
  cases h with
  | cons hhandle h =>
    cases hhandle with
    | @ref _ x hx =>
      cases h with
      | cons hnumber h =>
        cases hnumber
        obtain ⟨args, rfl, hargs⟩ := forall₂_refs h
        refine ⟨(x, args), ?_, hx, hargs⟩
        unfold bootstrapWords
        rw [hargs.length_eq]

theorem tableWords_renumbered {table : List (UInt16 × List UInt16)} {words : List Word}
    (h : List.Forall₂ (Word.Renumbered R) (tableWords table) words) :
    ∃ table', words = tableWords table' ∧ List.Forall₂ (BootstrapRenumbered R) table table' := by
  have hflat {table : List (UInt16 × List UInt16)} {words : List Word}
      (h : List.Forall₂ (Word.Renumbered R) (table.flatMap bootstrapWords) words) :
      ∃ table', words = table'.flatMap bootstrapWords ∧
        List.Forall₂ (BootstrapRenumbered R) table table' := by
    induction table generalizing words with
    | nil =>
      cases h
      exact ⟨[], rfl, .nil⟩
    | cons b table ih =>
      rw [List.flatMap_cons] at h
      have hfirst := List.forall₂_take (bootstrapWords b).length h
      have hrest := List.forall₂_drop (bootstrapWords b).length h
      rw [List.take_left] at hfirst
      rw [List.drop_left] at hrest
      obtain ⟨b', hb', hb⟩ := bootstrapWords_renumbered hfirst
      obtain ⟨table', htable', htable⟩ := ih hrest
      refine ⟨b' :: table', ?_, .cons hb htable⟩
      rw [List.flatMap_cons, ← hb', ← htable', List.take_append_drop]
  cases h with
  | cons hnumber h =>
    cases hnumber
    obtain ⟨table', rfl, htable⟩ := hflat h
    refine ⟨table', ?_, htable⟩
    unfold tableWords
    rw [htable.length_eq]

/-- The body of `ConstantValue` is one reference. -/
theorem constantValue_renumbered {pool : Pool} {info info' : Bytes}
    (h : Renumbered R pool "ConstantValue" info info') :
    ∃ i x, info = Bytes.ofU16 i ∧ info' = Bytes.ofU16 x ∧ IndexRenumbered R i x := by
  obtain ⟨_, _, ⟨i, rfl⟩, rfl, rfl, hwords⟩ := words_renumbered (words_constantValue pool) h
  cases hwords with
  | cons hi hrest =>
    cases hrest
    cases hi with
    | @ref _ x hx => exact ⟨i, x, rfl, rfl, hx⟩

/-- The body of `BootstrapMethods` is a table. -/
theorem bootstrapMethods_renumbered {pool : Pool} {info info' : Bytes}
    (h : Renumbered R pool "BootstrapMethods" info info') :
    ∃ table table', Fits table ∧ info = Word.bytes (tableWords table) ∧
      info' = Word.bytes (tableWords table') ∧
        List.Forall₂ (BootstrapRenumbered R) table table' := by
  obtain ⟨_, _, ⟨table, hfits, rfl⟩, rfl, rfl, hwords⟩ :=
    words_renumbered (words_bootstrapMethods pool) h
  obtain ⟨table', rfl, htable⟩ := tableWords_renumbered hwords
  exact ⟨table, table', hfits, rfl, rfl, htable⟩

end Cleartext.Layout
