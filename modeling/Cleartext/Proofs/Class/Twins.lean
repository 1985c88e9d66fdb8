import Cleartext.Class.Layout
import Cleartext.Proofs.Reading

/-!
# Twin visits

A part of a layout that is visited moves the cursor by some number of bytes and lists sites
among them (`Visit.Moves`): they stand in order, lie inside the body and do not overlap, and
the word at a reference is not zero (`Progress.Spread`).  Its twin does the same on other
bytes that agree with these outside the sites and refer to the same names (`Visit.Twins`).

This file has the parts that a layout is made of: reading, listing a site, and doing one
after another.  A twin visit says of a part how it succeeds and how it may fail, also which
sites are listed up to the failure.
-/

namespace Cleartext

namespace Bytes

theorem u16At_drop (bytes : Bytes) (n k : Nat) :
    u16At (bytes.drop n) k = bytes.u16At (n + k) := by
  unfold u16At
  rw [List.drop_drop]

theorem u16At_append {bytes more : Bytes} {k : Nat} (h : k + 2 ≤ bytes.length) :
    u16At (bytes ++ more) k = bytes.u16At k := by
  have hlength : (bytes.drop k).length = bytes.length - k := List.length_drop
  unfold u16At
  rw [List.drop_append_of_le_length (by omega)]
  match hdrop : bytes.drop k with
  | [] | [_] =>
    rw [hdrop] at hlength
    simp at hlength
    omega
  | _ :: _ :: _ => rfl

end Bytes

namespace Layout

/-- The number of bytes that a site takes. -/
def SiteKind.width : SiteKind → Nat
  | .span => 4
  | .reference | .offset | .handler => 2

theorem SiteKind.two_le_width (kind : SiteKind) : 2 ≤ kind.width := by
  cases kind <;> decide

/-- The byte at `k` belongs to the site. -/
def Site.Takes (site : Site) (k : Nat) : Prop :=
  site.position ≤ k ∧ k < site.position + site.kind.width

/-- The byte at `k` belongs to a code position or an index into the exception
table that stands at the site. -/
def Site.Covers (site : Site) (k : Nat) : Prop :=
  site.kind ≠ .reference ∧ site.position ≤ k ∧ k < site.position + site.kind.width

/-! ## Progress by a number of bytes -/

namespace Progress

/-- Moves on by `n` bytes and lists sites, the last of them first. -/
def advance (s : Progress) (n : Nat) (new : List Site) : Progress :=
  { s with cursor := s.cursor.skip n, sites := new ++ s.sites }

/-- The same place in front of other bytes. -/
def reading (s : Progress) (rest : Bytes) : Progress :=
  { s with cursor := { s.cursor with rest } }

/-- Sites that stand one after another among the next `n` bytes, of which the references are
not zero. -/
structure Spread (s : Progress) (n : Nat) (new : List Site) : Prop where
  spaced : new.Pairwise fun later earlier =>
    earlier.position + earlier.kind.width ≤ later.position
  ahead : ∀ site ∈ new, s.cursor.offset ≤ site.position
  behind : ∀ site ∈ new, site.position + site.kind.width ≤ s.cursor.offset + n
  inside : ∀ site ∈ new,
    site.position + site.kind.width ≤ s.cursor.offset + s.cursor.rest.length
  nonzero : ∀ site ∈ new, site.kind = .reference → ∀ k,
    site.position = s.cursor.offset + k → s.cursor.rest.u16At k ≠ 0

/-- Other bytes that agree with the next `n` outside the sites, and of which the
references correspond. -/
structure Agrees (T : UInt16 → UInt16 → Prop) (s : Progress) (n : Nat) (new : List Site)
    (rest : Bytes) : Prop where
  length : rest.length = s.cursor.rest.length
  bytes : ∀ k < n, (∀ site ∈ new, ¬ site.Takes (s.cursor.offset + k)) →
    rest[k]? = s.cursor.rest[k]?
  references : ∀ site ∈ new, site.kind = .reference → ∀ k,
    site.position = s.cursor.offset + k → T (s.cursor.rest.u16At k) (rest.u16At k)

/-- Sites that a visit lists before it fails stand one after another among the bytes ahead. -/
structure Lists (s : Progress) (new : List Site) (s' : Progress) : Prop where
  sites : s'.sites = new ++ s.sites
  spaced : new.Pairwise fun later earlier =>
    earlier.position + earlier.kind.width ≤ later.position
  ahead : ∀ site ∈ new, s.cursor.offset ≤ site.position
  inside : ∀ site ∈ new,
    site.position + site.kind.width ≤ s.cursor.offset + s.cursor.rest.length

variable {T : UInt16 → UInt16 → Prop}
variable {s : Progress} {n m : Nat} {new more : List Site} {rest : Bytes}

theorem advance_advance (s : Progress) (n m : Nat) (new more : List Site) :
    (s.advance n new).advance m more = s.advance (n + m) (more ++ new) := by
  simp [advance, Cursor.skip, Nat.add_assoc]

/-- How far a visit has come and what it has listed can be read off. -/
theorem advance_inj (h : s.advance n new = s.advance m more) : n = m ∧ new = more := by
  have hoffset : s.cursor.offset + n = s.cursor.offset + m :=
    congrArg (fun s => s.cursor.offset) h
  have hsites : new ++ s.sites = more ++ s.sites := congrArg Progress.sites h
  exact ⟨Nat.add_left_cancel hoffset, List.append_cancel_right hsites⟩

theorem reading_advance (s : Progress) (n : Nat) (new : List Site) (rest : Bytes) :
    (s.reading rest).advance n new = (s.advance n new).reading (rest.drop n) := rfl

theorem spread_nil : s.Spread n [] := ⟨.nil, by simp, by simp, by simp, by simp⟩

theorem spread_singleton {site : Site} (hposition : site.position = s.cursor.offset)
    (hwidth : site.kind.width = n) (hinside : n ≤ s.cursor.rest.length)
    (hnonzero : site.kind = .reference → s.cursor.rest.u16At 0 ≠ 0) : s.Spread n [site] := by
  refine ⟨List.pairwise_singleton _ _, ?_, ?_, ?_, ?_⟩ <;> intro site' hsite' <;>
    obtain rfl := List.mem_singleton.1 hsite'
  · exact hposition.ge
  · omega
  · omega
  · intro hkind k hk
    obtain rfl : k = 0 := by omega
    exact hnonzero hkind

theorem Spread.append (h : s.Spread n new) (h' : (s.advance n new).Spread m more) :
    s.Spread (n + m) (more ++ new) := by
  have hahead : ∀ site ∈ more, s.cursor.offset + n ≤ site.position := h'.ahead
  have hbehind : ∀ site ∈ more,
      site.position + site.kind.width ≤ s.cursor.offset + n + m := h'.behind
  have hinside : ∀ site ∈ more, site.position + site.kind.width ≤
      s.cursor.offset + n + (s.cursor.rest.drop n).length := h'.inside
  refine ⟨List.pairwise_append.2 ⟨h'.spaced, h.spaced, fun later hlater earlier hearlier => ?_⟩,
    ?_, ?_, ?_, ?_⟩
  · exact (h.behind earlier hearlier).trans (hahead later hlater)
  · refine List.forall_mem_append.2 ⟨fun site hsite => ?_, h.ahead⟩
    exact (Nat.le_add_right _ _).trans (hahead site hsite)
  · refine List.forall_mem_append.2 ⟨fun site hsite => ?_, fun site hsite => ?_⟩
    · rw [← Nat.add_assoc]
      exact hbehind site hsite
    · have hle := h.behind site hsite
      omega
  · refine List.forall_mem_append.2 ⟨fun site hsite => ?_, h.inside⟩
    have hle := hinside site hsite
    have hlow := hahead site hsite
    have hwidth := site.kind.two_le_width
    rw [List.length_drop] at hle
    omega
  · refine List.forall_mem_append.2 ⟨fun site hsite hkind k hk => ?_, h.nonzero⟩
    have hlow := hahead site hsite
    obtain ⟨j, rfl⟩ : ∃ j, k = n + j := ⟨k - n, by omega⟩
    rw [← Bytes.u16At_drop]
    exact h'.nonzero site hsite hkind j (by rw [hk, ← Nat.add_assoc]; rfl)

/-- Bytes that agree with all agree with the first of them. -/
theorem Agrees.first (hmore : (s.advance n new).Spread m more)
    (h : s.Agrees T (n + m) (more ++ new) rest) : s.Agrees T n new rest := by
  refine ⟨h.length, fun k hk huntaken => h.bytes k (by omega) ?_,
    fun site hsite => h.references site (List.mem_append_right _ hsite)⟩
  refine List.forall_mem_append.2 ⟨fun site hsite htakes => ?_, huntaken⟩
  have hahead : s.cursor.offset + n ≤ site.position := hmore.ahead site hsite
  have hle := htakes.1
  omega

/-- Bytes that agree with all agree with those behind the first. -/
theorem Agrees.later (hnew : s.Spread n new) (h : s.Agrees T (n + m) (more ++ new) rest) :
    (s.advance n new).Agrees T m more (rest.drop n) := by
  constructor
  · show (rest.drop n).length = (s.cursor.rest.drop n).length
    rw [List.length_drop, List.length_drop, h.length]
  · intro k hk huntaken
    show (rest.drop n)[k]? = (s.cursor.rest.drop n)[k]?
    rw [List.getElem?_drop, List.getElem?_drop]
    refine h.bytes (n + k) (by omega) (List.forall_mem_append.2 ⟨fun site hsite => ?_, ?_⟩)
    · rw [← Nat.add_assoc]
      exact huntaken site hsite
    · intro site hsite htakes
      have hbehind := hnew.behind site hsite
      have hlt := htakes.2
      omega
  · intro site hsite hkind k hposition
    show T (Bytes.u16At (s.cursor.rest.drop n) k) (Bytes.u16At (rest.drop n) k)
    rw [Bytes.u16At_drop, Bytes.u16At_drop]
    refine h.references site (List.mem_append_left _ hsite) hkind (n + k) ?_
    rw [hposition, ← Nat.add_assoc]
    rfl

theorem lists_nil {s' : Progress} (h : s'.sites = s.sites) : s.Lists [] s' :=
  ⟨h, .nil, by simp, by simp⟩

theorem Lists.refl (s : Progress) : s.Lists [] s := lists_nil rfl

/-- A visit that has succeeded has listed its sites. -/
theorem Spread.lists (h : s.Spread n new) : s.Lists new (s.advance n new) :=
  ⟨rfl, h.spaced, h.ahead, h.inside⟩

/-- What is listed behind the first bytes is listed after them. -/
theorem Lists.later {s' : Progress} (h : s.Spread n new) (h' : (s.advance n new).Lists more s') :
    s.Lists (more ++ new) s' := by
  have hahead : ∀ site ∈ more, s.cursor.offset + n ≤ site.position := h'.ahead
  have hinside : ∀ site ∈ more, site.position + site.kind.width ≤
      s.cursor.offset + n + (s.cursor.rest.drop n).length := h'.inside
  refine ⟨?_, List.pairwise_append.2 ⟨h'.spaced, h.spaced, fun later hlater earlier hearlier => ?_⟩,
    List.forall_mem_append.2 ⟨fun site hsite => ?_, h.ahead⟩,
    List.forall_mem_append.2 ⟨fun site hsite => ?_, h.inside⟩⟩
  · rw [h'.sites, List.append_assoc]
    rfl
  · exact (h.behind earlier hearlier).trans (hahead later hlater)
  · exact (Nat.le_add_right _ _).trans (hahead site hsite)
  · have hle := hinside site hsite
    have hlow := hahead site hsite
    have hwidth := site.kind.two_le_width
    rw [List.length_drop] at hle
    omega

theorem advance_of_reads {bytes : Bytes} {c : Cursor} (h : s.cursor.Reads bytes c) :
    { s with cursor := c } = s.advance bytes.length [] := by
  obtain ⟨hrest, hoffset, htotal⟩ := h
  obtain ⟨rest, offset, total⟩ := c
  unfold advance Cursor.skip
  rw [hrest, List.drop_left]
  simp_all

/-- Where no site is listed, other bytes start with the same ones. -/
theorem Agrees.reads {bytes : Bytes} {c : Cursor} (hreads : s.cursor.Reads bytes c)
    (hlength : bytes.length = n) (h : s.Agrees T n [] rest) :
    (s.reading rest).cursor.Reads bytes ((s.reading rest).cursor.skip n) := by
  refine ⟨?_, by rw [hlength]; rfl, rfl⟩
  show rest = bytes ++ rest.drop n
  have htake : rest.take n = bytes := by
    apply List.ext_getElem?
    intro k
    rw [List.getElem?_take]
    by_cases hk : k < n
    · rw [if_pos hk, h.bytes k hk (by simp), hreads.rest, List.getElem?_append_left (by omega)]
    · rw [if_neg hk, List.getElem?_eq_none (by omega)]
  rw [← htake, List.take_append_drop]

end Progress

/-! ## Twin visits -/

/-- The failure that ended a visit. -/
def Stop.error : Stop → Error
  | .plain e | .direct e => e

/-- A visit did not end at an attribute of unknown layout. -/
def Stop.Known (stop : Stop) : Prop := ∀ name, stop.error.root ≠ .unknownAttribute name

theorem Stop.known_malformed (f : Flaw) : Stop.Known (.plain (.malformed f)) := by
  intro name h
  cases h

/-- References that correspond in two pools: none of them is zero, and a name that
is read through one is read through the other. -/
structure SameNames (p q : Pool) (T : UInt16 → UInt16 → Prop) : Prop where
  nonzero : ∀ i x, T i x → x ≠ 0
  text : ∀ i x name, T i x → p.text i = .ok name → q.text x = .ok name
  zero : ∀ name, p.text 0 = .ok name → q.text 0 = .ok name

namespace Visit

variable {α β γ δ : Type} {T : UInt16 → UInt16 → Prop} {A : α → β → Prop} {B : γ → δ → Prop}
  {Fails : Stop → Prop}

/-- The result of a visit and what it has read. -/
def exec (v : Visit α) (s : Progress) : Except Stop α × Progress := v.run.run s

theorem exec_bind (v : Visit α) (f : α → Visit β) (s : Progress) :
    exec (v >>= f) s = match exec v s with
      | (.ok a, s') => exec (f a) s'
      | (.error e, s') => (.error e, s') := by
  have hbind : exec (v >>= f) s = exec (ExceptT.mk (ExceptT.bindCont f (exec v s).1))
      (exec v s).2 := rfl
  rw [hbind]
  obtain ⟨result, s'⟩ := exec v s
  cases result <;> rfl

theorem exec_bind_ok {v : Visit α} {f : α → Visit β} {b : β} {s s'' : Progress} :
    exec (v >>= f) s = (.ok b, s'') ↔
      ∃ a s', exec v s = (.ok a, s') ∧ exec (f a) s' = (.ok b, s'') := by
  rw [exec_bind]
  obtain ⟨result, s'⟩ := exec v s
  cases result with
  | error e => simp
  | ok a => simp

theorem exec_get (f : Progress → Visit α) (s : Progress) : exec (get >>= f) s = exec (f s) s := rfl

theorem exec_read (reader : Cursor → Except Error (α × Cursor)) (s : Progress) :
    exec (read reader) s = match reader s.cursor with
      | .ok (a, c) => (.ok a, { s with cursor := c })
      | .error e => (.error (.plain e), s) := by
  have hget : exec (read reader) s = exec (match reader s.cursor with
      | .ok (a, cursor) => do set { s with cursor }; return a
      | .error e => throw (.plain e)) s := rfl
  rw [hget]
  cases reader s.cursor <;> rfl

theorem exec_read_ok {reader : Cursor → Except Error (α × Cursor)} {a : α} {s s' : Progress} :
    exec (read reader) s = (.ok a, s') ↔
      ∃ c, reader s.cursor = .ok (a, c) ∧ s' = { s with cursor := c } := by
  rw [exec_read]
  cases reader s.cursor with
  | error e => simp
  | ok answer => simp [eq_comm, Prod.ext_iff, and_assoc]

theorem exec_u16_ok {i : UInt16} {s s' : Progress} (h : exec u16 s = (.ok i, s')) :
    ∃ c, s.cursor.Reads (Bytes.ofU16 i) c ∧ s' = { s with cursor := c } := by
  obtain ⟨c, hread, hs'⟩ := exec_read_ok.1 h
  exact ⟨c, Cursor.u16_ok.1 hread, hs'⟩

/-- A visit that moves on by some bytes and lists sites among them.  Every failure
is as `Fails` says. -/
structure Moves (Fails : Stop → Prop) (v : Visit α) : Prop where
  fails : ∀ s e s', exec v s = (.error e, s') → Fails e ∧ ∃ new, s.Lists new s'
  succeeds : ∀ s a s', exec v s = (.ok a, s') → ∃ n new, s' = s.advance n new ∧ s.Spread n new

/-- Two visits of which the second does on bytes that agree what the first has
done. -/
structure Twins (T : UInt16 → UInt16 → Prop) (A : α → β → Prop) (Fails : Stop → Prop)
    (v : Visit α) (w : Visit β) : Prop extends Moves Fails v where
  same : ∀ s a n new rest, exec v s = (.ok a, s.advance n new) → s.Agrees T n new rest →
    ∃ b, A a b ∧ exec w (s.reading rest) = (.ok b, (s.reading rest).advance n new)

/-- A visit that is its own twin. -/
abbrev Steady (T : UInt16 → UInt16 → Prop) (Fails : Stop → Prop) (v : Visit α) : Prop :=
  Twins T (· = ·) Fails v v

theorem Twins.of_succeeds {v : Visit α} {w : Visit β}
    (fails : ∀ s e s', exec v s = (.error e, s') → Fails e ∧ ∃ new, s.Lists new s')
    (succeeds : ∀ s a s', exec v s = (.ok a, s') → ∃ n new, s' = s.advance n new ∧
      s.Spread n new ∧ ∀ rest, s.Agrees T n new rest →
        ∃ b, A a b ∧ exec w (s.reading rest) = (.ok b, (s.reading rest).advance n new)) :
    Twins T A Fails v w := by
  refine ⟨⟨fails, fun s a s' h => ?_⟩, fun s a n new rest h hagrees => ?_⟩
  · obtain ⟨n, new, hs', hspread, -⟩ := succeeds s a s' h
    exact ⟨n, new, hs', hspread⟩
  · obtain ⟨m, more, hadvance, -, hsame⟩ := succeeds s a _ h
    obtain ⟨rfl, rfl⟩ := Progress.advance_inj hadvance
    exact hsame rest hagrees

theorem Moves.mono {Fails' : Stop → Prop} {v : Visit α} (h : Moves Fails v)
    (himp : ∀ e, Fails e → Fails' e) : Moves Fails' v :=
  ⟨fun s e s' he => (h.fails s e s' he).imp_left (himp e), h.succeeds⟩

theorem Twins.mono {Fails' : Stop → Prop} {v : Visit α} {w : Visit β} (h : Twins T A Fails v w)
    (himp : ∀ e, Fails e → Fails' e) : Twins T A Fails' v w :=
  ⟨h.toMoves.mono himp, h.same⟩

theorem twins_pure {a : α} {b : β} (hA : A a b) : Twins T A Fails (pure a) (pure b) := by
  refine .of_succeeds (fun s e s' h => ?_) fun s a' s' h => ?_
  · exact absurd (show (Except.ok a, s) = (Except.error e, s') from h) (by simp)
  · obtain ⟨ha, rfl⟩ := Prod.mk.inj (show (Except.ok a, s) = (Except.ok a', s') from h)
    obtain rfl := Except.ok.inj ha
    exact ⟨0, [], rfl, Progress.spread_nil, fun rest _ => ⟨b, hA, rfl⟩⟩

theorem steady_pure (a : α) : Steady T Fails (pure a) := twins_pure rfl

theorem steady_throw {e : Stop} (he : Fails e) : Steady T Fails (throw e : Visit α) := by
  refine .of_succeeds (fun s e' s' h => ?_) fun s b s' h => ?_
  · obtain ⟨heq, rfl⟩ := Prod.mk.inj (show (Except.error e, s) = (Except.error e', s') from h)
    rw [← Except.error.inj heq]
    exact ⟨he, [], .refl s⟩
  · exact absurd (show (Except.error e, s) = (Except.ok b, s') from h) (by simp)

theorem steady_flaw (f : Flaw) : Steady T Stop.Known (flaw f : Visit α) :=
  steady_throw (Stop.known_malformed f)

/-- A visit that gives up. -/
theorem steady_ended (n : Nat) :
    Steady T Stop.Known (do throw (.plain ((← get).cursor.ended n)) : Visit α) := by
  refine .of_succeeds (fun s e s' h => ?_) fun s b s' h => ?_
  · obtain ⟨heq, rfl⟩ := Prod.mk.inj
      (show (Except.error (Stop.plain (s.cursor.ended n)), s) = (Except.error e, s') from h)
    rw [← Except.error.inj heq]
    exact ⟨Stop.known_malformed _, [], .refl s⟩
  · exact absurd (show (Except.error (Stop.plain (s.cursor.ended n)), s) = (Except.ok b, s') from h)
      (by simp)

theorem Moves.bind {v : Visit α} {f : α → Visit γ} (hv : Moves Fails v)
    (hf : ∀ a, Moves Fails (f a)) : Moves Fails (v >>= f) := by
  refine ⟨fun s e s'' h => ?_, fun s c s'' h => ?_⟩
  · rw [exec_bind] at h
    cases hfirst : exec v s with
    | mk result s' =>
      rw [hfirst] at h
      cases result with
      | error e' =>
        obtain ⟨heq, rfl⟩ := Prod.mk.inj h
        rw [← Except.error.inj heq]
        exact hv.fails s e' s' hfirst
      | ok a =>
        obtain ⟨n, new, rfl, hspread⟩ := hv.succeeds s a s' hfirst
        obtain ⟨hfails, more, hlists⟩ := (hf a).fails _ e s'' h
        exact ⟨hfails, more ++ new, hlists.later hspread⟩
  · obtain ⟨a, s', hfirst, hrest⟩ := exec_bind_ok.1 h
    obtain ⟨n, new, rfl, hspread⟩ := hv.succeeds s a s' hfirst
    obtain ⟨m, more, rfl, hspread'⟩ := (hf a).succeeds _ c s'' hrest
    exact ⟨n + m, more ++ new, Progress.advance_advance .., hspread.append hspread'⟩

/-- One visit after another. -/
theorem Twins.bind {v : Visit α} {w : Visit β} {f : α → Visit γ} {g : β → Visit δ}
    (hv : Twins T A Fails v w) (hmoves : ∀ a, Moves Fails (f a))
    (hf : ∀ a b, A a b → Twins T B Fails (f a) (g b)) : Twins T B Fails (v >>= f) (w >>= g) := by
  refine .of_succeeds (hv.toMoves.bind hmoves).fails fun s c s'' h => ?_
  obtain ⟨a, s', hfirst, hrest⟩ := exec_bind_ok.1 h
  obtain ⟨n, new, rfl, hspread⟩ := hv.succeeds s a s' hfirst
  obtain ⟨m, more, rfl, hspread'⟩ := (hmoves a).succeeds _ c s'' hrest
  refine ⟨n + m, more ++ new, Progress.advance_advance .., hspread.append hspread',
    fun rest hagrees => ?_⟩
  obtain ⟨b, hb, hrun⟩ := hv.same s a n new rest hfirst (hagrees.first hspread')
  obtain ⟨d, hd, hrun'⟩ := (hf a b hb).same _ c m more _ hrest (hagrees.later hspread)
  refine ⟨d, hd, exec_bind_ok.2 ⟨b, _, hrun, ?_⟩⟩
  rw [Progress.reading_advance, hrun', ← Progress.advance_advance]
  rfl

/-- One visit after another, where the answers of the first are the same. -/
theorem steady_bind {v w : Visit α} {f g : α → Visit γ} (hv : Twins T (· = ·) Fails v w)
    (hf : ∀ a, Twins T (· = ·) Fails (f a) (g a)) : Twins T (· = ·) Fails (v >>= f) (w >>= g) :=
  hv.bind (fun a => (hf a).toMoves) fun a _ hab => hab ▸ hf a

/-- Moving on by a number of bytes that depends only on how many there are. -/
theorem steady_modify_skip {n : Progress → Nat}
    (hn : ∀ s rest, rest.length = s.cursor.rest.length → n (s.reading rest) = n s) :
    Steady T Fails (modify fun s => { s with cursor := s.cursor.skip (n s) } : Visit Unit) := by
  refine .of_succeeds (fun s e s' h => ?_) fun s a s' h => ?_
  · exact absurd (show (Except.ok (), { s with cursor := s.cursor.skip (n s) }) =
      ((Except.error e : Except Stop Unit), s') from h) (by simp)
  · obtain ⟨-, rfl⟩ := Prod.mk.inj (show (Except.ok (), { s with cursor := s.cursor.skip (n s) }) =
      ((Except.ok a : Except Stop Unit), s') from h)
    refine ⟨n s, [], rfl, Progress.spread_nil, fun rest hagrees => ⟨(), rfl, ?_⟩⟩
    rw [← hn s rest hagrees.length]
    rfl

/-- A reader that takes a fixed number of bytes from the front. -/
theorem steady_read {reader : Cursor → Except Error (α × Cursor)} {bytes : α → Bytes} {n : Nat}
    (hreader : ∀ a c c', reader c = .ok (a, c') ↔ c.Reads (bytes a) c')
    (hlength : ∀ a, (bytes a).length = n)
    (hended : ∀ c e, reader c = .error e → e = c.ended n) :
    Steady T Stop.Known (read reader) := by
  refine .of_succeeds (fun s e s' h => ?_) fun s a s' h => ?_
  · rw [exec_read] at h
    split at h
    · exact absurd h (by simp)
    · rename_i e' he'
      obtain ⟨heq, rfl⟩ := Prod.mk.inj h
      rw [← Except.error.inj heq, hended _ _ he']
      exact ⟨Stop.known_malformed _, [], .refl s⟩
  · obtain ⟨c, hread, rfl⟩ := exec_read_ok.1 h
    have hreads := (hreader a s.cursor c).1 hread
    refine ⟨n, [], by rw [← hlength a]; exact Progress.advance_of_reads hreads,
      Progress.spread_nil, fun rest hagrees => ⟨a, rfl, ?_⟩⟩
    exact exec_read_ok.2 ⟨_, (hreader a _ _).2 (hagrees.reads hreads (hlength a)), rfl⟩

theorem steady_u8 : Steady T Stop.Known u8 := by
  have hreader (v : UInt8) (c c' : Cursor) : c.u8 = .ok (v, c') ↔ c.Reads [v] c' := Cursor.u8_ok
  refine steady_read hreader (fun _ => rfl) fun c e h => ?_
  unfold Cursor.u8 at h
  split at h
  · cases h
  · exact (Except.error.inj h).symm

theorem steady_u16 : Steady T Stop.Known u16 := by
  refine steady_read (fun _ _ _ => Cursor.u16_ok) Bytes.ofU16_length fun c e h => ?_
  unfold Cursor.u16 at h
  split at h
  · cases h
  · exact (Except.error.inj h).symm

theorem steady_u32 : Steady T Stop.Known u32 := by
  refine steady_read (fun _ _ _ => Cursor.u32_ok) Bytes.ofU32_length fun c e h => ?_
  unfold Cursor.u32 at h
  split at h
  · cases h
  · exact (Except.error.inj h).symm

theorem steady_skip8 : Steady T Stop.Known skip8 := steady_bind steady_u8 fun _ => steady_pure _

theorem steady_skip16 : Steady T Stop.Known skip16 := steady_bind steady_u16 fun _ => steady_pure _

/-! ## Sites -/

/-- A word is read where there are two bytes. -/
theorem exec_u16_of_length {s : Progress} (h : 2 ≤ s.cursor.rest.length) :
    exec u16 s = (.ok (s.cursor.rest.u16At 0), s.advance 2 []) := by
  obtain ⟨⟨rest, offset, total⟩, sites, nested⟩ := s
  match rest, h with
  | a :: b :: rest, _ => rfl

/-- A word is read from two bytes. -/
theorem exec_u16_advance {i : UInt16} {s s' : Progress} (h : exec u16 s = (.ok i, s')) :
    2 ≤ s.cursor.rest.length ∧ i = s.cursor.rest.u16At 0 ∧ s' = s.advance 2 [] := by
  obtain ⟨c, hreads, rfl⟩ := exec_u16_ok h
  have hlength := hreads.length_rest
  rw [Bytes.ofU16_length] at hlength
  refine ⟨by omega, ?_, Progress.advance_of_reads hreads⟩
  rw [hreads.rest]
  exact (Bytes.toU16_ofU16 i).symm

theorem exec_read_error {reader : Cursor → Except Error (α × Cursor)} {e : Stop}
    {s s' : Progress} (h : exec (read reader) s = (.error e, s')) : s' = s := by
  rw [exec_read] at h
  split at h
  · exact absurd h (by simp)
  · exact (Prod.mk.inj h).2.symm

/-- A visit that fails lists nothing. -/
def Quits (v : Visit α) : Prop :=
  ∀ s e s', exec v s = (.error e, s') → e.Known ∧ s'.sites = s.sites

theorem Quits.fails {v : Visit α} (h : Quits v) {s s' : Progress} {e : Stop}
    (he : exec v s = (.error e, s')) : e.Known ∧ ∃ new, s.Lists new s' := by
  obtain ⟨hknown, hsites⟩ := h s e s' he
  exact ⟨hknown, [], Progress.lists_nil hsites⟩

theorem quits_of_ok {v : Visit α} (h : ∀ s, ∃ a s', exec v s = (.ok a, s')) : Quits v := by
  intro s e s' he
  obtain ⟨a, s'', ha⟩ := h s
  rw [ha] at he
  exact absurd he (by simp)

theorem quits_u16 {f : UInt16 → Visit α} (hf : ∀ i, Quits (f i)) : Quits (u16 >>= f) := by
  intro s e s'' h
  rw [exec_bind] at h
  cases hfirst : exec u16 s with
  | mk result s' =>
    rw [hfirst] at h
    cases result with
    | error e' =>
      obtain ⟨heq, rfl⟩ := Prod.mk.inj h
      rw [← Except.error.inj heq]
      obtain ⟨hknown, -⟩ := (steady_u16 (T := Eq)).fails s e' s' hfirst
      exact ⟨hknown, congrArg Progress.sites (exec_read_error hfirst)⟩
    | ok i =>
      obtain ⟨-, -, rfl⟩ := exec_u16_advance hfirst
      exact hf i (s.advance 2 []) e s'' h

theorem quits_site (kind : SiteKind) (pos : Nat) : Quits (site kind pos) :=
  quits_of_ok fun _ => ⟨(), _, rfl⟩

/-- A reference, of which the twin may be another one. -/
theorem twins_reference (hnonzero : ∀ i x, T i x → x ≠ 0) :
    Twins T (fun i x => i = 0 ∧ x = 0 ∨ i ≠ 0 ∧ T i x) Stop.Known reference reference := by
  have hexec (s : Progress) : exec reference s = exec (do
      let i ← u16
      if i ≠ 0 then site .reference s.cursor.offset
      return i) s := rfl
  refine .of_succeeds (fun s e s' h => ?_) fun s a s' h => ?_
  · rw [hexec] at h
    refine (quits_u16 fun i => quits_of_ok fun t => ?_).fails h
    split
    · exact ⟨i, _, rfl⟩
    · exact ⟨i, _, rfl⟩
  · rw [hexec] at h
    obtain ⟨i, s₁, hread, h⟩ := exec_bind_ok.1 h
    obtain ⟨hlength, hi, rfl⟩ := exec_u16_advance hread
    by_cases hzero : i = 0
    · rw [if_neg (not_not.2 hzero)] at h
      obtain ⟨ha, rfl⟩ := Prod.mk.inj (show (Except.ok i, _) = (Except.ok a, s') from h)
      obtain rfl := Except.ok.inj ha
      refine ⟨2, [], rfl, Progress.spread_nil, fun rest hagrees => ⟨i, .inl ⟨hzero, hzero⟩, ?_⟩⟩
      obtain ⟨c, hreads, -⟩ := exec_u16_ok hread
      have hsame : exec u16 (s.reading rest) = (.ok i, (s.reading rest).advance 2 []) :=
        exec_read_ok.2 ⟨_, Cursor.u16_ok.2 (hagrees.reads hreads rfl), rfl⟩
      rw [hexec]
      refine exec_bind_ok.2 ⟨i, _, hsame, ?_⟩
      rw [if_neg (not_not.2 hzero)]
      rfl
    · rw [if_pos hzero] at h
      obtain ⟨ha, rfl⟩ := Prod.mk.inj (show (Except.ok i, _) = (Except.ok a, s') from h)
      obtain rfl := Except.ok.inj ha
      refine ⟨2, [⟨.reference, s.cursor.offset, s.nested⟩], rfl,
        Progress.spread_singleton rfl rfl hlength fun _ => hi ▸ hzero, fun rest hagrees => ?_⟩
      have hT : T i (rest.u16At 0) := by
        rw [hi]
        exact hagrees.references _ (List.mem_singleton_self _) rfl 0 rfl
      refine ⟨_, .inr ⟨hzero, hT⟩, ?_⟩
      rw [hexec]
      refine exec_bind_ok.2 ⟨_, _, exec_u16_of_length (hlength.trans_eq hagrees.length.symm), ?_⟩
      rw [if_pos (show Bytes.u16At (s.reading rest).cursor.rest 0 ≠ 0 from hnonzero _ _ hT)]
      rfl

/-- A word that is listed and is no reference: any other word would do. -/
theorem steady_word {kind : SiteKind} (hkind : kind ≠ .reference) (hwidth : kind.width = 2) :
    Steady T Stop.Known (do let pos ← position; let _ ← u16; site kind pos) := by
  have hexec (s : Progress) : exec (do let pos ← position; let _ ← u16; site kind pos) s =
    exec (do let _ ← u16; site kind s.cursor.offset) s := rfl
  refine .of_succeeds (fun s e s' h => ?_) fun s a s' h => ?_
  · rw [hexec] at h
    exact (quits_u16 fun _ => quits_site _ _).fails h
  · rw [hexec] at h
    obtain ⟨i, s₁, hread, h⟩ := exec_bind_ok.1 h
    obtain ⟨hlength, -, rfl⟩ := exec_u16_advance hread
    obtain ⟨-, rfl⟩ := Prod.mk.inj (show (Except.ok (), _) = (Except.ok a, s') from h)
    refine ⟨2, [⟨kind, s.cursor.offset, s.nested⟩], rfl,
      Progress.spread_singleton rfl hwidth hlength (absurd · hkind), fun rest hagrees => ⟨(), rfl, ?_⟩⟩
    rw [hexec]
    exact exec_bind_ok.2 ⟨_, _, exec_u16_of_length (hlength.trans_eq hagrees.length.symm), rfl⟩

theorem steady_offset : Steady T Stop.Known offset := steady_word (by decide) rfl

theorem steady_handler : Steady T Stop.Known handler := steady_word (by decide) rfl

theorem steady_span : Steady T Stop.Known span := by
  have hexec (s : Progress) : exec span s =
    exec (do let _ ← u16; let _ ← u16; site .span s.cursor.offset) s := rfl
  refine .of_succeeds (fun s e s' h => ?_) fun s a s' h => ?_
  · rw [hexec] at h
    exact (quits_u16 fun _ => quits_u16 fun _ => quits_site _ _).fails h
  · rw [hexec] at h
    obtain ⟨i, s₁, hread, h⟩ := exec_bind_ok.1 h
    obtain ⟨j, s₂, hread', h⟩ := exec_bind_ok.1 h
    obtain ⟨hlength, -, rfl⟩ := exec_u16_advance hread
    obtain ⟨hlength', -, rfl⟩ := exec_u16_advance hread'
    obtain ⟨-, rfl⟩ := Prod.mk.inj (show (Except.ok (), _) = (Except.ok a, s') from h)
    replace hlength' : 2 ≤ (s.cursor.rest.drop 2).length := hlength'
    rw [List.length_drop] at hlength'
    refine ⟨4, [⟨.span, s.cursor.offset, s.nested⟩], ?_,
      Progress.spread_singleton rfl rfl (by omega) nofun, fun rest hagrees => ⟨(), rfl, ?_⟩⟩
    · rw [Progress.advance_advance]
      rfl
    · have hrest := hagrees.length
      have hi' := exec_u16_of_length (s := s.reading rest) (by
        show 2 ≤ rest.length
        omega)
      have hj' := exec_u16_of_length (s := (s.reading rest).advance 2 []) (by
        show 2 ≤ (rest.drop 2).length
        rw [List.length_drop]
        omega)
      rw [hexec]
      refine exec_bind_ok.2 ⟨_, _, hi', exec_bind_ok.2 ⟨_, _, hj', ?_⟩⟩
      rw [Progress.advance_advance]
      rfl

end Visit

end Layout

end Cleartext
