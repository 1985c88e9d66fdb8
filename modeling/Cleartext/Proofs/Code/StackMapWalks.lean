import Cleartext.Proofs.Class.Walks

/-!
# A stack map walked and read

A stack map is gone through in two ways: a walk lists its references and offsets like those of
any other attribute, and `StackMap.parse` reads its frames.  `Visit.Mirrors` says of a visit and
a reader that on the same bytes either both fail or both move on equally far, and what the visit
reports then is as the answer of the reader says.  The parts of a stack map mirror each other
one by one, from `mirrors_type` to `mirrors_frames`.

So a walk that no change ends is accepted if and only if the frames are read, and it reports the
references and offsets that their types name (`StackMap.walk_iff_parse`).
-/

namespace Cleartext

/-! ## What a walk reports -/

namespace Layout

variable {σ : Type} {change : Site → Bytes → Change σ Bytes}

/-- What is reported at a site: its kind, and the word that stands there. -/
def Site.report (body : Bytes) (site : Site) : SiteKind × UInt16 :=
  (site.kind, body.u16At site.position)

/-- A change that also notes what is reported to it. -/
def noting (change : Site → Bytes → Change σ Bytes) (site : Site) (body : Bytes) :
    Change (σ × List (SiteKind × UInt16)) Bytes := fun (s, seen) => do
  let (new, s') ← (change site body).run s
  return (new, s', seen ++ [site.report body])

/-- A change that never fails. -/
def Unfailing (change : Site → Bytes → Change σ Bytes) : Prop :=
  ∀ site body s, ∃ answer, (change site body).run s = .ok answer

/-- A change that never fails ends no walk. -/
theorem Unfailing.run (h : Unfailing change) (name : String) (sites : List Site) (body : Bytes)
    (s : σ) :
    ∃ answer, (rewriteSites name change sites body).run s = .ok answer := by
  induction sites generalizing body s with
  | nil => exact ⟨_, rfl⟩
  | cons site sites ih =>
    obtain ⟨⟨new, s'⟩, hrun⟩ := h site body s
    obtain ⟨answer, hrest⟩ := ih (body.overwrite site.position new) s'
    exact ⟨answer, run_rewriteSites_cons.2 ⟨new, s', hrun, hrest⟩⟩

/-- A walk with a change that never fails goes on to the end of the visit. -/
theorem Unfailing.rewrite_iff (h : Unfailing change) (pool : Pool) (name : String) (info : Bytes)
    (s : σ) :
    (∃ answer, (rewrite pool name change info).run s = .ok answer) ↔
      (visit pool name info).failure = none := by
  obtain ⟨⟨body, s'⟩, hrun⟩ := h.run name (visit pool name info).sites info s
  rw [rewrite, StateT.run_bind, hrun]
  cases (visit pool name info).failure with
  | none => exact iff_of_true ⟨_, rfl⟩ rfl
  | some e =>
    refine iff_of_false ?_ (Option.some_ne_none e)
    rintro ⟨_, heq⟩
    cases heq

/-- A change that stays within the sites finds at each of them what the body held there. -/
theorem run_rewriteSites_noting (hunfailing : Unfailing change)
    (hwithin : WritesOnly (fun _ => True) change) (name : String) {sites : List Site}
    (hordered : sites.Pairwise fun earlier later =>
      earlier.position + earlier.kind.width ≤ later.position)
    (body : Bytes) (s : σ) (seen : List (SiteKind × UInt16)) :
    ∃ body' s', (rewriteSites name (noting change) sites body).run (s, seen) =
      .ok (body', s', seen ++ sites.map (Site.report body)) := by
  induction sites generalizing body s seen with
  | nil => exact ⟨body, s, by rw [List.map_nil, List.append_nil]; rfl⟩
  | cons site sites ih =>
    rw [List.pairwise_cons] at hordered
    obtain ⟨⟨new, s₁⟩, hrun⟩ := hunfailing site body s
    have hnoted : (noting change site body).run (s, seen) =
        .ok (new, s₁, seen ++ [site.report body]) :=
      Except.bind_ok.2 ⟨_, hrun, rfl⟩
    -- The sites behind this one are not written at.
    have hlater : sites.map (Site.report (body.overwrite site.position new)) =
        sites.map (Site.report body) := by
      refine List.map_congr_left fun later hmem => Prod.ext rfl ?_
      have hle := hordered.1 later hmem
      have hwidth : new.length ≤ site.kind.width := by
        rcases hwithin site body s new s₁ hrun with rfl | ⟨-, hwidth⟩
        · exact Nat.zero_le _
        · exact hwidth
      exact Bytes.u16At_congr (Bytes.getElem?_overwrite_of_lt (.inr (by omega)))
        (Bytes.getElem?_overwrite_of_lt (.inr (by omega)))
    obtain ⟨body', s', hrest⟩ := ih hordered.2 (body.overwrite site.position new) s₁
      (seen ++ [site.report body])
    refine ⟨body', s', run_rewriteSites_cons.2 ⟨new, _, hnoted, ?_⟩⟩
    rw [hrest, hlater, List.append_assoc]
    rfl

end Layout

/-! ## Readers and visits -/

namespace Layout.Visit

variable {α β γ δ : Type} {v : Visit γ} {r : Reader α} {g : γ → Visit δ} {f : α → Reader β}
  {tells : γ → α → List (SiteKind × UInt16) → Prop}
  {tells' : δ → β → List (SiteKind × UInt16) → Prop}

/-- A visit that does on all bytes what a reader does: both fail, or both move on equally far, and
then `tells` holds of their answers and of what the visit reports. -/
def Mirrors (v : Visit γ) (r : Reader α) (tells : γ → α → List (SiteKind × UInt16) → Prop) :
    Prop :=
  ∀ (body : Bytes) (s : Progress), s.cursor.rest = body.drop s.cursor.offset →
    (∃ c a n new, n ≤ s.cursor.rest.length ∧ r.run s.cursor = .ok (a, s.cursor.skip n) ∧
      exec v s = (.ok c, s.advance n new) ∧ tells c a (new.reverse.map (Site.report body))) ∨
    (∃ e, r.run s.cursor = .error e) ∧ ∃ e s', exec v s = (.error e, s')

theorem mirrors_pure {c : γ} {a : α} (h : tells c a []) : Mirrors (pure c) (pure a) tells :=
  fun _ _ _ => .inl ⟨c, a, 0, [], Nat.zero_le _, rfl, rfl, h⟩

theorem mirrors_throw {stop : Stop} {e : Error} :
    Mirrors (throw stop : Visit γ) (throw e : Reader α) tells :=
  fun _ s _ => .inr ⟨⟨e, rfl⟩, stop, s, rfl⟩

/-- One after another, they report one after another. -/
theorem Mirrors.bind (hv : Mirrors v r tells)
    (hg : ∀ c a told, tells c a told →
      Mirrors (g c) (f a) fun d b more => tells' d b (told ++ more)) :
    Mirrors (v >>= g) (r >>= f) tells' := by
  intro body s hbody
  rw [exec_bind, StateT.run_bind]
  rcases hv body s hbody with ⟨c, a, n, new, hn, hread, hvisit, htold⟩ |
    ⟨⟨e, hread⟩, e', s', hvisit⟩
  · rw [hread, hvisit]
    have hbody' : (s.advance n new).cursor.rest = body.drop (s.advance n new).cursor.offset := by
      show s.cursor.rest.drop n = body.drop (s.cursor.offset + n)
      rw [hbody, List.drop_drop]
    rcases hg c a _ htold body _ hbody' with ⟨d, b, m, more, hm, hread', hvisit', htold'⟩ |
      ⟨⟨e, hread'⟩, e', s', hvisit'⟩
    · refine .inl ⟨d, b, n + m, more ++ new, ?_, ?_, ?_, ?_⟩
      · have hlength : m ≤ (s.cursor.rest.drop n).length := hm
        rw [List.length_drop] at hlength
        omega
      · have hskip : (s.cursor.skip n).skip m = s.cursor.skip (n + m) :=
          congrArg Progress.cursor (Progress.advance_advance s n m new more)
        rw [← hskip]
        exact hread'
      · rw [← Progress.advance_advance]
        exact hvisit'
      · rw [List.reverse_append, List.map_append]
        exact htold'
    · exact .inr ⟨⟨e, hread'⟩, e', s', hvisit'⟩
  · rw [hread, hvisit]
    exact .inr ⟨⟨e, rfl⟩, e', s', rfl⟩

/-- The answer of a reader in another form. -/
theorem Mirrors.map {tells' : γ → β → List (SiteKind × UInt16) → Prop} (hv : Mirrors v r tells)
    {h : α → β} (hh : ∀ c a told, tells c a told → tells' c (h a) told) :
    Mirrors v (do return h (← r)) tells' := by
  rw [← bind_pure v]
  refine hv.bind fun c a told htold => mirrors_pure ?_
  rw [List.append_nil]
  exact hh c a told htold

/-- What both read is the same. -/
theorem mirrors_read {reader : Cursor → Except Error (γ × Cursor)} {bytes : γ → Bytes}
    (hreader : ∀ a c c', reader c = .ok (a, c') ↔ c.Reads (bytes a) c') :
    Mirrors (read reader) (reader : Reader γ) fun b a told => b = a ∧ told = [] := by
  intro body s _
  rw [exec_read]
  have hrun : StateT.run (reader : Reader γ) s.cursor = reader s.cursor := rfl
  rw [hrun]
  cases hread : reader s.cursor with
  | error e => exact .inr ⟨⟨e, rfl⟩, _, s, rfl⟩
  | ok answer =>
    obtain ⟨a, c⟩ := answer
    have hreads := (hreader a _ _).1 hread
    have hadvance := Progress.advance_of_reads hreads
    refine .inl ⟨a, a, (bytes a).length, [], ?_, ?_, ?_, rfl, rfl⟩
    · rw [hreads.length_rest]
      exact Nat.le_add_right _ _
    · rw [show c = s.cursor.skip (bytes a).length from congrArg Progress.cursor hadvance]
    · rw [← hadvance]

theorem mirrors_u8 : Mirrors u8 Reader.u8 fun b a told => b = a ∧ told = [] :=
  mirrors_read fun _ _ _ => Cursor.u8_ok

theorem mirrors_u16 : Mirrors u16 Reader.u16 fun b a told => b = a ∧ told = [] :=
  mirrors_read fun _ _ _ => Cursor.u16_ok

theorem mirrors_skip16 : Mirrors skip16 Reader.u16 fun _ _ told => told = [] := by
  rw [← bind_pure Reader.u16]
  refine mirrors_u16.bind ?_
  rintro b a told ⟨-, rfl⟩
  exact mirrors_pure rfl

/-- A word that is listed if `lists` holds of it. -/
theorem mirrors_word (kind : SiteKind) (lists : UInt16 → Prop) [DecidablePred lists] :
    Mirrors (do let pos ← position; let i ← u16; if lists i then site kind pos) Reader.u16
      fun _ i told => told = if lists i then [(kind, i)] else [] := by
  intro body s hbody
  have hexec : exec (do let pos ← position; let i ← u16; if lists i then site kind pos) s =
    exec (do let i ← u16; if lists i then site kind s.cursor.offset) s := rfl
  rw [hexec, exec_bind]
  rcases mirrors_u16 body s hbody with ⟨i, _, n, new, hn, hread, hvisit, rfl, htold⟩ |
    ⟨⟨e, hread⟩, e', s', hvisit⟩
  · obtain ⟨-, hi, hs'⟩ := exec_u16_advance hvisit
    obtain ⟨rfl, rfl⟩ := Progress.advance_inj hs'
    rw [hvisit]
    have hword : body.u16At s.cursor.offset = i := by
      rw [hi, hbody, Bytes.u16At_drop, Nat.add_zero]
    by_cases hlists : lists i
    · refine .inl ⟨(), i, 2, [⟨kind, s.cursor.offset, s.nested⟩], hn, hread, ?_, ?_⟩
      · simp only [if_pos hlists]
        rfl
      · show [(kind, body.u16At s.cursor.offset)] = _
        rw [if_pos hlists, hword]
    · refine .inl ⟨(), i, 2, [], hn, hread, ?_, ?_⟩
      · simp only [if_neg hlists]
        rfl
      · show [] = _
        rw [if_neg hlists]
  · rw [hvisit]
    exact .inr ⟨⟨e, hread⟩, e', s', rfl⟩

theorem mirrors_reference : Mirrors (do let _ ← reference) Reader.u16
    fun _ i told => told = if i ≠ 0 then [(.reference, i)] else [] := by
  intro body s hbody
  have hexec : exec (do let _ ← reference) s =
      exec (do let pos ← position; let i ← u16; if i ≠ 0 then site .reference pos) s := by
    show exec (do
        let _ ← (do
          let i ← u16
          if i ≠ 0 then site .reference s.cursor.offset
          return i)) s =
      exec (do let i ← u16; if i ≠ 0 then site .reference s.cursor.offset) s
    rw [bind_assoc]
    refine congrArg (exec · s) (bind_congr fun i => ?_)
    by_cases hi : i ≠ 0
    · simp only [if_pos hi, bind_assoc, pure_bind, bind_pure_unit]
    · simp only [if_neg hi, pure_bind]
  rw [hexec]
  exact mirrors_word .reference (· ≠ 0) body s hbody

theorem mirrors_offset : Mirrors offset Reader.u16 fun _ o told => told = [(.offset, o)] := by
  have hword := mirrors_word .offset fun _ => True
  simp only [if_true] at hword
  exact hword

/-- Repeating both, they report one after another. -/
theorem Mirrors.times {v : Visit Unit} {reports : α → List (SiteKind × UInt16)}
    (hv : Mirrors v r fun _ a told => told = reports a) (n : Nat) :
    Mirrors (times n v) (r.times n) fun _ answers told => told = answers.flatMap reports := by
  induction n with
  | zero => exact mirrors_pure rfl
  | succ n ih =>
    refine hv.bind ?_
    rintro _ a _ rfl
    refine ih.map ?_
    rintro _ answers _ rfl
    rfl

end Layout.Visit

/-! ## Stack maps -/

namespace StackMap

open Layout Layout.Visit

/-- What a walk reports of a type. -/
def VerificationType.reports : VerificationType → List (SiteKind × UInt16)
  | .object i => if i ≠ 0 then [(.reference, i)] else []
  | .uninitialized o => [(.offset, o)]
  | .plain _ => []

/-- The pool index of a type. -/
def VerificationType.index? : VerificationType → Option UInt16
  | .object i => some i
  | _ => none

/-- The code offset of a type. -/
def VerificationType.offset? : VerificationType → Option UInt16
  | .uninitialized o => some o
  | _ => none

/-- The types that frames list, one frame after another. -/
def typesOf (frames : List Frame) : List VerificationType := frames.flatMap fun f => f.kind.types

theorem mirrors_type :
    Mirrors verificationType VerificationType.read fun _ t told => told = t.reports := by
  refine mirrors_u8.bind ?_
  rintro tag _ _ ⟨rfl, rfl⟩
  by_cases hobject : tag = 7
  · rw [if_pos hobject, if_pos hobject]
    exact mirrors_reference.map fun _ i told htold => htold
  · rw [if_neg hobject, if_neg hobject]
    by_cases huninitialized : tag = 8
    · rw [if_pos huninitialized, if_pos huninitialized]
      exact mirrors_offset.map fun _ o told htold => htold
    · rw [if_neg huninitialized, if_neg huninitialized]
      by_cases hlarge : 8 < tag
      · rw [if_pos hlarge, if_pos hlarge]
        exact mirrors_throw
      · rw [if_neg hlarge, if_neg hlarge]
        exact mirrors_pure rfl

/-- A reader of which an answer may be a failure, too: that of a reserved frame is told without the
name of the table, which makes no difference to whether a walk fails. -/
def settled {α : Type} (r : Reader (Except Error α)) : Reader α := do
  match ← r with
  | .ok a => return a
  | .error e => throw e

section

variable {α β : Type}

theorem settled_ok (a : α) : settled (return .ok a) = return a := by rw [settled, pure_bind]

theorem settled_error (e : Error) :
    settled (return .error e : Reader (Except Error α)) = throw e := by
  rw [settled, pure_bind]

theorem settled_map_ok (r : Reader α) : settled (.ok <$> r) = r := by
  rw [settled, bind_map_left]
  exact bind_pure r

theorem settled_bind (r : Reader β) (f : β → Reader (Except Error α)) :
    settled (r >>= f) = r >>= fun b => settled (f b) := by
  unfold settled
  rw [bind_assoc]

/-- A failure that is passed on is one of the first reader. -/
theorem settled_passing (r : Reader (Except Error β))
    {k : Except Error β → Reader (Except Error α)} (hk : ∀ e, k (.error e) = return .error e) :
    settled (r >>= k) = settled r >>= fun b => settled (k (.ok b)) := by
  unfold settled
  rw [bind_assoc, bind_assoc]
  congr 1
  funext answer
  cases answer with
  | error e =>
    rw [hk, pure_bind]
    rfl
  | ok b => rw [pure_bind]

theorem settled_run {r : Reader (Except Error α)} {a : α} {c c' : Cursor} :
    (settled r).run c = .ok (a, c') ↔ r.run c = .ok (.ok a, c') := by
  rw [settled, Reader.run_bind_ok]
  constructor
  · rintro ⟨answer, c₁, hrun, hanswer⟩
    cases answer with
    | error e => exact (Reader.run_throw_ok.1 hanswer).elim
    | ok a' =>
      obtain ⟨rfl, rfl⟩ := Reader.run_pure_ok.1 hanswer
      exact hrun
  · intro hrun
    exact ⟨.ok a, c', hrun, Reader.run_pure_ok.2 ⟨rfl, rfl⟩⟩

end

theorem mirrors_one : Mirrors verificationType (VerificationType.read.times 1)
    fun _ ts told => told = ts.flatMap VerificationType.reports := by
  have hone : VerificationType.read.times 1 = do return [← VerificationType.read] := by
    simp only [Reader.times, pure_bind]
  rw [hone]
  refine mirrors_type.map ?_
  rintro _ t _ rfl
  rw [List.flatMap_singleton]

theorem mirrors_counted : Mirrors (counted verificationType)
    (do VerificationType.read.times (← Reader.u16).toNat)
    fun _ ts told => told = ts.flatMap VerificationType.reports := by
  refine mirrors_u16.bind ?_
  rintro n _ _ ⟨rfl, rfl⟩
  exact mirrors_type.times n.toNat

/-- A frame in its long form. -/
theorem mirrors_long {v : Visit Unit} {kind : Reader FrameKind}
    (hv : Mirrors v kind fun _ k told => told = k.types.flatMap VerificationType.reports) :
    Mirrors (do skip16; v) (settled (.ok <$> readLong kind))
      fun _ p told => told = p.1.types.flatMap VerificationType.reports := by
  rw [settled_map_ok]
  refine mirrors_skip16.bind ?_
  rintro _ delta _ rfl
  exact hv.map fun _ k told htold => htold

/-- A long frame without types. -/
theorem mirrors_bare {k : FrameKind} (h : k.types = []) :
    Mirrors skip16 (settled (.ok <$> readLong (return k)))
      fun _ p told => told = p.1.types.flatMap VerificationType.reports := by
  rw [← bind_pure_unit (x := skip16)]
  exact mirrors_long (mirrors_pure (by rw [h]; rfl))

theorem mirrors_frame :
    Mirrors frame (settled readFrame)
      fun _ p told => told = p.1.types.flatMap VerificationType.reports := by
  rw [readFrame_eq, settled_bind]
  refine mirrors_u8.bind ?_
  rintro kind _ _ ⟨rfl, rfl⟩
  unfold readBehind
  simp only
  by_cases h63 : kind ≤ 63
  · rw [if_pos h63, if_pos h63, settled_ok]
    exact mirrors_pure rfl
  rw [if_neg h63, if_neg h63]
  by_cases h127 : kind ≤ 127
  · rw [if_pos h127, if_pos h127, settled_bind]
    simp only [settled_ok]
    exact mirrors_one.map fun _ ts told htold => htold
  rw [if_neg h127, if_neg h127]
  by_cases h247 : kind = 247
  · rw [if_pos h247, if_pos h247]
    exact mirrors_long (mirrors_one.map fun _ ts told htold => htold)
  rw [if_neg h247, if_neg h247]
  by_cases hskipped : (248 ≤ kind && kind ≤ 251) = true
  -- A visit skips what a reader tells apart: frames that chop, and frames that are the same.
  · rw [if_pos hskipped]
    by_cases hchop : (248 ≤ kind && kind ≤ 250) = true
    · rw [if_pos hchop]
      exact mirrors_bare rfl
    · have h251 : kind = 251 := by
        simp only [Bool.and_eq_true, decide_eq_true_eq, UInt8.le_iff_toNat_le,
          UInt8.reduceToNat] at hskipped hchop
        refine UInt8.toNat_inj.1 ?_
        show kind.toNat = 251
        omega
      rw [if_neg hchop, if_pos h251]
      exact mirrors_bare rfl
  have hbare : ¬ (248 ≤ kind && kind ≤ 250) = true ∧ ¬ kind = 251 := by
    simp only [Bool.and_eq_true, decide_eq_true_eq, UInt8.le_iff_toNat_le,
      UInt8.reduceToNat, ← UInt8.toNat_inj] at hskipped ⊢
    omega
  rw [if_neg hskipped, if_neg hbare.1, if_neg hbare.2]
  by_cases happend : (252 ≤ kind && kind ≤ 254) = true
  · rw [if_pos happend, if_pos happend]
    exact mirrors_long ((mirrors_type.times _).map fun _ ts told htold => htold)
  rw [if_neg happend, if_neg happend]
  by_cases h255 : kind = 255
  · rw [if_pos h255, if_pos h255]
    have hcounted : (do
        let locals ← VerificationType.read.times (← Reader.u16).toNat
        let stack ← VerificationType.read.times (← Reader.u16).toNat
        return FrameKind.full locals stack : Reader FrameKind) = (do
          let locals ← (do VerificationType.read.times (← Reader.u16).toNat)
          let stack ← (do VerificationType.read.times (← Reader.u16).toNat)
          return FrameKind.full locals stack) := by
      simp only [bind_assoc]
    rw [hcounted]
    refine mirrors_long (mirrors_counted.bind ?_)
    rintro _ locals _ rfl
    refine mirrors_counted.map ?_
    rintro _ stack _ rfl
    exact List.flatMap_append.symm
  · rw [if_neg h255, if_neg h255, settled_error]
    exact mirrors_throw

/-- The frames of a stack map, in front of which one stands at `previous`. -/
theorem mirrors_frames (n : Nat) (previous : Int) :
    Mirrors (times n frame) (settled (readFrames previous n))
      fun _ frames told => told = (typesOf frames).flatMap VerificationType.reports := by
  induction n generalizing previous with
  | zero =>
    rw [readFrames, settled_ok]
    exact mirrors_pure rfl
  | succ n ih =>
    have hread : settled (readFrames previous (n + 1)) = (do
        let p ← settled readFrame
        return ⟨p.1, previous + 1 + p.2⟩ :: (← settled (readFrames (previous + 1 + p.2) n))) := by
      rw [readFrames, settled_passing readFrame ?passes]
      case passes => exact fun _ => rfl
      refine bind_congr fun p => ?_
      dsimp only
      rw [settled_passing (readFrames (previous + 1 + p.2) n) ?passes]
      case passes => exact fun _ => rfl
      simp only [settled_ok]
    rw [hread]
    refine mirrors_frame.bind ?_
    rintro _ ⟨kind, delta⟩ _ rfl
    refine (ih _).map ?_
    rintro _ rest _ rfl
    rw [typesOf, typesOf, List.flatMap_cons, List.flatMap_append]

/-- Reads the frames of a stack map. -/
def readTable : Reader (List Frame) := settled do readFrames (-1) (← Reader.u16).toNat

theorem mirrors_table : Mirrors (counted frame) readTable
    fun _ frames told => told = (typesOf frames).flatMap VerificationType.reports := by
  rw [readTable, settled_bind]
  refine mirrors_u16.bind ?_
  rintro n _ _ ⟨rfl, rfl⟩
  exact mirrors_frames n.toNat (-1)

/-! ## Walks of stack maps -/

/-- A stack map is read if its frames are, and if no byte is left behind them. -/
theorem parse_eq_ok {info : Bytes} {frames : List Frame} : parse info = .ok frames ↔
    ∃ c, readTable.run (opened info).cursor = .ok (frames, c) ∧ c.rest = [] := by
  unfold readTable
  simp only [settled_run]
  rw [show (opened info).cursor = Cursor.start info from rfl]
  unfold parse Reader.runOn
  simp only
  constructor
  · intro h
    split at h
    · cases h
    · cases h
    · rename_i frames' c hrun
      split at h
      · rename_i hempty
        obtain rfl := Except.ok.inj h
        exact ⟨c, hrun, List.isEmpty_iff.1 hempty⟩
      · cases h
  · rintro ⟨c, hrun, hrest⟩
    rw [hrun]
    simp only [hrest, List.isEmpty_nil, if_true]

/-- The visit of a stack map succeeds if its frames are read, and then it lists what their types
name. -/
theorem visit_iff_parse (pool : Pool) (info : Bytes) :
    ((visit pool "StackMapTable" info).failure = none ↔ ∃ frames, parse info = .ok frames) ∧
    ∀ frames, parse info = .ok frames →
      (visit pool "StackMapTable" info).sites.map (Site.report info) =
        (typesOf frames).flatMap VerificationType.reports := by
  have hbody : bodyOf pool (info.length + 2) "StackMapTable" = counted frame := rfl
  simp only [failure_eq_none, sites_visit, parse_eq_ok]
  rw [hbody]
  rcases mirrors_table info (opened info) rfl with
    ⟨_, frames, n, new, hn, hread, hvisit, htold⟩ | ⟨⟨e, hread⟩, stop, s', hvisit⟩
  -- Both come to the same place, so they leave equally many bytes behind them.
  · replace hn : n ≤ info.length := hn
    rw [hvisit, hread]
    have hend : ((opened info).advance n new).cursor.left = 0 ↔
        ((opened info).cursor.skip n).rest = [] := by
      rw [show ((opened info).advance n new).cursor.left = (info.length : Int) - (0 + n : Nat)
          from rfl, show ((opened info).cursor.skip n).rest = info.drop n from rfl,
        List.drop_eq_nil_iff]
      omega
    constructor
    · constructor
      · rintro ⟨_, heq, hleft⟩
        obtain ⟨-, rfl⟩ := Prod.mk.inj heq
        exact ⟨frames, _, rfl, hend.1 hleft⟩
      · rintro ⟨_, _, heq, hrest⟩
        obtain ⟨rfl, rfl⟩ := Prod.mk.inj (Except.ok.inj heq)
        exact ⟨_, rfl, hend.2 hrest⟩
    · rintro _ ⟨_, heq, -⟩
      obtain ⟨rfl, rfl⟩ := Prod.mk.inj (Except.ok.inj heq)
      rw [show ((opened info).advance n new).sites = new from List.append_nil new]
      exact htold
  · rw [hvisit, hread]
    constructor
    · refine iff_of_false ?_ ?_
      · rintro ⟨_, heq, -⟩
        cases heq
      · rintro ⟨_, _, heq, -⟩
        cases heq
    · rintro _ ⟨_, heq, -⟩
      cases heq

/-- What is told of frames: in order, the words that their types name, the pool indices other
than zero as references, and the code offsets as offsets. -/
structure Tells (frames : List Frame) (told : List (SiteKind × UInt16)) : Prop where
  all : told = (typesOf frames).flatMap VerificationType.reports
  references : (told.filter (·.1 = .reference)).map Prod.snd =
    ((typesOf frames).filterMap VerificationType.index?).filter (· ≠ 0)
  offsets : (told.filter (·.1 = .offset)).map Prod.snd =
    (typesOf frames).filterMap VerificationType.offset?

theorem references_reports (types : List VerificationType) :
    ((types.flatMap VerificationType.reports).filter (·.1 = .reference)).map Prod.snd =
      (types.filterMap VerificationType.index?).filter (· ≠ 0) := by
  induction types with
  | nil => rfl
  | cons t types ih =>
    rw [List.flatMap_cons, List.filter_append, List.map_append, ih]
    cases t with
    | plain tag => rfl
    | uninitialized o => rfl
    | object i =>
      have hindex : VerificationType.index? (.object i) = some i := rfl
      rw [List.filterMap_cons_some hindex]
      by_cases hi : i = 0 <;> simp [VerificationType.reports, hi]

theorem offsets_reports (types : List VerificationType) :
    ((types.flatMap VerificationType.reports).filter (·.1 = .offset)).map Prod.snd =
      types.filterMap VerificationType.offset? := by
  induction types with
  | nil => rfl
  | cons t types ih =>
    rw [List.flatMap_cons, List.filter_append, List.map_append, ih]
    cases t with
    | plain tag => rfl
    | uninitialized o => rfl
    | object i =>
      rw [List.filterMap_cons_none rfl]
      by_cases hi : i = 0 <;> simp [VerificationType.reports, hi]

theorem tells_reports (frames : List Frame) :
    Tells frames ((typesOf frames).flatMap VerificationType.reports) :=
  ⟨rfl, references_reports _, offsets_reports _⟩

/-- A walk of a stack map whose change does not fail succeeds if and only if its frames are
read.  Then it reports, in order, the pool indices other than zero and the code offsets that the
types of the frames name, and a change that stays within the sites finds these words there. -/
theorem walk_iff_parse (pool : Pool) (info : Bytes) :
    (∀ (σ : Type) (change : Site → Bytes → Change σ Bytes) (s : σ), Unfailing change →
      ((∃ answer, (rewrite pool "StackMapTable" change info).run s = .ok answer) ↔
        ∃ frames, parse info = .ok frames)) ∧
    ∀ frames, parse info = .ok frames →
      Tells frames ((visit pool "StackMapTable" info).sites.map (Site.report info)) ∧
      ∀ (σ : Type) (change : Site → Bytes → Change σ Bytes) (s : σ), Unfailing change →
        WritesOnly (fun _ => True) change →
        ∃ info' s' told, (rewrite pool "StackMapTable" (noting change) info).run (s, []) =
          .ok (info', s', told) ∧ Tells frames told := by
  obtain ⟨hfailure, hsites⟩ := visit_iff_parse pool info
  refine ⟨fun σ change s hunfailing => (hunfailing.rewrite_iff pool _ info s).trans hfailure,
    fun frames hframes => ?_⟩
  have htells : Tells frames ((visit pool "StackMapTable" info).sites.map (Site.report info)) :=
    hsites frames hframes ▸ tells_reports frames
  refine ⟨htells, fun σ change s hunfailing hwithin => ?_⟩
  obtain ⟨info', s', hrun⟩ := run_rewriteSites_noting hunfailing hwithin "StackMapTable"
    (ordered_visit pool "StackMapTable" info) info s []
  refine ⟨info', s', _, ?_, htells⟩
  rw [rewrite, StateT.run_bind, hrun, hfailure.2 ⟨frames, hframes⟩]
  rfl

/-- A table of two frames, with an object that has no class. -/
private def sampleTable : Bytes :=
  [0, 2, 255, 0, 4, 0, 3, 7, 0, 5, 7, 0, 0, 8, 0, 3, 0, 1, 1, 67, 7, 0, 7]

/-- A change that clears what it comes to is told what stood there. -/
theorem walk_iff_parse_cleared : ∃ info' s' told,
    (rewrite (.ofSlots []) "StackMapTable" (noting fun _ _ => return [0, 0]) sampleTable).run
      ((), []) = .ok (info', s', told) ∧
    told = [(.reference, 5), (.offset, 3), (.reference, 7)] := by
  have hparse : parse sampleTable = .ok [
      ⟨.full [.object 5, .object 0, .uninitialized 3] [.plain 1], 4⟩,
      ⟨.sameLocals1 false [.object 7], 8⟩] := rfl
  obtain ⟨hiff, htells⟩ := walk_iff_parse (.ofSlots []) sampleTable
  obtain ⟨info', s', told, hrun, htold⟩ := (htells _ hparse).2 Unit (fun _ _ => return [0, 0]) ()
    (fun _ _ _ => ⟨_, rfl⟩) fun site _ _ _ _ hrun =>
      .inr ⟨trivial, (Prod.mk.inj (Except.ok.inj hrun)).1 ▸ site.kind.two_le_width⟩
  exact ⟨info', s', told, hrun, htold.all.trans rfl⟩

end StackMap

end Cleartext
