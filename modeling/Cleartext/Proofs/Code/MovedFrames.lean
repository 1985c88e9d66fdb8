import Cleartext.Proofs.Code.Relocation

/-!
# Stack maps that are moved, exactly

What becomes of a stack map when its offsets are mapped, frame by frame, and when nothing
becomes of it.  The frames are written at their new offsets, so the map must give an offset
for every one that the frames name, and the frames must still follow one another
(`exists_encodeFrom_iff`).  They are read back settled (`settleAll`): a frame that can be
written in a short form is in its long form from now on if its distance has grown beyond
the short one (`extended?_settleAll`).

`relocate_exact` says all of this of any partial map of code offsets, and that a stack map is
written as it was read.
-/

namespace Cleartext.StackMap

open Reader

/-- Whether a frame is in its long form, if its kind has a short one too. -/
def FrameKind.extended? : FrameKind → Option Bool
  | .same extended | .sameLocals1 extended _ => some extended
  | _ => none

/-- The distances that frames behind a frame at `previous` are written with. -/
def distances : Int → List Frame → List Int
  | _, [] => []
  | previous, f :: rest => (f.offset - previous - 1) :: distances f.offset rest

variable {F : Int → Int → Prop} {map : OffsetMap} {previous : Int} {frames moved : List Frame}

/-! ## Long forms -/

theorem FrameKind.extended?_settle (k : FrameKind) (delta : Nat) :
    (k.settle delta).extended? = k.extended?.map (· || decide (63 < delta)) := by
  cases k <;> rfl

/-- Settled frames are in their long form if they were, and otherwise where their distance
asks for it. -/
theorem extended?_settleAll {bytes : Bytes} (h : encodeFrom previous frames = .ok bytes) :
    (settleAll previous frames).map (·.kind.extended?) =
      List.zipWith (fun form distance => form.map (· || decide (63 < distance)))
        (frames.map (·.kind.extended?)) (distances previous (settleAll previous frames)) := by
  induction frames generalizing previous bytes with
  | nil => rfl
  | cons f rest ih =>
    obtain ⟨hlt, -, -, more, -, hmore, -⟩ := encodeFrom_cons_ok.1 h
    have hlong : decide (63 < (f.offset - previous - 1).toNat) =
        decide (63 < f.offset - previous - 1) := decide_eq_decide.2 (by omega)
    simp only [settleAll, distances, List.map_cons, List.zipWith_cons_cons, ih hmore,
      FrameKind.extended?_settle, hlong]

/-- A frame whose offsets are mapped keeps its form. -/
theorem Frame.extended?_relocate {f f' : Frame} (h : f.relocate map = .ok f') :
    f'.kind.extended? = f.kind.extended? := by
  obtain ⟨kind, offset⟩ := f
  obtain ⟨o, -, h⟩ := Except.bind_ok.1 h
  cases kind with
  | same | chop | undefined =>
    obtain rfl := Except.pure_ok.1 h
    rfl
  | sameLocals1 | append =>
    obtain ⟨types, -, h⟩ := Except.bind_ok.1 h
    obtain rfl := Except.pure_ok.1 h
    rfl
  | full =>
    obtain ⟨locals, -, h⟩ := Except.bind_ok.1 h
    obtain ⟨stack, -, h⟩ := Except.bind_ok.1 h
    obtain rfl := Except.pure_ok.1 h
    rfl

/-! ## Frames that can be written -/

theorem FrameKind.Fits.exists_encode {k : FrameKind} {delta : Nat} (h : k.Fits delta) :
    ∃ bytes, k.encode delta = .ok bytes := by
  cases k with
  | same extended =>
    rw [encode]
    split <;> exact ⟨_, rfl⟩
  | sameLocals1 extended stack =>
    obtain ⟨-, -, hlength, -⟩ := h
    obtain ⟨t, rfl⟩ := List.length_eq_one_iff.1 hlength
    rw [encode]
    split <;> exact ⟨_, rfl⟩
  | chop count =>
    obtain ⟨-, hlow, hhigh⟩ := h
    exact ⟨_, if_neg (by simp only [Bool.or_eq_true, decide_eq_true_eq]; omega)⟩
  | append locals =>
    obtain ⟨-, hlow, hhigh, -⟩ := h
    exact ⟨_, if_neg (by simp only [Bool.or_eq_true, decide_eq_true_eq]; omega)⟩
  | full locals stack => exact ⟨_, rfl⟩
  | undefined => exact h.elim

/-- Frames that have moved can be written if and only if their offsets increase. -/
theorem exists_encodeFrom_iff {previous' : Int}
    (h : List.Forall₂ (Frame.Moved F) frames moved) (hframes : Chained previous frames)
    (hprevious : -1 ≤ previous') (hbound : ∀ f ∈ moved, f.offset < 65536) :
    (∃ bytes, encodeFrom previous' moved = .ok bytes) ↔
      (previous' :: moved.map Frame.offset).Pairwise (· < ·) := by
  induction h generalizing previous previous' with
  | nil => simp [encodeFrom]
  | @cons f f' frames moved hf _ ih =>
    obtain ⟨-, hfits, hrest⟩ := hframes
    obtain ⟨hf', hbound⟩ := List.forall_mem_cons.1 hbound
    rw [List.map_cons, List.pairwise_cons]
    constructor
    · rintro ⟨bytes, hbytes⟩
      obtain ⟨hlt, -, -, more, -, hmore, -⟩ := encodeFrom_cons_ok.1 hbytes
      have hincrease := (ih hrest (by omega) hbound).1 ⟨more, hmore⟩
      refine ⟨fun o ho => ?_, hincrease⟩
      rcases List.mem_cons.1 ho with rfl | ho
      · exact hlt
      · exact hlt.trans ((List.pairwise_cons.1 hincrease).1 o ho)
    · rintro ⟨hlow, hincrease⟩
      have hlt : previous' < f'.offset := hlow f'.offset List.mem_cons_self
      obtain ⟨more, hmore⟩ := (ih hrest (by omega) hbound).2 hincrease
      obtain ⟨first, hfirst⟩ := (hf.kind.fits hfits
        (show (f'.offset - previous' - 1).toNat < 65536 by omega)).exists_encode
      rw [FrameKind.encode_settle] at hfirst
      exact ⟨_, encodeFrom_cons_ok.2 ⟨hlt, by omega, first, more, hfirst, hmore, rfl⟩⟩

/-! ## Frames that can be moved -/

/-- A type can be moved if and only if the map has its offset. -/
theorem VerificationType.exists_relocate_iff {t : VerificationType} :
    (∃ t', t.relocate map = .ok t') ↔ ∀ o ∈ t.offsets, ∃ o', map o = .ok o' := by
  cases t with
  | plain tag => exact ⟨fun _ _ ho => (List.not_mem_nil ho).elim, fun _ => ⟨_, rfl⟩⟩
  | object index => exact ⟨fun _ _ ho => (List.not_mem_nil ho).elim, fun _ => ⟨_, rfl⟩⟩
  | uninitialized o =>
    simp only [VerificationType.offsets, List.forall_mem_singleton, VerificationType.relocate,
      Except.bind_ok, Except.pure_ok]
    constructor
    · rintro ⟨_, n, hn, -⟩
      exact ⟨n, hn⟩
    · rintro ⟨n, hn⟩
      exact ⟨_, n, hn, rfl⟩

theorem exists_relocateTypes_iff {types : List VerificationType} :
    (∃ types', types.mapM (·.relocate map) = .ok types') ↔
      ∀ o ∈ types.flatMap VerificationType.offsets, ∃ o', map o = .ok o' := by
  simp only [Except.exists_mapM_ok, VerificationType.exists_relocate_iff, List.forall_mem_flatMap]

/-- A frame can be moved if and only if the map has every offset that it names. -/
theorem Frame.exists_relocate_iff {f : Frame} :
    (∃ f', f.relocate map = .ok f') ↔ ∀ o ∈ f.offsets, ∃ o', map o = .ok o' := by
  obtain ⟨kind, offset⟩ := f
  rw [Frame.offsets, List.forall_mem_cons, ← exists_relocateTypes_iff]
  unfold Frame.relocate
  cases kind <;>
    simp only [FrameKind.types, List.mapM_append, List.mapM_nil, Except.bind_ok, Except.pure_ok] <;>
    grind

/-- Frames that follow one another and have been moved increase if and only if they can be
written. -/
theorem exists_encode_iff (hchained : Chained (-1) frames)
    (hmap : ∀ t t', map t = .ok t' → 0 ≤ t' ∧ t' < 65536)
    (hmoved : frames.mapM (·.relocate map) = .ok moved) :
    (∃ info, encode moved = .ok info) ↔ (moved.map Frame.offset).Pairwise (· < ·) := by
  have hframes : List.Forall₂ (Frame.Moved fun o o' => map o = .ok o') frames moved :=
    (Except.mapM_ok.1 hmoved).imp fun _ _ => Frame.relocate_ok fun t t' h => ⟨h, hmap t t' h⟩
  have hrange : ∀ f ∈ moved, 0 ≤ f.offset ∧ f.offset < 65536 := by
    intro f' hf'
    obtain ⟨f, -, hf⟩ := exists_mem_of_forall₂ hframes hf'
    exact hmap _ _ hf.offset
  have hwritten := exists_encodeFrom_iff hframes hchained le_rfl fun f hf => (hrange f hf).2
  rw [List.pairwise_cons, and_iff_right] at hwritten
  · rw [← hwritten]
    simp only [encode, Except.bind_ok, Except.pure_ok]
    constructor
    · rintro ⟨_, bytes, hbytes, -⟩
      exact ⟨bytes, hbytes⟩
    · rintro ⟨bytes, hbytes⟩
      exact ⟨_, bytes, hbytes, rfl⟩
  · intro o ho
    obtain ⟨f, hf, rfl⟩ := List.mem_map.1 ho
    exact lt_of_lt_of_le (by decide) (hrange f hf).1

/-! ## Stack maps -/

/-- A stack map is not moved if and only if an offset has no image or the images of the
frames' offsets do not increase. -/
theorem relocate_error_iff {info : Bytes} (hparse : parse info = .ok frames)
    (hmap : ∀ t t', map t = .ok t' → 0 ≤ t' ∧ t' < 65536) :
    (∃ e, relocate map info = .error e) ↔
      (∃ f ∈ frames, ∃ o ∈ f.offsets, ∃ e, map o = .error e) ∨
        ∃ offsets, List.Forall₂ (fun f o => map f.offset = .ok o) frames offsets ∧
          ¬ offsets.Pairwise (· < ·) := by
  have hrelocate {info' : Bytes} : relocate map info = .ok info' ↔
      ∃ moved, frames.mapM (·.relocate map) = .ok moved ∧ encode moved = .ok info' := by
    rw [relocate, hparse, Except.bind_ok]
    simp only [Except.ok.injEq, exists_eq_left', Except.bind_ok]
  have hevery : (∃ moved, frames.mapM (·.relocate map) = .ok moved) ↔
      ¬ ∃ f ∈ frames, ∃ o ∈ f.offsets, ∃ e, map o = .error e := by
    simp only [Except.exists_mapM_ok, Frame.exists_relocate_iff, Except.exists_error, not_exists,
      not_and, not_forall_not]
  by_cases hmoved : ∃ moved, frames.mapM (·.relocate map) = .ok moved
  · rw [or_iff_right (hevery.1 hmoved), Except.exists_error, not_iff_comm]
    obtain ⟨moved, hmoved⟩ := hmoved
    have himages : frames.mapM (fun f => map f.offset) = .ok (moved.map Frame.offset) := by
      rw [Except.mapM_ok, List.forall₂_map_right_iff]
      exact (Except.mapM_ok.1 hmoved).imp fun _ _ h =>
        (Frame.relocate_ok (fun t t' ht => ⟨ht, hmap t t' ht⟩) h).offset
    simp only [hrelocate, hmoved, Except.ok.injEq, exists_eq_left',
      exists_encode_iff (parse_ok.1 hparse).2.1 hmap hmoved, ← Except.mapM_ok, himages, not_not]
  · refine iff_of_true (Except.exists_error.2 ?_) (.inl (not_not.1 fun h => hmoved (hevery.2 h)))
    rintro ⟨info', h⟩
    obtain ⟨moved, h, -⟩ := hrelocate.1 h
    exact hmoved ⟨moved, h⟩

/-- What is accepted as a stack map is written as it was read.  It is moved by a map that has
every offset in it, if the frames still follow one another; the frames that are read back are
the old ones at their new offsets, in their long form if they were or if it takes a long form
to write their distance. -/
theorem relocate_exact :
    (∀ info frames, parse info = .ok frames → encode frames = .ok info) ∧
      ∀ map : OffsetMap, (∀ t t', map t = .ok t' → 0 ≤ t' ∧ t' < 65536) →
        ∀ info frames, parse info = .ok frames →
          (∀ info', relocate map info = .ok info' → ∃ frames', parse info' = .ok frames' ∧
            List.Forall₂ (Frame.Moved fun o o' => map o = .ok o') frames frames' ∧
            frames'.map (·.kind.extended?) =
              List.zipWith (fun form distance => form.map (· || decide (63 < distance)))
                (frames.map (·.kind.extended?)) (distances (-1) frames')) ∧
          ((∃ e, relocate map info = .error e) ↔
            (∃ f ∈ frames, ∃ o ∈ f.offsets, ∃ e, map o = .error e) ∨
              ∃ offsets, List.Forall₂ (fun f o => map f.offset = .ok o) frames offsets ∧
                ¬ offsets.Pairwise (· < ·)) := by
  refine ⟨fun info frames h => (parse_ok.1 h).2.2, fun map hmap info frames hparse =>
    ⟨fun info' h => ?_, relocate_error_iff hparse hmap⟩⟩
  rw [relocate, hparse, Except.bind_ok] at h
  simp only [Except.ok.injEq, exists_eq_left', Except.bind_ok] at h
  obtain ⟨moved, hmoved, hencode⟩ := h
  obtain ⟨hparse', hframes⟩ :=
    parse_relocated (fun t t' ht => ⟨ht, hmap t t' ht⟩) hparse hmoved hencode
  obtain ⟨bytes, hbytes, -⟩ := Except.bind_ok.1 hencode
  refine ⟨_, hparse', hframes, ?_⟩
  have hforms : moved.map (·.kind.extended?) = frames.map (·.kind.extended?) := by
    rw [← List.forall₂_eq_eq_eq, List.forall₂_map_left_iff, List.forall₂_map_right_iff]
    exact (Except.mapM_ok.1 hmoved).flip.imp fun _ _ => Frame.extended?_relocate
  rw [extended?_settleAll hbytes, hforms]

/-- A stack map of two frames in short forms, 39 apart. -/
private def nearFrames : List Frame :=
  [⟨.same false, 10⟩, ⟨.sameLocals1 false [.uninitialized 3], 50⟩]

/-- Moves the first offsets twice as far. -/
private def doubling : OffsetMap :=
  fun o => if 0 ≤ o ∧ o < 100 then .ok (2 * o) else .error .collapsed

/-- The second frame gets into its long form: it is 79 behind the first one. -/
theorem relocate_exact_doubling :
    relocate doubling [0, 2, 10, 103, 8, 0, 3] = .ok [0, 2, 20, 247, 0, 79, 8, 0, 6] ∧
      ∃ frames', parse [0, 2, 20, 247, 0, 79, 8, 0, 6] = .ok frames' ∧
        List.Forall₂ (Frame.Moved fun o o' => doubling o = .ok o') nearFrames frames' ∧
        frames'.map (·.kind.extended?) = [some false, some true] := by
  have hmap : ∀ t t', doubling t = .ok t' → 0 ≤ t' ∧ t' < 65536 := by
    intro t t' h
    unfold doubling at h
    split at h
    · obtain rfl := Except.ok.inj h
      omega
    · cases h
  have hparse : parse [0, 2, 10, 103, 8, 0, 3] = .ok nearFrames := rfl
  have hrelocate : relocate doubling [0, 2, 10, 103, 8, 0, 3] =
    .ok [0, 2, 20, 247, 0, 79, 8, 0, 6] := rfl
  obtain ⟨frames', hparse', hmoved, hforms⟩ :=
    (relocate_exact.2 doubling hmap _ nearFrames hparse).1 _ hrelocate
  refine ⟨hrelocate, frames', hparse', hmoved, ?_⟩
  obtain rfl : _ = frames' := Except.ok.inj hparse'
  rfl

end Cleartext.StackMap
