import Cleartext.Code.StackMap
import Cleartext.Proofs.Reading
import Mathlib.Tactic.SplitIfs

/-!
# Reading, writing and moving stack maps

The reader of a stack map accepts exactly what the writer produces.  `parse_ok`
says which frames these are: their offsets increase, and every frame fits its
distance from the one before it.

A frame has a short and a long form, and moving it may take it out of reach of
the short one.  `FrameKind.settle` is the frame as it is read back then.  It
says the same of locals and stack, so `relocate_ok` can say that the frames of
a moved stack map are the old ones at their new offsets.
-/

namespace Cleartext.StackMap

open Reader

namespace VerificationType

/-- A type that a stack map can hold: a plain one has a tag of its own. -/
def Proper : VerificationType → Prop
  | plain tag => tag < 7
  | object _ | uninitialized _ => True

/-- The reader of a type accepts exactly its bytes. -/
theorem read_ok {t : VerificationType} {c c' : Cursor} :
    read.run c = .ok (t, c') ↔ t.Proper ∧ c.Reads t.encode c' := by
  rw [read, run_bind_ok]
  constructor
  · intro h
    obtain ⟨tag, c₁, htag, h⟩ := h
    rw [run_u8_ok] at htag
    split at h
    · rename_i hobject
      simp only [run_bind_ok, run_pure_ok, run_u16_ok] at h
      obtain ⟨i, c₂, hi, rfl, rfl⟩ := h
      rw [hobject] at htag
      exact ⟨True.intro, Cursor.reads_cons.2 ⟨c₁, htag, hi⟩⟩
    · split at h
      · rename_i huninitialized
        simp only [run_bind_ok, run_pure_ok, run_u16_ok] at h
        obtain ⟨o, c₂, ho, rfl, rfl⟩ := h
        rw [huninitialized] at htag
        exact ⟨True.intro, Cursor.reads_cons.2 ⟨c₁, htag, ho⟩⟩
      · split at h
        · exact (run_throw_ok.1 h).elim
        · rename_i hobject huninitialized hlarge
          obtain ⟨rfl, rfl⟩ := run_pure_ok.1 h
          refine ⟨?_, htag⟩
          show tag < 7
          rw [UInt8.lt_iff_toNat_lt] at hlarge ⊢
          rw [← UInt8.toNat_inj] at hobject huninitialized
          simp only [UInt8.reduceToNat] at *
          omega
  · intro h
    obtain ⟨hproper, hreads⟩ := h
    cases t with
    | object i =>
      obtain ⟨c₁, htag, hi⟩ := Cursor.reads_cons.1 hreads
      refine ⟨7, c₁, run_u8_ok.2 htag, ?_⟩
      rw [if_pos rfl, run_bind_ok]
      exact ⟨i, c', run_u16_ok.2 hi, run_pure_ok.2 ⟨rfl, rfl⟩⟩
    | uninitialized o =>
      obtain ⟨c₁, htag, ho⟩ := Cursor.reads_cons.1 hreads
      refine ⟨8, c₁, run_u8_ok.2 htag, ?_⟩
      rw [if_neg (by decide), if_pos rfl, run_bind_ok]
      exact ⟨o, c', run_u16_ok.2 ho, run_pure_ok.2 ⟨rfl, rfl⟩⟩
    | plain tag =>
      have hlt : tag.toNat < 7 := UInt8.lt_iff_toNat_lt.1 hproper
      refine ⟨tag, c', run_u8_ok.2 hreads, ?_⟩
      have hne (n : UInt8) (hn : 7 ≤ n.toNat) : tag ≠ n := by
        rintro rfl
        omega
      rw [if_neg (hne 7 (by decide)), if_neg (hne 8 (by decide)), if_neg]
      · exact run_pure_ok.2 ⟨rfl, rfl⟩
      · rw [UInt8.lt_iff_toNat_lt]
        simp only [UInt8.reduceToNat]
        omega

end VerificationType

/-- The reader of types accepts exactly their bytes. -/
theorem readTypes_ok {n : Nat} {types : List VerificationType} {c c' : Cursor} :
    (VerificationType.read.times n).run c = .ok (types, c') ↔
      types.length = n ∧ (∀ t ∈ types, t.Proper) ∧
        c.Reads (types.flatMap VerificationType.encode) c' :=
  run_times_ok (fun _ _ _ _ => VerificationType.read_ok) n c types c' le_rfl

namespace FrameKind

/-- A frame that can stand `delta` behind the offset after the previous one.  One
that is not in its long form has its distance in the first byte. -/
def Fits (delta : Nat) : FrameKind → Prop
  | same extended => delta < 65536 ∧ (extended = false → delta ≤ 63)
  | sameLocals1 extended stack =>
    delta < 65536 ∧ (extended = false → delta ≤ 63) ∧ stack.length = 1 ∧ ∀ t ∈ stack, t.Proper
  | chop count => delta < 65536 ∧ 1 ≤ count ∧ count ≤ 3
  | append locals =>
    delta < 65536 ∧ 1 ≤ locals.length ∧ locals.length ≤ 3 ∧ ∀ t ∈ locals, t.Proper
  | full locals stack =>
    delta < 65536 ∧ (locals.length < 65536 ∧ ∀ t ∈ locals, t.Proper) ∧
      stack.length < 65536 ∧ ∀ t ∈ stack, t.Proper
  | undefined => False

theorem encode_chop {count : Int} {delta : Nat} (hlow : 1 ≤ count) (hhigh : count ≤ 3) :
    (chop count).encode delta =
      .ok ((251 - count.toNat).toUInt8 :: Bytes.ofU16 delta.toUInt16) := by
  have hrange : ¬ (count < 1 || 3 < count) = true := by
    simp only [Bool.or_eq_true, decide_eq_true_eq]
    omega
  rw [encode, if_neg hrange]

theorem encode_append {locals : List VerificationType} {delta : Nat} (hlow : 1 ≤ locals.length)
    (hhigh : locals.length ≤ 3) :
    (append locals).encode delta =
      .ok ((251 + locals.length).toUInt8 ::
        (Bytes.ofU16 delta.toUInt16 ++ locals.flatMap VerificationType.encode)) := by
  have hrange : ¬ (locals.length < 1 || 3 < locals.length) = true := by
    simp only [Bool.or_eq_true, decide_eq_true_eq]
    omega
  rw [encode, if_neg hrange, List.cons_append]

end FrameKind

/-- What follows the first byte of a long frame. -/
theorem readLong_ok {kind : Reader FrameKind} {k : FrameKind} {delta : Nat} {c c' : Cursor} :
    (readLong kind).run c = .ok ((k, delta), c') ↔
      delta < 65536 ∧ ∃ c₁, c.Reads (Bytes.ofU16 delta.toUInt16) c₁ ∧ kind.run c₁ = .ok (k, c') := by
  rw [readLong]
  simp only [run_bind_ok, run_pure_ok, run_u16_ok, Prod.mk.injEq]
  constructor
  · intro h
    obtain ⟨d, c₁, hd, _, c₂, hkind, ⟨rfl, hdelta⟩, rfl⟩ := h
    obtain ⟨hlt, rfl⟩ := Bytes.eq_toNat_u16.1 hdelta.symm
    exact ⟨hlt, c₁, hd, hkind⟩
  · intro h
    obtain ⟨hlt, c₁, hd, hkind⟩ := h
    exact ⟨_, c₁, hd, k, c', hkind, ⟨rfl, (Bytes.eq_toNat_u16.2 ⟨hlt, rfl⟩).symm⟩, rfl⟩

/-- A frame behind its first byte. -/
def readBehind (kind : UInt8) : Reader (Except Error (FrameKind × Nat)) :=
  let types (n : Nat) := VerificationType.read.times n
  if kind ≤ 63 then return .ok (.same false, kind.toNat)
  else if kind ≤ 127 then return .ok (.sameLocals1 false (← types 1), kind.toNat - 64)
  else if kind = 247 then .ok <$> readLong (return .sameLocals1 true (← types 1))
  else if 248 ≤ kind && kind ≤ 250 then .ok <$> readLong (return .chop (251 - kind.toNat))
  else if kind = 251 then .ok <$> readLong (return .same true)
  else if 252 ≤ kind && kind ≤ 254 then
    .ok <$> readLong (return .append (← types (kind.toNat - 251)))
  else if kind = 255 then
    .ok <$> readLong (do
      let locals ← types (← Reader.u16).toNat
      let stack ← types (← Reader.u16).toNat
      return .full locals stack)
  else return .error (.malformed (.reservedFrame kind))

theorem readFrame_eq : readFrame = Reader.u8 >>= readBehind := rfl

private theorem readLongOk_ok {kind : Reader FrameKind} {k : FrameKind} {delta : Nat}
    {c c' : Cursor} :
    (.ok <$> readLong kind : Reader (Except Error (FrameKind × Nat))).run c =
        .ok (.ok (k, delta), c') ↔
      delta < 65536 ∧ ∃ c₁, c.Reads (Bytes.ofU16 delta.toUInt16) c₁ ∧
        kind.run c₁ = .ok (k, c') := by
  rw [run_map_ok]
  simp [readLong_ok]

/-- What follows the first byte decides the frame. -/
private theorem readBehind_sound {kind : UInt8} {k : FrameKind} {delta : Nat} {c c₁ c' : Cursor}
    (hkind : c.Reads [kind] c₁) (h : (readBehind kind).run c₁ = .ok (.ok (k, delta), c')) :
    k.Fits delta ∧ ∃ bytes, k.encode delta = .ok bytes ∧ c.Reads bytes c' := by
  have hlong {bytes : Bytes} {c₂ : Cursor} (hdelta : c₁.Reads (Bytes.ofU16 delta.toUInt16) c₂)
      (hbytes : c₂.Reads bytes c') :
      c.Reads (kind :: (Bytes.ofU16 delta.toUInt16 ++ bytes)) c' :=
    Cursor.reads_cons.2 ⟨c₁, hkind, Cursor.reads_append.2 ⟨c₂, hdelta, hbytes⟩⟩
  have hheader {n : Nat} (hn : n = kind.toNat) : n.toUInt8 = kind := hn ▸ UInt8.ofNat_toNat
  unfold readBehind at h
  simp only at h
  split_ifs at h with hsame hlocals1 hlocals1Long hchop hsameLong happend hfull
  · obtain ⟨hk, rfl⟩ := run_pure_ok.1 h
    obtain ⟨rfl, rfl⟩ := Prod.mk.inj (Except.ok.inj hk)
    have hle : kind.toNat ≤ 63 := UInt8.le_iff_toNat_le.1 hsame
    refine ⟨⟨by omega, fun _ => hle⟩, [kind], ?_, hkind⟩
    simp [FrameKind.encode, hle]
  · simp only [run_bind_ok, run_pure_ok, readTypes_ok, Except.ok.injEq, Prod.mk.injEq] at h
    obtain ⟨stack, c₂, ⟨hlength, hproper, hreads⟩, ⟨rfl, rfl⟩, rfl⟩ := h
    obtain ⟨t, rfl⟩ := List.length_eq_one_iff.1 hlength
    simp only [UInt8.le_iff_toNat_le, UInt8.reduceToNat] at hsame hlocals1
    have hdelta : kind.toNat - 64 ≤ 63 := by omega
    refine ⟨⟨by omega, fun _ => hdelta, rfl, hproper⟩, kind :: t.encode, ?_, ?_⟩
    · have hbyte : (64 + (kind.toNat - 64)).toUInt8 = kind := hheader (by omega)
      simp [FrameKind.encode, hdelta, hbyte]
    · rw [List.flatMap_singleton] at hreads
      exact Cursor.reads_cons.2 ⟨c₁, hkind, hreads⟩
  · subst hlocals1Long
    obtain ⟨hdelta, c₂, hreads, h⟩ := readLongOk_ok.1 h
    simp only [run_bind_ok, run_pure_ok, readTypes_ok] at h
    obtain ⟨stack, c₃, ⟨hlength, hproper, htypes⟩, rfl, rfl⟩ := h
    obtain ⟨t, rfl⟩ := List.length_eq_one_iff.1 hlength
    rw [List.flatMap_singleton] at htypes
    exact ⟨⟨hdelta, by simp, rfl, hproper⟩, _, by simp [FrameKind.encode], hlong hreads htypes⟩
  · simp only [Bool.and_eq_true, decide_eq_true_eq, UInt8.le_iff_toNat_le,
      UInt8.reduceToNat] at hchop
    obtain ⟨hdelta, c₂, hreads, h⟩ := readLongOk_ok.1 h
    obtain ⟨rfl, rfl⟩ := run_pure_ok.1 h
    refine ⟨⟨hdelta, by omega, by omega⟩, kind :: (Bytes.ofU16 delta.toUInt16 ++ []), ?_,
      hlong hreads (Cursor.reads_nil.2 rfl)⟩
    rw [FrameKind.encode_chop (by omega) (by omega), hheader (by omega), List.append_nil]
  · subst hsameLong
    obtain ⟨hdelta, c₂, hreads, h⟩ := readLongOk_ok.1 h
    obtain ⟨rfl, rfl⟩ := run_pure_ok.1 h
    refine ⟨⟨hdelta, by simp⟩, 251 :: (Bytes.ofU16 delta.toUInt16 ++ []), ?_,
      hlong hreads (Cursor.reads_nil.2 rfl)⟩
    simp [FrameKind.encode]
  · simp only [Bool.and_eq_true, decide_eq_true_eq, UInt8.le_iff_toNat_le,
      UInt8.reduceToNat] at happend
    obtain ⟨hdelta, c₂, hreads, h⟩ := readLongOk_ok.1 h
    simp only [run_bind_ok, run_pure_ok, readTypes_ok] at h
    obtain ⟨locals, c₃, ⟨hlength, hproper, htypes⟩, rfl, rfl⟩ := h
    refine ⟨⟨hdelta, by omega, by omega, hproper⟩, _, ?_, hlong hreads htypes⟩
    rw [FrameKind.encode_append (by omega) (by omega), hheader (by omega)]
  · subst hfull
    obtain ⟨hdelta, c₂, hreads, h⟩ := readLongOk_ok.1 h
    simp only [run_bind_ok, run_pure_ok, run_u16_ok, readTypes_ok] at h
    obtain ⟨n, c₃, hn, locals, c₄, ⟨hlocals, hlocalsProper, hlocalsReads⟩, m, c₅, hm,
      stack, c₆, ⟨hstack, hstackProper, hstackReads⟩, rfl, rfl⟩ := h
    obtain ⟨hlocalsLt, rfl⟩ := Bytes.eq_toNat_u16.1 hlocals
    obtain ⟨hstackLt, rfl⟩ := Bytes.eq_toNat_u16.1 hstack
    refine ⟨⟨hdelta, ⟨hlocalsLt, hlocalsProper⟩, hstackLt, hstackProper⟩, _, rfl, ?_⟩
    simp only [List.cons_append, List.append_assoc]
    refine hlong hreads ?_
    simp only [Cursor.reads_append]
    exact ⟨c₃, hn, c₄, hlocalsReads, c₅, hm, hstackReads⟩
  · obtain ⟨hk, -⟩ := run_pure_ok.1 h
    cases hk

/-- The frame is read back from its bytes. -/
private theorem readBehind_complete {k : FrameKind} {delta : Nat} {bytes : Bytes} {c c' : Cursor}
    (hfits : k.Fits delta) (hencode : k.encode delta = .ok bytes) (hreads : c.Reads bytes c') :
    ∃ kind c₁, c.Reads [kind] c₁ ∧ (readBehind kind).run c₁ = .ok (.ok (k, delta), c') := by
  cases k with
  | same extended =>
    cases extended with
    | false =>
      have hle := hfits.2 rfl
      obtain rfl : [delta.toUInt8] = bytes := by simpa [FrameKind.encode, hle] using hencode
      refine ⟨_, c', hreads, ?_⟩
      have htoNat : delta.toUInt8.toNat = delta := UInt8.toNat_ofNat_of_lt' (by show delta < 256; omega)
      rw [readBehind, if_pos (UInt8.le_iff_toNat_le.2 (by rw [htoNat]; exact hle)), htoNat]
      exact run_pure_ok.2 ⟨rfl, rfl⟩
    | true =>
      obtain rfl : 251 :: Bytes.ofU16 delta.toUInt16 = bytes := by
        simpa [FrameKind.encode] using hencode
      obtain ⟨c₁, hheader, hdelta⟩ := Cursor.reads_cons.1 hreads
      refine ⟨251, c₁, hheader, ?_⟩
      exact readLongOk_ok.2 ⟨hfits.1, c', hdelta, run_pure_ok.2 ⟨rfl, rfl⟩⟩
  | sameLocals1 extended stack =>
    obtain ⟨hdelta, hshort, hlength, hproper⟩ := hfits
    obtain ⟨t, rfl⟩ := List.length_eq_one_iff.1 hlength
    have htypes {c₁ : Cursor} (h : c₁.Reads t.encode c') :
        (VerificationType.read.times 1).run c₁ = .ok ([t], c') :=
      readTypes_ok.2 ⟨rfl, hproper, by rwa [List.flatMap_singleton]⟩
    cases extended with
    | false =>
      have hle := hshort rfl
      obtain rfl : (64 + delta).toUInt8 :: t.encode = bytes := by
        simpa [FrameKind.encode, hle] using hencode
      obtain ⟨c₁, hheader, ht⟩ := Cursor.reads_cons.1 hreads
      refine ⟨_, c₁, hheader, ?_⟩
      have htoNat : (64 + delta).toUInt8.toNat = 64 + delta :=
        UInt8.toNat_ofNat_of_lt' (by show 64 + delta < 256; omega)
      have hlow : ¬ (64 + delta).toUInt8 ≤ 63 := by
        rw [UInt8.le_iff_toNat_le, htoNat]
        show ¬ 64 + delta ≤ 63
        omega
      have hhigh : (64 + delta).toUInt8 ≤ 127 := by
        rw [UInt8.le_iff_toNat_le, htoNat]
        show 64 + delta ≤ 127
        omega
      rw [readBehind, if_neg hlow, if_pos hhigh, htoNat, run_bind_ok]
      exact ⟨[t], c', htypes ht, run_pure_ok.2 ⟨by rw [Nat.add_sub_cancel_left], rfl⟩⟩
    | true =>
      obtain rfl : 247 :: (Bytes.ofU16 delta.toUInt16 ++ t.encode) = bytes := by
        simpa [FrameKind.encode] using hencode
      obtain ⟨c₁, hheader, h⟩ := Cursor.reads_cons.1 hreads
      obtain ⟨c₂, hlong, ht⟩ := Cursor.reads_append.1 h
      exact ⟨247, c₁, hheader, readLongOk_ok.2 ⟨hdelta, c₂, hlong,
        run_bind_ok.2 ⟨[t], c', htypes ht, run_pure_ok.2 ⟨rfl, rfl⟩⟩⟩⟩
  | chop count =>
    obtain ⟨hdelta, hlow, hhigh⟩ := hfits
    rw [FrameKind.encode_chop hlow hhigh] at hencode
    obtain rfl := Except.ok.inj hencode
    obtain ⟨c₁, hheader, hlong⟩ := Cursor.reads_cons.1 hreads
    refine ⟨_, c₁, hheader, ?_⟩
    obtain rfl | rfl | rfl : count = 1 ∨ count = 2 ∨ count = 3 := by omega
    all_goals exact readLongOk_ok.2 ⟨hdelta, c', hlong, run_pure_ok.2 ⟨rfl, rfl⟩⟩
  | append locals =>
    obtain ⟨hdelta, hlow, hhigh, hproper⟩ := hfits
    rw [FrameKind.encode_append hlow hhigh] at hencode
    obtain rfl := Except.ok.inj hencode
    obtain ⟨c₁, hheader, h⟩ := Cursor.reads_cons.1 hreads
    obtain ⟨c₂, hlong, htypes⟩ := Cursor.reads_append.1 h
    have hread : (VerificationType.read.times locals.length).run c₂ = .ok (locals, c') :=
      readTypes_ok.2 ⟨rfl, hproper, htypes⟩
    refine ⟨_, c₁, hheader, ?_⟩
    obtain hlength | hlength | hlength : locals.length = 1 ∨ locals.length = 2 ∨
        locals.length = 3 := by omega
    all_goals
      rw [hlength] at hread ⊢
      exact readLongOk_ok.2 ⟨hdelta, c₂, hlong,
        run_bind_ok.2 ⟨locals, c', hread, run_pure_ok.2 ⟨rfl, rfl⟩⟩⟩
  | full locals stack =>
    obtain ⟨hdelta, ⟨hlocals, hlocalsProper⟩, hstack, hstackProper⟩ := hfits
    obtain rfl := Except.ok.inj hencode
    simp only [List.cons_append, List.append_assoc] at hreads
    obtain ⟨c₁, hheader, h⟩ := Cursor.reads_cons.1 hreads
    simp only [Cursor.reads_append] at h
    obtain ⟨c₂, hlong, c₃, hn, c₄, hlocalsReads, c₅, hm, hstackReads⟩ := h
    refine ⟨255, c₁, hheader, readLongOk_ok.2 ⟨hdelta, c₂, hlong, ?_⟩⟩
    simp only [run_bind_ok, run_pure_ok, run_u16_ok, readTypes_ok]
    exact ⟨_, c₃, hn, locals, c₄, ⟨Bytes.eq_toNat_u16.2 ⟨hlocals, rfl⟩, hlocalsProper, hlocalsReads⟩,
      _, c₅, hm, stack, c', ⟨Bytes.eq_toNat_u16.2 ⟨hstack, rfl⟩, hstackProper, hstackReads⟩, rfl, rfl⟩
  | undefined => exact hfits.elim

/-- The reader of a frame accepts exactly its bytes. -/
theorem readFrame_ok {k : FrameKind} {delta : Nat} {c c' : Cursor} :
    readFrame.run c = .ok (.ok (k, delta), c') ↔
      k.Fits delta ∧ ∃ bytes, k.encode delta = .ok bytes ∧ c.Reads bytes c' := by
  rw [readFrame_eq, run_bind_ok]
  constructor
  · intro h
    obtain ⟨kind, c₁, hkind, h⟩ := h
    exact readBehind_sound (run_u8_ok.1 hkind) h
  · intro h
    obtain ⟨hfits, bytes, hencode, hreads⟩ := h
    obtain ⟨kind, c₁, hkind, h⟩ := readBehind_complete hfits hencode hreads
    exact ⟨kind, c₁, run_u8_ok.2 hkind, h⟩

/-! ## Whole stack maps -/

/-- Frames behind a frame at `previous`: their offsets increase, and every frame
fits its distance. -/
def Chained : Int → List Frame → Prop
  | _, [] => True
  | previous, f :: rest =>
    previous < f.offset ∧ f.kind.Fits (f.offset - previous - 1).toNat ∧ Chained f.offset rest

theorem encodeFrom_cons_ok {previous : Int} {f : Frame} {rest : List Frame} {bytes : Bytes} :
    encodeFrom previous (f :: rest) = .ok bytes ↔
      previous < f.offset ∧ f.offset - previous - 1 ≤ 65535 ∧
        ∃ first more, f.kind.encode (f.offset - previous - 1).toNat = .ok first ∧
          encodeFrom f.offset rest = .ok more ∧ bytes = first ++ more := by
  rw [encodeFrom]
  by_cases hrange : f.offset - previous - 1 < 0 ∨ 0xffff < f.offset - previous - 1
  · rw [if_pos (by simpa only [Bool.or_eq_true, decide_eq_true_eq] using hrange)]
    constructor
    · intro h
      cases h
    · intro h
      omega
  · rw [if_neg (by simpa only [Bool.or_eq_true, decide_eq_true_eq] using hrange)]
    simp only [Except.bind_ok, Except.pure_ok]
    constructor
    · intro h
      obtain ⟨first, hfirst, more, hmore, rfl⟩ := h
      exact ⟨by omega, by omega, first, more, hfirst, hmore, rfl⟩
    · intro h
      obtain ⟨-, -, first, more, hfirst, hmore, rfl⟩ := h
      exact ⟨first, hfirst, more, hmore, rfl⟩

theorem FrameKind.Fits.lt {k : FrameKind} {delta : Nat} (h : k.Fits delta) : delta < 65536 := by
  cases k with
  | undefined => exact h.elim
  | _ => exact h.1

/-- The reader of frames accepts exactly their bytes. -/
theorem readFrames_ok {n : Nat} {previous : Int} {frames : List Frame} {c c' : Cursor} :
    (readFrames previous n).run c = .ok (.ok frames, c') ↔
      frames.length = n ∧ Chained previous frames ∧
        ∃ bytes, encodeFrom previous frames = .ok bytes ∧ c.Reads bytes c' := by
  induction n generalizing previous frames c with
  | zero =>
    rw [readFrames, run_pure_ok]
    constructor
    · intro h
      obtain ⟨hframes, rfl⟩ := h
      obtain rfl := Except.ok.inj hframes
      exact ⟨rfl, True.intro, [], rfl, Cursor.reads_nil.2 rfl⟩
    · intro h
      obtain ⟨hlength, -, bytes, hencode, hreads⟩ := h
      obtain rfl := List.length_eq_zero_iff.1 hlength
      obtain rfl := Except.ok.inj hencode
      exact ⟨rfl, Cursor.reads_nil.1 hreads⟩
  | succ n ih =>
    rw [readFrames, run_bind_ok]
    constructor
    · intro h
      obtain ⟨answer, c₁, hfirst, h⟩ := h
      cases answer with
      | error e =>
        obtain ⟨hanswer, -⟩ := run_pure_ok.1 h
        cases hanswer
      | ok frame =>
        obtain ⟨kind, delta⟩ := frame
        obtain ⟨rest, c₂, hrest, h⟩ := run_bind_ok.1 h
        cases rest with
        | error e =>
          obtain ⟨hanswer, -⟩ := run_pure_ok.1 h
          cases hanswer
        | ok rest =>
          obtain ⟨hframes, rfl⟩ := run_pure_ok.1 h
          obtain rfl := Except.ok.inj hframes
          obtain ⟨hfits, first, hencode, hreads⟩ := readFrame_ok.1 hfirst
          obtain ⟨hlength, hchained, more, hmore, hreads'⟩ := ih.1 hrest
          have hdelta : (previous + 1 + delta - previous - 1).toNat = delta := by omega
          have hlt := hfits.lt
          refine ⟨by rw [List.length_cons, hlength], ⟨by simp only; omega, ?_, hchained⟩,
            first ++ more, encodeFrom_cons_ok.2 ⟨by simp only; omega, by simp only; omega, first,
              more, ?_, hmore, rfl⟩, Cursor.reads_append.2 ⟨c₁, hreads, hreads'⟩⟩
          · simpa only [hdelta] using hfits
          · simpa only [hdelta] using hencode
    · intro h
      obtain ⟨hlength, hchained, bytes, hencode, hreads⟩ := h
      cases frames with
      | nil => simp at hlength
      | cons f rest =>
        obtain ⟨hlt, hfits, hrest⟩ := hchained
        obtain ⟨-, -, first, more, hfirst, hmore, rfl⟩ := encodeFrom_cons_ok.1 hencode
        obtain ⟨c₁, hreads, hreads'⟩ := Cursor.reads_append.1 hreads
        refine ⟨_, c₁, readFrame_ok.2 ⟨hfits, first, hfirst, hreads⟩, ?_⟩
        have hoffset : previous + 1 + ((f.offset - previous - 1).toNat : Int) = f.offset := by omega
        simp only [hoffset]
        rw [run_bind_ok]
        refine ⟨.ok rest, c', ih.2 ⟨by simpa using hlength, hrest, more, hmore, hreads'⟩, ?_⟩
        exact run_pure_ok.2 ⟨rfl, rfl⟩

/-- A stack map is read from exactly one byte string, the one that is written for
it. -/
theorem parse_ok {info : Bytes} {frames : List Frame} :
    parse info = .ok frames ↔
      frames.length < 65536 ∧ Chained (-1) frames ∧ encode frames = .ok info := by
  have hread {c : Cursor} (answer : Except Error (List Frame)) :
      (do readFrames (-1) (← Reader.u16).toNat : Reader _).runOn info = .ok (answer, c) ↔
        ∃ n c₁, (Cursor.start info).Reads (Bytes.ofU16 n) c₁ ∧
          (readFrames (-1) n.toNat).run c₁ = .ok (answer, c) := by
    rw [runOn, run_bind_ok]
    simp only [run_u16_ok]
  rw [encode, Except.bind_ok]
  simp only [Except.pure_ok]
  constructor
  · intro h
    unfold parse at h
    simp only at h
    split at h
    · cases h
    · cases h
    · rename_i frames' c hrun
      split at h
      · rename_i hempty
        obtain rfl := Except.ok.inj h
        obtain ⟨n, c₁, hn, hframes⟩ := (hread _).1 hrun
        obtain ⟨hlength, hchained, bytes, hencode, hreads⟩ := readFrames_ok.1 hframes
        obtain ⟨hlt, rfl⟩ := Bytes.eq_toNat_u16.1 hlength
        have hall := Cursor.reads_append.2 ⟨c₁, hn, hreads⟩
        exact ⟨hlt, hchained, bytes, hencode,
          ((Cursor.start_reads (List.isEmpty_iff.1 hempty)).1 hall).1⟩
      · cases h
  · intro h
    obtain ⟨hlt, hchained, bytes, hencode, rfl⟩ := h
    have hall := (Cursor.start_reads (c := ⟨[], _, _⟩) rfl).2
      ⟨rfl (a := Bytes.ofU16 frames.length.toUInt16 ++ bytes), rfl⟩
    obtain ⟨c₁, hn, hreads⟩ := Cursor.reads_append.1 hall
    have hrun := (hread (.ok frames)).2 ⟨_, c₁, hn, readFrames_ok.2
      ⟨Bytes.eq_toNat_u16.2 ⟨hlt, rfl⟩, hchained, bytes, hencode, hreads⟩⟩
    unfold parse
    simp only [hrun]
    rfl

/-! ## Moving -/

section Moving

variable (F : Int → Int → Prop)

/-- A type of which the code offset, if it has one, has moved. -/
inductive VerificationType.Moved : VerificationType → VerificationType → Prop
  | plain (tag : UInt8) : Moved (.plain tag) (.plain tag)
  | object (index : UInt16) : Moved (.object index) (.object index)
  | uninitialized {o o' : UInt16} (h : F o.toNat o'.toNat) :
      Moved (.uninitialized o) (.uninitialized o')

/-- A frame that says the same of locals and stack, up to the code offsets in
them.  A frame in its long form stays in it. -/
inductive FrameKind.Moved : FrameKind → FrameKind → Prop
  | same {extended extended' : Bool} (h : extended = true → extended' = true) :
      Moved (.same extended) (.same extended')
  | sameLocals1 {extended extended' : Bool} {stack stack' : List VerificationType}
      (h : extended = true → extended' = true)
      (hstack : List.Forall₂ (VerificationType.Moved F) stack stack') :
      Moved (.sameLocals1 extended stack) (.sameLocals1 extended' stack')
  | chop (count : Int) : Moved (.chop count) (.chop count)
  | append {locals locals' : List VerificationType}
      (h : List.Forall₂ (VerificationType.Moved F) locals locals') :
      Moved (.append locals) (.append locals')
  | full {locals locals' stack stack' : List VerificationType}
      (hlocals : List.Forall₂ (VerificationType.Moved F) locals locals')
      (hstack : List.Forall₂ (VerificationType.Moved F) stack stack') :
      Moved (.full locals stack) (.full locals' stack')
  | undefined : Moved .undefined .undefined

/-- A frame that has moved. -/
structure Frame.Moved (f f' : Frame) : Prop where
  kind : FrameKind.Moved F f.kind f'.kind
  offset : F f.offset f'.offset

end Moving

/-- A frame as it is read back when it is written at a distance. -/
def FrameKind.settle (delta : Nat) : FrameKind → FrameKind
  | .same extended => .same (extended || 63 < delta)
  | .sameLocals1 extended stack => .sameLocals1 (extended || 63 < delta) stack
  | k => k

theorem FrameKind.encode_settle (k : FrameKind) (delta : Nat) :
    (k.settle delta).encode delta = k.encode delta := by
  have hshort (extended : Bool) :
      (!(extended || decide (63 < delta)) && decide (delta ≤ 63)) =
        (!extended && decide (delta ≤ 63)) := by
    by_cases h : delta ≤ 63
    · simp [h, Nat.not_lt.2 h]
    · simp [h]
  cases k with
  | same extended => simp only [settle, encode, hshort]
  | sameLocals1 extended stack => simp only [settle, encode, hshort]
  | _ => rfl

/-- The frames as they are read back when they are written behind a frame at
`previous`. -/
def settleAll : Int → List Frame → List Frame
  | _, [] => []
  | previous, f :: rest =>
    ⟨f.kind.settle (f.offset - previous - 1).toNat, f.offset⟩ :: settleAll f.offset rest

theorem length_settleAll (previous : Int) (frames : List Frame) :
    (settleAll previous frames).length = frames.length := by
  induction frames generalizing previous with
  | nil => rfl
  | cons f rest ih => rw [settleAll, List.length_cons, ih, List.length_cons]

theorem encodeFrom_settleAll (previous : Int) (frames : List Frame) :
    encodeFrom previous (settleAll previous frames) = encodeFrom previous frames := by
  induction frames generalizing previous with
  | nil => rfl
  | cons f rest ih =>
    rw [settleAll, encodeFrom, encodeFrom]
    simp only [FrameKind.encode_settle, ih]

variable {F : Int → Int → Prop}

theorem VerificationType.Moved.proper {types types' : List VerificationType}
    (h : List.Forall₂ (VerificationType.Moved F) types types') (hproper : ∀ t ∈ types, t.Proper) :
    ∀ t ∈ types', t.Proper := by
  induction h with
  | nil => simp
  | cons ht _ ih =>
    rw [List.forall_mem_cons] at hproper ⊢
    refine ⟨?_, ih hproper.2⟩
    cases ht with
    | plain tag => exact hproper.1
    | object index | uninitialized h => exact True.intro

/-- A frame that has moved fits its new distance once it is settled. -/
theorem FrameKind.Moved.fits {k k' : FrameKind} {delta delta' : Nat} (h : FrameKind.Moved F k k')
    (hfits : k.Fits delta) (hlt : delta' < 65536) : (k'.settle delta').Fits delta' := by
  have hshort {extended : Bool} (h : (extended || decide (63 < delta')) = false) :
      delta' ≤ 63 := by
    rw [Bool.or_eq_false_iff, decide_eq_false_iff_not] at h
    omega
  cases h with
  | same _ => exact ⟨hlt, hshort⟩
  | sameLocals1 _ hstack =>
    obtain ⟨-, -, hlength, hproper⟩ := hfits
    exact ⟨hlt, hshort, hstack.length_eq ▸ hlength, VerificationType.Moved.proper hstack hproper⟩
  | chop count => exact ⟨hlt, hfits.2⟩
  | append hlocals =>
    obtain ⟨-, hlow, hhigh, hproper⟩ := hfits
    have hlength := hlocals.length_eq
    exact ⟨hlt, by omega, by omega, VerificationType.Moved.proper hlocals hproper⟩
  | full hlocals hstack =>
    obtain ⟨-, ⟨hlow, hlocalsProper⟩, hhigh, hstackProper⟩ := hfits
    exact ⟨hlt, ⟨hlocals.length_eq ▸ hlow, VerificationType.Moved.proper hlocals hlocalsProper⟩,
      hstack.length_eq ▸ hhigh, VerificationType.Moved.proper hstack hstackProper⟩
  | undefined => exact hfits.elim

theorem FrameKind.Moved.settle {k k' : FrameKind} (h : FrameKind.Moved F k k') (delta : Nat) :
    FrameKind.Moved F k (k'.settle delta) := by
  have hlong {extended extended' : Bool} (h : extended = true → extended' = true) :
      extended = true → (extended' || decide (63 < delta)) = true := by
    intro hextended
    rw [h hextended, Bool.true_or]
  cases h with
  | same h => exact .same (hlong h)
  | sameLocals1 h hstack => exact .sameLocals1 (hlong h) hstack
  | chop count => exact .chop count
  | append h => exact .append h
  | full hlocals hstack => exact .full hlocals hstack
  | undefined => exact .undefined

/-- Frames that have moved and could be written are read back as frames that
have moved. -/
theorem chained_settleAll {previous previous' : Int} {frames moved : List Frame} {bytes : Bytes}
    (h : List.Forall₂ (Frame.Moved F) frames moved) (hframes : Chained previous frames)
    (hencode : encodeFrom previous' moved = .ok bytes) :
    Chained previous' (settleAll previous' moved) ∧
      List.Forall₂ (Frame.Moved F) frames (settleAll previous' moved) := by
  induction h generalizing previous previous' bytes with
  | nil => exact ⟨True.intro, .nil⟩
  | cons hf _ ih =>
    obtain ⟨-, hfits, hrest⟩ := hframes
    obtain ⟨hlt, hdelta, _, more, -, hmore, -⟩ := encodeFrom_cons_ok.1 hencode
    obtain ⟨hchained, hmoved⟩ := ih hrest hmore
    exact ⟨⟨hlt, hf.kind.fits hfits (by simp only; omega), hchained⟩,
      .cons ⟨hf.kind.settle _, hf.offset⟩ hmoved⟩

section Relocation

variable {map : OffsetMap}
  (hmap : ∀ t t', map t = .ok t' → F t t' ∧ 0 ≤ t' ∧ t' < 65536)

include hmap

theorem VerificationType.relocate_ok {t t' : VerificationType} (h : t.relocate map = .ok t') :
    VerificationType.Moved F t t' := by
  cases t with
  | plain tag =>
    obtain rfl := Except.ok.inj h
    exact .plain tag
  | object index =>
    obtain rfl := Except.ok.inj h
    exact .object index
  | uninitialized o =>
    obtain ⟨n, hn, h⟩ := Except.bind_ok.1 h
    obtain rfl := Except.pure_ok.1 h
    obtain ⟨hF, hlow, hhigh⟩ := hmap _ _ hn
    have hword : ((UInt16.ofInt n).toNat : Int) = n := by
      rw [UInt16.ofInt, UInt16.toNat_ofNat']
      omega
    exact .uninitialized (by rwa [hword])

theorem relocateTypes_ok {types types' : List VerificationType}
    (h : types.mapM (·.relocate map) = .ok types') :
    List.Forall₂ (VerificationType.Moved F) types types' :=
  (Except.mapM_ok.1 h).imp fun _ _ => VerificationType.relocate_ok hmap

theorem Frame.relocate_ok {f f' : Frame} (h : f.relocate map = .ok f') : Frame.Moved F f f' := by
  obtain ⟨kind, offset⟩ := f
  unfold Frame.relocate at h
  obtain ⟨offset', hoffset, h⟩ := Except.bind_ok.1 h
  have hF := (hmap _ _ hoffset).1
  cases kind with
  | same extended =>
    obtain rfl := Except.pure_ok.1 h
    exact ⟨.same id, hF⟩
  | sameLocals1 extended stack =>
    obtain ⟨stack', hstack, h⟩ := Except.bind_ok.1 h
    obtain rfl := Except.pure_ok.1 h
    exact ⟨.sameLocals1 id (relocateTypes_ok hmap hstack), hF⟩
  | chop count =>
    obtain rfl := Except.pure_ok.1 h
    exact ⟨.chop count, hF⟩
  | append locals =>
    obtain ⟨locals', hlocals, h⟩ := Except.bind_ok.1 h
    obtain rfl := Except.pure_ok.1 h
    exact ⟨.append (relocateTypes_ok hmap hlocals), hF⟩
  | full locals stack =>
    obtain ⟨locals', hlocals, h⟩ := Except.bind_ok.1 h
    obtain ⟨stack', hstack, h⟩ := Except.bind_ok.1 h
    obtain rfl := Except.pure_ok.1 h
    exact ⟨.full (relocateTypes_ok hmap hlocals) (relocateTypes_ok hmap hstack), hF⟩
  | undefined =>
    obtain rfl := Except.pure_ok.1 h
    exact ⟨.undefined, hF⟩

/-- Frames that have been moved and written are read back settled. -/
theorem parse_relocated {info info' : Bytes} {frames moved : List Frame}
    (hparse : parse info = .ok frames) (hmoved : frames.mapM (·.relocate map) = .ok moved)
    (hencode : encode moved = .ok info') :
    parse info' = .ok (settleAll (-1) moved) ∧
      List.Forall₂ (Frame.Moved F) frames (settleAll (-1) moved) := by
  obtain ⟨hlength, hchained, -⟩ := parse_ok.1 hparse
  have hmoved := (Except.mapM_ok.1 hmoved).imp fun _ _ => Frame.relocate_ok hmap
  have hsettled : encode (settleAll (-1) moved) = .ok info' := by
    rw [← hencode, encode, encode, encodeFrom_settleAll, length_settleAll]
  obtain ⟨bytes, hbytes, -⟩ := Except.bind_ok.1 hencode
  obtain ⟨hchained', hmoved'⟩ := chained_settleAll hmoved hchained hbytes
  refine ⟨parse_ok.2 ⟨?_, hchained', hsettled⟩, hmoved'⟩
  rw [length_settleAll, ← hmoved.length_eq]
  exact hlength

/-- A stack map that is moved has the same frames at their new offsets. -/
theorem relocate_ok {info info' : Bytes} (h : relocate map info = .ok info') :
    ∃ frames frames', parse info = .ok frames ∧ parse info' = .ok frames' ∧
      List.Forall₂ (Frame.Moved F) frames frames' := by
  unfold relocate at h
  obtain ⟨frames, hparse, h⟩ := Except.bind_ok.1 h
  obtain ⟨moved, hmoved, hencode⟩ := Except.bind_ok.1 h
  obtain ⟨hparse', hmoved'⟩ := parse_relocated hmap hparse hmoved hencode
  exact ⟨frames, _, hparse, hparse', hmoved'⟩

end Relocation

end Cleartext.StackMap
