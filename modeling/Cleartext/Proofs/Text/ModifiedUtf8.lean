import Cleartext.Text.ModifiedUtf8
import Cleartext.Proofs.Reading

/-!
# Modified UTF-8 is read back

A byte string that is decoded is a sequence of forms (`Form`), each of which holds one unit in
groups of bits behind marks.  The marks do not touch the groups, which is checked for every
group.

* `decode_encode`: what is written for a sequence of code units is read as the same sequence.
* `decodeFrom_ok`: decoding accepts the sequences of forms and nothing else.
* `decode_spelling`: bytes may spell units in a longer form.  Those that do are told apart by
  their length alone.
* `decode_encode_exact`: what is read is written back as it was, unless it contains a zero
  byte or an overlong form.  No form occurs across the border of two others
  (`Form.mem_of_infix`), so it does not matter where an overlong one is looked for.
-/

namespace Cleartext.ModifiedUtf8

/-! ## Marked groups -/

/-- The first byte of one, which holds seven bits. -/
private theorem single_group : ∀ n : Nat, n < 128 → n.toUInt8 &&& 0x80 = 0 := by decide

/-- The first byte of two, which holds five bits. -/
private theorem first_of_two : ∀ n : Nat, n < 32 → (n.toUInt8 ||| 0xc0) &&& 0x80 ≠ 0 ∧
    (n.toUInt8 ||| 0xc0) &&& 0xe0 = 0xc0 ∧
    ((n.toUInt8 ||| 0xc0) &&& 0x1f).toUInt16.toNat = n := by
  decide

/-- The first byte of three, which holds four bits. -/
private theorem first_of_three : ∀ n : Nat, n < 16 → (n.toUInt8 ||| 0xe0) &&& 0x80 ≠ 0 ∧
    (n.toUInt8 ||| 0xe0) &&& 0xe0 ≠ 0xc0 ∧ (n.toUInt8 ||| 0xe0) &&& 0xf0 = 0xe0 ∧
    ((n.toUInt8 ||| 0xe0) &&& 0x0f).toUInt16.toNat = n := by
  decide

/-- A byte that continues a sequence, which holds six bits. -/
private theorem continuation : ∀ n : Nat, n < 64 → isContinuation (n.toUInt8 ||| 0x80) = true ∧
    ((n.toUInt8 ||| 0x80) &&& 0x3f).toUInt16.toNat = n := by
  decide

/-- A mark that is set in front of a group is added to it. -/
private theorem marked_two : ∀ n : Nat, n < 32 → n.toUInt8 ||| 0xc0 = (0xc0 + n).toUInt8 := by decide

private theorem marked_three : ∀ n : Nat, n < 16 → n.toUInt8 ||| 0xe0 = (0xe0 + n).toUInt8 := by decide

private theorem marked_continuation : ∀ n : Nat, n < 64 → n.toUInt8 ||| 0x80 = (0x80 + n).toUInt8 := by
  decide

/-- What the tests of a byte say of it: the mark in front of its group. -/
private theorem marks : ∀ n : Nat, n < 256 → (n.toUInt8 &&& 0x80 = 0 → n < 128) ∧
    (n.toUInt8 &&& 0xe0 = 0xc0 → ∃ a < 32, 0xc0 + a = n) ∧
    (n.toUInt8 &&& 0xf0 = 0xe0 → ∃ a < 16, 0xe0 + a = n) ∧
    (isContinuation n.toUInt8 = true → ∃ a < 64, 0x80 + a = n) := by
  decide +kernel

/-- A narrowed word is a number taken modulo 256. -/
private theorem toUInt8_eq {w : UInt16} {n : Nat} (h : w.toNat = n) : w.toUInt8 = n.toUInt8 := by
  apply UInt8.toNat_inj.1
  rw [UInt16.toNat_toUInt8, h]
  exact (UInt8.toNat_ofNat' ..).symm

private theorem toNat_shiftRight_six (u : UInt16) : (u >>> 6).toNat = u.toNat / 64 := by
  rw [UInt16.toNat_shiftRight, Nat.shiftRight_eq_div_pow]
  rfl

private theorem toNat_shiftRight_twelve (u : UInt16) : (u >>> 12).toNat = u.toNat / 4096 := by
  rw [UInt16.toNat_shiftRight, Nat.shiftRight_eq_div_pow]
  rfl

private theorem toNat_and_six (u : UInt16) : (u &&& 0x3f).toNat = u.toNat % 64 := by
  rw [UInt16.toNat_and]
  exact Nat.and_two_pow_sub_one_eq_mod u.toNat 6

/-- A group in front of `k` bits. -/
private theorem toNat_shifted_or {a b : UInt16} {k : UInt16} (hk : k.toNat < 16)
    (ha : a.toNat * 2 ^ k.toNat < 65536) (hb : b.toNat < 2 ^ k.toNat) :
    (a <<< k ||| b).toNat = a.toNat * 2 ^ k.toNat + b.toNat := by
  rw [UInt16.toNat_or, UInt16.toNat_shiftLeft, Nat.mod_eq_of_lt hk, Nat.shiftLeft_eq,
    Nat.mod_eq_of_lt ha]
  exact Bytes.shifted_or_eq_add hb

/-- A byte is widened to the word of the same number. -/
private theorem toNat_single {a : Nat} (ha : a < 128) :
    a.toUInt8.toUInt16.toNat = a.toUInt16.toNat := by
  rw [UInt8.toNat_toUInt16, UInt8.toNat_ofNat_of_lt' (by show a < 256; omega),
    UInt16.toNat_ofNat_of_lt' (by show a < 65536; omega)]

/-- Two groups of bits make up a unit below `0x800`. -/
private theorem join_two {a b : UInt16} (ha : a.toNat < 32) (hb : b.toNat < 64) :
    (a <<< 6) ||| b = (a.toNat * 64 + b.toNat).toUInt16 := by
  have hor := toNat_shifted_or (a := a) (b := b) (k := 6) (by decide)
    (by show a.toNat * 64 < 65536; omega) hb
  rw [← UInt16.ofNat_toNat (x := (a <<< 6) ||| b), hor]
  rfl

/-- Three groups of bits make up any unit. -/
private theorem join_three {a b c : UInt16} (ha : a.toNat < 16) (hb : b.toNat < 64)
    (hc : c.toNat < 64) :
    (a <<< 12) ||| (b <<< 6) ||| c = (a.toNat * 4096 + b.toNat * 64 + c.toNat).toUInt16 := by
  have hlow := toNat_shifted_or (a := b) (b := c) (k := 6) (by decide)
    (by show b.toNat * 64 < 65536; omega) hc
  have hor := toNat_shifted_or (a := a) (b := (b <<< 6) ||| c) (k := 12) (by decide)
    (by show a.toNat * 4096 < 65536; omega)
    (by rw [hlow]; show b.toNat * 64 + c.toNat < 4096; omega)
  rw [UInt16.or_assoc, ← UInt16.ofNat_toNat (x := (a <<< 12) ||| ((b <<< 6) ||| c)), hor, hlow,
    Nat.add_assoc]
  rfl

/-! ## Forms -/

/-- The bytes of a form and the unit that they hold.  Behind the marks, two bytes hold groups
of five and six bits, and three bytes groups of four, six and six. -/
inductive Form : Bytes → UInt16 → Prop
  | one {a : Nat} (ha : a < 128) : Form [a.toUInt8] a.toUInt16
  | two {a b : Nat} (ha : a < 32) (hb : b < 64) :
      Form [(0xc0 + a).toUInt8, (0x80 + b).toUInt8] (a * 64 + b).toUInt16
  | three {a b c : Nat} (ha : a < 16) (hb : b < 64) (hc : c < 64) :
      Form [(0xe0 + a).toUInt8, (0x80 + b).toUInt8, (0x80 + c).toUInt8]
        (a * 4096 + b * 64 + c).toUInt16

/-- A form that is longer than its unit needs: two bytes for a unit from one to 0x7f, or three
bytes for one below 0x800. -/
def Overlong (s : Bytes) : Prop :=
  ∃ u, Form s u ∧ (s.length = 2 ∧ 1 ≤ u ∧ u ≤ 0x7f ∨ s.length = 3 ∧ u < 0x800)

private theorem decodeFrom_one {x : UInt8} (hx : x &&& 0x80 = 0) (pos : Nat) (rest : Bytes) :
    decodeFrom pos (x :: rest) = (decodeFrom (pos + 1) rest).map (x.toUInt16 :: ·) := by
  rw [decodeFrom.eq_def]
  simp only [hx, beq_self_eq_true, if_true]
  cases decodeFrom (pos + 1) rest <;> rfl

private theorem decodeFrom_two {x y : UInt8} (hx : x &&& 0x80 ≠ 0) (hx' : x &&& 0xe0 = 0xc0)
    (hy : isContinuation y = true) (pos : Nat) (rest : Bytes) :
    decodeFrom pos (x :: y :: rest) = (decodeFrom (pos + 2) rest).map
      ((((x &&& 0x1f).toUInt16 <<< 6) ||| (y &&& 0x3f).toUInt16) :: ·) := by
  rw [decodeFrom.eq_def]
  simp only [beq_eq_false_iff_ne.2 hx, hx', hy, beq_self_eq_true, if_true, Bool.false_eq_true,
    if_false]
  cases decodeFrom (pos + 2) rest <;> rfl

private theorem decodeFrom_three {x y z : UInt8} (hx : x &&& 0x80 ≠ 0) (hx' : x &&& 0xe0 ≠ 0xc0)
    (hx'' : x &&& 0xf0 = 0xe0) (hy : isContinuation y = true) (hz : isContinuation z = true)
    (pos : Nat) (rest : Bytes) :
    decodeFrom pos (x :: y :: z :: rest) = (decodeFrom (pos + 3) rest).map
      ((((x &&& 0x0f).toUInt16 <<< 12) ||| ((y &&& 0x3f).toUInt16 <<< 6) |||
        (z &&& 0x3f).toUInt16) :: ·) := by
  rw [decodeFrom.eq_def]
  simp only [beq_eq_false_iff_ne.2 hx, beq_eq_false_iff_ne.2 hx', hx'', hy, hz, Bool.and_true,
    beq_self_eq_true, if_true, Bool.false_eq_true, if_false]
  cases decodeFrom (pos + 3) rest <;> rfl

namespace Form

variable {s s' t : Bytes} {u u' : UInt16}

/-- A form is read as its unit, whatever follows. -/
theorem decodeFrom_append (h : Form s u) (pos : Nat) (rest : Bytes) :
    decodeFrom pos (s ++ rest) = (decodeFrom (pos + s.length) rest).map (u :: ·) := by
  cases h with
  | @one a ha =>
    rw [List.singleton_append, decodeFrom_one (single_group a ha),
      UInt16.toNat_inj.1 (toNat_single ha)]
    rfl
  | @two a b ha hb =>
    have hhigh := first_of_two a ha
    have hlow := continuation b hb
    rw [← marked_two a ha, ← marked_continuation b hb, List.cons_append, List.singleton_append,
      decodeFrom_two hhigh.1 hhigh.2.1 hlow.1,
      join_two (by rw [hhigh.2.2]; exact ha) (by rw [hlow.2]; exact hb), hhigh.2.2, hlow.2]
    rfl
  | @three a b c ha hb hc =>
    have hhigh := first_of_three a ha
    have hmiddle := continuation b hb
    have hlow := continuation c hc
    rw [← marked_three a ha, ← marked_continuation b hb, ← marked_continuation c hc,
      List.cons_append, List.cons_append, List.singleton_append,
      decodeFrom_three hhigh.1 hhigh.2.1 hhigh.2.2.1 hmiddle.1 hlow.1,
      join_three (by rw [hhigh.2.2.2]; exact ha) (by rw [hmiddle.2]; exact hb)
        (by rw [hlow.2]; exact hc), hhigh.2.2.2, hmiddle.2, hlow.2]
    rfl

theorem length_pos (h : Form s u) : 0 < s.length := by
  cases h <;> simp

end Form

/-- What is written for a unit is a form of it. -/
theorem form_encodeUnit (u : UInt16) : Form (encodeUnit u) u := by
  have hu := u.toNat_lt
  have hunit {n : Nat} (h : n = u.toNat) : n.toUInt16 = u := h ▸ UInt16.ofNat_toNat
  have hlow : (u &&& 0x3f).toUInt8 ||| 0x80 = (0x80 + u.toNat % 64).toUInt8 := by
    rw [toUInt8_eq (toNat_and_six u), marked_continuation _ (by omega)]
  unfold encodeUnit
  split
  · rename_i hone
    have hlt : u.toNat < 128 := by
      rw [Bool.and_eq_true, decide_eq_true_eq] at hone
      exact hone.2
    have hform := Form.one hlt
    rwa [hunit rfl, ← toUInt8_eq rfl] at hform
  · split
    · rename_i htwo
      have hlt : u.toNat < 2048 := htwo
      have hform := Form.two (a := u.toNat / 64) (b := u.toNat % 64) (by omega) (by omega)
      rw [hunit (by omega)] at hform
      rwa [hlow, toUInt8_eq (toNat_shiftRight_six u), marked_two _ (by omega)]
    · have hform := Form.three (a := u.toNat / 4096) (b := u.toNat / 64 % 64) (c := u.toNat % 64)
        (by omega) (by omega) (by omega)
      rw [hunit (by omega)] at hform
      have hmiddle : ((u >>> 6) &&& 0x3f).toUInt8 ||| 0x80 = (0x80 + u.toNat / 64 % 64).toUInt8 := by
        rw [toUInt8_eq (toNat_and_six _), toNat_shiftRight_six, marked_continuation _ (by omega)]
      rwa [hlow, hmiddle, toUInt8_eq (toNat_shiftRight_twelve u), marked_three _ (by omega)]

/-- What is written for units is read as these units. -/
theorem decode_encode (units : Units) : decode (encode units) = .ok units := by
  suffices h : ∀ pos, decodeFrom pos (encode units) = .ok units from h 0
  induction units with
  | nil => exact fun _ => rfl
  | cons u units ih =>
    intro pos
    show decodeFrom pos (encodeUnit u ++ encode units) = _
    rw [(form_encodeUnit u).decodeFrom_append, ih]
    rfl

theorem encode_injective : Function.Injective encode := fun a b h => by
  have hunits := decode_encode a
  rw [h, decode_encode b] at hunits
  exact (Except.ok.inj hunits).symm

/-- What the tests of a byte say of it. -/
private theorem marks_of_byte (x : UInt8) : (x &&& 0x80 = 0 → x.toNat < 128) ∧
    (x &&& 0xe0 = 0xc0 → ∃ a < 32, 0xc0 + a = x.toNat) ∧
    (x &&& 0xf0 = 0xe0 → ∃ a < 16, 0xe0 + a = x.toNat) ∧
    (isContinuation x = true → ∃ a < 64, 0x80 + a = x.toNat) := by
  have h := marks x.toNat x.toNat_lt
  rwa [show x.toNat.toUInt8 = x from UInt8.ofNat_toNat] at h

/-- A byte string that is decoded starts with a form. -/
private theorem exists_form {pos : Nat} {x : UInt8} {rest : Bytes} {units : Units}
    (h : decodeFrom pos (x :: rest) = .ok units) : ∃ s u tail, Form s u ∧ x :: rest = s ++ tail := by
  have hbyte {n : Nat} {x : UInt8} (hn : n = x.toNat) : n.toUInt8 = x := hn ▸ UInt8.ofNat_toNat
  have hcontinues {y : UInt8} (hy : isContinuation y = true) : ∃ b < 64, (0x80 + b).toUInt8 = y := by
    obtain ⟨b, hb, hby⟩ := (marks_of_byte y).2.2.2 hy
    exact ⟨b, hb, hbyte hby⟩
  obtain ⟨hone, htwo, hthree, -⟩ := marks_of_byte x
  rw [decodeFrom.eq_def] at h
  dsimp only at h
  split at h
  · rename_i hx
    have hform := Form.one (hone (beq_iff_eq.1 hx))
    rw [hbyte rfl] at hform
    exact ⟨_, _, rest, hform, rfl⟩
  · split at h
    · rename_i hx
      obtain ⟨a, ha, hax⟩ := htwo (beq_iff_eq.1 hx)
      split at h
      · rename_i y rest
        split at h
        · rename_i hy
          obtain ⟨b, hb, rfl⟩ := hcontinues hy
          exact ⟨_, _, rest, .two ha hb, by rw [hbyte hax]; rfl⟩
        · cases h
      · cases h
    · split at h
      · rename_i hx
        obtain ⟨a, ha, hax⟩ := hthree (beq_iff_eq.1 hx)
        split at h
        · rename_i y z rest
          split at h
          · rename_i hyz
            rw [Bool.and_eq_true] at hyz
            obtain ⟨b, hb, rfl⟩ := hcontinues hyz.1
            obtain ⟨c, hc, rfl⟩ := hcontinues hyz.2
            exact ⟨_, _, rest, .three ha hb hc, by rw [hbyte hax]; rfl⟩
          · cases h
        · cases h
      · cases h

/-- A decoded byte string is a sequence of forms, and the units are those that they hold. -/
theorem decodeFrom_ok {pos : Nat} {raw : Bytes} {units : Units} :
    decodeFrom pos raw = .ok units ↔
      ∃ forms, List.Forall₂ Form forms units ∧ forms.flatten = raw := by
  constructor
  · intro h
    induction hlength : raw.length using Nat.strong_induction_on generalizing pos raw units with
    | _ n ih =>
      cases raw with
      | nil =>
        obtain rfl := Except.ok.inj h
        exact ⟨[], .nil, rfl⟩
      | cons x rest =>
        obtain ⟨s, u, tail, hform, hsplit⟩ := exists_form h
        rw [hsplit, hform.decodeFrom_append] at h
        obtain ⟨units', htail, hunits⟩ := Except.map_ok.1 h
        obtain rfl := hunits
        have hshorter : tail.length < n := by
          have hpos := hform.length_pos
          rw [← hlength, hsplit, List.length_append]
          omega
        obtain ⟨forms, hforms, hflatten⟩ := ih tail.length hshorter htail rfl
        exact ⟨s :: forms, .cons hform hforms, by rw [List.flatten_cons, hflatten, hsplit]⟩
  · rintro ⟨forms, hforms, rfl⟩
    induction hforms generalizing pos with
    | nil => rfl
    | cons hform _ ih =>
      rw [List.flatten_cons, hform.decodeFrom_append, ih]
      rfl

/-! ## Spellings -/

/-- A single byte is the unit that it spells. -/
private theorem Form.map_eq {s : Bytes} {u : UInt16} (h : Form s u) (hlength : s.length = 1) :
    s.map UInt8.toUInt16 = [u] := by
  cases h with
  | @one a ha =>
    rw [List.map_singleton, ← UInt16.toNat_inj.1 (toNat_single ha)]
  | two | three => cases hlength

/-- Every unit takes a byte or more, and bytes that are no more than the units are the
units themselves. -/
theorem decode_spelling {raw : Bytes} {units : Units} (h : decode raw = .ok units) :
    units.length ≤ raw.length ∧
      (raw.length = units.length → raw.map UInt8.toUInt16 = units) := by
  obtain ⟨forms, hforms, rfl⟩ := decodeFrom_ok.1 h
  clear h
  induction hforms with
  | nil => exact ⟨le_rfl, fun _ => rfl⟩
  | @cons s u forms units hform _ ih =>
    obtain ⟨hle, hsame⟩ := ih
    have hpos := hform.length_pos
    rw [List.flatten_cons, List.length_append, List.length_cons]
    refine ⟨by omega, fun hlength => ?_⟩
    rw [List.map_append, hform.map_eq (by omega), hsame (by omega), List.singleton_append]

/-! ## Written back -/

namespace Form

variable {s s' t rest rest' : Bytes} {u u' : UInt16} {x : UInt8}

/-- The first byte of a form tells its length, and it continues no form. -/
theorem exists_cons (h : Form s u) : ∃ x t, s = x :: t ∧ (x.toNat < 0x80 ∨ 0xc0 ≤ x.toNat) ∧
    s.length = (if x.toNat < 0x80 then 1 else if x.toNat < 0xe0 then 2 else 3) ∧
    ∀ y ∈ t, 0x80 ≤ y.toNat ∧ y.toNat < 0xc0 := by
  have hbyte {n : Nat} (hn : n < 256) : n.toUInt8.toNat = n := UInt8.toNat_ofNat_of_lt' hn
  cases h with
  | @one a ha =>
    refine ⟨_, _, rfl, ?_, ?_, by simp⟩ <;> rw [hbyte (by omega)]
    · omega
    · rw [if_pos ha]
      rfl
  | @two a b ha hb =>
    refine ⟨_, _, rfl, ?_, ?_, ?_⟩
    · rw [hbyte (by omega)]
      omega
    · rw [hbyte (by omega), if_neg (by omega), if_pos (by omega)]
      rfl
    · simp only [List.forall_mem_singleton, hbyte (show 0x80 + b < 256 by omega)]
      omega
  | @three a b c ha hb hc =>
    refine ⟨_, _, rfl, ?_, ?_, ?_⟩
    · rw [hbyte (by omega)]
      omega
    · rw [hbyte (by omega), if_neg (by omega), if_neg (by omega)]
      rfl
    · simp only [List.forall_mem_cons, List.not_mem_nil, false_implies, implies_true, and_true,
        hbyte (show 0x80 + b < 256 by omega), hbyte (show 0x80 + c < 256 by omega)]
      omega

/-- A byte string starts with one form only. -/
theorem append_inj (h : Form s u) (h' : Form s' u') (heq : s ++ rest = s' ++ rest') :
    s = s' ∧ rest = rest' := by
  obtain ⟨x, t, rfl, -, hlength, -⟩ := h.exists_cons
  obtain ⟨x', t', rfl, -, hlength', -⟩ := h'.exists_cons
  have hx : x = x' := (List.cons.inj heq).1
  exact List.append_inj heq (by rw [hlength, hlength', hx])

/-- A form holds one unit only. -/
theorem unique (h : Form s u) (h' : Form s u') : u = u' := by
  have hdecode := h.decodeFrom_append 0 []
  rw [h'.decodeFrom_append 0 []] at hdecode
  exact ((List.cons.inj (Except.ok.inj hdecode)).1).symm

/-- Two forms of a unit that are of one length are the same. -/
theorem eq_of_length (h : Form s u) (h' : Form s' u') (hu : u = u') (hlength : s.length = s'.length) :
    s = s' := by
  have hnat := congrArg UInt16.toNat hu
  cases h <;> cases h' <;> cases hlength
  all_goals
    rw [UInt16.toNat_ofNat_of_lt' (by show _ < 65536; omega),
      UInt16.toNat_ofNat_of_lt' (by show _ < 65536; omega)] at hnat
  case one.one a ha a' ha' => rw [hnat]
  case two.two a b ha hb a' b' ha' hb' =>
    obtain ⟨rfl, rfl⟩ : a = a' ∧ b = b' := by omega
    rfl
  case three.three a b c ha hb hc a' b' c' ha' hb' hc' =>
    obtain ⟨rfl, rfl, rfl⟩ : a = a' ∧ b = b' ∧ c = c' := by omega
    rfl

/-- A unit in one byte is below 0x80, and one in two bytes below 0x800. -/
theorem unit_lt (h : Form s u) :
    (s.length = 1 → u.toNat < 0x80) ∧ (s.length = 2 → u.toNat < 0x800) := by
  cases h with
  | @one a ha =>
    rw [UInt16.toNat_ofNat_of_lt' (by show a < 65536; omega)]
    exact ⟨fun _ => ha, nofun⟩
  | @two a b ha hb =>
    rw [UInt16.toNat_ofNat_of_lt' (by show a * 64 + b < 65536; omega)]
    exact ⟨nofun, fun _ => by omega⟩
  | three => exact ⟨nofun, nofun⟩

theorem eq_zero_iff (h : Form s u) : s = [0] ↔ s.length = 1 ∧ u.toNat = 0 := by
  constructor
  · rintro rfl
    exact ⟨rfl, congrArg UInt16.toNat (h.unique (.one (a := 0) (by decide)))⟩
  · rintro ⟨hlength, hu⟩
    exact h.eq_of_length (.one (a := 0) (by decide)) (UInt16.toNat_inj.1 hu) hlength

theorem overlong_iff (h : Form s u) : Overlong s ↔
    s.length = 2 ∧ 1 ≤ u.toNat ∧ u.toNat < 0x80 ∨ s.length = 3 ∧ u.toNat < 0x800 := by
  have hlow : 1 ≤ u ∧ u ≤ 0x7f ↔ 1 ≤ u.toNat ∧ u.toNat < 0x80 := by
    rw [UInt16.le_iff_toNat_le, UInt16.le_iff_toNat_le, Nat.lt_succ_iff]
    rfl
  rw [← hlow]
  constructor
  · rintro ⟨u', h', hover⟩
    obtain rfl := h.unique h'
    exact hover
  · exact fun hover => ⟨u, h, hover⟩

end Form

theorem length_encodeUnit (u : UInt16) : (encodeUnit u).length =
    if 1 ≤ u.toNat ∧ u.toNat < 0x80 then 1 else if u.toNat < 0x800 then 2 else 3 := by
  have hone : (u != 0 && u < 0x80) = true ↔ 1 ≤ u.toNat ∧ u.toNat < 0x80 := by
    rw [Bool.and_eq_true, bne_iff_ne, decide_eq_true_eq, ne_eq, ← UInt16.toNat_inj]
    exact and_congr_left' Nat.pos_iff_ne_zero.symm
  have htwo : u < 0x800 ↔ u.toNat < 0x800 := UInt16.lt_iff_toNat_lt
  unfold encodeUnit
  rw [← if_congr htwo rfl rfl, ← if_congr hone rfl rfl]
  split
  · rfl
  · split <;> rfl

/-- A form is the one that is written for its unit, unless it is a zero byte or overlong. -/
theorem Form.encodeUnit_eq_iff {s : Bytes} {u : UInt16} (h : Form s u) :
    encodeUnit u = s ↔ s ≠ [0] ∧ ¬ Overlong s := by
  have hlength : encodeUnit u = s ↔ (encodeUnit u).length = s.length :=
    ⟨congrArg List.length, (form_encodeUnit u).eq_of_length h rfl⟩
  have hcases : s.length = 1 ∨ s.length = 2 ∨ s.length = 3 := by cases h <;> simp
  obtain ⟨hone, htwo⟩ := h.unit_lt
  rw [hlength, length_encodeUnit, ne_eq, h.eq_zero_iff, h.overlong_iff]
  split_ifs <;> omega

/-! ## Forms in a byte string -/

section

variable {forms : List Bytes} {units : Units} {s : Bytes}

/-- Units are written back as the forms that they were read from, if each of them is. -/
theorem encode_eq_flatten_iff (h : List.Forall₂ Form forms units) :
    encode units = forms.flatten ↔ ∀ s ∈ forms, s ≠ [0] ∧ ¬ Overlong s := by
  induction h with
  | nil => simp [encode]
  | @cons s u forms units hform _ ih =>
    have hsplit : encode (u :: units) = (s :: forms).flatten ↔
        encodeUnit u = s ∧ encode units = forms.flatten :=
      ⟨(form_encodeUnit u).append_inj hform, fun heq => by rw [List.flatten_cons, ← heq.1, ← heq.2]; rfl⟩
    rw [hsplit, hform.encodeUnit_eq_iff, ih, List.forall_mem_cons]

/-- A zero byte is a form by itself. -/
theorem Form.eq_of_zero_mem {u : UInt16} (h : Form s u) (hzero : 0 ∈ s) : s = [0] := by
  obtain ⟨x, t, rfl, -, hlength, ht⟩ := h.exists_cons
  obtain rfl : 0 = x := (List.mem_cons.1 hzero).resolve_right fun hmem => by
    have hlow := (ht 0 hmem).1
    exact absurd hlow (by decide)
  have hnil : t = [] := List.length_eq_zero_iff.1 (Nat.succ.inj hlength)
  rw [hnil]

/-- A form that occurs in a sequence of forms is one of them: its first byte continues no
other. -/
theorem Form.mem_of_infix {u : UInt16} (hs : Form s u) (h : List.Forall₂ Form forms units)
    (hpart : s <:+: forms.flatten) : s ∈ forms := by
  induction h with
  | nil =>
    have hpos := hs.length_pos
    rw [List.flatten_nil, List.infix_nil] at hpart
    rw [hpart] at hpos
    exact absurd hpos (Nat.lt_irrefl 0)
  | @cons t v forms units hform _ ih =>
    obtain ⟨before, after, heq⟩ := hpart
    rw [List.flatten_cons, List.append_assoc, List.append_eq_append_iff] at heq
    rcases heq with ⟨middle, rfl, hrest⟩ | ⟨middle, -, hrest⟩
    · -- It starts in the first form, or right behind it.
      rcases before with _ | ⟨x, before⟩
      · obtain ⟨rfl, -⟩ := hs.append_inj hform hrest
        exact List.mem_cons_self
      · rcases middle with _ | ⟨y, middle⟩
        · exact List.mem_cons_of_mem _ (ih ⟨[], after, hrest⟩)
        · exfalso
          obtain ⟨x', tail, ht, -, -, hcontinues⟩ := hform.exists_cons
          obtain ⟨y', s, rfl, hy, -⟩ := hs.exists_cons
          have hmem : y ∈ tail := by
            rw [← (List.cons.inj ht).2]
            exact List.mem_append_right _ List.mem_cons_self
          have hrange := hcontinues y hmem
          rw [(List.cons.inj hrest).1] at hy
          omega
    · exact List.mem_cons_of_mem t (ih ⟨middle, after, by rw [List.append_assoc, hrest]⟩)

end

/-- Decoding undoes encoding, so no two sequences of units are written alike.  What is decoded
are the sequences of forms, and it is written back as it was if and only if it contains no
zero byte and no overlong form. -/
theorem decode_encode_exact :
    (∀ units, decode (encode units) = .ok units) ∧ Function.Injective encode ∧
    ∀ raw units, (decode raw = .ok units ↔
        ∃ forms, List.Forall₂ Form forms units ∧ forms.flatten = raw) ∧
      (decode raw = .ok units →
        (encode units = raw ↔ 0 ∉ raw ∧ ∀ s, s <:+: raw → ¬ Overlong s)) := by
  refine ⟨decode_encode, fun units units' h => ?_, fun raw units => ⟨decodeFrom_ok, fun h => ?_⟩⟩
  · have hdecode := decode_encode units
    rw [h, decode_encode] at hdecode
    exact (Except.ok.inj hdecode).symm
  · obtain ⟨forms, hforms, rfl⟩ := decodeFrom_ok.1 h
    rw [encode_eq_flatten_iff hforms]
    constructor
    · intro hplain
      refine ⟨fun hzero => ?_, fun s hpart hover => ?_⟩
      · obtain ⟨s, hs, hmem⟩ := List.mem_flatten.1 hzero
        obtain ⟨u, -, hform⟩ := exists_mem_of_forall₂ hforms.flip hs
        exact (hplain s hs).1 (hform.eq_of_zero_mem hmem)
      · have hmem : s ∈ forms := by
          obtain ⟨u, hform, -⟩ := hover
          exact hform.mem_of_infix hforms hpart
        exact (hplain s hmem).2 hover
    · rintro ⟨hzero, hover⟩ s hs
      refine ⟨?_, hover s (List.infix_of_mem_flatten hs)⟩
      rintro rfl
      exact hzero (List.mem_flatten.2 ⟨_, hs, List.mem_singleton_self 0⟩)

/-- A surrogate by itself is written back, but the two bytes of an `A` behind it are not. -/
theorem decode_encode_exact_overlong :
    decode [0xed, 0xa0, 0x80, 0xc1, 0x81] = .ok [0xd800, 0x41] ∧
      ∃ s, s <:+: [0xed, 0xa0, 0x80, 0xc1, 0x81] ∧ Overlong s := by
  have h : decode [0xed, 0xa0, 0x80, 0xc1, 0x81] = .ok [0xd800, 0x41] := rfl
  have hiff := (decode_encode_exact.2.2 _ _).2 h
  refine ⟨h, ?_⟩
  by_contra hnone
  simp only [not_exists, not_and] at hnone
  have hback := hiff.2 ⟨by decide, hnone⟩
  exact absurd hback (by decide)

end Cleartext.ModifiedUtf8
