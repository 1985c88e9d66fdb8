import Cleartext.Class.Shrink
import Cleartext.Proofs.Class.Format
import Cleartext.Proofs.Text.Utf8

/-!
# What a constant means

The meaning of a pool index is the tree that is found by following the
references of its entry down to texts and numbers.  `Meaning` is that tree, and
`Pool.Means` relates an index to its meaning; an index on a cycle has none.

Shrinking compares entries by a rendered key and not by their meaning.
`Meaning.key` is the key that belongs to a meaning, and `key_injective` says
that a key belongs to one meaning only.  There are two reasons.

* The length in front of every part ends with a colon, which no decimal number
  contains, so parts can be split off from the left: `framedKey_append_inj`.
* Three kinds of entries have a number directly in front of the length of
  their only part.  The digits of the two run together, but the part is all
  that follows the colon, so its length is known:
  `decimalBytes_framedKey_inj`.
-/

namespace Cleartext

/-! ## Decimal numbers -/

namespace Bytes

/-- The byte of a character below 128. -/
def ofAscii (c : Char) : UInt8 := c.val.toUInt8

theorem ofText_ofList {chars : List Char} (h : ∀ c ∈ chars, c.toNat < 128) :
    ofText (String.ofList chars) = chars.map ofAscii := by
  rw [ofText_eq, String.toList_ofList]
  induction chars with
  | nil => rfl
  | cons c chars ih =>
    rw [List.forall_mem_cons] at h
    have hsize : c.utf8Size = 1 := by
      unfold Char.utf8Size
      rw [if_pos]
      rw [UInt32.le_iff_toNat_le]
      have := h.1
      show c.toNat ≤ 127
      omega
    rw [List.flatMap_cons, List.map_cons, ih h.2, String.utf8EncodeChar_eq_singleton hsize]
    rfl

end Bytes

/-- The characters of a number in base ten. -/
def decimalChars : Int → List Char
  | .ofNat n => Text.digitsAux 10 (n + 1) n []
  | .negSucc n => '-' :: Text.digitsAux 10 (n + 2) (n + 1) []

private theorem digitChar_toNat {d : Nat} (h : d < 10) :
    (Text.digitChar d).toNat = 48 + d := by
  unfold Text.digitChar
  rw [if_pos h]
  have hvalid : (48 + d).isValidChar := Or.inl (by omega)
  rw [Char.ofNat, dif_pos hvalid]
  rfl

private theorem mem_digitsAux {c : Char} (fuel n : Nat) (acc : List Char)
    (h : c ∈ Text.digitsAux 10 fuel n acc) : c ∈ acc ∨ 48 ≤ c.toNat ∧ c.toNat < 58 := by
  induction fuel generalizing n acc with
  | zero => exact .inl h
  | succ fuel ih =>
    have hdigit := digitChar_toNat (Nat.mod_lt n (show 0 < 10 by omega))
    have hmod := Nat.mod_lt n (show 0 < 10 by omega)
    have hcons : c ∈ Text.digitChar (n % 10) :: acc → c ∈ acc ∨ 48 ≤ c.toNat ∧ c.toNat < 58 := by
      intro hc
      rcases List.mem_cons.1 hc with rfl | hc
      · exact .inr (by omega)
      · exact .inl hc
    unfold Text.digitsAux at h
    simp only at h
    split at h
    · exact hcons h
    · rcases ih _ _ h with hc | hc
      · exact hcons hc
      · exact .inr hc

theorem mem_decimalChars {c : Char} {n : Int} (h : c ∈ decimalChars n) :
    c = '-' ∨ 48 ≤ c.toNat ∧ c.toNat < 58 := by
  cases n with
  | ofNat n =>
    rcases mem_digitsAux _ _ _ h with hc | hc
    · exact absurd hc (by simp)
    · exact .inr hc
  | negSucc n =>
    rcases List.mem_cons.1 h with hc | h
    · exact .inl hc
    · rcases mem_digitsAux _ _ _ h with hc | hc
      · exact absurd hc (by simp)
      · exact .inr hc

theorem decimalBytes_eq (n : Int) : decimalBytes n = (decimalChars n).map Bytes.ofAscii := by
  have hascii : ∀ c ∈ decimalChars n, c.toNat < 128 := by
    intro c hc
    rcases mem_decimalChars hc with rfl | hc
    · decide
    · omega
  rw [← Bytes.ofText_ofList hascii, decimalBytes]
  cases n with
  | ofNat n => rfl
  | negSucc n =>
    have hminus : "-" = String.ofList ['-'] := by decide
    unfold Text.intInBase Text.inBase decimalChars
    simp only
    rw [hminus, ← String.ofList_append]
    rfl

/-- A number in base ten is made of digits and a minus sign. -/
theorem not_mem_decimalBytes {b : UInt8} (hminus : b.toNat ≠ 45)
    (hdigit : b.toNat < 48 ∨ 58 ≤ b.toNat) (n : Int) : b ∉ decimalBytes n := by
  rw [decimalBytes_eq, List.mem_map]
  rintro ⟨c, hc, hbyte⟩
  have hnat : c.toNat % 256 = b.toNat := by
    have hnat := congrArg UInt8.toNat hbyte
    unfold Bytes.ofAscii at hnat
    rwa [UInt32.toNat_toUInt8] at hnat
  rcases mem_decimalChars hc with rfl | hc
  · exact hminus hnat.symm
  · omega

/-- A number in base ten has no colon in it. -/
theorem colon_not_mem_decimalBytes (n : Int) : 58 ∉ decimalBytes n :=
  not_mem_decimalBytes (by decide) (by decide) n

/-- The number that digits stand for, behind digits that stand for `n`. -/
private def digitsValue (n : Nat) (digits : Bytes) : Nat :=
  digits.foldl (fun n b => 10 * n + (b.toNat - 48)) n

private theorem ofAscii_digitChar {d : Nat} (h : d < 10) :
    (Bytes.ofAscii (Text.digitChar d)).toNat = 48 + d := by
  unfold Bytes.ofAscii
  rw [UInt32.toNat_toUInt8]
  show (Text.digitChar d).toNat % 256 = 48 + d
  rw [digitChar_toNat h]
  omega

private theorem digitsValue_digitsAux (fuel n : Nat) (acc : List Char) (h : n < fuel) :
    digitsValue 0 ((Text.digitsAux 10 fuel n acc).map Bytes.ofAscii) =
      digitsValue n (acc.map Bytes.ofAscii) := by
  induction fuel generalizing n acc with
  | zero => omega
  | succ fuel ih =>
    have hdigit := ofAscii_digitChar (Nat.mod_lt n (show 0 < 10 by omega))
    have hstep (m : Nat) (hm : m = n / 10) :
        digitsValue m ((Text.digitChar (n % 10) :: acc).map Bytes.ofAscii) =
          digitsValue n (acc.map Bytes.ofAscii) := by
      unfold digitsValue
      rw [List.map_cons, List.foldl_cons, hdigit]
      congr 1
      omega
    unfold Text.digitsAux
    simp only
    split
    · rename_i hzero
      exact hstep 0 hzero.symm
    · rename_i hpos
      rw [ih (n / 10) _ (by omega)]
      exact hstep _ rfl

private theorem digitsAux_ne_nil (fuel n : Nat) (acc : List Char) (h : 0 < fuel) :
    Text.digitsAux 10 fuel n acc ≠ [] := by
  induction fuel generalizing n acc with
  | zero => omega
  | succ fuel ih =>
    unfold Text.digitsAux
    simp only
    split
    · simp
    · by_cases hfuel : fuel = 0
      · subst hfuel
        simp [Text.digitsAux]
      · exact ih _ _ (by omega)

/-- The sign shows in the text: a minus sign is no digit. -/
private theorem decimalChars_sign (a b : Nat) : (decimalChars (.ofNat a)).map Bytes.ofAscii ≠
    (decimalChars (.negSucc b)).map Bytes.ofAscii := by
  intro heq
  cases hdigits : decimalChars (.ofNat a) with
  | nil => exact digitsAux_ne_nil _ _ _ (Nat.succ_pos a) hdigits
  | cons c rest =>
    rw [hdigits, decimalChars, List.map_cons, List.map_cons, List.cons.injEq] at heq
    have hmem : c ∈ Text.digitsAux 10 (a + 1) a [] := by
      rw [show Text.digitsAux 10 (a + 1) a [] = c :: rest from hdigits]
      exact List.mem_cons_self
    have hminus : c.toNat % 256 = 45 := by
      have hnat := congrArg UInt8.toNat heq.1
      unfold Bytes.ofAscii at hnat
      rwa [UInt32.toNat_toUInt8] at hnat
    rcases mem_digitsAux _ _ _ hmem with hc | hc
    · exact absurd hc (by simp)
    · omega

/-- A number is determined by its digits. -/
theorem decimalBytes_injective : Function.Injective decimalBytes := by
  intro m n h
  rw [decimalBytes_eq, decimalBytes_eq] at h
  cases m with
  | ofNat a =>
    cases n with
    | ofNat b =>
      have hvalue := congrArg (digitsValue 0) h
      unfold decimalChars at hvalue
      rw [digitsValue_digitsAux _ _ _ (Nat.lt_succ_self a),
        digitsValue_digitsAux _ _ _ (Nat.lt_succ_self b)] at hvalue
      exact congrArg Int.ofNat hvalue
    | negSucc b => exact absurd h (decimalChars_sign a b)
  | negSucc a =>
    cases n with
    | ofNat b => exact absurd h.symm (decimalChars_sign b a)
    | negSucc b =>
      unfold decimalChars at h
      rw [List.map_cons, List.map_cons] at h
      have hvalue := congrArg (digitsValue 0) (List.tail_eq_of_cons_eq h)
      rw [digitsValue_digitsAux _ _ _ (Nat.lt_succ_self (a + 1)),
        digitsValue_digitsAux _ _ _ (Nat.lt_succ_self (b + 1))] at hvalue
      exact congrArg Int.negSucc (Nat.succ.inj hvalue)

/-! ## Framed keys -/

/-- What stands in front of the first mark is determined. -/
theorem Bytes.append_mark_inj {mark : UInt8} {a b s t : Bytes} (ha : mark ∉ a) (hb : mark ∉ b)
    (h : a ++ mark :: s = b ++ mark :: t) : a = b ∧ s = t := by
  induction a generalizing b with
  | nil =>
    cases b with
    | nil => exact ⟨rfl, (List.cons.inj h).2⟩
    | cons y b => exact absurd (List.cons.inj h).1 (fun heq => hb (by simp [heq]))
  | cons x a ih =>
    cases b with
    | nil => exact absurd (List.cons.inj h).1 (fun heq => ha (by simp [heq]))
    | cons y b =>
      obtain ⟨rfl, hrest⟩ := List.cons.inj h
      obtain ⟨rfl, rfl⟩ := ih (fun hmem => ha (List.mem_cons_of_mem x hmem))
        (fun hmem => hb (List.mem_cons_of_mem x hmem)) hrest
      exact ⟨rfl, rfl⟩

/-- A framed key is split off from the left in one way. -/
theorem framedKey_append_inj {a b s t : Bytes} (h : framedKey a ++ s = framedKey b ++ t) :
    a = b ∧ s = t := by
  unfold framedKey at h
  rw [List.append_assoc, List.append_assoc, List.cons_append, List.cons_append] at h
  obtain ⟨hlength, hrest⟩ := Bytes.append_mark_inj (colon_not_mem_decimalBytes _)
    (colon_not_mem_decimalBytes _) h
  have hlen : a.length = b.length := Int.ofNat.inj (decimalBytes_injective hlength)
  exact List.append_inj hrest hlen

/-- A number directly in front of a last framed key is determined, and so is
the key. -/
theorem decimalBytes_framedKey_inj {m n : Nat} {a b : Bytes}
    (h : decimalBytes m ++ framedKey a = decimalBytes n ++ framedKey b) : m = n ∧ a = b := by
  unfold framedKey at h
  rw [← List.append_assoc, ← List.append_assoc] at h
  have hcolon (m : Nat) (a : Bytes) : 58 ∉ decimalBytes m ++ decimalBytes a.length := by
    rw [List.mem_append, not_or]
    exact ⟨colon_not_mem_decimalBytes _, colon_not_mem_decimalBytes _⟩
  obtain ⟨hdigits, rfl⟩ := Bytes.append_mark_inj (hcolon m a) (hcolon n b) h
  have hnumber := List.append_cancel_right hdigits
  exact ⟨Int.ofNat.inj (decimalBytes_injective hnumber), rfl⟩

/-- Parts of a key that can be told apart: each is split off from the left in one way, and the
last one also when a number is directly in front of it. -/
structure Splits {α : Type} (part : α → Bytes) : Prop where
  append_inj : ∀ {a b : α} {s t : Bytes}, part a ++ s = part b ++ t → a = b ∧ s = t
  number_inj : ∀ {m n : Nat} {a b : α},
    decimalBytes m ++ part a = decimalBytes n ++ part b → m = n ∧ a = b

theorem splits_framedKey : Splits framedKey := ⟨framedKey_append_inj, decimalBytes_framedKey_inj⟩

namespace Splits

variable {α : Type} {part : α → Bytes} {ks ls : List α}

theorem flatMap_inj (hpart : Splits part) (hlength : ks.length = ls.length)
    (h : ks.flatMap part = ls.flatMap part) : ks = ls := by
  induction ks generalizing ls with
  | nil => exact (List.eq_nil_of_length_eq_zero hlength.symm).symm
  | cons k ks ih =>
    cases ls with
    | nil => exact absurd hlength (by simp)
    | cons l ls =>
      rw [List.flatMap_cons, List.flatMap_cons] at h
      obtain ⟨rfl, hrest⟩ := hpart.append_inj h
      rw [ih (Nat.succ.inj hlength) hrest]

theorem number_flatMap_inj (hpart : Splits part) {m n : Nat} (hks : ks.length = 1)
    (hls : ls.length = 1)
    (h : decimalBytes m ++ ks.flatMap part = decimalBytes n ++ ls.flatMap part) :
    m = n ∧ ks = ls := by
  obtain ⟨k, rfl⟩ := List.length_eq_one_iff.1 hks
  obtain ⟨l, rfl⟩ := List.length_eq_one_iff.1 hls
  rw [List.flatMap_singleton, List.flatMap_singleton] at h
  obtain ⟨hnumber, hkey⟩ := hpart.number_inj h
  exact ⟨hnumber, by rw [hkey]⟩

end Splits

/-! ## Meanings -/

/-- The entry without what it refers to. -/
def Constant.bare (c : Constant) : Constant := c.mapReferences fun _ => 0

/-- What a constant means: its own data and the meanings of what it refers
to. -/
inductive Meaning
  | node (own : Constant) (parts : List Meaning)

/-- The meaning of an index, when it is found at most `depth` entries down. -/
def Pool.meaning? (p : Pool) : Nat → UInt16 → Option Meaning
  | 0, _ => none
  | depth + 1, i => do
    let c ← p.get? i
    let parts ← c.references.mapM (p.meaning? depth)
    return .node c.bare parts

/-- The index has the given meaning. -/
def Pool.Means (p : Pool) (i : UInt16) (m : Meaning) : Prop :=
  ∃ depth, p.meaning? depth i = some m

/-- The meaning of an index in one pool is its meaning in another. -/
def Pool.SameMeaning (p q : Pool) (i j : UInt16) : Prop :=
  ∃ m, p.Means i m ∧ q.Means j m

private theorem option_mapM_eq_some {α β : Type} {f : α → Option β} {items : List α}
    {answers : List β} :
    items.mapM f = some answers ↔ List.Forall₂ (fun a b => f a = some b) items answers := by
  induction items generalizing answers with
  | nil => simp [eq_comm]
  | cons a items ih =>
    rw [List.mapM_cons, List.forall₂_cons_left_iff]
    simp only [Option.bind_eq_bind, Option.bind_eq_some_iff, Option.pure_def, Option.some.injEq,
      ih]
    constructor
    · intro h
      obtain ⟨b, hb, rest, hrest, rfl⟩ := h
      exact ⟨b, rest, hb, hrest, rfl⟩
    · intro h
      obtain ⟨b, rest, hb, hrest, rfl⟩ := h
      exact ⟨b, hb, rest, hrest, rfl⟩

namespace Pool

variable {p : Pool} {i : UInt16} {m : Meaning}

theorem meaning?_succ {depth : Nat} :
    p.meaning? (depth + 1) i = some m ↔
      ∃ c parts, p.get? i = some c ∧ m = .node c.bare parts ∧
        List.Forall₂ (fun r part => p.meaning? depth r = some part) c.references parts := by
  rw [meaning?]
  simp only [Option.bind_eq_bind, Option.bind_eq_some_iff, Option.pure_def, Option.some.injEq,
    option_mapM_eq_some]
  constructor
  · intro h
    obtain ⟨c, hc, parts, hparts, rfl⟩ := h
    exact ⟨c, parts, hc, rfl, hparts⟩
  · intro h
    obtain ⟨c, parts, hc, rfl, hparts⟩ := h
    exact ⟨c, hc, parts, hparts, rfl⟩

/-- Looking further down finds the same meaning. -/
theorem meaning?_mono {depth depth' : Nat} (hle : depth ≤ depth')
    (h : p.meaning? depth i = some m) : p.meaning? depth' i = some m := by
  induction depth generalizing depth' i m with
  | zero => exact absurd h (by simp [meaning?])
  | succ depth ih =>
    obtain ⟨depth', rfl⟩ : ∃ k, depth' = k + 1 := ⟨depth' - 1, by omega⟩
    obtain ⟨c, parts, hc, hm, hparts⟩ := meaning?_succ.1 h
    exact meaning?_succ.2 ⟨c, parts, hc, hm, hparts.imp fun _ _ hr => ih (by omega) hr⟩

theorem Means.unique {m' : Meaning} (h : p.Means i m) (h' : p.Means i m') : m = m' := by
  obtain ⟨depth, h⟩ := h
  obtain ⟨depth', h'⟩ := h'
  have hmax := meaning?_mono (Nat.le_max_left depth depth') h
  have hmax' := meaning?_mono (Nat.le_max_right depth depth') h'
  exact Option.some.inj (hmax.symm.trans hmax')

private theorem exists_depth {refs : List UInt16} {parts : List Meaning}
    (h : List.Forall₂ p.Means refs parts) :
    ∃ depth, List.Forall₂ (fun r part => p.meaning? depth r = some part) refs parts := by
  induction h with
  | nil => exact ⟨0, .nil⟩
  | cons hr _ ih =>
    obtain ⟨depth, hr⟩ := hr
    obtain ⟨depth', hrest⟩ := ih
    refine ⟨max depth depth', .cons (meaning?_mono (Nat.le_max_left _ _) hr) ?_⟩
    exact hrest.imp fun _ _ => meaning?_mono (Nat.le_max_right _ _)

/-- A meaning is made of the meanings of what the entry refers to. -/
theorem means_iff :
    p.Means i m ↔ ∃ c parts, p.get? i = some c ∧ m = .node c.bare parts ∧
      List.Forall₂ p.Means c.references parts := by
  constructor
  · intro h
    obtain ⟨depth, h⟩ := h
    cases depth with
    | zero => exact absurd h (by simp [meaning?])
    | succ depth =>
      obtain ⟨c, parts, hc, hm, hparts⟩ := meaning?_succ.1 h
      exact ⟨c, parts, hc, hm, hparts.imp fun _ _ hr => ⟨depth, hr⟩⟩
  · intro h
    obtain ⟨c, parts, hc, hm, hparts⟩ := h
    obtain ⟨depth, hparts⟩ := exists_depth hparts
    exact ⟨depth + 1, meaning?_succ.2 ⟨c, parts, hc, hm, hparts⟩⟩

end Pool

/-! ## Keys -/

namespace Meaning

mutual

/-- The key of a meaning. -/
def key : Meaning → Bytes
  | node own parts => own.keyHead ++ keys parts

/-- The framed keys of meanings one after another. -/
def keys : List Meaning → Bytes
  | [] => []
  | m :: rest => framedKey m.key ++ keys rest

end

end Meaning

namespace Constant

theorem keyHead_bare (c : Constant) : c.bare.keyHead = c.keyHead := by
  cases c <;> rfl

/-- The part of a key behind its first byte that holds the entry's own data. -/
def ownKey : Constant → Bytes
  | utf8 raw => raw
  | integer v => decimalBytes v.toInt
  | float bits => decimalBytes bits.toNat
  | long v => decimalBytes v.toInt
  | double bits => decimalBytes bits.toNat
  | methodHandle kind _ => decimalBytes kind.toNat
  | dynamic b _ | invokeDynamic b _ => decimalBytes b.toNat
  | class_ _ | string _ | member .. | nameAndType .. | methodType _ | module _ | package _ => []

/-- A key starts with the tag. -/
theorem keyHead_eq {c : Constant} (h : c.Proper) : c.keyHead = c.tag.code :: c.ownKey := by
  cases c with
  | member kind owner nameAndType =>
    have hascii (c : Char) (h : c.toNat < 128) :
        Bytes.ofText c.toString = [Bytes.ofAscii c] :=
      Bytes.ofText_ofList (by simpa using h)
    rcases h with rfl | rfl | rfl
    · exact hascii (Char.ofNat 9) (by decide)
    · exact hascii (Char.ofNat 10) (by decide)
    · exact hascii (Char.ofNat 11) (by decide)
  | _ => rfl

/-- An entry's own data and the parts for what it refers to can be told apart
behind the tag. -/
theorem ownKey_append_inj {α : Type} {part : α → Bytes} {c d : Constant} {ks ls : List α}
    (hpart : Splits part) (hc : c.Proper) (hd : d.Proper) (htag : c.tag = d.tag)
    (hks : ks.length = c.references.length) (hls : ls.length = d.references.length)
    (h : c.ownKey ++ ks.flatMap part = d.ownKey ++ ls.flatMap part) :
    c.bare = d.bare ∧ ks = ls := by
  -- A tag belongs to one kind of entry, so only pairs of one kind are left.
  cases c <;> cases d <;> try first
    | (simp [tag] at htag; done)
    | (rcases hc with rfl | rfl | rfl <;> simp [tag] at htag <;> done)
    | (rcases hd with rfl | rfl | rfl <;> simp [tag] at htag <;> done)
  case utf8.utf8 =>
    obtain rfl := List.eq_nil_of_length_eq_zero hks
    obtain rfl := List.eq_nil_of_length_eq_zero hls
    simpa [ownKey, bare, mapReferences] using h
  case integer.integer | long.long =>
    obtain rfl := List.eq_nil_of_length_eq_zero hks
    obtain rfl := List.eq_nil_of_length_eq_zero hls
    simp only [ownKey, List.flatMap_nil, List.append_nil] at h
    have hvalue := decimalBytes_injective h
    simp only [Int32.toInt_inj, Int64.toInt_inj] at hvalue
    exact ⟨by rw [hvalue], rfl⟩
  case float.float | double.double =>
    obtain rfl := List.eq_nil_of_length_eq_zero hks
    obtain rfl := List.eq_nil_of_length_eq_zero hls
    simp only [ownKey, List.flatMap_nil, List.append_nil] at h
    have hvalue := decimalBytes_injective h
    simp only [Nat.cast_inj, UInt32.toNat_inj, UInt64.toNat_inj] at hvalue
    exact ⟨by rw [hvalue], rfl⟩
  case methodHandle.methodHandle | dynamic.dynamic | invokeDynamic.invokeDynamic =>
    obtain ⟨hnumber, hkeys⟩ := hpart.number_flatMap_inj hks hls h
    simp only [UInt8.toNat_inj, UInt16.toNat_inj] at hnumber
    exact ⟨by rw [hnumber]; rfl, hkeys⟩
  case member.member =>
    simp only [tag] at htag
    exact ⟨by rw [htag]; rfl, hpart.flatMap_inj (hks.trans hls.symm) h⟩
  all_goals exact ⟨rfl, hpart.flatMap_inj (hks.trans hls.symm) h⟩

end Constant

theorem Meaning.keys_eq (parts : List Meaning) :
    Meaning.keys parts = (parts.map Meaning.key).flatMap framedKey := by
  induction parts with
  | nil => rfl
  | cons m parts ih => rw [Meaning.keys, ih, List.map_cons, List.flatMap_cons]

private theorem Meaning.parts_eq_of_keys {P Q : UInt16 → Meaning → Prop}
    {refs refs' : List UInt16} {parts parts' : List Meaning}
    (h : List.Forall₂ P refs parts) (h' : List.Forall₂ Q refs' parts')
    (hinj : ∀ r m r' n, P r m → Q r' n → m.key = n.key → m = n)
    (hkeys : parts.map Meaning.key = parts'.map Meaning.key) : parts = parts' := by
  induction h generalizing refs' parts' with
  | nil =>
    rw [List.map_nil] at hkeys
    exact (List.map_eq_nil_iff.1 hkeys.symm).symm
  | cons hpart _ ih =>
    cases h' with
    | nil => exact absurd hkeys (by simp)
    | cons hpart' hrest' =>
      rw [List.map_cons, List.map_cons] at hkeys
      obtain ⟨hkey, hkeys⟩ := List.cons.inj hkeys
      rw [hinj _ _ _ _ hpart hpart' hkey, ih hrest' hkeys]

namespace Pool

variable {p : Pool}

theorem get?_eq_some {i : UInt16} {c : Constant} :
    p.get? i = some c ↔ p.slots[i.toNat]? = some (some c) := by
  rw [get?, Option.join_eq_some_iff]

theorem mem_of_get? {i : UInt16} {c : Constant} (h : p.get? i = some c) :
    some c ∈ p.slots.toList := by
  rw [get?_eq_some] at h
  rw [Array.mem_toList_iff]
  exact Array.mem_of_getElem? h

/-- Every member entry has one of the three member tags. -/
def Proper (p : Pool) : Prop := ∀ c, some c ∈ p.slots.toList → c.Proper

/-- A key belongs to one meaning only. -/
theorem key_injective (hp : p.Proper) {i j : UInt16} {m n : Meaning} (hm : p.Means i m)
    (hn : p.Means j n) (h : m.key = n.key) : m = n := by
  obtain ⟨depth, hm⟩ := hm
  induction depth generalizing i j m n with
  | zero => exact absurd hm (by simp [meaning?])
  | succ depth ih =>
    obtain ⟨c, parts, hc, rfl, hparts⟩ := meaning?_succ.1 hm
    obtain ⟨d, parts', hd, rfl, hparts'⟩ := means_iff.1 hn
    have hcProper := hp c (mem_of_get? hc)
    have hdProper := hp d (mem_of_get? hd)
    rw [Meaning.key, Meaning.key, Constant.keyHead_bare, Constant.keyHead_bare,
      Constant.keyHead_eq hcProper, Constant.keyHead_eq hdProper, List.cons_append,
      List.cons_append, Meaning.keys_eq, Meaning.keys_eq] at h
    obtain ⟨hcode, hrest⟩ := List.cons.inj h
    have htag : c.tag = d.tag := congrArg Tag.mk hcode
    obtain ⟨hbare, hkeys⟩ := Constant.ownKey_append_inj splits_framedKey hcProper hdProper htag
      (by rw [List.length_map, hparts.length_eq]) (by rw [List.length_map, hparts'.length_eq])
      hrest
    have hsame : parts = parts' :=
      Meaning.parts_eq_of_keys hparts hparts' (fun _ _ _ _ hm hn hkey => ih hn hkey hm) hkeys
    rw [hbare, hsame]

end Pool

end Cleartext
