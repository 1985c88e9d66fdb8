import Cleartext.Text.Utf16
import Mathlib.Data.Nat.Bitwise

/-!
# Texts and their code units

A character beyond the first 65536 is written as a pair of surrogates, and every other one
as a single unit, which is no surrogate.  So a text can be read back from its code units.

* `chars_ofChar`: the units of a character read as this character, whatever follows.
* `text_ofText`: the units of a text read as the text.
* `text_inj`: a text without U+FFFD is read from its own units only.
-/

namespace Cleartext.Units

variable {c : Char} {u high low : UInt16}

theorem isHigh_iff : isHigh u = true ↔ 0xd800 ≤ u.toNat ∧ u.toNat ≤ 0xdbff := by
  simp [isHigh, UInt16.le_iff_toNat_le]

theorem isLow_iff : isLow u = true ↔ 0xdc00 ≤ u.toNat ∧ u.toNat ≤ 0xdfff := by
  simp [isLow, UInt16.le_iff_toNat_le]

/-- A character is no surrogate, and it is below 0x110000. -/
theorem char_range (c : Char) : c.toNat < 0xd800 ∨ 0xdfff < c.toNat ∧ c.toNat < 0x110000 := c.valid

/-- A unit that is no surrogate is a character of its own. -/
theorem chars_single (hhigh : isHigh u = false) (hlow : isLow u = false) (rest : Units) :
    chars (u :: rest) = Char.ofNat u.toNat :: chars rest := by
  cases rest with
  | nil => simp [chars, hhigh, hlow]
  | cons v rest => simp [chars, hhigh, hlow]

/-- A pair of surrogates is one character. -/
theorem chars_pair (hhigh : isHigh high = true) (hlow : isLow low = true) (rest : Units) :
    chars (high :: low :: rest) = pairChar high low :: chars rest := by
  simp [chars, hhigh, hlow]

/-- The single unit of a character. -/
theorem ofChar_single (h : c.toNat < 0x10000) : ofChar c = [c.toNat.toUInt16] := by
  have hlt : c.val < 0x10000 := UInt32.lt_iff_toNat_lt.2 h
  rw [ofChar, if_pos hlt]
  rfl

/-- The two units of a character, as numbers. -/
theorem ofChar_pair (h : ¬ c.toNat < 0x10000) :
    ∃ high low, ofChar c = [high, low] ∧
      high.toNat = 0xd800 + (c.toNat - 0x10000) / 0x400 ∧
      low.toNat = 0xdc00 + (c.toNat - 0x10000) % 0x400 := by
  have hlt : ¬ c.val < 0x10000 := fun hlt => h (UInt32.lt_iff_toNat_lt.1 hlt)
  have hbound := char_range c
  have hrest : (c.val - 0x10000).toNat = c.toNat - 0x10000 :=
    UInt32.toNat_sub_of_le _ _ (UInt32.le_iff_toNat_le.2 (Nat.le_of_not_lt h))
  refine ⟨_, _, by rw [ofChar, if_neg hlt], ?_, ?_⟩
  · have hshift : ((c.val - 0x10000) >>> 10).toNat = (c.toNat - 0x10000) / 0x400 := by
      rw [UInt32.toNat_shiftRight, hrest, Nat.shiftRight_eq_div_pow]
      rfl
    rw [UInt16.toNat_add, UInt32.toNat_toUInt16, hshift]
    show (0xd800 + _ % 65536) % 65536 = _
    omega
  · have hmask : ((c.val - 0x10000) &&& 0x3ff).toNat = (c.toNat - 0x10000) % 0x400 := by
      rw [UInt32.toNat_and, hrest]
      exact Nat.and_two_pow_sub_one_eq_mod _ 10
    rw [UInt16.toNat_add, UInt32.toNat_toUInt16, hmask]
    show (0xdc00 + _ % 65536) % 65536 = _
    omega

/-- The units of a character read as this character, whatever follows. -/
theorem chars_ofChar (c : Char) (rest : Units) : chars (ofChar c ++ rest) = c :: chars rest := by
  have hbound := char_range c
  by_cases hsingle : c.toNat < 0x10000
  · have hunit : c.toNat.toUInt16.toNat = c.toNat := UInt16.toNat_ofNat_of_lt' hsingle
    have hhigh : isHigh c.toNat.toUInt16 = false := by
      rw [Bool.eq_false_iff, ne_eq, isHigh_iff]
      omega
    have hlow : isLow c.toNat.toUInt16 = false := by
      rw [Bool.eq_false_iff, ne_eq, isLow_iff]
      omega
    rw [ofChar_single hsingle, List.singleton_append, chars_single hhigh hlow, hunit,
      Char.ofNat_toNat]
  · obtain ⟨high, low, hunits, hhigh, hlow⟩ := ofChar_pair hsingle
    have hcode : 0x10000 + (high.toNat - 0xd800) * 0x400 + (low.toNat - 0xdc00) = c.toNat := by
      omega
    rw [hunits, List.cons_append, List.singleton_append,
      chars_pair (isHigh_iff.2 (by omega)) (isLow_iff.2 (by omega)), pairChar, hcode,
      Char.ofNat_toNat]

/-- The units of a text read as the text. -/
theorem text_ofText (s : String) : (ofText s).text = s := by
  have hchars : ∀ cs : List Char, chars (cs.flatMap ofChar) = cs := by
    intro cs
    induction cs with
    | nil => rfl
    | cons c cs ih => rw [List.flatMap_cons, chars_ofChar, ih]
  rw [text, ofText, hchars, String.ofList_toList]

private theorem toNat_ofNat {n : Nat} (h : n.isValidChar) : (Char.ofNat n).toNat = n := by
  rw [Char.ofNat, dif_pos h]
  rfl

/-- A unit that is no surrogate is the unit of its character. -/
theorem ofChar_ofNat (hhigh : isHigh u = false) (hlow : isLow u = false) :
    ofChar (Char.ofNat u.toNat) = [u] := by
  rw [Bool.eq_false_iff, ne_eq, isHigh_iff] at hhigh
  rw [Bool.eq_false_iff, ne_eq, isLow_iff] at hlow
  have hlt := u.toNat_lt
  have hvalid : u.toNat.isValidChar := by
    unfold Nat.isValidChar
    omega
  have hcode := toNat_ofNat hvalid
  rw [ofChar_single (by omega), hcode]
  exact congrArg (fun u => [u]) UInt16.ofNat_toNat

/-- A pair of surrogates is the units of its character. -/
theorem ofChar_pairChar (hhigh : isHigh high = true) (hlow : isLow low = true) :
    ofChar (pairChar high low) = [high, low] := by
  rw [isHigh_iff] at hhigh
  rw [isLow_iff] at hlow
  have hvalid : Nat.isValidChar
      (0x10000 + (high.toNat - 0xd800) * 0x400 + (low.toNat - 0xdc00)) := by
    unfold Nat.isValidChar
    omega
  have hcode := toNat_ofNat hvalid
  obtain ⟨high', low', hunits, hhigh', hlow'⟩ := ofChar_pair (c := pairChar high low) (by
    rw [pairChar, hcode]
    omega)
  rw [pairChar, hcode] at hhigh' hlow'
  obtain rfl : high' = high := UInt16.toNat_inj.1 (by omega)
  obtain rfl : low' = low := UInt16.toNat_inj.1 (by omega)
  exact hunits

/-- Units are those of their characters, where no unpaired surrogate reads U+FFFD. -/
theorem flatMap_chars {units : Units} (h : replacement ∉ chars units) :
    (chars units).flatMap ofChar = units := by
  have hplain {u : UInt16} (hu : replacement ≠
      if isHigh u || isLow u then replacement else Char.ofNat u.toNat) :
      ofChar (if isHigh u || isLow u then replacement else Char.ofNat u.toNat) = [u] := by
    split at hu
    · exact absurd rfl hu
    · rename_i hsurrogate
      rw [Bool.or_eq_true, not_or, Bool.not_eq_true, Bool.not_eq_true] at hsurrogate
      rw [hsurrogate.1, hsurrogate.2]
      exact ofChar_ofNat hsurrogate.1 hsurrogate.2
  fun_induction chars units with
  | case1 => rfl
  | case2 u => rw [List.flatMap_singleton, hplain (List.ne_of_not_mem_cons h)]
  | case3 u v rest hpair ih =>
    rw [Bool.and_eq_true] at hpair
    rw [List.flatMap_cons, ofChar_pairChar hpair.1 hpair.2, ih (List.not_mem_of_not_mem_cons h)]
    rfl
  | case4 u v rest _ ih =>
    rw [List.flatMap_cons, hplain (List.ne_of_not_mem_cons h), ih (List.not_mem_of_not_mem_cons h)]
    rfl

/-- A text without U+FFFD is read from its own units only. -/
theorem text_inj {units units' : Units} (h : replacement ∉ units.text.toList)
    (heq : units'.text = units.text) : units' = units := by
  have hown {units : Units} (h : replacement ∉ units.text.toList) : units = ofText units.text := by
    rw [text, String.toList_ofList] at h
    rw [text, ofText, String.toList_ofList, flatMap_chars h]
  exact (hown (heq ▸ h)).trans ((congrArg ofText heq).trans (hown h).symm)

/-- Only its own units read as a text of ASCII. -/
theorem eq_ofText {units : Units} {s : String} (hs : ∀ c ∈ s.toList, c.toNat < 0x80)
    (h : units.text = s) : units = ofText s := by
  rw [← text_ofText s] at h
  refine text_inj (fun hmem => ?_) h
  rw [text_ofText] at hmem
  exact absurd (hs _ hmem) (by decide)

end Cleartext.Units
