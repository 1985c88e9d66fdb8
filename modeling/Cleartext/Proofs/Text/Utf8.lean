import Mathlib.Data.List.Basic
import Cleartext.Text.Quoted

/-!
# Texts in UTF-8

A text is written character by character, and reading the bytes gives the characters back.

* `Bytes.ofText_eq`: the bytes of a text are those of its characters.
* `Text.utf8Head?_encode`: the bytes of a character read as this character, whatever follows.
* `Text.lossy_ofText`: a text that was written is read without a loss.
-/

namespace Cleartext

/-! ## The bytes of a text -/

namespace Bytes

private theorem toList_loop (bs : ByteArray) (i : Nat) (acc : List UInt8) :
    ByteArray.toList.loop bs i acc = acc.reverse ++ bs.data.toList.drop i := by
  fun_induction ByteArray.toList.loop bs i acc with
  | case1 i acc hlt ih =>
    have hdrop : bs.data.toList.drop i = bs.get! i :: bs.data.toList.drop (i + 1) := by
      rw [List.drop_eq_getElem_cons (by simpa using hlt)]
      simp [ByteArray.get!, getElem!_pos, hlt]
    rw [ih, List.reverse_cons, List.append_assoc, hdrop]
    rfl
  | case2 i acc hge =>
    have hsize : bs.size = bs.data.toList.length := rfl
    rw [List.drop_eq_nil_of_le (by omega), List.append_nil]

/-- The bytes of a text are those of its characters. -/
theorem ofText_eq (text : String) : ofText text = text.toList.flatMap String.utf8EncodeChar := by
  rw [ofText, String.toUTF8_eq_toByteArray, ← String.utf8Encode_toList, List.utf8Encode]
  exact (toList_loop _ 0 []).trans List.toList_data_toByteArray

end Bytes

namespace Text

/-! ## One character -/

/-- A byte behind the first of a character holds six bits of it. -/
theorem continuation {n : Nat} (h : n < 64) :
    (UInt8.ofNat (n + 128) &&& 0xc0 == 0x80) = true ∧ (UInt8.ofNat (n + 128) &&& 0x3f).toNat = n := by
  have hall : ∀ n < 64, (UInt8.ofNat (n + 128) &&& 0xc0 == 0x80) = true ∧
      (UInt8.ofNat (n + 128) &&& 0x3f).toNat = n := by decide
  exact hall n h

/-- The first of two bytes holds five bits. -/
theorem leading_two {n : Nat} (hlow : 2 ≤ n) (h : n < 32) :
    ¬ UInt8.ofNat (n + 192) < 0x80 ∧ 0xc2 ≤ UInt8.ofNat (n + 192) ∧ UInt8.ofNat (n + 192) < 0xe0 ∧
      (UInt8.ofNat (n + 192) &&& 0x1f).toNat = n := by
  have hall : ∀ n < 32, 2 ≤ n → ¬ UInt8.ofNat (n + 192) < 0x80 ∧ 0xc2 ≤ UInt8.ofNat (n + 192) ∧
      UInt8.ofNat (n + 192) < 0xe0 ∧ (UInt8.ofNat (n + 192) &&& 0x1f).toNat = n := by decide
  exact hall n h hlow

/-- The first of three bytes holds four bits. -/
theorem leading_three {n : Nat} (h : n < 16) :
    ¬ UInt8.ofNat (n + 224) < 0x80 ∧ ¬ UInt8.ofNat (n + 224) < 0xe0 ∧ 0xe0 ≤ UInt8.ofNat (n + 224) ∧
      UInt8.ofNat (n + 224) < 0xf0 ∧ (UInt8.ofNat (n + 224) &&& 0x0f).toNat = n := by
  have hall : ∀ n < 16, ¬ UInt8.ofNat (n + 224) < 0x80 ∧ ¬ UInt8.ofNat (n + 224) < 0xe0 ∧
      0xe0 ≤ UInt8.ofNat (n + 224) ∧ UInt8.ofNat (n + 224) < 0xf0 ∧
      (UInt8.ofNat (n + 224) &&& 0x0f).toNat = n := by decide
  exact hall n h

/-- The first of four bytes holds three bits. -/
theorem leading_four {n : Nat} (h : n < 5) :
    ¬ UInt8.ofNat (n + 240) < 0x80 ∧ ¬ UInt8.ofNat (n + 240) < 0xe0 ∧ ¬ UInt8.ofNat (n + 240) < 0xf0 ∧
      0xf0 ≤ UInt8.ofNat (n + 240) ∧ UInt8.ofNat (n + 240) < 0xf5 ∧
      (UInt8.ofNat (n + 240) &&& 0x07).toNat = n := by
  have hall : ∀ n < 5, ¬ UInt8.ofNat (n + 240) < 0x80 ∧ ¬ UInt8.ofNat (n + 240) < 0xe0 ∧
      ¬ UInt8.ofNat (n + 240) < 0xf0 ∧ 0xf0 ≤ UInt8.ofNat (n + 240) ∧
      UInt8.ofNat (n + 240) < 0xf5 ∧ (UInt8.ofNat (n + 240) &&& 0x07).toNat = n := by decide
  exact hall n h

/-- The bytes of a character read as this character, whatever follows. -/
theorem utf8Head?_encode (c : Char) (rest : Bytes) :
    utf8Head? (String.utf8EncodeChar c ++ rest) = some (c, (String.utf8EncodeChar c).length) := by
  have hvalid : c.toNat < 0xd800 ∨ 0xdfff < c.toNat ∧ c.toNat < 0x110000 := c.valid
  have hchar : Char.ofNat c.toNat = c := Char.ofNat_toNat c
  unfold String.utf8EncodeChar
  simp only [show c.val.toNat = c.toNat from rfl]
  generalize c.toNat = n at *
  split
  · have htoNat : (UInt8.ofNat n).toNat = n := UInt8.toNat_ofNat_of_lt' (by show n < 256; omega)
    have hlt : UInt8.ofNat n < 0x80 := by
      rw [UInt8.lt_iff_toNat_lt, htoNat]
      show n < 128
      omega
    unfold utf8Head?
    simp [hlt, htoNat, hchar]
  split
  · obtain ⟨hascii, hlow, hhigh, hfirst⟩ := @leading_two (n / 64 % 32) (by omega) (by omega)
    obtain ⟨hcont, hbits⟩ := @continuation (n % 64) (by omega)
    have hvalue : n / 64 % 32 * 64 + n % 64 = n := by omega
    generalize UInt8.ofNat (n / 64 % 32 + 192) = a at *
    generalize UInt8.ofNat (n % 64 + 128) = b at *
    show utf8Head? (a :: b :: rest) = _
    unfold utf8Head?
    simp only [hascii, hlow, hhigh, hfirst, hcont, hbits, hvalue, hchar, if_false, if_true,
      decide_true, Bool.and_self, List.length_cons, List.length_nil]
  split
  · obtain ⟨hascii, htwo, hlow, hhigh, hfirst⟩ := @leading_three (n / 4096 % 16) (by omega)
    obtain ⟨hcont, hbits⟩ := @continuation (n / 64 % 64) (by omega)
    obtain ⟨hcont', hbits'⟩ := @continuation (n % 64) (by omega)
    have hvalue : (n / 4096 % 16 * 64 + n / 64 % 64) * 64 + n % 64 = n := by omega
    have hrange : (decide (0x800 ≤ n) && !(decide (0xd800 ≤ n) && decide (n < 0xe000))) = true := by
      simp
      omega
    generalize UInt8.ofNat (n / 4096 % 16 + 224) = a at *
    generalize UInt8.ofNat (n / 64 % 64 + 128) = b at *
    generalize UInt8.ofNat (n % 64 + 128) = d at *
    show utf8Head? (a :: b :: d :: rest) = _
    unfold utf8Head?
    simp only [hascii, htwo, hlow, hhigh, hfirst, hcont, hbits, hcont', hbits', hvalue, hrange, hchar,
      if_false, if_true, decide_true, decide_false, Bool.and_self, Bool.and_false, Bool.true_and,
      Bool.false_eq_true, List.length_cons, List.length_nil]
  · obtain ⟨hascii, htwo, hthree, hlow, hhigh, hfirst⟩ := @leading_four (n / 262144 % 8) (by omega)
    obtain ⟨hcont, hbits⟩ := @continuation (n / 4096 % 64) (by omega)
    obtain ⟨hcont', hbits'⟩ := @continuation (n / 64 % 64) (by omega)
    obtain ⟨hcont'', hbits''⟩ := @continuation (n % 64) (by omega)
    have hvalue : ((n / 262144 % 8 * 64 + n / 4096 % 64) * 64 + n / 64 % 64) * 64 + n % 64 = n := by
      omega
    have hrange : (decide (0x10000 ≤ n) && decide (n < 0x110000)) = true := by
      simp
      omega
    generalize UInt8.ofNat (n / 262144 % 8 + 240) = a at *
    generalize UInt8.ofNat (n / 4096 % 64 + 128) = b at *
    generalize UInt8.ofNat (n / 64 % 64 + 128) = d at *
    generalize UInt8.ofNat (n % 64 + 128) = e at *
    show utf8Head? (a :: b :: d :: e :: rest) = _
    unfold utf8Head?
    simp only [hascii, htwo, hthree, hlow, hhigh, hfirst, hcont, hbits, hcont', hbits', hcont'',
      hbits'', hvalue, hrange, hchar, if_false, if_true, decide_true, decide_false, Bool.and_self,
      Bool.and_false, Bool.true_and, Bool.false_eq_true, List.length_cons, List.length_nil]

/-! ## Texts -/

/-- The bytes of characters are taken apart into these characters, with any fuel that is
enough. -/
theorem piecesAux_encode (chars : List Char) (fuel : Nat)
    (h : (chars.flatMap String.utf8EncodeChar).length ≤ fuel) :
    piecesAux fuel (chars.flatMap String.utf8EncodeChar) = chars.map .char := by
  induction chars generalizing fuel with
  | nil => cases fuel <;> rfl
  | cons c chars ih =>
    have hhead := utf8Head?_encode c (chars.flatMap String.utf8EncodeChar)
    rw [List.flatMap_cons, List.length_append] at h
    rw [List.flatMap_cons]
    cases hbytes : String.utf8EncodeChar c with
    | nil => exact absurd hbytes String.utf8EncodeChar_ne_nil
    | cons b rest =>
      rw [hbytes, List.length_cons] at h
      rw [hbytes, List.cons_append, List.length_cons] at hhead
      cases fuel with
      | zero => omega
      | succ fuel =>
        rw [List.cons_append, piecesAux, hhead]
        show Piece.char c :: piecesAux fuel (List.drop rest.length _) = _
        rw [List.drop_left, ih fuel (by omega)]
        rfl

/-- A text that was written is read without a loss. -/
theorem lossy_ofText (text : String) : lossy (Bytes.ofText text) = text := by
  rw [lossy, pieces, Bytes.ofText_eq, piecesAux_encode _ _ (Nat.le_refl _), List.map_map]
  exact (congrArg String.ofList (List.map_id _)).trans String.ofList_toList

end Text

end Cleartext
