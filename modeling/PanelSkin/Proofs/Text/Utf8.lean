import Mathlib
import PanelSkin.Text.Utf8

/-!
Text encoded as UTF-8 is decoded to the same text. The four lengths of a sequence are treated
apart: in each the lead byte selects the branch of its length, the continuation bytes give back
the six bits they carry, and the code point is recomposed from them.
-/

namespace PanelSkin.Text

private theorem toNat_ofNat_byte (n : Nat) (hn : n < 256) : (UInt8.ofNat n).toNat = n := by
  simp only [UInt8.toNat_ofNat']
  omega

private theorem continuation_ofNat (n : Nat) (hn : n < 64) :
    continuation (UInt8.ofNat (n + 0x80)) = some n := by
  have hvalue := toNat_ofNat_byte (n + 0x80) (by omega)
  have hrange : (0x80 : UInt8) ≤ UInt8.ofNat (n + 0x80) ∧ UInt8.ofNat (n + 0x80) ≤ 0xBF := by
    simp only [UInt8.le_iff_toNat_le, hvalue, UInt8.toNat_ofNat]
    omega
  rw [continuation, if_pos hrange, hvalue, Nat.add_sub_cancel]

private theorem scalarFrom_toNat (least n : Nat) (c : Char) (hn : n = c.toNat)
    (hleast : least ≤ n) : scalarFrom least n = some c := by
  subst hn
  have hvalid : c.toNat.isValidChar := c.valid
  rw [scalarFrom, dif_pos ⟨hleast, hvalid⟩]
  rfl

private theorem leadChar_single (n : Nat) (hn : n < 0x80) (rest : List UInt8) :
    leadChar (UInt8.ofNat n) rest = (Char.ofNat n, 0) := by
  have hvalue := toNat_ofNat_byte n (by omega)
  simp only [leadChar, UInt8.le_iff_toNat_le, hvalue, UInt8.toNat_ofNat]
  rw [if_neg (by omega), if_neg (by omega), if_neg (by omega)]

private theorem leadChar_pair (c : Char) (rest : List UInt8) (hleast : 0x80 ≤ c.toNat)
    (hmost : c.toNat < 0x800) :
    leadChar (UInt8.ofNat (c.toNat / 64 % 0x20 + 0xC0))
      (UInt8.ofNat (c.toNat % 0x40 + 0x80) :: rest) = (c, 1) := by
  have hlead := toNat_ofNat_byte (c.toNat / 64 % 0x20 + 0xC0) (by omega)
  have hpair : pairChar (UInt8.ofNat (c.toNat / 64 % 0x20 + 0xC0))
      (UInt8.ofNat (c.toNat % 0x40 + 0x80) :: rest) = some c := by
    simp only [pairChar, continuation_ofNat _ (Nat.mod_lt _ (by omega)), hlead]
    exact scalarFrom_toNat _ _ c (by omega) (by omega)
  simp only [leadChar, UInt8.le_iff_toNat_le, hlead, UInt8.toNat_ofNat, hpair]
  rw [if_pos (by omega)]
  rfl

private theorem leadChar_triple (c : Char) (rest : List UInt8) (hleast : 0x800 ≤ c.toNat)
    (hmost : c.toNat < 0x10000) :
    leadChar (UInt8.ofNat (c.toNat / 4096 % 0x10 + 0xE0))
      (UInt8.ofNat (c.toNat / 64 % 0x40 + 0x80) ::
        UInt8.ofNat (c.toNat % 0x40 + 0x80) :: rest) = (c, 2) := by
  have hlead := toNat_ofNat_byte (c.toNat / 4096 % 0x10 + 0xE0) (by omega)
  have htriple : tripleChar (UInt8.ofNat (c.toNat / 4096 % 0x10 + 0xE0))
      (UInt8.ofNat (c.toNat / 64 % 0x40 + 0x80) ::
        UInt8.ofNat (c.toNat % 0x40 + 0x80) :: rest) = some c := by
    simp only [tripleChar, continuation_ofNat _ (Nat.mod_lt _ (by omega)), hlead]
    exact scalarFrom_toNat _ _ c (by omega) (by omega)
  simp only [leadChar, UInt8.le_iff_toNat_le, hlead, UInt8.toNat_ofNat, htriple]
  rw [if_neg (by omega), if_pos (by omega)]
  rfl

private theorem leadChar_quad (c : Char) (rest : List UInt8) (hleast : 0x10000 ≤ c.toNat)
    (hmost : c.toNat < 0x110000) :
    leadChar (UInt8.ofNat (c.toNat / 262144 % 0x08 + 0xF0))
      (UInt8.ofNat (c.toNat / 4096 % 0x40 + 0x80) ::
        UInt8.ofNat (c.toNat / 64 % 0x40 + 0x80) ::
          UInt8.ofNat (c.toNat % 0x40 + 0x80) :: rest) = (c, 3) := by
  have hlead := toNat_ofNat_byte (c.toNat / 262144 % 0x08 + 0xF0) (by omega)
  have hquad : quadChar (UInt8.ofNat (c.toNat / 262144 % 0x08 + 0xF0))
      (UInt8.ofNat (c.toNat / 4096 % 0x40 + 0x80) ::
        UInt8.ofNat (c.toNat / 64 % 0x40 + 0x80) ::
          UInt8.ofNat (c.toNat % 0x40 + 0x80) :: rest) = some c := by
    simp only [quadChar, continuation_ofNat _ (Nat.mod_lt _ (by omega)), hlead]
    exact scalarFrom_toNat _ _ c (by omega) (by omega)
  simp only [leadChar, UInt8.le_iff_toNat_le, hlead, UInt8.toNat_ofNat, hquad]
  rw [if_neg (by omega), if_neg (by omega), if_pos (by omega)]
  rfl

/-- The bytes of a character, read from its lead byte on, give the character and the number of
bytes behind the lead byte. What follows the character plays no part. -/
theorem leadChar_utf8EncodeChar (c : Char) (rest : List UInt8) :
    ∃ lead tail, String.utf8EncodeChar c = lead :: tail ∧
      leadChar lead (tail ++ rest) = (c, tail.length) := by
  have hvalid : c.toNat < 0xD800 ∨ 0xDFFF < c.toNat ∧ c.toNat < 0x110000 := c.valid
  have hval : c.val.toNat = c.toNat := rfl
  unfold String.utf8EncodeChar
  simp only [hval]
  split
  · refine ⟨_, [], rfl, ?_⟩
    rw [leadChar_single _ (by omega), Char.ofNat_toNat]
    rfl
  · split
    · exact ⟨_, [_], rfl, leadChar_pair c rest (by omega) (by omega)⟩
    · split
      · exact ⟨_, [_, _], rfl, leadChar_triple c rest (by omega) (by omega)⟩
      · exact ⟨_, [_, _, _], rfl, leadChar_quad c rest (by omega) (by omega)⟩

/-- Bytes that belong to a character already read are passed over. -/
theorem decodeAfter_append (bytes rest : List UInt8) :
    decodeAfter bytes.length (bytes ++ rest) = decodeAfter 0 rest := by
  induction bytes with
  | nil => rfl
  | cons byte bytes ih => exact ih

theorem decodeBytes_flatMap_utf8EncodeChar (text : List Char) :
    decodeBytes (text.flatMap String.utf8EncodeChar) = text := by
  induction text with
  | nil => rfl
  | cons c text ih =>
      obtain ⟨lead, tail, hbytes, hlead⟩ :=
        leadChar_utf8EncodeChar c (text.flatMap String.utf8EncodeChar)
      rw [List.flatMap_cons, hbytes]
      simp only [decodeBytes, List.cons_append, decodeAfter, hlead, decodeAfter_append]
      exact congrArg (c :: ·) ih

/-- Decoding gives back every text from its UTF-8 bytes. -/
theorem decodeBytes_toUTF8 (text : List Char) :
    decodeBytes (String.ofList text).toUTF8.data.toList = text := by
  have hbytes : (String.ofList text).toUTF8.data.toList =
      text.flatMap String.utf8EncodeChar := by
    rw [String.toUTF8_eq_toByteArray, String.toByteArray_ofList]
    exact List.toList_data_toByteArray
  rw [hbytes, decodeBytes_flatMap_utf8EncodeChar]

end PanelSkin.Text
